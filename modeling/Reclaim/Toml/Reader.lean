import Reclaim.Toml.Number

/-!
Reading TOML documents. Statements are read one by one: a key with a value, the header of a
table, or the header of an item of an array of tables. A table that was opened by a header, or by
the dotted keys of an earlier section, is not opened again, and nothing is added to arrays and
tables that were written as values.
-/

namespace Reclaim.Toml

/-- Whether a key or a beginning of it is among the given ones. -/
def covered (keys : List Key) (key : Key) : Bool :=
  keys.any fun k => k.isPrefixOf key

mutual

def readValue : Nat → List Char → Except Defect (Value × List Char)
  | 0, _ => .error .malformed
  | fuel + 1, cs =>
      match cs with
      | '"' :: _ => do
          let (text, rest) ← readString cs
          return (.string text, rest)
      | '\'' :: _ => do
          let (text, rest) ← readString cs
          return (.string text, rest)
      | 't' :: 'r' :: 'u' :: 'e' :: rest => .ok (.boolean true, rest)
      | 'f' :: 'a' :: 'l' :: 's' :: 'e' :: rest => .ok (.boolean false, rest)
      | '[' :: rest => do
          match ← skipLines false rest with
          | ']' :: rest => return (.array [], rest)
          | rest => readItems fuel [] rest
      | '\x7b' :: rest =>
          match skipGaps rest with
          | '\x7d' :: rest => .ok (.table [], rest)
          | rest => readEntries fuel [] [] rest
      | cs =>
          match moment? cs with
          | some read => read
          | none =>
              match number? cs with
              | some read => read
              | none =>
                  match specialFloat? cs with
                  | some read => .ok read
                  | none => .error .malformed

def readItems : Nat → List Value → List Char → Except Defect (Value × List Char)
  | 0, _, _ => .error .malformed
  | fuel + 1, items, cs => do
      let (item, rest) ← readValue fuel cs
      match ← skipLines false rest with
      | ']' :: rest => return (.array (items ++ [item]), rest)
      | ',' :: rest =>
          match ← skipLines false rest with
          | ']' :: rest => return (.array (items ++ [item]), rest)
          | rest => readItems fuel (items ++ [item]) rest
      | _ => .error .malformed

/-- Reads the entries of a table written as a value, after those that have been read. The keys of
entries that are arrays or tables themselves are closed. -/
def readEntries : Nat → List Key → Table → List Char → Except Defect (Value × List Char)
  | 0, _, _, _ => .error .malformed
  | fuel + 1, closed, entries, cs => do
      let (key, rest) ← readKey cs
      match rest with
      | '=' :: rest =>
          let (value, rest) ← readValue fuel (skipGaps rest)
          if covered closed key then .error .malformed
          else
            let entries ← Table.modifyAt false (fun t => Table.add t (key.getLastD "") value)
              key.dropLast entries
            match skipGaps rest with
            | '\x7d' :: rest => return (.table entries, rest)
            | ',' :: rest =>
                let closed := if value.isNested then key :: closed else closed
                readEntries fuel closed entries (skipGaps rest)
            | _ => .error .malformed
      | _ => .error .malformed

end

structure Progress where
  table : Table
  -- tables that no header opens again
  opened : List Key
  -- tables made by dotted keys, which no header opens once their section has ended
  dotted : List Key
  -- arrays and tables that were written as values
  closed : List Key
  -- the table of the current section
  header : Key

namespace Progress

def start : Progress := ⟨[], [], [], [], []⟩

/-- The section ends: the tables made by its dotted keys count as opened. -/
def endSection (p : Progress) : Progress :=
  { p with opened := p.dotted ++ p.opened, dotted := [] }

def openTable (p : Progress) (key : Key) : Except Defect Progress :=
  if p.opened.contains key || covered p.closed key then .error .malformed
  else do
    let table ← p.table.modifyAt true .ok key
    return { p with table, opened := key :: p.opened, header := key }

/-- Opens another item of an array of tables; what was opened inside the item before it may be
opened again in this one. -/
def openItem (p : Progress) (key : Key) : Except Defect Progress :=
  if covered p.closed key then .error .malformed
  else do
    let table ← p.table.modifyAt true (Table.appendTable (key.getLastD "")) key.dropLast
    return { p with
      table := table
      opened := key :: p.opened.filter fun k => !key.isPrefixOf k
      closed := p.closed.filter fun k => !key.isPrefixOf k
      header := key }

/-- The proper beginnings of a key, shortest first and not empty. -/
def beginnings (key : Key) : List Key :=
  (List.range key.length).drop 1 |>.map fun n => key.take n

def addValue (p : Progress) (key : Key) (value : Value) : Except Defect Progress :=
  let around := (beginnings key).map (p.header ++ ·)
  let parent := p.header ++ key.dropLast
  if around.any p.opened.contains || covered p.closed parent then .error .malformed
  else do
    let table ← p.table.modifyAt true (fun t => Table.add t (key.getLastD "") value) parent
    return { p with
      table := table
      dotted := around ++ p.dotted
      closed := if value.isNested then (p.header ++ key) :: p.closed else p.closed }

end Progress

def readPair (p : Progress) (cs : List Char) : Except Defect (Progress × List Char) := do
  let (key, rest) ← readKey cs
  match rest with
  | '=' :: rest =>
      let (value, rest) ← readValue (rest.length + 1) (skipGaps rest)
      let p ← p.addValue key value
      return (p, rest)
  | _ => .error .malformed

def readHeader (p : Progress) (cs : List Char) : Except Defect (Progress × List Char) :=
  match cs with
  | '[' :: '[' :: cs => do
      let (key, rest) ← readKey (skipGaps cs)
      let p ← p.openItem key
      match rest with
      | ']' :: ']' :: rest => return (p, rest)
      | _ => .error .malformed
  | '[' :: cs => do
      let (key, rest) ← readKey (skipGaps cs)
      let p ← p.openTable key
      match rest with
      | ']' :: rest => return (p, rest)
      | _ => .error .malformed
  | _ => .error .malformed

def readStatement (p : Progress) (cs : List Char) : Except Defect (Progress × List Char) :=
  match cs with
  | [] => .ok (p, [])
  | c :: _ =>
      if c = '\n' ∨ c = '#' then .ok (p, cs)
      else if beginsKey c then readPair p cs
      else if c = '[' then readHeader p.endSection cs
      else .error .malformed

def readStatements : Nat → Progress → List Char → Except Defect Progress
  | 0, _, _ => .error .malformed
  | fuel + 1, p, cs => do
      let (p, rest) ← readStatement p (skipGaps cs)
      match ← skipComment (skipGaps rest) with
      | [] => return p
      | '\n' :: rest => readStatements fuel p rest
      | _ => .error .malformed

/-- A carriage return before a line feed is dropped. -/
def joinLineEnds : List Char → List Char
  | '\r' :: '\n' :: cs => '\n' :: joinLineEnds cs
  | c :: cs => c :: joinLineEnds cs
  | [] => []

def read (text : String) : Except Defect Table :=
  let cs := joinLineEnds text.toList
  match readStatements (cs.length + 1) .start cs with
  | .ok p => .ok p.table
  | .error defect => .error defect

end Reclaim.Toml
