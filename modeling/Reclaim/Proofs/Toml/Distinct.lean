import Reclaim.Proofs.Basic
import Reclaim.Toml.Reader

/-!
A document gives each key once. Whatever statements a document has, the keys of its table are
different from each other, and so are those of every table in it: a value is added under a key that
is not there yet, and all else that happens to a table gives a key that is there another value.
-/

namespace Reclaim.Toml

/-- Every table in a value gives each of its keys once. -/
inductive Value.Distinct : Value → Prop
  | leaf {value : Value} (plain : value.isNested = false) : Distinct value
  | array {items : List Value} (all : ∀ item ∈ items, Distinct item) : Distinct (.array items)
  | table {entries : List (String × Value)} (once : (entries.map (·.1)).Nodup)
      (all : ∀ e ∈ entries, Distinct e.2) : Distinct (.table entries)

/-- A table gives each key once, and so does every table in it. -/
structure Table.Distinct (t : Table) : Prop where
  once : (t.map (·.1)).Nodup
  all : ∀ e ∈ t, e.2.Distinct

theorem Value.distinct_table {t : Table} : Value.Distinct (.table t) ↔ t.Distinct := by
  constructor
  · intro h
    cases h with
    | leaf plain => cases plain
    | table once all => exact ⟨once, all⟩
  · exact fun h => .table h.once h.all

theorem Value.distinct_array {items : List Value} :
    Value.Distinct (.array items) ↔ ∀ item ∈ items, item.Distinct := by
  constructor
  · intro h
    cases h with
    | leaf plain => cases plain
    | array all => exact all
  · exact .array

namespace Table

variable {t t' : Table} {key : String} {value : Value}

theorem distinct_nil : Distinct [] := ⟨List.nodup_nil, nofun⟩

theorem Distinct.get? (h : t.Distinct) (hget : t.get? key = some value) : value.Distinct :=
  h.all _ (mem_of_find?_key hget)

theorem Distinct.append (h : t.Distinct) (hnew : t.get? key = none) (hvalue : value.Distinct) :
    Distinct (t ++ [(key, value)]) where
  once := nodup_keys_append h.once (find?_key_eq_none_iff.mp hnew)
  all := by
    intro e he
    rcases List.mem_append.mp he with he | he
    · exact h.all e he
    · exact List.mem_singleton.mp he ▸ hvalue

theorem Distinct.set (h : t.Distinct) (hvalue : value.Distinct) : (t.set key value).Distinct where
  once := by
    rw [Table.set, keys_overwrite]
    exact h.once
  all := by
    intro e he
    obtain ⟨old, hold, rfl⟩ := List.mem_map.mp he
    split
    · exact hvalue
    · exact h.all old hold

theorem Distinct.add (h : t.Distinct) (hvalue : value.Distinct)
    (hadd : t.add key value = .ok t') : t'.Distinct := by
  unfold Table.add at hadd
  split at hadd
  · cases hadd
  · rename_i hnew
    cases hadd
    exact h.append (by simpa using hnew) hvalue

theorem Distinct.appendTable (h : t.Distinct) (happend : t.appendTable key = .ok t') :
    t'.Distinct := by
  have hempty : Value.Distinct (.table []) := Value.distinct_table.mpr distinct_nil
  unfold Table.appendTable at happend
  split at happend
  · rename_i hnew
    cases happend
    exact h.append hnew (.array (by simpa using hempty))
  · rename_i items hget
    cases happend
    have hitems := Value.distinct_array.mp (h.get? hget)
    refine h.set (.array fun item hitem => ?_)
    rcases List.mem_append.mp hitem with hitem | hitem
    · exact hitems item hitem
    · exact List.mem_singleton.mp hitem ▸ hempty
  · cases happend

theorem distinct_array_last {items : List Value} (h : Value.Distinct (.array items))
    (hvalue : value.Distinct) : Value.Distinct (.array (items.dropLast ++ [value])) := by
  have hitems := Value.distinct_array.mp h
  refine .array fun item hitem => ?_
  rcases List.mem_append.mp hitem with hitem | hitem
  · exact hitems item (List.dropLast_subset items hitem)
  · exact List.mem_singleton.mp hitem ▸ hvalue

/-- A change that keeps the keys of a table distinct does so at the end of every key. -/
theorem Distinct.modifyAt {throughArrays : Bool} {change : Table → Except Defect Table}
    (keeps : ∀ t t' : Table, t.Distinct → change t = .ok t' → t'.Distinct) {path : Key}
    (h : t.Distinct) (hmodify : modifyAt throughArrays change path t = .ok t') : t'.Distinct := by
  induction path generalizing t t' with
  | nil => exact keeps t t' h hmodify
  | cons part rest ih =>
      rw [Table.modifyAt.eq_def] at hmodify
      simp only at hmodify
      split at hmodify
      · rename_i hnew
        obtain ⟨inner, hinner, hdone⟩ := bind_eq_ok hmodify
        cases hdone
        exact h.append hnew (Value.distinct_table.mpr (ih distinct_nil hinner))
      · rename_i old hget
        obtain ⟨inner, hinner, hdone⟩ := bind_eq_ok hmodify
        cases hdone
        have hold := Value.distinct_table.mp (h.get? hget)
        exact h.set (Value.distinct_table.mpr (ih hold hinner))
      · rename_i items hget
        split at hmodify
        · rename_i old hlast
          obtain ⟨inner, hinner, hdone⟩ := bind_eq_ok hmodify
          cases hdone
          have hitems := h.get? hget
          have hold := Value.distinct_table.mp
            (Value.distinct_array.mp hitems _ (List.mem_of_getLast? hlast))
          exact h.set (distinct_array_last hitems (Value.distinct_table.mpr (ih hold hinner)))
        · cases hmodify
      · cases hmodify

theorem Distinct.addAt {throughArrays : Bool} {path : Key} (h : t.Distinct)
    (hvalue : value.Distinct)
    (hmodify : Table.modifyAt throughArrays (fun t => Table.add t key value) path t = .ok t') :
    t'.Distinct :=
  h.modifyAt (fun _ _ hold hadd => hold.add hvalue hadd) hmodify

end Table

section Values

variable {cs rest : List Char} {value : Value}

theorem leaf_of_moment? (h : moment? cs = some (.ok (value, rest))) : value.isNested = false := by
  unfold moment? at h
  split at h
  · split at h
    · cases h
    · cases h
      rfl
  · obtain ⟨_, -, hvalue⟩ := Option.map_eq_some_iff.mp h
    cases hvalue
    rfl

theorem leaf_of_decimalNumber? (h : decimalNumber? cs = some (.ok (value, rest))) :
    value.isNested = false := by
  simp only [decimalNumber?] at h
  split at h
  · cases h
  · split at h
    · cases h
      rfl
    · split at h
      · cases h
      · cases h
        rfl

theorem leaf_of_number? (h : number? cs = some (.ok (value, rest))) : value.isNested = false := by
  unfold number? at h
  split at h
  · cases h
    rfl
  · exact leaf_of_decimalNumber? h

theorem leaf_of_specialFloat? (h : specialFloat? cs = some (value, rest)) :
    value.isNested = false := by
  simp only [specialFloat?] at h
  split at h
  · cases h
    rfl
  · cases h

/-- What the readers give with so much fuel has distinct keys; items and entries are read after
others that have. -/
structure ReadsDistinct (fuel : Nat) : Prop where
  value : ∀ {cs value rest}, readValue fuel cs = .ok (value, rest) → value.Distinct
  items : ∀ {items cs value rest}, (∀ item ∈ items, Value.Distinct item) →
    readItems fuel items cs = .ok (value, rest) → value.Distinct
  entries : ∀ {closed entries cs value rest}, Table.Distinct entries →
    readEntries fuel closed entries cs = .ok (value, rest) → value.Distinct

variable {fuel : Nat}

theorem ReadsDistinct.readValue_succ (h : ReadsDistinct fuel)
    (hread : readValue (fuel + 1) cs = .ok (value, rest)) : value.Distinct := by
  rw [readValue.eq_def] at hread
  simp only at hread
  split at hread
  · obtain ⟨⟨text, after⟩, -, hdone⟩ := bind_eq_ok hread
    cases hdone
    exact .leaf rfl
  · obtain ⟨⟨text, after⟩, -, hdone⟩ := bind_eq_ok hread
    cases hdone
    exact .leaf rfl
  · cases hread
    exact .leaf rfl
  · cases hread
    exact .leaf rfl
  · -- an array
    have hempty : ∀ item ∈ ([] : List Value), item.Distinct := nofun
    obtain ⟨inside, -, hdone⟩ := bind_eq_ok hread
    split at hdone
    · cases hdone
      exact .array hempty
    · exact h.items hempty hdone
  · -- a table
    split at hread
    · cases hread
      exact Value.distinct_table.mpr Table.distinct_nil
    · exact h.entries Table.distinct_nil hread
  · split at hread
    · rename_i read hmoment
      exact .leaf (leaf_of_moment? (hread ▸ hmoment))
    · split at hread
      · rename_i read hnumber
        exact .leaf (leaf_of_number? (hread ▸ hnumber))
      · split at hread
        · rename_i read hspecial
          cases hread
          exact .leaf (leaf_of_specialFloat? hspecial)
        · cases hread

theorem ReadsDistinct.readItems_succ (h : ReadsDistinct fuel) {items : List Value}
    (hitems : ∀ item ∈ items, item.Distinct)
    (hread : readItems (fuel + 1) items cs = .ok (value, rest)) : value.Distinct := by
  rw [readItems.eq_def] at hread
  obtain ⟨⟨item, after⟩, hitem, hread⟩ := bind_eq_ok hread
  have hall : ∀ i ∈ items ++ [item], Value.Distinct i := by
    intro i hi
    rcases List.mem_append.mp hi with hi | hi
    · exact hitems i hi
    · exact List.mem_singleton.mp hi ▸ h.value hitem
  obtain ⟨next, -, hread⟩ := bind_eq_ok hread
  split at hread
  · cases hread
    exact .array hall
  · obtain ⟨next, -, hread⟩ := bind_eq_ok hread
    split at hread
    · cases hread
      exact .array hall
    · exact h.items hall hread
  · cases hread

theorem ReadsDistinct.readEntries_succ (h : ReadsDistinct fuel) {closed : List Key}
    {entries : Table} (hentries : entries.Distinct)
    (hread : readEntries (fuel + 1) closed entries cs = .ok (value, rest)) : value.Distinct := by
  rw [readEntries.eq_def] at hread
  obtain ⟨⟨key, after⟩, -, hread⟩ := bind_eq_ok hread
  simp only at hread
  split at hread
  · obtain ⟨⟨entry, after⟩, hentry, hread⟩ := bind_eq_ok hread
    simp only at hread
    split at hread
    · cases hread
    · obtain ⟨grown, hgrown, hread⟩ := bind_eq_ok hread
      have hall : Table.Distinct grown := hentries.addAt (h.value hentry) hgrown
      split at hread
      · cases hread
        exact Value.distinct_table.mpr hall
      · exact h.entries hall hread
      · cases hread
  · cases hread

theorem readsDistinct (fuel : Nat) : ReadsDistinct fuel := by
  induction fuel with
  | zero => exact ⟨nofun, nofun, nofun⟩
  | succ fuel ih => exact ⟨ih.readValue_succ, ih.readItems_succ, ih.readEntries_succ⟩

end Values

section Statements

variable {p p' : Progress} {cs rest : List Char} {key : Key} {value : Value}

theorem distinct_of_addValue (h : p.table.Distinct) (hvalue : value.Distinct)
    (hadd : p.addValue key value = .ok p') : p'.table.Distinct := by
  unfold Progress.addValue at hadd
  simp only at hadd
  split at hadd
  · cases hadd
  · obtain ⟨table, htable, hdone⟩ := bind_eq_ok hadd
    cases hdone
    exact h.addAt hvalue htable

theorem distinct_of_openTable (h : p.table.Distinct) (hopen : p.openTable key = .ok p') :
    p'.table.Distinct := by
  unfold Progress.openTable at hopen
  split at hopen
  · cases hopen
  · obtain ⟨table, htable, hdone⟩ := bind_eq_ok hopen
    cases hdone
    exact h.modifyAt (fun t t' hold hsame => Except.ok.inj hsame ▸ hold) htable

theorem distinct_of_openItem (h : p.table.Distinct) (hopen : p.openItem key = .ok p') :
    p'.table.Distinct := by
  unfold Progress.openItem at hopen
  split at hopen
  · cases hopen
  · obtain ⟨table, htable, hdone⟩ := bind_eq_ok hopen
    cases hdone
    exact h.modifyAt (fun t t' hold happend => hold.appendTable happend) htable

theorem distinct_of_readPair (h : p.table.Distinct) (hread : readPair p cs = .ok (p', rest)) :
    p'.table.Distinct := by
  obtain ⟨⟨key, after⟩, -, hread⟩ := bind_eq_ok hread
  simp only at hread
  split at hread
  · obtain ⟨⟨value, after⟩, hvalue, hread⟩ := bind_eq_ok hread
    obtain ⟨q, hadd, hdone⟩ := bind_eq_ok hread
    cases hdone
    exact distinct_of_addValue h ((readsDistinct _).value hvalue) hadd
  · cases hread

theorem distinct_of_readHeader (h : p.table.Distinct) (hread : readHeader p cs = .ok (p', rest)) :
    p'.table.Distinct := by
  unfold readHeader at hread
  split at hread
  · obtain ⟨⟨key, after⟩, -, hread⟩ := bind_eq_ok hread
    obtain ⟨q, hopen, hread⟩ := bind_eq_ok hread
    split at hread
    · cases hread
      exact distinct_of_openItem h hopen
    · cases hread
  · obtain ⟨⟨key, after⟩, -, hread⟩ := bind_eq_ok hread
    obtain ⟨q, hopen, hread⟩ := bind_eq_ok hread
    split at hread
    · cases hread
      exact distinct_of_openTable h hopen
    · cases hread
  · cases hread

theorem distinct_of_readStatement (h : p.table.Distinct)
    (hread : readStatement p cs = .ok (p', rest)) : p'.table.Distinct := by
  unfold readStatement at hread
  split at hread
  · cases hread
    exact h
  · split at hread
    · cases hread
      exact h
    · split at hread
      · exact distinct_of_readPair h hread
      · split at hread
        · have hend : p.endSection.table.Distinct := h
          exact distinct_of_readHeader hend hread
        · cases hread

theorem distinct_of_readStatements {fuel : Nat} (h : p.table.Distinct)
    (hread : readStatements fuel p cs = .ok p') : p'.table.Distinct := by
  induction fuel generalizing p cs with
  | zero => cases hread
  | succ fuel ih =>
      rw [readStatements] at hread
      obtain ⟨⟨q, after⟩, hstatement, hread⟩ := bind_eq_ok hread
      have hq := distinct_of_readStatement h hstatement
      obtain ⟨next, -, hread⟩ := bind_eq_ok hread
      split at hread
      · cases hread
        exact hq
      · exact ih hq hread
      · cases hread

theorem distinct_of_read {text : String} {table : Table} (h : read text = .ok table) :
    table.Distinct := by
  unfold read at h
  simp only at h
  split at h
  · rename_i p hread
    cases h
    exact distinct_of_readStatements Table.distinct_nil hread
  · cases h

end Statements

end Reclaim.Toml
