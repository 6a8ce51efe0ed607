import Reclaim.Console
import Reclaim.Deletion.Strategy

/-!
The command that deletes paths. Every path has one row in the table: it was already absent, it
would be deleted in a dry run, it was deleted, or it failed with a reason. A failure does not
keep later paths from being deleted. The command looks at a path before it asks the strategy, which
looks again; the errors in force may have changed by then, and before the next path.
-/

namespace Reclaim.Command

open Files

inductive RowResult
  | absent
  | planned (strategy : String)
  | deleted
  | failed (reason : String)
deriving DecidableEq, Repr

structure Row where
  path : String
  result : RowResult
deriving DecidableEq, Repr

namespace Row

def isFailed (row : Row) : Bool :=
  row.result matches .failed _

def isDeleted (row : Row) : Bool :=
  row.result matches .deleted

def cells (row : Row) : List String :=
  match row.result with
  | .absent => ["[muted]-[/muted]", row.path, "Already absent"]
  | .planned strategy => ["[info]DRY[/info]", row.path, "Would delete (" ++ strategy ++ ")"]
  | .deleted => ["[success]OK[/success]", row.path, ""]
  | .failed reason => ["[error]FAIL[/error]", row.path, reason]

end Row

/-- The errors in force while a path is looked at, and while it is deleted. -/
structure Turn where
  look : Conditions
  act : Conditions
deriving DecidableEq, Repr

def Turn.steady (conditions : Conditions) : Turn := ⟨conditions, conditions⟩

def handle (strategy : Strategy) (dryRun : Bool) (path : Path) (absent : Except OsError Bool)
    (host : Host) : Row × Host :=
  let row (result : RowResult) : Row := ⟨path.text, result⟩
  match absent with
  | .error error => (row (.failed error.reason), host)
  | .ok true => (row .absent, host)
  | .ok false =>
      if dryRun then (row (.planned strategy.name), host)
      else match strategy.delete path.text path host with
        | (.ok (), host) => (row .deleted, host)
        | (.error error, host) => (row (.failed error.reason), host)

def deletePath (strategy : Strategy) (dryRun : Bool) (path : Path) (host : Host) : Row × Host :=
  handle strategy dryRun path (host.absent path.text) host

def deletePathAmid (turn : Turn) (strategy : Strategy) (dryRun : Bool) (path : Path) (host : Host) :
    Row × Host :=
  handle strategy dryRun path ((host.under turn.look).absent path.text) (host.under turn.act)

def deletePathsAmid (turns : Nat → Turn) (strategy : Strategy) (dryRun : Bool) :
    List Path → Host → List Row × Host
  | [], host => ([], host)
  | path :: rest, host =>
      let (row, host) := deletePathAmid (turns 0) strategy dryRun path host
      let (rows, host) := deletePathsAmid (fun i => turns (i + 1)) strategy dryRun rest host
      (row :: rows, host)

/-- Handles the paths while the same errors are in force. -/
def deletePaths (strategy : Strategy) (dryRun : Bool) (paths : List Path) (host : Host) :
    List Row × Host :=
  deletePathsAmid (fun _ => .steady host.conditions) strategy dryRun paths host

def title (dryRun : Bool) : String :=
  if dryRun then "Results (Dry Run)" else Table.defaultTitle

def report (dryRun : Bool) (rows : List Row) : List Output :=
  let table := Output.table .out { Table.results (title dryRun) with rows := rows.map Row.cells }
  let failed := rows.countP Row.isFailed
  if failed ≠ 0 then
    [table, .line .out ("\n[dim]" ++ toString failed ++ " of " ++ toString rows.length
      ++ " path(s) could not be deleted[/dim]")]
  else if dryRun then [table]
  else [table, .success ("Deleted " ++ toString (rows.countP Row.isDeleted) ++ " path(s).")]

def exitCode (rows : List Row) : Nat :=
  if rows.any Row.isFailed then 1 else 0

end Reclaim.Command
