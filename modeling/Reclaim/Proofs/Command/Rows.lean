import Reclaim.Command.Delete
import Reclaim.Proofs.Deletion.Effect

/-!
What the command that deletes paths does to each of them, and what its row tells of that. The
command tests for itself whether a path is there before it asks the strategy, which tests again, and
errors can come and go in between; the files stay as they are. While the same errors are in force both
tests answer the same, and then each path is left to the strategy.
-/

namespace Reclaim

open Files

namespace Strategy

/-- The host that is left when a strategy has been asked to delete some paths, one after another. -/
def deleteAll (strategy : Strategy) (paths : List Path) (host : Host) : Host :=
  paths.foldl (fun host path => (strategy.delete path.text path host).2) host

/-- The host that is left when a path has been looked at and a strategy has been asked to delete it,
unless the look has failed. -/
def deleteAmid (strategy : Strategy) (turn : Command.Turn) (path : Path) (host : Host) : Host :=
  match (host.under turn.look).absent path.text with
  | .error _ => host.under turn.act
  | .ok _ => (strategy.delete path.text path (host.under turn.act)).2

def deleteAllAmid (strategy : Strategy) : (Nat → Command.Turn) → List Path → Host → Host
  | _, [], host => host
  | turns, path :: rest, host =>
      strategy.deleteAllAmid (fun i => turns (i + 1)) rest (strategy.deleteAmid (turns 0) path host)

theorem deleteAll_conditions (strategy : Strategy) (paths : List Path) (host : Host) :
    (strategy.deleteAll paths host).conditions = host.conditions :=
  List.foldlRecOn (motive := fun left : Host => left.conditions = host.conditions) paths _ rfl
    fun left h path _ => (strategy.delete_conditions path.text path left).trans h

theorem deleteAmid_steady (strategy : Strategy) (path : Path) (host : Host) :
    strategy.deleteAmid (.steady host.conditions) path host =
      (strategy.delete path.text path host).2 := by
  unfold deleteAmid Command.Turn.steady
  rw [Host.under_conditions]
  split
  · rename_i e huninspected
    rw [delete_of_uninspected huninspected]
  · rfl

/-- While the same errors are in force, every path is left to the strategy. -/
theorem deleteAllAmid_steady (strategy : Strategy) {conditions : Conditions} (paths : List Path)
    {host : Host} (h : host.conditions = conditions) :
    strategy.deleteAllAmid (fun _ => .steady conditions) paths host =
      strategy.deleteAll paths host := by
  induction paths generalizing host with
  | nil => rfl
  | cons path paths ih =>
      subst h
      rw [deleteAllAmid, deleteAmid_steady, ih (strategy.delete_conditions path.text path host)]
      rfl

end Strategy

namespace Command

variable {strategy : Strategy} {path : Path} {paths : List Path} {host left : Host} {row : Row}
  {look : Except OsError Bool} {turn : Turn} {turns : Nat → Turn}

/-- What comes of a path that has been looked at: its row, and the host that is left. -/
inductive Handles (strategy : Strategy) (path : Path) (host : Host) :
    Except OsError Bool → Row → Host → Prop
  | uninspected (e : OsError) :
      Handles strategy path host (.error e) ⟨path.text, .failed e.reason⟩ host
  | absent : Handles strategy path host (.ok true) ⟨path.text, .absent⟩ host
  | failed {error : DeletionError} {left : Host}
      (h : strategy.delete path.text path host = (.error error, left)) :
      Handles strategy path host (.ok false) ⟨path.text, .failed error.reason⟩ left
  | deleted {left : Host} (h : strategy.delete path.text path host = (.ok (), left)) :
      Handles strategy path host (.ok false) ⟨path.text, .deleted⟩ left

theorem handles_handle (strategy : Strategy) (path : Path) (host : Host)
    (look : Except OsError Bool) :
    Handles strategy path host look (handle strategy false path look host).1
      (handle strategy false path look host).2 := by
  unfold handle
  cases look with
  | error e => exact .uninspected e
  | ok absent =>
      cases absent with
      | true => exact .absent
      | false =>
          cases hdelete : strategy.delete path.text path host with
          | mk answer left =>
              cases answer with
              | error error => exact .failed hdelete
              | ok _ => exact .deleted hdelete

namespace Handles

theorem named (h : Handles strategy path host look row left) : row.path = path.text := by
  cases h <;> rfl

theorem absent_iff (h : Handles strategy path host look row left) :
    row.result = .absent ↔ look = .ok true := by
  cases h <;> simp

theorem failed_iff (h : Handles strategy path host look row left) {reason : String} :
    row.result = .failed reason ↔ (∃ e, look = .error e ∧ e.reason = reason) ∨
      look = .ok false ∧ ∃ error, (strategy.delete path.text path host).1 = .error error ∧
        error.reason = reason := by
  cases h with
  | uninspected e => simp
  | absent => simp
  | failed h => simp [h]
  | deleted h => simp [h]

theorem deleted_iff (h : Handles strategy path host look row left) :
    row.result = .deleted ↔
      look = .ok false ∧ (strategy.delete path.text path host).1 = .ok () := by
  cases h with
  | uninspected e => simp
  | absent => simp
  | failed h => simp [h]
  | deleted h => simp [h]

theorem decided (h : Handles strategy path host look row left) :
    row.result = .absent ∨ (∃ reason, row.result = .failed reason) ∨ row.result = .deleted := by
  cases h <;> simp

theorem left_of_found (h : Handles strategy path host (.ok false) row left) :
    left = (strategy.delete path.text path host).2 := by
  cases h with
  | failed h => rw [h]
  | deleted h => rw [h]

theorem left_of_not_found (h : Handles strategy path host look row left)
    (hlook : look ≠ .ok false) : left = host := by
  cases h with
  | uninspected e => rfl
  | absent => rfl
  | failed h => exact absurd rfl hlook
  | deleted h => exact absurd rfl hlook

end Handles

section deletePath

theorem handles_deletePath (strategy : Strategy) (path : Path) (host : Host) :
    Handles strategy path host (host.absent path.text) (deletePath strategy false path host).1
      (deletePath strategy false path host).2 :=
  handles_handle strategy path host (host.absent path.text)

theorem deletePath_left (strategy : Strategy) (path : Path) (host : Host) :
    (deletePath strategy false path host).2 = (strategy.delete path.text path host).2 := by
  have handles := handles_deletePath strategy path host
  by_cases hfound : host.absent path.text = .ok false
  · rw [hfound] at handles
    exact handles.left_of_found
  · rw [handles.left_of_not_found hfound, Strategy.delete_of_not_found hfound]

theorem deletePath_absent :
    (deletePath strategy false path host).1.result = .absent ↔ host.absent path.text = .ok true :=
  (handles_deletePath strategy path host).absent_iff

/-- The strategy fails as well where the look has failed. -/
theorem deletePath_failed {reason : String} :
    (deletePath strategy false path host).1.result = .failed reason ↔
      ∃ error, (strategy.delete path.text path host).1 = .error error ∧ error.reason = reason := by
  rw [(handles_deletePath strategy path host).failed_iff]
  cases habsent : host.absent path.text with
  | error e => simp [Strategy.delete_of_uninspected habsent]
  | ok absent =>
      cases absent with
      | true => simp [Strategy.delete_of_absent habsent]
      | false => simp

theorem deletePath_failed_of_uninspected {reason : String} :
    ((deletePath strategy false path host).1.result = .failed reason ∧
      ∃ e, host.absent path.text = .error e) ↔
      ∃ e, host.absent path.text = .error e ∧ e.reason = reason := by
  rw [(handles_deletePath strategy path host).failed_iff]
  constructor
  · rintro ⟨huninspected | ⟨hfound, -⟩, e, he⟩
    · exact huninspected
    · rw [hfound] at he
      cases he
  · rintro ⟨e, he, hreason⟩
    exact ⟨.inl ⟨e, he, hreason⟩, e, he⟩

theorem deletePath_dry (strategy : Strategy) (path : Path) (host : Host) :
    deletePath strategy true path host =
      (⟨path.text, match host.absent path.text with
        | .error error => .failed error.reason
        | .ok true => .absent
        | .ok false => .planned strategy.name⟩, host) := by
  unfold deletePath handle
  cases host.absent path.text with
  | error error => rfl
  | ok absent => cases absent <;> rfl

theorem deletePath_conditions (strategy : Strategy) (dryRun : Bool) (path : Path) (host : Host) :
    (deletePath strategy dryRun path host).2.conditions = host.conditions := by
  cases dryRun with
  | true => rw [deletePath_dry]
  | false => rw [deletePath_left, Strategy.delete_conditions]

theorem deletePathAmid_steady {conditions : Conditions} (h : host.conditions = conditions)
    (strategy : Strategy) (dryRun : Bool) (path : Path) :
    deletePathAmid (.steady conditions) strategy dryRun path host =
      deletePath strategy dryRun path host := by
  subst h
  rfl

end deletePath

section turns

theorem handles_deletePathAmid (turn : Turn) (strategy : Strategy) (path : Path) (host : Host) :
    Handles strategy path (host.under turn.act) ((host.under turn.look).absent path.text)
      (deletePathAmid turn strategy false path host).1
      (deletePathAmid turn strategy false path host).2 :=
  handles_handle ..

/-- Whatever errors come up between the look and the deletion, a path that leads nowhere leads
nowhere then. -/
theorem deletePathAmid_left (turn : Turn) (strategy : Strategy) (path : Path) (host : Host) :
    (deletePathAmid turn strategy false path host).2 = strategy.deleteAmid turn path host := by
  have handles := handles_deletePathAmid turn strategy path host
  unfold Strategy.deleteAmid
  cases hlook : (host.under turn.look).absent path.text with
  | error e =>
      rw [hlook] at handles
      exact handles.left_of_not_found nofun
  | ok absent =>
      rw [hlook] at handles
      cases absent with
      | true =>
          have vacant : (host.under turn.act).Vacant path.text :=
            (host.under turn.look).vacant_of_absent hlook
          exact (handles.left_of_not_found (by simp)).trans
            (Strategy.delete_of_vacant vacant).symm
      | false => exact handles.left_of_found

theorem deletePathsAmid_left (turns : Nat → Turn) (strategy : Strategy) (paths : List Path)
    (host : Host) :
    (deletePathsAmid turns strategy false paths host).2 =
      strategy.deleteAllAmid turns paths host := by
  induction paths generalizing turns host with
  | nil => rfl
  | cons path paths ih =>
      simp only [deletePathsAmid, ih, deletePathAmid_left, Strategy.deleteAllAmid]

/-- Each row is that of its path, in the state that the paths before it have left. -/
theorem deletePathsAmid_row (turns : Nat → Turn) (strategy : Strategy) (paths : List Path)
    (host : Host) (i : Nat) :
    (deletePathsAmid turns strategy false paths host).1[i]? = paths[i]?.map fun path =>
      (deletePathAmid (turns i) strategy false path
        (strategy.deleteAllAmid turns (paths.take i) host)).1 := by
  induction paths generalizing turns host i with
  | nil => rfl
  | cons path paths ih =>
      cases i with
      | zero => rfl
      | succ i =>
          simp only [deletePathsAmid, List.getElem?_cons_succ, ih, deletePathAmid_left,
            List.take_succ_cons, Strategy.deleteAllAmid]

theorem deletePathsAmid_named (turns : Nat → Turn) (strategy : Strategy) (paths : List Path)
    (host : Host) :
    (deletePathsAmid turns strategy false paths host).1.map (·.path) = paths.map Path.text := by
  induction paths generalizing turns host with
  | nil => rfl
  | cons path paths ih =>
      simp only [deletePathsAmid, List.map_cons, ih, (handles_deletePathAmid ..).named]

end turns

section deletePaths

theorem deletePaths_cons (strategy : Strategy) (dryRun : Bool) (path : Path) (paths : List Path)
    (host : Host) :
    deletePaths strategy dryRun (path :: paths) host =
      let (row, left) := deletePath strategy dryRun path host
      let (rows, left) := deletePaths strategy dryRun paths left
      (row :: rows, left) := by
  simp only [deletePaths, deletePath_conditions]
  rfl

theorem deletePaths_left (strategy : Strategy) (paths : List Path) (host : Host) :
    (deletePaths strategy false paths host).2 = strategy.deleteAll paths host := by
  rw [deletePaths, deletePathsAmid_left, Strategy.deleteAllAmid_steady strategy paths rfl]

theorem deletePaths_row (strategy : Strategy) (paths : List Path) (host : Host) (i : Nat) :
    (deletePaths strategy false paths host).1[i]? = paths[i]?.map fun path =>
      (deletePath strategy false path (strategy.deleteAll (paths.take i) host)).1 := by
  rw [deletePaths, deletePathsAmid_row]
  simp only [Strategy.deleteAllAmid_steady strategy _ rfl,
    deletePathAmid_steady (strategy.deleteAll_conditions _ host)]

theorem deletePaths_named (strategy : Strategy) (paths : List Path) (host : Host) :
    (deletePaths strategy false paths host).1.map (·.path) = paths.map Path.text :=
  deletePathsAmid_named _ strategy paths host

theorem deletePaths_dry (strategy : Strategy) (paths : List Path) (host : Host) :
    deletePaths strategy true paths host =
      (paths.map fun path => (deletePath strategy true path host).1, host) := by
  induction paths with
  | nil => rfl
  | cons path paths ih => simp only [deletePaths_cons, deletePath_dry, ih, List.map_cons]

end deletePaths

end Command
end Reclaim
