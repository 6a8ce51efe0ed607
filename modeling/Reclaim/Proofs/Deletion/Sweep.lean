import Reclaim.Proofs.Course.Conservation
import Reclaim.Proofs.Command.Rows
import Reclaim.Proofs.Path.Collapse

/-!
Deleting one path after another. Each deletion finds the files as those before it have left them.
The command that deletes paths tests for itself whether a path is there and asks the strategy only
then; a worker asks the strategy of a record quietly. Given the same paths they leave the same
files, and the rows that failed are those of the records that were not deleted, as long as the test
that only the command makes tells nothing that the strategy would not have found.
-/

namespace Reclaim

/-- Strategies called for some records, one after another, each on the files that the one before it
has left, with how each has ended. -/
inductive Sweeps : Host → List (Record × Outcome) → Host → Prop
  | done (host : Host) : Sweeps host [] host
  | next {host host' : Host} {record : Record} {outcome : Outcome}
      {endings : List (Record × Outcome)}
      (ended : (record.deleteQuietly host).outcome = some outcome)
      (rest : Sweeps (record.deleteQuietly host).host endings host') :
      Sweeps host ((record, outcome) :: endings) host'

namespace Sweeps

variable {host host₁ host' : Host} {endings more : List (Record × Outcome)}

theorem append (h : Sweeps host endings host₁) (h' : Sweeps host₁ more host') :
    Sweeps host (endings ++ more) host' := by
  induction h with
  | done => exact h'
  | next ended rest ih => exact .next ended (ih h')

theorem exists_of_mem (h : Sweeps host endings host') {record : Record} {outcome : Outcome}
    (hmem : (record, outcome) ∈ endings) :
    ∃ found : Host, (record.deleteQuietly found).outcome = some outcome := by
  induction h with
  | done => cases hmem
  | @next host _ _ _ _ ended rest ih =>
      rcases List.mem_cons.mp hmem with hhead | hmem
      · cases hhead
        exact ⟨host, ended⟩
      · exact ih hmem

end Sweeps

namespace Command

variable {strategy : Strategy} {path : Path} {record : Record} {host host' : Host}

/-- Whether a record is as it is tracked for a path that is to be deleted by a strategy. -/
structure StandsFor (strategy : Strategy) (path : Path) (record : Record) : Prop where
  isRead : path.IsRead
  path : record.path = path.text
  strategy : record.strategy = strategy

/-- The look at a path fails only where the strategy would fail to look at it, and finds it absent
only where the strategy would. -/
structure Alike (look : Conditions) (path : Path) (host : Host) : Prop where
  failed : ∀ e, (host.under look).absent path.text = .error e →
    ∃ e', host.absent path.text = .error e'
  absent : (host.under look).absent path.text = .ok true → host.absent path.text = .ok true

end Command
end Reclaim
