import Reclaim.Deletion.Strategy
import Reclaim.Log

/-!
Deletion that answers instead of failing. A strategy that attempts the deletion answers whether
it went well and logs the error if it did not; the other strategies answer without looking at the
files, or leave the caller waiting. Whatever they do, they have been asked once.
-/

namespace Reclaim

/-- How a quiet deletion ends: with an answer that counts as yes or as no, with an error of the
strategy's own, or with an answer of which nobody can tell whether it counts as yes or as no, because
the question itself is an error. -/
inductive Outcome
  | deleted
  | refused
  | broken
  | undecided
deriving DecidableEq, Repr

namespace Outcome

def isFailure : Outcome → Bool
  | refused | broken => true
  | deleted | undecided => false

end Outcome

structure Invocation where
  strategy : Strategy
  shown : String
  path : Option Path
deriving DecidableEq, Repr

/-- What a quiet deletion leads to. It has no outcome while the strategy waits, and the path is noted
if the strategy takes a note of it. What strategies have been asked in its course is on record. -/
structure QuietRun where
  outcome : Option Outcome
  host : Host
  noted : Option String
  log : List LogLine
  invoked : List Invocation

namespace Strategy

def quietFailure (shown : String) (error : DeletionError) : LogLine :=
  ⟨.debug, .deletion, "Quiet delete of " ++ shown ++ " failed: " ++ error.message, none⟩

/-- Deletes what is at a path and answers whether it is gone. Without a path there is nothing
to delete. -/
def deleteQuietly (strategy : Strategy) (shown : String) (path : Option Path) (host : Host) :
    QuietRun :=
  let invoked : List Invocation := [⟨strategy, shown, path⟩]
  match strategy.quiet with
  | .notes => ⟨some .deleted, host, some shown, [], invoked⟩
  | .declines => ⟨some .refused, host, none, [], invoked⟩
  | .breaks => ⟨some .broken, host, none, [], invoked⟩
  | .confounds => ⟨some .undecided, host, none, [], invoked⟩
  | .waits => ⟨none, host, none, [], invoked⟩
  | .attempts =>
      match path with
      | none => ⟨some .deleted, host, none, [], invoked⟩
      | some path =>
          match strategy.delete shown path host with
          | (.ok (), host) => ⟨some .deleted, host, none, [], invoked⟩
          | (.error error, host) =>
              ⟨some .refused, host, none, [quietFailure shown error], invoked⟩

@[simp] theorem invoked_deleteQuietly (strategy : Strategy) (shown : String) (path : Option Path)
    (host : Host) : (strategy.deleteQuietly shown path host).invoked = [⟨strategy, shown, path⟩] := by
  unfold deleteQuietly
  split
  iterate 5 rfl
  split
  · rfl
  · split <;> rfl

end Strategy
end Reclaim
