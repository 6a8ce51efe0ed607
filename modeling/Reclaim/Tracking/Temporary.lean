import Reclaim.Host.Temporary
import Reclaim.Tracking.System

/-!
Temporary entries that are tracked as soon as they are made. Making one takes two steps, between
which other callers may act: the entry is made if the tracker still accepts paths, and then it is
tracked under the path it was made with. If that fails the entry is removed again, also when the
path has been tracked by then.
-/

namespace Reclaim

open Files

inductive TemporaryError
  | track (error : CallError)
  | files (failure : Failure)
deriving DecidableEq, Repr

namespace System

def accepting (s : System) (index : Nat) : Except TrackError Unit :=
  match s.tracker? index with
  | none => .error .noTracker
  | some t => if t.exiting then .error .shutdown else .ok ()

def makeTemporary (s : System) (index : Nat) (kind : TemporaryKind) (name : TemporaryName)
    (host : Host) : Except TemporaryError String × Host :=
  match s.accepting index with
  | .error error => (.error (.track (.refused error)), host)
  | .ok () =>
      match host.makeTemporary kind name with
      | (.ok text, host) => (.ok text, host)
      | (.error failure, host) => (.error (.files failure), host)

/-- Tracks an entry that has just been made; it is removed again if the call fails, which does not
undo what the call has done. -/
def trackMade (s : System) (index : Nat) (kind : TemporaryKind) (text : String) (owner : Owner)
    (strategy : Option Strategy) (host : Host) :
    Except TemporaryError Unit × (System × List Event) × Host :=
  match s.trackCall index host.currentDirectory? (.text text) owner strategy with
  | (.ok (), tracked) => (.ok (), tracked, host)
  | (.error error, tracked) =>
      match host.discard kind text with
      | .ok host => (.error (.track error), tracked, host)
      | .error failure => (.error (.files failure), tracked, host)

/-- Makes a temporary entry and tracks it, with nothing in between; answers its path. -/
def trackTemporary (s : System) (index : Nat) (kind : TemporaryKind) (name : TemporaryName)
    (owner : Owner) (strategy : Option Strategy) (host : Host) :
    Except TemporaryError String × (System × List Event) × Host :=
  match s.makeTemporary index kind name host with
  | (.error error, host) => (.error error, (s, []), host)
  | (.ok text, host) =>
      match s.trackMade index kind text owner strategy host with
      | (answer, tracked, host) => (answer.map fun _ => text, tracked, host)

end System
end Reclaim
