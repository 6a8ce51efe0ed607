/-!
The kinds of error and which kinds each belongs to. The kinds of the library go back to one, and
some of them belong to a general kind as well, so that a caller can catch either.
-/

namespace Reclaim

inductive ErrorKind
  | any
  | runtime
  | system
  | value
  | type
  | reaper
  | shutdown
  | deletion
  | config
  | configMissing
  | configUnreadable
deriving DecidableEq, Repr

namespace ErrorKind

def parents : ErrorKind → List ErrorKind
  | any => []
  | runtime | system | value | type | reaper => [any]
  | shutdown => [reaper, runtime]
  | deletion => [reaper, system]
  | config => [reaper]
  | configMissing | configUnreadable => [config]

def kinds (kind : ErrorKind) : List ErrorKind :=
  let step (found : List ErrorKind) := found ++ found.flatMap parents
  (step (step (step [kind]))).eraseDups

def isA (kind general : ErrorKind) : Bool :=
  kind.kinds.contains general

end ErrorKind
end Reclaim
