import Reclaim.Files.Failure

/-!
Lines of the log. A line has a level and comes from one part of the library; where it ends with
the error that caused it, the error stands beside it.
-/

namespace Reclaim

inductive Level
  | debug
  | warning
  | error
deriving DecidableEq, Repr

inductive Topic
  | deletion
  | tracking
  | theme
deriving DecidableEq, Repr

inductive Cause
  | malformedDocument
  | invalidColours
  | files (error : Files.OsError)
deriving DecidableEq, Repr

structure LogLine where
  level : Level
  topic : Topic
  message : String
  cause : Option Cause
deriving DecidableEq, Repr

end Reclaim
