import Reclaim.Text.Quoted

/-!
Why an operation on files fails. A reason of the system has a number and a fixed wording; an
error carries the number, the wording and the paths it is about, or only a text. A path that
holds a NUL is refused before the system sees it.
-/

namespace Reclaim.Files

inductive Reason
  | missing
  | busy
  | present
  | notDirectory
  | isDirectory
  | invalid
  | nameTooLong
  | notEmpty
  | tooManyLinks
deriving DecidableEq, Repr

namespace Reason

def number : Reason → Int
  | missing => 2
  | busy => 16
  | present => 17
  | notDirectory => 20
  | isDirectory => 21
  | invalid => 22
  | nameTooLong => 36
  | notEmpty => 39
  | tooManyLinks => 40

def wording : Reason → String
  | missing => "No such file or directory"
  | busy => "Device or resource busy"
  | present => "File exists"
  | notDirectory => "Not a directory"
  | isDirectory => "Is a directory"
  | invalid => "Invalid argument"
  | nameTooLong => "File name too long"
  | notEmpty => "Directory not empty"
  | tooManyLinks => "Too many levels of symbolic links"

end Reason

inductive OsError
  | numbered (number : Int) (wording : String) (paths : List String)
  | plain (text : String)
deriving DecidableEq, Repr

namespace OsError

def ofReason (reason : Reason) (paths : List String) : OsError :=
  .numbered reason.number reason.wording paths

def message : OsError → String
  | numbered number wording paths =>
      let head := "[Errno " ++ toString number ++ "] " ++ wording
      if paths.isEmpty then head
      else head ++ ": " ++ " -> ".intercalate (paths.map Text.quoted)
  | plain text => text

/-- The wording alone, or the whole message where there is no wording. -/
def reason : OsError → String
  | numbered number wording paths =>
      if wording = "" then message (numbered number wording paths) else wording
  | plain text => text

/-- Errors by which a path is known to lead nowhere: it is missing, a file stands where a
directory is needed, or its links go in circles. -/
def isAbsence : OsError → Bool
  | numbered number _ _ => number ∈ [2, 20, 9, 40]
  | plain _ => false

end OsError

inductive Failure
  | os (error : OsError)
  | embeddedNul
deriving DecidableEq, Repr

namespace Failure

def message : Failure → String
  | os error => error.message
  | embeddedNul => "embedded null byte"

def reason : Failure → String
  | os error => error.reason
  | embeddedNul => "embedded null byte"

end Failure
end Reclaim.Files
