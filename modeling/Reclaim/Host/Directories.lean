import Reclaim.Host.Calls

/-!
Making a directory together with the directories on the way to it. A directory that is already
there is accepted; after an error the directories made so far stay.
-/

namespace Reclaim.Host

open Files

/-- A failure to make a directory counts for nothing if there is one at the path. -/
def excuse (host : Host) (text : String) : Failure → Except Failure Unit
  | .embeddedNul => .error .embeddedNul
  | .os error =>
      match host.isDirectory text with
      | .ok true => .ok ()
      | .ok false => .error (.os error)
      | .error other => .error (.os other)

def isMissing : Failure → Bool
  | .os (.numbered 2 _ _) => true
  | _ => false

/-- Makes one directory where there is one for it to go to. Even then this can meet a fault. -/
def mkdirInside (host : Host) (text : String) : Except Failure Host :=
  match host.mkdirNow text with
  | .ok made => host.guarded .mkdirInside text (.ok made)
  | .error failure => .error failure

def ensureDirectory (host : Host) (text : String) : Except Failure Unit × Host :=
  match host.fault? .mkdir text with
  | some error => (.error (.os error), host)
  | none =>
      match host.mkdirInside text with
      | .ok host => (.ok (), host)
      | .error failure =>
          if isMissing failure then (.error failure, host) else (host.excuse text failure, host)

/-- Makes a directory, given by its parts from the innermost outwards, and those around it. -/
def ensureParts (anchor : Anchor) : List String → Host → Except Failure Unit × Host
  | [], host => host.ensureDirectory (Path.text ⟨anchor, []⟩)
  | part :: around, host =>
      let text := Path.text ⟨anchor, (part :: around).reverse⟩
      match host.fault? .mkdir text with
      | some error => (.error (.os error), host)
      | none =>
          match host.mkdirInside text with
          | .ok host => (.ok (), host)
          | .error failure =>
              if isMissing failure then
                match ensureParts anchor around host with
                | (.ok (), host) => host.ensureDirectory text
                | failed => failed
              else (host.excuse text failure, host)

def ensureDirectories (host : Host) (path : Path) : Except Failure Unit × Host :=
  ensureParts path.anchor path.parts.reverse host

end Reclaim.Host
