import Reclaim.Deletion.Strategy
import Reclaim.Validation

/-!
The settings of a tracker: the name of its worker, which is never empty, and the strategy used
where none is given. Both have defaults, and no other keys are known.
-/

namespace Reclaim

structure Config where
  threadName : String
  defaultStrategy : Builtin
  threadName_ne : threadName ≠ ""
deriving DecidableEq

namespace Config

def defaultThreadName : String := "File Reaper"

def default : Config where
  threadName := defaultThreadName
  defaultStrategy := .normal
  threadName_ne := by decide

instance : Inhabited Config := ⟨default⟩

def threadNameKey : String := "thread_name"

def strategyKey : String := "default_strategy"

def readThreadName (fields : Fields) : Except Issue { name : String // name ≠ "" } :=
  match fields.get? threadNameKey with
  | none => .ok ⟨default.threadName, default.threadName_ne⟩
  | some none => .error ⟨some threadNameKey, .notText⟩
  | some (some name) =>
      if h : name = "" then .error ⟨some threadNameKey, .tooShort⟩ else .ok ⟨name, h⟩

def readStrategy (fields : Fields) : Except Issue Builtin :=
  match fields.get? strategyKey with
  | none => .ok default.defaultStrategy
  | some value =>
      match value.bind Builtin.ofText? with
      | some strategy => .ok strategy
      | none => .error ⟨some strategyKey, .notStrategy⟩

def ofFields (fields : Fields) : Except (List Issue) Config :=
  let unknown := fields.unknown [threadNameKey, strategyKey]
  match readThreadName fields, readStrategy fields, unknown with
  | .ok ⟨threadName, h⟩, .ok strategy, [] => .ok ⟨threadName, strategy, h⟩
  | name, strategy, unknown => .error (issueOf name ++ issueOf strategy ++ unknown)

def ofFields? : Option Fields → Except (List Issue) Config
  | some fields => ofFields fields
  | none => .error [⟨none, .notTable "TrackerConfig"⟩]

end Config
end Reclaim
