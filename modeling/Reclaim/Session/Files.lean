import Reclaim.Session.Basic

/-!
Steps on files, settings and colours.
-/

namespace Reclaim.Session

open Files

structure Effect where
  result : Except Trouble Answer
  session : Session
  log : List LogLine
  workerLog : List (Nat × LogLine)

namespace Effect

def ok (s : Session) (answer : Answer) : Effect := ⟨.ok answer, s, [], []⟩

def fail (s : Session) (trouble : Trouble) : Effect := ⟨.error trouble, s, [], []⟩

end Effect

/-- Acts on the host as if it had no faults. -/
def undisturbed (s : Session) (act : Host → Except Failure Host) : Effect :=
  match act { s.host with faults := [] } with
  | .ok host => .ok (s.withHost { host with faults := s.host.faults }) .done
  | .error failure => .fail s (.files failure)

def makeEntry (path : String) (entry : Entry) (host : Host) : Except Failure Host :=
  let around := match entry with
    | .directory => Path.ofText path
    | _ => (Path.ofText path).parent
  match host.ensureDirectories around with
  | (.error failure, _) => .error failure
  | (.ok (), host) =>
      match entry with
      | .directory => .ok host
      | .file content => host.write path content
      | .link target => host.symlink target path

def removeEntry (path : String) (host : Host) : Except Failure Host :=
  match host.inspect false path with
  | .ok .directory => host.rmdirNow path
  | _ => host.unlinkNow path

def enter (directory : String) (host : Host) : Except Failure Host :=
  let refused (reason : Reason) : Failure := .os (.ofReason reason [directory])
  if Host.holdsNul directory then .error .embeddedNul
  else match host.tree.resolve host.cwd true directory with
    | .error reason => .error (refused reason)
    | .ok place =>
        match host.tree.reached place with
        | .directory => .ok { host with cwd := place }
        | _ => .error (refused .notDirectory)

def delete (s : Session) (strategy : String) (argument : PathArgument) : Effect :=
  match Strategy.scripted? strategy with
  | none => .fail s .unknownName
  | some strategy =>
      match argument.toPath? with
      | none => .fail s .notPath
      | some path =>
          match strategy.delete argument.shown path s.host with
          | (.ok (), host) => .ok (s.withHost host) .done
          | (.error error, host) => .fail (s.withHost host) (.deletion error)

def ofQuietRun (s : Session) (run : QuietRun) : Effect :=
  let s := { s with work := { s.work with
    host := run.host, notes := s.work.notes ++ run.noted.toList } }
  let result := match run.outcome with
    | some .deleted => .ok (.flag true)
    | some .refused => .ok (.flag false)
    | some .broken => .error .broken
    | some .undecided | none => .ok .done
  ⟨result, s, run.log, []⟩

def deleteQuietly (s : Session) (strategy : String) (argument : PathArgument) : Effect :=
  match Strategy.scripted? strategy with
  | none => .fail s .unknownName
  | some strategy =>
      let path := argument.toPath?
      if strategy.quiet = .attempts ∧ path = none ∧ argument ≠ .absent then .fail s .notPath
      else s.ofQuietRun (strategy.deleteQuietly argument.shown path s.host)

def ofConfig (s : Session) : Except ConfigError Config → Effect
  | .ok config => .ok s (.config config)
  | .error error => .fail s (.config error)

def loadConfig (s : Session) (orDefault : Bool) (path : Option String) : Effect :=
  match Config.pathOr (path.map .ofText) s.environment with
  | .error error => .fail s (.config error)
  | .ok path =>
      if orDefault then s.ofConfig (Config.loadOrDefault path s.host)
      else s.ofConfig (Config.load path s.host)

def saveConfig (s : Session) (fields : Fields) (path : Option String) : Effect :=
  match Config.ofFields fields with
  | .error issues => .fail s (.invalid issues)
  | .ok config =>
      match Config.pathOr (path.map .ofText) s.environment with
      | .error error => .fail s (.config error)
      | .ok path =>
          match config.save path s.host with
          | (.ok (), host) => .ok (s.withHost host) (.text path.text)
          | (.error error, host) => .fail (s.withHost host) (.config error)

def loadColours (s : Session) (path : Option String) : Effect :=
  match Theme.pathOr (path.map .ofText) s.environment with
  | .error failure => .fail s (.theme failure)
  | .ok path =>
      match Theme.loadColours path s.host with
      | .error failure => .fail s (.theme failure)
      | .ok (colours, warnings) => ⟨.ok (.colours colours), s, warnings.map (·.log), []⟩

def withTheme (s : Session) (path : Option String)
    (use : Theme → Except Trouble Answer) : Effect :=
  match Theme.pathOr (path.map .ofText) s.environment with
  | .error failure => .fail s (.theme failure)
  | .ok path =>
      match Theme.load path s.host with
      | .error failure => .fail s (.theme failure)
      | .ok (theme, warnings) => ⟨use theme, s, warnings.map (·.log), []⟩

def stylesOf (theme : Theme) : Except Trouble Answer :=
  match theme.styles with
  | .ok styles => .ok (.styles styles)
  | .error bad => .error (.style bad)

end Reclaim.Session
