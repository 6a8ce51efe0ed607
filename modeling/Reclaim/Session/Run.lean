import Reclaim.Session.Tracking

/-!
Running a script. After every step all workers catch up, so that what a step reports does not
depend on their pace: its answer, the lines logged by the caller and by each worker, the state of
the trackers, and the files if they have changed since they were last reported.
-/

namespace Reclaim.Session

open Files

/-- The effect of a step before the workers catch up. -/
def perform (s : Session) : Step → Effect
  | .put path entry => s.undisturbed (makeEntry path entry)
  | .remove path => s.undisturbed (removeEntry path)
  | .enter directory => s.undisturbed (Session.enter directory)
  | .fault fault =>
      .ok (s.withHost { s.host with faults := s.host.faults ++ [fault] }) .done
  | .clearFaults => .ok (s.withHost { s.host with faults := [] }) .done
  | .delete strategy path => s.delete strategy path
  | .deleteQuietly strategy path => s.deleteQuietly strategy path
  | .loadConfig path => s.loadConfig false path
  | .loadConfigOrDefault path => s.loadConfig true path
  | .saveConfig fields path => s.saveConfig fields path
  | .loadColours path => s.loadColours path
  | .loadTheme path => s.withTheme path fun theme => .ok (.theme theme)
  | .loadStyles => s.withTheme none stylesOf
  | .tracker name threadName strategy =>
      s.orFail (chosen strategy) fun strategy =>
        s.addTracker name
          (.new (threadName.getD Config.defaultThreadName) (strategy.getD .normal))
  | .trackerOf name fields => s.orFail (configured fields) fun t => s.addTracker name t
  | .owner name unwatchable cyclic holds => s.createOwner name unwatchable cyclic holds
  | .drop owner => s.dropOwner owner
  | .collect =>
      let (ownership, reclaimed) := s.ownership.collect
      .ok (s.reclaimAll ownership reclaimed) .done
  | .track tracker path owner strategy => s.track tracker path owner strategy
  | .trackTemporary tracker kind name owner strategy =>
      s.trackTemporary tracker kind name owner strategy
  | .exit tracker => s.requestExit tracker
  | .join tracker => s.look tracker fun t => .flag t.isJoined
  | .wake tracker =>
      s.orFail (s.trackerIndex tracker) fun index => .ok (s.withSystem (s.system.wake index)) .done
  | .thread tracker =>
      s.look tracker fun t => .textOrNone (if t.isStarted then some t.threadName else none)
  | .notes => .ok s (.texts s.work.notes)
  | .blocked => .ok s (.textOrNone (s.waiting?.map fun w => w.2.path))
  | .release outcome => s.release outcome
  | .record name path owner strategy => s.addRecord name path owner strategy
  | .describe name => s.orFail (s.recordOf name) fun r => .ok s (.record r (s.isWatching r))
  | .compare first second =>
      s.orFail (s.recordOf first) fun a =>
      s.orFail (s.recordOf second) fun b => .ok s (.same (a.id = b.id))
  | .deleteRecord name =>
      s.orFail (s.recordOf name) fun r => s.ofQuietRun (r.deleteQuietly s.host)
  | .forget name => s.orFail (s.recordOf name) fun _ => .ok (s.forgetRecord name) .done
  | .drain => s.drain
  | .command arguments =>
      let (ending, host) := Command.run arguments s.environment s.host
      .ok (s.withHost host) (.ending ending)

structure Report where
  result : Except Trouble Answer
  log : List LogLine
  workerLog : List (String × List LogLine)
  trackers : List (String × Tracker)
  -- the files, if they have changed
  listing : Option (List (String × Entry))

def namedTrackers (s : Session) : List (String × Tracker) :=
  s.trackers.filterMap fun (name, index) => (s.system.tracker? index).map fun t => (name, t)

def workerLogs (s : Session) (first : List (Nat × LogLine)) (later : List (Nat × List LogLine)) :
    List (String × List LogLine) :=
  s.trackers.map fun (name, index) =>
    (name, (first.filter (·.1 = index)).map (·.2)
      ++ (later.filter (·.1 = index)).flatMap (·.2))

def step (s : Session) (step : Step) : Report × Session :=
  let effect := s.perform step
  let (work, later) := effect.session.work.catchUp
  let s : Session := { effect.session with work }
  let files := s.listing
  let changed := if files = s.reported then none else some files
  (⟨effect.result, effect.log, (s.workerLogs effect.workerLog later).filter (·.2 ≠ []),
    s.namedTrackers, changed⟩, { s with reported := files })

/-- Performs the steps that prepare a session; what they do is not reported. -/
def prepare (s : Session) (steps : List Step) : Session :=
  let s := steps.foldl (fun s step => (s.perform step).session) s
  { s with reported := s.listing }

def run (s : Session) : List Step → List Report
  | [] => []
  | next :: rest =>
      let (report, s) := s.step next
      report :: run s rest

end Reclaim.Session
