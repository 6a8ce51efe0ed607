import Reclaim.Session.Files

/-!
Steps on owners, trackers and records.
-/

namespace Reclaim.Session

open Files

def chosen (name : Option String) : Except Trouble (Option Strategy) :=
  match name with
  | none => .ok none
  | some name =>
      match Strategy.scripted? name with
      | some strategy => .ok (some strategy)
      | none => .error .unknownName

def trackerIndex (s : Session) (name : String) : Except Trouble Nat :=
  match s.trackers.lookup name with
  | some index => .ok index
  | none => .error .unknownName

def ownerOf (s : Session) (name : String) : Except Trouble Owner :=
  match s.ownership.find? name with
  | some owner => .ok owner
  | none => .error .unknownName

def recordOf (s : Session) (name : String) : Except Trouble Record :=
  match s.records.lookup name with
  | some record => .ok record
  | none => .error .unknownName

def orFail {α : Type} (s : Session) (found : Except Trouble α) (use : α → Effect) : Effect :=
  match found with
  | .ok a => use a
  | .error trouble => .fail s trouble

def ofEvents (s : Session) (index : Nat) (events : List Event)
    (result : Except Trouble Answer) : Effect :=
  let threadName := s.work.threadName index
  let (worker, caller) := events.partition Event.ofWorker
  ⟨result, s, caller.flatMap (·.log threadName),
    (worker.flatMap (·.log threadName)).map fun line => (index, line)⟩

def failedCall (s : Session) (index : Nat) (events : List Event) (error : TemporaryError) :
    Effect :=
  let trouble := match error with
    | .track (.refused error) => .track error
    | .track _ => .broken
    | .files failure => .files failure
  { s.ofEvents index events (.error trouble) with log := [] }

def addTracker (s : Session) (name : String) (t : Tracker) : Effect :=
  let index := s.system.trackers.length
  let s := s.withSystem (s.system.addTracker t)
  let trackers := s.trackers.filter (fun t => t.1 ≠ name) ++ [(name, index)]
  .ok { s with trackers } (.tracker t.threadName (t.strategyFor none))

def configured (fields : Fields) : Except Trouble Tracker :=
  match Config.ofFields fields with
  | .error issues => .error (.invalid issues)
  | .ok config =>
      match Tracker.ofConfig config with
      | .ok t => .ok t
      | .error _ => .error .unknownName

def reclaimAll (s : Session) (ownership : Ownership) (reclaimed : List Nat) : Session :=
  { s.withSystem (reclaimed.foldl System.reclaim s.system) with ownership }

def createOwner (s : Session) (name : String) (unwatchable : Option String) (cyclic : Bool)
    (holds : Option String) : Effect :=
  let create (held : List Nat) : Effect :=
    let (ownership, reclaimed) := s.ownership.create name unwatchable cyclic held
    .ok (s.reclaimAll ownership reclaimed) .done
  match holds with
  | none => create []
  | some holds => s.orFail (s.ownerOf holds) fun held => create [held.id]

def dropOwner (s : Session) (name : String) : Effect :=
  match s.ownership.drop name with
  | none => .fail s .unknownName
  | some (ownership, reclaimed) => .ok (s.reclaimAll ownership reclaimed) .done

def track (s : Session) (tracker : String) (path : PathArgument) (owner : String)
    (strategy : Option String) : Effect :=
  s.orFail (s.trackerIndex tracker) fun index =>
  s.orFail (s.ownerOf owner) fun owner =>
  s.orFail (chosen strategy) fun strategy =>
    match s.system.trackCall index s.host.currentDirectory? path owner strategy with
    | (.ok (), system, events) => (s.withSystem system).ofEvents index events (.ok .done)
    | (.error error, system, events) => (s.withSystem system).failedCall index events (.track error)

def trackTemporary (s : Session) (tracker : String) (kind : TemporaryKind)
    (name : TemporaryName) (owner : String) (strategy : Option String) : Effect :=
  s.orFail (s.trackerIndex tracker) fun index =>
  s.orFail (s.ownerOf owner) fun owner =>
  s.orFail (chosen strategy) fun strategy =>
    match s.system.trackTemporary index kind name owner strategy s.host with
    | (.ok text, (system, events), host) =>
        ((s.withHost host).withSystem system).ofEvents index events (.ok (.text text))
    | (.error error, (system, events), host) =>
        ((s.withHost host).withSystem system).failedCall index events error

def requestExit (s : Session) (tracker : String) : Effect :=
  s.orFail (s.trackerIndex tracker) fun index =>
    let (system, events) := s.system.requestExit index
    (s.withSystem system).ofEvents index events (.ok .done)

def look (s : Session) (tracker : String) (see : Tracker → Answer) : Effect :=
  s.orFail (s.trackerIndex tracker) fun index =>
    match s.system.tracker? index with
    | some t => .ok s (see t)
    | none => .fail s .unknownName

def waiting? (s : Session) : Option (Nat × Record) :=
  (List.range s.system.trackers.length).findSome? fun index =>
    match s.work.inHand? index with
    | some record => if record.strategy.quiet = .waits then some (index, record) else none
    | none => none

def release (s : Session) (outcome : Outcome) : Effect :=
  match s.waiting? with
  | none => .ok s (.textOrNone none)
  | some (index, record) =>
      match s.system.finish index outcome with
      | some (system, events) =>
          (s.withSystem system).ofEvents index events (.ok (.textOrNone (some record.path)))
      | none => .ok s (.textOrNone none)

/-- Gives up the record of a name; unless it has been sent, it will not be. -/
def forgetRecord (s : Session) (name : String) : Session :=
  match s.records.lookup name with
  | none => s
  | some record =>
      { s.withSystem (s.system.forget record.id) with
        records := s.records.filter fun r => r.1 ≠ name }

def addRecord (s : Session) (name path owner : String) (strategy : Option String) : Effect :=
  s.orFail (s.ownerOf owner) fun owner =>
  s.orFail (chosen strategy) fun strategy =>
    match owner.unwatchable with
    | some type => .fail s (.track (.unwatchable type))
    | none =>
        let record : Record := ⟨s.system.nextRecord, path, strategy.getD .normal⟩
        let s := s.withSystem (s.system.watch record owner.id .free)
        let s := s.forgetRecord name
        .ok { s with
          records := (name, record) :: s.records
          recordNames := (record.id, name) :: s.recordNames } .done

def isWatching (s : Session) (record : Record) : Bool :=
  s.system.watches.any fun w => w.record.id = record.id

def drain (s : Session) : Effect :=
  let names := s.system.free.filterMap fun record => s.recordNames.lookup record.id
  .ok (s.withSystem { s.system with free := [] }) (.texts names)

end Reclaim.Session
