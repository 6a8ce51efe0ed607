import Reclaim.Proofs.Host.Sound
import Reclaim.Session.Run

/-!
The hosts that sessions come to are sound. Deletions, saves, temporary entries, commands and workers
act on files by calls alone, and so do the steps that put entries in place and remove them. A step
that goes to a directory stands at a place that is known as it is.
-/

namespace Reclaim

open Files

namespace Host.Sound

variable {host host' : Host}

theorem delete (sound : host.Sound) (strategy : Strategy) (shown : String) (path : Path) :
    (strategy.delete shown path host).2.Sound := by
  unfold Strategy.delete
  split
  · exact sound
  · exact sound
  · split <;> rename_i hremove
    all_goals exact (sound.remove strategy.removal path.text).of_eq hremove

theorem deleteQuietly (sound : host.Sound) (strategy : Strategy) (shown : String)
    (path : Option Path) : (strategy.deleteQuietly shown path host).host.Sound := by
  unfold Strategy.deleteQuietly
  cases strategy.quiet with
  | attempts =>
      cases path with
      | none => exact sound
      | some path =>
          simp only
          split <;> rename_i hdelete
          all_goals exact (sound.delete strategy shown path).of_eq hdelete
  | _ => exact sound

theorem cleanUp (sound : host.Sound) (temporary : Option String) (error : OsError) :
    (Config.cleanUp temporary error host).2.Sound := by
  unfold Config.cleanUp
  split
  · exact sound
  · split
    · exact sound
    · exact sound
    · split
      · rename_i hunlink
        exact sound.unlinkNow (guarded_eq_ok hunlink)
      · exact sound
      · exact sound

theorem saveFailed (sound : host.Sound) (temporary : Option String) (failure : Failure) :
    (Config.saveFailed temporary failure host).2.Sound := by
  cases failure with
  | embeddedNul => exact sound
  | os error => exact sound.cleanUp temporary error

theorem save (sound : host.Sound) (config : Config) (path : Path) :
    (config.save path host).2.Sound := by
  unfold Config.save
  split
  · rename_i hensure
    exact ((sound.ensureDirectories _).of_eq hensure).saveFailed none _
  · rename_i hensure
    have furnished := (sound.ensureDirectories _).of_eq hensure
    split
    · rename_i hmake
      exact ((furnished.makeTemporary _ _).of_eq hmake).saveFailed none _
    · rename_i temporary _ hmake
      have made := (furnished.makeTemporary _ _).of_eq hmake
      split
      · exact made.saveFailed (some temporary) _
      · rename_i hwrite
        have written := made.write hwrite
        split
        · rename_i hreplace
          exact written.replace hreplace
        · exact written.saveFailed (some temporary) _

theorem trackMade (sound : host.Sound) (s : System) (index : Nat) (kind : TemporaryKind)
    (text : String) (owner : Owner) (strategy : Option Strategy) :
    (s.trackMade index kind text owner strategy host).2.2.Sound := by
  unfold System.trackMade
  split
  · exact sound
  · split
    · rename_i hdiscard
      exact sound.discard hdiscard
    · exact sound

theorem makeTemporaryFor (sound : host.Sound) (s : System) (index : Nat) (kind : TemporaryKind)
    (name : TemporaryName) : (s.makeTemporary index kind name host).2.Sound := by
  unfold System.makeTemporary
  split
  · exact sound
  · split <;> rename_i hmake
    all_goals exact (sound.makeTemporary kind name).of_eq hmake

theorem trackTemporary (sound : host.Sound) (s : System) (index : Nat) (kind : TemporaryKind)
    (name : TemporaryName) (owner : Owner) (strategy : Option Strategy) :
    (s.trackTemporary index kind name owner strategy host).2.2.Sound := by
  unfold System.trackTemporary
  split
  · rename_i hmake
    exact (sound.makeTemporaryFor s index kind name).of_eq hmake
  · rename_i text _ hmake
    have made := (sound.makeTemporaryFor s index kind name).of_eq hmake
    split
    rename_i htrack
    exact (made.trackMade s index kind text owner strategy).of_eq (congrArg Prod.snd htrack)

theorem handle (sound : host.Sound) (strategy : Strategy) (dryRun : Bool) (path : Path)
    (look : Except OsError Bool) : (Command.handle strategy dryRun path look host).2.Sound := by
  simp only [Command.handle]
  split
  · exact sound
  · exact sound
  · split
    · exact sound
    · split <;> rename_i hdelete
      all_goals exact (sound.delete strategy path.text path).of_eq hdelete

theorem deletePathsAmid (sound : host.Sound) (turns : Nat → Command.Turn) (strategy : Strategy)
    (dryRun : Bool) (paths : List Path) :
    (Command.deletePathsAmid turns strategy dryRun paths host).2.Sound := by
  induction paths generalizing turns host with
  | nil => exact sound
  | cons path rest ih =>
      have acted : (host.under (turns 0).act).Sound := ⟨sound.settled, sound.connected⟩
      exact ih (acted.handle strategy dryRun path _) _

theorem initConfig (sound : host.Sound) (path : Option Path) (force : Bool) (env : Environment) :
    (Command.initConfig path force env host).2.Sound := by
  unfold Command.initConfig
  split
  · exact sound
  · rename_i path _
    split
    · exact sound
    · split
      · exact sound
      · split <;> rename_i hsave
        all_goals exact (sound.save Config.default path).of_eq hsave

theorem command (sound : host.Sound) (arguments : List String) (env : Environment) :
    (Command.run arguments env host).2.Sound := by
  have met : (Command.meet (Command.readArguments arguments).request env host).2.Sound := by
    cases (Command.readArguments arguments).request with
    | delete paths force dryRun => exact sound.deletePathsAmid _ _ dryRun paths
    | initConfig path force => exact sound.initConfig path force env
    | _ => exact sound
  simp only [Command.run, Command.runAmid]
  split <;> exact met

end Host.Sound

namespace Work

variable {w w' : Work} {index : Nat} {log : List LogLine}

theorem sound_step (sound : w.host.Sound) (h : w.step index = some (w', log)) : w'.host.Sound := by
  unfold step at h
  split at h
  · rename_i record _
    simp only at h
    split at h
    · cases h
    · split at h
      · cases h
      · cases h
        exact sound.deleteQuietly record.strategy record.path _
  · split at h
    · cases h
    · cases h
      exact sound

theorem sound_steps (index n : Nat) (sound : w.host.Sound) : (steps index n w).1.host.Sound := by
  induction n generalizing w with
  | zero => exact sound
  | succ n ih =>
      simp only [steps]
      split
      · exact sound
      · rename_i hstep
        exact ih (sound_step sound hstep)

theorem sound_catchUp (sound : w.host.Sound) : w.catchUp.1.host.Sound := by
  unfold catchUp
  refine List.foldlRecOn (motive := fun c : Work × List (Nat × List LogLine) => c.1.host.Sound)
    _ _ sound ?_
  rintro ⟨w, logs⟩ sound index -
  exact sound_steps index _ sound

end Work

namespace Session

variable {s : Session}

theorem sound_enter {host host' : Host} {directory : String} (sound : host.Sound)
    (h : enter directory host = .ok host') : host'.Sound := by
  simp only [enter] at h
  split at h
  · cases h
  · split at h
    · cases h
    · rename_i place hresolve
      split at h
      · rename_i hreached
        cases h
        obtain ⟨-, hfollow⟩ := Tree.resolve_eq_ok.mp hresolve
        have hfile : ∀ content, host.tree.get? place ≠ some (.file content) := by
          intro content hget
          simp [Tree.reached, hget] at hreached
        have hslash := Tree.follow_slash hfollow hfile
        obtain ⟨n, -, hleads⟩ := Tree.follow_eq_ok_iff.mp hslash
        exact ⟨hleads.settled sound.connected (Tree.detach_start sound.settled directory),
          sound.connected⟩
      · cases h

theorem sound_removeEntry {host host' : Host} {path : String} (sound : host.Sound)
    (h : removeEntry path host = .ok host') : host'.Sound := by
  unfold removeEntry at h
  split at h
  · exact sound.rmdirNow h
  · exact sound.unlinkNow h

theorem sound_makeEntry {host host' : Host} {path : String} {entry : Entry} (sound : host.Sound)
    (h : makeEntry path entry host = .ok host') : host'.Sound := by
  unfold makeEntry at h
  cases entry with
  | directory =>
      simp only at h
      split at h
      · cases h
      · rename_i hensure
        cases h
        exact (sound.ensureDirectories _).of_eq hensure
  | file content =>
      simp only at h
      split at h
      · cases h
      · rename_i hensure
        exact ((sound.ensureDirectories _).of_eq hensure).write h
  | link target =>
      simp only at h
      split at h
      · cases h
      · rename_i hensure
        exact ((sound.ensureDirectories _).of_eq hensure).symlink h

/-- Faults that are put aside for an act on the host are no part of what makes it sound. -/
theorem sound_undisturbed {act : Host → Except Failure Host} (sound : s.host.Sound)
    (hact : ∀ {host host'}, host.Sound → act host = .ok host' → host'.Sound) :
    (s.undisturbed act).session.host.Sound := by
  unfold undisturbed
  split
  · rename_i host h
    have undisturbed : Host.Sound { s.host with faults := [] } := ⟨sound.settled, sound.connected⟩
    have acted := hact undisturbed h
    exact ⟨acted.settled, acted.connected⟩
  · exact sound

theorem sound_orFail {α : Type} {found : Except Trouble α} {use : α → Effect}
    (sound : s.host.Sound) (huse : ∀ a, (use a).session.host.Sound) :
    (s.orFail found use).session.host.Sound := by
  cases found with
  | ok a => exact huse a
  | error trouble => exact sound

theorem sound_delete (sound : s.host.Sound) (strategy : String) (argument : PathArgument) :
    (s.delete strategy argument).session.host.Sound := by
  unfold delete
  split
  · exact sound
  · rename_i strategy _
    split
    · exact sound
    · rename_i path _
      split <;> rename_i hdelete
      all_goals exact (sound.delete strategy argument.shown path).of_eq hdelete

theorem sound_deleteQuietly (sound : s.host.Sound) (strategy : String) (argument : PathArgument) :
    (s.deleteQuietly strategy argument).session.host.Sound := by
  unfold deleteQuietly
  split
  · exact sound
  · rename_i strategy _
    simp only
    split
    · exact sound
    · exact Host.Sound.deleteQuietly sound strategy argument.shown argument.toPath?

theorem sound_saveConfig (sound : s.host.Sound) (fields : Fields) (path : Option String) :
    (s.saveConfig fields path).session.host.Sound := by
  unfold saveConfig
  split
  · exact sound
  · rename_i config _
    split
    · exact sound
    · rename_i path _
      split <;> rename_i hsave
      all_goals exact (sound.save config path).of_eq hsave

theorem sound_trackTemporary (sound : s.host.Sound) (tracker : String) (kind : TemporaryKind)
    (name : TemporaryName) (owner : String) (strategy : Option String) :
    (s.trackTemporary tracker kind name owner strategy).session.host.Sound := by
  refine sound_orFail sound fun index => sound_orFail sound fun owner =>
    sound_orFail sound fun strategy => ?_
  split <;> rename_i htrack
  all_goals exact (sound.trackTemporary s.system index kind name owner strategy).of_eq (congrArg Prod.snd htrack)

theorem sound_loadConfig (sound : s.host.Sound) (orDefault : Bool) (path : Option String) :
    (s.loadConfig orDefault path).session.host.Sound := by
  have answered : ∀ loaded, (s.ofConfig loaded).session.host.Sound := by
    intro loaded
    cases loaded with
    | ok config => exact sound
    | error error => exact sound
  unfold loadConfig
  split
  · exact sound
  · split <;> exact answered _

theorem sound_loadColours (sound : s.host.Sound) (path : Option String) :
    (s.loadColours path).session.host.Sound := by
  unfold loadColours
  split
  · exact sound
  · split <;> exact sound

theorem sound_withTheme (sound : s.host.Sound) (path : Option String)
    (use : Theme → Except Trouble Answer) : (s.withTheme path use).session.host.Sound := by
  unfold withTheme
  split
  · exact sound
  · split <;> exact sound

theorem sound_createOwner (sound : s.host.Sound) (name : String) (unwatchable : Option String)
    (cyclic : Bool) (holds : Option String) :
    (s.createOwner name unwatchable cyclic holds).session.host.Sound := by
  cases holds with
  | none => exact sound
  | some holds => exact sound_orFail sound fun held => sound

theorem sound_dropOwner (sound : s.host.Sound) (name : String) :
    (s.dropOwner name).session.host.Sound := by
  unfold dropOwner
  split <;> exact sound

theorem sound_track (sound : s.host.Sound) (tracker : String) (path : PathArgument)
    (owner : String) (strategy : Option String) :
    (s.track tracker path owner strategy).session.host.Sound := by
  refine sound_orFail sound fun index => sound_orFail sound fun owner =>
    sound_orFail sound fun strategy => ?_
  split <;> exact sound

theorem sound_look (sound : s.host.Sound) (tracker : String) (see : Tracker → Answer) :
    (s.look tracker see).session.host.Sound := by
  refine sound_orFail sound fun index => ?_
  split <;> exact sound

theorem sound_release (sound : s.host.Sound) (outcome : Outcome) :
    (s.release outcome).session.host.Sound := by
  unfold release
  split
  · exact sound
  · split <;> exact sound

theorem sound_forgetRecord (sound : s.host.Sound) (name : String) :
    (s.forgetRecord name).host.Sound := by
  unfold forgetRecord
  split <;> exact sound

theorem sound_addRecord (sound : s.host.Sound) (name path owner : String)
    (strategy : Option String) : (s.addRecord name path owner strategy).session.host.Sound := by
  refine sound_orFail sound fun owner => sound_orFail sound fun strategy => ?_
  split
  · exact sound
  · show (Session.forgetRecord (s.withSystem _) name).host.Sound
    exact sound_forgetRecord (by exact sound) name

/-- One step of a script leaves a sound host, before the workers catch up. -/
theorem sound_perform (sound : s.host.Sound) (step : Step) :
    (s.perform step).session.host.Sound := by
  cases step with
  | put path entry => exact sound_undisturbed sound sound_makeEntry
  | remove path => exact sound_undisturbed sound sound_removeEntry
  | enter directory => exact sound_undisturbed sound sound_enter
  | fault fault => exact ⟨sound.settled, sound.connected⟩
  | clearFaults => exact ⟨sound.settled, sound.connected⟩
  | delete strategy path => exact sound_delete sound strategy path
  | deleteQuietly strategy path => exact sound_deleteQuietly sound strategy path
  | saveConfig fields path => exact sound_saveConfig sound fields path
  | trackTemporary tracker kind name owner strategy =>
      exact sound_trackTemporary sound tracker kind name owner strategy
  | deleteRecord name =>
      exact sound_orFail sound fun record => sound.deleteQuietly record.strategy record.path _
  | command arguments => exact sound.command arguments s.environment
  | loadConfig path => exact sound_loadConfig sound false path
  | loadConfigOrDefault path => exact sound_loadConfig sound true path
  | loadColours path => exact sound_loadColours sound path
  | loadTheme path => exact sound_withTheme sound path _
  | loadStyles => exact sound_withTheme sound none _
  | tracker name threadName strategy => exact sound_orFail sound fun _ => sound
  | trackerOf name fields => exact sound_orFail sound fun _ => sound
  | owner name unwatchable cyclic holds =>
      exact sound_createOwner sound name unwatchable cyclic holds
  | drop owner => exact sound_dropOwner sound owner
  | track tracker path owner strategy => exact sound_track sound tracker path owner strategy
  | exit tracker => exact sound_orFail sound fun _ => sound
  | join tracker => exact sound_look sound tracker _
  | wake tracker => exact sound_orFail sound fun _ => sound
  | thread tracker => exact sound_look sound tracker _
  | release outcome => exact sound_release sound outcome
  | record name path owner strategy => exact sound_addRecord sound name path owner strategy
  | describe name => exact sound_orFail sound fun _ => sound
  | compare first second =>
      exact sound_orFail sound fun _ => sound_orFail sound fun _ => sound
  | forget name => exact sound_orFail sound fun _ => sound_forgetRecord sound name
  | collect | notes | blocked | drain => exact sound

theorem sound_step (sound : s.host.Sound) (step : Step) : (s.step step).2.host.Sound :=
  Work.sound_catchUp (sound_perform sound step)

theorem sound_prepare (sound : s.host.Sound) (steps : List Step) :
    (s.prepare steps).host.Sound :=
  List.foldlRecOn (motive := fun s : Session => s.host.Sound) steps _ sound
    fun _ sound step _ => sound_perform sound step

theorem sound_start (rootName : String) (environment : Environment) :
    (start rootName environment).host.Sound := by
  by_cases hname : rootName = ""
  · subst hname
    exact ⟨rfl, Tree.connected_empty⟩
  · have hplain : "" ∉ [rootName] := by simpa using Ne.symm hname
    have hroot : (Tree.empty.put [rootName] .directory).get? [rootName] = some .directory := by
      rw [Tree.get?_put _ (List.cons_ne_nil rootName []) hplain, if_pos rfl]
    exact ⟨Tree.detach_of_get? hroot, Tree.connected_empty.put rfl nofun hplain .directory⟩

/-- Every host that a session comes to, however it was prepared and whatever its steps are, is
sound. -/
theorem sound_session (rootName : String) (environment : Environment) (setup steps : List Step) :
    (steps.foldl (fun s next => (s.step next).2)
      ((start rootName environment).prepare setup)).host.Sound :=
  List.foldlRecOn (motive := fun s : Session => s.host.Sound) steps _
    (sound_prepare (sound_start rootName environment) setup)
    fun _ sound step _ => sound_step sound step

end Session
end Reclaim
