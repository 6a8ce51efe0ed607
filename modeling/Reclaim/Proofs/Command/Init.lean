import Reclaim.Proofs.Command.Table
import Reclaim.Proofs.Config.Cleanup

/-!
The command that writes the default settings. A write that fails ends it with exit code one: the
first failure is printed if cleaning up meets no fault, and otherwise the fault escapes, since the
command handles errors of the settings only. A message is printed when all is done, so a console that
cannot show it changes the exit code and nothing else.

Without force the command tests whether the path leads to an entry, links followed; the write puts a
file where the path names one, in place of the entry itself. The two agree on files, directories and
links that lead somewhere: these are kept, and the exit code is one. They differ on a link that
leads nowhere, which is replaced, and on a path that goes through a missing directory and back: once
this directory has been made the path may lead to a file, which is replaced as well.
-/

namespace Reclaim

open Files

namespace Environment

variable {env : Environment} {path : Path}

theorem isRead_homeDirectory? (h : env.homeDirectory? = some path) : path.IsRead := by
  unfold homeDirectory? at h
  simp only at h
  split at h
  · cases h
  · split at h <;> cases h <;> exact Path.isRead_ofText _

theorem isRead_configDirectory? (h : env.configDirectory? = some path) : path.IsRead := by
  have hhome : configDirectory?.fromHome env = some path → path.IsRead := by
    intro h
    obtain ⟨home, hhome, rfl⟩ := Option.map_eq_some_iff.mp h
    exact ((isRead_homeDirectory? hhome).child _).child _
  unfold configDirectory? at h
  split at h
  · split at h
    · exact hhome h
    · cases h
      exact (Path.isRead_ofText _).child _
  · exact hhome h

theorem isRead_trackerConfigPath? (h : env.trackerConfigPath? = some path) : path.IsRead := by
  obtain ⟨directory, hdirectory, rfl⟩ := Option.map_eq_some_iff.mp h
  exact (isRead_configDirectory? hdirectory).child _

end Environment

namespace Command

variable {arguments : List String} {given : Option Path} {env : Environment} {verbose force : Bool}
  {path : Path} {host host' : Host} {around : Tree} {place : Place}

/-- The default settings are to be written to a path, and nothing that is there keeps the command
from trying it. -/
def Writes (arguments : List String) (env : Environment) (host : Host) (verbose : Bool)
    (path : Path) : Prop :=
  ∃ given force there, readArguments arguments = ⟨verbose, .initConfig given force⟩ ∧
    Config.pathOr given env = .ok path ∧ host.present path.text = .ok there ∧
    (there = true → force = true)

theorem Writes.run_eq (writes : Writes arguments env host verbose path) :
    run arguments env host =
      match Config.default.save path host with
      | (.ok (), host') =>
          (⟨0, heading verbose ++ [.success ("Wrote default config to " ++ path.text)], none⟩,
            host')
      | (.error error, host') =>
          ({ Ending.ofError "" error with
            output := heading verbose ++ (Ending.ofError "" error).output }, host') := by
  obtain ⟨given, force, there, hread, hpath, hpresent, hforce⟩ := writes
  have hguard : (there && !force) = false := by
    cases there with
    | false => rfl
    | true => simp [hforce rfl]
  rw [run_of_readArguments hread]
  simp only [meet, meetAmid, initConfig, hpath, hpresent, hguard, Bool.false_eq_true, if_false]
  cases Config.default.save path host with
  | mk answer host' => cases answer <;> rfl

theorem Writes.run_of_error {error : ConfigError}
    (writes : Writes arguments env host verbose path)
    (hsave : Config.default.save path host = (.error error, host')) :
    run arguments env host =
      (⟨1, heading verbose ++ if error.isReported then [.error error.message] else [],
        if error.isReported then none else some error⟩, host') := by
  rw [writes.run_eq, hsave]
  cases hreported : error.isReported <;> simp [Ending.ofError, Ending.escape, hreported]

/-- What the command that writes the default settings comes to when a failure stops it. -/
structure FailsToWrite (console : Console) (arguments : List String) (env : Environment)
    (verbose : Bool) (path : Path) (host : Host) (failure : Failure) (temporary : Option String) :
    Prop where
  exit : (runOn console arguments env host).1.exit = 1
  left : (runOn console arguments env host).2 = (Config.default.save path host).2
  -- the first failure is printed if cleaning up meets no fault
  reported : ∀ error, failure = .os error → host.cleanUpFault? temporary = none →
    Prints console ⟨1, heading verbose ++
      [.error ("Failed to write tracker config: " ++ error.message)], none⟩
      (runOn console arguments env host).1
  -- the fault ends the command if it meets one, and nothing is printed
  masked : ∀ error fault, failure = .os error → host.cleanUpFault? temporary = some fault →
    (runOn console arguments env host).1 =
      ⟨1, heading verbose, some (.config (.uninspected fault))⟩

theorem failsToWrite_of_stops {failure : Failure} {temporary : Option String} {left : Host}
    (sound : host.Sound) (writes : Writes arguments env host verbose path)
    (stops : Config.default.Stops path host failure temporary left) (console : Console) :
    FailsToWrite console arguments env verbose path host failure temporary := by
  have stopped := stops.stopped sound
  obtain ⟨error, host', hsave⟩ := stops.exists_error
  have prints := prints_run console arguments env host
  exact {
    exit := prints.exit_eq_one (by rw [writes.run_of_error hsave])
    left := by rw [runOn_left, writes.run_of_error hsave, hsave]
    reported := by
      intro error hfailure hfault
      obtain ⟨host', hsave, -⟩ := stopped.reported error hfailure hfault
      rw [writes.run_of_error hsave] at prints
      exact prints
    masked := by
      intro error fault hfailure hfault
      obtain ⟨hsave, -⟩ := stopped.masked error fault hfailure hfault
      have hending : (run arguments env host).1 =
          ⟨1, heading verbose, some (.uninspected fault)⟩ := by
        rw [writes.run_of_error hsave]
        simp [ConfigError.isReported]
      rw [hending] at prints
      exact prints.taken (takes_heading console verbose) }

/-- A save returns unless a call stops it. The failure of this call is what is reported, by the save
and by the command that writes the default settings, unless a call of the cleaning up meets a fault;
then this fault escapes from both. What was there before is kept in either case. -/
theorem first_failure_reported_unless_cleanup_fails (sound : host.Sound) (config : Config)
    (path : Path) :
    ((∃ host', config.save path host = (.ok (), host')) ↔
      ∀ failure temporary left, ¬config.Stops path host failure temporary left) ∧
    (∀ failure temporary left, config.Stops path host failure temporary left →
      config.Stopped path host failure temporary left) ∧
    ∀ console arguments env verbose failure temporary left,
      Writes arguments env host verbose path →
      Config.default.Stops path host failure temporary left →
        FailsToWrite console arguments env verbose path host failure temporary :=
  ⟨Config.save_eq_ok_iff sound.settled, fun _ _ _ stops => stops.stopped sound,
    fun console _ _ _ _ _ _ writes stops => failsToWrite_of_stops sound writes stops console⟩

/-- A full disk is reported with exit code one, and the file that is on it is kept. -/
theorem first_failure_reported_unless_cleanup_fails_fullDisk :
    let arguments := ["config", "init", "-c", "a/b/c.toml"]
    let env : Environment := ⟨"/", none⟩
    Config.fullDisk.Sound ∧
      Writes arguments env Config.fullDisk false (.ofText "a/b/c.toml") ∧
      (∃ temporary left, Config.default.Stops (.ofText "a/b/c.toml") Config.fullDisk
        (.os (.plain "disk full")) temporary left ∧
        Config.fullDisk.cleanUpFault? temporary = none) ∧
      (∀ console, (runOn console arguments env Config.fullDisk).1 =
        ⟨1, [.error "Failed to write tracker config: disk full"], none⟩) ∧
      (run arguments env Config.fullDisk).2.tree.get? ["kept"] = some (.file .empty) := by
  intro arguments env
  have sound : Config.fullDisk.Sound :=
    ⟨rfl, Tree.connected_empty.put rfl nofun (by decide) _⟩
  have writes : Writes arguments env Config.fullDisk false (.ofText "a/b/c.toml") :=
    ⟨some (.ofText "a/b/c.toml"), false, false, rfl, rfl, rfl, nofun⟩
  obtain ⟨left, stops⟩ : ∃ left, Config.default.Stops (.ofText "a/b/c.toml") Config.fullDisk
      (.os (.plain "disk full")) (some "/a/b/tmp00000001.tmp") left :=
    ⟨_, .move rfl rfl rfl rfl⟩
  obtain ⟨-, hstopped, hfails⟩ :=
    first_failure_reported_unless_cleanup_fails sound .default (.ofText "a/b/c.toml")
  have fails := fun console => hfails console _ _ _ _ _ _ writes stops
  have untagged : Markup.untagged "Failed to write tracker config: disk full" = true := by
    decide +kernel
  refine ⟨sound, writes, ⟨_, left, stops, rfl⟩, fun console => ?_, ?_⟩
  · exact ((fails console).reported _ rfl rfl).taken
      (Console.takes_singleton.mpr (Console.refusal?_error untagged))
  · rw [← runOn_left .tolerant, (fails .tolerant).left]
    exact (hstopped _ _ _ stops).kept _ _ rfl

def stuckDisk : Host :=
  { Host.bare with
    faults := [⟨.replace, .everywhere, .numbered 28 "No space left on device" []⟩,
      ⟨.unlink, .everywhere, .numbered 13 "Permission denied" []⟩] }

/-- The full disk is what keeps the settings from being written, but the removal of the temporary
file is what escapes. The file stays, and the command prints nothing. -/
theorem cleanup_hides_full_disk :
    ∃ left, Config.default.Stops (.ofText "c.toml") stuckDisk
        (.os (.numbered 28 "No space left on device" [])) (some "/tmp00000001.tmp") left ∧
      Config.default.save (.ofText "c.toml") stuckDisk =
        (.error (.uninspected (.numbered 13 "Permission denied" [])), left) ∧
      left.tree.get? ["tmp00000001.tmp"] = some (.file Config.default.text.toUTF8) ∧
      (runOn .strict ["config", "init", "-c", "c.toml"] ⟨"/", none⟩ stuckDisk).1 =
        ⟨1, [], some (.config (.uninspected (.numbered 13 "Permission denied" [])))⟩ :=
  ⟨_, .move rfl rfl rfl rfl, rfl, rfl, rfl⟩

/-- The path of the settings has been read from an argument or from the environment. -/
theorem isRead_of_pathOr (h : readArguments arguments = ⟨verbose, .initConfig given force⟩)
    (hpath : Config.pathOr given env = .ok path) : path.IsRead := by
  unfold Config.pathOr at hpath
  split at hpath
  · cases hpath
    exact isRead_of_readArguments h
  · split at hpath
    · rename_i hdefault
      cases hpath
      exact Environment.isRead_trackerConfigPath? hdefault
    · cases hpath

/-- What has been done when the default settings have been written to a path that led nowhere. -/
structure Written (path : Path) (host : Host) (around : Tree) (place : Place) (host' : Host) :
    Prop where
  saved : Config.default.Saved path host around place host'
  unreached : ∀ q, host.tree.resolve host.cwd true path.text ≠ .ok q
  others : ∀ q entry, q ≠ place → host.tree.get? q = some entry → host'.tree.get? q = some entry
  -- an entry is replaced only if it is a link, which led nowhere, or a file that the path did not
  -- name before directories were made around it
  replaced : ∀ entry, host.tree.get? place = some entry →
    (∃ target, entry = .link target) ∨
      (∃ content, entry = .file content) ∧ host.tree.placeOf host.cwd path.text ≠ .ok place
  -- the settings can be loaded, unless the path reaches its directory through the link that was
  -- replaced
  loaded : host.fault? .read path.text = none →
    (Config.load path host' = .ok Config.default ↔
      (around.erase place).placeOf host.cwd path.text = .ok place)
  loadedAfresh : host.fault? .read path.text = none →
    (∀ target, host.tree.get? place ≠ some (.link target)) →
      Config.load path host' = .ok Config.default

theorem written_of_save (settled : host.Settled) (hread : path.IsRead)
    (hpresent : host.present path.text = .ok false)
    (hsave : Config.default.save path host = (.ok (), host')) :
    ∃ around place, Written path host around place host' := by
  obtain ⟨around, place, saved⟩ := Config.saved_of_save settled hsave
  have hunreached := Host.unreached_of_present saved.noNul hpresent
  have hpresence := (Host.exists_present_iff.mp ⟨false, hpresent⟩).1
  obtain ⟨before, name, his, hup, hcomponents⟩ := saved.components hread
  refine ⟨around, place, ?_⟩
  exact {
    saved := saved
    unreached := hunreached
    others := by
      intro q entry hq hget
      rw [saved.installs.installed, if_neg hq]
      exact saved.furnishes.within q entry hget
    replaced := by
      intro entry hget
      cases entry with
      | directory => exact absurd (saved.furnishes.within _ _ hget) saved.installs.replaced
      | link target => exact .inl ⟨target, rfl⟩
      | file content =>
          refine .inr ⟨⟨content, rfl⟩, fun hplace => hunreached place ?_⟩
          exact Tree.resolve_file his hup (by simp) hcomponents hplace hget
    loaded := by
      intro hfault
      rcases saved.load_cases hread hpresence hfault with ⟨hwithout, hload⟩ | ⟨hno, hload⟩
      · exact iff_of_true hload hwithout
      · exact iff_of_false (by simp [hload]) hno
    loadedAfresh := by
      intro hfault hlink
      have hwithout := saved.installs.placeOf_erase fun target hget =>
        hlink target (saved.link_before hget)
      rcases saved.load_cases hread hpresence hfault with ⟨-, hload⟩ | ⟨hno, -⟩
      · exact hload
      · exact absurd hwithout hno }

def wroteTo (verbose : Bool) (path : Path) : Ending :=
  ⟨0, heading verbose ++ [.success ("Wrote default config to " ++ path.text)], none⟩

/-- The path was found to lead nowhere, and the default settings can be saved there. -/
def CanWrite (path : Path) (host : Host) : Prop :=
  host.present path.text = .ok false ∧ ∃ host', Config.default.save path host = (.ok (), host')

section withoutForce

variable (hread : readArguments arguments = ⟨verbose, .initConfig given false⟩)
  (hpath : Config.pathOr given env = .ok path)

include hread hpath

theorem run_of_there (hpresent : host.present path.text = .ok true) :
    run arguments env host = (⟨1, heading verbose ++ [.info ("Config already exists: " ++
      path.text ++ " (use --force to overwrite)")], none⟩, host) := by
  rw [run_of_readArguments hread]
  simp only [meet, meetAmid, initConfig, hpath, hpresent, Bool.not_false, Bool.and_self, if_true]

theorem run_of_uninspected {error : OsError} (hpresent : host.present path.text = .error error) :
    run arguments env host = (⟨1, heading verbose, some (.uninspected error)⟩, host) := by
  rw [run_of_readArguments hread]
  simp [meet, meetAmid, initConfig, hpath, hpresent, Ending.escape]

theorem writes_of_absent (hpresent : host.present path.text = .ok false) :
    Writes arguments env host verbose path :=
  ⟨given, false, false, hread, hpath, hpresent, nofun⟩

theorem run_of_canWrite (sound : host.Sound) (can : CanWrite path host) :
    (run arguments env host).1 = wroteTo verbose path ∧
      ∃ around place, Written path host around place (run arguments env host).2 := by
  obtain ⟨hpresent, host', hsave⟩ := can
  rw [(writes_of_absent hread hpath hpresent).run_eq, hsave]
  exact ⟨rfl, written_of_save sound.settled (isRead_of_pathOr hread hpath) hpresent hsave⟩

/-- The command ends with exit code one and keeps every entry, or it can write to a path that leads
nowhere. -/
theorem run_cases (sound : host.Sound) :
    ((run arguments env host).1.exit = 1 ∧ host.tree.Within (run arguments env host).2.tree) ∨
      CanWrite path host := by
  cases hpresent : host.present path.text with
  | error error =>
      rw [run_of_uninspected hread hpath hpresent]
      exact .inl ⟨rfl, .refl _⟩
  | ok there =>
    cases there with
    | true =>
        rw [run_of_there hread hpath hpresent]
        exact .inl ⟨rfl, .refl _⟩
    | false =>
        have writes := writes_of_absent hread hpath hpresent
        rcases Config.save_or_stops sound.settled .default path with
          ⟨host', hsave⟩ | ⟨failure, temporary, left, stops⟩
        · exact .inr ⟨hpresent, host', hsave⟩
        · obtain ⟨error, host', hsave⟩ := stops.exists_error
          have kept := (stops.stopped sound).kept
          rw [hsave] at kept
          rw [writes.run_of_error hsave]
          exact .inl ⟨rfl, kept⟩

theorem run_exit_eq_zero (sound : host.Sound) :
    (run arguments env host).1.exit = 0 ↔ CanWrite path host := by
  constructor
  · intro hexit
    rcases run_cases hread hpath sound with ⟨hone, -⟩ | can
    · omega
    · exact can
  · intro can
    rw [(run_of_canWrite hread hpath sound can).1]
    rfl

end withoutForce

/-- What the command does with a path when it writes the default settings without force. -/
structure KeepsUnforced (console : Console) (arguments : List String) (env : Environment)
    (verbose : Bool) (path : Path) (host : Host) : Prop where
  -- with any exit code but zero, which is one, no entry is lost or changed, unless all is done and only
  -- the message about it cannot be shown
  failing : (runOn console arguments env host).1.exit ≠ 0 →
    (runOn console arguments env host).1.exit = 1 ∧
      (host.tree.Within (runOn console arguments env host).2.tree ∨
        CanWrite path host ∧ ¬console.Takes (wroteTo verbose path).output)
  -- an entry that the path leads to is told of, and nothing is done
  refuses : ∀ place, host.tree.resolve host.cwd true path.text = .ok place →
    Host.holdsNul path.text = false → host.fault? .presence path.text = none →
      Prints console ⟨1, heading verbose ++ [.info ("Config already exists: " ++ path.text ++
        " (use --force to overwrite)")], none⟩ (runOn console arguments env host).1 ∧
        (runOn console arguments env host).2 = host
  -- an entry that the path names keeps the command from writing, unless it is a link that leads
  -- nowhere
  named : ∀ place, host.tree.resolve host.cwd false path.text = .ok place →
    ((∀ target, host.tree.get? place ≠ some (.link target)) ∨
      ∃ q, host.tree.resolve host.cwd true path.text = .ok q) →
        (runOn console arguments env host).1.exit = 1 ∧
          host.tree.Within (runOn console arguments env host).2.tree
  succeeds : (runOn console arguments env host).1.exit = 0 ↔
    CanWrite path host ∧ console.Takes (wroteTo verbose path).output
  written : CanWrite path host →
    Prints console (wroteTo verbose path) (runOn console arguments env host).1 ∧
      ∃ around place, Written path host around place (runOn console arguments env host).2

/-- Without force the command keeps all that is there, but for a link that leads nowhere, or a file
that the path comes to lead to. -/
theorem unforced_init_keeps_what_it_finds (sound : host.Sound)
    (hread : readArguments arguments = ⟨verbose, .initConfig given false⟩) (env : Environment)
    (console : Console) :
    (∀ error, Config.pathOr given env = .error error →
      (runOn console arguments env host).1.exit = 1 ∧
        (runOn console arguments env host).2 = host) ∧
    ∀ path, Config.pathOr given env = .ok path →
      KeepsUnforced console arguments env verbose path host := by
  have prints := prints_run console arguments env host
  refine ⟨fun error hpath => ?_, fun path hpath => ?_⟩
  · have hrun : run arguments env host = (⟨1, heading verbose, some error⟩, host) := by
      rw [run_of_readArguments hread]
      simp [meet, meetAmid, initConfig, hpath, Ending.escape]
    exact ⟨prints.exit_eq_one (by rw [hrun]), by rw [runOn_left, hrun]⟩
  · have hcases := run_cases hread hpath sound
    have hwritten := run_of_canWrite hread hpath sound
    exact {
      failing := by
        intro hexit
        rcases hcases with ⟨hone, kept⟩ | can
        · exact ⟨prints.exit_eq_one hone, .inl kept⟩
        · rw [(hwritten can).1] at prints
          have hrefused : ¬console.Takes (wroteTo verbose path).output := fun htakes =>
            hexit (prints.exit_eq_zero.mpr ⟨rfl, htakes⟩)
          obtain ⟨complaint, printed, -, hdisplay⟩ := prints.refused hrefused
          exact ⟨by rw [hdisplay], .inr ⟨can, hrefused⟩⟩
      refuses := by
        intro place hresolve hnul hfault
        have hrun := run_of_there hread hpath (Host.present_of_resolve hfault hnul hresolve)
        rw [hrun] at prints
        exact ⟨prints, by rw [runOn_left, hrun]⟩
      named := by
        intro place hresolve hleads
        rcases hcases with ⟨hone, kept⟩ | can
        · exact ⟨prints.exit_eq_one hone, kept⟩
        · obtain ⟨-, _, _, written⟩ := hwritten can
          rcases hleads with hlink | ⟨q, hq⟩
          · exact absurd (Tree.resolve_true hresolve hlink) (written.unreached place)
          · exact absurd hq (written.unreached q)
      succeeds := by
        rw [prints.exit_eq_zero, run_exit_eq_zero hread hpath sound]
        exact and_congr_right fun can => by rw [(hwritten can).1]
      written := by
        intro can
        obtain ⟨hending, written⟩ := hwritten can
        rw [hending] at prints
        exact ⟨prints, written⟩ }

/-- A link that leads to a file is kept. Where nothing is, the settings are written and can be
loaded. -/
theorem unforced_init_keeps_what_it_finds_linkedFile :
    let arguments := ["config", "init", "-c", "c.toml"]
    let env : Environment := ⟨"/", none⟩
    readArguments arguments = ⟨false, .initConfig (some (.ofText "c.toml")) false⟩ ∧
      (Config.linkedFile.Sound ∧ runOn .strict arguments env Config.linkedFile =
        (⟨1, [.info "Config already exists: c.toml (use --force to overwrite)"], none⟩,
          Config.linkedFile)) ∧
      Host.bare.Sound ∧ (runOn .strict arguments env Host.bare).1.exit = 0 ∧
        Config.load (.ofText "c.toml") (runOn .strict arguments env Host.bare).2 =
          .ok Config.default := by
  intro arguments env
  have hread : readArguments arguments =
      ⟨false, .initConfig (some (.ofText "c.toml")) false⟩ := rfl
  have linked : Config.linkedFile.Sound :=
    ⟨rfl, (Tree.connected_empty.put rfl nofun (by decide) _).put rfl (by decide) (by decide) _⟩
  have bare : Host.bare.Sound := ⟨rfl, Tree.connected_empty⟩
  refine ⟨hread, ⟨linked, ?_⟩, bare, ?_⟩
  · have keeps := (unforced_init_keeps_what_it_finds linked hread env .strict).2 _ rfl
    obtain ⟨prints, hsame⟩ := keeps.refuses ["kept"] rfl rfl rfl
    have untagged : Markup.untagged
        "Config already exists: c.toml (use --force to overwrite)" = true := by decide +kernel
    exact Prod.ext (prints.taken
      (Console.takes_singleton.mpr (Console.refusal?_info untagged))) hsame
  · have keeps := (unforced_init_keeps_what_it_finds bare hread env .strict).2 _ rfl
    have untagged : Markup.untagged "Wrote default config to c.toml" = true := by decide +kernel
    have can : CanWrite (.ofText "c.toml") Host.bare := ⟨rfl, _, rfl⟩
    have hexit := keeps.succeeds.mpr
      ⟨can, Console.takes_singleton.mpr (Console.refusal?_success untagged)⟩
    obtain ⟨-, around, place, written⟩ := keeps.written can
    have hlink : ∀ target, Host.bare.tree.get? place ≠ some (.link target) := by
      intro target
      by_cases hroot : place = [] <;> simp [Host.bare, Tree.empty, Tree.get?, hroot]
    exact ⟨hexit, written.loadedAfresh rfl hlink⟩

def danglingLink : Host :=
  { Host.bare with tree := Tree.empty.put ["c.toml"] (.link "gone") }

def lonelyFile : Host :=
  { Host.bare with tree := Tree.empty.put ["c.toml"] (.file "kept".toUTF8) }

/-- A link that leads nowhere becomes a file, and a file is written over by a path that goes through
a directory which is not there, and back. -/
theorem unforced_init_replaces :
    (runOn .strict ["config", "init", "-c", "c.toml"] ⟨"/", none⟩ danglingLink).1.exit = 0 ∧
      (runOn .strict ["config", "init", "-c", "c.toml"] ⟨"/", none⟩ danglingLink).2.tree.get?
        ["c.toml"] = some (.file Config.default.text.toUTF8) ∧
      (runOn .strict ["config", "init", "-c", "gone/../c.toml"] ⟨"/", none⟩ lonelyFile).1.exit = 0 ∧
      (runOn .strict ["config", "init", "-c", "gone/../c.toml"] ⟨"/", none⟩ lonelyFile).2.tree.get?
        ["c.toml"] = some (.file Config.default.text.toUTF8) :=
  ⟨rfl, rfl, rfl, rfl⟩

end Command
end Reclaim
