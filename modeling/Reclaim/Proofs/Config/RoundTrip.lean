import Reclaim.Proofs.Config.Content
import Reclaim.Proofs.Files.Replacement
import Reclaim.Proofs.Host.Directories
import Reclaim.Proofs.Tracking.Temporary

/-!
Saving settings and loading them again. A save that returns has made directories around the path,
where they were missing, and has put a file with the settings where the path names an entry; all
other entries are as they were, and nothing temporary is left. Loading then gives the settings,
unless the entry that was replaced is a link that the path goes through on its way to its directory:
the path leads nowhere after that.
-/

namespace Reclaim

open Files

namespace Host

variable {host host' : Host} {name : TemporaryName} {text : String}

theorem makeTemporary_file (settled : host.Settled)
    (h : host.makeTemporary .file name = (.ok text, host')) :
    ∃ next tree place, host' = { host with tree := tree, nextName := next } ∧
      host.tree.Makes host.cwd text (.file .empty) place tree := by
  unfold makeTemporary at h
  simp only at h
  split at h
  · cases h
  · obtain ⟨n, next, -, hmake⟩ := tryNames_eq_ok h
    obtain ⟨tree, hcreate, rfl⟩ := change_eq_ok (guarded_eq_ok hmake)
    obtain ⟨place, makes⟩ := Tree.create_makes hcreate
    refine ⟨next, tree, place, ?_, makes⟩
    have hcwd := Tree.detach_of_directories settled fun p => makes.within p _
    simp only [withTree, hcwd]

theorem makes_of_write {host'' : Host} {content : ByteArray} (settled : host.Settled)
    (hmake : host.makeTemporary .file name = (.ok text, host'))
    (hwrite : host'.write text content = .ok host'') :
    ∃ next tree place, host'' = { host with tree := tree, nextName := next } ∧
      host.tree.Makes host.cwd text (.file content) place tree := by
  obtain ⟨next, made, place, rfl, makes⟩ := makeTemporary_file settled hmake
  obtain ⟨tree, hwritten, rfl⟩ := change_eq_ok hwrite
  have makes' := makes.write hwritten
  have hcwd := Tree.detach_of_directories settled fun p => makes'.within p _
  refine ⟨next, tree, place, ?_, makes'⟩
  simp only [withTree, hcwd]

end Host

namespace Config

variable {config : Config} {path : Path} {host host' : Host}

theorem saveFailed_ne_ok (temporary : Option String) (failure : Failure) (host : Host) :
    (saveFailed temporary failure host).1 ≠ .ok () := by
  unfold saveFailed
  split <;> nofun

theorem save_eq_ok (h : config.save path host = (.ok (), host')) :
    ∃ host₁ host₂ host₃ temporary,
      host.ensureDirectories path.parent = (.ok (), host₁) ∧
      host₁.makeTemporary .file ⟨some path.parent.text, "tmp", ".tmp"⟩ =
        (.ok temporary, host₂) ∧
      host₂.write temporary config.text.toUTF8 = .ok host₃ ∧
      host₃.replace temporary path.text = .ok host' := by
  have hfailed : ∀ {temporary failure host}, saveFailed temporary failure host ≠ (.ok (), host') :=
    fun h => saveFailed_ne_ok _ _ _ (congrArg Prod.fst h)
  unfold save at h
  split at h
  · exact absurd h hfailed
  · split at h
    · exact absurd h hfailed
    · split at h
      · exact absurd h hfailed
      · split at h
        · cases h
          exact ⟨_, _, _, _, ‹_›, ‹_›, ‹_›, ‹_›⟩
        · exact absurd h hfailed

structure Saved (config : Config) (path : Path) (host : Host) (around : Tree) (place : Place)
    (host' : Host) : Prop where
  -- directories are made around the path if they are missing
  furnishes : host.Furnishes path.parent { host with tree := around }
  -- the settings are in a file where the path names an entry, and all else is as it was
  installs : around.Installs host.cwd path.text config.text.toUTF8 place host'.tree
  -- but for the tree and the number of the next temporary name, the host is the same
  rest : host' = { host with tree := host'.tree, nextName := host'.nextName }
  noNul : Host.holdsNul path.text = false

theorem saved_of_save (settled : host.Settled) (h : config.save path host = (.ok (), host')) :
    ∃ around place, config.Saved path host around place host' := by
  obtain ⟨host₁, host₂, host₃, temporary, hensure, hmake, hwrite, hreplace⟩ := save_eq_ok h
  have furnishes := Host.furnishes_of_ensureDirectories settled hensure
  obtain ⟨around, rfl⟩ : ∃ around, host₁ = { host with tree := around } := ⟨_, furnishes.rest⟩
  have settled₁ := furnishes.settled settled
  have hcwd : around.detach host.cwd = host.cwd := settled₁
  -- the temporary file is made, gets its content and is moved; the current directory stays
  obtain ⟨next, tree₃, made, rfl, makes⟩ := Host.makes_of_write settled₁ hmake hwrite
  have hchange := Host.guarded_eq_ok hreplace
  obtain ⟨tree', hmoved, rfl⟩ := Host.change_eq_ok hchange
  obtain ⟨entry, origin, place, moves⟩ := Tree.replace_eq_ok hmoved
  have installs := makes.installs moves
  have settled' := Tree.detach_of_directories hcwd installs.directory
  refine ⟨around, place, furnishes, installs, ?_, ?_⟩
  · simp only [Host.withTree, settled']
  · exact Host.holdsNul_of_change hchange path.text (by simp)

namespace Saved

variable {around : Tree} {place : Place}

theorem fault? (saved : config.Saved path host around place host') (call : Call) (text : String) :
    host'.fault? call text = host.fault? call text := by
  rw [saved.rest]
  rfl

theorem cwd (saved : config.Saved path host around place host') : host'.cwd = host.cwd := by
  rw [saved.rest]

theorem components (saved : config.Saved path host around place host') (hread : path.IsRead) :
    ∃ before name, Path.isPart name = true ∧ name ≠ ".." ∧
      Reclaim.components path.text = before ++ [name] := by
  obtain ⟨before, name, hends⟩ := saved.installs.named
  obtain ⟨slash, hsplit⟩ := hends.splitFinal
  obtain ⟨hcomponents, his, hup⟩ := Tree.splitFinal_text hread hsplit
  exact ⟨before, name, his, hup, hcomponents⟩

theorem load_of_resolve (saved : config.Saved path host around place host')
    (hpresence : host.fault? .presence path.text = none)
    (hfault : host.fault? .read path.text = none)
    (hresolve : host'.tree.resolve host'.cwd true path.text = .ok place) :
    load path host' = .ok config := by
  have hfile : host'.tree.reached place = .file config.text.toUTF8 := by
    rw [Tree.reached, saved.installs.installed, if_pos rfl]
    rfl
  have hpresent := Host.present_of_resolve ((saved.fault? _ _).trans hpresence) saved.noNul hresolve
  have htree : host'.tree.read host'.cwd path.text = .ok config.text.toUTF8 := by
    simp only [Tree.read, hresolve, bind, Except.bind, hfile]
  have hcontent : host'.read path.text = .ok config.text.toUTF8 := by
    rw [Host.read, Host.guarded, saved.fault?, hfault]
    simp only [Host.readNow, saved.noNul, htree, Bool.false_eq_true, if_false]
  rw [load, hpresent]
  simp only [hcontent, ofBytes_text]

theorem load_of_stopped (saved : config.Saved path host around place host')
    (hpresence : host.fault? .presence path.text = none)
    (hresolve : host'.tree.resolve host'.cwd true path.text = .error .notDirectory) :
    load path host' = .error (.missing path.text) := by
  have hpresent : host'.present path.text = .ok false := by
    rw [Host.present, Host.query, saved.fault?, hpresence]
    simp only [Host.inspect, saved.noNul, hresolve, Bool.false_eq_true, if_false]
    rfl
  rw [load, hpresent]

/-- Loading gives the settings if the path reaches its directory without the entry that was
replaced, and nothing if not. -/
theorem load_cases (saved : config.Saved path host around place host') (hread : path.IsRead)
    (hpresence : host.fault? .presence path.text = none)
    (hfault : host.fault? .read path.text = none) :
    (around.erase place).placeOf host.cwd path.text = .ok place ∧ load path host' = .ok config ∨
      (around.erase place).placeOf host.cwd path.text ≠ .ok place ∧
        load path host' = .error (.missing path.text) := by
  obtain ⟨before, name, his, hup, hcomponents⟩ := saved.components hread
  rcases saved.installs.resolve his hup hcomponents with ⟨hwithout, hresolve⟩ | ⟨hno, hresolve⟩
  · rw [← saved.cwd] at hresolve
    exact .inl ⟨hwithout, saved.load_of_resolve hpresence hfault hresolve⟩
  · rw [← saved.cwd] at hresolve
    exact .inr ⟨hno, saved.load_of_stopped hpresence hresolve⟩

theorem link_before (saved : config.Saved path host around place host') {target : String}
    (h : around.get? place = some (.link target)) :
    host.tree.get? place = some (.link target) := by
  rcases saved.furnishes.added place with hsame | ⟨-, hmade, -⟩
  · exact hsame.symm.trans h
  · rw [h] at hmade
    cases hmade

end Saved

/-- Settings that have been saved are loaded again, exactly if the path reaches its directory
without the entry that was replaced; otherwise that entry was a link, and nothing is found. -/
theorem saved_settings_load (settled : host.Settled) (hread : path.IsRead)
    (hpresence : host.fault? .presence path.text = none)
    (hfault : host.fault? .read path.text = none)
    (h : config.save path host = (.ok (), host')) :
    ∃ around place, config.Saved path host around place host' ∧
      (load path host' = .ok config ↔
        (around.erase place).placeOf host.cwd path.text = .ok place) ∧
      (load path host' ≠ .ok config → load path host' = .error (.missing path.text) ∧
        ∃ target, host.tree.get? place = some (.link target)) := by
  obtain ⟨around, place, saved⟩ := saved_of_save settled h
  refine ⟨around, place, saved, ?_⟩
  rcases saved.load_cases hread hpresence hfault with ⟨hwithout, hload⟩ | ⟨hno, hload⟩
  · exact ⟨iff_of_true hload hwithout, fun hne => absurd hload hne⟩
  · refine ⟨iff_of_false (by simp [hload]) hno, fun _ => ⟨hload, ?_⟩⟩
    by_contra hlink
    refine hno (saved.installs.placeOf_erase fun target hget => hlink ⟨target, ?_⟩)
    exact saved.link_before hget

def linkedFile : Host :=
  { Host.bare with
    tree := (Tree.empty.put ["kept"] (.file .empty)).put ["c.toml"] (.link "kept") }

def oddName : Config := ⟨"a\"\\\n", .force, by decide⟩

theorem saved_settings_load_linkedFile :
    ∃ host', oddName.save (.ofText "c.toml") linkedFile = (.ok (), host') ∧
      load (.ofText "c.toml") host' = .ok oddName ∧
      host'.tree.get? ["kept"] = some (.file .empty) := by
  have hsave : ∃ host', oddName.save (.ofText "c.toml") linkedFile = (.ok (), host') := ⟨_, rfl⟩
  obtain ⟨host', hsave⟩ := hsave
  have settled : linkedFile.Settled := Host.settled_of_directory rfl
  obtain ⟨around, place, saved, hload, -⟩ :=
    saved_settings_load settled (Path.isRead_ofText "c.toml") rfl rfl hsave
  obtain rfl : ["c.toml"] = place := Except.ok.inj saved.installs.placed
  refine ⟨host', hsave, hload.mpr rfl, ?_⟩
  rw [saved.installs.installed, if_neg (by decide)]
  rcases saved.furnishes.added ["kept"] with hsame | ⟨hnone, -, -⟩
  · exact hsame
  · cases hnone

def linkedDirectory : Host :=
  { Host.bare with tree := Tree.empty.put ["l"] (.link ".") }

/-- A path that goes through the link and then names it leads nowhere once the settings have been
saved there. -/
theorem saved_settings_lost :
    ∃ host', Config.default.save (.ofText "l/l") linkedDirectory = (.ok (), host') ∧
      host'.tree.get? ["l"] = some (.file Config.default.text.toUTF8) ∧
      load (.ofText "l/l") host' = .error (.missing "l/l") :=
  ⟨_, rfl, rfl, rfl⟩

end Config
end Reclaim
