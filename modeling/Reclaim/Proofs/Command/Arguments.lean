import Reclaim.Command.Arguments
import Reclaim.Proofs.Path.Text

/-!
Which paths the arguments of the command that deletes name. Whatever options stand between them, the
paths are some of the arguments in the order in which they are given, each read on its own; and every
list of paths can be given, after two dashes also those that look like options.
-/

namespace Reclaim.Command

variable {forms : List Form} {mixed : Bool} {arguments others texts : List String}
  {given : List Given} {paths : List Path} {force dryRun verbose : Bool}

theorem separate_sublist (h : separate forms mixed arguments = some (given, others)) :
    others.Sublist arguments := by
  fun_induction separate forms mixed arguments generalizing given others with
  | case1 =>
      cases h
      exact .slnil
  | case2 rest =>
      cases h
      exact .cons _ (.refl _)
  | case3 => cases h
  | case4 argument rest hno more hread ih =>
      obtain ⟨⟨given', others'⟩, hrest, heq⟩ := Option.map_eq_some_iff.mp h
      cases heq
      exact (ih hrest).cons _
  | case5 => cases h
  | case6 argument hno more flag hread value rest ih =>
      obtain ⟨⟨given', others'⟩, hrest, heq⟩ := Option.map_eq_some_iff.mp h
      cases heq
      exact ((ih hrest).cons _).cons _
  | case7 argument rest hno hread hmixed ih =>
      obtain ⟨⟨given', others'⟩, hrest, heq⟩ := Option.map_eq_some_iff.mp h
      cases heq
      exact (ih hrest).cons_cons _
  | case8 argument rest hno hread hmixed =>
      cases h
      exact .refl _

theorem readPath?_eq_some {argument : String} {path : Path} :
    readPath? argument = some path ↔ '\x00' ∉ argument.toList ∧ Path.ofText argument = path := by
  simp [readPath?]

/-- Arguments are paths if none of them holds a NUL, and each is read on its own. -/
theorem mapM_readPath? : texts.mapM readPath? = some paths ↔
    (∀ text ∈ texts, '\x00' ∉ text.toList) ∧ texts.map Path.ofText = paths := by
  induction texts generalizing paths with
  | nil => simp
  | cons text texts ih =>
      simp only [List.mapM_cons, Option.bind_eq_bind, Option.bind_eq_some_iff, readPath?_eq_some,
        ih, Option.pure_def, Option.some.injEq, List.forall_mem_cons, List.map_cons]
      constructor
      · rintro ⟨_, ⟨hnul, rfl⟩, _, ⟨hrest, rfl⟩, rfl⟩
        exact ⟨⟨hnul, hrest⟩, rfl⟩
      · rintro ⟨⟨hnul, hrest⟩, rfl⟩
        exact ⟨_, ⟨hnul, rfl⟩, _, ⟨hrest, rfl⟩, rfl⟩

/-- Paths are named by arguments: there are some, and each is one of the arguments, read on its own
and in its order. -/
structure Names (arguments : List String) (paths : List Path) : Prop where
  nonempty : paths ≠ []
  texts : ∃ texts : List String, texts.Sublist arguments ∧ texts.map Path.ofText = paths ∧
    ∀ text ∈ texts, '\x00' ∉ text.toList

theorem Names.isRead (h : Names arguments paths) {path : Path} (hmem : path ∈ paths) :
    path.IsRead := by
  obtain ⟨texts, -, rfl, -⟩ := h.texts
  obtain ⟨text, -, rfl⟩ := List.mem_map.mp hmem
  exact Path.isRead_ofText text

theorem Names.mono {more : List String} (h : Names arguments paths)
    (hsublist : arguments.Sublist more) : Names more paths where
  nonempty := h.nonempty
  texts := by
    obtain ⟨texts, hgiven, hmap, hnul⟩ := h.texts
    exact ⟨texts, hgiven.trans hsublist, hmap, hnul⟩

theorem names_of_readDelete (h : readDelete arguments = .delete paths force dryRun) :
    Names arguments paths := by
  unfold readDelete at h
  split at h
  · cases h
  · rename_i given others hseparate
    split at h
    · cases h
    · split at h
      · cases h
      · cases h
      · rename_i read hne hmap
        cases h
        obtain ⟨hnul, rfl⟩ := mapM_readPath?.mp hmap
        exact ⟨hne, others, separate_sublist hseparate, rfl, hnul⟩

theorem readGroup_ne_delete : readGroup arguments ≠ .delete paths force dryRun := by
  unfold readGroup readShow readInit
  grind

theorem names_of_readArguments
    (h : readArguments arguments = ⟨verbose, .delete paths force dryRun⟩) :
    Names arguments paths := by
  unfold readArguments at h
  split at h
  · cases h
  · rename_i given others hseparate
    split at h
    · cases h
    · cases h
    · simp only at h
      split at h
      · rename_i rest
        have hrest : rest.Sublist arguments :=
          (List.sublist_cons_self _ _).trans (separate_sublist hseparate)
        exact (names_of_readDelete (CommandLine.mk.inj h).2).mono hrest
      · exact absurd (CommandLine.mk.inj h).2 readGroup_ne_delete
      · cases h

theorem isRead_of_readInit {path : Path} (h : readInit arguments = .initConfig (some path) force) :
    path.IsRead := by
  unfold readInit at h
  split at h
  · cases h
  · split at h
    · cases h
    · split at h
      · rename_i hpath _
        cases h
        unfold readConfigPath? at hpath
        split at hpath
        · cases hpath
        · obtain ⟨read, hread, heq⟩ := Option.map_eq_some_iff.mp hpath
          obtain rfl := Option.some.inj heq
          obtain ⟨-, rfl⟩ := readPath?_eq_some.mp hread
          exact Path.isRead_ofText _
      · cases h

theorem readInit_of_readGroup {path : Option Path}
    (h : readGroup arguments = .initConfig path force) :
    ∃ rest, readInit rest = .initConfig path force := by
  unfold readGroup readShow at h
  grind

theorem readDelete_ne_initConfig {path : Option Path} :
    readDelete arguments ≠ .initConfig path force := by
  unfold readDelete
  split
  · nofun
  · split
    · nofun
    · split <;> nofun

theorem isRead_of_readArguments {path : Path}
    (h : readArguments arguments = ⟨verbose, .initConfig (some path) force⟩) : path.IsRead := by
  unfold readArguments at h
  split at h
  · cases h
  · split at h
    · cases h
    · cases h
    · simp only at h
      split at h
      · exact absurd (CommandLine.mk.inj h).2 readDelete_ne_initConfig
      · obtain ⟨rest, hinit⟩ := readInit_of_readGroup (CommandLine.mk.inj h).2
        exact isRead_of_readInit hinit
      · cases h

def deleteOptions (force dryRun : Bool) : List String :=
  (if force then ["--force"] else []) ++ if dryRun then ["--dry-run"] else []

/-- Every list of paths can be given. -/
theorem readArguments_delete (force dryRun : Bool) (hne : texts ≠ [])
    (hnul : ∀ text ∈ texts, '\x00' ∉ text.toList) :
    readArguments ("delete" :: (deleteOptions force dryRun ++ "--" :: texts)) =
      ⟨false, .delete (texts.map Path.ofText) force dryRun⟩ := by
  have hread : readDelete (deleteOptions force dryRun ++ "--" :: texts) =
      .delete (texts.map Path.ofText) force dryRun := by
    obtain ⟨text, more, rfl⟩ := List.exists_cons_of_ne_nil hne
    have hmap := mapM_readPath?.mpr ⟨hnul, rfl⟩
    have hforce : readArgument deleteForms "--force" = .options [(.force, none)] := rfl
    have hdry : readArgument deleteForms "--dry-run" = .options [(.dryRun, none)] := rfl
    cases force <;> cases dryRun <;>
      simp [deleteOptions, readDelete, separate, hforce, hdry, isGiven, hmap]
  have hplain : readArgument programForms "delete" = .plain := rfl
  simp [readArguments, separate, hplain, hread, isGiven]

end Reclaim.Command
