import Reclaim.Proofs.Course.Aim
import Reclaim.Proofs.Files.Creation
import Reclaim.Proofs.Path.Absolute

/-!
Temporary entries, from their making to their deletion. The path that is answered is the path of
the record. A file is made under an absolute path and is deleted where it was made, whatever the
current directory has become. A directory is made under its path as given: if that is relative, the
deletion goes to another place once the current directory has changed, and a path that leads
nowhere from there counts as deleted.
-/

namespace Reclaim

open Files

def TemporaryKind.entry : TemporaryKind → Entry
  | file => .file .empty
  | directory => .directory

theorem slash_not_mem_padded (width n : Nat) : '/' ∉ (padded width n).toList := by
  simp only [padded, String.toList_append, String.toList_ofList, List.mem_append,
    List.mem_replicate, Nat.toList_repr, not_or]
  refine ⟨fun ⟨_, h⟩ => absurd h (by decide), fun h => ?_⟩
  have hdigit := Nat.isDigit_of_mem_toDigits (by decide) (by decide) h
  exact absurd hdigit (by decide)

theorem padded_ne_empty (width n : Nat) : (padded width n).toList ≠ [] := by
  simp [padded, Nat.toList_repr, Nat.toDigits_ne_nil]

theorem isAbsolute_numbered (before after : String) (n : Nat) :
    (Path.ofText (before ++ padded 8 n ++ after)).isAbsolute = true ↔
      (Path.ofText before).isAbsolute = true := by
  simp only [Path.isAbsolute_ofText, String.toList_append]
  cases hbefore : before.toList with
  | cons c cs => rfl
  | nil =>
      -- the name begins with a digit
      cases hdigits : (padded 8 n).toList with
      | nil => exact absurd hdigits (padded_ne_empty 8 n)
      | cons d ds =>
          have hd : d ≠ '/' := by
            rintro rfl
            exact slash_not_mem_padded 8 n (hdigits ▸ List.mem_cons_self)
          simp [hd]

theorem isAbsolute_joinText (base name : String) :
    (Path.ofText (joinText base name)).isAbsolute = true ↔
      (Path.ofText base).isAbsolute = true ∨ (Path.ofText name).isAbsolute = true := by
  simp only [Path.isAbsolute_ofText]
  unfold joinText
  split
  · rename_i hname
    simp [hname]
  · rename_i hname
    split
    · rename_i hbase
      cases hchars : base.toList with
      | nil => simp [hchars, hname]
      | cons c cs => simp [hchars, hname]
    · rename_i hbase
      cases hchars : base.toList with
      | nil => exact absurd (String.toList_injective hchars) (not_or.mp hbase).1
      | cons c cs => simp [hchars, hname]

namespace Host

theorem holdsNul_of_change {host host' : Host} {paths : List String}
    {step : Tree → Place → Except Reason Tree} (h : host.change paths step = .ok host') :
    ∀ text ∈ paths, holdsNul text = false := by
  unfold change at h
  split at h
  · cases h
  · rename_i hnul
    simpa using hnul

theorem makeNamed_eq_ok {kind : TemporaryKind} {host host' : Host} {text : String}
    (h : makeNamed kind host text = .ok host') :
    holdsNul text = false ∧ ∃ place, host.tree.Makes host.cwd text kind.entry place host'.tree := by
  have hmade := guarded_eq_ok h
  cases kind with
  | file =>
      refine ⟨holdsNul_of_change hmade text (by simp), ?_⟩
      obtain ⟨tree, hcreate, rfl⟩ := change_eq_ok hmade
      exact Tree.create_makes hcreate
  | directory =>
      refine ⟨holdsNul_of_change hmade text (by simp), ?_⟩
      obtain ⟨tree, hmkdir, rfl⟩ := change_eq_ok hmade
      exact Tree.mkdir_makes hmkdir

/-- The name that is answered is the one that was made; names passed over have changed nothing. -/
theorem tryNames_eq_ok {kind : TemporaryKind} {base before after text : String} {attempts : Nat}
    {host host' : Host}
    (h : tryNames kind base before after attempts host = (.ok text, host')) :
    ∃ n next, text = joinText base (before ++ padded 8 n ++ after) ∧
      makeNamed kind { host with nextName := next } text = .ok host' := by
  induction attempts generalizing host with
  | zero => cases h
  | succ attempts ih =>
      simp only [tryNames] at h
      split at h
      · rename_i hmake
        cases h
        exact ⟨host.nextName, host.nextName + 1, rfl, hmake⟩
      · -- a name that is taken costs a number and nothing else
        obtain ⟨n, next, htext, hmake⟩ := ih h
        exact ⟨n, next, htext, hmake⟩
      · cases h

theorem isAbsolute_absoluteDirectory {host : Host} {directory base : String}
    (h : host.absoluteDirectory directory = .ok base) :
    (Path.ofText base).isAbsolute = true := by
  have hread : ∀ p : Path, p.isAbsolute = true → (Path.ofText p.text).isAbsolute = true := by
    intro p hp
    rw [Path.isAbsolute_ofText]
    cases hanchor : p.anchor <;> simp [Path.isAbsolute, hanchor] at hp <;>
      simp [Path.text, hanchor, Anchor.text]
  -- made absolute or taken as it is, the path of the directory begins with a slash
  simp only [absoluteDirectory] at h
  by_cases hp : (Path.ofText directory).isAbsolute = true
  · rw [if_pos hp] at h
    exact Except.ok.inj h ▸ hread _ hp
  · rw [if_neg hp] at h
    cases hcwd : host.currentDirectory? with
    | none => simp [hcwd] at h
    | some cwd =>
        rw [hcwd] at h
        have habsolute := isAbsolute_of_currentDirectory? hcwd
        exact Except.ok.inj h ▸ hread _ (Path.isAbsolute_absolute habsolute _)

/-- What a temporary entry is made of: one entry where the answered path names it. The path is
absolute for a file, and for a directory if the path of the place where it is to go or the beginning
of its name is. -/
theorem makeTemporary_eq_ok {host host' : Host} {kind : TemporaryKind} {name : TemporaryName}
    {text : String} (h : host.makeTemporary kind name = (.ok text, host')) :
    holdsNul text = false ∧
      (∃ place, host.tree.Makes host.cwd text kind.entry place host'.tree) ∧
      ((Path.ofText text).isAbsolute = true ↔ kind = .file ∨
        (Path.ofText (name.directory.getD host.temporary)).isAbsolute = true ∨
        (Path.ofText name.before).isAbsolute = true) := by
  unfold makeTemporary at h
  cases kind with
  | file =>
      simp only at h
      split at h
      · cases h
      · rename_i base hbase
        obtain ⟨n, next, rfl, hmake⟩ := tryNames_eq_ok h
        obtain ⟨hnul, hmakes⟩ := makeNamed_eq_ok hmake
        refine ⟨hnul, hmakes, ?_⟩
        simp [isAbsolute_joinText, isAbsolute_absoluteDirectory hbase]
  | directory =>
      obtain ⟨n, next, rfl, hmake⟩ := tryNames_eq_ok h
      obtain ⟨hnul, hmakes⟩ := makeNamed_eq_ok hmake
      refine ⟨hnul, hmakes, ?_⟩
      rw [isAbsolute_joinText, isAbsolute_numbered]
      simp

end Host

namespace System

variable {s s' : System} {index : Nat} {kind : TemporaryKind} {name : TemporaryName}
  {text : String} {owner : Owner} {strategy : Option Strategy} {host host' : Host}
  {events : List Event}

theorem makeTemporary_eq_ok (h : s.makeTemporary index kind name host = (.ok text, host')) :
    s.accepting index = .ok () ∧ host.makeTemporary kind name = (.ok text, host') := by
  unfold makeTemporary at h
  split at h
  · cases h
  · rename_i hopen
    split at h
    · rename_i hmade
      cases h
      exact ⟨hopen, hmade⟩
    · cases h

structure TracksMade (s s' : System) (index : Nat) (kind : TemporaryKind) (name : TemporaryName)
    (text : String) (owner : Owner) (strategy : Option Strategy) (host host' : Host)
    (record : Record) (place : Place) : Prop where
  -- the path of the record is the path that is answered
  stored : record.path = text
  -- the record is registered, and its owner is watched for it
  tracked : ∃ t, s.tracker? index = some t ∧ record.id = s.nextRecord ∧
    record.strategy = t.strategyFor strategy ∧
    s' = (s.setTracker index (t.accept record).1).watch record owner.id (.tracker index)
  -- one entry was made where the path names it
  makes : host.tree.Makes host.cwd text kind.entry place host'.tree
  -- the path of a file is absolute, that of a directory if it was asked for under such a one
  absolute : (Path.ofText text).isAbsolute = true ↔ kind = .file ∨
    (Path.ofText (name.directory.getD host.temporary)).isAbsolute = true ∨
    (Path.ofText name.before).isAbsolute = true
  -- whatever else has come to be in the meantime, the record is deleted where the entry was made:
  -- always if the path is absolute, and else if the current directory is the same again
  deleted : ∀ w : Work, host.tree.Within w.host.tree →
    ((Path.ofText text).isAbsolute = true ∨ w.host.cwd = host.cwd) →
    w.inHand? index = some record →
    (record.strategy = .normal ∨ record.strategy = .force) → w.DeletesAt index record place

/-- A path that is absolute or seen from the same directory still names the place where an entry
was made with it. -/
theorem names_later {place : Place} {entry : Entry} {tree : Tree}
    (makes : host.tree.Makes host.cwd text entry place tree) (hnul : Host.holdsNul text = false)
    {later : Host} (hsub : host.tree.Within later.tree)
    (hstart : (Path.ofText text).isAbsolute = true ∨ later.cwd = host.cwd) :
    later.Names text place := by
  refine ⟨hnul, Tree.placeOf_within hsub ?_ makes.placed⟩
  rcases hstart with habsolute | hcwd
  · have hhead := (Path.isAbsolute_ofText text).mp habsolute
    simp only [Tree.start, if_pos hhead]
  · rw [hcwd]

/-- A temporary entry is tracked under the path that is answered, and deleted where it was made as
long as that path is absolute or the current directory stays. Others may act between the making and
the tracking. -/
theorem temporary_deleted_where_made {s₀ : System} {later later' : Host}
    (hmade : s₀.makeTemporary index kind name host = (.ok text, host'))
    (htracked : s.trackMade index kind text owner strategy later = (.ok (), (s', events), later')) :
    ∃ record place,
      s.TracksMade s' index kind name text owner strategy host host' record place := by
  obtain ⟨-, hmade⟩ := makeTemporary_eq_ok hmade
  obtain ⟨hnul, ⟨place, makes⟩, habsolute⟩ := Host.makeTemporary_eq_ok hmade
  obtain ⟨stored, hstored, htracked⟩ := track_eq_ok (trackMade_eq_ok htracked).1
  obtain ⟨t, ht, -, -, hs', -⟩ := trackStored_eq_ok htracked
  have hsame : stored = text := by
    simp only [PathArgument.stored] at hstored
    by_cases hempty : text = ""
    · simp [hempty] at hstored
    · rw [if_neg hempty] at hstored
      exact (Except.ok.inj hstored).symm
  obtain ⟨before, last, hends⟩ := makes.named
  refine ⟨⟨s.nextRecord, stored, t.strategyFor strategy⟩, place, ?_⟩
  exact {
    stored := hsame
    tracked := ⟨t, ht, rfl, rfl, hs'⟩
    makes := makes
    absolute := habsolute
    deleted := fun w hsub hstart hhand builtin =>
      Work.deletesAt_of_names hhand builtin (hsame ▸ hends)
        (hsame ▸ names_later makes hnul hsub hstart) }

def twoDirectories : Host :=
  { Host.bare with tree := (Tree.empty.put ["d"] .directory).put ["e"] .directory }

/-- A directory made under an absolute path is deleted there from another directory. -/
theorem temporary_deleted_where_made_elsewhere :
    ∃ made s events record place w log,
      idle.makeTemporary 0 .directory ⟨some "/d", "tmp", ""⟩ twoDirectories =
        (.ok "/d/tmp00000001", made) ∧
      idle.trackMade 0 .directory "/d/tmp00000001" ⟨7, none⟩ (some .force) made =
        (.ok (), (s, events), made) ∧
      Work.steps 0 2 ⟨s.reclaim 7, { made with cwd := ["e"] }, []⟩ = (w, log) ∧
      w.inHand? 0 = some record ∧ record.path = "/d/tmp00000001" ∧
      w.host.tree.get? place = some .directory ∧ w.DeletesAt 0 record place := by
  have hmade : idle.makeTemporary 0 .directory ⟨some "/d", "tmp", ""⟩ twoDirectories =
      (.ok "/d/tmp00000001", _) := rfl
  have htracked : idle.trackMade 0 .directory "/d/tmp00000001" ⟨7, none⟩ (some .force)
      (idle.makeTemporary 0 .directory ⟨some "/d", "tmp", ""⟩ twoDirectories).2 =
        (.ok (), (_, _), _) := rfl
  obtain ⟨⟨id, path, strategy⟩, place, h⟩ := temporary_deleted_where_made hmade htracked
  obtain rfl : path = "/d/tmp00000001" := h.stored
  obtain ⟨t, -, rfl, rfl, -⟩ := h.tracked
  have hthere := (h.makes.made place).trans (if_pos rfl)
  exact ⟨_, _, _, _, place, _, _, hmade, htracked, rfl, rfl, rfl, hthere,
    h.deleted _ h.makes.within (.inl (by decide)) rfl (.inr rfl)⟩

/-- A directory made under a relative path is left behind when the current directory has changed,
and nothing is noted. -/
theorem temporary_left_behind :
    ∃ made s events w log t,
      idle.trackTemporary 0 .directory ⟨some "d", "tmp", ""⟩ ⟨7, none⟩ (some .force)
        twoDirectories = (.ok "d/tmp00000001", (s, events), made) ∧
      (Path.ofText "d/tmp00000001").isAbsolute = false ∧
      Work.steps 0 3 ⟨s.reclaim 7, { made with cwd := ["e"] }, []⟩ = (w, log) ∧
      w.system.tracker? 0 = some t ∧ t.registry = [] ∧ t.queue = [] ∧ t.phase = .testingExit ∧
      t.failures = [] ∧ w.host.tree.get? ["tmp00000001", "d"] = some .directory :=
  ⟨_, _, _, _, _, _, rfl, by decide, rfl, rfl, rfl, rfl, rfl, rfl, rfl⟩

end System
end Reclaim
