import Reclaim.Proofs.Course.Aim
import Reclaim.Proofs.Files.Straight

/-!
The path that is stored for an object. It is computed on the text alone, so it names the entry that
the path of the object names only as long as the path is straight; then it names it from every
directory, and the record is deleted there. Where the path goes up behind a link to a directory
elsewhere, another entry is named and deleted in its place.
-/

namespace Reclaim

open Files

inductive PathArgument.Answers : PathArgument → String → Prop
  | path {p : Path} (h : p.IsRead) : Answers (.path p) p.text
  | pathLike (text : String) : Answers (.pathLike text) text

theorem Host.currentDirectory?_of_stands {host : Host} (h : host.tree.Stands host.cwd) :
    ∃ directory, host.currentDirectory? = some directory ∧ directory.isAbsolute = true ∧
      directory.parts = host.cwd.reverse := by
  have hthere : (host.tree.get? host.cwd).isSome = true := by simp [h.isDirectory]
  have hcwd : host.currentDirectory? = some (.ofText (textOf host.cwd)) := if_pos hthere
  refine ⟨_, hcwd, isAbsolute_of_currentDirectory? hcwd, ?_⟩
  have hnamed : ∀ name ∈ host.cwd.reverse, IsName name := fun name hname =>
    h.isName name (List.mem_reverse.mp hname)
  show (components ("/" ++ "/".intercalate host.cwd.reverse)).filter Path.isPart = _
  rw [components_slash, List.filter_cons_of_neg (by decide)]
  by_cases hroot : host.cwd.reverse = []
  · rw [hroot]
    rfl
  · rw [components_intercalate hroot fun name hname => (hnamed name hname).noSlash,
      List.filter_eq_self]
    exact fun name hname => (hnamed name hname).isPart

namespace PathArgument

variable {host : Host} {path : PathArgument} {text : String}

/-- What is stored for an object is the absolute form of the text that it answers. -/
theorem Answers.stored_eq (h : path.Answers text) (cwd : Option Path) :
    path.stored cwd = absoluteFrom cwd (.ofText text) := by
  cases h with
  | path hread => rw [Path.ofText_text hread, PathArgument.stored]
  | pathLike => rfl

/-- What is stored for an object is an absolute path, whose parts are those of the path stacked on
the directory that it begins in. -/
theorem stored_of_answers (answers : path.Answers text)
    (stands : host.tree.Stands (Tree.start host.cwd text)) :
    ∃ q : Path, path.stored host.currentDirectory? = .ok q.text ∧
      q.IsCollapsed (Path.stackParts (Tree.start host.cwd text) (Path.ofText text).parts) := by
  have hread := Path.isRead_ofText text
  have hbase : ∀ part ∈ Tree.start host.cwd text,
      Path.isPart part = true ∧ '/' ∉ part.toList ∧ part ≠ ".." := fun part hpart =>
    have hname := stands.isName part hpart
    ⟨hname.isPart, hname.noSlash, hname.notUp⟩
  rw [answers.stored_eq]
  by_cases habsolute : (Path.ofText text).isAbsolute = true
  · -- an absolute path begins at the root, whatever the current directory is
    have hstart : Tree.start host.cwd text = [] :=
      if_pos ((Path.isAbsolute_ofText text).mp habsolute)
    rw [hstart] at hbase ⊢
    exact ⟨_, if_pos habsolute, Path.isCollapsed_stackParts hbase hread habsolute
      (Path.parts_lexical habsolute)⟩
  · -- a relative one is stacked on the names of the current directory
    have hstart : Tree.start host.cwd text = host.cwd :=
      if_neg fun hhead => habsolute ((Path.isAbsolute_ofText text).mpr hhead)
    rw [hstart] at stands hbase ⊢
    obtain ⟨directory, hcwd, hdirectory, hnames⟩ := Host.currentDirectory?_of_stands stands
    have hup : ".." ∉ directory.parts := by
      rw [hnames, List.mem_reverse]
      exact stands.up_not_mem
    have hstack := Path.parts_absolute hdirectory hup (Bool.eq_false_iff.mpr habsolute)
    rw [hnames, List.reverse_reverse] at hstack
    refine ⟨_, ?_, Path.isCollapsed_stackParts hbase hread
      (Path.isAbsolute_absolute hdirectory _) hstack⟩
    rw [hcwd, absoluteFrom, if_neg habsolute]

theorem noNul_of_isCollapsed {base : Place} {tree : Tree} {q : Path} (stands : tree.Stands base)
    (hnul : Host.holdsNul text = false)
    (h : q.IsCollapsed (Path.stackParts base (Path.ofText text).parts)) :
    Host.holdsNul q.text = false := by
  simp only [Host.holdsNul, List.contains_eq_mem, decide_eq_false_iff_not] at hnul ⊢
  intro hmem
  rcases Path.mem_text hmem with hc | hc | ⟨part, hpart, hc⟩
  · cases hc
  · cases hc
  · rw [h.parts, List.mem_reverse] at hpart
    rcases Path.mem_stackParts hpart with hbase | ⟨hpart, -⟩
    · exact (stands.isName part hbase).noNul hc
    · exact hnul (mem_of_components (List.mem_filter.mp hpart).1 hc).1

end PathArgument

/-- A record whose path has been collapsed is deleted where that path names an entry. -/
theorem Work.deletesAt_of_isCollapsed {w : Work} {index : Nat} {record : Record} {place : Place}
    {q : Path} {stack : List String} (h : q.IsCollapsed stack) (hpath : record.path = q.text)
    (hhand : w.inHand? index = some record)
    (builtin : record.strategy = .normal ∨ record.strategy = .force)
    (hnames : w.host.Names record.path place) : w.DeletesAt index record place := by
  cases stack with
  | cons name stack =>
      obtain ⟨before, hends, -⟩ := Tree.endsWith_of_isCollapsed h
      exact deletesAt_of_names hhand builtin (hpath ▸ hends) hnames
  | nil =>
      -- the root is always there
      refine deletesAt hhand builtin hnames.noNul fun named => ?_
      have hplace := hnames.placed
      rw [hpath, Tree.placeOf_root h, Except.ok.injEq] at hplace
      rw [hpath, Tree.resolve_root h, ← hplace, Except.ok.injEq]
      simp [eq_comm]

/-- A path that is stored for an object and names one place for good. -/
structure Host.StoresPlace (host : Host) (path : PathArgument) (stored : String) (place : Place) :
    Prop where
  -- wherever the object is tracked, this is the path of the record
  tracked : ∀ {s s' : System} {index : Nat} {owner : Owner} {strategy : Option Strategy}
    {events : List Event},
    s.track index host.currentDirectory? path owner strategy = .ok (s', events) →
      ∃ t, s.tracker? index = some t ∧
        let record : Record := ⟨s.nextRecord, stored, t.strategyFor strategy⟩
        s' = (s.setTracker index (t.accept record).1).watch record owner.id (.tracker index)
  -- it names the place at once and later on, from whatever directory
  names : ∀ {later : Host}, host.tree.Within later.tree → later.Names stored place
  -- a record with this path is deleted there
  deleted : ∀ {w : Work} {index : Nat} {record : Record}, host.tree.Within w.host.tree →
    w.inHand? index = some record → record.path = stored →
    (record.strategy = .normal ∨ record.strategy = .force) → w.DeletesAt index record place

/-- For an object whose path is straight, an absolute path is stored that names the entry which the
path itself names, unless it has become too long to name anything. -/
theorem stored_path_keeps_place {host : Host} {path : PathArgument} {text : String} {place : Place}
    (answers : path.Answers text) (names : host.Names text place)
    (stands : host.tree.Stands (Tree.start host.cwd text))
    (straight : host.tree.Straight host.cwd text) :
    ∃ stored, path.stored host.currentDirectory? = .ok stored ∧
      (Path.ofText stored).isAbsolute = true ∧
      (stored.utf8ByteSize < pathSizeLimit → host.StoresPlace path stored place) := by
  obtain ⟨q, hstored, hcollapsed⟩ := PathArgument.stored_of_answers answers stands
  have habsolute : (Path.ofText q.text).isAbsolute = true := by
    rw [Path.isAbsolute_ofText_text hcollapsed.isRead, hcollapsed.isAbsolute]
  refine ⟨q.text, hstored, habsolute, fun hshort => ?_⟩
  have hlater : ∀ {later : Host}, host.tree.Within later.tree → later.Names q.text place := by
    intro later hsub
    -- an absolute path does not depend on the current directory, and the tree has only grown
    have hnow := Tree.placeOf_of_straight stands straight names.placed hcollapsed hshort later.cwd
    exact ⟨PathArgument.noNul_of_isCollapsed stands names.noNul hcollapsed,
      Tree.placeOf_within hsub rfl hnow⟩
  exact {
    tracked := by
      intro s s' index owner strategy events htracked
      obtain ⟨stored, hsame, htracked⟩ := System.track_eq_ok htracked
      obtain rfl : q.text = stored := Except.ok.inj (hstored.symm.trans hsame)
      obtain ⟨t, ht, -, -, hs', -⟩ := System.trackStored_eq_ok htracked
      exact ⟨t, ht, hs'⟩
    names := hlater
    deleted := by
      intro w index record hsub hhand hpath builtin
      exact Work.deletesAt_of_isCollapsed hcollapsed hpath hhand builtin (hpath ▸ hlater hsub) }

def sameNames : Host :=
  let directories := (Tree.empty.put ["d"] .directory).put ["sub", "d"] .directory
  let files := (directories.put ["f", "d"] (.file .empty)).put ["f"] (.file .empty)
  { Host.bare with tree := files.put ["l"] (.link "d/sub") }

theorem straight_sub : sameNames.tree.Straight [] "d/sub/../f" where
  goesBack := by
    intro before after name q p hparts hends
    have hshape : ["d", "sub", "..", "f"] = before ++ ".." :: after := hparts
    obtain rfl : before = ["d", "sub"] := by
      rcases before with _ | ⟨a, _ | ⟨b, _ | ⟨c, rest⟩⟩⟩
      · simp at hshape
      · simp at hshape
      · simp only [List.cons_append, List.cons.injEq] at hshape
        rw [← hshape.1, ← hshape.2.1]
      · -- the path goes up only once
        simp only [List.cons_append, List.cons.injEq] at hshape
        have hmem : ".." ∈ ["f"] := hshape.2.2.2 ▸ List.mem_append_right rest List.mem_cons_self
        simp at hmem
    obtain ⟨below, n, m, hstack, hbelow, hname⟩ := hends
    obtain ⟨rfl, rfl⟩ : "sub" = name ∧ ["d"] = below := List.cons.inj hstack
    have hd : sameNames.tree.Leads [] ["d"] 0 ["d"] :=
      .enter (by decide) (by decide) (by decide) rfl (.done _)
    obtain rfl : q = ["d"] := hbelow.unique hd
    have hsub : sameNames.tree.Leads ["d"] ["sub"] 0 ["sub", "d"] :=
      .enter (by decide) (by decide) (by decide) rfl (.done _)
    obtain rfl : p = ["sub", "d"] := hname.unique hsub
    rfl
  stays hnone := by
    have hends : EndsWith "d/sub/../f" ["d", "sub", ".."] "f" :=
      ⟨by decide, by decide, [], nofun, by decide⟩
    exact absurd hends (hnone _ _)

theorem stored_path_keeps_place_fromDirectory :
    sameNames.Names "d/sub/../f" ["f", "d"] ∧
      ∃ stored,
        (PathArgument.pathLike "d/sub/../f").stored sameNames.currentDirectory? = .ok stored ∧
        stored = "/d/f" ∧ sameNames.StoresPlace (.pathLike "d/sub/../f") stored ["f", "d"] := by
  have hnames : sameNames.Names "d/sub/../f" ["f", "d"] := ⟨by decide, rfl⟩
  obtain ⟨stored, hstored, -, hstores⟩ :=
    stored_path_keeps_place (.pathLike "d/sub/../f") hnames .root straight_sub
  obtain rfl : "/d/f" = stored := Except.ok.inj hstored
  exact ⟨hnames, _, hstored, rfl, hstores (by decide)⟩

/-- Behind a link the dots go elsewhere than on the text: the path names one file, and the other one
is deleted. -/
theorem stored_path_leads_elsewhere :
    ∃ s events w log t,
      sameNames.Names "l/../f" ["f", "d"] ∧
      (PathArgument.path (.ofText "l/../f")).stored sameNames.currentDirectory? = .ok "/f" ∧
      sameNames.Names "/f" ["f"] ∧
      System.idle.track 0 sameNames.currentDirectory? (.path (.ofText "l/../f")) ⟨7, none⟩ none =
        .ok (s, events) ∧
      Work.steps 0 3 ⟨s.reclaim 7, sameNames, []⟩ = (w, log) ∧ w.system.tracker? 0 = some t ∧
      t.failures = [] ∧ w.host.tree.get? ["f", "d"] = some (.file .empty) ∧
      w.host.tree.get? ["f"] = none :=
  ⟨_, _, _, _, _, ⟨by decide, rfl⟩, rfl, ⟨by decide, rfl⟩, rfl, rfl, rfl, rfl, rfl, rfl⟩

end Reclaim
