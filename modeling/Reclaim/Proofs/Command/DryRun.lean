import Reclaim.Proofs.Command.Table
import Reclaim.Proofs.Deletion.Dwindling

/-!
What a dry run foretells. It inspects every path on the host as it is and changes nothing, while the
deletion itself inspects each path on what the deletions before it have left. Since entries only go,
what the dry run finds absent is absent then, and what is deleted then was found by the dry run, with
one exception: a link that the dry run could not follow, because of a name that is too long, may have
become a dead one, and these can be deleted.
-/

namespace Reclaim

open Files

theorem Strategy.deleteAll_dwindles (strategy : Strategy) {paths : List Path}
    (h : ∀ path ∈ paths, path.IsRead) (host : Host) :
    host.Dwindles (strategy.deleteAll paths host) := by
  induction paths generalizing host with
  | nil => exact .refl host
  | cons path paths ih =>
      have hfirst := (strategy.delete_deletion path.text (h path List.mem_cons_self) host).dwindles
      exact hfirst.trans (ih (fun p hp => h p (List.mem_cons_of_mem _ hp)) _)

namespace Command

variable {strategy : Strategy} {path : Path} {paths : List Path} {host : Host}

/-- What the row of a path in a dry run, on a host, foretells of its row when it is deleted from what
other deletions have left. -/
structure Foretells (strategy : Strategy) (host later : Host) (path : Path) (dry real : Row) :
    Prop where
  named : dry.path = path.text ∧ real.path = path.text
  -- what is already absent will be
  absent : dry.result = .absent → real.result = .absent
  -- what is deleted was to be deleted, except a link that is a dead one only now
  deleted : real.result = .deleted →
    dry.result = .planned strategy.name ∨ host.Stranded later path.text
  -- what fails will fail, or it will already be absent, except such a link again
  failed : ∀ reason, dry.result = .failed reason →
    (∃ reason, real.result = .failed reason) ∨ real.result = .absent ∨
      real.result = .deleted ∧ host.Stranded later path.text

/-- What the rows of a dry run foretell of those of the deletion that follows. -/
structure Foretold (strategy : Strategy) (paths : List Path) (host : Host) (dry real : List Row) :
    Prop where
  lengths : dry.length = paths.length ∧ real.length = paths.length
  rows : ∀ i path row row', paths[i]? = some path → dry[i]? = some row → real[i]? = some row' →
    Foretells strategy host (strategy.deleteAll (paths.take i) host) path row row'
  -- the first path is already absent for both or for neither
  firstAbsent : ∀ path row row', paths[0]? = some path → dry[0]? = some row → real[0]? = some row' →
    (row.result = .absent ↔ row'.result = .absent)
  -- the dry run fails on the first path exactly if it cannot be inspected, and then its deletion
  -- fails for the same reason
  firstFailed : ∀ path row row' reason, paths[0]? = some path → dry[0]? = some row →
    real[0]? = some row' →
    (row.result = .failed reason ↔
      row'.result = .failed reason ∧ ∃ e, host.absent path.text = .error e)

theorem dry_absent : (deletePath strategy true path host).1.result = .absent ↔
    host.absent path.text = .ok true := by
  rw [deletePath_dry]
  cases host.absent path.text with
  | error error => simp
  | ok absent => cases absent <;> simp

theorem dry_failed {reason : String} :
    (deletePath strategy true path host).1.result = .failed reason ↔
      ∃ e, host.absent path.text = .error e ∧ e.reason = reason := by
  rw [deletePath_dry]
  cases host.absent path.text with
  | error error => simp
  | ok absent => cases absent <;> simp

theorem dry_planned (h : host.absent path.text = .ok false) :
    (deletePath strategy true path host).1.result = .planned strategy.name := by
  rw [deletePath_dry, h]

/-- The dry run of a path foretells its deletion from what is left of the host. -/
theorem foretells {later : Host} (d : host.Dwindles later) (faultless : host.Faultless) :
    Foretells strategy host later path (deletePath strategy true path host).1
      (deletePath strategy false path later).1 := by
  have hdeleted : (deletePath strategy false path later).1.result = .deleted →
      (deletePath strategy true path host).1.result = .planned strategy.name ∨
        host.Stranded later path.text := by
    intro hreal
    obtain ⟨hfound, -⟩ := (handles_deletePath ..).deleted_iff.mp hreal
    exact (d.found faultless hfound).imp_left dry_planned
  exact {
    named := ⟨by rw [deletePath_dry], (handles_deletePath ..).named⟩
    absent := by
      intro hdry
      exact deletePath_absent.mpr (d.absent (dry_absent.mp hdry))
    deleted := hdeleted
    failed := by
      intro reason hdry
      rcases (handles_deletePath strategy path later).decided with habsent | hfailed | hreal
      · exact .inr (.inl habsent)
      · exact .inl hfailed
      · rcases hdeleted hreal with hplanned | hstranded
        · rw [hdry] at hplanned
          cases hplanned
        · exact .inr (.inr ⟨hreal, hstranded⟩) }

theorem foretold (h : ∀ path ∈ paths, path.IsRead) (faultless : host.Faultless) :
    Foretold strategy paths host (deletePaths strategy true paths host).1
      (deletePaths strategy false paths host).1 := by
  have hrows {i : Nat} {path : Path} {row row' : Row} (hpath : paths[i]? = some path)
      (hrow : (deletePaths strategy true paths host).1[i]? = some row)
      (hrow' : (deletePaths strategy false paths host).1[i]? = some row') :
      row = (deletePath strategy true path host).1 ∧
        row' = (deletePath strategy false path (strategy.deleteAll (paths.take i) host)).1 := by
    rw [deletePaths_dry, List.getElem?_map, hpath] at hrow
    rw [deletePaths_row, hpath] at hrow'
    exact ⟨(Option.some.inj hrow).symm, (Option.some.inj hrow').symm⟩
  exact {
    lengths := by
      refine ⟨by rw [deletePaths_dry, List.length_map], ?_⟩
      simpa using congrArg List.length (deletePaths_named strategy paths host)
    rows := by
      intro i path row row' hpath hrow hrow'
      obtain ⟨rfl, rfl⟩ := hrows hpath hrow hrow'
      have hread : ∀ path ∈ paths.take i, path.IsRead := fun p hp => h p (List.mem_of_mem_take hp)
      exact foretells (strategy.deleteAll_dwindles hread host) faultless
    -- before the first path nothing has been deleted, so both rows are about the same host
    firstAbsent := by
      intro path row row' hpath hrow hrow'
      obtain ⟨rfl, rfl⟩ := hrows hpath hrow hrow'
      exact dry_absent.trans deletePath_absent.symm
    firstFailed := by
      intro path row row' reason hpath hrow hrow'
      obtain ⟨rfl, rfl⟩ := hrows hpath hrow hrow'
      exact dry_failed.trans deletePath_failed_of_uninspected.symm }

/-- A dry run changes nothing, and where no faults are met it foretells the rows of the deletion of
the same paths, except for links that only have become dead ones. Either prints its rows on any
console that can show them. -/
theorem dry_run_foretells {arguments arguments' : List String} {verbose verbose' force : Bool}
    (hdry : readArguments arguments = ⟨verbose, .delete paths force true⟩)
    (hreal : readArguments arguments' = ⟨verbose', .delete paths force false⟩)
    (env : Environment) (host : Host) :
    (run arguments env host).2 = host ∧ (host.Faultless → ∃ dry real,
      (run arguments env host).1 =
        ⟨exitCode dry, heading verbose ++ report true dry, none⟩ ∧
      (run arguments' env host).1 =
        ⟨exitCode real, heading verbose' ++ report false real, none⟩ ∧
      Foretold (strategyOf force) paths host dry real) ∧
    ∀ console, (runOn console arguments env host).2 = host ∧
      Prints console (run arguments env host).1 (runOn console arguments env host).1 ∧
      Prints console (run arguments' env host).1 (runOn console arguments' env host).1 := by
  have hread : ∀ path ∈ paths, path.IsRead := fun path => (names_of_readArguments hdry).isRead
  have hsame : (run arguments env host).2 = host := by rw [run_delete hdry, deletePaths_dry]
  refine ⟨hsame, fun faultless => ⟨_, _, ?_, ?_, foretold hread faultless⟩, fun console => ?_⟩
  · rw [run_delete hdry]
  · rw [run_delete hreal]
  · exact ⟨hsame, prints_display console _, prints_display console _⟩

/-- The directory would be deleted in the dry run, but is refused; the file is deleted. -/
theorem dry_run_foretells_oneFileInside :
    readArguments ["delete", "--dry-run", "/d", "/d/f"] =
        ⟨false, .delete [.ofText "/d", .ofText "/d/f"] false true⟩ ∧
      readArguments ["delete", "/d", "/d/f"] =
        ⟨false, .delete [.ofText "/d", .ofText "/d/f"] false false⟩ ∧
      oneFileInside.Faultless ∧
      (run ["delete", "--dry-run", "/d", "/d/f"] ⟨"/", none⟩ oneFileInside).2 = oneFileInside ∧
      (∃ dry real, Foretold .normal [.ofText "/d", .ofText "/d/f"] oneFileInside dry real) ∧
      (run ["delete", "--dry-run", "/d", "/d/f"] ⟨"/", none⟩ oneFileInside).1.output =
        report true [⟨"/d", .planned "normal"⟩, ⟨"/d/f", .planned "normal"⟩] ∧
      (run ["delete", "/d", "/d/f"] ⟨"/", none⟩ oneFileInside).1.output =
        report false [⟨"/d", .failed "Directory not empty"⟩, ⟨"/d/f", .deleted⟩] := by
  have hdry : readArguments ["delete", "--dry-run", "/d", "/d/f"] =
      ⟨false, .delete [.ofText "/d", .ofText "/d/f"] false true⟩ := rfl
  have hreal : readArguments ["delete", "/d", "/d/f"] =
      ⟨false, .delete [.ofText "/d", .ofText "/d/f"] false false⟩ := rfl
  have faultless : oneFileInside.Faultless := ⟨rfl, rfl⟩
  obtain ⟨hsame, hforetold, -⟩ := dry_run_foretells hdry hreal ⟨"/", none⟩ oneFileInside
  obtain ⟨dry, real, -, -, foretold⟩ := hforetold faultless
  exact ⟨hdry, hreal, faultless, hsame, ⟨dry, real, foretold⟩, rfl, rfl⟩

def linkInto (name : String) : Host where
  tree := (Tree.empty.put ["d"] .directory).put ["l"] (.link ("/".intercalate ["d", name]))
  cwd := []
  temporary := "/tmp"
  nextName := 1
  faults := []

section linkInto

variable {name : String} (part : '/' ∉ name.toList) (long : maxNameSize < name.utf8ByteSize)

include part long

/-- If the name is too long, the link cannot be followed; but where the directory has gone, it is a
dead one. -/
theorem inspect_linkInto (host : Host)
    (hlink : host.tree.get? ["l"] = some (.link ("/".intercalate ["d", name]))) :
    (host.tree.get? ["d"] = some .directory →
      host.inspect true "/l" = .error (.os (.ofReason .nameTooLong ["/l"]))) ∧
    (host.tree.get? ["d"] = none →
      host.inspect true "/l" = .error (.os (.ofReason .missing ["/l"]))) := by
  have hcomponents : components ("/".intercalate ["d", name]) = ["d", name] :=
    components_intercalate (by simp) (by simp [part])
  have hscan : host.tree.scan true [] ["", "l"] = .link [] ("/".intercalate ["d", name]) [] := by
    rw [Tree.scan_cons, if_pos (.inl rfl), Tree.scan_cons, if_neg (by decide), if_neg (by decide),
      if_neg (by decide), hlink]
    rfl
  have hresolve : host.tree.resolve host.cwd true "/l" =
      host.tree.follow true 39 [] ["d", name] := by
    have h : host.tree.follow true 40 [] ["", "l"] = _ := Tree.follow_link_succ hscan
    rw [hcomponents, List.append_nil, Tree.start, ite_self] at h
    exact h
  have hstep := host.tree.scan_cons true [] "d" [name]
  rw [if_neg (by decide), if_neg (by decide), if_neg (by decide)] at hstep
  unfold Host.inspect
  rw [hresolve, if_neg (by decide)]
  constructor
  · intro hdirectory
    rw [hdirectory] at hstep
    have hfailed := hstep.trans (Tree.scan_of_overlong _ _ _ _ long)
    rw [Tree.follow_failed hfailed, Tree.overlong, hdirectory]
    rfl
  · intro hnone
    rw [hnone] at hstep
    rw [Tree.follow_failed hstep]

/-- The dry run fails on the link; but once the directory has gone it is deleted. -/
theorem rows_linkInto :
    (deletePaths .normal true [.ofText "/d", .ofText "/l"] (linkInto name)).1 =
        [⟨"/d", .planned "normal"⟩, ⟨"/l", .failed "File name too long"⟩] ∧
      (deletePaths .normal false [.ofText "/d", .ofText "/l"] (linkInto name)).1 =
        [⟨"/d", .deleted⟩, ⟨"/l", .deleted⟩] := by
  constructor
  · have hd : (deletePath .normal true (.ofText "/d") (linkInto name)).1 =
        ⟨"/d", .planned "normal"⟩ := rfl
    have hinspect := (inspect_linkInto part long (linkInto name) rfl).1 rfl
    have hpresent : (linkInto name).present "/l" = .error (.ofReason .nameTooLong ["/l"]) := by
      rw [Host.present, Host.query, hinspect]
      rfl
    have hl : (linkInto name).absent (Path.ofText "/l").text =
        .error (.ofReason .nameTooLong ["/l"]) := by
      change (linkInto name).absent "/l" = _
      rw [Host.absent, hpresent]
    rw [deletePaths_dry, List.map_cons, List.map_singleton, hd, deletePath_dry, hl]
    rfl
  · let left := (linkInto name).withTree ((linkInto name).tree.erase ["d"])
    have hd : deletePath .normal false (.ofText "/d") (linkInto name) = (⟨"/d", .deleted⟩, left) :=
      rfl
    have hinspect := (inspect_linkInto part long left rfl).2 rfl
    have hpresent : left.present "/l" = .ok false := by
      rw [Host.present, Host.query, hinspect]
      rfl
    have hdirectory : left.isDirectory "/l" = .ok false := by
      rw [Host.isDirectory, Host.query, hinspect]
      rfl
    have hlink : left.isLink "/l" = .ok true := rfl
    have hunlink : left.unlink "/l" = .ok (left.withTree (left.tree.erase ["l"])) := rfl
    have habsent : left.absent "/l" = .ok false := by
      rw [Host.absent, hpresent, hlink]
      rfl
    have hremove : left.remove .single "/l" =
        (.ok (), left.withTree (left.tree.erase ["l"])) := by
      rw [Host.remove, Host.isRealDirectory, hdirectory, hunlink]
      rfl
    have hl : (deletePath .normal false (.ofText "/l") left).1 = ⟨"/l", .deleted⟩ := by
      have htext : (Path.ofText "/l").text = "/l" := rfl
      simp only [deletePath, handle, htext, habsent, Strategy.delete, Builtin.strategy, hremove,
        Bool.false_eq_true, if_false]
    simp only [deletePaths_cons, hd, hl]
    rfl

theorem outputs_linkInto :
    (run ["delete", "--dry-run", "/d", "/l"] ⟨"/", none⟩ (linkInto name)).1.output =
        report true [⟨"/d", .planned "normal"⟩, ⟨"/l", .failed "File name too long"⟩] ∧
      (run ["delete", "/d", "/l"] ⟨"/", none⟩ (linkInto name)).1.output =
        report false [⟨"/d", .deleted⟩, ⟨"/l", .deleted⟩] := by
  obtain ⟨hdry, hreal⟩ := rows_linkInto part long
  have readDry : readArguments ["delete", "--dry-run", "/d", "/l"] =
      ⟨false, .delete [.ofText "/d", .ofText "/l"] false true⟩ := rfl
  have readReal : readArguments ["delete", "/d", "/l"] =
      ⟨false, .delete [.ofText "/d", .ofText "/l"] false false⟩ := rfl
  rw [run_delete readDry, run_delete readReal]
  simp only [strategyOf, Bool.false_eq_true, if_false, heading, List.nil_append, hdry, hreal,
    and_self]

end linkInto

def nameOfSize (n : Nat) : String :=
  String.ofList (List.replicate n 'x')

theorem utf8ByteSize_nameOfSize (n : Nat) : (nameOfSize n).utf8ByteSize = n := by
  unfold nameOfSize
  induction n with
  | zero => rfl
  | succ n ih =>
      have hone : (String.singleton 'x').utf8ByteSize = 1 := rfl
      rw [List.replicate_succ, String.ofList_cons, String.utf8ByteSize_append, ih, hone,
        Nat.add_comm]

theorem isPart_nameOfSize (n : Nat) : '/' ∉ (nameOfSize n).toList := by
  rw [nameOfSize, String.toList_ofList]
  exact fun h => absurd (List.eq_of_mem_replicate h) (by decide)

/-- What the dry run tells of a link is not always what is done to it. -/
theorem dry_run_fails_on_deleted_link :
    (linkInto (nameOfSize 256)).Faultless ∧
      (run ["delete", "--dry-run", "/d", "/l"] ⟨"/", none⟩ (linkInto (nameOfSize 256))).1.output =
        report true [⟨"/d", .planned "normal"⟩, ⟨"/l", .failed "File name too long"⟩] ∧
      (run ["delete", "/d", "/l"] ⟨"/", none⟩ (linkInto (nameOfSize 256))).1.output =
        report false [⟨"/d", .deleted⟩, ⟨"/l", .deleted⟩] := by
  have long : maxNameSize < (nameOfSize 256).utf8ByteSize := by
    rw [utf8ByteSize_nameOfSize]
    decide
  exact ⟨⟨rfl, rfl⟩, outputs_linkInto (isPart_nameOfSize 256) long⟩

end Command
end Reclaim
