import Reclaim.Proofs.Command.DryRun

/-!
Deleting again what has been deleted. A command that succeeds has found each of its paths absent or
has deleted it, and no later deletion brings back what one before it has left: a path that leads
nowhere leads nowhere on all that is left. So each path is absent at the end, and asked to delete
any of them again, in any order and by either strategy, the command finds nothing to do.
-/

namespace Reclaim

open Files

/-- A deletion that goes well leaves its path absent, where no faults are met. -/
theorem Strategy.absent_of_delete {strategy : Strategy} {shown : String} {path : Path}
    {host : Host} (h : path.IsRead) (faultless : host.Faultless)
    (hok : (strategy.delete shown path host).1 = .ok ()) :
    (strategy.delete shown path host).2.absent path.text = .ok true := by
  have d := strategy.delete_deletion shown h host
  rw [hok] at d
  cases habsent : host.absent path.text with
  | error error =>
      rw [delete_of_uninspected habsent] at hok
      cases hok
  | ok absent =>
      cases absent with
      | true =>
          rw [delete_of_absent habsent]
          exact habsent
      | false => exact d.dwindles.absent_of_vacant faultless habsent (d.vacant h)

namespace Command

variable {strategy : Strategy} {path : Path} {paths : List Path} {host : Host}

theorem delete_ok_of_row (h : (deletePath strategy false path host).1.isFailed = false) :
    (strategy.delete path.text path host).1 = .ok () := by
  cases hdelete : (strategy.delete path.text path host).1 with
  | ok _ => rfl
  | error error =>
      have hrow : (deletePath strategy false path host).1.result = .failed error.reason :=
        deletePath_failed.mpr ⟨error, hdelete, rfl⟩
      simp [Row.isFailed, hrow] at h

/-- If no row has failed, all paths are absent on what is left. -/
theorem absent_of_deletePaths (h : ∀ path ∈ paths, path.IsRead) (faultless : host.Faultless)
    (rows : ∀ row ∈ (deletePaths strategy false paths host).1, row.isFailed = false) :
    ∀ path ∈ paths, (strategy.deleteAll paths host).absent path.text = .ok true := by
  induction paths generalizing host with
  | nil => simp
  | cons first rest ih =>
      obtain ⟨hfirst, hrest⟩ := List.forall_mem_cons.mp h
      simp only [deletePaths_cons, List.forall_mem_cons] at rows
      obtain ⟨hrow, hrows⟩ := rows
      have hok := delete_ok_of_row hrow
      have d := (strategy.delete_deletion first.text hfirst host).dwindles
      rw [deletePath_left] at hrows
      refine List.forall_mem_cons.mpr ⟨?_, ih hrest (d.faultless faultless) hrows⟩
      -- what the first deletion has left absent, those after it leave absent
      exact (strategy.deleteAll_dwindles hrest _).absent
        (Strategy.absent_of_delete hfirst faultless hok)

theorem deletePaths_of_absent (strategy : Strategy)
    (absent : ∀ path ∈ paths, host.absent path.text = .ok true) :
    deletePaths strategy false paths host =
      (paths.map fun path => ⟨path.text, .absent⟩, host) := by
  induction paths with
  | nil => rfl
  | cons path paths ih =>
      obtain ⟨hfirst, hrest⟩ := List.forall_mem_cons.mp absent
      have hpath : deletePath strategy false path host = (⟨path.text, .absent⟩, host) := by
        simp only [deletePath, handle, hfirst]
      simp only [deletePaths_cons, hpath, ih hrest, List.map_cons]

def foundAbsent (verbose : Bool) (paths : List Path) : List Output :=
  heading verbose ++ [tableOf false (paths.map fun path => ⟨path.text, .absent⟩),
    .success "Deleted 0 path(s)."]

theorem run_of_absent {arguments : List String} {verbose force : Bool}
    (h : readArguments arguments = ⟨verbose, .delete paths force false⟩)
    (absent : ∀ path ∈ paths, host.absent path.text = .ok true) (env : Environment) :
    run arguments env host = (⟨0, foundAbsent verbose paths, none⟩, host) := by
  have hfailed : (paths.map fun path => (⟨path.text, .absent⟩ : Row)).countP Row.isFailed = 0 := by
    simp [List.countP_eq_zero, Row.isFailed]
  have hdeleted : (paths.map fun path => (⟨path.text, .absent⟩ : Row)).countP Row.isDeleted = 0 := by
    simp [List.countP_eq_zero, Row.isDeleted]
  rw [run_delete h, deletePaths_of_absent _ absent]
  simp only [exitCode_eq, report, hfailed, hdeleted]
  rfl

/-- A console that has shown a table with some paths can show that they are absent. -/
theorem takes_foundAbsent {console : Console} {rows : List Row} {again : List Path}
    (shown : console.refusal? (tableOf false rows) = none)
    (named : ∀ path ∈ again, path.text ∈ rows.map (·.path)) (verbose : Bool) :
    console.Takes (foundAbsent verbose again) := by
  have hcells : ∀ path ∈ again, console.complaint? path.text = none := by
    intro path hpath
    obtain ⟨row, hrow, hsame⟩ := List.mem_map.mp (named path hpath)
    refine Console.refusal?_eq_none.mp shown path.text ?_
    simp only [tableOf, Output.texts, List.mem_cons, List.mem_append, List.mem_flatten,
      List.mem_map]
    refine .inr ⟨row.cells, ⟨row, hrow, rfl⟩, ?_⟩
    rw [← hsame]
    unfold Row.cells
    split <;> simp
  have hmark := console.complaint?_tagged "muted" "-" true (by decide) (by simp) (by decide)
  have htable : console.refusal?
      (tableOf false (again.map fun path => (⟨path.text, .absent⟩ : Row))) = none := by
    refine refusal?_tableOf console false (List.forall_mem_map.mpr fun path hpath => ?_)
    simp only [Row.cells, List.forall_mem_cons]
    exact ⟨hmark, hcells path hpath, console.plain _ (by decide), List.forall_mem_nil _⟩
  exact Console.takes_append.mpr ⟨takes_heading console verbose, Console.takes_cons.mpr
    ⟨htable, Console.takes_singleton.mpr (refusal?_deletedLine console 0)⟩⟩

/-- Where no faults are met, a command that succeeds has left all its paths absent, and asked again
for any of them, by either strategy, it succeeds, shows them as absent and changes nothing. -/
theorem deleting_again_finds_nothing {arguments : List String} {verbose force : Bool}
    (h : readArguments arguments = ⟨verbose, .delete paths force false⟩) (console : Console)
    (env : Environment) (faultless : host.Faultless)
    (succeeded : (runOn console arguments env host).1.exit = 0) :
    (∀ path ∈ paths, (runOn console arguments env host).2.Vacant path.text) ∧
      ∀ arguments' verbose' force' again env',
        readArguments arguments' = ⟨verbose', .delete again force' false⟩ →
        (∀ path ∈ again, path ∈ paths) →
        runOn console arguments' env' (runOn console arguments env host).2 =
          (⟨0, foundAbsent verbose' again, none⟩, (runOn console arguments env host).2) := by
  have hread : ∀ path ∈ paths, path.IsRead := fun path => (names_of_readArguments h).isRead
  obtain ⟨hexit, htakes⟩ := (prints_display console (run arguments env host).1).exit_eq_zero.mp
    succeeded
  have hleft : (runOn console arguments env host).2 = (strategyOf force).deleteAll paths host := by
    change (run arguments env host).2 = _
    rw [run_delete h]
    exact deletePaths_left ..
  rw [run_delete h] at htakes hexit
  have hnone := hexit
  rw [exitCode_eq] at hnone
  have hrows : ∀ row ∈ (deletePaths (strategyOf force) false paths host).1,
      row.isFailed = false := by
    simpa [List.countP_eq_zero] using hnone
  have habsent := absent_of_deletePaths hread faultless hrows
  have hshown : console.refusal?
      (tableOf false (deletePaths (strategyOf force) false paths host).1) = none :=
    takes_report_iff.mp (Console.takes_append.mp htakes).2
  rw [hleft]
  refine ⟨fun path hpath => Host.vacant_of_absent (habsent path hpath), ?_⟩
  intro arguments' verbose' force' again env' h' hagain
  have hrun := run_of_absent h' (fun path hpath => habsent path (hagain path hpath)) env'
  have htakes' : console.Takes (foundAbsent verbose' again) := by
    refine takes_foundAbsent hshown (fun path hpath => ?_) verbose'
    rw [deletePaths_named]
    exact List.mem_map_of_mem (hagain path hpath)
  change ((run arguments' env' _).1.display console, (run arguments' env' _).2) = _
  rw [hrun]
  exact Prod.ext ((prints_display console _).taken htakes') rfl

/-- The file and then its directory, which it leaves empty; the other way round and by force there
is nothing left to do. -/
theorem deleting_again_finds_nothing_fileFirst :
    readArguments ["delete", "/d/f", "/d"] =
        ⟨false, .delete [.ofText "/d/f", .ofText "/d"] false false⟩ ∧
      oneFileInside.Faultless ∧
      (runOn .strict ["delete", "/d/f", "/d"] ⟨"/", none⟩ oneFileInside).1.exit = 0 ∧
      readArguments ["-v", "delete", "/d", "--force", "/d/f"] =
        ⟨true, .delete [.ofText "/d", .ofText "/d/f"] true false⟩ ∧
      (∀ path ∈ [Path.ofText "/d", .ofText "/d/f"], path ∈ [.ofText "/d/f", .ofText "/d"]) ∧
      let left := (runOn .strict ["delete", "/d/f", "/d"] ⟨"/", none⟩ oneFileInside).2
      left.Vacant "/d" ∧
        runOn .strict ["-v", "delete", "/d", "--force", "/d/f"] ⟨"/", none⟩ left =
          (⟨0, [logging, tableOf false [⟨"/d", .absent⟩, ⟨"/d/f", .absent⟩],
            .success "Deleted 0 path(s)."], none⟩, left) := by
  have h : readArguments ["delete", "/d/f", "/d"] =
      ⟨false, .delete [.ofText "/d/f", .ofText "/d"] false false⟩ := rfl
  have h' : readArguments ["-v", "delete", "/d", "--force", "/d/f"] =
      ⟨true, .delete [.ofText "/d", .ofText "/d/f"] true false⟩ := rfl
  have faultless : oneFileInside.Faultless := ⟨rfl, rfl⟩
  have succeeded : (runOn .strict ["delete", "/d/f", "/d"] ⟨"/", none⟩ oneFileInside).1.exit = 0 :=
    rfl
  have hagain : ∀ path ∈ [Path.ofText "/d", .ofText "/d/f"],
      path ∈ [Path.ofText "/d/f", .ofText "/d"] := by simp
  obtain ⟨vacant, again⟩ := deleting_again_finds_nothing h .strict ⟨"/", none⟩ faultless succeeded
  exact ⟨h, faultless, succeeded, h', hagain, vacant (.ofText "/d") (by simp),
    again _ _ _ _ _ h' hagain⟩

end Command
end Reclaim
