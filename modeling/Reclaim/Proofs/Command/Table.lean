import Reclaim.Proofs.Command.Arguments
import Reclaim.Proofs.Command.Display
import Reclaim.Proofs.Command.Rows

/-!
What the command that deletes paths prints. Each path has a row in its table, whatever errors are met
and whenever they come up; below the table it tells how many paths have failed or how many were
deleted. The table holds the paths and the reasons of failures as they are, so a console that finds
wrong markup in one of them shows no table.
-/

namespace Reclaim

open Files

namespace Command

variable {console : Console} {paths : List Path} {rows : List Row} {row : Row}

def tableOf (dryRun : Bool) (rows : List Row) : Output :=
  .table .out { Table.results (title dryRun) with rows := rows.map Row.cells }

theorem refusal?_tableOf (console : Console) (dryRun : Bool)
    (h : ∀ row ∈ rows, ∀ cell ∈ row.cells, console.complaint? cell = none) :
    console.refusal? (tableOf dryRun rows) = none := by
  have htitle : ∀ dryRun, Markup.untagged (title dryRun) = true := by decide
  have hheaders : ∀ column ∈ (Table.results (title dryRun)).columns,
      Markup.untagged column.header = true := by
    simp only [Table.results, List.forall_mem_cons]
    decide
  exact Console.refusal?_table (console.plain _ (htitle dryRun))
    (fun column hcolumn => console.plain _ (hheaders column hcolumn)) (List.forall_mem_map.mpr h)

theorem refusal?_failedLine (console : Console) (failed all : Nat) :
    console.refusal? (.line .out ("\n[dim]" ++ toString failed ++ " of " ++ toString all
      ++ " path(s) could not be deleted[/dim]")) = none := by
  have hinner : Markup.untagged (toString failed ++ " of " ++ toString all
      ++ " path(s) could not be deleted") = true := by
    have hof := Markup.untagged_append (Markup.untagged_toString failed)
      (show Markup.untagged " of " = true by decide) (.inr (by simp [Markup.beginsTag]))
    exact Markup.untagged_append
      (Markup.untagged_append hof (Markup.untagged_toString all) (.inl (by simp)))
      (by decide) (.inr (by simp [Markup.beginsTag]))
  have hwrapped := console.wrapped "\n" "dim" _ "" true (by simp) (by decide) (by simp) hinner
    (by decide)
  rw [Console.refusal?_line]
  simpa [Markup.wrap, String.append_assoc] using hwrapped

theorem refusal?_deletedLine (console : Console) (deleted : Nat) :
    console.refusal? (.success ("Deleted " ++ toString deleted ++ " path(s).")) = none := by
  refine Console.refusal?_success (Markup.untagged_append (Markup.untagged_append (by decide)
    (Markup.untagged_toString deleted) (.inl (by simp))) (by decide)
    (.inr (by simp [Markup.beginsTag])))

def heading (verbose : Bool) : List Output :=
  if verbose then [logging] else []

theorem takes_heading (console : Console) (verbose : Bool) : console.Takes (heading verbose) := by
  cases verbose with
  | false => exact List.forall_mem_nil _
  | true => exact Console.takes_singleton.mpr rfl

/-- What stands below the table of a report can always be shown. -/
theorem report_eq (dryRun : Bool) (rows : List Row) :
    ∃ below, report dryRun rows = tableOf dryRun rows :: below ∧
      ∀ console : Console, console.Takes below := by
  by_cases hfailed : rows.countP Row.isFailed = 0
  · cases dryRun with
    | true =>
        refine ⟨[], ?_, fun console => List.forall_mem_nil _⟩
        simp only [report, hfailed, ne_eq, not_true_eq_false, if_false, if_true, tableOf]
    | false =>
        refine ⟨[.success ("Deleted " ++ toString (rows.countP Row.isDeleted) ++ " path(s).")], ?_,
          fun console => Console.takes_singleton.mpr (refusal?_deletedLine console _)⟩
        simp only [report, hfailed, ne_eq, not_true_eq_false, if_false, Bool.false_eq_true, tableOf]
  · refine ⟨[.line .out ("\n[dim]" ++ toString (rows.countP Row.isFailed) ++ " of "
      ++ toString rows.length ++ " path(s) could not be deleted[/dim]")], ?_,
      fun console => Console.takes_singleton.mpr (refusal?_failedLine console _ _)⟩
    simp only [report, hfailed, ne_eq, not_false_eq_true, if_true, tableOf]

theorem takes_report_iff {dryRun : Bool} :
    console.Takes (report dryRun rows) ↔ console.refusal? (tableOf dryRun rows) = none := by
  obtain ⟨below, hreport, hbelow⟩ := report_eq dryRun rows
  rw [hreport, Console.takes_cons]
  exact and_iff_left (hbelow console)

theorem exitCode_eq (rows : List Row) :
    exitCode rows = if rows.countP Row.isFailed = 0 then 0 else 1 := by
  by_cases hzero : rows.countP Row.isFailed = 0
  · have hany : rows.any Row.isFailed = false := by simpa [List.countP_eq_zero] using hzero
    rw [exitCode, hany, if_pos hzero, if_neg Bool.false_ne_true]
  · have hany : rows.any Row.isFailed = true := by simpa [List.countP_eq_zero] using hzero
    rw [exitCode, hany, if_neg hzero, if_pos rfl]

theorem runAmid_of_readArguments {arguments : List String} {verbose : Bool} {request : Request}
    (h : readArguments arguments = ⟨verbose, request⟩) (turns : Nat → Turn) (env : Environment)
    (host : Host) :
    runAmid turns arguments env host =
      ({ (meetAmid turns request env host).1 with
        output := heading verbose ++ (meetAmid turns request env host).1.output },
        (meetAmid turns request env host).2) := by
  unfold runAmid heading
  rw [h]
  cases verbose <;> rfl

theorem run_of_readArguments {arguments : List String} {verbose : Bool} {request : Request}
    (h : readArguments arguments = ⟨verbose, request⟩) (env : Environment) (host : Host) :
    run arguments env host =
      ({ (meet request env host).1 with
        output := heading verbose ++ (meet request env host).1.output },
        (meet request env host).2) :=
  runAmid_of_readArguments h _ env host

/-- The command that deletes paths ends as the rows of its table say. -/
theorem runAmid_delete {arguments : List String} {verbose force dryRun : Bool}
    (h : readArguments arguments = ⟨verbose, .delete paths force dryRun⟩) (turns : Nat → Turn)
    (env : Environment) (host : Host) :
    runAmid turns arguments env host =
      (⟨exitCode (deletePathsAmid turns (strategyOf force) dryRun paths host).1, heading verbose ++
        report dryRun (deletePathsAmid turns (strategyOf force) dryRun paths host).1, none⟩,
        (deletePathsAmid turns (strategyOf force) dryRun paths host).2) :=
  runAmid_of_readArguments h turns env host

theorem run_delete {arguments : List String} {verbose force dryRun : Bool}
    (h : readArguments arguments = ⟨verbose, .delete paths force dryRun⟩) (env : Environment)
    (host : Host) :
    run arguments env host =
      (⟨exitCode (deletePaths (strategyOf force) dryRun paths host).1, heading verbose ++
        report dryRun (deletePaths (strategyOf force) dryRun paths host).1, none⟩,
        (deletePaths (strategyOf force) dryRun paths host).2) :=
  runAmid_delete h _ env host

def oneFileInside : Host where
  tree := (Tree.empty.put ["d"] .directory).put ["f", "d"] (.file .empty)
  cwd := []
  temporary := "/tmp"
  nextName := 1
  faults := []

/-- A path that looks like the end of a tag keeps the table from being shown. -/
example : (runOn .strict ["delete", "[/x]"] ⟨"/", none⟩ oneFileInside).1 =
    ⟨1, [], some (.markup "nothing to close")⟩ := rfl

end Command
end Reclaim
