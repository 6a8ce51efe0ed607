import Mathlib.Data.List.Chain
import Reclaim.Command.Run

/-!
What is seen of a command. If the console can show all of its output, the output is printed and the
command ends as it does by itself. Otherwise what stands before is printed, and the command ends with
exit code one and the complaint of the console. A console has no complaint about a text in which no
tag begins, nor about the tags that the commands put around such texts.
-/

namespace Reclaim

namespace Markup

theorem untaggedChars_iff (cs : List Char) :
    untaggedChars cs = true ↔ cs.IsChain fun a b => ¬(a = '[' ∧ beginsTag b = true) := by
  induction cs with
  | nil => simp [untaggedChars]
  | cons c rest ih =>
      rw [untaggedChars, Bool.and_eq_true, ih, List.isChain_cons]
      cases rest with
      | nil => simp
      | cons d rest => by_cases hbracket : c = '[' <;> simp [hbracket]

/-- Two texts without tags make up one, unless a bracket at the end of the first makes a tag of what
follows. -/
theorem untagged_append {text rest : String} (h : untagged text = true)
    (h' : untagged rest = true)
    (joint : (∀ c ∈ text.toList.getLast?, c ≠ '[') ∨ ∀ c ∈ rest.toList.head?, beginsTag c = false) :
    untagged (text ++ rest) = true := by
  unfold untagged at h h' ⊢
  rw [untaggedChars_iff] at h h' ⊢
  rw [String.toList_append]
  refine h.append h' fun a ha b hb hopens => ?_
  rcases joint with hlast | hfirst
  · exact hlast a ha hopens.1
  · simp [hfirst b hb] at hopens

theorem untagged_of_noBracket {text : String} (h : ∀ c ∈ text.toList, c ≠ '[') :
    untagged text = true := by
  rw [untagged, untaggedChars_iff]
  exact List.isChain_iff_forall_rel_of_append_cons_cons.mpr fun {a b l₁ l₂} hsplit hopens =>
    h a (hsplit ▸ by simp) hopens.1

theorem untagged_toString (n : Nat) : untagged (toString n) = true := by
  refine untagged_of_noBracket fun c hc hbracket => ?_
  rw [Nat.toString_eq_repr, Nat.toList_repr] at hc
  have hdigit := Nat.isDigit_of_mem_toDigits (by decide) (by decide) hc
  rw [hbracket] at hdigit
  exact absurd hdigit (by decide)

end Markup

namespace Console

variable {console : Console} {output : Output} {outputs : List Output} {text : String}

/-- A console can show all of some output. -/
def Takes (console : Console) (outputs : List Output) : Prop :=
  ∀ output ∈ outputs, console.refusal? output = none

theorem refusal?_eq_none :
    console.refusal? output = none ↔ ∀ text ∈ output.texts, console.complaint? text = none :=
  List.findSome?_eq_none_iff

theorem takes_cons :
    console.Takes (output :: outputs) ↔ console.refusal? output = none ∧ console.Takes outputs :=
  List.forall_mem_cons

theorem takes_append {more : List Output} :
    console.Takes (outputs ++ more) ↔ console.Takes outputs ∧ console.Takes more := by
  simp [Takes, or_imp, forall_and]

theorem takes_singleton : console.Takes [output] ↔ console.refusal? output = none := by
  simp [Takes]

theorem display_of_takes (h : console.Takes outputs) : console.display outputs = (outputs, none) := by
  induction outputs with
  | nil => rfl
  | cons output rest ih =>
      obtain ⟨hfirst, hrest⟩ := takes_cons.mp h
      simp only [display, hfirst, ih hrest]

theorem display_of_not_takes (h : ¬console.Takes outputs) :
    ∃ complaint printed, printed <+: outputs ∧
      console.display outputs = (printed, some complaint) := by
  induction outputs with
  | nil => exact absurd (List.forall_mem_nil _) h
  | cons output rest ih =>
      cases hfirst : console.refusal? output with
      | some complaint => exact ⟨complaint, [], List.nil_prefix, by simp only [display, hfirst]⟩
      | none =>
          obtain ⟨complaint, printed, hprinted, hdisplay⟩ :=
            ih fun hrest => h (takes_cons.mpr ⟨hfirst, hrest⟩)
          refine ⟨complaint, output :: printed, (List.cons_prefix_cons).mpr ⟨rfl, hprinted⟩, ?_⟩
          simp only [display, hfirst, hdisplay]

theorem refusal?_line (console : Console) (stream : Stream) (text : String) :
    console.refusal? (.line stream text) = console.complaint? text := by
  simp [refusal?, Output.texts]

theorem complaint?_tagged (console : Console) (tag inner : String) (named : Bool)
    (nonempty : tag ≠ "") (letters : ∀ c ∈ tag.toList, c.isLower)
    (h : Markup.untagged inner = true) :
    console.complaint? (Markup.wrap "" tag inner "" named) = none :=
  console.wrapped "" tag inner "" named nofun nonempty letters h (by decide)

theorem refusal?_info (h : Markup.untagged text = true) :
    console.refusal? (.info text) = none := by
  have htagged := console.complaint?_tagged "info" text false (by decide) (by simp) h
  simpa [Output.info, refusal?_line, Markup.wrap] using htagged

theorem refusal?_success (h : Markup.untagged text = true) :
    console.refusal? (.success text) = none := by
  have htagged := console.complaint?_tagged "success" text false (by decide) (by simp) h
  simpa [Output.success, refusal?_line, Markup.wrap] using htagged

theorem refusal?_error (h : Markup.untagged text = true) :
    console.refusal? (.error text) = none := by
  have hafter : Markup.untagged (" " ++ text) = true :=
    Markup.untagged_append (by decide) h (.inl (by simp))
  have hwrapped := console.wrapped "" "error" "Error:" (" " ++ text) false nofun (by decide)
    (by simp) (by decide) hafter
  rw [Output.error, refusal?_line]
  simpa [Markup.wrap, ← String.append_assoc] using hwrapped

theorem refusal?_table {stream : Stream} {table : Table}
    (title : console.complaint? table.title = none)
    (headers : ∀ column ∈ table.columns, console.complaint? column.header = none)
    (cells : ∀ row ∈ table.rows, ∀ cell ∈ row, console.complaint? cell = none) :
    console.refusal? (.table stream table) = none := by
  rw [refusal?_eq_none]
  intro text htext
  simp only [Output.texts, List.mem_cons, List.mem_append, List.mem_map, List.mem_flatten] at htext
  rcases htext with (rfl | ⟨column, hcolumn, rfl⟩) | ⟨row, hrow, hcell⟩
  · exact title
  · exact headers column hcolumn
  · exact cells row hrow text hcell

end Console

namespace Command

/-- What is seen of a command that ends in some way by itself. -/
structure Prints (console : Console) (ending : Ending) (display : Display) : Prop where
  taken : console.Takes ending.output →
    display = ⟨ending.exit, ending.output, ending.escaped.map .config⟩
  refused : ¬console.Takes ending.output → ∃ complaint printed,
    printed <+: ending.output ∧ display = ⟨1, printed, some (.markup complaint)⟩

theorem prints_display (console : Console) (ending : Ending) :
    Prints console ending (ending.display console) where
  taken h := by simp only [Ending.display, Console.display_of_takes h]
  refused h := by
    obtain ⟨complaint, printed, hprinted, hdisplay⟩ := Console.display_of_not_takes h
    exact ⟨complaint, printed, hprinted, by simp only [Ending.display, hdisplay]⟩

theorem prints_run (console : Console) (arguments : List String) (env : Environment)
    (host : Host) :
    Prints console (run arguments env host).1 (runOn console arguments env host).1 :=
  prints_display console _

theorem runOn_left (console : Console) (arguments : List String) (env : Environment)
    (host : Host) : (runOn console arguments env host).2 = (run arguments env host).2 := rfl

namespace Prints

variable {console : Console} {ending : Ending} {display : Display}

/-- A command is seen to succeed if it does and all of its output can be shown. -/
theorem exit_eq_zero (h : Prints console ending display) :
    display.exit = 0 ↔ ending.exit = 0 ∧ console.Takes ending.output := by
  by_cases htakes : console.Takes ending.output
  · rw [h.taken htakes]
    exact (and_iff_left htakes).symm
  · obtain ⟨complaint, printed, -, rfl⟩ := h.refused htakes
    exact ⟨nofun, fun hboth => absurd hboth.2 htakes⟩

theorem exit_eq_one (h : Prints console ending display) (failed : ending.exit = 1) :
    display.exit = 1 := by
  by_cases htakes : console.Takes ending.output
  · rw [h.taken htakes, failed]
  · obtain ⟨complaint, printed, -, rfl⟩ := h.refused htakes
    rfl

end Prints

end Command

/-- A console that complains of a text that begins with the end of a tag. -/
def Console.strict : Console where
  complaint? text :=
    if text.toList.take 2 = ['[', '/'] then some "nothing to close" else none
  plain text h := by
    refine if_neg fun hends => ?_
    have hchars := List.take_append_drop 2 text.toList
    rw [hends] at hchars
    rw [Markup.untagged, ← hchars] at h
    simp [Markup.untaggedChars, Markup.beginsTag] at h
  wrapped before tag inner after named blank nonempty letters _ _ := by
    refine if_neg fun hends => ?_
    rw [Markup.wrap, String.append_assoc, String.append_assoc, String.append_assoc] at hends
    cases hbefore : before.toList with
    | cons c rest =>
        rw [String.toList_append, hbefore, List.cons_append] at hends
        exact (blank c (by simp [hbefore])).1 (by simpa using (List.cons.inj hends).1)
    | nil =>
        cases htag : tag.toList with
        | nil => exact nonempty (String.toList_injective htag)
        | cons c rest =>
            have hlower := letters c (by simp [htag])
            simp [String.toList_append, hbefore, htag] at hends
            subst hends
            exact absurd hlower (by decide)

end Reclaim
