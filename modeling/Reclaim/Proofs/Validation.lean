import Mathlib.Data.List.Perm.Subperm
import Reclaim.Proofs.Basic
import Reclaim.Validation

/-!
Tables whose keys are given once, and the issues that a check finds in one. A check reports every
declared key that offends once, in the order of the declaration, and then every key that is not
declared once, in the order of the table.
-/

namespace Reclaim

namespace Fields

def Distinct (fields : Fields) : Prop :=
  (fields.map (·.1)).Nodup

instance (fields : Fields) : Decidable fields.Distinct :=
  inferInstanceAs (Decidable (fields.map (·.1)).Nodup)

theorem get?_eq_some_iff {fields : Fields} (h : fields.Distinct) {key : String}
    {value : Option String} : fields.get? key = some value ↔ (key, value) ∈ fields :=
  find?_key_eq_some_iff h

theorem get?_eq_none_iff {fields : Fields} {key : String} :
    fields.get? key = none ↔ ∀ value, (key, value) ∉ fields :=
  find?_key_eq_none_iff.trans (by simp)

/-- A key with a value that does not fit. -/
def Offends (fits : String → Option String → Prop) (fields : Fields) (key : String) : Prop :=
  ∃ value, (key, value) ∈ fields ∧ ¬fits key value

theorem fields_unknown (fields : Fields) (declared : List String) :
    (fields.unknown declared).map (·.field) =
      ((fields.map (·.1)).filter (· ∉ declared)).map some := by
  simp only [unknown, List.map_map, List.filter_map, Function.comp_def]

end Fields

inductive Blames (offends : String → Prop) : List String → List Issue → Prop
  | done : Blames offends [] []
  | fits {key : String} {keys : List String} {issues : List Issue} (fit : ¬offends key)
      (rest : Blames offends keys issues) : Blames offends (key :: keys) issues
  | blamed {key : String} {keys : List String} {issues : List Issue} (offence : offends key)
      (complaint : Complaint) (rest : Blames offends keys issues) :
      Blames offends (key :: keys) (⟨some key, complaint⟩ :: issues)

/-- The issues of a table: those of its declared keys, and then one for each other key. -/
def Reports (fits : String → Option String → Prop) (declared : List String) (fields : Fields)
    (issues : List Issue) : Prop :=
  ∃ blamed, Blames (fields.Offends fits) declared blamed ∧
    issues = blamed ++ fields.unknown declared

section Blames

variable {offends : String → Prop} {keys : List String} {issues : List Issue}

theorem Blames.sublist (h : Blames offends keys issues) :
    (issues.map (·.field)).Sublist (keys.map some) := by
  induction h with
  | done => exact .slnil
  | fits fit rest ih => exact ih.cons _
  | blamed offence complaint rest ih => exact ih.cons_cons _

theorem Blames.mem_iff (h : Blames offends keys issues) {field : Option String} :
    field ∈ issues.map (·.field) ↔ ∃ key ∈ keys, offends key ∧ field = some key := by
  induction h with
  | done => simp
  | fits fit rest ih => simp [ih, fit]
  | blamed offence complaint rest ih => simp [ih, offence]

end Blames

section Reports

variable {fits : String → Option String → Prop} {declared : List String} {fields : Fields}
  {issues : List Issue}

/-- A check of one key adds its issue if it looks at the value and the value does not fit. -/
theorem Blames.read {α : Type} {result : Except Issue α} {key : String} {keys : List String}
    (distinct : fields.Distinct) (absent : fields.get? key = none → ∃ a, result = .ok a)
    (fit : ∀ value, fields.get? key = some value → fits key value → ∃ a, result = .ok a)
    (offence : ∀ value, fields.get? key = some value → ¬fits key value →
      ∃ complaint, result = .error ⟨some key, complaint⟩)
    (rest : Blames (fields.Offends fits) keys issues) :
    Blames (fields.Offends fits) (key :: keys) (issueOf result ++ issues) := by
  by_cases h : fields.Offends fits key
  · obtain ⟨value, hmem, hno⟩ := id h
    obtain ⟨complaint, rfl⟩ := offence value ((Fields.get?_eq_some_iff distinct).mpr hmem) hno
    exact .blamed h complaint rest
  · obtain ⟨a, rfl⟩ : ∃ a, result = .ok a := by
      cases hget : fields.get? key with
      | none => exact absent hget
      | some value =>
          have hmem := (Fields.get?_eq_some_iff distinct).mp hget
          exact fit value hget (not_not.mp fun hno => h ⟨value, hmem, hno⟩)
    exact .fits h rest

theorem Reports.nodup (h : Reports fits declared fields issues) (declaredOnce : declared.Nodup)
    (distinct : fields.Distinct) : (issues.map (·.field)).Nodup := by
  obtain ⟨blamed, hblames, rfl⟩ := h
  rw [List.map_append, Fields.fields_unknown]
  have hinj : Function.Injective (some : String → Option String) :=
    fun _ _ => Option.some.inj
  refine List.Nodup.append (hblames.sublist.nodup (declaredOnce.map hinj))
    ((distinct.filter _).map hinj) ?_
  intro field hblamed hunknown
  obtain ⟨key, hkey, -, rfl⟩ := hblames.mem_iff.mp hblamed
  obtain ⟨other, hother, heq⟩ := List.mem_map.mp hunknown
  obtain rfl := Option.some.inj heq
  exact absurd hkey (by simpa using (List.mem_filter.mp hother).2)

/-- Where only declared keys fit, the keys that are reported are those that offend. -/
theorem Reports.mem_iff (h : Reports fits declared fields issues)
    (known : ∀ key value, fits key value → key ∈ declared) {field : Option String} :
    field ∈ issues.map (·.field) ↔ ∃ key, fields.Offends fits key ∧ field = some key := by
  obtain ⟨blamed, hblames, rfl⟩ := h
  simp only [List.map_append, List.mem_append, hblames.mem_iff, Fields.fields_unknown,
    List.mem_map, List.mem_filter, decide_eq_true_eq]
  constructor
  · rintro (⟨key, -, hoffends, rfl⟩ | ⟨_, ⟨⟨⟨key, value⟩, hmem, rfl⟩, hno⟩, rfl⟩)
    · exact ⟨key, hoffends, rfl⟩
    · exact ⟨key, ⟨value, hmem, fun hfit => hno (known key value hfit)⟩, rfl⟩
  · rintro ⟨key, hoffends, rfl⟩
    by_cases hkey : key ∈ declared
    · exact .inl ⟨key, hkey, hoffends, rfl⟩
    · obtain ⟨value, hmem, -⟩ := hoffends
      exact .inr ⟨key, ⟨⟨(key, value), hmem, rfl⟩, hkey⟩, rfl⟩

theorem Reports.eq_nil_iff (h : Reports fits declared fields issues)
    (known : ∀ key value, fits key value → key ∈ declared) :
    issues = [] ↔ ∀ key value, (key, value) ∈ fields → fits key value := by
  constructor
  · rintro rfl key value hmem
    by_contra hno
    have hreported := (h.mem_iff known).mpr ⟨key, ⟨value, hmem, hno⟩, rfl⟩
    simp at hreported
  · intro hfit
    rw [List.eq_nil_iff_forall_not_mem]
    intro issue hissue
    obtain ⟨key, ⟨value, hmem, hno⟩, -⟩ :=
      (h.mem_iff known).mp (List.mem_map_of_mem (f := (·.field)) hissue)
    exact hno (hfit key value hmem)

end Reports

end Reclaim
