import Mathlib.Data.List.Nodup

/-!
Results that are chained, and tables whose keys are given once.
-/

namespace Reclaim

theorem bind_eq_ok {ε α β : Type} {x : Except ε α} {f : α → Except ε β} {b : β}
    (h : (x >>= f) = .ok b) : ∃ a, x = .ok a ∧ f a = .ok b := by
  cases x with
  | error e => cases h
  | ok a => exact ⟨a, rfl, h⟩

section Keys

variable {α : Type} {entries : List (String × α)} {key : String} {value : α}

theorem find?_key_eq_some_iff (h : (entries.map (·.1)).Nodup) :
    (entries.find? (·.1 = key)).map (·.2) = some value ↔ (key, value) ∈ entries := by
  induction entries with
  | nil => simp
  | cons e entries ih =>
      obtain ⟨hnew, hrest⟩ := List.nodup_cons.mp h
      by_cases hkey : e.1 = key
      · subst hkey
        have hno : (e.1, value) ∉ entries := fun hmem =>
          hnew (List.mem_map.mpr ⟨_, hmem, rfl⟩)
        simp [hno, Prod.ext_iff, eq_comm]
      · have hne : (key, value) ≠ e := by
          rintro rfl
          exact hkey rfl
        simp [hkey, hne, ih hrest]

theorem find?_key_eq_none_iff :
    (entries.find? (·.1 = key)).map (·.2) = none ↔ key ∉ entries.map (·.1) := by
  simp only [Option.map_eq_none_iff, List.find?_eq_none, decide_eq_true_eq, List.mem_map,
    not_exists, not_and]

theorem mem_of_find?_key (h : (entries.find? (·.1 = key)).map (·.2) = some value) :
    (key, value) ∈ entries := by
  obtain ⟨e, hfind, rfl⟩ := Option.map_eq_some_iff.mp h
  obtain rfl : e.1 = key := by simpa using List.find?_some hfind
  exact List.mem_of_find?_eq_some hfind

theorem nodup_keys_append (h : (entries.map (·.1)).Nodup) (hnew : key ∉ entries.map (·.1)) :
    ((entries ++ [(key, value)]).map (·.1)).Nodup := by
  rw [List.map_append]
  refine List.Nodup.append h (List.nodup_singleton key) ?_
  simpa using hnew

theorem keys_overwrite :
    (entries.map fun e => if e.1 = key then (key, value) else e).map (·.1) =
      entries.map (·.1) := by
  rw [List.map_map]
  refine List.map_congr_left fun e _ => ?_
  by_cases hkey : e.1 = key <;> simp [hkey]

end Keys

end Reclaim
