import Reclaim.Proofs.Course.Deletions
import Reclaim.Proofs.Files.Named

/-!
The step in which a worker brings the strategy of a record to its end, seen from one place. If the
path of the record leads there and nowhere else, then afterwards nothing is there or the path has
been noted as a failure, and whatever else is there stays.
-/

namespace Reclaim

open Files

structure Host.Names (host : Host) (text : String) (place : Place) : Prop where
  noNul : holdsNul text = false
  placed : host.tree.placeOf host.cwd text = .ok place

/-- The end of the strategy of a record is aimed at a place: the entry there goes or the path of the
record is noted as a failure, and nothing else is lost but, if the deletion is forced, what lies
inside. -/
def Work.DeletesAt (w : Work) (index : Nat) (record : Record) (place : Place) : Prop :=
  ∃ w' log t t', w.step index = some (w', log) ∧ w.system.tracker? index = some t ∧
    w'.system.tracker? index = some t' ∧
    (w'.host.tree.get? place = none ∨ t'.failures = t.failures ++ [record.path]) ∧
    w.host.tree.Loses w'.host.tree fun q =>
      q = place ∨ record.strategy = .force ∧ place.below q = true

/-- The strategy of a record comes to its end where the path of the record leads. -/
theorem Work.deletesAt {w : Work} {index : Nat} {record : Record} {place : Place}
    (hhand : w.inHand? index = some record)
    (builtin : record.strategy = .normal ∨ record.strategy = .force)
    (hnul : Host.holdsNul record.path = false)
    (aim : ∀ named,
      w.host.tree.resolve w.host.cwd false (Path.ofText record.path).text = .ok named ↔
        named = place ∧ w.host.tree.get? place ≠ none) :
    w.DeletesAt index record place := by
  obtain ⟨t, ht, hp⟩ := phase_of_inHand hhand
  have hattempts : record.strategy.quiet = .attempts := by
    rcases builtin with h | h <;> rw [h] <;> rfl
  have hforce : record.strategy.removal = .recursive → record.strategy = .force := by
    rcases builtin with h | h <;> rw [h] <;> decide
  obtain ⟨outcome, ho, htold, hloses, -⟩ := Record.deleteQuietly_removed hattempts w.host
  obtain ⟨c', -, ⟨log, hstep⟩, hhost, ht'⟩ :=
    Course.step_of_deleting (c := ⟨w.system, w.host, w.notes, [], [], [], []⟩) ht hp ho
  have hwhere : w.host.tree.Loses c'.host.tree fun q =>
      q = place ∨ record.strategy = .force ∧ place.below q = true := by
    intro q
    rw [hhost]
    rcases hloses q with hkept | ⟨hgone, named, hresolve, hreached⟩
    · exact .inl hkept
    · obtain ⟨rfl, -⟩ := (aim named).mp hresolve
      rcases hreached with hq | ⟨hrecursive, -, hbelow⟩
      · exact .inr ⟨hgone, .inl hq⟩
      · exact .inr ⟨hgone, .inr ⟨hforce (by simpa using hrecursive), hbelow⟩⟩
  refine ⟨c'.work, log, t, t.conclude record outcome, hstep, ht, ht', ?_, hwhere⟩
  by_cases hvacant : w.host.tree.get? place = none
  · -- nothing was there, and a deletion makes no entries
    rcases hwhere place with hkept | ⟨hgone, -⟩
    · exact .inl (hkept.trans hvacant)
    · exact .inl hgone
  · by_cases hdeleted : outcome = .deleted
    · have hresolve := (aim place).mpr ⟨rfl, hvacant⟩
      left
      show c'.host.tree.get? place = none
      rw [hhost]
      exact Record.deleteQuietly_gone hattempts hnul hresolve (hdeleted ▸ ho)
    · exact .inr (if_pos (htold.trans (decide_eq_true hdeleted)))

/-- A record whose path ends with a name and names a place is deleted there. -/
theorem Work.deletesAt_of_names {w : Work} {index : Nat} {record : Record} {place : Place}
    {before : List String} {name : String} (hhand : w.inHand? index = some record)
    (builtin : record.strategy = .normal ∨ record.strategy = .force)
    (hends : EndsWith record.path before name) (hnames : w.host.Names record.path place) :
    w.DeletesAt index record place :=
  deletesAt hhand builtin hnames.noNul fun _ => Tree.resolve_ofText_iff hends hnames.placed

def System.idle : System :=
  System.empty.addTracker (.new "worker" (some .normal))

end Reclaim
