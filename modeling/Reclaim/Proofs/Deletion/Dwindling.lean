import Reclaim.Proofs.Deletion.Effect

/-!
What deletions one after another leave of a host. Entries only go, and the names of directories on
the way to the current one are only lost. A walk over what is left either ends as it did before or
comes upon what has gone and ends there, so no path comes to lead anywhere that led nowhere.

A path that could not be inspected can become one that leads nowhere, though. If a link was not to be
followed because of a name that is too long, and the directory in which this name was to be looked
up has gone, then the link is a dead one like any other.
-/

namespace Reclaim

open Files

namespace Host

variable {host host₁ host₂ : Host} {text : String}

/-- A host on which some entries have gone, and else all is as it was. -/
structure Dwindles (host host' : Host) : Prop where
  within : host'.tree.Within host.tree
  lost : Tree.Lost host'.cwd host.cwd
  faults : host'.faults = host.faults
  breakdowns : host'.breakdowns = host.breakdowns

namespace Dwindles

theorem refl (host : Host) : host.Dwindles host :=
  ⟨.refl _, .nothing _, rfl, rfl⟩

theorem trans (h : host.Dwindles host₁) (h' : host₁.Dwindles host₂) : host.Dwindles host₂ where
  within := h'.within.trans h.within
  lost := h'.lost.trans h.lost
  faults := h'.faults.trans h.faults
  breakdowns := h'.breakdowns.trans h.breakdowns

theorem faultless (d : host.Dwindles host₁) (faultless : host.Faultless) : host₁.Faultless :=
  ⟨d.faults.trans faultless.faults, d.breakdowns.trans faultless.breakdowns⟩

theorem fault? (d : host.Dwindles host₁) (call : Call) (text : String) :
    host₁.fault? call text = host.fault? call text := by
  rw [Host.fault?, Host.fault?, d.faults]

theorem resolve (d : host.Dwindles host₁) (followLast : Bool) (text : String) :
    host₁.tree.resolve host₁.cwd followLast text = .error .missing ∨
      (∃ place' place, host₁.tree.resolve host₁.cwd followLast text = .ok place' ∧
        host.tree.resolve host.cwd followLast text = .ok place ∧
        (place' = place ∨ "" ∈ place')) ∨
      host₁.tree.resolve host₁.cwd followLast text =
        host.tree.resolve host.cwd followLast text := by
  unfold Tree.resolve
  cases Tree.checkText text with
  | error reason => exact .inr (.inr rfl)
  | ok _ =>
      have hstart := Tree.start_lost d.lost text
      have hwithin := Tree.follow_within d.within followLast maxLinks
        (Tree.start host.cwd text) (components text)
      rcases Tree.follow_lost host₁.tree followLast maxLinks hstart (components text) with
        hmissing | ⟨place', place, hplace', hplace, hlost⟩ | heq
      · exact .inl hmissing
      · rcases hwithin with hmissing | hsame
        · rw [hmissing] at hplace
          cases hplace
        · exact .inr (.inl ⟨place', place, hplace', hsame ▸ hplace, hlost.eq_or_mem⟩)
      · rw [heq]
        exact hwithin.imp_right .inr

theorem leads (d : host.Dwindles host₁) {followLast : Bool} {place' : Place}
    (h : host₁.tree.resolve host₁.cwd followLast text = .ok place') :
    ∃ place, host.tree.resolve host.cwd followLast text = .ok place ∧
      (place' = place ∨ "" ∈ place') := by
  rcases d.resolve followLast text with hmissing | ⟨q', q, hq', hq, hsame⟩ | heq
  · rw [hmissing] at h
    cases h
  · obtain rfl : q' = place' := Except.ok.inj (hq'.symm.trans h)
    exact ⟨q, hq, hsame⟩
  · exact ⟨place', heq ▸ h, .inl rfl⟩

/-- Where a test answers no because a path leads nowhere, it does so for good. -/
theorem query_eq_false (d : host.Dwindles host₁) (vacant : host.Vacant text) {call : Call}
    {followLast : Bool} {test : Entry → Bool}
    (h : host.query call followLast test text = .ok false) :
    host₁.query call followLast test text = .ok false := by
  unfold query inspect at h ⊢
  rw [d.fault?]
  cases hfault : host.fault? call text with
  | some error =>
      rw [hfault] at h
      cases h
  | none =>
      rw [hfault] at h
      cases hnul : holdsNul text with
      | true => rfl
      | false =>
          rw [hnul] at h
          cases hresolve : host.tree.resolve host.cwd followLast text with
          | ok place => exact absurd (inspect_of_resolve hnul hresolve) (vacant followLast _)
          | error reason =>
              rw [hresolve] at h
              rcases d.resolve followLast text with hmissing | ⟨-, place, -, hplace, -⟩ | heq
              · rw [hmissing]
                rfl
              · rw [hplace] at hresolve
                cases hresolve
              · rw [heq, hresolve]
                exact h

/-- A path that was absent stays absent. -/
theorem absent (d : host.Dwindles host₁) (h : host.absent text = .ok true) :
    host₁.absent text = .ok true := by
  have vacant := vacant_of_absent h
  obtain ⟨hpresent, hlink⟩ := absent_eq_true.mp h
  exact absent_eq_true.mpr ⟨d.query_eq_false vacant hpresent, d.query_eq_false vacant hlink⟩

end Dwindles

/-- A path that is found leads to an entry, or is a link that leads nowhere. -/
theorem found_of_absent (h : host.absent text = .ok false) :
    (∃ place, host.tree.resolve host.cwd true text = .ok place) ∨
      host.present text = .ok false ∧ ∃ place target,
        host.tree.resolve host.cwd false text = .ok place ∧
          host.tree.get? place = some (.link target) := by
  unfold absent at h
  split at h
  · cases h
  · rename_i hpresent
    obtain ⟨-, place, hplace, -⟩ := query_eq_true hpresent
    exact .inl ⟨place, hplace⟩
  · rename_i hpresent
    split at h
    · cases h
    · rename_i link hlink
      obtain rfl : link = true := by simpa using h
      obtain ⟨-, place, hplace, htest⟩ := query_eq_true hlink
      refine .inr ⟨hpresent, place, ?_⟩
      cases hget : host.tree.get? place with
      | none => simp [Tree.reached, hget] at htest
      | some entry =>
          cases entry with
          | link target => exact ⟨target, hplace, rfl⟩
          | _ => simp [Tree.reached, hget] at htest

/-- A path names a link that could not be followed at first, because of a name that is too long, and
that leads nowhere later on. -/
def Stranded (host later : Host) (text : String) : Prop :=
  ∃ place target, host.tree.resolve host.cwd false text = .ok place ∧
    host.tree.get? place = some (.link target) ∧
    host.tree.resolve host.cwd true text = .error .nameTooLong ∧
    later.tree.resolve later.cwd true text = .error .missing

/-- Where a path names an entry but cannot be inspected, although no faults are met, a name is too
long for a link to be followed. -/
theorem Faultless.nameTooLong (faultless : host.Faultless) {e : OsError} {place : Place}
    (h : host.absent text = .error e) (hnul : holdsNul text = false)
    (leads : host.tree.resolve host.cwd false text = .ok place) :
    host.tree.resolve host.cwd true text = .error .nameTooLong := by
  have hlink : ∃ link, host.isLink text = .ok link := by
    unfold isLink query
    rw [faultless.fault?, inspect_of_resolve hnul leads]
    exact ⟨_, rfl⟩
  have hpresent : ¬∃ there, host.present text = .ok there := by
    rintro ⟨there, hthere⟩
    obtain ⟨link, hlink⟩ := hlink
    unfold absent at h
    rw [hthere, hlink] at h
    cases there <;> cases h
  rw [exists_present_iff] at hpresent
  by_contra hno
  exact hpresent ⟨faultless.fault? _ _, fun _ => hno⟩

/-- A path that is found on what is left of a host would have been found before, unless it is a link
that could not be followed and now leads nowhere. -/
theorem Dwindles.found (d : host.Dwindles host₁) (faultless : host.Faultless)
    (h : host₁.absent text = .ok false) :
    host.absent text = .ok false ∨ host.Stranded host₁ text := by
  cases habsent : host.absent text with
  | ok absent =>
      cases absent with
      | true =>
          rw [d.absent habsent] at h
          cases h
      | false => exact .inl rfl
  | error e =>
      obtain ⟨hnul, place', hplace'⟩ := leads_of_absent h
      obtain ⟨place, hplace, hsame⟩ := d.leads hplace'
      have hlong := faultless.nameTooLong habsent hnul hplace
      rcases found_of_absent h with ⟨q', hq'⟩ | ⟨hpresent, q', target, hq', htarget⟩
      · obtain ⟨q, hq, -⟩ := d.leads hq'
        rw [hq] at hlong
        cases hlong
      obtain rfl : place' = q' := Except.ok.inj (hplace'.symm.trans hq')
      have hnamed : "" ∉ place' := by
        intro hmem
        rw [host₁.tree.get?_of_empty_mem hmem] at htarget
        cases htarget
      obtain rfl : place' = place := hsame.resolve_right hnamed
      refine .inr ⟨place', target, hplace, d.within _ _ htarget, hlong, ?_⟩
      rcases d.resolve true text with hmissing | ⟨-, q, -, hq, -⟩ | heq
      · exact hmissing
      · rw [hq] at hlong
        cases hlong
      · -- the name is still too long, so the path could not be inspected now either
        exact absurd (heq.trans hlong) ((exists_present_iff.mp ⟨false, hpresent⟩).2 hnul)

/-- A path that was found and leads nowhere any more counts as absent: its walk now ends where
something has gone, or in the way in which the test for it has ended before. -/
theorem Dwindles.absent_of_vacant (d : host.Dwindles host₁) (faultless : host.Faultless)
    (found : host.absent text = .ok false) (vacant : host₁.Vacant text) :
    host₁.absent text = .ok true := by
  obtain ⟨hnul, place, leads⟩ := leads_of_absent found
  have hno {followLast : Bool} {place : Place} :
      host₁.tree.resolve host₁.cwd followLast text ≠ .ok place := fun h =>
    vacant followLast _ (inspect_of_resolve hnul h)
  have faultless₁ : host₁.Faultless := d.faultless faultless
  refine absent_eq_true.mpr ⟨?_, ?_⟩
  · have hpresent : ∃ there, host.present text = .ok there := by
      unfold Host.absent at found
      split at found
      · cases found
      · exact ⟨_, ‹_›⟩
      · exact ⟨_, ‹_›⟩
    have hshort : host₁.tree.resolve host₁.cwd true text ≠ .error .nameTooLong := by
      rcases d.resolve true text with hmissing | ⟨_, _, hplace, -⟩ | heq
      · simp [hmissing]
      · exact absurd hplace hno
      · exact heq ▸ (exists_present_iff.mp hpresent).2 hnul
    obtain ⟨there, hthere⟩ := exists_present_iff.mpr ⟨faultless₁.fault? _ _, fun _ => hshort⟩
    cases there with
    | false => exact hthere
    | true =>
        obtain ⟨-, place, hplace, -⟩ := query_eq_true hthere
        exact absurd hplace hno
  · have hmissing : host₁.tree.resolve host₁.cwd false text = .error .missing := by
      rcases d.resolve false text with hmissing | ⟨_, _, hplace, -⟩ | heq
      · exact hmissing
      · exact absurd hplace hno
      · exact absurd (heq.trans leads) hno
    unfold isLink query inspect
    rw [faultless₁.fault?, hnul, hmissing]
    rfl

theorem Deletion.dwindles {recursive succeeded : Bool}
    (d : host.Deletion recursive text succeeded host₁) : host.Dwindles host₁ where
  within := d.within
  lost := d.lost
  faults := by cases d <;> rfl
  breakdowns := by cases d <;> rfl

end Host
end Reclaim
