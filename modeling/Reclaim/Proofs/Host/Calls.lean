import Reclaim.Deletion.Strategy
import Reclaim.Proofs.Files.Removal

/-!
What the calls on files tell. A walk fails because the path is known to lead nowhere or because a
name is too long; so the tests for a path answer, unless they meet a fault or such a name. What they
answer is true of the tree: a path counts as absent only if it leads to no entry, with a final link
followed or not, and as a directory only if it names one and not a link.
-/

namespace Reclaim

open Files

def Files.Reason.EndsWalk (reason : Reason) : Prop :=
  reason = .nameTooLong ∨ ∀ paths, (OsError.ofReason reason paths).isAbsence = true

namespace Files.Tree

variable {tree : Tree} {followLast : Bool} {reason : Reason}

theorem endsWalk_overlong (tree : Tree) (place : Place) : (tree.overlong place).EndsWalk := by
  unfold overlong
  split
  · exact .inr fun _ => rfl
  · exact .inl rfl

theorem endsWalk_of_scan {place : Place} {names : List String}
    (h : tree.scan followLast place names = .failed reason) : reason.EndsWalk := by
  induction names generalizing place with
  | nil => cases h
  | cons name rest ih =>
      rw [scan_cons] at h
      split at h
      · exact ih h
      · split at h
        · exact ih h
        · split at h
          · cases h
            exact endsWalk_overlong tree place
          · split at h
            · cases h
              exact .inr fun _ => rfl
            · exact ih h
            · split at h
              · cases h
              · cases h
                exact .inr fun _ => rfl
            · split at h <;> cases h

/-- A walk fails with the run up to the first link, or because there are too many links, or behind
the link. -/
theorem follow_eq_error {links : Nat} {place : Place} {names : List String}
    (h : tree.follow followLast links place names = .error reason) :
    tree.scan followLast place names = .failed reason ∨ reason = .tooManyLinks ∨
      ∃ directory target rest more, links = more + 1 ∧
        tree.follow followLast more (start directory target) (components target ++ rest) =
          .error reason := by
  cases hscan : tree.scan followLast place names with
  | arrived q => simp [follow_arrived hscan] at h
  | failed other =>
      rw [follow_failed hscan] at h
      exact .inl (congrArg Scan.failed (Except.error.inj h))
  | link directory target rest =>
      cases links with
      | zero =>
          rw [follow_link_zero hscan] at h
          exact .inr (.inl (Except.error.inj h).symm)
      | succ more =>
          rw [follow_link_succ hscan] at h
          exact .inr (.inr ⟨directory, target, rest, more, rfl, h⟩)

theorem endsWalk_of_follow {links : Nat} {place : Place} {names : List String}
    (h : tree.follow followLast links place names = .error reason) : reason.EndsWalk := by
  induction links generalizing place names with
  | zero =>
      rcases follow_eq_error h with hscan | rfl | ⟨_, _, _, _, hlinks, -⟩
      · exact endsWalk_of_scan hscan
      · exact .inr fun _ => rfl
      · cases hlinks
  | succ links ih =>
      rcases follow_eq_error h with hscan | rfl | ⟨_, _, _, more, hlinks, hmore⟩
      · exact endsWalk_of_scan hscan
      · exact .inr fun _ => rfl
      · obtain rfl : links = more := Nat.succ.inj hlinks
        exact ih hmore

theorem endsWalk_of_resolve {cwd : Place} {text : String}
    (h : tree.resolve cwd followLast text = .error reason) : reason.EndsWalk := by
  unfold resolve checkText at h
  split at h
  · rename_i htext
    split at htext
    · cases htext
      exact .inl (Except.error.inj h).symm
    · split at htext
      · cases htext
        cases h
        exact .inr fun _ => rfl
      · cases htext
  · exact endsWalk_of_follow h

/-- A path that names an entry which is no link leads there with links followed, too. -/
theorem resolve_true {cwd place : Place} {text : String}
    (h : tree.resolve cwd false text = .ok place)
    (hlink : ∀ target, tree.get? place ≠ some (.link target)) :
    tree.resolve cwd true text = .ok place := by
  obtain ⟨hcheck, hfollow⟩ := resolve_eq_ok.mp h
  exact resolve_eq_ok.mpr ⟨hcheck, follow_true hfollow hlink⟩

end Files.Tree

namespace Host

/-- No call meets a fault, and no removal of a whole directory breaks off. -/
structure Faultless (host : Host) : Prop where
  faults : host.faults = []
  breakdowns : host.breakdowns = []

theorem Faultless.fault? {host : Host} (faultless : host.Faultless) (call : Call)
    (text : String) : host.fault? call text = none := by
  simp [Host.fault?, faultless.faults]

theorem Faultless.breakdown? {host : Host} (faultless : host.Faultless) (text : String) :
    host.breakdown? text = none := by
  simp [Host.breakdown?, faultless.breakdowns]

/-- A path leads to no entry, whether or not a final link is followed. -/
def Vacant (host : Host) (text : String) : Prop :=
  ∀ followLast entry, host.inspect followLast text ≠ .ok entry

theorem inspect_eq_ok {host : Host} {followLast : Bool} {text : String} {entry : Entry}
    (h : host.inspect followLast text = .ok entry) :
    holdsNul text = false ∧ ∃ place, host.tree.resolve host.cwd followLast text = .ok place ∧
      entry = host.tree.reached place := by
  unfold inspect at h
  split at h
  · cases h
  · rename_i hnul
    split at h
    · rename_i place hresolve
      exact ⟨by simpa using hnul, place, hresolve, (Except.ok.inj h).symm⟩
    · cases h

theorem inspect_of_resolve {host : Host} {followLast : Bool} {text : String} {place : Place}
    (hnul : holdsNul text = false)
    (h : host.tree.resolve host.cwd followLast text = .ok place) :
    host.inspect followLast text = .ok (host.tree.reached place) := by
  rw [inspect, hnul, h]
  rfl

theorem vacant_of_resolve {host : Host} {text : String}
    (h : ∀ place, host.tree.resolve host.cwd false text ≠ .ok place) : host.Vacant text := by
  intro followLast entry hinspect
  obtain ⟨-, place, hresolve, -⟩ := inspect_eq_ok hinspect
  obtain ⟨place', hplace'⟩ := Tree.resolve_false hresolve
  exact h place' hplace'

theorem holdsNul_ofText {text : String} (h : holdsNul text = false) :
    holdsNul (Path.ofText text).text = false := by
  simp only [holdsNul, List.contains_eq_mem, decide_eq_false_iff_not] at h ⊢
  intro hmem
  rcases Path.mem_text_ofText hmem with hc | hc | hc
  · cases hc
  · cases hc
  · exact h hc

/-- A path that leads nowhere once it has been read led nowhere as it was given. -/
theorem Vacant.of_ofText {host : Host} {text : String}
    (h : host.Vacant (Path.ofText text).text) : host.Vacant text := by
  intro followLast entry hinspect
  obtain ⟨hnul, place, hresolve, -⟩ := inspect_eq_ok hinspect
  obtain ⟨place', hplace'⟩ := Tree.resolve_ofText hresolve
  exact h false _ (inspect_of_resolve (holdsNul_ofText hnul) hplace')

theorem query_eq_ok {host : Host} {call : Call} {followLast : Bool} {test : Entry → Bool}
    {text : String} {b : Bool} (h : host.query call followLast test text = .ok b) :
    answer test (host.inspect followLast text) = .ok b := by
  unfold query at h
  split at h
  · cases h
  · exact h

theorem query_eq_true {host : Host} {call : Call} {followLast : Bool} {test : Entry → Bool}
    {text : String} (h : host.query call followLast test text = .ok true) :
    holdsNul text = false ∧ ∃ place, host.tree.resolve host.cwd followLast text = .ok place ∧
      test (host.tree.reached place) = true := by
  have hanswer := query_eq_ok h
  cases hinspect : host.inspect followLast text with
  | ok entry =>
      obtain ⟨hnul, place, hresolve, rfl⟩ := inspect_eq_ok hinspect
      rw [hinspect] at hanswer
      exact ⟨hnul, place, hresolve, Except.ok.inj hanswer⟩
  | error failure =>
      rw [hinspect] at hanswer
      cases failure with
      | embeddedNul => cases hanswer
      | os error =>
          simp only [answer] at hanswer
          split at hanswer <;> cases hanswer

/-- A path that names an entry leads there with links followed, too, if it is found to be no
link. -/
theorem resolve_true_of_isLink {host : Host} {text : String} {place : Place}
    (hnul : holdsNul text = false)
    (hresolve : host.tree.resolve host.cwd false text = .ok place)
    (hlink : host.isLink text = .ok false) :
    host.tree.resolve host.cwd true text = .ok place := by
  have hanswer := query_eq_ok hlink
  rw [inspect_of_resolve hnul hresolve] at hanswer
  refine Tree.resolve_true hresolve fun target hget => ?_
  simp [answer, Tree.reached, hget] at hanswer

theorem absent_eq_true {host : Host} {text : String} :
    host.absent text = .ok true ↔
      host.present text = .ok false ∧ host.isLink text = .ok false := by
  unfold absent
  cases host.present text with
  | error error => simp
  | ok there =>
      cases there with
      | true => simp
      | false =>
          cases host.isLink text with
          | error error => simp
          | ok link => simp

/-- A path counts as absent only if it leads nowhere. -/
theorem vacant_of_absent {host : Host} {text : String} (h : host.absent text = .ok true) :
    host.Vacant text := by
  obtain ⟨hpresent, hlink⟩ := absent_eq_true.mp h
  intro followLast entry hinspect
  obtain ⟨hnul, place, hresolve, -⟩ := inspect_eq_ok hinspect
  obtain ⟨place', hplace'⟩ := Tree.resolve_false hresolve
  -- the path names an entry; it is no link, so it would have been found when links are followed
  have hanswer := query_eq_ok hpresent
  rw [inspect_of_resolve hnul (resolve_true_of_isLink hnul hplace' hlink)] at hanswer
  cases hanswer

/-- A path that does not count as absent leads to an entry. -/
theorem leads_of_absent {host : Host} {text : String} (h : host.absent text = .ok false) :
    holdsNul text = false ∧ ∃ place, host.tree.resolve host.cwd false text = .ok place := by
  unfold absent at h
  split at h
  · cases h
  · rename_i hpresent
    obtain ⟨hnul, place, hresolve, -⟩ := query_eq_true hpresent
    exact ⟨hnul, Tree.resolve_false hresolve⟩
  · split at h
    · cases h
    · rename_i link hlink
      obtain rfl : link = true := by simpa using h
      obtain ⟨hnul, place, hresolve, -⟩ := query_eq_true hlink
      exact ⟨hnul, place, hresolve⟩

theorem leads_of_isRealDirectory {host : Host} {text : String}
    (h : host.isRealDirectory text = .ok true) :
    holdsNul text = false ∧ ∃ place, host.tree.resolve host.cwd false text = .ok place ∧
      host.tree.reached place = .directory := by
  unfold isRealDirectory at h
  split at h
  · cases h
  · cases h
  · rename_i hdirectory
    split at h
    · cases h
    · rename_i link hlink
      obtain rfl : link = false := by simpa using h
      obtain ⟨hnul, place, hresolve, htest⟩ := query_eq_true hdirectory
      obtain ⟨place', hplace'⟩ := Tree.resolve_false hresolve
      obtain rfl : place = place' := Except.ok.inj
        (hresolve.symm.trans (resolve_true_of_isLink hnul hplace' hlink))
      refine ⟨hnul, place, hplace', ?_⟩
      cases hreached : host.tree.reached place with
      | directory => rfl
      | file content => simp [hreached] at htest
      | link target => simp [hreached] at htest

theorem change_eq_ok {host host' : Host} {paths : List String}
    {step : Tree → Place → Except Reason Tree} (h : host.change paths step = .ok host') :
    ∃ tree, step host.tree host.cwd = .ok tree ∧ host' = host.withTree tree := by
  unfold change at h
  split at h
  · cases h
  · split at h
    · rename_i tree hstep
      exact ⟨tree, hstep, (Except.ok.inj h).symm⟩
    · cases h

theorem conditions_of_change {host host' : Host} {paths : List String}
    {step : Tree → Place → Except Reason Tree} (h : host.change paths step = .ok host') :
    host'.conditions = host.conditions := by
  obtain ⟨tree, -, rfl⟩ := change_eq_ok h
  exact host.withTree_conditions tree

theorem guarded_eq_ok {α : Type} {host : Host} {call : Call} {text : String}
    {made : Except Failure α} {a : α} (h : host.guarded call text made = .ok a) :
    made = .ok a := by
  unfold guarded at h
  split at h
  · cases h
  · exact h

theorem guarded_ne_embeddedNul {α : Type} {host : Host} {call : Call} {text : String}
    {made : Except Failure α} (h : made ≠ .error .embeddedNul) :
    host.guarded call text made ≠ .error .embeddedNul := by
  unfold guarded
  split
  · nofun
  · exact h

/-- A change by a path without a NUL fails with an error of the system, if it does. -/
theorem change_ne_embeddedNul {host : Host} {text : String}
    {step : Tree → Place → Except Reason Tree} (hnul : holdsNul text = false) :
    host.change [text] step ≠ .error .embeddedNul := by
  simp only [change, List.any_cons, List.any_nil, hnul, Bool.or_self, Bool.false_eq_true,
    if_false]
  split <;> nofun

/-- The test for a path answers unless it meets a fault or a name that is too long. -/
theorem exists_present_iff {host : Host} {text : String} :
    (∃ there, host.present text = .ok there) ↔ host.fault? .presence text = none ∧
      (holdsNul text = false → host.tree.resolve host.cwd true text ≠ .error .nameTooLong) := by
  unfold present query inspect
  cases hfault : host.fault? .presence text with
  | some error => simp
  | none =>
      cases hnul : holdsNul text with
      | true => simp [answer]
      | false =>
          cases hresolve : host.tree.resolve host.cwd true text with
          | ok place => simp [answer]
          | error reason =>
              have hends := Tree.endsWalk_of_resolve hresolve
              by_cases hlong : reason = .nameTooLong
              · subst hlong
                simp [answer, OsError.isAbsence, OsError.ofReason, Reason.number]
              · simp [answer, hends.resolve_left hlong, hlong]

theorem noNul_of_present {host : Host} {text : String} (h : host.present text = .ok true) :
    holdsNul text = false :=
  (query_eq_true h).1

theorem unreached_of_present {host : Host} {text : String} (hnul : holdsNul text = false)
    (h : host.present text = .ok false) (place : Place) :
    host.tree.resolve host.cwd true text ≠ .ok place := by
  intro hresolve
  have hanswer := query_eq_ok h
  rw [inspect_of_resolve hnul hresolve] at hanswer
  cases hanswer

/-- A path that leads to an entry is found, unless the test for it meets a fault. -/
theorem present_of_resolve {host : Host} {text : String} {place : Place}
    (hfault : host.fault? .presence text = none) (hnul : holdsNul text = false)
    (h : host.tree.resolve host.cwd true text = .ok place) : host.present text = .ok true := by
  rw [present, query, hfault, inspect_of_resolve hnul h]
  rfl

end Host
end Reclaim
