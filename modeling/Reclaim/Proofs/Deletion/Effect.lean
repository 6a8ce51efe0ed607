import Reclaim.Proofs.Host.Calls
import Reclaim.Tracking.Record

/-!
What a deletion leads to. Whichever calls are made and whichever of them fail, there are five ways
for it to end, and all that is known of a deletion is read off these. If it goes well the path leads
to no entry any more, neither to one that exists nor to a link; if not, the entry that the path names
is as it was. In both cases entries are only removed, and only where the path names them or, if the
deletion is recursive, inside a directory that it names.
-/

namespace Reclaim

open Files

namespace Host

/-- All that the deletion of a path can come to: whether it goes well, and the host that it leaves. -/
inductive Deletion (host : Host) (recursive : Bool) (text : String) : Bool → Host → Prop
  -- there is nothing to delete
  | absent (vacant : host.Vacant text) : Deletion host recursive text true host
  -- it fails before anything has gone
  | refused : Deletion host recursive text false host
  -- the entry that the path names goes alone: a file, a link or a bare directory
  | single {named : Place} (takes : host.tree.Takes host.cwd text named)
      (bare : host.tree.get? named = some .directory → host.tree.isBare named = true) :
      Deletion host recursive text true (host.withTree (host.tree.erase named))
  -- the directory that the path names goes with all that lies inside
  | whole {named : Place} (isRecursive : recursive = true)
      (takes : host.tree.Takes host.cwd text named)
      (directory : host.tree.get? named = some .directory) :
      Deletion host recursive text true
        (host.withTree ((host.tree.eraseBelow named).erase named))
  -- the directory stays, but what lies inside goes, some of it or all
  | midway {named : Place} {test : Place → Bool} (isRecursive : recursive = true)
      (leads : host.tree.resolve host.cwd false text = .ok named)
      (directory : host.tree.reached named = .directory)
      (inside : ∀ q, test q = false → named.below q = true) :
      Deletion host recursive text false (host.withTree (host.tree.keep test))

/-- Exactly the entry that a path names has gone: a file, a link or a directory in which nothing
lies. -/
def LosesNamed (host : Host) (text : String) (host' : Host) : Prop :=
  ∃ named entry, host.tree.resolve host.cwd false text = .ok named ∧
    host.tree.get? named = some entry ∧
    (entry = .directory → host.tree.isBare named = true) ∧
    host' = host.withTree (host.tree.erase named)

section calls

variable {host host' : Host} {p : Path} {text : String} {recursive : Bool}

theorem unlink_deletion (hok : host.unlink text = .ok host') :
    host.Deletion recursive text true host' := by
  obtain ⟨tree, hstep, rfl⟩ := change_eq_ok (guarded_eq_ok hok)
  obtain ⟨named, takes, hno, rfl⟩ := Tree.unlink_eq_ok hstep
  exact .single takes fun hdirectory => absurd hdirectory hno

theorem rmdir_deletion (hok : host.rmdir text = .ok host') :
    host.Deletion recursive text true host' := by
  obtain ⟨tree, hstep, rfl⟩ := change_eq_ok (guarded_eq_ok hok)
  obtain ⟨named, takes, -, hbare, rfl⟩ := Tree.rmdir_eq_ok hstep
  exact .single takes fun _ => hbare

theorem settle_deletion {change : Except Failure Host}
    (h : ∀ host', change = .ok host' → host.Deletion recursive text true host') :
    host.Deletion recursive text (host.settle change).1.isOk (host.settle change).2 := by
  cases change with
  | ok host' => exact h host' rfl
  | error failure => exact .refused

theorem removeAll_deletion (h : p.IsRead) {named : Place}
    (leads : host.tree.resolve host.cwd false p.text = .ok named)
    (directory : host.tree.reached named = .directory) :
    host.Deletion true p.text (host.removeAll p.text).1.isOk (host.removeAll p.text).2 := by
  unfold removeAll
  split
  · exact .refused
  · split
    · exact .refused
    · split
      · rename_i breakdown _
        simp only [breakOff, leads, directory]
        refine .midway rfl leads directory fun q hq => ?_
        simp only [Bool.or_eq_false_iff, Bool.not_eq_false'] at hq
        exact hq.1
      · split
        · rename_i tree hrun
          obtain ⟨taken, takes, hget, rfl⟩ := Tree.removeAll_takes h hrun
          exact .whole rfl takes hget
        · rename_i reason tree hrun
          rw [Tree.removeAll_of_leads leads directory] at hrun
          split at hrun
          · cases hrun
            exact .midway rfl leads directory fun q hq => by simpa using hq
          · cases hrun

theorem remove_deletion (host : Host) (removal : Removal) (h : p.IsRead) :
    host.Deletion (removal = .recursive) p.text (host.remove removal p.text).1.isOk
      (host.remove removal p.text).2 := by
  unfold remove
  split
  · exact .refused
  · split
    · exact .refused
    · exact settle_deletion fun _ hok => rmdir_deletion hok
    · exact settle_deletion fun _ hok => unlink_deletion hok
  · split
    · exact .refused
    · rename_i hreal
      obtain ⟨-, named, leads, directory⟩ := leads_of_isRealDirectory hreal
      exact removeAll_deletion h leads directory
    · exact settle_deletion fun _ hok => unlink_deletion hok

theorem removeAll_ne_embeddedNul (hnul : holdsNul text = false) :
    (host.removeAll text).1 ≠ .error .embeddedNul := by
  unfold removeAll breakOff
  split
  · nofun
  · rw [hnul, if_neg Bool.false_ne_true]
    split
    · split
      · nofun
      · split <;> nofun
    · split <;> nofun

theorem removeAll_conditions (host : Host) (text : String) :
    (host.removeAll text).2.conditions = host.conditions := by
  unfold removeAll breakOff
  split
  · rfl
  · split
    · rfl
    · split
      · split
        · rfl
        · split <;> rfl
      · split <;> rfl

theorem settle_conditions {change : Except Failure Host}
    (h : ∀ host', change = .ok host' → host'.conditions = host.conditions) :
    (host.settle change).2.conditions = host.conditions := by
  cases change with
  | ok host' => exact h host' rfl
  | error failure => rfl

theorem settle_ne_embeddedNul {change : Except Failure Host}
    (h : change ≠ .error .embeddedNul) : (host.settle change).1 ≠ .error .embeddedNul := by
  cases change with
  | ok host' => nofun
  | error failure =>
      rintro hfailure
      exact h (congrArg _ (Except.error.inj hfailure))

/-- The removal of an entry by a path without a NUL fails with an error of the system, if it
does. -/
theorem remove_ne_embeddedNul (hnul : holdsNul text = false) (removal : Removal) :
    (host.remove removal text).1 ≠ .error .embeddedNul := by
  have hunlink : (host.settle (host.unlink text)).1 ≠ .error .embeddedNul :=
    settle_ne_embeddedNul (guarded_ne_embeddedNul (change_ne_embeddedNul hnul))
  unfold remove
  split
  · nofun
  · split
    · nofun
    · exact settle_ne_embeddedNul (guarded_ne_embeddedNul (change_ne_embeddedNul hnul))
    · exact hunlink
  · split
    · nofun
    · exact removeAll_ne_embeddedNul hnul
    · exact hunlink

theorem remove_conditions (host : Host) (removal : Removal) (text : String) :
    (host.remove removal text).2.conditions = host.conditions := by
  have hunlink : (host.settle (host.unlink text)).2.conditions = host.conditions :=
    settle_conditions fun _ hok => conditions_of_change (guarded_eq_ok hok)
  unfold remove
  split
  · rfl
  · split
    · rfl
    · exact settle_conditions fun _ hok => conditions_of_change (guarded_eq_ok hok)
    · exact hunlink
  · split
    · rfl
    · exact removeAll_conditions host text
    · exact hunlink

end calls

namespace Deletion

variable {host host' : Host} {p : Path} {text : String} {recursive succeeded : Bool}
  {place : Place}

theorem within (d : host.Deletion recursive text succeeded host') :
    host'.tree.Within host.tree := by
  cases d with
  | absent vacant => exact .refl _
  | refused => exact .refl _
  | single takes bare => exact Tree.within_keep _ _
  | whole isRecursive takes directory =>
      exact (Tree.within_keep _ _).trans (Tree.within_keep _ _)
  | midway isRecursive leads directory inside => exact Tree.within_keep _ _

theorem lost (d : host.Deletion recursive text succeeded host') :
    Tree.Lost host'.cwd host.cwd := by
  cases d with
  | absent vacant => exact .nothing _
  | refused => exact .nothing _
  | _ => exact Tree.lost_detach _ _

/-- Entries go only where the path reaches. -/
theorem loses (d : host.Deletion recursive p.text succeeded host') (h : p.IsRead) :
    host.tree.Loses host'.tree (host.tree.Reaches host.cwd p.text recursive) := by
  cases d with
  | absent vacant => exact .refl _ _
  | refused => exact .refl _ _
  | single takes bare =>
      exact Tree.loses_erase takes.ne_root ⟨_, Tree.resolve_of_takes h takes, .inl rfl⟩
  | @whole named isRecursive takes directory =>
      have leads := Tree.resolve_of_takes h takes
      have hreached : host.tree.reached named = .directory := by rw [Tree.reached, directory]; rfl
      refine .trans (Tree.loses_keep _ fun q _ hq => ⟨_, leads, .inr ⟨isRecursive, hreached, ?_⟩⟩)
        (Tree.loses_erase takes.ne_root ⟨_, leads, .inl rfl⟩)
      simpa using hq
  | midway isRecursive leads directory inside =>
      exact Tree.loses_keep _ fun q _ hq =>
        ⟨_, leads, .inr ⟨isRecursive, directory, inside q hq⟩⟩

/-- A deletion that goes well, by a path that leads to an entry, has taken this entry by its name. -/
theorem taken (d : host.Deletion recursive p.text true host') (h : p.IsRead)
    (hnul : holdsNul p.text = false)
    (leads : host.tree.resolve host.cwd false p.text = .ok place) :
    host.tree.Takes host.cwd p.text place ∧ host'.tree.get? place = none := by
  cases d with
  | absent vacant => exact absurd (inspect_of_resolve hnul leads) (vacant false _)
  | single takes bare =>
      obtain rfl := Except.ok.inj (leads.symm.trans (Tree.resolve_of_takes h takes))
      exact ⟨takes, (Tree.get?_erase _ takes.ne_root _).trans (if_pos rfl)⟩
  | whole isRecursive takes directory =>
      obtain rfl := Except.ok.inj (leads.symm.trans (Tree.resolve_of_takes h takes))
      exact ⟨takes, (Tree.get?_erase _ takes.ne_root _).trans (if_pos rfl)⟩

/-- After a deletion that goes well the path leads nowhere. -/
theorem vacant (d : host.Deletion recursive p.text true host') (h : p.IsRead) :
    host'.Vacant p.text := by
  have hgone : ∀ {named}, host.tree.Takes host.cwd p.text named →
      host'.tree.get? named = none → host'.Vacant p.text := fun takes hnone =>
    vacant_of_resolve (Tree.resolve_of_gone h takes d.within hnone d.lost)
  cases d with
  | absent vacant => exact vacant
  | single takes bare =>
      exact hgone takes ((Tree.get?_erase _ takes.ne_root _).trans (if_pos rfl))
  | whole isRecursive takes directory =>
      exact hgone takes ((Tree.get?_erase _ takes.ne_root _).trans (if_pos rfl))

/-- A deletion that fails leaves the entry that the path names. -/
theorem kept (d : host.Deletion recursive text false host')
    (leads : host.tree.resolve host.cwd false text = .ok place) :
    host'.tree.get? place = host.tree.get? place := by
  cases d with
  | refused => rfl
  | @midway named test isRecursive hleads directory inside =>
      obtain rfl : place = named := Except.ok.inj (leads.symm.trans hleads)
      by_cases hroot : place = []
      · subst hroot
        rfl
      · have htest : test place = true := by
          by_contra hno
          have hbelow := inside place (by simpa using hno)
          simp [Place.below] at hbelow
        exact (Tree.get?_keep _ _ hroot).trans (if_pos htest)

/-- A deletion that is not recursive removes nothing, or exactly the entry that the path names. -/
theorem of_not_recursive (d : host.Deletion false p.text succeeded host') (h : p.IsRead) :
    host' = host ∨ succeeded = true ∧ host.LosesNamed p.text host' := by
  cases d with
  | absent vacant => exact .inl rfl
  | refused => exact .inl rfl
  | @single named takes bare =>
      obtain ⟨entry, hentry⟩ := Option.ne_none_iff_exists'.mp takes.get?_ne_none
      refine .inr ⟨rfl, named, entry, Tree.resolve_of_takes h takes, hentry, ?_, rfl⟩
      rintro rfl
      exact bare hentry
  | whole isRecursive takes directory => cases isRecursive
  | midway isRecursive leads directory inside => cases isRecursive

end Deletion
end Host

theorem isOk_iff {ε : Type} {answer : Except ε Unit} : answer.isOk = true ↔ answer = .ok () := by
  cases answer <;> simp [Except.isOk, Except.toBool]

namespace Strategy

/-- The way in which the deletion of a path ends. -/
theorem delete_deletion (strategy : Strategy) (shown : String) {p : Path} (h : p.IsRead)
    (host : Host) :
    host.Deletion (strategy.removal = .recursive) p.text (strategy.delete shown p host).1.isOk
      (strategy.delete shown p host).2 := by
  unfold delete
  cases habsent : host.absent p.text with
  | error error => exact .refused
  | ok absent =>
      cases absent with
      | true => exact .absent (Host.vacant_of_absent habsent)
      | false =>
          have d := host.remove_deletion strategy.removal h
          cases hremove : host.remove strategy.removal p.text with
          | mk result host' =>
              rw [hremove] at d
              cases result <;> exact d

/-- A deletion fails with the reason of an error of the system: a path with a NUL, which the system
does not see, counts as absent. -/
theorem delete_eq_error {strategy : Strategy} {shown : String} {p : Path} {host : Host}
    {error : DeletionError} (h : (strategy.delete shown p host).1 = .error error) :
    ∃ e : OsError, error = ⟨shown, e.reason, .os e⟩ := by
  unfold delete at h
  cases habsent : host.absent p.text with
  | error e =>
      rw [habsent] at h
      exact ⟨e, (Except.error.inj h).symm⟩
  | ok absent =>
      cases absent with
      | true =>
          rw [habsent] at h
          cases h
      | false =>
          obtain ⟨hnul, -⟩ := Host.leads_of_absent habsent
          have hno : (host.remove strategy.removal p.text).1 ≠ .error .embeddedNul :=
            Host.remove_ne_embeddedNul hnul strategy.removal
          rw [habsent] at h
          cases hremove : host.remove strategy.removal p.text with
          | mk result host' =>
              simp only [hremove] at h hno
              cases result with
              | ok _ => cases h
              | error failure =>
                  cases failure with
                  | os e => exact ⟨e, (Except.error.inj h).symm⟩
                  | embeddedNul => exact absurd rfl hno

@[simp] theorem delete_conditions (strategy : Strategy) (shown : String) (p : Path) (host : Host) :
    (strategy.delete shown p host).2.conditions = host.conditions := by
  have hremove := host.remove_conditions strategy.removal p.text
  unfold delete
  split
  · rfl
  · rfl
  · split <;> rename_i h <;> rw [h] at hremove <;> exact hremove

theorem delete_of_absent {strategy : Strategy} {shown : String} {p : Path} {host : Host}
    (h : host.absent p.text = .ok true) : strategy.delete shown p host = (.ok (), host) := by
  simp only [delete, h]

theorem delete_of_uninspected {strategy : Strategy} {shown : String} {p : Path} {host : Host}
    {e : OsError} (h : host.absent p.text = .error e) :
    strategy.delete shown p host = (.error ⟨shown, e.reason, .os e⟩, host) := by
  simp only [delete, h, Failure.reason]

/-- Unless a path is found to lead to an entry, nothing is changed. -/
theorem delete_of_not_found {strategy : Strategy} {shown : String} {p : Path} {host : Host}
    (h : host.absent p.text ≠ .ok false) : (strategy.delete shown p host).2 = host := by
  cases habsent : host.absent p.text with
  | error e => rw [delete_of_uninspected habsent]
  | ok absent =>
      cases absent with
      | true => rw [delete_of_absent habsent]
      | false => exact absurd habsent h

theorem delete_of_vacant {strategy : Strategy} {shown : String} {p : Path} {host : Host}
    (vacant : host.Vacant p.text) : (strategy.delete shown p host).2 = host := by
  refine delete_of_not_found fun hfound => ?_
  obtain ⟨hnul, place, leads⟩ := Host.leads_of_absent hfound
  exact vacant false _ (Host.inspect_of_resolve hnul leads)

/-- Asked for quietly, a deletion that is attempted does the same, and answers whether it has gone
well. -/
theorem deleteQuietly_eq {strategy : Strategy} (attempts : strategy.quiet = .attempts)
    (shown : String) (p : Path) (host : Host) :
    (strategy.deleteQuietly shown (some p) host).host = (strategy.delete shown p host).2 ∧
      (strategy.deleteQuietly shown (some p) host).outcome =
        some (if (strategy.delete shown p host).1.isOk then .deleted else .refused) := by
  unfold deleteQuietly
  rw [attempts]
  cases hdelete : strategy.delete shown p host with
  | mk answer left =>
      cases answer with
      | ok _ => simp only [hdelete]; exact ⟨trivial, rfl⟩
      | error error => simp only [hdelete]; exact ⟨trivial, rfl⟩

end Strategy

namespace Record

variable {record : Record}

/-- The way in which a strategy ends that attempts the deletion: it always does, and answers that
the path is deleted exactly if the deletion has gone well, and else that it is not. -/
theorem deleteQuietly_deletion (attempts : record.strategy.quiet = .attempts) (host : Host) :
    ∃ outcome, (record.deleteQuietly host).outcome = some outcome ∧
      outcome.isFailure = decide (outcome ≠ .deleted) ∧
      host.Deletion (record.strategy.removal = .recursive) (Path.ofText record.path).text
        (outcome = .deleted) (record.deleteQuietly host).host := by
  have d := record.strategy.delete_deletion record.path (Path.isRead_ofText record.path) host
  obtain ⟨hhost, houtcome⟩ := Strategy.deleteQuietly_eq attempts record.path (.ofText record.path)
    host
  have hanswer : ∀ ok : Bool, decide ((if ok then Outcome.deleted else .refused) = .deleted) = ok := by
    decide
  have htold : ∀ ok : Bool, (if ok then Outcome.deleted else .refused).isFailure =
      decide ((if ok then Outcome.deleted else .refused) ≠ .deleted) := by
    decide
  refine ⟨_, houtcome, htold _, ?_⟩
  rw [deleteQuietly, hhost, hanswer]
  exact d

/-- A strategy that attempts the deletion answers that the path is deleted only if the path leads
nowhere, both as it was given and as it was read. -/
theorem deleteQuietly_removed (attempts : record.strategy.quiet = .attempts) (host : Host) :
    ∃ outcome, (record.deleteQuietly host).outcome = some outcome ∧
      outcome.isFailure = decide (outcome ≠ .deleted) ∧
      host.tree.Loses (record.deleteQuietly host).host.tree
        (host.tree.Reaches host.cwd (Path.ofText record.path).text
          (record.strategy.removal = .recursive)) ∧
      (outcome = .deleted → (record.deleteQuietly host).host.Vacant record.path) := by
  obtain ⟨outcome, ho, htold, d⟩ := deleteQuietly_deletion attempts host
  have hread := Path.isRead_ofText record.path
  refine ⟨outcome, ho, htold, d.loses hread, ?_⟩
  rintro rfl
  exact (d.vacant hread).of_ofText

theorem deleteQuietly_gone (attempts : record.strategy.quiet = .attempts) {host : Host}
    {place : Place} (hnul : Host.holdsNul record.path = false)
    (hresolve : host.tree.resolve host.cwd false (Path.ofText record.path).text = .ok place)
    (deleted : (record.deleteQuietly host).outcome = some .deleted) :
    (record.deleteQuietly host).host.tree.get? place = none := by
  obtain ⟨outcome, ho, -, d⟩ := deleteQuietly_deletion attempts host
  obtain rfl : outcome = .deleted := Option.some.inj (ho.symm.trans deleted)
  exact (d.taken (Path.isRead_ofText record.path) (Host.holdsNul_ofText hnul) hresolve).2

end Record
end Reclaim
