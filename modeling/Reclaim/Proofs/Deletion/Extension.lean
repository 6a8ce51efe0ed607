import Reclaim.Proofs.Deletion.Effect
import Reclaim.Proofs.Host.Directories

/-!
Forced deletion beside normal deletion. They take a directory away by different calls: the one
refuses a directory in which something lies, the other first takes what lies inside. Where nothing
lies inside the two calls come to the same, the errors included. So forced deletion differs from
normal deletion only on a full directory, which normal deletion always refuses; but if faults are
met, each of the two calls may meet one of its own.
-/

namespace Reclaim

open Files

theorem Files.Tree.eraseBelow_of_isBare {tree : Tree} {place : Place}
    (bare : tree.isBare place = true) : tree.eraseBelow place = tree := by
  have hall : tree.entries.filter (fun e => !place.below e.1) = tree.entries :=
    List.filter_eq_self.mpr (List.all_eq_true.mp bare)
  unfold eraseBelow keep
  simp only [hall]

namespace Host

variable {host : Host} {p : Path} {text : String}

/-- A path names a directory, and not a link to one, in which something lies. -/
def NamesFull (host : Host) (text : String) : Prop :=
  holdsNul text = false ∧ ∃ place, host.tree.resolve host.cwd false text = .ok place ∧
    host.tree.reached place = .directory ∧ host.tree.isBare place = false

/-- The same has come of two changes of a host, but that the first, if both have failed, has looked
anew which directories on the way to the current one are there. -/
def Alike {ε : Type} (host : Host) (first second : Except ε Unit × Host) : Prop :=
  first = second ∨ ∃ e, first = (.error e, host.withTree host.tree) ∧ second = (.error e, host)

namespace Alike

variable {ε : Type} {first second : Except ε Unit × Host}

theorem answer_eq (h : host.Alike first second) : first.1 = second.1 := by
  rcases h with rfl | ⟨e, rfl, rfl⟩ <;> rfl

theorem tree_eq (h : host.Alike first second) : first.2.tree = second.2.tree := by
  rcases h with rfl | ⟨e, rfl, rfl⟩ <;> rfl

theorem eq_of_settled (h : host.Alike first second) (settled : host.Settled) : first = second := by
  rcases h with hsame | ⟨e, hfirst, hsecond⟩
  · exact hsame
  · rw [hfirst, hsecond, settled.withTree_eq fun _ hdirectory => hdirectory]

theorem eq_of_ok (h : host.Alike first second) (hok : second.1 = .ok ()) : first = second := by
  rcases h with hsame | ⟨e, -, hsecond⟩
  · exact hsame
  · rw [hsecond] at hok
    cases hok

end Alike

/-- The removal of a whole directory in which nothing lies is the removal of the one entry. -/
theorem removeAll_alike (faultless : host.Faultless) (notFull : ¬host.NamesFull text)
    (directory : host.isRealDirectory text = .ok true) :
    host.Alike (host.removeAll text) (host.settle (host.rmdir text)) := by
  obtain ⟨hnul, place, leads, hreached⟩ := leads_of_isRealDirectory directory
  have bare : host.tree.isBare place = true := by
    by_contra hno
    exact notFull ⟨hnul, place, leads, hreached, by simpa using hno⟩
  have hremoveAll := Tree.removeAll_of_leads leads hreached
  rw [Tree.eraseBelow_of_isBare bare] at hremoveAll
  unfold removeAll rmdir guarded rmdirNow change
  rw [faultless.fault?, faultless.fault?, faultless.breakdown?]
  simp only [hnul, hremoveAll, List.any_cons, List.any_nil, Bool.or_self, Bool.false_eq_true,
    if_false]
  cases host.tree.rmdir host.cwd text with
  | ok tree => exact .inl rfl
  | error reason => exact .inr ⟨_, rfl, rfl⟩

theorem remove_alike (faultless : host.Faultless) (notFull : ¬host.NamesFull text) :
    host.Alike (host.remove .recursive text) (host.remove .single text) := by
  cases hreal : host.isRealDirectory text with
  | error e => simp only [remove, hreal]; exact .inl rfl
  | ok directory =>
      cases directory with
      | true => simpa only [remove, hreal] using removeAll_alike faultless notFull hreal
      | false => simp only [remove, hreal]; exact .inl rfl

theorem Deletion.not_of_namesFull {host' : Host} (d : host.Deletion false p.text true host')
    (h : p.IsRead) : ¬host.NamesFull p.text := by
  rintro ⟨hnul, place, leads, directory, full⟩
  cases d with
  | absent vacant => exact vacant false _ (inspect_of_resolve hnul leads)
  | @single named takes bare =>
      obtain rfl : place = named :=
        Except.ok.inj (leads.symm.trans (Tree.resolve_of_takes h takes))
      obtain ⟨entry, hentry⟩ := Option.ne_none_iff_exists'.mp takes.get?_ne_none
      rw [Tree.reached, hentry] at directory
      obtain rfl : entry = .directory := directory
      rw [bare hentry] at full
      cases full
  | whole isRecursive takes directory => cases isRecursive

end Host

namespace Strategy

variable {host : Host}

theorem delete_alike (faultless : host.Faultless) (shown : String) {path : Path}
    (notFull : ¬host.NamesFull path.text) :
    host.Alike (force.delete shown path host) (normal.delete shown path host) := by
  unfold delete
  cases host.absent path.text with
  | error e => exact .inl rfl
  | ok absent =>
      cases absent with
      | true => exact .inl rfl
      | false =>
          simp only [Builtin.strategy]
          rcases Host.remove_alike faultless notFull with hsame | ⟨failure, hforce, hnormal⟩
          · exact .inl (by rw [hsame])
          · exact .inr ⟨_, by rw [hforce], by rw [hnormal]⟩

/-- What the two deletions of a path come to, each with its answer and the host that it leaves. -/
structure Extends (host : Host) (text : String) (forced plain : Except DeletionError Unit × Host) :
    Prop where
  -- unless the path names a full directory, both return, or both fail with the same error
  answers : ¬host.NamesFull text → forced.1 = plain.1
  -- they then leave the same files
  files : ¬host.NamesFull text → forced.2.tree = plain.2.tree
  -- all else is the same as well, if the current directory was known as it is
  hosts : ¬host.NamesFull text → host.Settled → forced.2 = plain.2
  -- where the normal deletion goes well, so does the forced one, and has done the same
  succeeds : plain.1 = .ok () → forced = plain
  -- on a full directory the normal deletion fails
  refuses : host.NamesFull text → plain.1 ≠ .ok ()
  -- it then has changed nothing
  keeps : host.NamesFull text → plain.2 = host

/-- Where no faults are met, forced deletion does what normal deletion does, except on a full
directory; this normal deletion refuses. -/
theorem force_extends_normal (faultless : host.Faultless) (shown text : String) :
    Extends host (Path.ofText text).text (force.delete shown (.ofText text) host)
      (normal.delete shown (.ofText text) host) := by
  have hread := Path.isRead_ofText text
  have d : host.Deletion false (Path.ofText text).text _ _ :=
    normal.delete_deletion shown hread host
  have refuses (full : host.NamesFull (Path.ofText text).text) :
      (normal.delete shown (.ofText text) host).1 ≠ .ok () := by
    intro hok
    rw [hok] at d
    exact d.not_of_namesFull hread full
  have alike (notFull : ¬host.NamesFull (Path.ofText text).text) :
      host.Alike (force.delete shown (.ofText text) host) (normal.delete shown (.ofText text) host) :=
    delete_alike faultless shown notFull
  exact {
    answers := fun notFull => (alike notFull).answer_eq
    files := fun notFull => (alike notFull).tree_eq
    hosts := fun notFull settled => congrArg Prod.snd ((alike notFull).eq_of_settled settled)
    succeeds := fun hok => (alike fun full => refuses full hok).eq_of_ok hok
    refuses := refuses
    keeps := by
      intro full
      rcases d.of_not_recursive hread with hsame | ⟨hok, -⟩
      · exact hsame
      · exact absurd (isOk_iff.mp hok) (refuses full) }

def fullAndBare : Host where
  tree :=
    ((Tree.empty.put ["full"] .directory).put ["f", "full"] (.file .empty)).put ["bare"] .directory
  cwd := []
  temporary := "/tmp"
  nextName := 1
  faults := []

/-- Only the forced deletion takes the full directory; both take the other one. -/
theorem force_extends_normal_fullAndBare :
    fullAndBare.Faultless ∧ fullAndBare.NamesFull "/full" ∧ ¬fullAndBare.NamesFull "/bare" ∧
      (normal.delete "/full" (.ofText "/full") fullAndBare).2 = fullAndBare ∧
      (normal.delete "/full" (.ofText "/full") fullAndBare).1 ≠ .ok () ∧
      (force.delete "/full" (.ofText "/full") fullAndBare).1 = .ok () ∧
      force.delete "/bare" (.ofText "/bare") fullAndBare =
        normal.delete "/bare" (.ofText "/bare") fullAndBare ∧
      (normal.delete "/bare" (.ofText "/bare") fullAndBare).1 = .ok () := by
  have faultless : fullAndBare.Faultless := ⟨rfl, rfl⟩
  have full : fullAndBare.NamesFull "/full" := ⟨by decide, ["full"], rfl, rfl, rfl⟩
  have notFull : ¬fullAndBare.NamesFull "/bare" := by
    rintro ⟨-, place, leads, -, hfull⟩
    obtain rfl : ["bare"] = place := Except.ok.inj leads
    cases hfull
  have onFull := force_extends_normal faultless "/full" "/full"
  have onBare := force_extends_normal faultless "/bare" "/bare"
  have hok : (normal.delete "/bare" (.ofText "/bare") fullAndBare).1 = .ok () := rfl
  exact ⟨faultless, full, notFull, onFull.keeps full, onFull.refuses full, rfl,
    onBare.succeeds hok, hok⟩

end Strategy
end Reclaim
