import Reclaim.Proofs.Deletion.Effect

/-!
The deletion of one path by a builtin strategy, loudly or quietly, whatever faults are met. The
normal strategy removes the one entry that the path names, or nothing; the forced one may also remove
what lies inside a directory that the path names, and when it fails midway that is all it has
removed. What is reached only over a link, the one that the path names or one inside the directory
that goes, stays as it is.
-/

namespace Reclaim

open Files

/-- The places that are reached over a link: the one that its target leads to, and all inside. -/
def Files.Tree.Beyond (tree : Tree) (link place : Place) : Prop :=
  ∃ target q, tree.get? link = some (.link target) ∧
    tree.resolve link.tail true target = .ok q ∧ (place = q ∨ q.below place = true)

namespace Strategy

/-- What the deletion of a path by a builtin strategy comes to, which gives an answer, leaves a host
and, asked for quietly, runs as told. The path that the text is read as has no slash at its end. -/
structure DeletesOnlyNamed (builtin : Builtin) (shown text : String) (host : Host)
    (answer : Except DeletionError Unit) (left : Host) (quiet : QuietRun) : Prop where
  -- asked for quietly, the deletion does the same to the files
  alike : quiet.host = left
  -- it then says yes where it otherwise returns, and no where it otherwise fails with a deletion
  -- error, which has the path as shown and the reason of an error of the system
  answers : quiet.outcome = some .deleted ∧ answer = .ok () ∨
    quiet.outcome = some .refused ∧ ∃ e : OsError, answer = .error ⟨shown, e.reason, .os e⟩
  -- if it goes well the path leads to no entry and is no link, as given and as read
  vacant : answer = .ok () → left.Vacant text ∧ left.Vacant (Path.ofText text).text
  -- by a path that leads nowhere nothing is removed
  missing : host.Vacant (Path.ofText text).text → left = host
  -- a normal deletion that fails removes nothing
  unchanged : builtin = .normal → answer ≠ .ok () → left = host
  -- a normal deletion removes nothing, or goes well and removes exactly the entry that the path
  -- names: a file, a link or a directory in which nothing lies
  normal : builtin = .normal →
    left = host ∨ answer = .ok () ∧ host.LosesNamed (Path.ofText text).text left
  -- a forced deletion, whether or not it goes well, removes nothing but the entry that the path
  -- names and, if that is a directory and no link, entries inside
  forced : builtin = .force → ∀ place,
    left.tree.get? place = host.tree.get? place ∨
    left.tree.get? place = none ∧ ∃ named,
      host.tree.resolve host.cwd false (Path.ofText text).text = .ok named ∧
      (place = named ∨ host.tree.reached named = .directory ∧ named.below place = true)
  -- what is reached over a link, the one that the path names or one inside the directory that it
  -- names, is as it was, unless it also is that entry or inside that directory
  beyond : ∀ named link place,
    host.tree.resolve host.cwd false (Path.ofText text).text = .ok named →
    link = named ∨ named.below link = true → host.tree.Beyond link place →
    left.tree.get? place = host.tree.get? place ∨ place = named ∨
      host.tree.reached named = .directory ∧ named.below place = true

/-- Whatever faults are met, a builtin strategy removes nothing but what a path names, with what lies
inside if it is forced, and whether or not it is asked for quietly it does and tells the same. -/
theorem deletes_only_what_is_named (builtin : Builtin) (shown text : String) (host : Host) :
    DeletesOnlyNamed builtin shown text host
      (builtin.strategy.delete shown (.ofText text) host).1
      (builtin.strategy.delete shown (.ofText text) host).2
      (builtin.strategy.deleteQuietly shown (some (.ofText text)) host) := by
  have hread := Path.isRead_ofText text
  have hattempts : builtin.strategy.quiet = .attempts := by cases builtin <;> rfl
  have d := builtin.strategy.delete_deletion shown hread host
  obtain ⟨hhost, houtcome⟩ := deleteQuietly_eq hattempts shown (.ofText text) host
  have hreaches := d.loses hread
  have hnormal : builtin = .normal →
      (builtin.strategy.delete shown (.ofText text) host).2 = host ∨
        (builtin.strategy.delete shown (.ofText text) host).1 = .ok () ∧
          host.LosesNamed (Path.ofText text).text
            (builtin.strategy.delete shown (.ofText text) host).2 := by
    rintro rfl
    exact (Host.Deletion.of_not_recursive d hread).imp_right (And.imp_left isOk_iff.mp)
  exact {
    alike := hhost
    answers := by
      rw [houtcome]
      cases hanswer : (builtin.strategy.delete shown (.ofText text) host).1 with
      | ok _ => exact .inl ⟨rfl, rfl⟩
      | error error =>
          obtain ⟨e, rfl⟩ := delete_eq_error hanswer
          exact .inr ⟨rfl, e, rfl⟩
    vacant := by
      intro hok
      rw [hok] at d
      exact ⟨(d.vacant hread).of_ofText, d.vacant hread⟩
    missing := delete_of_vacant
    unchanged := by
      intro hbuiltin hno
      rcases hnormal hbuiltin with hsame | ⟨hok, -⟩
      · exact hsame
      · exact absurd hok hno
    normal := hnormal
    forced := by
      rintro rfl place
      rcases hreaches place with hkept | ⟨hgone, named, leads, hplace⟩
      · exact .inl hkept
      · exact .inr ⟨hgone, named, leads, hplace.imp_right And.right⟩
    beyond := by
      intro named link place leads hlink hbeyond
      rcases hreaches place with hkept | ⟨-, named', leads', hplace⟩
      · exact .inl hkept
      · obtain rfl : named = named' := Except.ok.inj (leads.symm.trans leads')
        exact .inr (hplace.imp_right And.right) }

end Strategy
end Reclaim
