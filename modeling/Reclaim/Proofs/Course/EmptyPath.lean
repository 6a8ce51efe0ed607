import Reclaim.Deletion.Quiet
import Reclaim.Proofs.Course.AllOrNothing
import Reclaim.Proofs.Tracking.Stored

/-!
Requests to delete an empty path. As a path the empty text is a dot and leads to the current
directory, which no removal takes away by that name: each request fails. The strategy that spares
what lies in a directory leaves everything in place; the other one has emptied the directory by the
time it fails. Tracking refuses the empty text, but an object that answers it is stored under the
name of the current directory, and its record is deleted there.
-/

namespace Reclaim

open Files

def Path.here : Path := ⟨.relative, []⟩

/-- Arguments that stand for an empty path. -/
inductive PathArgument.IsEmpty : PathArgument → Prop
  | text : IsEmpty (.text "")
  | pathLike : IsEmpty (.pathLike "")

theorem PathArgument.IsEmpty.toPath? {path : PathArgument} (h : path.IsEmpty) :
    path.toPath? = some .here := by
  cases h <;> rfl

namespace Files.Tree

variable (tree : Tree) (cwd : Place)

theorem resolve_here (followLast : Bool) :
    tree.resolve cwd followLast Path.here.text = .ok cwd := rfl

theorem rmdir_here : tree.rmdir cwd Path.here.text = .error .invalid := rfl

theorem unlink_here : tree.unlink cwd Path.here.text = .error .isDirectory := rfl

theorem removeAll_here :
    tree.removeAll cwd Path.here.text =
      match tree.reached cwd with
      | .directory => (.error .invalid, tree.eraseBelow cwd)
      | _ => (.error .notDirectory, tree) := rfl

end Files.Tree

namespace Host

variable {host host' : Host}

/-- The dot is met by no fault and no breakdown. -/
structure Undisturbed (host : Host) : Prop where
  fault : ∀ call, host.fault? call Path.here.text = none
  breakdown : host.breakdown? Path.here.text = none

theorem inspect_here (host : Host) (followLast : Bool) :
    host.inspect followLast Path.here.text = .ok (host.tree.reached host.cwd) :=
  inspect_of_resolve rfl (Tree.resolve_here ..)

theorem absent_here (host : Host) : host.absent Path.here.text ≠ .ok true := by
  intro h
  exact vacant_of_absent h false _ (host.inspect_here false)

theorem rmdir_here (host : Host) : ∃ failure, host.rmdir Path.here.text = .error failure := by
  unfold rmdir guarded
  split
  · exact ⟨_, rfl⟩
  · exact ⟨_, rfl⟩

theorem unlink_here (host : Host) : ∃ failure, host.unlink Path.here.text = .error failure := by
  unfold unlink guarded
  split
  · exact ⟨_, rfl⟩
  · exact ⟨_, rfl⟩

def EmptiedAtMost (host host' : Host) : Prop :=
  host.tree.Loses host'.tree fun q => host.cwd.below q = true

theorem EmptiedAtMost.refl (host : Host) : host.EmptiedAtMost host :=
  Tree.Loses.refl _ _

theorem emptied_keep {test : Place → Bool} (h : ∀ q, test q = false → host.cwd.below q = true) :
    host.EmptiedAtMost (host.withTree (host.tree.keep test)) :=
  Tree.loses_keep test fun q _ ht => h q ht

theorem breakOff_here (host : Host) (breakdown : Breakdown) :
    ∃ failure host', host.breakOff Path.here.text breakdown = (.error failure, host') ∧
      host.EmptiedAtMost host' := by
  simp only [breakOff, Tree.resolve_here]
  split
  · refine ⟨_, _, rfl, emptied_keep fun q hq => ?_⟩
    simp only [Bool.or_eq_false_iff, Bool.not_eq_false'] at hq
    exact hq.1
  · exact ⟨_, _, rfl, .refl host⟩

/-- The removal of the current directory by its dot fails when the directory has been emptied. -/
theorem removeAll_here (host : Host) :
    ∃ failure host', host.removeAll Path.here.text = (.error failure, host') ∧
      host.EmptiedAtMost host' := by
  unfold removeAll
  split
  · exact ⟨_, _, rfl, .refl host⟩
  · split
    · exact ⟨_, _, rfl, .refl host⟩
    · split
      · exact host.breakOff_here _
      · rw [Tree.removeAll_here]
        cases host.tree.reached host.cwd with
        | directory => exact ⟨_, _, rfl, emptied_keep fun q hq => by simpa using hq⟩
        | file content => exact ⟨_, _, rfl, .refl host⟩
        | link target => exact ⟨_, _, rfl, .refl host⟩

theorem remove_single_here (host : Host) :
    ∃ failure, host.remove .single Path.here.text = (.error failure, host) := by
  obtain ⟨failed, hrmdir⟩ := host.rmdir_here
  obtain ⟨refused, hunlink⟩ := host.unlink_here
  unfold remove
  split
  · contradiction
  · split
    · exact ⟨_, rfl⟩
    · exact ⟨failed, by rw [hrmdir]; rfl⟩
    · exact ⟨refused, by rw [hunlink]; rfl⟩
  · contradiction

theorem remove_recursive_here (host : Host) :
    ∃ failure host', host.remove .recursive Path.here.text = (.error failure, host') ∧
      host.EmptiedAtMost host' := by
  obtain ⟨refused, hunlink⟩ := host.unlink_here
  unfold remove
  split
  · contradiction
  · contradiction
  · split
    · exact ⟨_, _, rfl, .refl host⟩
    · exact host.removeAll_here
    · exact ⟨refused, host, by rw [hunlink]; rfl, .refl host⟩

/-- A forced removal by the dot that nothing disturbs empties the current directory. -/
theorem remove_recursive_undisturbed (h : host.Undisturbed)
    (hreached : host.tree.reached host.cwd = .directory) :
    host.remove .recursive Path.here.text =
      (.error (.os (.ofReason .invalid [Path.here.text])),
        host.withTree (host.tree.eraseBelow host.cwd)) := by
  have hreal : host.isRealDirectory Path.here.text = .ok true := by
    simp [isRealDirectory, isDirectory, isLink, query, h.fault, inspect_here, hreached, answer]
  have hnul : holdsNul Path.here.text = false := rfl
  simp only [remove, hreal, removeAll, h.fault, hnul, h.breakdown, Bool.false_eq_true, if_false,
    Tree.removeAll_here, hreached]

end Host

namespace Strategy

/-- What a deletion of the empty path comes to. -/
structure FailsOnEmpty (builtin : Builtin) (shown : String) (host : Host) : Prop where
  -- it fails, and at most what lies in the current directory goes
  fails : ∃ error host', builtin.strategy.delete shown .here host = (.error error, host') ∧
    host.EmptiedAtMost host'
  -- asked for quietly it does the same, and its answer is no
  quietly : (builtin.strategy.deleteQuietly shown (some .here) host).outcome = some .refused ∧
    (builtin.strategy.deleteQuietly shown (some .here) host).host =
      (builtin.strategy.delete shown .here host).2
  -- a normal deletion leaves everything in place
  normal : builtin = .normal → (builtin.strategy.delete shown .here host).2 = host
  -- a forced one empties the current directory, if nothing disturbs it
  forced : builtin = .force → host.Undisturbed → host.tree.reached host.cwd = .directory →
    (builtin.strategy.delete shown .here host).2 =
      host.withTree (host.tree.eraseBelow host.cwd)

variable {strategy : Strategy} {shown : String} {host host' : Host}

theorem delete_here (strategy : Strategy) (shown : String) {failure : Failure}
    (h : host.remove strategy.removal Path.here.text = (.error failure, host')) :
    ∃ error, strategy.delete shown .here host = (.error error, host) ∨
      strategy.delete shown .here host = (.error error, host') := by
  unfold delete
  cases habsent : host.absent Path.here.text with
  | error error => exact ⟨_, .inl rfl⟩
  | ok absent =>
      cases absent with
      | true => exact absurd habsent host.absent_here
      | false => exact ⟨_, .inr (by simp only [h]; rfl)⟩

theorem deleteQuietly_of_error {path : Path} {error : DeletionError}
    (attempts : strategy.quiet = .attempts)
    (h : strategy.delete shown path host = (.error error, host')) :
    strategy.deleteQuietly shown (some path) host =
      ⟨some .refused, host', none, [quietFailure shown error], [⟨strategy, shown, some path⟩]⟩ := by
  simp only [deleteQuietly, attempts, h]

/-- A forced deletion that nothing disturbs fails when the current directory has been emptied. -/
theorem delete_undisturbed (h : host.Undisturbed)
    (hreached : host.tree.reached host.cwd = .directory) :
    Strategy.force.delete shown .here host =
      (.error ⟨shown, "Invalid argument", .os (.ofReason .invalid [Path.here.text])⟩,
        host.withTree (host.tree.eraseBelow host.cwd)) := by
  have habsent : host.absent Path.here.text = .ok false := by
    simp [Host.absent, Host.present, Host.query, h.fault, Host.inspect_here, Host.answer]
  have hremove := Host.remove_recursive_undisturbed h hreached
  have hremoval : Strategy.force.removal = .recursive := rfl
  simp only [delete, habsent, hremoval, hremove]
  rfl

theorem failsOnEmpty (builtin : Builtin) (shown : String) (host : Host) :
    FailsOnEmpty builtin shown host := by
  have hattempts : builtin.strategy.quiet = .attempts := by cases builtin <;> rfl
  obtain ⟨error, host', hdelete, hemptied, hnormal, hforced⟩ : ∃ error host',
      builtin.strategy.delete shown .here host = (.error error, host') ∧
        host.EmptiedAtMost host' ∧ (builtin = .normal → host' = host) ∧
        (builtin = .force → host.Undisturbed → host.tree.reached host.cwd = .directory →
          host' = host.withTree (host.tree.eraseBelow host.cwd)) := by
    cases builtin with
    | normal =>
        obtain ⟨failure, hremove⟩ := host.remove_single_here
        obtain ⟨error, hdelete⟩ := delete_here .normal shown hremove
        exact ⟨error, host, hdelete.elim id id, .refl host, fun _ => rfl, nofun⟩
    | force =>
        obtain ⟨failure, host', hremove, hemptied⟩ := host.remove_recursive_here
        obtain ⟨error, hdelete | hdelete⟩ := delete_here .force shown hremove
        · refine ⟨error, host, hdelete, .refl host, nofun, fun _ undisturbed hreached => ?_⟩
          rw [delete_undisturbed undisturbed hreached] at hdelete
          exact (Prod.mk.inj hdelete).2.symm
        · refine ⟨error, host', hdelete, hemptied, nofun, fun _ undisturbed hreached => ?_⟩
          rw [delete_undisturbed undisturbed hreached] at hdelete
          exact (Prod.mk.inj hdelete).2.symm
  have hquiet := deleteQuietly_of_error hattempts hdelete
  exact {
    fails := ⟨error, host', hdelete, hemptied⟩
    quietly := by simp only [hquiet, hdelete, and_self]
    normal := fun h => by rw [hdelete, hnormal h]
    forced := fun h undisturbed hreached => by rw [hdelete, hforced h undisturbed hreached] }

end Strategy

namespace PathArgument

variable {host : Host}

/-- What is stored for an object that answers the empty text is the name of the current directory. -/
theorem stored_pathLike_empty (stands : host.tree.Stands host.cwd) :
    ∃ q : Path, (pathLike "").stored host.currentDirectory? = .ok q.text ∧
      q.IsCollapsed host.cwd :=
  stored_of_answers (.pathLike "") stands

theorem stored_pathLike_lost (h : host.currentDirectory? = none) :
    (pathLike "").stored host.currentDirectory? = .error .directoryLost := by
  rw [h]
  rfl

end PathArgument

theorem Host.noNul_empty : holdsNul "" = false := rfl

/-- A directory is named by its collapsed path as long as it stands and the path is short. -/
theorem Host.names_of_stands {host later : Host} {place : Place} {q : Path}
    (stands : host.tree.Stands place) (h : q.IsCollapsed place)
    (hshort : q.text.utf8ByteSize < pathSizeLimit) (hsub : host.tree.Within later.tree) :
    later.Names q.text place where
  noNul := PathArgument.noNul_of_isCollapsed stands noNul_empty h
  placed := by
    cases stands with
    | root => exact Tree.placeOf_root h
    | inside isName there around =>
        exact Tree.placeOf_of_isCollapsed h isName.size hshort (Nat.zero_le _)
          (around.leads.within hsub)

/-- A collapsed path that is stored for an object and names a place from now on. -/
theorem Host.storesPlace_of_isCollapsed {host : Host} {path : PathArgument} {q : Path}
    {stack : List String} {place : Place}
    (hstored : path.stored host.currentDirectory? = .ok q.text) (h : q.IsCollapsed stack)
    (names : ∀ later : Host, host.tree.Within later.tree → later.Names q.text place) :
    host.StoresPlace path q.text place where
  tracked := by
    intro s s' index owner strategy events htracked
    obtain ⟨stored, hsame, htracked⟩ := System.track_eq_ok htracked
    obtain rfl : q.text = stored := Except.ok.inj (hstored.symm.trans hsame)
    obtain ⟨t, ht, -, -, hs', -⟩ := System.trackStored_eq_ok htracked
    exact ⟨t, ht, hs'⟩
  names := names _
  deleted := by
    intro w index record hsub hhand hpath builtin
    exact Work.deletesAt_of_isCollapsed h hpath hhand builtin (hpath ▸ names _ hsub)

namespace Course

/-- What a request that tracks the empty text comes to. -/
structure RefusesEmptyText (c : Course) (index : Nat) (owner : Owner)
    (strategy : Option Strategy) : Prop where
  -- it is refused for its value, and nothing is registered
  refused : ∀ threads, c.called threads index (.text "") owner strategy =
    (.error (.refused (.path .empty)), c.system)
  value : TrackError.kind (.path .empty) = .value
  -- whatever is done afterwards is done as without it, the end of the owner included
  unchanged : c.admits index owner = true → ∀ actions,
    c.perform? (.track index (.text "") owner strategy :: actions) = c.perform? actions

theorem refusesEmptyText (c : Course) (index : Nat) (owner : Owner) (strategy : Option Strategy) :
    c.RefusesEmptyText index owner strategy where
  refused _ := rfl
  value := rfl
  unchanged admits actions := by
    have hnext : c.next? (.track index (.text "") owner strategy) = some c := by
      rw [next?_track, if_pos admits]
      rfl
    rw [perform?, hnext]

/-- A request to delete an empty path fails, and takes away at most what lies in the current
directory; only a forced one takes away anything. Tracking refuses the empty text and is as if it
had not been asked for. An object that answers the empty text stands for the current directory: it
is stored under the name of that, and deleted there. -/
theorem empty_path_means_here (c : Course) {path : PathArgument} (empty : path.IsEmpty) :
    (path.toPath? = some .here ∧ ∀ builtin, Strategy.FailsOnEmpty builtin path.shown c.host) ∧
    (path = .text "" → ∀ index owner strategy, c.RefusesEmptyText index owner strategy) ∧
    (path = .pathLike "" →
      (c.host.currentDirectory? = none →
        path.stored c.host.currentDirectory? = .error .directoryLost) ∧
      (c.host.tree.Stands c.host.cwd → ∃ stored,
        path.stored c.host.currentDirectory? = .ok stored ∧
        (stored.utf8ByteSize < pathSizeLimit →
          c.host.StoresPlace path stored c.host.cwd))) := by
  refine ⟨⟨empty.toPath?, fun builtin => Strategy.failsOnEmpty builtin _ _⟩,
    fun _ index owner strategy => c.refusesEmptyText index owner strategy, ?_⟩
  rintro rfl
  refine ⟨PathArgument.stored_pathLike_lost, fun stands => ?_⟩
  obtain ⟨q, hstored, hcollapsed⟩ := PathArgument.stored_pathLike_empty stands
  refine ⟨q.text, hstored, fun hshort => ?_⟩
  exact Host.storesPlace_of_isCollapsed hstored hcollapsed fun later hsub =>
    Host.names_of_stands stands hcollapsed hshort hsub

def insideDirectory : Host :=
  { Host.bare with
    tree := (Tree.empty.put ["d"] .directory).put ["f", "d"] (.file .empty)
    cwd := ["d"] }

theorem empty_path_means_here_insideDirectory :
    PathArgument.IsEmpty (.pathLike "") ∧
      Strategy.FailsOnEmpty .normal "PathLike()" insideDirectory ∧
      insideDirectory.tree.Stands ["d"] ∧
      ∃ stored, (PathArgument.pathLike "").stored insideDirectory.currentDirectory? = .ok stored ∧
        stored = "/d" ∧ insideDirectory.StoresPlace (.pathLike "") stored ["d"] := by
  have stands : insideDirectory.tree.Stands ["d"] :=
    .inside ⟨by decide, by decide, by decide, by decide, by decide⟩ rfl .root
  obtain ⟨⟨-, hfails⟩, -, hobject⟩ :=
    empty_path_means_here (start insideDirectory) .pathLike
  obtain ⟨stored, hstored, hstores⟩ := (hobject rfl).2 stands
  obtain rfl : "/d" = stored := Except.ok.inj hstored
  exact ⟨.pathLike, hfails .normal, stands, _, hstored, rfl, hstores (by decide)⟩

/-- Forced, both ways to delete an empty path empty the current directory, and an object that answers
the empty text is tracked and deleted. -/
theorem empty_path_empties_here :
    ∃ error host' s events w log,
      Strategy.force.delete "" (.ofText "") insideDirectory = (.error error, host') ∧
      insideDirectory.tree.get? ["f", "d"] = some (.file .empty) ∧
      host'.tree.get? ["f", "d"] = none ∧
      (Strategy.force.deleteQuietly "" (some (.ofText "")) insideDirectory).host = host' ∧
      System.idle.track 0 insideDirectory.currentDirectory? (.pathLike "") ⟨7, none⟩
        (some .force) = .ok (s, events) ∧
      Work.steps 0 3 ⟨s.reclaim 7, insideDirectory, []⟩ = (w, log) ∧
      w.host.tree.get? ["f", "d"] = none :=
  ⟨_, _, _, _, _, _, rfl, rfl, rfl, rfl, rfl, rfl, rfl⟩

end Course
end Reclaim
