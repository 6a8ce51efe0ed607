import Reclaim.Proofs.Files.Undoing
import Reclaim.Proofs.Host.Sound
import Reclaim.Proofs.Tracking.Temporary

/-!
Temporary entries leave no orphans. A call that makes an entry and tracks it either returns, and
then one empty entry is new and one record bears its path, or it fails, and then the files are as
they were, whether nothing could be made or what was made could not be tracked. Another caller may
ask the tracker to finish while the entry is being made.
-/

namespace Reclaim

open Files

namespace Host

variable {host host' : Host} {kind : TemporaryKind} {name : TemporaryName} {text : String}
  {failure : Failure}

theorem tryNames_eq_error {base before after : String} {attempts : Nat}
    (h : tryNames kind base before after attempts host = (.error failure, host')) :
    host' = { host with nextName := host'.nextName } := by
  induction attempts generalizing host with
  | zero =>
      cases h
      rfl
  | succ attempts ih =>
      simp only [tryNames] at h
      split at h
      · cases h
      · rw [ih h]
      · cases h
        rfl

theorem makeTemporary_eq_error (h : host.makeTemporary kind name = (.error failure, host')) :
    host' = { host with nextName := host'.nextName } := by
  unfold makeTemporary at h
  cases kind with
  | file =>
      simp only at h
      split at h
      · cases h
        rfl
      · exact tryNames_eq_error h
  | directory => exact tryNames_eq_error h

theorem withTree_of_makes {entry : Entry} {place : Place} {tree : Tree} (settled : host.Settled)
    (makes : host.tree.Makes host.cwd text entry place tree) :
    host.withTree tree = { host with tree } :=
  settled.withTree_eq fun p => makes.within p _

/-- A change that leads back to the tree of a host leads back to the host. -/
theorem change_back (settled : host.Settled) (hnul : holdsNul text = false) {tree : Tree}
    (undo : Tree → Place → Except Reason Tree) (hundo : undo tree host.cwd = .ok host.tree) :
    change { host with tree } [text] undo = .ok host := by
  have hcwd : host.tree.detach host.cwd = host.cwd := settled
  simp [change, hnul, hundo, withTree, hcwd]

/-- An entry that has just been made is taken back by its path. -/
theorem discard_of_makeNamed (sound : host.Sound) (h : makeNamed kind host text = .ok host') :
    host' = { host with tree := host'.tree } ∧ host'.discard kind text = .ok host := by
  have hnul := (makeNamed_eq_ok h).1
  have hmade := guarded_eq_ok h
  cases kind with
  | file =>
      obtain ⟨tree, hcreate, rfl⟩ := change_eq_ok hmade
      obtain ⟨place, makes⟩ := Tree.create_makes hcreate
      rw [withTree_of_makes sound.settled makes]
      exact ⟨rfl, change_back sound.settled hnul (fun tree cwd => tree.unlink cwd text)
        (Tree.unlink_of_create hcreate)⟩
  | directory =>
      obtain ⟨tree, hmkdir, rfl⟩ := change_eq_ok hmade
      obtain ⟨place, makes⟩ := Tree.mkdir_makes hmkdir
      rw [withTree_of_makes sound.settled makes]
      exact ⟨rfl, change_back sound.settled hnul (fun tree cwd => tree.rmdir cwd text)
        (Tree.rmdir_of_mkdir sound.connected hmkdir)⟩

theorem exists_makeNamed (h : host.makeTemporary kind name = (.ok text, host')) :
    ∃ next, makeNamed kind { host with nextName := next } text = .ok host' := by
  unfold makeTemporary at h
  cases kind with
  | file =>
      simp only at h
      split at h
      · cases h
      · obtain ⟨-, next, -, hmake⟩ := tryNames_eq_ok h
        exact ⟨next, hmake⟩
  | directory =>
      obtain ⟨-, next, -, hmake⟩ := tryNames_eq_ok h
      exact ⟨next, hmake⟩

/-- A temporary entry that has just been made is taken back, at the cost of a number. -/
theorem discard_of_makeTemporary (sound : host.Sound)
    (h : host.makeTemporary kind name = (.ok text, host')) :
    host' = { host with tree := host'.tree, nextName := host'.nextName } ∧
      host'.discard kind text = .ok { host with nextName := host'.nextName } := by
  obtain ⟨next, hmake⟩ := exists_makeNamed h
  have sound' : Sound { host with nextName := next } := ⟨sound.settled, sound.connected⟩
  obtain ⟨hrest, hdiscard⟩ := discard_of_makeNamed sound' hmake
  have hnext : host'.nextName = next := by rw [hrest]
  exact ⟨by rw [hrest], by rw [hnext, hdiscard]⟩

end Host

namespace System

/-- A call that makes a temporary entry and tracks it. It finds the trackers in one state when it
begins, and in another one when it comes to track the entry. -/
def trackTemporaryAfter (before s : System) (index : Nat) (kind : TemporaryKind)
    (name : TemporaryName) (owner : Owner) (strategy : Option Strategy) (host : Host) :
    Except TemporaryError String × (System × List Event) × Host :=
  match before.makeTemporary index kind name host with
  | (.error error, host) => (.error error, (s, []), host)
  | (.ok text, host) =>
      match s.trackMade index kind text owner strategy host with
      | (answer, tracked, host) => (answer.map fun _ => text, tracked, host)

theorem trackTemporary_eq (s : System) (index : Nat) (kind : TemporaryKind) (name : TemporaryName)
    (owner : Owner) (strategy : Option Strategy) (host : Host) :
    s.trackTemporary index kind name owner strategy host =
      s.trackTemporaryAfter s index kind name owner strategy host :=
  rfl

variable {before s s' : System} {index : Nat} {kind : TemporaryKind} {name : TemporaryName}
  {text : String} {owner : Owner} {strategy : Option Strategy} {host host' : Host}
  {events : List Event} {error : TemporaryError}

/-- Why a call fails: the tracker accepts nothing when it begins, no entry can be made, or the call
that tracks the entry fails. -/
inductive FailsWith (before s : System) (index : Nat) (kind : TemporaryKind)
    (name : TemporaryName) (owner : Owner) (strategy : Option Strategy) (host : Host) :
    TemporaryError → Prop
  | closed {error : TrackError} (h : before.accepting index = .error error) :
      FailsWith before s index kind name owner strategy host (.track (.refused error))
  | unmade {failure : Failure} {host' : Host} (opened : before.accepting index = .ok ())
      (h : host.makeTemporary kind name = (.error failure, host')) :
      FailsWith before s index kind name owner strategy host (.files failure)
  | untracked {error : CallError} {text : String} {made : Host}
      (opened : before.accepting index = .ok ())
      (hmade : host.makeTemporary kind name = (.ok text, made))
      (h : (s.trackCall index made.currentDirectory? (.text text) owner strategy).1 =
        .error error) :
      FailsWith before s index kind name owner strategy host (.track error)

/-- What a call that returns has done. One entry is new, where the path that is answered names it,
and all others are as they were; one record is new, in the registry of the tracker, and other
trackers are as they were. -/
structure HasTracked (s s' : System) (index : Nat) (kind : TemporaryKind) (text : String)
    (host host' : Host) (record : Record) (place : Place) : Prop where
  makes : host.tree.Makes host.cwd text kind.entry place host'.tree
  empty : host'.tree.isBare place = true
  rest : host' = { host with tree := host'.tree, nextName := host'.nextName }
  stored : record.path = text
  registered : ∃ t t', s.tracker? index = some t ∧ s'.tracker? index = some t' ∧
    t'.registry = t.registry ++ [record]
  others : ∀ j ≠ index, s'.tracker? j = s.tracker? j

/-- What has been made is there to be tracked, and is taken back if the call that tracks it fails. -/
theorem trackTemporaryAfter_of_made (sound : host.Sound) {made : Host} (s : System)
    (owner : Owner) (strategy : Option Strategy) (opened : before.accepting index = .ok ())
    (hmade : host.makeTemporary kind name = (.ok text, made)) :
    before.trackTemporaryAfter s index kind name owner strategy host =
      match s.trackCall index made.currentDirectory? (.text text) owner strategy with
      | (.ok (), tracked) => (.ok text, tracked, made)
      | (.error error, tracked) =>
          (.error (.track error), tracked, { host with nextName := made.nextName }) := by
  obtain ⟨-, hdiscard⟩ := Host.discard_of_makeTemporary sound hmade
  simp only [trackTemporaryAfter, makeTemporary, opened, hmade, trackMade]
  obtain ⟨answer, tracked⟩ := s.trackCall index made.currentDirectory? (.text text) owner strategy
  cases answer with
  | ok _ => rfl
  | error error =>
      simp only [hdiscard]
      rfl

/-- Only a call that lacks a name to report fails with the record registered. -/
theorem trackCall_of_error {cwd : Option Path} {path : PathArgument} {error : CallError}
    (h : (s.trackCall index cwd path owner strategy).1 = .error error) (named : error ≠ .nameless) :
    (s.trackCall index cwd path owner strategy).2 = (s, []) := by
  cases htrack : s.track index cwd path owner strategy with
  | error refusal => rw [trackCall_of_refused htrack]
  | ok tracked =>
      rw [trackCall_of_tracked htrack] at h
      split at h
      · cases h
      · exact absurd (Except.error.inj h).symm named

/-- Each way to fail leaves the files as they were, and the trackers unless it is the last step of the
call that fails. -/
theorem FailsWith.spares (sound : host.Sound)
    (h : FailsWith before s index kind name owner strategy host error) :
    ∃ tracked next, before.trackTemporaryAfter s index kind name owner strategy host =
        (.error error, tracked, { host with nextName := next }) ∧
      (error ≠ .track .nameless → tracked = (s, [])) := by
  cases h with
  | closed h =>
      refine ⟨(s, []), host.nextName, ?_, fun _ => rfl⟩
      simp only [trackTemporaryAfter, makeTemporary, h]
  | @unmade failure host' opened h =>
      refine ⟨(s, []), host'.nextName, ?_, fun _ => rfl⟩
      rw [← Host.makeTemporary_eq_error h]
      simp only [trackTemporaryAfter, makeTemporary, opened, h]
  | @untracked error text made opened hmade h =>
      refine ⟨_, made.nextName, ?_, fun named => trackCall_of_error h fun he => named (he ▸ rfl)⟩
      rw [trackTemporaryAfter_of_made sound s owner strategy opened hmade]
      split
      · rename_i hcall
        cases hcall ▸ h
      · rename_i hcall
        cases hcall ▸ h
        rw [hcall]

/-- A call that does not fail has made one entry and tracked it. -/
theorem hasTracked_or_failsWith (before s : System) (index : Nat) (kind : TemporaryKind)
    (name : TemporaryName) (owner : Owner) (strategy : Option Strategy) (sound : host.Sound) :
    (∃ text s' events host' record place,
      before.trackTemporaryAfter s index kind name owner strategy host =
        (.ok text, (s', events), host') ∧
      s.HasTracked s' index kind text host host' record place) ∨
    ∃ error, FailsWith before s index kind name owner strategy host error := by
  cases opened : before.accepting index with
  | error error => exact .inr ⟨_, .closed opened⟩
  | ok _ =>
      cases hmake : host.makeTemporary kind name with
      | mk answer made =>
          cases answer with
          | error failure => exact .inr ⟨_, .unmade opened hmake⟩
          | ok text =>
              have hcall := trackTemporaryAfter_of_made sound s owner strategy opened hmake
              cases hanswer : s.trackCall index made.currentDirectory? (.text text) owner
                  strategy with
              | mk answer tracked =>
                  cases answer with
                  | error error =>
                      exact .inr ⟨_, .untracked opened hmake (congrArg Prod.fst hanswer)⟩
                  | ok _ =>
                      obtain ⟨s', events⟩ := tracked
                      rw [hanswer] at hcall
                      obtain ⟨-, ⟨place, makes⟩, -⟩ := Host.makeTemporary_eq_ok hmake
                      obtain ⟨hrest, -⟩ := Host.discard_of_makeTemporary sound hmake
                      obtain ⟨stored, hstored, htracked⟩ := track_eq_ok (trackCall_eq_ok hanswer)
                      obtain ⟨t, ht, -, -, rfl, -⟩ := trackStored_eq_ok htracked
                      refine .inl ⟨text, _, events, made,
                        ⟨s.nextRecord, stored, t.strategyFor strategy⟩, place, hcall, ?_⟩
                      exact {
                        makes := makes
                        empty := makes.isBare sound.connected
                        rest := hrest
                        stored := (PathArgument.stored_text_iff.mp hstored).2
                        registered := ⟨t, _, ht, (tracker?_set ht _ index).trans (if_pos rfl),
                          t.registry_accept _⟩
                        others := fun j hj => (tracker?_set ht _ j).trans (if_neg hj) }

/-- A call fails exactly for one of the reasons why a path cannot be tracked or an entry cannot be
made, and leaves the files as they were, and the trackers too unless there is no name of a strategy
to report; if it returns, one empty entry is new, and one record that bears the path that is
answered. -/
theorem temporary_leaves_no_orphan (sound : host.Sound) (before s : System) (index : Nat)
    (kind : TemporaryKind) (name : TemporaryName) (owner : Owner) (strategy : Option Strategy) :
    (∀ error, FailsWith before s index kind name owner strategy host error ↔
      ∃ tracked host', before.trackTemporaryAfter s index kind name owner strategy host =
        (.error error, tracked, host')) ∧
    (∀ error tracked host', before.trackTemporaryAfter s index kind name owner strategy host =
      (.error error, tracked, host') → host' = { host with nextName := host'.nextName } ∧
        (error ≠ .track .nameless → tracked = (s, []))) ∧
    ∀ text s' events host', before.trackTemporaryAfter s index kind name owner strategy host =
      (.ok text, (s', events), host') →
        ∃ record place, s.HasTracked s' index kind text host host' record place := by
  rcases hasTracked_or_failsWith before s index kind name owner strategy sound with
    ⟨text, s', events, host', record, place, hcall, tracked⟩ | ⟨error, fails⟩
  · refine ⟨fun error => ⟨fun fails => ?_, ?_⟩, ?_, ?_⟩
    · obtain ⟨left, next, herror, -⟩ := fails.spares sound
      exact ⟨_, _, herror⟩
    · rintro ⟨left, host'', herror⟩
      simp [hcall] at herror
    · intro error left host'' herror
      simp [hcall] at herror
    · intro text' s'' events' host'' hcall'
      rw [hcall] at hcall'
      cases hcall'
      exact ⟨record, place, tracked⟩
  · obtain ⟨left, next, hcall, hleft⟩ := fails.spares sound
    refine ⟨fun error' => ⟨fun fails' => ?_, ?_⟩, ?_, ?_⟩
    · obtain ⟨left', next', herror, -⟩ := fails'.spares sound
      exact ⟨_, _, herror⟩
    · rintro ⟨left', host', herror⟩
      rw [hcall] at herror
      cases herror
      exact fails
    · intro error' left' host' herror
      rw [hcall] at herror
      cases herror
      exact ⟨rfl, hleft⟩
    · intro text s' events host' hok
      simp [hcall] at hok

theorem sound_twoDirectories : twoDirectories.Sound where
  settled := rfl
  connected :=
    (Tree.connected_empty.put rfl (by decide) (by decide) _).put rfl (by decide) (by decide) _

/-- A directory is kept by a tracker that is open, and taken back if the tracker is asked to finish
while it is being made. -/
theorem temporary_leaves_no_orphan_twoDirectories :
    let call := fun s => idle.trackTemporaryAfter s 0 .directory ⟨some "/d", "tmp", ""⟩ ⟨7, none⟩
      (some .force) twoDirectories
    twoDirectories.Sound ∧
      (∃ s' events made record place, call idle = (.ok "/d/tmp00000001", (s', events), made) ∧
        idle.HasTracked s' 0 .directory "/d/tmp00000001" twoDirectories made record place) ∧
      call (idle.requestExit 0).1 =
        (.error (.track (.refused .shutdown)), ((idle.requestExit 0).1, []),
          { twoDirectories with nextName := 2 }) := by
  intro call
  have orphanless := fun s => temporary_leaves_no_orphan sound_twoDirectories idle s 0
    .directory ⟨some "/d", "tmp", ""⟩ ⟨7, none⟩ (some .force)
  have htracked : call idle = (.ok "/d/tmp00000001", (_, _), _) := rfl
  obtain ⟨record, place, tracked⟩ := (orphanless idle).2.2 _ _ _ _ htracked
  have hrefused : call (idle.requestExit 0).1 =
      (.error (.track (.refused .shutdown)), _, _) := rfl
  obtain ⟨hfiles, htrackers⟩ := (orphanless _).2.1 _ _ _ hrefused
  refine ⟨sound_twoDirectories, ⟨_, _, _, record, place, htracked, tracked⟩, hrefused.trans ?_⟩
  exact Prod.ext rfl (Prod.ext (htrackers nofun) hfiles)

end System
end Reclaim
