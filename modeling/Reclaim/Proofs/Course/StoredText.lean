import Reclaim.Proofs.Path.Normal
import Reclaim.Proofs.Tracking.Stored

/-!
The text that is stored for an object, from the call that tracks it to the end of its deletion. It
is made once, seen from the directory that is the current one then, and is in normal form; making it
absolute again changes nothing, from whatever directory. From the acceptance on the record stays as
it is: wherever its number turns up later, in a watch, a registry, a queue or the hands of a worker,
it comes with the same text, and the deletion is asked for and reported with it.
-/

namespace Reclaim

/-- What is stored for an object that answers a text, seen from a directory of the given root and
names. -/
structure StoresNormal (anchor : Anchor) (names : List String) (text stored : String) : Prop where
  -- it is in normal form. The root is that of the text, if this is absolute, and else that of the
  -- directory; each pair of dots has taken away the name before it, and nothing at the root
  normal : NormalText stored
    (if (Path.ofText text).isAbsolute then (Path.ofText text).anchor else anchor)
    (Path.stackParts (if (Path.ofText text).isAbsolute then [] else names.reverse)
      (Path.ofText text).parts).reverse
  absolute : stored.toList.head? = some '/'
  noFinalSlash : stored ≠ "/" → stored ≠ "//" → stored.toList.getLast? ≠ some '/'
  -- it is stored again for any object that answers with it, from any directory or none
  again : ∀ (path : PathArgument) (cwd : Option Path), path.Answers stored →
    path.stored cwd = .ok stored
  asPath : (Path.ofText stored).text = stored

theorem PathArgument.Answers.stores_normal {path : PathArgument} {cwd text : String}
    {anchor : Anchor} {names : List String} (answers : path.Answers text)
    (h : NormalText cwd anchor names) :
    ∃ stored, path.stored (some (.ofText cwd)) = .ok stored ∧
      StoresNormal anchor names text stored := by
  obtain ⟨stored, hstored, normal⟩ := h.absoluteFrom_eq text
  refine ⟨stored, (answers.stored_eq _).trans hstored, ?_⟩
  exact {
    normal := normal
    absolute := normal.head?_eq
    noFinalSlash := by
      intro hroot hdouble
      refine normal.getLast?_ne ?_
      rcases normal.rooted with hanchor | hanchor <;> rw [hanchor]
      · exact hroot
      · exact hdouble
    again := fun _ cwd again => (again.stored_eq cwd).trans (normal.absoluteFrom_ofText cwd)
    asPath := normal.text_ofText }

namespace Course

variable {c c' : Course} {record other : Record} {index : Nat} {t : Tracker}

/-- A course holds a record: a watch waits for its owner, it is registered, it is on its way to a
worker, a worker has it in hand, or a worker has taken it some time. -/
inductive Holds (c : Course) (record : Record) : Prop
  | watched {w : Watch} (h : w ∈ c.system.watches) (same : w.record = record)
  | registered {index : Nat} {t : Tracker} (ht : c.system.tracker? index = some t)
      (h : record ∈ t.registry)
  | queued {index : Nat} {t : Tracker} (ht : c.system.tracker? index = some t)
      (h : .record record ∈ t.queue)
  | inHand {index : Nat} {t : Tracker} (ht : c.system.tracker? index = some t)
      (h : t.phase = .deleting record)
  | taken {index : Nat} (h : (index, record) ∈ c.taken)

theorem Reachable.accepted_of_holds (hc : c.Reachable) (h : c.Holds record) :
    ∃ a ∈ c.acceptances, a.record = record := by
  cases h with
  | watched h same =>
      rw [hc.ledger.watched] at h
      obtain ⟨a, ha, rfl⟩ := List.mem_map.mp h
      exact ⟨a, List.mem_of_mem_filter (List.mem_reverse.mp ha), same⟩
  | registered ht h =>
      obtain ⟨a, ha, -, hrecord, -⟩ := (hc.ledger.mem_registry ht).mp h
      exact ⟨a, ha, hrecord⟩
  | queued ht h =>
      obtain ⟨a, ha, -, hrecord, -⟩ := (hc.ledger.mem_queue ht).mp h
      exact ⟨a, ha, hrecord⟩
  | inHand ht h =>
      obtain ⟨owner, haccepted, -⟩ := hc.in_hand ht h
      exact ⟨_, haccepted, rfl⟩
  | taken h =>
      obtain ⟨a, ha, -, hrecord, -⟩ := hc.ledger.accounted _ h
      exact ⟨a, ha, hrecord⟩

theorem Change.history (h : c.Change c') : c.history <+: c'.history := by
  cases h with
  | accepted => exact List.prefix_append _ _
  | roused => exact List.prefix_append _ _
  | worked => exact List.prefix_append _ _
  | _ => exact List.prefix_refl _

theorem Reachable.acceptances_prefix {actions : List Action} (hc : c.Reachable)
    (h : c.perform? actions = some c') : c.acceptances <+: c'.acceptances := by
  have hhistory : c.history <+: c'.history :=
    perform?_induct (P := fun c' => c.history <+: c'.history)
      (fun _ hprefix hch => hprefix.trans hch.history) hc (List.prefix_refl _) h
  exact hhistory.filterMap _

/-- A record that has been accepted is the only one of its number, for good. -/
theorem Reachable.eq_of_holds {actions : List Action} {a : Acceptance} (hc : c.Reachable)
    (ha : a ∈ c.acceptances) (h : c.perform? actions = some c') (holds : c'.Holds other)
    (hid : other.id = a.record.id) : other = a.record := by
  have hc' := hc.perform h
  obtain ⟨b, hb, rfl⟩ := hc'.accepted_of_holds holds
  rw [hc'.ledger.eq_of_id_eq hb ((hc.acceptances_prefix h).subset ha) hid]

/-- What becomes of a record and its text. -/
structure Keeps (c : Course) (record : Record) : Prop where
  -- wherever its number turns up, it is this record
  same : ∀ other, c.Holds other → other.id = record.id → other = record
  -- its strategy is asked to delete the path that is read from the text, and the text of this path
  -- is the same again
  deletes : ∀ host, ∃ p : Path, p.text = record.path ∧
    record.deleteQuietly host = record.strategy.deleteQuietly record.path (some p) host
  -- when the strategy comes to an end that counts as a failure, the text is what is reported
  reports : ∀ {index t outcome}, c.system.tracker? index = some t → t.phase = .deleting record →
    (record.deleteQuietly c.host).outcome = some outcome →
      ∃ w log t', c.work.step index = some (w, log) ∧ w.system.tracker? index = some t' ∧
        t'.failures = if outcome.isFailure then t.failures ++ [record.path] else t.failures

theorem Reachable.keeps {actions : List Action} {a : Acceptance} (hc : c.Reachable)
    (ha : a ∈ c.acceptances) (h : c.perform? actions = some c')
    (htext : (Path.ofText a.record.path).text = a.record.path) : c'.Keeps a.record where
  same _ holds hid := hc.eq_of_holds ha h holds hid
  deletes _ := ⟨_, htext, rfl⟩
  reports ht hp ho := by
    obtain ⟨c'', -, ⟨log, hstep⟩, -, ht'⟩ := step_of_deleting ht hp ho
    exact ⟨c''.work, log, _, hstep, ht', rfl⟩

theorem mem_acceptances_of_track {path : PathArgument} {owner : Owner} {strategy : Option Strategy}
    {system : System} {events : List Event}
    (h : c.next? (.track index path owner strategy) = some c')
    (htrack : c.system.track index c.host.currentDirectory? path owner strategy =
      .ok (system, events)) (hevent : .tracked record owner.id ∈ events) :
    ⟨index, record, owner.id⟩ ∈ c'.acceptances := by
  rw [next?_track] at h
  split at h
  · obtain rfl := Option.some.inj h
    rw [htrack]
    show _ ∈ (c.note index system events).acceptances
    rw [acceptances_note, List.mem_append, List.mem_filterMap]
    exact .inr ⟨_, hevent, rfl⟩
  · cases h

/-- For every object that answers a text, and every current directory in normal form, a text in
normal form is stored, which is stored again unchanged from everywhere. Whatever happens after the
object has been tracked, its record has this text wherever it is held, is deleted by it and is
reported with it. -/
theorem stored_text_is_normal {path : PathArgument} {cwd text : String} {anchor : Anchor}
    {names : List String} (hcwd : NormalText cwd anchor names) (answers : path.Answers text) :
    ∃ stored, path.stored (some (.ofText cwd)) = .ok stored ∧
      StoresNormal anchor names text stored ∧
      ∀ (c c' : Course) (index : Nat) (owner : Owner) (strategy : Option Strategy)
        (system : System) (events : List Event) (actions : List Action), c.Reachable →
        c.host.currentDirectory? = some (.ofText cwd) →
        c.system.track index c.host.currentDirectory? path owner strategy =
          .ok (system, events) →
        c.perform? (.track index path owner strategy :: actions) = some c' →
          ∃ record, .tracked record owner.id ∈ events ∧ record.path = stored ∧
            c'.Keeps record := by
  obtain ⟨stored, hstored, stores⟩ := answers.stores_normal hcwd
  refine ⟨stored, hstored, stores, ?_⟩
  intro c c' index owner strategy system events actions hc hdirectory htrack h
  obtain ⟨given, hgiven, htracked⟩ := System.track_eq_ok htrack
  obtain rfl : stored = given := by
    rw [hdirectory, hstored] at hgiven
    exact Except.ok.inj hgiven
  obtain ⟨t, ht, -, -, hsystem, hevents⟩ := System.trackStored_eq_ok htracked
  have hevent : .tracked ⟨c.system.nextRecord, stored, t.strategyFor strategy⟩ owner.id ∈
      events := by
    rw [hevents]
    exact List.mem_append_right _ (List.mem_singleton_self _)
  rw [perform?] at h
  split at h
  · cases h
  · rename_i c₁ hnext
    have haccepted := mem_acceptances_of_track hnext htrack hevent
    exact ⟨_, hevent, rfl, (hc.step _ hnext).keeps haccepted h stores.asPath⟩

def seenFrom (cwd : Files.Place) : Host :=
  { sameNames with cwd }

/-- An object is tracked in one directory, and its record is in hand in another. -/
theorem stored_text_is_normal_elsewhere :
    ∃ c c' t,
      (start (seenFrom ["sub", "d"])).perform? [.addTracker "worker" (some .normal)] = some c ∧
      c.Reachable ∧ NormalText "/d/sub" .root ["d", "sub"] ∧
      c.host.currentDirectory? = some (.ofText "/d/sub") ∧
      c.perform? [.track 0 (.pathLike "..//./../f/") ⟨7, none⟩ none, .elsewhere (seenFrom ["d"]),
        .reclaim 7, .advance 0, .advance 0] = some c' ∧
      c'.system.tracker? 0 = some t ∧ t.phase = .deleting ⟨0, "/f", .normal⟩ ∧
      StoresNormal .root ["d", "sub"] "..//./../f/" "/f" ∧ c'.Keeps ⟨0, "/f", .normal⟩ := by
  have normal : NormalText "/d/sub" .root ["d", "sub"] := ⟨rfl, .inl rfl, by decide⟩
  have hbegun : (start (seenFrom ["sub", "d"])).perform? [.addTracker "worker" (some .normal)] =
      some _ := rfl
  have hc := (Reachable.start _).perform hbegun
  obtain ⟨stored, hstored, stores, hkeeps⟩ :=
    stored_text_is_normal normal (.pathLike "..//./../f/")
  obtain rfl : "/f" = stored := Except.ok.inj hstored
  have htrack : System.idle.track 0 (seenFrom ["sub", "d"]).currentDirectory?
      (.pathLike "..//./../f/") ⟨7, none⟩ none =
        .ok (_, [.started, .tracked ⟨0, "/f", .normal⟩ 7]) := rfl
  obtain ⟨record, hevent, -, keeps⟩ := hkeeps _ _ 0 ⟨7, none⟩ none _ _
    [.elsewhere (seenFrom ["d"]), .reclaim 7, .advance 0, .advance 0] hc rfl htrack rfl
  obtain rfl : record = ⟨0, "/f", .normal⟩ := by simpa using hevent
  exact ⟨_, _, _, hbegun, hc, normal, rfl, rfl, rfl, rfl, stores, keeps⟩

end Course
end Reclaim
