import Reclaim.Proofs.Course.Ledger

/-!
The life of one worker. Seen from a single tracker a course is a series of moves: the tracker
accepts a record, is sent records, is closed, has its worker roused, or its worker works on. What
the moves keep is stated once as `Lawful`; it ties the phase of the worker to the exit flag, to
the wake-up call in the queue and to the events at the tracker.
-/

namespace Reclaim

namespace Event

def isExitRequest : Event → Bool
  | exitRequested _ => true
  | _ => false

def isUndecided : Event → Bool
  | finished _ .undecided => true
  | _ => false

end Event

/-- The record whose strategy a worker is in. -/
def Phase.inHand? : Phase → Option Record
  | deleting record => some record
  | _ => none

namespace Tracker

/-- The moves at one tracker. The flags say whether a request to finish is under way there,
before and after the move. -/
inductive Move : Bool → Tracker → Bool → Tracker → List Event → Prop
  | still (under : Bool) (t : Tracker) : Move under t under t []
  | accept {t : Tracker} (record : Record) (owner : Nat) (opened : t.exiting = false) :
      Move false t false (t.accept record).1 ((t.accept record).2 ++ [.tracked record owner])
  | deliver (under : Bool) (t : Tracker) {items : List Item} (records : .wake ∉ items) :
      Move under t under { t with queue := t.queue ++ items } []
  | close {t : Tracker} (opened : t.exiting = false) : Move false t true t.close []
  | rouse (t : Tracker) : Move true t false t.rouse [.exitRequested t.count]
  | work (under : Bool) {t t' : Tracker} {events : List Event} (works : t.Works t' events) :
      Move under t under t' events

/-- What holds of a tracker, of whether a request to finish is under way, and of the events at
it so far. -/
structure Lawful (under : Bool) (t : Tracker) (events : List Event) : Prop where
  unstarted : t.phase = .unstarted ↔ events.filterMap Event.accepted? = []
  starts : events.count .started = if t.phase = .unstarted then 0 else 1
  ends : events.count .ended = if t.phase = .ended then 1 else 0
  testing : t.phase = .testingCount → t.exiting = true
  ended : t.phase = .ended → t.exiting = true ∧ t.registry = []
  falls : events.countP Event.isUndecided = if t.phase = .fallen then 1 else 0
  closing : under = true → t.exiting = true
  requests : events.countP Event.isExitRequest = if t.exiting && !under then 1 else 0
  wakes : t.queue.count .wake ≤ if t.exiting && !under then 1 else 0
  -- a worker that receives although there is nothing to wait for will be woken
  wakeful : t.phase = .receiving → t.exiting = true → t.registry = [] →
    under = true ∨ .wake ∈ t.queue
  taken : events.filterMap Event.taken? =
    events.filterMap Event.finished? ++ t.phase.inHand?.toList

namespace Lawful

theorem new (threadName : String) (strategy : Option Strategy) :
    Lawful false (Tracker.new threadName strategy) [] := by
  constructor <;> simp [Tracker.new, Phase.inHand?]

theorem accept_first {t : Tracker} {events : List Event} (h : Lawful false t events)
    (record : Record) (owner : Nat) (hp : t.phase = .unstarted) :
    Lawful false { t with registry := t.registry ++ [record], phase := .testingExit }
      (events ++ [.started, .tracked record owner]) where
  unstarted := by simp [Event.accepted?]
  starts := by
    rw [List.count_append, h.starts, if_pos hp]
    rfl
  ends := by
    rw [List.count_append, h.ends, if_neg (by simp [hp])]
    rfl
  testing := nofun
  ended := nofun
  falls := by
    rw [List.countP_append, h.falls, hp]
    rfl
  closing := nofun
  requests := by
    rw [List.countP_append, h.requests]
    rfl
  wakes := h.wakes
  wakeful := nofun
  taken := by
    rw [List.filterMap_append, List.filterMap_append, h.taken, hp]
    simp [List.filterMap_cons, Phase.inHand?, Event.taken?, Event.finished?]

theorem accept_next {t : Tracker} {events : List Event} (h : Lawful false t events)
    (record : Record) (owner : Nat) (opened : t.exiting = false) (hp : t.phase ≠ .unstarted) :
    Lawful false { t with registry := t.registry ++ [record] }
      (events ++ [.tracked record owner]) where
  unstarted := by simp [hp, Event.accepted?]
  starts := by
    rw [List.count_append, h.starts]
    rfl
  ends := by
    rw [List.count_append, h.ends]
    rfl
  testing := h.testing
  ended he := by simp [(h.ended he).1] at opened
  falls := by
    rw [List.countP_append, h.falls]
    rfl
  closing := nofun
  requests := by
    rw [List.countP_append, h.requests]
    rfl
  wakes := h.wakes
  wakeful _ he := by simp [opened] at he
  taken := by
    rw [List.filterMap_append, List.filterMap_append, h.taken]
    simp [List.filterMap_cons, Event.taken?, Event.finished?]

theorem accept {t : Tracker} {events : List Event} (h : Lawful false t events) (record : Record)
    (owner : Nat) (opened : t.exiting = false) :
    Lawful false (t.accept record).1
      (events ++ ((t.accept record).2 ++ [.tracked record owner])) := by
  unfold Tracker.accept
  split
  · rename_i hp
    exact h.accept_first record owner hp
  · rename_i hp
    exact h.accept_next record owner opened hp

theorem deliver {under : Bool} {t : Tracker} {events : List Event} (h : Lawful under t events)
    {items : List Item} (records : .wake ∉ items) :
    Lawful under { t with queue := t.queue ++ items } events where
  unstarted := h.unstarted
  starts := h.starts
  ends := h.ends
  testing := h.testing
  ended := h.ended
  falls := h.falls
  closing := h.closing
  requests := h.requests
  wakes := by
    rw [List.count_append, List.count_eq_zero_of_not_mem records]
    exact h.wakes
  wakeful hp he hr := (h.wakeful hp he hr).imp_right (List.mem_append_left _)
  taken := h.taken

theorem close {t : Tracker} {events : List Event} (h : Lawful false t events)
    (opened : t.exiting = false) : Lawful true t.close events where
  unstarted := h.unstarted
  starts := h.starts
  ends := h.ends
  testing _ := rfl
  ended hp := ⟨rfl, (h.ended hp).2⟩
  falls := h.falls
  closing _ := rfl
  requests := by simpa [opened] using h.requests
  wakes := by simpa [opened, Tracker.close] using h.wakes
  wakeful _ _ _ := .inl rfl
  taken := h.taken

theorem rouse {t : Tracker} {events : List Event} (h : Lawful true t events) :
    Lawful false t.rouse (events ++ [.exitRequested t.count]) := by
  have hexit := h.closing rfl
  have hwakes : t.queue.count .wake = 0 := by simpa [hexit] using h.wakes
  constructor
  case unstarted =>
    rw [t.phase_rouse, List.filterMap_append, h.unstarted]
    simp [Event.accepted?]
  case starts =>
    rw [t.phase_rouse, List.count_append, h.starts]
    rfl
  case ends =>
    rw [t.phase_rouse, List.count_append, h.ends]
    rfl
  case testing =>
    intro _
    rw [t.exiting_rouse, hexit]
  case ended =>
    rw [t.phase_rouse, t.exiting_rouse, t.registry_rouse]
    exact h.ended
  case falls =>
    rw [t.phase_rouse, List.countP_append, h.falls]
    rfl
  case closing =>
    intro hno
    cases hno
  case requests =>
    rw [List.countP_append, h.requests, t.exiting_rouse, hexit]
    rfl
  case wakes =>
    -- the request that is under way has not sent its call before
    rw [t.exiting_rouse, hexit]
    unfold Tracker.rouse
    split
    · simp [Tracker.send, hwakes]
    · simp [hwakes]
  case wakeful =>
    intro hp _ _
    rw [t.phase_rouse] at hp
    have hstarted : t.isStarted = true := by simp [isStarted, hp]
    right
    simp [Tracker.rouse, hstarted, Tracker.send]
  case taken =>
    rw [t.phase_rouse, List.filterMap_append, List.filterMap_append, h.taken]
    simp [List.filterMap_cons, Event.taken?, Event.finished?]

/-- A worker that is neither starting nor ending keeps the law if it takes and finishes records
in turn and does not lose its wake-up call. -/
theorem proceed {under : Bool} {t t' : Tracker} {events more : List Event}
    (h : Lawful under t events) (running : t.isRunning = true) (running' : t'.isRunning = true)
    (accepts : more.filterMap Event.accepted? = []) (starts : more.count .started = 0)
    (ends : more.count .ended = 0) (falls : more.countP Event.isUndecided = 0)
    (requests : more.countP Event.isExitRequest = 0)
    (exiting : t'.exiting = t.exiting) (wakes : t'.queue.count .wake ≤ t.queue.count .wake)
    (testing : t'.phase = .testingCount → t.exiting = true)
    (wakeful : t'.phase = .receiving → t.exiting = true → t'.registry = [] →
      under = true ∨ .wake ∈ t'.queue)
    (taken : t.phase.inHand?.toList ++ more.filterMap Event.taken? =
      more.filterMap Event.finished? ++ t'.phase.inHand?.toList) :
    Lawful under t' (events ++ more) := by
  obtain ⟨⟨hstarted, hended⟩, hfallen⟩ := by simpa [isRunning] using running
  obtain ⟨⟨hstarted', hended'⟩, hfallen'⟩ := by simpa [isRunning] using running'
  constructor
  case unstarted =>
    rw [List.filterMap_append, accepts, List.append_nil, ← h.unstarted]
    exact iff_of_false hstarted' hstarted
  case starts =>
    rw [List.count_append, h.starts, starts, if_neg hstarted, if_neg hstarted']
  case ends =>
    rw [List.count_append, h.ends, ends, if_neg hended, if_neg hended']
  case testing =>
    rw [exiting]
    exact testing
  case ended =>
    exact fun hp => absurd hp hended'
  case falls =>
    rw [List.countP_append, h.falls, falls, if_neg hfallen, if_neg hfallen']
  case closing =>
    rw [exiting]
    exact h.closing
  case requests =>
    rw [List.countP_append, h.requests, requests, exiting]
    rfl
  case wakes =>
    rw [exiting]
    exact Nat.le_trans wakes h.wakes
  case wakeful =>
    rw [exiting]
    exact wakeful
  case taken =>
    rw [List.filterMap_append, List.filterMap_append, h.taken, List.append_assoc, taken,
      List.append_assoc]

theorem stop {under : Bool} {t : Tracker} {events : List Event} (h : Lawful under t events)
    (hp : t.phase = .testingCount) (empty : t.registry = []) :
    Lawful under { t with phase := .ended } (events ++ [.ended]) where
  unstarted := by
    have : t.phase ≠ .unstarted := by simp [hp]
    simpa [List.filterMap_append, Event.accepted?, h.unstarted] using this
  starts := by
    rw [List.count_append, h.starts, hp]
    rfl
  ends := by
    rw [List.count_append, h.ends, hp]
    rfl
  testing := nofun
  ended _ := ⟨h.testing hp, empty⟩
  falls := by
    rw [List.countP_append, h.falls, hp]
    rfl
  closing := h.closing
  requests := by
    rw [List.countP_append, h.requests]
    rfl
  wakes := h.wakes
  wakeful := nofun
  taken := by
    rw [List.filterMap_append, List.filterMap_append, h.taken, hp]
    rfl

/-- An answer that cannot be told to be yes or no brings the worker down. -/
theorem fall {under : Bool} {t : Tracker} {events : List Event} (h : Lawful under t events)
    {record : Record} (hp : t.phase = .deleting record) :
    Lawful under { t with phase := .fallen } (events ++ [.finished record .undecided]) where
  unstarted := by
    have : t.phase ≠ .unstarted := by simp [hp]
    simpa [List.filterMap_append, Event.accepted?, h.unstarted] using this
  starts := by
    rw [List.count_append, h.starts, hp]
    rfl
  ends := by
    rw [List.count_append, h.ends, hp]
    rfl
  testing := nofun
  ended := nofun
  falls := by
    rw [List.countP_append, h.falls, hp]
    rfl
  closing := h.closing
  requests := by
    rw [List.countP_append, h.requests]
    rfl
  wakes := h.wakes
  wakeful := nofun
  taken := by
    rw [List.filterMap_append, List.filterMap_append, h.taken, hp]
    simp [List.filterMap_cons, Phase.inHand?, Event.taken?, Event.finished?]

theorem fallen_iff {under : Bool} {t : Tracker} {events : List Event} (h : Lawful under t events) :
    t.phase = .fallen ↔ ∃ record, .finished record .undecided ∈ events := by
  have hmem : 0 < events.countP Event.isUndecided ↔
      ∃ record, .finished record .undecided ∈ events := by
    rw [List.countP_pos_iff]
    constructor
    · rintro ⟨e, he, hundecided⟩
      match e, hundecided with
      | .finished record .undecided, _ => exact ⟨record, he⟩
    · rintro ⟨record, he⟩
      exact ⟨_, he, rfl⟩
  rw [← hmem, h.falls]
  split <;> simp_all

theorem work {under : Bool} {t t' : Tracker} {events more : List Event}
    (h : Lawful under t events) (works : t.Works t' more) : Lawful under t' (events ++ more) := by
  cases works with
  | testExit hp =>
      cases he : t.exiting with
      | true =>
          exact h.proceed (by simp [isRunning, hp]) rfl rfl rfl rfl rfl rfl he.symm
            (Nat.le_refl _) (fun _ => he) nofun (by rw [hp]; rfl)
      | false =>
          refine h.proceed (by simp [isRunning, hp]) rfl rfl rfl rfl rfl rfl he.symm
            (Nat.le_refl _) nofun ?_ (by rw [hp]; rfl)
          intro _ he'
          simp [he] at he'
  | stop hp empty => exact h.stop hp empty
  | goOn hp more =>
      exact h.proceed (by simp [isRunning, hp]) rfl rfl rfl rfl rfl rfl rfl (Nat.le_refl _)
        nofun (fun _ _ hr => absurd hr more) (by rw [hp]; rfl)
  | awake hp next =>
      refine h.proceed (by simp [isRunning, hp]) rfl rfl rfl rfl rfl rfl rfl ?_ nofun nofun
        (by rw [hp]; rfl)
      rw [next]
      exact List.count_le_count_cons
  | take hp next =>
      refine h.proceed (by simp [isRunning, hp]) rfl rfl rfl rfl rfl rfl rfl ?_ nofun nofun
        (by rw [hp]; rfl)
      rw [next]
      exact List.count_le_count_cons
  | finish outcome hp =>
      cases outcome with
      | undecided => exact h.fall hp
      | deleted | refused | broken =>
          exact h.proceed (by simp [isRunning, hp]) rfl rfl rfl rfl rfl rfl rfl
            (Nat.le_refl _) nofun nofun (by rw [hp]; rfl)

theorem move {under under' : Bool} {t t' : Tracker} {events more : List Event}
    (h : Lawful under t events) (move : Move under t under' t' more) :
    Lawful under' t' (events ++ more) := by
  cases move with
  | still => exact (List.append_nil events).symm ▸ h
  | accept record owner opened => exact h.accept record owner opened
  | deliver _ _ records => exact (List.append_nil events).symm ▸ h.deliver records
  | close opened => exact (List.append_nil events).symm ▸ h.close opened
  | rouse => exact h.rouse
  | work _ works => exact h.work works

end Lawful
end Tracker

namespace Course

/-- Whether a request to finish is under way at a tracker. -/
def isClosing (c : Course) (index : Nat) : Bool :=
  index ∈ c.closing

structure Confined (c : Course) : Prop where
  history : ∀ e ∈ c.history, e.1 < c.system.trackers.length
  closing : ∀ index ∈ c.closing, index < c.system.trackers.length

theorem Confined.note {c : Course} (h : c.Confined) {index : Nat} {s : System}
    (hlt : index < c.system.trackers.length)
    (hlen : s.trackers.length = c.system.trackers.length) (events : List Event) :
    (c.note index s events).Confined where
  history e he := by
    show e.1 < s.trackers.length
    rw [hlen]
    rcases List.mem_append.mp he with he | he
    · exact h.history e he
    · obtain ⟨_, -, rfl⟩ := List.mem_map.mp he
      exact hlt
  closing i hi := by
    show i < s.trackers.length
    rw [hlen]
    exact h.closing i hi

theorem Confined.change {c c' : Course} (h : c.Confined) (hch : c.Change c') : c'.Confined := by
  cases hch with
  | quiet host => exact ⟨h.history, h.closing⟩
  | added threadName strategy =>
      have hlen : (c.system.addTracker (.new threadName strategy)).trackers.length =
          c.system.trackers.length + 1 := by simp [System.addTracker]
      constructor
      · intro e he
        exact hlen ▸ Nat.lt_succ_of_lt (h.history e he)
      · intro i hi
        exact hlen ▸ Nat.lt_succ_of_lt (h.closing i hi)
  | @accepted index owner t record host found opened free fresh alive =>
      have hlen : ((c.system.setTracker index (t.accept record).1).watch record owner
          (.tracker index)).trackers.length = c.system.trackers.length :=
        System.length_setTracker ..
      have hnote := h.note (System.index_lt_of_tracker? found) hlen
        ((t.accept record).2 ++ [.tracked record owner])
      exact ⟨hnote.history, hnote.closing⟩
  | reclaimed owner =>
      have hlen := System.length_reclaim c.system owner
      exact ⟨fun e he => hlen ▸ h.history e he, fun i hi => hlen ▸ h.closing i hi⟩
  | @closed index t found opened free =>
      have hlen := System.length_setTracker c.system index t.close
      refine ⟨fun e he => hlen ▸ h.history e he, fun i hi => ?_⟩
      show i < (c.system.setTracker index t.close).trackers.length
      rw [hlen]
      rcases List.mem_cons.mp hi with rfl | hi
      · exact System.index_lt_of_tracker? found
      · exact h.closing i hi
  | @roused index t found under =>
      have hnote := h.note (System.index_lt_of_tracker? found)
        (System.length_setTracker c.system index t.rouse) [.exitRequested t.count]
      exact ⟨hnote.history, fun i hi => hnote.closing i (List.mem_filter.mp hi).1⟩
  | @worked index t t' events host notes found works =>
      have hnote := h.note (System.index_lt_of_tracker? found)
        (System.length_setTracker c.system index t') events
      exact ⟨hnote.history, hnote.closing⟩

theorem Reachable.confined {c : Course} (hc : c.Reachable) : c.Confined :=
  hc.induct (fun _ => ⟨nofun, nofun⟩) fun _ h hch => h.change hch

theorem Confined.eventsAt {c : Course} (h : c.Confined) {index : Nat}
    (hindex : c.system.trackers.length ≤ index) : c.eventsAt index = [] := by
  simp only [Course.eventsAt, List.map_eq_nil_iff, List.filter_eq_nil_iff, decide_eq_true_eq]
  intro e he heq
  have := h.history e he
  omega

theorem Confined.isClosing {c : Course} (h : c.Confined) {index : Nat}
    (hindex : c.system.trackers.length ≤ index) : c.isClosing index = false := by
  simp only [Course.isClosing, decide_eq_false_iff_not]
  intro hi
  have := h.closing index hi
  omega

theorem wake_not_mem_arrivals (fired : List Watch) (index : Nat) :
    .wake ∉ System.arrivals fired index := by
  simp [System.arrivals]

/-- Events at one tracker, with an exchange of that tracker, are seen there and nowhere else. -/
theorem note_cases {c : Course} {index j : Nat} {t t₁ : Tracker}
    (found : c.system.tracker? index = some t₁) (t₂ : Tracker) (events : List Event)
    (ht : c.system.tracker? j = some t) :
    (j = index ∧ t = t₁ ∧ (c.system.setTracker index t₂).tracker? j = some t₂ ∧
        ∀ s, (c.note index s events).eventsAt j = c.eventsAt j ++ events) ∨
      j ≠ index ∧ (c.system.setTracker index t₂).tracker? j = some t ∧
        ∀ s, (c.note index s events).eventsAt j = c.eventsAt j ++ [] := by
  rw [System.tracker?_set found]
  by_cases hj : j = index
  · subst hj
    refine .inl ⟨rfl, Option.some.inj (ht.symm.trans found), if_pos rfl, fun s => ?_⟩
    rw [eventsAt_note, if_pos rfl]
  · refine .inr ⟨hj, (if_neg hj).trans ht, fun s => ?_⟩
    rw [eventsAt_note, if_neg (Ne.symm hj)]

/-- A change of a course is a move at every tracker. -/
theorem move_of_change {c c' : Course} (hch : c.Change c') {j : Nat} {t : Tracker}
    (ht : c.system.tracker? j = some t) :
    ∃ t' more, c'.system.tracker? j = some t' ∧ c'.eventsAt j = c.eventsAt j ++ more ∧
      Tracker.Move (c.isClosing j) t (c'.isClosing j) t' more := by
  cases hch with
  | quiet host => exact ⟨t, [], ht, (List.append_nil _).symm, .still _ t⟩
  | added threadName strategy =>
      exact ⟨t, [], System.tracker?_addTracker_of_some _ ht, (List.append_nil _).symm,
        .still _ t⟩
  | @accepted index owner t₁ record host found opened free fresh alive =>
      rcases note_cases found (t₁.accept record).1
        ((t₁.accept record).2 ++ [.tracked record owner]) ht with
        ⟨rfl, rfl, ht', hevents⟩ | ⟨-, ht', hevents⟩
      · refine ⟨_, _, ht', hevents c.system, ?_⟩
        have hfree : c.isClosing j = false := by simpa [Course.isClosing] using free
        show Tracker.Move (c.isClosing j) t (c.isClosing j) _ _
        rw [hfree]
        exact .accept record owner opened
      · exact ⟨t, [], ht', hevents c.system, .still _ t⟩
  | reclaimed owner =>
      refine ⟨_, [], ?_, (List.append_nil _).symm,
        .deliver _ t (wake_not_mem_arrivals (c.system.firing owner) j)⟩
      rw [System.tracker?_reclaim, ht]
      rfl
  | @closed index t₁ found opened free =>
      rcases note_cases found t₁.close [] ht with ⟨rfl, rfl, ht', -⟩ | ⟨hj, ht', -⟩
      · refine ⟨_, [], ht', (List.append_nil _).symm, ?_⟩
        have hfree : c.isClosing j = false := by simpa [Course.isClosing] using free
        have hunder : decide (j ∈ j :: c.closing) = true := by simp
        rw [hfree]
        simp only [Course.isClosing, hunder]
        exact .close opened
      · refine ⟨t, [], ht', (List.append_nil _).symm, ?_⟩
        have : decide (j ∈ index :: c.closing) = c.isClosing j := by simp [Course.isClosing, hj]
        simp only [Course.isClosing, this]
        exact .still _ t
  | @roused index t₁ found under =>
      rcases note_cases found t₁.rouse [.exitRequested t₁.count] ht with
        ⟨rfl, rfl, ht', hevents⟩ | ⟨hj, ht', hevents⟩
      · refine ⟨_, _, ht', hevents c.system, ?_⟩
        have hunder : c.isClosing j = true := by simpa [Course.isClosing] using under
        have hfree : decide (j ∈ c.closing.filter (· ≠ j)) = false := by simp
        rw [hunder]
        simp only [Course.isClosing, hfree]
        exact .rouse t
      · refine ⟨t, [], ht', hevents c.system, ?_⟩
        have : decide (j ∈ c.closing.filter (· ≠ index)) = c.isClosing j := by
          simp [Course.isClosing, hj]
        simp only [Course.isClosing, this]
        exact .still _ t
  | @worked index t₁ t₂ events host notes found works =>
      rcases note_cases found t₂ events ht with ⟨rfl, rfl, ht', hevents⟩ | ⟨-, ht', hevents⟩
      · exact ⟨t₂, events, ht', hevents c.system, .work _ works⟩
      · exact ⟨t, [], ht', hevents c.system, .still _ t⟩

/-- A tracker was there before a change, or is new and nothing has happened at it. -/
theorem tracker?_of_change {c c' : Course} (hch : c.Change c') {j : Nat} {t' : Tracker}
    (ht' : c'.system.tracker? j = some t') :
    (∃ t, c.system.tracker? j = some t) ∨
      c.system.trackers.length ≤ j ∧ (∃ threadName strategy, t' = .new threadName strategy) ∧
        c'.eventsAt j = c.eventsAt j ∧ c'.isClosing j = c.isClosing j := by
  have hold : ∀ {index : Nat} {t₁ t₂ : Tracker}, c.system.tracker? index = some t₁ →
      (c.system.setTracker index t₂).tracker? j = some t' →
      ∃ t, c.system.tracker? j = some t := by
    intro index t₁ t₂ found ht
    rw [System.tracker?_set found] at ht
    by_cases hj : j = index
    · exact ⟨t₁, hj ▸ found⟩
    · rw [if_neg hj] at ht
      exact ⟨t', ht⟩
  cases hch with
  | quiet host => exact .inl ⟨t', ht'⟩
  | added threadName strategy =>
      rcases System.tracker?_addTracker ht' with ht | ⟨rfl, rfl⟩
      · exact .inl ⟨t', ht⟩
      · exact .inr ⟨Nat.le_refl _, ⟨threadName, strategy, rfl⟩, rfl, rfl⟩
  | accepted host found => exact .inl (hold found ht')
  | reclaimed owner =>
      rw [System.tracker?_reclaim, Option.map_eq_some_iff] at ht'
      obtain ⟨t, ht, -⟩ := ht'
      exact .inl ⟨t, ht⟩
  | closed found => exact .inl (hold found ht')
  | roused found => exact .inl (hold found ht')
  | worked host notes found works => exact .inl (hold found ht')

/-- What new trackers have and moves keep holds of every tracker of a reachable course. -/
theorem Reachable.atEach {P : Bool → Tracker → List Event → Prop}
    (new : ∀ threadName strategy, P false (.new threadName strategy) [])
    (move : ∀ {under t under' t' events more}, P under t events →
      Tracker.Move under t under' t' more → P under' t' (events ++ more))
    {c : Course} (hc : c.Reachable) :
    ∀ {j t}, c.system.tracker? j = some t → P (c.isClosing j) t (c.eventsAt j) := by
  refine hc.induct (P := fun c => ∀ {j t}, c.system.tracker? j = some t →
    P (c.isClosing j) t (c.eventsAt j)) ?_ ?_
  · intro host j t ht
    simp [Course.start, System.empty, System.tracker?] at ht
  · intro c c' hc ih hch j t' ht'
    rcases tracker?_of_change hch ht' with ⟨t, ht⟩ | ⟨hj, ⟨threadName, strategy, rfl⟩, he, hu⟩
    · obtain ⟨t'', more, ht'', he, hmove⟩ := move_of_change hch ht
      obtain rfl : t' = t'' := Option.some.inj (ht'.symm.trans ht'')
      rw [he]
      exact move (ih ht) hmove
    · rw [he, hu, hc.confined.eventsAt hj, hc.confined.isClosing hj]
      exact new threadName strategy

theorem Reachable.lawful {c : Course} (hc : c.Reachable) {j : Nat} {t : Tracker}
    (ht : c.system.tracker? j = some t) : t.Lawful (c.isClosing j) (c.eventsAt j) :=
  hc.atEach Tracker.Lawful.new (fun h hmove => h.move hmove) ht

end Course
end Reclaim
