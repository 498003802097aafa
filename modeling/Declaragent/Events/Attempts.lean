import Declaragent.Events.Requeue
import Declaragent.Library.Transition

/-!
# Events — the attempts of a dead letter

The dispatcher rejects an event, an operator requeues it, the dispatcher rejects the clone, and so
on.  A rejection counts an attempt in the row of the event's id; a requeue publishes its clone
under a fresh id and deletes the row of the original.  So the count starts again with each
requeue, whatever the event went through before.

* `Handles`: what the dispatcher does to the attempts when it handles an event.
* `Tallied.step`: how often an event and its clones were rejected, against what its row says.
* `attemptCount_eq_iff`: the row says so exactly for an event that was never requeued.
-/

namespace Declaragent.Events
open Transition

/-! ### Rejections and requeues, one after another -/

/-- What the hook leaves of an event. -/
def handledEvent (config : DispatcherConfig) (event : AgentEvent) : AgentEvent :=
  match config.before event with
  | .rewrites current => current
  | .passes | .drops | .throws _ => event

/-- The id of the event, where the dispatcher rejects it. -/
def rejectedId (config : DispatcherConfig) (d : Dispatcher) (event : AgentEvent) (now : Int) :
    Option String :=
  match (handleInternal config d event now).1 with
  | .ok (.rejected _ _) => some (handledEvent config event).id
  | _ => none

/-- The dispatcher, with the event each clone goes back to and the requeues in between, and how
often each event, itself or as a clone, was rejected. -/
structure AttemptsState where
  d : Dispatcher
  origin : String → String := fun id => id
  generation : String → Nat := fun _ => 0
  rejections : String → Nat := fun _ => 0

/-- The options may differ from step to step: a target that was broken is not so for good. -/
inductive AttemptsLabel where
  | publish (config : DispatcherConfig) (event : AgentEvent) (now : Int)
  | requeue (config : DispatcherConfig) (eventId newEventId : String) (dispatch : Bool)
      (now : Int)
  /-- An operator drops the dead letter. -/
  | drop (eventId : String)

/-- The rejection counts for the event it goes back to. -/
def AttemptsState.tally (s : AttemptsState) : Option String → String → Nat
  | none => s.rejections
  | some id => Function.update s.rejections (s.origin id) (s.rejections (s.origin id) + 1)

/-- The clone goes back to the event its original goes back to. -/
def AttemptsState.derive (s : AttemptsState) (eventId newEventId : String) : AttemptsState :=
  { s with
    origin := Function.update s.origin newEventId (s.origin eventId)
    generation := Function.update s.generation newEventId (s.generation eventId + 1) }

def attemptsStep (s : AttemptsState) : AttemptsLabel → Option AttemptsState
  | .publish config event now =>
    some { s with
      d := publish config s.d event now
      rejections := s.tally (rejectedId config (s.d.push config event) event now) }
  | .requeue config eventId newEventId dispatch now =>
    -- a fresh id is one that no event has
    if (s.d.store.get newEventId).isSome then none
    else
      match requeue config s.d eventId newEventId dispatch now, s.d.store.get eventId with
      | (.ok (.ok ..), d), some row =>
        let requeued := cloneEvent row.event newEventId now
        let before := if dispatch then s.d else s.d.push config requeued
        let s := s.derive eventId newEventId
        some { s with
          d := d
          rejections := s.tally (rejectedId config before requeued now) }
      | (_, d), _ => some { s with d := d }
  | .drop eventId =>
    some { s with d := { s.d with store := s.d.store.deleteRejection eventId } }

/-- The row of a dead letter counts every rejection of the event, the original and its clones. -/
def AttemptsState.Counts (s : AttemptsState) (row : EventRejectionRecord) : Prop :=
  row.attemptCount = s.rejections (s.origin row.eventId)

/-! ### What handling an event does to the attempts -/

/-- The store knows the id. -/
def Dispatcher.Known (d : Dispatcher) (id : String) : Prop := (d.store.get id).isSome

/-- What the store has stays, and a rejection is of a new event, which has its first attempt
then. -/
structure Handles (d d' : Dispatcher) (rejected : Option String) : Prop where
  known : ∀ id, d.Known id → d'.Known id
  kept : ∀ id, rejected ≠ some id →
    d'.store.attempts id = d.store.attempts id ∨ d'.store.attempts id = none
  counted : ∀ id, rejected = some id → ¬ d.Known id ∧ d'.Known id ∧
    (d.store.attempts id = none → d'.store.attempts id = some 1)

section
variable {config : DispatcherConfig} {d d' : Dispatcher} {event : AgentEvent} {now : Int}

theorem Handles.none_kept {rejected : Option String} (h : Handles d d' rejected) {id : String}
    (hne : rejected ≠ some id) (hnone : d.store.attempts id = none) :
    d'.store.attempts id = none := by
  rcases h.kept id hne with hsame | hgone
  · exact hsame.trans hnone
  · exact hgone

theorem Handles.row_kept {rejected : Option String} (h : Handles d d' rejected) {id : String}
    (hne : rejected ≠ some id) {n : Nat} (hrow : d'.store.attempts id = some n) :
    d.store.attempts id = some n := by
  rcases h.kept id hne with hsame | hgone
  · exact hsame.symm.trans hrow
  · rw [hgone] at hrow
    cases hrow

/-- What the store knows is not what is rejected. -/
theorem Handles.ne_of_known {rejected : Option String} (h : Handles d d' rejected) {id : String}
    (hknown : d.Known id) : rejected ≠ some id :=
  fun e => (h.counted id e).1 hknown

/-- A step that is no rejection and leaves the attempts. -/
theorem Handles.of_eq (hknown : ∀ id, d.Known id → d'.Known id)
    (h : ∀ id, d'.store.attempts id = d.store.attempts id) : Handles d d' none :=
  ⟨hknown, fun id _ => Or.inl (h id), fun _ hid => (by cases hid)⟩

/-- A rejection of a new event. -/
theorem Handles.of_rejection {id : String} (hknown : ∀ id, d.Known id → d'.Known id)
    (hnew : ¬ d.Known id) (hstored : d'.Known id)
    (h : ∀ other, d'.store.attempts other =
      if other = id then some ((d.store.attempts other).getD 0 + 1) else d.store.attempts other) :
    Handles d d' (some id) where
  known := hknown
  kept other hne := by
    have hother : ¬ other = id := fun e => hne (by rw [e])
    exact Or.inl (by rw [h, if_neg hother])
  counted other he := by
    cases he
    exact ⟨hnew, hstored, fun hnone => by rw [h, if_pos rfl, hnone]; rfl⟩

/-- The id a dispatch that comes to an outcome rejects. -/
def rejectedBy (event : AgentEvent) : DispatchOutcome → Option String
  | .rejected _ _ => some event.id
  | _ => none

theorem known_beginDispatch {id : String} (h : d.Known id) :
    (beginDispatch config d event now).2.Known id := by
  obtain ⟨row, hrow⟩ := Option.isSome_iff_exists.mp h
  exact Option.isSome_iff_exists.mpr ⟨row, get_beginDispatch hrow⟩

/-- A new event is known once it is taken on. -/
theorem known_beginDispatch_self (h : (firstSeen config d.cache d.store event now).1 = none) :
    (beginDispatch config d event now).2.Known event.id := by
  have hmem : event ∈ (beginDispatch config d event now).2.store.logged := by
    rw [(beginDispatch_spec h).2.1]
    exact List.mem_append_right _ (List.mem_singleton_self event)
  obtain ⟨row, hrow, -⟩ := EventStore.get_of_logged hmem
  exact Option.isSome_iff_exists.mpr ⟨row, hrow⟩

theorem known_settle {id : String} {outcome : DispatchOutcome} (h : d.Known id) :
    (d.settle event outcome now).Known id := by
  unfold Dispatcher.Known
  rw [get_settle, EventStore.get_markOutcome, Option.isSome_map]
  exact h

variable (config d event now)

/-- **The start of a dispatch** counts the rejections it comes to itself. -/
theorem handles_beginDispatch :
    Handles d (beginDispatch config d event now).2
      ((beginDispatch config d event now).1.bind (rejectedBy event)) := by
  have hknown : ∀ id, d.Known id → (beginDispatch config d event now).2.Known id :=
    fun _ h => known_beginDispatch h
  rcases hseen : firstSeen config d.cache d.store event now with ⟨_ | at_, cache⟩
  · have hfresh : (firstSeen config d.cache d.store event now).1 = none := by rw [hseen]
    have hstored := known_beginDispatch_self hfresh
    have hnew : ¬ d.Known event.id := by
      unfold Dispatcher.Known
      rw [EventStore.get_eq_none.mpr (firstSeen_eq_none hfresh)]
      simp
    simp only [beginDispatch, hseen, beginNew] at hknown hstored ⊢
    split at hknown
    · rename_i hloop
      rw [if_pos hloop] at hstored ⊢
      refine .of_rejection hknown hnew hstored fun other => ?_
      simp [Dispatcher.reject, Dispatcher.remember, EventStore.attempts_upsertRejection]
    · rename_i hloop
      rw [if_neg hloop] at hstored ⊢
      cases hrate : config.rateLimiter event.target with
      | some details =>
        rw [hrate] at hknown hstored
        refine .of_rejection hknown hnew hstored fun other => ?_
        simp [Dispatcher.reject, Dispatcher.remember, EventStore.attempts_upsertRejection]
      | none =>
        rw [hrate] at hknown
        refine .of_eq hknown fun other => ?_
        simp [Dispatcher.remember]
  · simp only [beginDispatch, hseen] at hknown ⊢
    exact .of_eq hknown fun _ => rfl

variable {config d event now} in
theorem attempts_settle (id : String) (outcome : DispatchOutcome) :
    (d.settle event outcome now).store.attempts id =
      match outcome with
      | .rejected _ _ =>
        if id = event.id then some ((d.store.attempts id).getD 0 + 1) else d.store.attempts id
      | .dispatched _ | .broadcast => if id = event.id then none else d.store.attempts id
      | .queued _ | .duplicate _ _ => d.store.attempts id := by
  unfold Dispatcher.settle
  cases outcome with
  | rejected reason details => simp [EventStore.attempts_upsertRejection]
  | dispatched sessionId => simp [EventStore.attempts_deleteRejection]
  | broadcast => simp [EventStore.attempts_deleteRejection]
  | queued reason => rfl
  | duplicate firstSeenAt eventId => rfl

variable {config d event now} in
/-- **The end of a dispatch** counts the rejection by the target. -/
theorem Handles.settle (h : Handles d d' none) (hnew : ¬ d.Known event.id)
    (hstored : d'.Known event.id) (outcome : DispatchOutcome) :
    Handles d (d'.settle event outcome now) (rejectedBy event outcome) := by
  have hkept : ∀ id, d'.store.attempts id = d.store.attempts id ∨ d'.store.attempts id = none :=
    fun id => h.kept id (by simp)
  refine ⟨fun id hid => known_settle (h.known id hid), fun id hne => ?_, fun id he => ?_⟩
  · rw [attempts_settle]
    cases outcome with
    | rejected reason details =>
      have hother : ¬ id = event.id := fun e => hne (by rw [e]; rfl)
      rw [if_neg hother]
      exact hkept id
    | dispatched sessionId =>
      dsimp only
      split
      · exact Or.inr rfl
      · exact hkept id
    | broadcast =>
      dsimp only
      split
      · exact Or.inr rfl
      · exact hkept id
    | queued reason => exact hkept id
    | duplicate firstSeenAt eventId => exact hkept id
  · cases outcome with
    | rejected reason details =>
      cases he
      refine ⟨hnew, known_settle hstored, fun hnone => ?_⟩
      rw [attempts_settle, if_pos rfl]
      rcases hkept event.id with hsame | hgone
      · rw [hsame, hnone]
        rfl
      · rw [hgone]
        rfl
    | dispatched sessionId => cases he
    | broadcast => cases he
    | queued reason => cases he
    | duplicate firstSeenAt eventId => cases he

theorem handles_dispatch :
    Handles d (dispatch config d event now).2
      (rejectedBy event (dispatch config d event now).1) := by
  have hbegin := handles_beginDispatch config d event now
  rw [dispatch_eq]
  rcases hb : beginDispatch config d event now with ⟨_ | outcome, d'⟩
  · rw [hb] at hbegin
    have hnone : (beginDispatch config d event now).1 = none := by rw [hb]
    have hnew : ¬ d.Known event.id := by
      unfold Dispatcher.Known
      rw [beginDispatch_started hnone]
      simp
    have hstored : d'.Known event.id := by
      have hself := known_beginDispatch_self (firstSeen_of_started hnone)
      rwa [hb] at hself
    exact hbegin.settle hnew hstored _
  · rw [hb] at hbegin
    exact hbegin

/-- **Handling an event**: a rejection is counted under the id of what the hook leaves of it. -/
theorem handles_handleInternal :
    Handles d (handleInternal config d event now).2 (rejectedId config d event now) := by
  have hself : Handles d d none := .of_eq (fun _ h => h) fun _ => rfl
  have hid : ∀ current, handledEvent config event = current →
      (handleInternal config d event now) =
        (.ok (dispatch config d current now).1, (dispatch config d current now).2) →
      Handles d (handleInternal config d event now).2 (rejectedId config d event now) := by
    intro current hcurrent he
    have hdispatch := handles_dispatch config d current now
    have hrejected : rejectedId config d event now =
        rejectedBy current (dispatch config d current now).1 := by
      unfold rejectedId rejectedBy
      rw [he, hcurrent]
      cases (dispatch config d current now).1 <;> rfl
    rw [he, hrejected]
    exact hdispatch
  cases hb : config.before event with
  | throws err => simpa [handleInternal, rejectedId, hb] using hself
  | drops => simpa [handleInternal, rejectedId, hb] using hself
  | passes => exact hid event (by simp [handledEvent, hb]) (by simp [handleInternal, hb])
  | rewrites current =>
    exact hid current (by simp [handledEvent, hb]) (by simp [handleInternal, hb])

end

/-- Deleting another event's row comes to the same before and after. -/
theorem Handles.drop {d d' : Dispatcher} {rejected : Option String} (h : Handles d d' rejected)
    {eventId : String} (hknown : d.Known eventId) :
    Handles { d with store := d.store.deleteRejection eventId }
      { d' with store := d'.store.deleteRejection eventId } rejected where
  known := h.known
  kept id hne := by
    dsimp only
    rw [EventStore.attempts_deleteRejection, EventStore.attempts_deleteRejection]
    split
    · exact Or.inl rfl
    · exact h.kept id hne
  counted id he := by
    obtain ⟨hnew, hstored, hcount⟩ := h.counted id he
    -- the rejected event is new, the deleted row's is not
    have hne : ¬ id = eventId := by
      rintro rfl
      exact hnew hknown
    refine ⟨hnew, hstored, ?_⟩
    dsimp only
    rw [EventStore.attempts_deleteRejection, EventStore.attempts_deleteRejection, if_neg hne,
      if_neg hne]
    exact hcount

/-! ### The tally -/

/-- No other event of the same origin is new or has a row. -/
def AttemptsState.Alone (s : AttemptsState) (id : String) : Prop :=
  ∀ other, other ≠ id → s.origin other = s.origin id →
    s.d.Known other ∧ s.d.store.attempts other = none

/-- A row counts one attempt, of an event that was rejected once more than it was requeued; a new
event was rejected as often as it was requeued. -/
structure Tallied (s : AttemptsState) : Prop where
  row : ∀ id n, s.d.store.attempts id = some n → n = 1 ∧ s.d.Known id ∧
    s.rejections (s.origin id) = s.generation id + 1 ∧ s.Alone id
  new : ∀ id, ¬ s.d.Known id → s.d.store.attempts id = none ∧
    s.rejections (s.origin id) = s.generation id ∧ s.Alone id

/-- **Handling an event keeps the tally.** -/
theorem Tallied.handle {s : AttemptsState} (h : Tallied s) {d : Dispatcher}
    {rejected : Option String} (hd : Handles s.d d rejected) :
    Tallied { s with d := d, rejections := s.tally rejected } := by
  have halone : ∀ id, s.Alone id →
      ({ s with d := d, rejections := s.tally rejected } : AttemptsState).Alone id := by
    intro id hid other hne ho
    obtain ⟨hknown, hnone⟩ := hid other hne ho
    exact ⟨hd.known other hknown, hd.none_kept (hd.ne_of_known hknown) hnone⟩
  -- a rejection counts for no other event that has a row or is new
  have htally : ∀ id, rejected ≠ some id → s.d.store.attempts id ≠ none ∨ ¬ s.d.Known id →
      s.tally rejected (s.origin id) = s.rejections (s.origin id) := by
    intro id hne hid
    cases rejected with
    | none => rfl
    | some rejected =>
      have ho : s.origin id ≠ s.origin rejected := by
        intro ho
        obtain ⟨hknown, hnone⟩ := (h.new rejected (hd.counted rejected rfl).1).2.2 id
          (fun e => hne (by rw [e])) ho
        exact hid.elim (fun hrow => hrow hnone) fun hnew => hnew hknown
      simp [AttemptsState.tally, ho]
  refine ⟨fun id n hrow => ?_, fun id hnew => ?_⟩
  · by_cases he : rejected = some id
    · subst he
      obtain ⟨hnew, hstored, hone⟩ := hd.counted id rfl
      obtain ⟨hnone, hcount, ha⟩ := h.new id hnew
      dsimp only at hrow
      rw [hone hnone] at hrow
      cases hrow
      exact ⟨rfl, hstored, by simp [AttemptsState.tally, hcount], halone id ha⟩
    · have hrow' := hd.row_kept he hrow
      obtain ⟨hone, hknown, hcount, ha⟩ := h.row id n hrow'
      exact ⟨hone, hd.known id hknown,
        (htally id he (Or.inl (by rw [hrow']; simp))).trans hcount, halone id ha⟩
  · have hunknown : ¬ s.d.Known id := fun hk => hnew (hd.known id hk)
    have he : rejected ≠ some id := fun e => hnew (hd.counted id e).2.1
    obtain ⟨hnone, hcount, ha⟩ := h.new id hunknown
    exact ⟨hd.none_kept he hnone, (htally id he (Or.inr hunknown)).trans hcount, halone id ha⟩

/-- A dead letter is dropped. -/
theorem Tallied.drop {s : AttemptsState} (h : Tallied s) (eventId : String) :
    Tallied { s with d := { s.d with store := s.d.store.deleteRejection eventId } } := by
  have hnone : ∀ id, s.d.store.attempts id = none →
      (s.d.store.deleteRejection eventId).attempts id = none := by
    intro id hid
    rw [EventStore.attempts_deleteRejection, hid, ite_self]
  have halone : ∀ id, s.Alone id →
      ({ s with d := { s.d with store := s.d.store.deleteRejection eventId } } :
        AttemptsState).Alone id := by
    intro id hid other hne ho
    obtain ⟨hknown, hn⟩ := hid other hne ho
    exact ⟨hknown, hnone other hn⟩
  refine ⟨fun id n hrow => ?_, fun id hnew => ?_⟩
  · dsimp only at hrow
    rw [EventStore.attempts_deleteRejection] at hrow
    split at hrow
    · cases hrow
    · obtain ⟨hone, hknown, hcount, ha⟩ := h.row id n hrow
      exact ⟨hone, hknown, hcount, halone id ha⟩
  · obtain ⟨hn, hcount, ha⟩ := h.new id hnew
    exact ⟨hnone id hn, hcount, halone id ha⟩

/-- **A requeue moves the tally** from the row it deletes to its clone, which is new. -/
theorem Tallied.derive {s : AttemptsState} (h : Tallied s) {eventId newEventId : String} {n : Nat}
    (hrow : s.d.store.attempts eventId = some n) (hnew : ¬ s.d.Known newEventId) :
    Tallied { s.derive eventId newEventId with
      d := { s.d with store := s.d.store.deleteRejection eventId } } := by
  obtain ⟨-, hknown, hcount, halone⟩ := h.row eventId n hrow
  have hdropped := h.drop eventId
  have horigin : ∀ id, id ≠ newEventId → (s.derive eventId newEventId).origin id = s.origin id :=
    fun id hne => Function.update_of_ne hne _ _
  have hgeneration : ∀ id, id ≠ newEventId →
      (s.derive eventId newEventId).generation id = s.generation id :=
    fun id hne => Function.update_of_ne hne _ _
  have hself : (s.derive eventId newEventId).origin newEventId = s.origin eventId :=
    Function.update_self ..
  -- an event apart from the requeued one is apart from its clone
  have hapart : ∀ id, id ≠ newEventId →
      (s.d.store.deleteRejection eventId).attempts id ≠ none ∨ ¬ s.d.Known id →
      s.origin id ≠ s.origin eventId := by
    intro id hne hid ho
    rw [EventStore.attempts_deleteRejection] at hid
    by_cases he : id = eventId
    · simp [he, hknown] at hid
    · obtain ⟨hk, hn⟩ := halone id he ho
      simp [he, hn, hk] at hid
  have hothers : ∀ id, id ≠ newEventId → s.origin id ≠ s.origin eventId →
      ({ s with d := { s.d with store := s.d.store.deleteRejection eventId } } :
        AttemptsState).Alone id →
      ({ s.derive eventId newEventId with
          d := { s.d with store := s.d.store.deleteRejection eventId } } :
        AttemptsState).Alone id := by
    intro id hne ho ha other hother hsame
    dsimp only at hsame
    rw [horigin id hne] at hsame
    by_cases he : other = newEventId
    · rw [he, hself] at hsame
      exact absurd hsame.symm ho
    · rw [horigin other he] at hsame
      exact ha other hother hsame
  refine ⟨fun id m hid => ?_, fun id hid => ?_⟩
  · obtain ⟨hone, hk, hc, ha⟩ := hdropped.row id m hid
    have hne : id ≠ newEventId := by
      rintro rfl
      exact hnew hk
    have ho := hapart id hne (Or.inl (by dsimp only at hid; rw [hid]; simp))
    refine ⟨hone, hk, ?_, hothers id hne ho ha⟩
    dsimp only
    rw [horigin id hne, hgeneration id hne]
    exact hc
  · obtain ⟨hn, hc, ha⟩ := hdropped.new id hid
    by_cases hne : id = newEventId
    · subst hne
      refine ⟨hn, ?_, fun other hother hsame => ?_⟩
      · dsimp only
        rw [hself]
        simpa [AttemptsState.derive] using hcount
      · dsimp only at hsame ⊢
        rw [hself, horigin other hother] at hsame
        rw [EventStore.attempts_deleteRejection]
        by_cases he : other = eventId
        · exact ⟨he ▸ hknown, by rw [if_pos he]⟩
        · obtain ⟨hk, hno⟩ := halone other he hsame
          exact ⟨hk, by rw [if_neg he, hno]⟩
    · have ho := hapart id hne (Or.inr hid)
      refine ⟨hn, ?_, hothers id hne ho ha⟩
      dsimp only
      rw [horigin id hne, hgeneration id hne]
      exact hc

/-- **Each step keeps the tally.** -/
theorem Tallied.step {s s' : AttemptsState} (h : Tallied s) {a : AttemptsLabel}
    (hstep : attemptsStep s a = some s') : Tallied s' := by
  cases a with
  | publish config event now =>
    cases hstep
    have hd := handles_handleInternal config (s.d.push config event) event now
    exact h.handle ⟨hd.known, hd.kept, hd.counted⟩
  | drop eventId =>
    cases hstep
    exact h.drop eventId
  | requeue config eventId newEventId dispatch now =>
    simp only [attemptsStep] at hstep
    split at hstep
    · cases hstep
    · rename_i hfresh
      unfold requeue at hstep
      cases hrejection : s.d.store.getRejection eventId with
      | none =>
        simp only [hrejection, Option.some.injEq] at hstep
        subst hstep
        exact h
      | some rejection =>
        cases hget : s.d.store.get eventId with
        | none =>
          simp only [hrejection, hget, Option.some.injEq] at hstep
          subst hstep
          exact h
        | some row =>
          have hattempts : s.d.store.attempts eventId = some rejection.attemptCount := by
            rw [EventStore.attempts, hrejection]
            rfl
          have hknown := (h.row eventId _ hattempts).2.1
          have hderived := h.derive hattempts hfresh
          let clone := cloneEvent row.event newEventId now
          cases dispatch with
          | false =>
            simp only [hrejection, hget, Bool.false_eq_true, if_false,
              Option.some.injEq] at hstep
            subst hstep
            have hd := handles_handleInternal config (s.d.push config clone) clone now
            have hd' : Handles s.d (publish config s.d clone now) _ :=
              ⟨hd.known, hd.kept, hd.counted⟩
            exact hderived.handle (hd'.drop hknown)
          | true =>
            have hd := handles_handleInternal config s.d clone now
            rcases hr : handleInternal config s.d clone now with ⟨err | outcome, d'⟩
            · -- the hook threw, and the dead letter stays
              have hnone : rejectedId config s.d clone now = none := by
                unfold rejectedId
                rw [hr]
              rw [hr, hnone] at hd
              simp only [hrejection, hget, if_true, hr, clone,
                Option.some.injEq] at hstep
              subst hstep
              exact h.handle hd
            · rw [hr] at hd
              simp only [hrejection, hget, if_true, hr, clone,
                Option.some.injEq] at hstep
              subst hstep
              exact hderived.handle (hd.drop hknown)

/-! ### The count of a dead letter -/

theorem tallied_start {d : Dispatcher} (hempty : d.store.rejections = []) :
    Tallied ({ d := d } : AttemptsState) := by
  have hnone : ∀ id, d.store.attempts id = none := by
    intro id
    rw [EventStore.attempts, EventStore.getRejection_eq_none.mpr (by simp [hempty])]
    rfl
  refine ⟨fun id n hrow => ?_, fun id _ => ⟨hnone id, rfl, fun other hne ho => absurd ho hne⟩⟩
  rw [hnone id] at hrow
  cases hrow

/-- **What the row of a dead letter counts.**  In every run of rejections, requeues and drops that
starts without dead letters, each row counts one attempt, while its event was rejected once more
than it was requeued: so the row counts every rejection exactly where its event was never
requeued. -/
theorem attemptCount_eq_iff (d : Dispatcher) (hempty : d.store.rejections = [])
    (as : List AttemptsLabel) (s : AttemptsState) (r : Run attemptsStep Any { d := d } as s) :
    ∀ row ∈ s.d.store.rejections, row.attemptCount = 1 ∧
      s.rejections (s.origin row.eventId) = s.generation row.eventId + 1 ∧
      (s.Counts row ↔ s.generation row.eventId = 0) := by
  intro row hrow
  have htallied : Tallied s :=
    r.invariant (tallied_start hempty) fun _ _ _ h _ hstep => h.step hstep
  have hattempts : s.d.store.attempts row.eventId = some row.attemptCount := by
    rw [EventStore.attempts, EventStore.getRejection_of_mem hrow]
    rfl
  obtain ⟨hone, -, hcount, -⟩ := htallied.row row.eventId row.attemptCount hattempts
  refine ⟨hone, hcount, ?_⟩
  unfold AttemptsState.Counts
  rw [hone, hcount]
  exact ⟨fun h => by simpa using h.symm, fun h => by rw [h]⟩

/-! ### A poison event -/

/-- Every target throws. -/
def poisonConfig : DispatcherConfig where
  executeTarget _ := .error "boom"

/-- The event is rejected, requeued, and its clone rejected: its row counts one attempt, not
two. -/
theorem poison_counts_one : ¬ ∀ (d : Dispatcher), d.store.rejections = [] →
    ∀ (as : List AttemptsLabel) (s : AttemptsState), Run attemptsStep Any { d := d } as s →
      ∀ row ∈ s.d.store.rejections, s.Counts row := by
  intro h
  have r : Run attemptsStep Any { d := createEventDispatcher .empty }
      [.publish poisonConfig (rejectedEvent (.self "wakeup")) 0,
        .requeue poisonConfig "e1" "e2" true 1] _ :=
    .snoc (.snoc .nil trivial rfl) trivial rfl
  have hcounts := h (createEventDispatcher .empty) rfl _ _ r _ (List.mem_singleton_self _)
  cases hcounts

/-- Before it is requeued, the row counts its one rejection. -/
theorem attemptCount_eq_iff_poison : ∃ s, Run attemptsStep Any { d := createEventDispatcher .empty }
      [.publish poisonConfig (rejectedEvent (.self "wakeup")) 0] s ∧
    s.d.store.rejections ≠ [] ∧ ∀ row ∈ s.d.store.rejections, s.Counts row := by
  have r : Run attemptsStep Any { d := createEventDispatcher .empty }
      [.publish poisonConfig (rejectedEvent (.self "wakeup")) 0] _ := .snoc .nil trivial rfl
  refine ⟨_, r, List.cons_ne_nil _ _, fun row hrow => ?_⟩
  exact ((attemptCount_eq_iff (createEventDispatcher .empty) rfl _ _ r row hrow).2.2).mpr rfl

end Declaragent.Events
