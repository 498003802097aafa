import Declaragent.Library.Transition

/-!
# Sources — acknowledgement after dispatch

In the `after-dispatch` mode a delivery is registered once `publish()` resolves: its ack handle
goes into `pendingAcks` under the id of its event, and a timer is started.  The `event.after`
hook acks what it finds under the id it is fired with, and clears the timer; the timer, when it
runs out, drops the entry and nacks its own delivery.

`settleStep` is the interleaving, for any number of deliveries `ι`: registrations, hooks and
timers in any order.  The dispatcher runs beside `publish()`, so the hook of a delivery may fire
before the delivery is registered, and two events may share an id.

* `Counted` holds on every run: a delivery that was registered is acked at most once or nacked
  at most once, and not both.
* `Exact` holds where each hook fires after its registration, with the id registered, and no
  registration takes an id that is pending (`Orderly`).
* `acked_exactly_once` is what the deliveries then see.
-/

namespace Declaragent.Sources
open Transition

/-- The timer of a delivery, with the event id it was registered under. -/
inductive Timer where
  | unset
  | armed (eventId : String)
  | cleared (eventId : String)
  | expired (eventId : String)
  deriving DecidableEq

/-- Whether the `event.after` hook of the delivery's own event fired, and when. -/
inductive Hook where
  | waiting
  | inTime
  | late
  deriving DecidableEq

/-- What became of a delivery: the calls made on its ack handle. -/
structure Delivery where
  timer : Timer
  hook : Hook
  acks : Nat
  nacks : Nat
  deriving DecidableEq

def Delivery.new : Delivery := ⟨.unset, .waiting, 0, 0⟩

/-- The map of pending acks, and the deliveries. -/
structure Settlement (ι : Type) where
  pendingAcks : String → Option ι
  delivery : ι → Delivery

def Settlement.init (ι : Type) : Settlement ι := ⟨fun _ => none, fun _ => .new⟩

/-- `setTimeout`, with the event id its callback closes over. -/
def Delivery.arm (eventId : String) (d : Delivery) : Delivery :=
  { d with timer := .armed eventId }

/-- `clearTimeout` and `ctx.ack()`; an error of the ack is only logged. -/
def Delivery.settle (eventId : String) (d : Delivery) : Delivery :=
  { d with timer := .cleared eventId, acks := d.acks + 1 }

/-- The timer has run out: `ack.nack()`; an error of the nack is only logged. -/
def Delivery.expire (eventId : String) (d : Delivery) : Delivery :=
  { d with timer := .expired eventId, nacks := d.nacks + 1 }

/-- The hook of the delivery's own event fires. -/
def Delivery.observe (d : Delivery) : Delivery :=
  match d.timer with
  | .expired _ => { d with hook := .late }
  | _ => { d with hook := .inTime }

section
variable {ι : Type} [DecidableEq ι]

def Settlement.modify (s : Settlement ι) (i : ι) (f : Delivery → Delivery) : Settlement ι :=
  { s with delivery := Function.update s.delivery i (f (s.delivery i)) }

def Settlement.setPending (s : Settlement ι) (eventId : String) (i? : Option ι) : Settlement ι :=
  { s with pendingAcks := Function.update s.pendingAcks eventId i? }

def registerPendingAck (s : Settlement ι) (eventId : String) (i : ι) : Settlement ι :=
  (s.modify i (.arm eventId)).setPending eventId (some i)

/-- The `event.after` listener. -/
def onEventAfter (s : Settlement ι) (eventId : String) : Settlement ι :=
  match s.pendingAcks eventId with
  | none => s
  | some i => (s.setPending eventId none).modify i (.settle eventId)

/-- The timer's callback. -/
def onAckTimeout (s : Settlement ι) (eventId : String) (i : ι) : Settlement ι :=
  (s.setPending eventId none).modify i (.expire eventId)

inductive SettleLabel (ι : Type) where
  /-- `publish()` resolved, and the delivery is registered. -/
  | register (i : ι) (eventId : String)
  /-- `event.after` fired for the delivery's event, which has this id by then. -/
  | after (i : ι) (eventId : String)
  /-- `event.after` fired for an event of no delivery here. -/
  | afterOther (eventId : String)
  | timeout (i : ι)

def settleStep (s : Settlement ι) : SettleLabel ι → Option (Settlement ι)
  | .register i eventId =>
    if (s.delivery i).timer = .unset then some (registerPendingAck s eventId i) else none
  | .after i eventId =>
    if (s.delivery i).hook = .waiting then some ((onEventAfter s eventId).modify i .observe)
    else none
  | .afterOther eventId => some (onEventAfter s eventId)
  | .timeout i =>
    match (s.delivery i).timer with
    | .armed eventId => some (onAckTimeout s eventId i)
    | _ => none

@[simp] theorem modify_pendingAcks (s : Settlement ι) (i : ι) (f : Delivery → Delivery) :
    (s.modify i f).pendingAcks = s.pendingAcks := rfl

@[simp] theorem modify_delivery_self (s : Settlement ι) (i : ι) (f : Delivery → Delivery) :
    (s.modify i f).delivery i = f (s.delivery i) := by
  simp [Settlement.modify]

theorem modify_delivery_of_ne (s : Settlement ι) {i j : ι} (h : j ≠ i)
    (f : Delivery → Delivery) : (s.modify i f).delivery j = s.delivery j := by
  simp [Settlement.modify, h]

omit [DecidableEq ι] in
@[simp] theorem setPending_delivery (s : Settlement ι) (eventId : String) (i? : Option ι) :
    (s.setPending eventId i?).delivery = s.delivery := rfl

omit [DecidableEq ι] in
@[simp] theorem setPending_self (s : Settlement ι) (eventId : String) (i? : Option ι) :
    (s.setPending eventId i?).pendingAcks eventId = i? := by
  simp [Settlement.setPending]

omit [DecidableEq ι] in
theorem setPending_of_ne (s : Settlement ι) {eventId id' : String} (h : id' ≠ eventId)
    (i? : Option ι) : (s.setPending eventId i?).pendingAcks id' = s.pendingAcks id' := by
  simp [Settlement.setPending, h]

/-! ### What holds on every run -/

/-- The calls a delivery has made, told from its timer; `a` and `n` are those it made without
being registered. -/
def Delivery.Counted (a n : Nat) (d : Delivery) : Prop :=
  match d.timer with
  | .unset => d.acks = a ∧ d.nacks = n
  | .armed _ => d.acks = 0 ∧ d.nacks = 0
  | .cleared _ => d.acks = 1 ∧ d.nacks = 0
  | .expired _ => d.acks = 0 ∧ d.nacks = 1

/-- The calls of delivery `i` are counted, and it is pending only while its timer runs. -/
structure Counted (i : ι) (a n : Nat) (s : Settlement ι) : Prop where
  counted : (s.delivery i).Counted a n
  pending : ∀ eventId, s.pendingAcks eventId = some i → (s.delivery i).timer = .armed eventId

theorem Delivery.Counted.observe {a n : Nat} {d : Delivery} (h : d.Counted a n) :
    d.observe.Counted a n := by
  obtain ⟨timer, hook, acks, nacks⟩ := d
  cases timer <;> exact h

@[simp] theorem Delivery.observe_timer (d : Delivery) : d.observe.timer = d.timer := by
  obtain ⟨timer, hook, acks, nacks⟩ := d
  cases timer <;> rfl

variable {s t : Settlement ι} {i j : ι} {a n : Nat} {eventId : String}

theorem Counted.modify_of_ne (h : Counted i a n s) (hne : i ≠ j) (f : Delivery → Delivery) :
    Counted i a n (s.modify j f) := by
  obtain ⟨hc, hp⟩ := h
  exact ⟨by rwa [modify_delivery_of_ne _ hne], fun id' hi => by
    rw [modify_delivery_of_ne _ hne]; exact hp id' hi⟩

omit [DecidableEq ι] in
theorem Counted.setPending_none (h : Counted i a n s) :
    Counted i a n (s.setPending eventId none) where
  counted := h.counted
  pending id' hi := by
    by_cases e : id' = eventId
    · subst e; simp at hi
    · rw [setPending_of_ne _ e] at hi; exact h.pending id' hi

omit [DecidableEq ι] in
/-- A delivery whose entry is gone is not pending under any id. -/
theorem Counted.not_pending (h : Counted i a n s) (ht : (s.delivery i).timer = .armed eventId)
    (id' : String) : (s.setPending eventId none).pendingAcks id' ≠ some i := by
  intro hi
  by_cases e : id' = eventId
  · subst e; simp at hi
  · rw [setPending_of_ne _ e] at hi
    have := (h.pending id' hi).symm.trans ht
    exact e (Timer.armed.inj this)

theorem Counted.observe (h : Counted i a n s) : Counted i a n (s.modify j .observe) := by
  by_cases e : i = j
  · subst e
    exact ⟨by simpa using h.counted.observe, fun id' hi => by simpa using h.pending id' hi⟩
  · exact h.modify_of_ne e _

theorem Counted.onEventAfter (h : Counted i a n s) : Counted i a n (onEventAfter s eventId) := by
  unfold Sources.onEventAfter
  cases hp : s.pendingAcks eventId with
  | none => exact h
  | some j =>
    by_cases e : i = j
    · subst e
      have ht := h.pending eventId hp
      have hc := h.counted
      simp only [Delivery.Counted, ht] at hc
      exact ⟨by simp [Delivery.Counted, Delivery.settle, hc],
        fun id' hi => absurd hi (h.not_pending ht id')⟩
    · exact h.setPending_none.modify_of_ne e _

theorem Counted.onAckTimeout (h : Counted i a n s) (ht : (s.delivery j).timer = .armed eventId) :
    Counted i a n (onAckTimeout s eventId j) := by
  by_cases e : i = j
  · subst e
    have hc := h.counted
    simp only [Delivery.Counted, ht] at hc
    exact ⟨by simp [Sources.onAckTimeout, Delivery.Counted, Delivery.expire, hc],
      fun id' hi => absurd hi (h.not_pending ht id')⟩
  · exact h.setPending_none.modify_of_ne e _

theorem Counted.register (h : Counted i a n s) (hj : (s.delivery j).timer = .unset)
    (h0 : j = i → a = 0 ∧ n = 0) : Counted i a n (registerPendingAck s eventId j) := by
  by_cases e : i = j
  · subst e
    have hc := h.counted
    simp only [Delivery.Counted, hj] at hc
    refine ⟨by simp [registerPendingAck, Delivery.Counted, Delivery.arm, hc, h0 rfl],
      fun id' hi => ?_⟩
    by_cases e : id' = eventId
    · subst e; simp [registerPendingAck, Delivery.arm]
    · have := h.pending id' (by simpa [registerPendingAck, setPending_of_ne _ e] using hi)
      rw [hj] at this; cases this
  · have h' := h.modify_of_ne e (Delivery.arm eventId)
    refine ⟨h'.counted, fun id' hi => h'.pending id' ?_⟩
    by_cases e' : id' = eventId
    · subst e'
      simp only [registerPendingAck, setPending_self, Option.some.injEq] at hi
      exact absurd hi.symm e
    · simpa [registerPendingAck, setPending_of_ne _ e'] using hi

/-- The steps of a settlement, one case for each label. -/
inductive SettleTaken (s : Settlement ι) : SettleLabel ι → Settlement ι → Prop where
  | register {j : ι} (hj : (s.delivery j).timer = .unset) (eventId : String) :
      SettleTaken s (.register j eventId) (registerPendingAck s eventId j)
  | after {j : ι} (hj : (s.delivery j).hook = .waiting) (eventId : String) :
      SettleTaken s (.after j eventId) ((onEventAfter s eventId).modify j .observe)
  | afterOther (eventId : String) : SettleTaken s (.afterOther eventId) (onEventAfter s eventId)
  | timeout {j : ι} {eventId : String} (hj : (s.delivery j).timer = .armed eventId) :
      SettleTaken s (.timeout j) (onAckTimeout s eventId j)

theorem taken_of_settleStep {label : SettleLabel ι} (hstep : settleStep s label = some t) :
    SettleTaken s label t := by
  cases label with
  | register j eventId =>
    simp only [settleStep, Option.ite_none_right_eq_some, Option.some.injEq] at hstep
    obtain ⟨hj, rfl⟩ := hstep
    exact .register hj eventId
  | after j eventId =>
    simp only [settleStep, Option.ite_none_right_eq_some, Option.some.injEq] at hstep
    obtain ⟨hj, rfl⟩ := hstep
    exact .after hj eventId
  | afterOther eventId =>
    cases hstep
    exact .afterOther eventId
  | timeout j =>
    simp only [settleStep] at hstep
    split at hstep
    · cases hstep
      exact .timeout ‹_›
    · cases hstep

/-- **One step**, of any delivery, keeps the count of `i`'s calls. -/
theorem Counted.step {label : SettleLabel ι} (h : Counted i a n s)
    (h0 : ∀ eventId, label = .register i eventId → a = 0 ∧ n = 0)
    (hstep : settleStep s label = some t) : Counted i a n t := by
  cases taken_of_settleStep hstep with
  | register hj eventId => exact h.register hj fun e => h0 eventId (e ▸ rfl)
  | after hj eventId => exact h.onEventAfter.observe
  | afterOther eventId => exact h.onEventAfter
  | timeout hj => exact h.onAckTimeout hj

/-- The steps in which delivery `i` is not registered. -/
def NotRegistering (i : ι) (_ : Settlement ι) (label : SettleLabel ι) : Prop :=
  ∀ eventId, label ≠ .register i eventId

theorem onEventAfter_timer_unset (h : Counted i a n s) (hu : (s.delivery i).timer = .unset) :
    ((onEventAfter s eventId).delivery i).timer = .unset := by
  unfold onEventAfter
  cases hp : s.pendingAcks eventId with
  | none => exact hu
  | some j =>
    have hne : i ≠ j := by
      rintro rfl
      have := h.pending eventId hp
      rw [hu] at this; cases this
    exact (congrArg Delivery.timer (modify_delivery_of_ne _ hne _)).trans hu

/-- A delivery that is not registered keeps no timer. -/
theorem Counted.step_unset {label : SettleLabel ι} (h : Counted i a n s)
    (hC : NotRegistering i s label) (hu : (s.delivery i).timer = .unset)
    (hstep : settleStep s label = some t) : (t.delivery i).timer = .unset := by
  cases taken_of_settleStep hstep with
  | @register j hj eventId =>
    have hne : i ≠ j := by rintro rfl; exact hC eventId rfl
    simpa [registerPendingAck, modify_delivery_of_ne _ hne] using hu
  | @after j hj eventId =>
    have hu' : ((Sources.onEventAfter s eventId).delivery i).timer = .unset :=
      onEventAfter_timer_unset h hu
    by_cases e : i = j
    · subst e; simpa using hu'
    · rwa [modify_delivery_of_ne _ e]
  | afterOther eventId => exact onEventAfter_timer_unset h hu
  | @timeout j eventId hj =>
    have hne : i ≠ j := by rintro rfl; rw [hu] at hj; cases hj
    rw [Sources.onAckTimeout, modify_delivery_of_ne _ hne]
    exact hu

/-- The calls of a delivery that is not registered again, over any run. -/
theorem Counted.of_run {labels : List (SettleLabel ι)} (h : Counted i a n s)
    (r : Run settleStep (NotRegistering i) s labels t) : Counted i a n t :=
  Run.invariant h (fun _ _ _ hs hC hstep => hs.step (fun id' e => absurd e (hC id')) hstep) r

/-- A delivery that is never registered makes no further call. -/
theorem Counted.of_run_unset {labels : List (SettleLabel ι)} (h : Counted i a n s)
    (hu : (s.delivery i).timer = .unset) (r : Run settleStep (NotRegistering i) s labels t) :
    (t.delivery i).acks = a ∧ (t.delivery i).nacks = n := by
  have key : Counted i a n t ∧ (t.delivery i).timer = .unset :=
    Run.invariant (P := fun s => Counted i a n s ∧ (s.delivery i).timer = .unset) ⟨h, hu⟩
      (fun _ _ _ hs hC hstep =>
        ⟨hs.1.step (fun id' e => absurd e (hC id')) hstep, hs.1.step_unset hC hs.2 hstep⟩) r
  have hc := key.1.counted
  simpa [Delivery.Counted, key.2] using hc

/-! ### Hooks after registrations -/

/-- The id a delivery is or was registered under. -/
def Timer.eventId? : Timer → Option String
  | .unset => none
  | .armed eventId | .cleared eventId | .expired eventId => some eventId

/-- A delivery is registered only under an id that is not pending, and its hook fires only after
that, with that id. -/
def Orderly (s : Settlement ι) : SettleLabel ι → Prop
  | .register _ eventId => s.pendingAcks eventId = none
  | .after i eventId => (s.delivery i).timer.eventId? = some eventId
  | .afterOther _ | .timeout _ => True

/-- Each running timer has its entry, and the hook of its delivery is still to fire. -/
structure Exact (s : Settlement ι) : Prop where
  counted : ∀ i, Counted i 0 0 s
  armed : ∀ i eventId, (s.delivery i).timer = .armed eventId →
    s.pendingAcks eventId = some i ∧ (s.delivery i).hook = .waiting
  unset : ∀ i, (s.delivery i).timer = .unset → (s.delivery i).hook = .waiting
  expired : ∀ i eventId, (s.delivery i).timer = .expired eventId → (s.delivery i).hook ≠ .inTime

omit [DecidableEq ι] in
theorem Exact.init : Exact (Settlement.init ι) where
  counted _ := ⟨⟨rfl, rfl⟩, fun _ h => by cases h⟩
  armed _ _ h := by cases h
  unset _ _ := rfl
  expired _ _ h := by cases h

/-- Taking a running delivery `j` off the map, and stopping its timer. -/
theorem Exact.takeOff (h : Exact s) (ht : (s.delivery j).timer = .armed eventId)
    {f : Delivery → Delivery} (hf : (f (s.delivery j)).timer.eventId? = some eventId)
    (hstopped : (f (s.delivery j)).timer ≠ .armed eventId)
    (hhook : (f (s.delivery j)).hook = (s.delivery j).hook)
    (hc : ∀ i, Counted i 0 0 ((s.setPending eventId none).modify j f)) :
    Exact ((s.setPending eventId none).modify j f) where
  counted := hc
  armed i id' hi := by
    by_cases e : i = j
    · subst e
      rw [modify_delivery_self, setPending_delivery] at hi
      rw [hi] at hf hstopped
      exact absurd (congrArg Timer.armed (Option.some.inj hf)) hstopped
    · rw [modify_delivery_of_ne _ e, setPending_delivery] at hi ⊢
      -- two running deliveries have different ids, so the other one keeps its entry
      have hne : id' ≠ eventId := by
        rintro rfl
        exact e (Option.some.inj ((h.armed i id' hi).1.symm.trans (h.armed j id' ht).1))
      rw [modify_pendingAcks, setPending_of_ne _ hne]
      exact h.armed i id' hi
  unset i hi := by
    by_cases e : i = j
    · subst e
      rw [modify_delivery_self, setPending_delivery] at hi
      rw [hi] at hf; cases hf
    · rw [modify_delivery_of_ne _ e] at hi ⊢; exact h.unset i hi
  expired i id' hi := by
    by_cases e : i = j
    · subst e
      rw [modify_delivery_self, setPending_delivery, hhook, (h.armed i eventId ht).2]
      decide
    · rw [modify_delivery_of_ne _ e] at hi ⊢; exact h.expired i id' hi

theorem Exact.onEventAfter (h : Exact s) : Exact (onEventAfter s eventId) := by
  have hc : ∀ i, Counted i 0 0 (Sources.onEventAfter s eventId) := fun i =>
    (h.counted i).onEventAfter
  unfold Sources.onEventAfter at hc ⊢
  cases hp : s.pendingAcks eventId with
  | none => exact h
  | some j =>
    rw [hp] at hc
    exact h.takeOff ((h.counted j).pending eventId hp) rfl (by simp [Delivery.settle]) rfl hc

theorem Exact.onAckTimeout (h : Exact s) (ht : (s.delivery j).timer = .armed eventId) :
    Exact (onAckTimeout s eventId j) :=
  h.takeOff ht rfl (by simp [Delivery.expire]) rfl fun i => (h.counted i).onAckTimeout ht

theorem Exact.register (h : Exact s) (hj : (s.delivery j).timer = .unset)
    (hfree : s.pendingAcks eventId = none) : Exact (registerPendingAck s eventId j) where
  counted i := (h.counted i).register hj fun _ => ⟨rfl, rfl⟩
  armed i id' hi := by
    unfold registerPendingAck at hi ⊢
    rw [setPending_delivery] at hi ⊢
    by_cases e : i = j
    · subst e
      simp only [modify_delivery_self, Delivery.arm, Timer.armed.injEq] at hi
      subst hi
      exact ⟨by simp, by simpa [Delivery.arm] using h.unset i hj⟩
    · rw [modify_delivery_of_ne _ e] at hi ⊢
      obtain ⟨hp, hw⟩ := h.armed i id' hi
      have hne : id' ≠ eventId := by rintro rfl; rw [hfree] at hp; cases hp
      exact ⟨by rw [setPending_of_ne _ hne]; exact hp, hw⟩
  unset i hi := by
    unfold registerPendingAck at hi ⊢
    rw [setPending_delivery] at hi ⊢
    by_cases e : i = j
    · subst e; simp [Delivery.arm] at hi
    · rw [modify_delivery_of_ne _ e] at hi ⊢; exact h.unset i hi
  expired i id' hi := by
    unfold registerPendingAck at hi ⊢
    rw [setPending_delivery] at hi ⊢
    by_cases e : i = j
    · subst e; simp [Delivery.arm] at hi
    · rw [modify_delivery_of_ne _ e] at hi ⊢; exact h.expired i id' hi

/-- The hook of a delivery whose timer was stopped is noted. -/
theorem Exact.observe (h : Exact s) (hset : (s.delivery j).timer ≠ .unset)
    (hstopped : ∀ eventId, (s.delivery j).timer ≠ .armed eventId) :
    Exact (s.modify j .observe) where
  counted i := (h.counted i).observe
  armed i id' hi := by
    by_cases e : i = j
    · subst e
      rw [modify_delivery_self, Delivery.observe_timer] at hi
      exact absurd hi (hstopped id')
    · rw [modify_delivery_of_ne _ e] at hi ⊢; exact h.armed i id' hi
  unset i hi := by
    by_cases e : i = j
    · subst e
      rw [modify_delivery_self, Delivery.observe_timer] at hi
      exact absurd hi hset
    · rw [modify_delivery_of_ne _ e] at hi ⊢; exact h.unset i hi
  expired i id' hi := by
    by_cases e : i = j
    · subst e
      rw [modify_delivery_self, Delivery.observe_timer] at hi
      rw [modify_delivery_self]
      simp [Delivery.observe, hi]
    · rw [modify_delivery_of_ne _ e] at hi ⊢; exact h.expired i id' hi

/-- The listener stops the timer of the delivery its id was registered for. -/
theorem Exact.stopped_of_onEventAfter (h : Exact s)
    (hj : (s.delivery j).timer.eventId? = some eventId) :
    ((Sources.onEventAfter s eventId).delivery j).timer ≠ .unset ∧
      ∀ id', ((Sources.onEventAfter s eventId).delivery j).timer ≠ .armed id' := by
  cases ht : (s.delivery j).timer with
  | unset => rw [ht] at hj; cases hj
  | armed id' =>
    rw [ht] at hj
    obtain rfl := Option.some.inj hj
    simp [Sources.onEventAfter, (h.armed j _ ht).1, Delivery.settle]
  | cleared id' | expired id' =>
    -- `j` is no longer pending, so the listener settles another delivery or none
    have hsame : ((Sources.onEventAfter s eventId).delivery j).timer = (s.delivery j).timer := by
      unfold Sources.onEventAfter
      cases hp : s.pendingAcks eventId with
      | none => rfl
      | some k =>
        have hne : j ≠ k := by
          rintro rfl
          have := (h.counted j).pending eventId hp
          rw [ht] at this; cases this
        exact congrArg Delivery.timer (modify_delivery_of_ne _ hne _)
    rw [hsame, ht]
    exact ⟨by simp, by simp⟩

/-- **One orderly step** keeps the map exact. -/
theorem Exact.step {label : SettleLabel ι} (h : Exact s) (ho : Orderly s label)
    (hstep : settleStep s label = some t) : Exact t := by
  cases taken_of_settleStep hstep with
  | register hj eventId => exact h.register hj ho
  | after hj eventId =>
    obtain ⟨hset, hstopped⟩ := h.stopped_of_onEventAfter ho
    exact h.onEventAfter.observe hset hstopped
  | afterOther eventId => exact h.onEventAfter
  | timeout hj => exact h.onAckTimeout hj

/-- The delivery's hook fired, or its ack handle was called. -/
def Delivery.Settled (d : Delivery) : Prop := d.hook ≠ .waiting ∨ 0 < d.acks + d.nacks

/-- **Acknowledgement is exact.**  In an orderly run, each delivery whose hook fired before its
timer ran out was acked once and never nacked, and once every registered delivery is settled no
ack is pending. -/
theorem acked_exactly_once {labels : List (SettleLabel ι)}
    (r : Run settleStep Orderly (Settlement.init ι) labels s) :
    (∀ i, (s.delivery i).hook = .inTime →
      (s.delivery i).acks = 1 ∧ (s.delivery i).nacks = 0) ∧
    ((∀ i, (s.delivery i).timer ≠ .unset → (s.delivery i).Settled) →
      ∀ eventId, s.pendingAcks eventId = none) := by
  have h : Exact s := Run.invariant Exact.init (fun _ _ _ hs ho hstep => hs.step ho hstep) r
  refine ⟨fun i hi => ?_, fun hall eventId => ?_⟩
  · have hc := (h.counted i).counted
    cases ht : (s.delivery i).timer with
    | unset => rw [h.unset i ht] at hi; cases hi
    | armed eventId => rw [(h.armed i eventId ht).2] at hi; cases hi
    | cleared eventId => simpa [Delivery.Counted, ht] using hc
    | expired eventId => exact absurd hi (h.expired i eventId ht)
  · cases hp : s.pendingAcks eventId with
    | none => rfl
    | some i =>
      -- an entry means a running timer, and then nothing has settled the delivery
      have ht := (h.counted i).pending eventId hp
      have hc := (h.counted i).counted
      simp only [Delivery.Counted, ht] at hc
      rcases hall i (by rw [ht]; simp) with hw | hcalls
      · exact absurd (h.armed i eventId ht).2 hw
      · omega

end

/-! ### One delivery -/

/-- The dispatcher finds a duplicate and fires its hook before `publish()` resolves. -/
def hookBeforeRegistration : List (SettleLabel Unit) :=
  [.after () "e1", .register () "e1", .timeout ()]

/-- The hook fires once the delivery is registered. -/
def hookAfterRegistration : List (SettleLabel Unit) :=
  [.register () "e1", .after () "e1"]

instance {ι : Type} [DecidableEq ι] (s : Settlement ι) (a : SettleLabel ι) :
    Decidable (Orderly s a) := by
  unfold Orderly; split <;> infer_instance

/-- The delivery is nacked although its event was dispatched. -/
theorem nacked_after_hook : ¬ ∀ (ι : Type) (_ : DecidableEq ι) (labels : List (SettleLabel ι))
    (s : Settlement ι), Run settleStep Any (Settlement.init ι) labels s →
      (∀ i, (s.delivery i).hook = .inTime →
        (s.delivery i).acks = 1 ∧ (s.delivery i).nacks = 0) ∧
      ((∀ i, (s.delivery i).timer ≠ .unset → (s.delivery i).Settled) →
        ∀ eventId, s.pendingAcks eventId = none) := by
  intro h
  obtain ⟨s, r, hs⟩ := Run.any_of_replay
    (p := fun s => s.delivery () == ⟨.expired "e1", .inTime, 0, 1⟩)
    (show (exec settleStep (Settlement.init Unit) hookBeforeRegistration).any _ = true by decide)
  have hd := eq_of_beq hs
  have hacks := ((h Unit inferInstance _ s r).1 () (by rw [hd])).1
  rw [hd] at hacks
  cases hacks

theorem acked_exactly_once_registered :
    ∃ s, Run settleStep Orderly (Settlement.init Unit) hookAfterRegistration s ∧
      (s.delivery ()).acks = 1 ∧ (s.delivery ()).nacks = 0 := by
  obtain ⟨s, r, hs⟩ := Run.of_replay (p := fun s => (s.delivery ()).hook == .inTime)
    (show (exec (guarded settleStep Orderly) (Settlement.init Unit)
      hookAfterRegistration).any _ = true by decide)
  exact ⟨s, r, (acked_exactly_once r).1 () (eq_of_beq hs)⟩

end Declaragent.Sources
