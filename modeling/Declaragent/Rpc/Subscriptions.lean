import Declaragent.Library.Transition
import Mathlib.Data.Finset.Basic

/-!
# Rpc — the subscriptions of a transport

The AMQP and the JetStream transport keep a set of handlers for each topic and one consumer for all
of them.  `subscribe` starts the consumer and returns before there is one; the last `unsubscribe`
cancels the consumer that it finds.

* `subscriptionStep`: the calls of the application, and what the broker answers at any time.
* `Kept` is what a run keeps in which no consumer is lost while it starts up.
* `onePerTopic_of_run`: then each topic has the one consumer it needs, once all has settled.
-/

namespace Declaragent.Rpc.Subscriptions
open Transition

/-- How far a consumer is: `startConsumer` has not asked for it yet, the broker has it and the reply
is on its way, it is running, or its cancellation is on its way. -/
inductive Phase where
  | starting | created | running | cancelling
  deriving DecidableEq

/-- Whether the broker has the consumer. -/
def Phase.live : Phase → Bool
  | .starting => false
  | .created | .running | .cancelling => true

/-- A transport with what its broker has of it.  A topic without handlers has no entry in the map
of the source, as no set in it is empty. -/
structure Wiring (τ η : Type) where
  closed : Bool := false
  handlers : τ → Finset η := fun _ => ∅
  /-- `consumers`, or `consumerLoops`. -/
  consumers : τ → Option Nat := fun _ => none
  /-- The consumers that were asked for, by their tag. -/
  consumer : Nat → Option (τ × Phase) := fun _ => none
  nextTag : Nat := 0
  channelOpen : Bool := true

inductive TransportKind where
  | amqp | jetstream

inductive SubscriptionLabel (τ η : Type) where
  | subscribe (topic : τ) (handler : η)
  | unsubscribe (topic : τ) (handler : η)
  | close
  /-- The broker has created a consumer. -/
  | created (tag : Nat)
  /-- Its reply has arrived. -/
  | replied (tag : Nat)
  /-- A call of `startConsumer` throws. -/
  | startFailed (tag : Nat)
  | cancelled (tag : Nat)
  /-- The channel has closed, or the connection has drained. -/
  | channelClosed
  /-- A loop of JetStream gets a message, and ends if its topic has no entry. -/
  | received (tag : Nat)

variable {τ η : Type} [DecidableEq τ] [DecidableEq η]

namespace Wiring

def setPhase (s : Wiring τ η) (tag : Nat) (consumer : Option (τ × Phase)) :
    Wiring τ η :=
  { s with consumer := Function.update s.consumer tag consumer }

def subscribe (s : Wiring τ η) (topic : τ) (handler : η) : Wiring τ η :=
  if s.closed then s
  else
    let t :=
      if s.handlers topic = ∅ then
        { s.setPhase s.nextTag (some (topic, .starting)) with nextTag := s.nextTag + 1 }
      else s
    { t with handlers := Function.update t.handlers topic (insert handler (t.handlers topic)) }

/-- The channel is asked to cancel. -/
def cancel (s : Wiring τ η) (tag : Nat) : Wiring τ η :=
  match s.consumer tag with
  | some (topic, .running) => s.setPhase tag (some (topic, .cancelling))
  | _ => s

/-- What `subscribe` returns. -/
def unsubscribe (s : Wiring τ η) (topic : τ) (handler : η) : Wiring τ η :=
  if s.handlers topic = ∅ then s
  else
    let t := { s with
      handlers := Function.update s.handlers topic ((s.handlers topic).erase handler) }
    if t.handlers topic = ∅ then
      match t.consumers topic with
      | some tag => { t with consumers := Function.update t.consumers topic none }.cancel tag
      | none => t
    else t

/-- `close` before it awaits. -/
def close (s : Wiring τ η) : Wiring τ η :=
  if s.closed then s
  else
    { s with
      closed := true
      handlers := fun _ => ∅
      consumers := fun _ => none
      consumer := fun tag =>
        match s.consumer tag with
        | some (topic, .running) =>
          if s.consumers topic = some tag then some (topic, .cancelling)
          else some (topic, .running)
        | consumer => consumer }

end Wiring

def subscriptionStep (kind : TransportKind) (s : Wiring τ η) :
    SubscriptionLabel τ η → Option (Wiring τ η)
  | .subscribe topic handler => some (s.subscribe topic handler)
  | .unsubscribe topic handler => some (s.unsubscribe topic handler)
  | .close => some s.close
  | .created tag =>
    match s.consumer tag, s.channelOpen with
    | some (topic, .starting), true => some (s.setPhase tag (some (topic, .created)))
    | _, _ => none
  | .replied tag =>
    match s.consumer tag with
    | some (topic, .created) => some
        { s.setPhase tag (some (topic, .running)) with
          consumers := Function.update s.consumers topic (some tag) }
    | _ => none
  | .startFailed tag =>
    match s.consumer tag with
    | some (_, .starting) => some (s.setPhase tag none)
    | _ => none
  | .cancelled tag =>
    match s.consumer tag with
    | some (_, .cancelling) => some (s.setPhase tag none)
    | _ => none
  | .channelClosed =>
    if s.closed = true ∧ s.channelOpen = true then some
      { s with
        channelOpen := false
        consumer := fun tag => (s.consumer tag).filter fun consumer => !consumer.2.live }
    else none
  | .received tag =>
    match kind, s.consumer tag with
    | .jetstream, some (topic, .running) | .jetstream, some (topic, .cancelling) =>
      some (if s.consumers topic = none then s.setPhase tag none else s)
    | _, _ => none

/-! ### One consumer for each topic -/

/-- The broker has this consumer for the topic. -/
def Wiring.Live (s : Wiring τ η) (topic : τ) (tag : Nat) : Prop :=
  ∃ phase, s.consumer tag = some (topic, phase) ∧ phase.live = true

/-- Nothing is on its way. -/
structure Wiring.Settled (s : Wiring τ η) : Prop where
  running : ∀ tag topic phase, s.consumer tag = some (topic, phase) → phase = .running
  closed : s.closed = true → s.channelOpen = false

/-- Exactly one consumer for a topic with handlers, while the transport is open, and none
otherwise. -/
def Wiring.OnePerTopic (s : Wiring τ η) : Prop :=
  ∀ topic, if s.handlers topic ≠ ∅ ∧ s.closed = false then ∃! tag, s.Live topic tag
    else ∀ tag, ¬ s.Live topic tag

/-- The last handler of a topic goes when its consumer is running, and no start fails while the
transport is open. -/
def Clean (s : Wiring τ η) : SubscriptionLabel τ η → Prop
  | .unsubscribe topic handler => s.handlers topic = {handler} → s.consumers topic ≠ none
  | .startFailed _ => s.closed = true
  | _ => True

/-- The consumer that a topic with handlers has or is about to have. -/
def Wiring.Current (s : Wiring τ η) (topic : τ) (tag : Nat) : Prop :=
  ((s.consumer tag = some (topic, .starting) ∨ s.consumer tag = some (topic, .created)) ∧
    s.consumers topic = none) ∨
  (s.consumer tag = some (topic, .running) ∧ s.consumers topic = some tag)

/-- A topic of an open transport has one consumer if it has handlers and else none, but for those
that are about to go. -/
structure TopicKept (s : Wiring τ η) (topic : τ) : Prop where
  one : s.handlers topic ≠ ∅ → ∃ tag, s.Current topic tag ∧
    ∀ other phase, s.consumer other = some (topic, phase) → other = tag ∨ phase = .cancelling
  none : s.handlers topic = ∅ → s.consumers topic = none ∧
    ∀ tag phase, s.consumer tag = some (topic, phase) → phase = .cancelling

structure Kept (s : Wiring τ η) : Prop where
  fresh : ∀ tag, s.nextTag ≤ tag → s.consumer tag = none
  channel : s.channelOpen = false → ∀ tag topic phase,
    s.consumer tag = some (topic, phase) → phase = .starting
  opened : s.closed = false → s.channelOpen = true ∧ ∀ topic, TopicKept s topic
  closed : s.closed = true → ∀ topic, s.handlers topic = ∅

section
variable {s t : Wiring τ η} {topic : τ} {handler : η} {tag : Nat}

omit [DecidableEq τ] [DecidableEq η] in
/-- What a topic depends on. -/
theorem TopicKept.congr (h : TopicKept s topic) (hhandlers : t.handlers topic = s.handlers topic)
    (hconsumers : t.consumers topic = s.consumers topic)
    (hconsumer : ∀ tag phase, t.consumer tag = some (topic, phase) ↔
      s.consumer tag = some (topic, phase)) : TopicKept t topic := by
  have hcurrent : ∀ tag, t.Current topic tag ↔ s.Current topic tag := by
    intro tag
    simp only [Wiring.Current, hconsumer, hconsumers]
  constructor
  · intro hne
    rw [hhandlers] at hne
    obtain ⟨tag, htag, hother⟩ := h.one hne
    exact ⟨tag, (hcurrent tag).mpr htag,
      fun other phase ho => hother other phase ((hconsumer _ _).mp ho)⟩
  · intro hempty
    rw [hhandlers] at hempty
    obtain ⟨hnone, hother⟩ := h.none hempty
    exact ⟨hconsumers.trans hnone,
      fun other phase ho => hother other phase ((hconsumer _ _).mp ho)⟩

omit [DecidableEq τ] [DecidableEq η] in
/-- A consumer of one topic does not matter to another. -/
theorem consumer_update_iff {consumer : Nat → Option (τ × Phase)} {other : τ}
    {before after : Option (τ × Phase)} (hbefore : consumer tag = before)
    (hb : ∀ phase, before ≠ some (other, phase)) (ha : ∀ phase, after ≠ some (other, phase))
    (tag' : Nat) (phase : Phase) :
    Function.update consumer tag after tag' = some (other, phase) ↔
      consumer tag' = some (other, phase) := by
  by_cases htag : tag' = tag
  · subst htag
    rw [Function.update_self, hbefore]
    exact iff_of_false (ha phase) (hb phase)
  · rw [Function.update_of_ne htag]

omit [DecidableEq τ] in
theorem of_other {topic other : τ} (h : other ≠ topic) (phase phase' : Phase) :
    some (topic, phase) ≠ some (other, phase') :=
  fun he => h (congrArg Prod.fst (Option.some.inj he)).symm

theorem Kept.subscribe (h : Kept s) : Kept (s.subscribe topic handler) := by
  cases hclosed : s.closed with
  | true =>
    rw [Wiring.subscribe, hclosed]
    exact h
  | false =>
    obtain ⟨hopen, htopics⟩ := h.opened hclosed
    have hne : insert handler (s.handlers topic) ≠ ∅ := Finset.insert_ne_empty _ _
    by_cases hempty : s.handlers topic = ∅
    · -- the first handler starts a consumer
      have hnew : s.consumer s.nextTag = none := h.fresh _ le_rfl
      have hs : s.subscribe topic handler =
          { s.setPhase s.nextTag (some (topic, .starting)) with
            nextTag := s.nextTag + 1
            handlers := Function.update s.handlers topic
              (insert handler (s.handlers topic)) } := by
        simp [Wiring.subscribe, hclosed, hempty, Wiring.setPhase]
      rw [hs]
      refine ⟨fun tag htag => ?_, fun hfalse => ?_, fun _ => ⟨hopen, fun other => ?_⟩,
        fun htrue => ?_⟩
      · have hold : tag ≠ s.nextTag := by
          rintro rfl
          exact Nat.not_succ_le_self _ htag
        exact (Function.update_of_ne hold _ _).trans (h.fresh tag (Nat.le_of_succ_le htag))
      · exact absurd (hopen.symm.trans hfalse) (by decide)
      · by_cases hother : other = topic
        · subst hother
          obtain ⟨hnone, hold⟩ := (htopics other).none hempty
          refine ⟨fun _ => ⟨s.nextTag, Or.inl ⟨Or.inl (Function.update_self ..), hnone⟩,
            fun tag phase htag => ?_⟩, fun he =>
            absurd ((Function.update_self ..).symm.trans he) hne⟩
          by_cases hnext : tag = s.nextTag
          · exact Or.inl hnext
          · exact Or.inr (hold tag phase ((Function.update_of_ne hnext _ _).symm.trans htag))
        · refine (htopics other).congr (Function.update_of_ne hother _ _) rfl ?_
          exact consumer_update_iff hnew nofun (of_other hother _)
      · exact absurd (hclosed.symm.trans htrue) (by decide)
    · have hs : s.subscribe topic handler =
          { s with
            handlers := Function.update s.handlers topic
              (insert handler (s.handlers topic)) } := by
        simp [Wiring.subscribe, hclosed, hempty]
      rw [hs]
      refine ⟨h.fresh, h.channel, fun _ => ⟨hopen, fun other => ?_⟩, fun htrue => ?_⟩
      · by_cases hother : other = topic
        · subst hother
          exact ⟨fun _ => (htopics other).one hempty, fun he =>
            absurd ((Function.update_self ..).symm.trans he) hne⟩
        · exact (htopics other).congr (Function.update_of_ne hother _ _) rfl fun _ _ => Iff.rfl
      · exact absurd (hclosed.symm.trans htrue) (by decide)

/-- The last handler of a topic goes, and with it the consumer that is running. -/
theorem Kept.unsubscribe (h : Kept s)
    (hclean : s.handlers topic = {handler} → s.consumers topic ≠ none) :
    Kept (s.unsubscribe topic handler) := by
  by_cases hempty : s.handlers topic = ∅
  · rw [Wiring.unsubscribe, if_pos hempty]
    exact h
  have hclosed : s.closed = false := by
    cases hc : s.closed with
    | false => rfl
    | true => exact absurd (h.closed hc topic) hempty
  obtain ⟨hopen, htopics⟩ := h.opened hclosed
  by_cases hlast : (s.handlers topic).erase handler = ∅
  · have hsingle : s.handlers topic = {handler} := by
      rcases Finset.erase_eq_empty_iff _ _ |>.mp hlast with he | hs
      · exact absurd he hempty
      · exact hs
    obtain ⟨tag, hcurrent, hold⟩ := (htopics topic).one hempty
    rcases hcurrent with ⟨-, hnone⟩ | ⟨hrunning, hentry⟩
    · exact absurd hnone (hclean hsingle)
    have hs : s.unsubscribe topic handler =
        { s.setPhase tag (some (topic, .cancelling)) with
          handlers := Function.update s.handlers topic ∅
          consumers := Function.update s.consumers topic none } := by
      simp [Wiring.unsubscribe, hempty, hlast, hentry, Wiring.cancel, hrunning, Wiring.setPhase]
    rw [hs]
    refine ⟨fun tag' htag => ?_, fun hfalse => ?_, fun _ => ⟨hopen, fun other => ?_⟩,
      fun htrue => ?_⟩
    · have hne : tag' ≠ tag := by
        rintro rfl
        rw [h.fresh tag' htag] at hrunning
        cases hrunning
      exact (Function.update_of_ne hne _ _).trans (h.fresh tag' htag)
    · exact absurd (hopen.symm.trans hfalse) (by decide)
    · by_cases hother : other = topic
      · subst hother
        refine ⟨fun hne => absurd (Function.update_self ..) hne,
          fun _ => ⟨Function.update_self .., fun tag' phase htag => ?_⟩⟩
        by_cases htag' : tag' = tag
        · subst htag'
          have hphase := (Function.update_self ..).symm.trans htag
          cases hphase
          rfl
        · rcases hold tag' phase ((Function.update_of_ne htag' _ _).symm.trans htag) with he | hc
          · exact absurd he htag'
          · exact hc
      · exact (htopics other).congr (Function.update_of_ne hother _ _)
          (Function.update_of_ne hother _ _)
          (consumer_update_iff hrunning (of_other hother _) (of_other hother _))
    · exact absurd (hclosed.symm.trans htrue) (by decide)
  · have hs : s.unsubscribe topic handler =
        { s with
          handlers := Function.update s.handlers topic ((s.handlers topic).erase handler) } := by
      simp [Wiring.unsubscribe, hempty, hlast]
    rw [hs]
    refine ⟨h.fresh, h.channel, fun _ => ⟨hopen, fun other => ?_⟩, fun htrue => ?_⟩
    · by_cases hother : other = topic
      · subst hother
        exact ⟨fun _ => (htopics other).one hempty, fun he =>
          absurd ((Function.update_self ..).symm.trans he) hlast⟩
      · exact (htopics other).congr (Function.update_of_ne hother _ _) rfl fun _ _ => Iff.rfl
    · exact absurd (hclosed.symm.trans htrue) (by decide)

omit [DecidableEq τ] [DecidableEq η] in
theorem Kept.close (h : Kept s) : Kept s.close := by
  cases hclosed : s.closed with
  | true =>
    rw [Wiring.close, hclosed]
    exact h
  | false =>
    obtain ⟨hopen, -⟩ := h.opened hclosed
    rw [Wiring.close, hclosed]
    refine ⟨fun tag htag => ?_, fun hfalse => ?_, fun hfalse => (nomatch hfalse), fun _ _ => rfl⟩
    · have hnone : s.consumer tag = none := h.fresh tag htag
      change (match s.consumer tag with | some (topic, .running) => _ | consumer => _) = none
      rw [hnone]
    · exact absurd (hopen.symm.trans hfalse) (by decide)

omit [DecidableEq η] in
/-- A step of one consumer, which changes nothing but its phase and the entry of its topic. -/
theorem Kept.phase (h : Kept s) {phase : Phase} {after : Option (τ × Phase)}
    (hbefore : s.consumer tag = some (topic, phase))
    (hclosed : t.closed = s.closed) (hopen : t.channelOpen = s.channelOpen)
    (hhandlers : t.handlers = s.handlers) (hnext : t.nextTag = s.nextTag)
    (hconsumers : ∀ other, other ≠ topic → t.consumers other = s.consumers other)
    (hconsumer : t.consumer = Function.update s.consumer tag after)
    (hafter : after = none ∨ ∃ phase, after = some (topic, phase) ∧ s.channelOpen = true)
    (htopic : s.closed = false → TopicKept s topic → TopicKept t topic) : Kept t := by
  refine ⟨fun tag' htag => ?_, fun hfalse tag' other phase' htag => ?_, fun hc => ?_,
    fun hc => ?_⟩
  · rw [hnext] at htag
    have hne : tag' ≠ tag := by
      rintro rfl
      rw [h.fresh tag' htag] at hbefore
      cases hbefore
    rw [hconsumer, Function.update_of_ne hne]
    exact h.fresh tag' htag
  · rw [hopen] at hfalse
    rw [hconsumer] at htag
    by_cases hne : tag' = tag
    · subst hne
      rw [Function.update_self] at htag
      rcases hafter with hnone | ⟨_, -, htrue⟩
      · rw [hnone] at htag
        cases htag
      · exact absurd (htrue.symm.trans hfalse) (by decide)
    · rw [Function.update_of_ne hne] at htag
      exact h.channel hfalse tag' other phase' htag
  · rw [hclosed] at hc
    obtain ⟨htrue, htopics⟩ := h.opened hc
    refine ⟨hopen.trans htrue, fun other => ?_⟩
    by_cases hother : other = topic
    · subst hother
      exact htopic hc (htopics other)
    · refine (htopics other).congr (by rw [hhandlers]) (hconsumers other hother) ?_
      rw [hconsumer]
      refine consumer_update_iff hbefore (of_other hother _) fun phase' he => ?_
      rcases hafter with hnone | ⟨phase'', hsome, -⟩
      · rw [hnone] at he
        cases he
      · exact of_other hother _ _ (hsome.symm.trans he)
  · rw [hhandlers]
    rw [hclosed] at hc
    exact h.closed hc

omit [DecidableEq τ] [DecidableEq η] in
/-- A consumer that is not about to go is the current one of its topic. -/
theorem TopicKept.current (h : TopicKept s topic) {phase : Phase}
    (hphase : s.consumer tag = some (topic, phase)) (hne : phase ≠ .cancelling) :
    s.handlers topic ≠ ∅ ∧ s.Current topic tag ∧
      ∀ other phase,
        s.consumer other = some (topic, phase) → other = tag ∨ phase = .cancelling := by
  have hhandlers : s.handlers topic ≠ ∅ :=
    fun hempty => hne ((h.none hempty).2 tag phase hphase)
  obtain ⟨tag', hcurrent, hother⟩ := h.one hhandlers
  obtain rfl : tag = tag' := (hother tag phase hphase).resolve_right hne
  exact ⟨hhandlers, hcurrent, hother⟩

omit [DecidableEq η] in
theorem Kept.created (h : Kept s) (hopen : s.channelOpen = true)
    (hphase : s.consumer tag = some (topic, .starting)) :
    Kept (s.setPhase tag (some (topic, .created))) := by
  refine h.phase hphase rfl rfl rfl rfl (fun _ _ => rfl) rfl (Or.inr ⟨_, rfl, hopen⟩)
    fun _ htopic => ?_
  obtain ⟨hhandlers, hcurrent, hother⟩ := htopic.current hphase (by decide)
  have hentry : s.consumers topic = none := by
    rcases hcurrent with ⟨-, hnone⟩ | ⟨hrunning, -⟩
    · exact hnone
    · rw [hphase] at hrunning
      cases hrunning
  refine ⟨fun _ => ⟨tag, Or.inl ⟨Or.inr (Function.update_self ..), hentry⟩,
    fun other phase ho => ?_⟩, fun hempty => absurd hempty hhandlers⟩
  by_cases hne : other = tag
  · exact Or.inl hne
  · exact hother other phase ((Function.update_of_ne hne _ _).symm.trans ho)

omit [DecidableEq η] in
theorem Kept.replied (h : Kept s) (hphase : s.consumer tag = some (topic, .created)) :
    Kept { s.setPhase tag (some (topic, .running)) with
      consumers := Function.update s.consumers topic (some tag) } := by
  have hopen : s.channelOpen = true := by
    cases hc : s.channelOpen with
    | true => rfl
    | false => cases h.channel hc tag topic _ hphase
  refine h.phase hphase rfl rfl rfl rfl (fun _ hother => Function.update_of_ne hother _ _) rfl
    (Or.inr ⟨_, rfl, hopen⟩) fun _ htopic => ?_
  obtain ⟨hhandlers, -, hother⟩ := htopic.current hphase (by decide)
  refine ⟨fun _ => ⟨tag, Or.inr ⟨Function.update_self .., Function.update_self ..⟩,
    fun other phase ho => ?_⟩, fun hempty => absurd hempty hhandlers⟩
  by_cases hne : other = tag
  · exact Or.inl hne
  · exact hother other phase ((Function.update_of_ne hne _ _).symm.trans ho)

omit [DecidableEq η] in
/-- A consumer ends that is about to go, or whose topic has no entry, or of a closed transport. -/
theorem Kept.ended (h : Kept s) {phase : Phase} (hphase : s.consumer tag = some (topic, phase))
    (hgone : s.closed = false → phase = .cancelling ∨
      phase = .running ∧ s.consumers topic = none) : Kept (s.setPhase tag none) := by
  refine h.phase hphase rfl rfl rfl rfl (fun _ _ => rfl) rfl (Or.inl rfl) fun hc htopic => ?_
  have hcancelling : phase = .cancelling := by
    rcases hgone hc with hcancelling | ⟨hrunning, hnone⟩
    · exact hcancelling
    · -- a consumer that is running has an entry
      subst hrunning
      obtain ⟨-, ⟨hphase' | hphase', -⟩ | ⟨-, hentry⟩, -⟩ := htopic.current hphase (by decide)
      · cases hphase.symm.trans hphase'
      · cases hphase.symm.trans hphase'
      · cases hnone.symm.trans hentry
  subst hcancelling
  have hsame : ∀ other phase, Function.update s.consumer tag none other = some (topic, phase) →
      s.consumer other = some (topic, phase) := by
    intro other phase ho
    by_cases hne : other = tag
    · subst hne
      cases (Function.update_self ..).symm.trans ho
    · exact (Function.update_of_ne hne _ _).symm.trans ho
  refine ⟨fun hne => ?_, fun hempty => ?_⟩
  · obtain ⟨tag', hcurrent, hother⟩ := htopic.one hne
    have htag : tag' ≠ tag := by
      rintro rfl
      rcases hcurrent with ⟨hphase' | hphase', -⟩ | ⟨hphase', -⟩ <;>
        cases hphase.symm.trans hphase'
    have hstays : (s.setPhase tag none).consumer tag' = s.consumer tag' :=
      Function.update_of_ne htag _ _
    refine ⟨tag', ?_, fun other phase ho => hother other phase (hsame other phase ho)⟩
    rw [Wiring.Current, hstays]
    exact hcurrent
  · obtain ⟨hnone, hold⟩ := htopic.none hempty
    exact ⟨hnone, fun other phase ho => hold other phase (hsame other phase ho)⟩

omit [DecidableEq τ] [DecidableEq η] in
theorem Kept.channelClosed (h : Kept s) (hclosed : s.closed = true) :
    Kept { s with
      channelOpen := false
      consumer := fun tag => (s.consumer tag).filter fun consumer => !consumer.2.live } := by
  refine ⟨fun tag htag => ?_, fun _ tag topic phase htag => ?_, fun hfalse => ?_, fun _ =>
    h.closed hclosed⟩
  · simp only [h.fresh tag htag, Option.filter_none]
  · obtain ⟨-, hlive⟩ := Option.filter_eq_some_iff.mp htag
    cases phase with
    | starting => rfl
    | created | running | cancelling => cases hlive
  · exact absurd (hclosed.symm.trans hfalse) (by decide)

theorem Kept.step {kind : TransportKind} {label : SubscriptionLabel τ η} (h : Kept s)
    (hclean : Clean s label) (hstep : subscriptionStep kind s label = some t) : Kept t := by
  cases label with
  | subscribe topic handler =>
    obtain rfl := Option.some.inj hstep
    exact h.subscribe
  | unsubscribe topic handler =>
    obtain rfl := Option.some.inj hstep
    exact h.unsubscribe hclean
  | close =>
    obtain rfl := Option.some.inj hstep
    exact h.close
  | created tag =>
    simp only [subscriptionStep] at hstep
    split at hstep
    · rename_i topic hphase hopen
      obtain rfl := Option.some.inj hstep
      exact h.created hopen hphase
    · cases hstep
  | replied tag =>
    simp only [subscriptionStep] at hstep
    split at hstep
    · rename_i topic hphase
      obtain rfl := Option.some.inj hstep
      exact h.replied hphase
    · cases hstep
  | startFailed tag =>
    simp only [subscriptionStep] at hstep
    split at hstep
    · rename_i topic hphase
      obtain rfl := Option.some.inj hstep
      exact h.ended hphase fun hopen => absurd (hclean.symm.trans hopen) (by decide)
    · cases hstep
  | cancelled tag =>
    simp only [subscriptionStep] at hstep
    split at hstep
    · rename_i topic hphase
      obtain rfl := Option.some.inj hstep
      exact h.ended hphase fun _ => Or.inl rfl
    · cases hstep
  | channelClosed =>
    simp only [subscriptionStep] at hstep
    split at hstep
    · rename_i hclosed
      obtain rfl := Option.some.inj hstep
      exact h.channelClosed hclosed.1
    · cases hstep
  | received tag =>
    simp only [subscriptionStep] at hstep
    split at hstep
    · rename_i topic hphase
      obtain rfl := Option.some.inj hstep
      split
      · rename_i hnone
        exact h.ended hphase fun _ => Or.inr ⟨rfl, hnone⟩
      · exact h
    · rename_i topic hphase
      obtain rfl := Option.some.inj hstep
      split
      · exact h.ended hphase fun _ => Or.inl rfl
      · exact h
    · cases hstep

omit [DecidableEq τ] in
/-- What is kept comes to one consumer for each topic once all has settled. -/
theorem Kept.onePerTopic (h : Kept s) (hsettled : s.Settled) : s.OnePerTopic := by
  have hrunning : ∀ {topic tag}, s.Live topic tag → s.consumer tag = some (topic, .running) := by
    rintro topic tag ⟨phase, hphase, -⟩
    rw [hphase, hsettled.running tag topic phase hphase]
  intro topic
  cases hclosed : s.closed with
  | true =>
    rw [if_neg fun hopen => nomatch hopen.2]
    intro tag hlive
    cases h.channel (hsettled.closed hclosed) tag topic _ (hrunning hlive)
  | false =>
    obtain ⟨-, htopics⟩ := h.opened hclosed
    split
    · rename_i hopen
      obtain ⟨tag, hcurrent, hother⟩ := (htopics topic).one hopen.1
      have hphase : s.consumer tag = some (topic, .running) := by
        rcases hcurrent with ⟨hphase | hphase, -⟩ | ⟨hphase, -⟩
        · cases hsettled.running _ _ _ hphase
        · cases hsettled.running _ _ _ hphase
        · exact hphase
      refine ⟨tag, ⟨_, hphase, rfl⟩, fun other hlive => ?_⟩
      rcases hother other _ (hrunning hlive) with he | hcancelling
      · exact he
      · cases hcancelling
    · rename_i hempty
      intro tag hlive
      have hnone : s.handlers topic = ∅ := by
        by_contra hne
        exact hempty ⟨hne, rfl⟩
      cases ((htopics topic).none hnone).2 tag _ (hrunning hlive)

/-- **No consumer leaks** in a run in which the last handler of a topic goes only when its consumer
is running and no start fails while the transport is open: once all has settled each topic has
exactly one consumer if it has handlers and the transport is open, and else none. -/
theorem onePerTopic_of_run {kind : TransportKind} {labels : List (SubscriptionLabel τ η)}
    (r : Run (subscriptionStep kind) Clean {} labels s) (hsettled : s.Settled) :
    s.OnePerTopic := by
  have hstart : Kept ({} : Wiring τ η) :=
    ⟨fun _ _ => rfl, fun _ _ _ _ he => (nomatch he), fun _ => ⟨rfl, fun _ =>
      ⟨fun hne => absurd rfl hne, fun _ => ⟨rfl, fun _ _ he => (nomatch he)⟩⟩⟩, fun _ _ => rfl⟩
  have hkept : Kept s :=
    Run.invariant hstart (fun _ _ _ ht hclean hstep => ht.step hclean hstep) r
  exact hkept.onePerTopic hsettled

end

/-- A topic that is subscribed to and left, and subscribed to again. -/
theorem onePerTopic_of_run_again :
    ∃ s : Wiring Unit Nat, Run (subscriptionStep .amqp) Clean {}
        [.subscribe () 0, .created 0, .replied 0, .unsubscribe () 0, .cancelled 0, .subscribe () 1,
          .created 1, .replied 1] s ∧ s.OnePerTopic := by
  have r : Run (subscriptionStep .amqp) Clean ({} : Wiring Unit Nat)
      [.subscribe () 0, .created 0, .replied 0, .unsubscribe () 0, .cancelled 0, .subscribe () 1,
        .created 1, .replied 1] _ :=
    .snoc (.snoc (.snoc (.snoc (.snoc (.snoc (.snoc (.snoc .nil trivial rfl) trivial rfl)
      trivial rfl) (fun _ => by decide) rfl) trivial rfl) trivial rfl) trivial rfl) trivial rfl
  refine ⟨_, r, onePerTopic_of_run r ⟨fun tag topic phase htag => ?_, fun h => nomatch h⟩⟩
  match tag with
  | 0 => cases htag
  | 1 => cases htag; rfl
  | tag + 2 => cases htag

/-- A handler that goes before its consumer is created leaves the consumer behind, and another
handler gets a second one. -/
theorem unsubscribed_too_early :
    (∃ s : Wiring Unit Nat, Run (subscriptionStep .amqp) Any {}
        [.subscribe () 0, .unsubscribe () 0, .created 0, .replied 0] s ∧ s.Settled ∧
      s.handlers () = ∅ ∧ s.Live () 0 ∧ ¬ s.OnePerTopic) ∧
    ∃ s : Wiring Unit Nat, Run (subscriptionStep .jetstream) Any {}
        [.subscribe () 0, .unsubscribe () 0, .subscribe () 0, .created 0, .replied 0, .created 1,
          .replied 1] s ∧ s.Settled ∧ s.Live () 0 ∧ s.Live () 1 ∧ ¬ s.OnePerTopic := by
  constructor
  · refine ⟨_, .snoc (.snoc (.snoc (.snoc .nil trivial rfl) trivial rfl) trivial rfl) trivial rfl,
      ⟨fun tag topic phase htag => ?_, fun h => nomatch h⟩, rfl, ⟨_, rfl, rfl⟩, fun h => ?_⟩
    · match tag with
      | 0 => cases htag; rfl
      | tag + 1 => cases htag
    · exact h () 0 ⟨_, rfl, rfl⟩
  · refine ⟨_, .snoc (.snoc (.snoc (.snoc (.snoc (.snoc (.snoc .nil trivial rfl) trivial rfl)
      trivial rfl) trivial rfl) trivial rfl) trivial rfl) trivial rfl,
      ⟨fun tag topic phase htag => ?_, fun h => nomatch h⟩, ⟨_, rfl, rfl⟩, ⟨_, rfl, rfl⟩,
      fun h => ?_⟩
    · match tag with
      | 0 => cases htag; rfl
      | 1 => cases htag; rfl
      | tag + 2 => cases htag
    · obtain ⟨tag, -, honly⟩ := h ()
      cases (honly 0 ⟨_, rfl, rfl⟩).trans (honly 1 ⟨_, rfl, rfl⟩).symm

end Declaragent.Rpc.Subscriptions
