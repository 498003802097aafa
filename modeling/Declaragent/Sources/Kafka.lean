import Declaragent.Sources.BaseSource
import Mathlib.Order.Lattice.Nat

/-!
# Sources — the Kafka source

The Kafka source hands each message of a partition to `handleMessage`.  An ack commits the
offset after the message; a nack counts an attempt and throws, so that the consumer would
deliver the message again.  The consumer delivers the messages of a partition one at a time: it
goes on to the next offset when the callback resolves and stays where it is when the callback
rejects, and after a rebalance it starts again from the committed offset.

`handleFailure` swallows what a nack throws, so the callback resolves, and a later message is
delivered and committed past the failed one.

* `fate` is what became of each message; `failed` the messages that were nacked and not
  delivered since; `skipped` those that were passed by the commit of a later message while they
  waited.
* `Frame` is what handling the message at one offset leaves alone.
* `deliver_outcome`: what became of the message is known, or nothing was committed and it waits
  to be delivered again.
* `at_least_once` is the guarantee over runs in which no later message is handled while a failed
  one waits (`InOrder`).
-/

namespace Declaragent.Sources
open Events Transition

structure KafkaConfig where
  topic : String
  partition : Nat
  delivery : DeliveryConfig
  dlqTopic : Option String

/-- A message of the partition; `deliveryCountHeader` is the number its
`x-declaragent-delivery-count` header spells, `⊤` for a text that is no number. -/
structure KafkaIncomingMessage where
  value : String
  key : Option String := none
  timestamp : Option Int := none
  headers : List (String × String) := []
  deliveryCountHeader : Option (WithTop Nat) := none

/-- The messages of a partition by offset; compaction leaves holes. -/
abbrev PartitionLog := Nat → Option KafkaIncomingMessage

/-- What the source produces to the dead letter topic. -/
structure DlqRecord where
  topic : String
  key : Option String
  value : String
  headers : List (String × String)

/-- What became of a message.  It is dropped when its retries are exhausted and no dead letter
queue takes it, and unwired when the source has no normalizer. -/
inductive Fate where
  | published
  | filtered
  | deadLettered
  | dropped
  | unwired
  deriving DecidableEq

/-- The consumption of one partition: the consumer's position, the committed offset, and what
the source knows.  `attemptCounts` is kept by message id, which within a partition is the
offset. -/
structure Partition where
  position : Nat
  committed : Nat
  commits : Nat
  attemptCounts : Nat → Nat
  pending : Nat → Bool
  fate : Nat → Option Fate
  failed : Nat → Bool
  skipped : Nat → Bool
  dlq : List DlqRecord

def Partition.init : Partition :=
  ⟨0, 0, 0, fun _ => 0, fun _ => false, fun _ => none, fun _ => false, fun _ => false, []⟩

/-! ### The source -/

/-- `consumer.commitOffset(topic, partition, nextOffset(offset))`: a failed message before
`offset` that still waits is passed by. -/
def Partition.commit (w : Partition) (offset : Nat) : Partition :=
  { w with
    committed := offset + 1
    skipped := fun f => w.skipped f || (decide (f < offset) && w.failed f) }

def Partition.setFate (w : Partition) (offset : Nat) (fate : Fate) : Partition :=
  { w with fate := Function.update w.fate offset (some fate) }

def Partition.setAttempts (w : Partition) (offset n : Nat) : Partition :=
  { w with attemptCounts := Function.update w.attemptCounts offset n }

def Partition.setFailed (w : Partition) (offset : Nat) (b : Bool) : Partition :=
  { w with failed := Function.update w.failed offset b }

def Partition.setPending (w : Partition) (offset : Nat) (b : Bool) : Partition :=
  { w with pending := Function.update w.pending offset b }

def Partition.deadLetter (w : Partition) (record : DlqRecord) : Partition :=
  { w with dlq := w.dlq ++ [record] }

/-- `ack()`: commit, and forget the attempts. -/
def kafkaAck (F : Faults) (offset : Nat) : Handler Partition Unit := fun w =>
  match F.ack w.commits with
  | some err => (.error err, { w with commits := w.commits + 1 })
  | none => (.ok (), ({ w with commits := w.commits + 1 }.commit offset).setAttempts offset 0)

/-- `nack()`: count an attempt, and throw. -/
def kafkaNack (offset : Nat) : Handler Partition Unit := fun w =>
  let next := w.attemptCounts offset + 1
  (.error ("kafka retry scheduled (attempt " ++ toString next ++ ")"),
    (w.setAttempts offset next).setFailed offset true)

def buildAckContext (F : Faults) (offset : Nat) : AckContext Partition :=
  ⟨kafkaAck F offset, kafkaNack offset⟩

def dlqRecord (dlqTopic : String) (raw : RawMessage) (err : String) : DlqRecord where
  topic := dlqTopic
  key := raw.key
  value := raw.value
  headers := [("x-declaragent-dlq-reason", err),
    ("x-declaragent-origin-topic", raw.topic.getD ""),
    ("x-declaragent-origin-partition", (raw.partition.map toString).getD ""),
    ("x-declaragent-origin-offset", raw.offset.getD "")]

/-- What the message at `offset` is handled with. -/
def kafkaDeps (config : KafkaConfig) (F : Faults) (offset : Nat) :
    SourceDependencies Partition where
  normalizer := match F.normalizer with
    | .unwired => none
    | .threw err => some fun _ w => (.error err, w)
    | .filtered => some fun _ w => (.ok none, w.setFate offset .filtered)
    | .event event => some fun _ w => (.ok (some event), w)
  publish _ := fun w => match F.publish with
    | none => (.ok (), w.setFate offset .published)
    | some err => (.error err, w)
  sendToDLQ raw err := fun w => match config.dlqTopic, F.dlq with
    | some topic, .stored =>
      (.ok (), (w.deadLetter (dlqRecord topic raw err)).setFate offset .deadLettered)
    | some _, .threw dlqErr => (.error dlqErr, w.setFate offset .dropped)
    | some _, .notConfigured | none, _ => (.ok (), w.setFate offset .dropped)
  registerPendingAck _ := fun w =>
    if F.hookRegistry then (.ok (), w.setPending offset true)
    else (.ok (), (Handler.exec (kafkaAck F offset) w).2)
  tenant := F.tenant

/-- `raw` of a message that was attempted `attempt` times. -/
def rawOf (config : KafkaConfig) (offset : Nat) (m : KafkaIncomingMessage) (attempt : Nat) :
    RawMessage where
  value := m.value
  key := m.key
  topic := some config.topic
  partition := some config.partition
  offset := some (toString offset)
  headers := m.headers
  timestamp := m.timestamp
  deliveryCount := some (max (attempt : WithTop Nat) (m.deliveryCountHeader.getD (0 : Nat)))

/-- The callback of the consumer. -/
def onKafkaMessage (config : KafkaConfig) (F : Faults) (offset : Nat) (m : KafkaIncomingMessage)
    (w : Partition) : Except String Unit × Partition :=
  Handler.exec (handleMessage config.delivery (kafkaDeps config F offset)
    (rawOf config offset m (w.attemptCounts offset)) (buildAckContext F offset)) w

/-! ### The consumer -/

inductive KafkaLabel where
  /-- The message at the offset is delivered, and its collaborators answer as `F` says. -/
  | deliver (offset : Nat) (F : Faults)
  /-- `event.after` acks a registered message. -/
  | settle (offset : Nat) (F : Faults)
  /-- The ack timer of a registered message runs out. -/
  | timeout (offset : Nat)
  | rebalance

/-- The offset is the next one that has a message. -/
def IsNext (log : PartitionLog) (w : Partition) (offset : Nat) : Prop :=
  w.position ≤ offset ∧ (log offset).isSome ∧
    ∀ k, k < offset → w.position ≤ k → (log k).isNone

instance (log : PartitionLog) (w : Partition) (offset : Nat) :
    Decidable (IsNext log w offset) := by
  unfold IsNext; infer_instance

/-- A delivery of the message at `offset` begins: it no longer waits. -/
def Partition.begin (w : Partition) (F : Faults) (offset : Nat) : Partition :=
  match F.normalizer with
  | .unwired => (w.setFailed offset false).setFate offset .unwired
  | _ => w.setFailed offset false

def kafkaStep (config : KafkaConfig) (log : PartitionLog) (w : Partition) :
    KafkaLabel → Option Partition
  | .deliver offset F =>
    match log offset with
    | some m =>
      if IsNext log w offset then
        match onKafkaMessage config F offset m (w.begin F offset) with
        | (.ok _, w') => some { w' with position := offset + 1 }
        | (.error _, w') => some { w' with position := offset }
      else none
    | none => none
  | .settle offset F =>
    if w.pending offset then
      some (Handler.exec (kafkaAck F offset) (w.setPending offset false)).2
    else none
  | .timeout offset =>
    if w.pending offset then
      some (Handler.exec (kafkaNack offset) (w.setPending offset false)).2
    else none
  | .rebalance => some { w with position := w.committed, attemptCounts := fun _ => 0 }

/-- No failed message was passed by the commit of a later one, and what became of each message
before the committed offset is known, unless the source acks before it publishes. -/
structure Safe (config : KafkaConfig) (log : PartitionLog) (w : Partition) : Prop where
  skipped : ∀ offset, w.skipped offset = false
  accounted : config.delivery.ackStrategy ≠ .beforePublish → ∀ offset, (log offset).isSome →
    offset < w.committed → (w.fate offset).isSome

/-- No message is delivered, or acked after its dispatch, while a failed one before it waits. -/
def InOrder (w : Partition) : KafkaLabel → Prop
  | .deliver offset _ | .settle offset _ => ∀ f, f < offset → w.failed f = false
  | .timeout _ | .rebalance => True

instance (w : Partition) (label : KafkaLabel) : Decidable (InOrder w label) := by
  unfold InOrder; split <;> infer_instance

/-! ### What handling a message leaves alone -/

/-- Handling the message at `offset` touches the failures and pending acks of no other, forgets
no fate, commits nothing but the offset after it, and passes no failed message unless one waits
before it. -/
structure Frame (offset : Nat) (w w' : Partition) : Prop where
  position : w'.position = w.position
  failed : ∀ k, k ≠ offset → w'.failed k = w.failed k
  skipped : (∀ f, f < offset → w.failed f = false) → w'.skipped = w.skipped
  fate : ∀ k, (w.fate k).isSome → (w'.fate k).isSome
  committed : w'.committed = w.committed ∨ w'.committed = offset + 1
  pending : ∀ k, k ≠ offset → w'.pending k = w.pending k

theorem Frame.refl (offset : Nat) (w : Partition) : Frame offset w w :=
  ⟨rfl, fun _ _ => rfl, fun _ => rfl, fun _ h => h, Or.inl rfl, fun _ _ => rfl⟩

theorem Frame.trans {offset : Nat} {u v w : Partition} (h : Frame offset u v)
    (h' : Frame offset v w) : Frame offset u w where
  position := h'.position.trans h.position
  failed k hk := (h'.failed k hk).trans (h.failed k hk)
  skipped hf := (h'.skipped fun f hlt => (h.failed f (by omega)).trans (hf f hlt)).trans
    (h.skipped hf)
  fate k hk := h'.fate k (h.fate k hk)
  committed := by
    rcases h'.committed with e | e
    · rw [e]; exact h.committed
    · exact Or.inr e
  pending k hk := (h'.pending k hk).trans (h.pending k hk)

theorem frame_setFate (offset : Nat) (w : Partition) (fate : Fate) :
    Frame offset w (w.setFate offset fate) := by
  refine ⟨rfl, fun _ _ => rfl, fun _ => rfl, fun k hk => ?_, Or.inl rfl, fun _ _ => rfl⟩
  by_cases e : k = offset
  · subst e; simp [Partition.setFate]
  · simpa [Partition.setFate, e] using hk

theorem frame_setFailed (offset : Nat) (w : Partition) (b : Bool) :
    Frame offset w (w.setFailed offset b) :=
  ⟨rfl, fun k hk => by simp [Partition.setFailed, hk], fun _ => rfl, fun _ h => h, Or.inl rfl,
    fun _ _ => rfl⟩

theorem frame_setPending (offset : Nat) (w : Partition) (b : Bool) :
    Frame offset w (w.setPending offset b) :=
  ⟨rfl, fun _ _ => rfl, fun _ => rfl, fun _ h => h, Or.inl rfl,
    fun k hk => by simp [Partition.setPending, hk]⟩

theorem frame_deadLetter (offset : Nat) (w : Partition) (record : DlqRecord) :
    Frame offset w (w.deadLetter record) :=
  ⟨rfl, fun _ _ => rfl, fun _ => rfl, fun _ h => h, Or.inl rfl, fun _ _ => rfl⟩

theorem frame_begin (F : Faults) (offset : Nat) (w : Partition) :
    Frame offset w (w.begin F offset) := by
  unfold Partition.begin
  split
  · exact (frame_setFailed _ _ _).trans (frame_setFate _ _ _)
  · exact frame_setFailed _ _ _

theorem frame_kafkaAck (F : Faults) (offset : Nat) :
    Handler.Keeps (Frame offset) (kafkaAck F offset) := by
  intro w
  unfold Handler.exec kafkaAck
  cases F.ack w.commits with
  | some err => exact ⟨rfl, fun _ _ => rfl, fun _ => rfl, fun _ h => h, Or.inl rfl, fun _ _ => rfl⟩
  | none =>
    refine ⟨rfl, fun _ _ => rfl, fun hf => funext fun f => ?_, fun _ h => h, Or.inr rfl,
      fun _ _ => rfl⟩
    -- the commit passes by no failed message, since none waits before the offset
    by_cases hlt : f < offset
    · simp [Partition.commit, Partition.setAttempts, hf f hlt]
    · simp [Partition.commit, Partition.setAttempts, hlt]

theorem frame_kafkaNack (offset : Nat) : Handler.Keeps (Frame offset) (kafkaNack offset) := by
  intro w
  exact (show Frame offset w (w.setAttempts offset _) from
    ⟨rfl, fun _ _ => rfl, fun _ => rfl, fun _ h => h, Or.inl rfl, fun _ _ => rfl⟩).trans
    (frame_setFailed _ _ _)

theorem kafka_respects (config : KafkaConfig) (F : Faults) (offset : Nat) :
    Respects (Frame offset) (kafkaDeps config F offset) (buildAckContext F offset) where
  refl := Frame.refl offset
  trans := Frame.trans
  ack := frame_kafkaAck F offset
  nack := frame_kafkaNack offset
  normalizer normalize hn raw w := by
    unfold kafkaDeps at hn
    dsimp only at hn
    split at hn
    · cases hn
    · cases hn; exact Frame.refl _ _
    · cases hn; exact frame_setFate _ _ _
    · cases hn; exact Frame.refl _ _
  publish event w := by
    unfold Handler.exec kafkaDeps
    dsimp only
    split
    · exact frame_setFate _ _ _
    · exact Frame.refl _ _
  sendToDLQ raw err w := by
    unfold Handler.exec kafkaDeps
    dsimp only
    split
    · exact (frame_deadLetter _ _ _).trans (frame_setFate _ _ _)
    · exact frame_setFate _ _ _
    · exact frame_setFate _ _ _
    · exact frame_setFate _ _ _
  registerPendingAck eventId w := by
    unfold Handler.exec kafkaDeps
    dsimp only
    split
    · exact frame_setPending _ _ _
    · exact frame_kafkaAck F offset w

/-! ### What becomes of a message -/

/-- What became of the message at `offset` is known. -/
def Known (offset : Nat) (w : Partition) : Prop := (w.fate offset).isSome

theorem known_setFate (offset : Nat) (w : Partition) (fate : Fate) :
    Known offset (w.setFate offset fate) := by
  simp [Known, Partition.setFate]

/-- A failure with retries left: nothing was committed or registered, and the message waits. -/
structure Waits (offset : Nat) (w w' : Partition) : Prop where
  committed : w'.committed = w.committed
  pending : w'.pending = w.pending
  failed : w'.failed offset = true

theorem waits_kafkaNack (offset : Nat) (w : Partition) :
    Waits offset w (Handler.exec (kafkaNack offset) w).2 where
  committed := rfl
  pending := rfl
  failed := by simp [Handler.exec, kafkaNack, Partition.setFailed]

section
variable (config : KafkaConfig) (F : Faults) (offset : Nat) (raw : RawMessage)

/-- The dead letter queue settles the message, also where it stores nothing. -/
theorem known_sendToDLQ (err : String) (w : Partition) :
    Known offset (Handler.exec ((kafkaDeps config F offset).sendToDLQ raw err) w).2 := by
  unfold Handler.exec kafkaDeps
  dsimp only
  split <;> exact known_setFate _ _ _

/-- A failed message waits, or the dead letter queue settled it. -/
theorem handleFailure_outcome (err : String) (w : Partition) :
    let w' := (Handler.exec (handleFailure config.delivery (kafkaDeps config F offset) raw
      (buildAckContext F offset) err) w).2
    Known offset w' ∨ Waits offset w w' := by
  intro w'
  simp only [w', handleFailure_exec]
  split
  · right
    exact waits_kafkaNack offset w
  · left
    exact (frame_kafkaAck F offset _).fate offset (known_sendToDLQ config F offset raw err w)

/-- The body of the `try` settles the message, or throws with nothing done. -/
theorem processMessage_outcome (hs : config.delivery.ackStrategy ≠ .beforePublish)
    (w : Partition) (hw : F.normalizer = .unwired → Known offset w) :
    let r := Handler.exec (processMessage config.delivery (kafkaDeps config F offset) raw
      (buildAckContext F offset)) w
    Known offset r.2 ∨ (r.2 = w ∧ ∃ err, r.1 = .error err) := by
  intro r
  have hr : r = Handler.exec (processMessage config.delivery (kafkaDeps config F offset) raw
    (buildAckContext F offset)) w := rfl
  unfold processMessage at hr
  cases hN : F.normalizer with
  | unwired =>
    have hd : (kafkaDeps config F offset).normalizer = none := by simp [kafkaDeps, hN]
    rw [hd] at hr
    left
    rw [hr]
    exact (frame_kafkaAck F offset w).fate offset (hw hN)
  | threw err =>
    have hd : (kafkaDeps config F offset).normalizer = some fun _ w => (.error err, w) := by
      simp [kafkaDeps, hN]
    rw [hd] at hr
    right
    rw [hr]
    exact ⟨rfl, err, rfl⟩
  | filtered =>
    have hd : (kafkaDeps config F offset).normalizer =
        some fun _ w => (.ok none, w.setFate offset .filtered) := by simp [kafkaDeps, hN]
    rw [hd] at hr
    left
    rw [hr]
    exact (frame_kafkaAck F offset _).fate offset (known_setFate _ _ _)
  | event event =>
    have hd : (kafkaDeps config F offset).normalizer =
        some fun _ w => (.ok (some event), w) := by simp [kafkaDeps, hN]
    rw [hd] at hr
    have hpublish : ∀ (rest : Handler Partition Unit), Handler.Keeps (Frame offset) rest →
        let r := Handler.exec (do
          (kafkaDeps config F offset).publish (stampTenantId event F.tenant); rest) w
        Known offset r.2 ∨ (r.2 = w ∧ ∃ err, r.1 = .error err) := by
      intro rest hrest
      rw [exec_bind]
      cases hP : F.publish with
      | none =>
        left
        have hx : Handler.exec ((kafkaDeps config F offset).publish
            (stampTenantId event F.tenant)) w = (.ok (), w.setFate offset .published) := by
          simp [Handler.exec, kafkaDeps, hP]
        rw [hx]
        exact (hrest _).fate offset (known_setFate _ _ _)
      | some err =>
        right
        have hx : Handler.exec ((kafkaDeps config F offset).publish
            (stampTenantId event F.tenant)) w = (.error err, w) := by
          simp [Handler.exec, kafkaDeps, hP]
        rw [hx]
        exact ⟨rfl, err, rfl⟩
    cases hS : config.delivery.ackStrategy with
    | beforePublish => exact absurd hS hs
    | afterPublish =>
      rw [hS] at hr
      rw [hr]
      exact hpublish _ (frame_kafkaAck F offset)
    | afterDispatch =>
      rw [hS] at hr
      rw [hr]
      exact hpublish _ ((kafka_respects config F offset).registerPendingAck _)

/-- **What becomes of a delivered message.**  It is published, filtered, dead-lettered or
dropped, or it waits to be delivered again. -/
theorem deliver_outcome (hs : config.delivery.ackStrategy ≠ .beforePublish)
    (m : KafkaIncomingMessage) (w : Partition) (hw : F.normalizer = .unwired → Known offset w) :
    let w' := (onKafkaMessage config F offset m w).2
    Known offset w' ∨ Waits offset w w' := by
  intro w'
  have h := processMessage_outcome config F offset
    (rawOf config offset m (w.attemptCounts offset)) hs w hw
  simp only [w', onKafkaMessage, handleMessage_exec]
  rcases hr : Handler.exec (processMessage config.delivery (kafkaDeps config F offset)
    (rawOf config offset m (w.attemptCounts offset)) (buildAckContext F offset)) w with
    ⟨⟨err⟩ | ⟨a⟩, v⟩
  · rw [hr] at h
    rcases h with hk | ⟨hv, -⟩
    · left
      exact ((kafka_respects config F offset).handleFailure config.delivery _ err v).fate
        offset hk
    · subst hv
      exact handleFailure_outcome config F offset _ err v
  · rw [hr] at h
    rcases h with hk | ⟨-, err, he⟩
    · exact Or.inl hk
    · cases he

end

/-! ### Runs -/

variable {config : KafkaConfig} {log : PartitionLog}

/-- What holds in every reachable state while messages are handled in order. -/
structure Accounts (log : PartitionLog) (w : Partition) : Prop where
  /-- Nothing before the committed offset is unaccounted for. -/
  committed : ∀ k, (log k).isSome → k < w.committed → Known k w
  /-- Nothing before the consumer's position is, but what failed and waits. -/
  position : ∀ k, (log k).isSome → k < w.position → Known k w ∨ w.failed k = true
  /-- Nothing up to a message whose ack is pending is. -/
  pending : ∀ offset, w.pending offset = true → ∀ k, (log k).isSome → k ≤ offset → Known k w

/-- A step that handles one offset keeps the account, if it leaves the message failed or known
when it was failed, and registers or commits it only when everything up to it is known. -/
theorem Accounts.frame {offset : Nat} {w w' : Partition} (h : Accounts log w)
    (hf : Frame offset w w')
    (hfailed : w.failed offset = true → Known offset w' ∨ w'.failed offset = true)
    (hupto : w'.committed = offset + 1 ∨ w'.pending offset = true →
      ∀ k, (log k).isSome → k ≤ offset → Known k w') : Accounts log w' where
  committed k hk hlt := by
    rcases hf.committed with e | e
    · exact hf.fate k (h.committed k hk (by omega))
    · exact hupto (Or.inl e) k hk (by omega)
  position k hk hlt := by
    rw [hf.position] at hlt
    rcases h.position k hk hlt with hn | hw
    · exact Or.inl (hf.fate k hn)
    · by_cases e : k = offset
      · subst e
        exact hfailed hw
      · exact Or.inr (by rw [hf.failed k e]; exact hw)
  pending o ho k hk hle := by
    by_cases e : o = offset
    · subst e
      exact hupto (Or.inr ho) k hk hle
    · rw [hf.pending o e] at ho
      exact hf.fate k (h.pending o ho k hk hle)

/-- The consumer moves to a position before which nothing is unaccounted for. -/
theorem Accounts.seek {w : Partition} (h : Accounts log w) (position : Nat)
    (hp : ∀ k, (log k).isSome → k < position → Known k w ∨ w.failed k = true) :
    Accounts log { w with position := position } :=
  ⟨h.committed, hp, h.pending⟩

theorem known_before {w : Partition} (h : Accounts log w) {offset : Nat}
    (hnext : IsNext log w offset) (horder : ∀ f, f < offset → w.failed f = false) :
    ∀ k, (log k).isSome → k < offset → Known k w := by
  intro k hk hlt
  by_cases hp : k < w.position
  · rcases h.position k hk hp with hn | hw
    · exact hn
    · rw [horder k hlt] at hw
      cases hw
  · -- between the position and the offset there is no message
    have hnone := hnext.2.2 k hlt (by omega)
    rw [Option.isNone_iff_eq_none] at hnone
    rw [hnone] at hk
    cases hk

theorem begin_known (F : Faults) (offset : Nat) (w : Partition)
    (hN : F.normalizer = .unwired) : Known offset (w.begin F offset) := by
  unfold Partition.begin
  rw [hN]
  exact known_setFate _ _ _

theorem begin_same (F : Faults) (offset : Nat) (w : Partition) :
    (w.begin F offset).committed = w.committed ∧ (w.begin F offset).pending = w.pending := by
  unfold Partition.begin
  split <;> exact ⟨rfl, rfl⟩

theorem frame_deliver (config : KafkaConfig) (F : Faults) (offset : Nat)
    (m : KafkaIncomingMessage) (w : Partition) :
    Frame offset w (onKafkaMessage config F offset m (w.begin F offset)).2 :=
  (frame_begin F offset w).trans
    ((kafka_respects config F offset).handleMessage config.delivery _ _)

theorem Accounts.deliver {w : Partition} (hs : config.delivery.ackStrategy ≠ .beforePublish)
    (h : Accounts log w) {offset : Nat} (F : Faults) (m : KafkaIncomingMessage)
    (hnext : IsNext log w offset) (horder : ∀ f, f < offset → w.failed f = false)
    {position : Nat} (hp : position ≤ offset + 1) :
    Accounts log
      { (onKafkaMessage config F offset m (w.begin F offset)).2 with position := position } := by
  have hf := frame_deliver config F offset m w
  have hbefore : ∀ k, (log k).isSome → k < offset →
      Known k (onKafkaMessage config F offset m (w.begin F offset)).2 := fun k hk hlt =>
    hf.fate k (known_before h hnext horder k hk hlt)
  have hout := deliver_outcome config F offset hs m (w.begin F offset) (begin_known F offset w)
  have houtcome : Known offset (onKafkaMessage config F offset m (w.begin F offset)).2 ∨
      (onKafkaMessage config F offset m (w.begin F offset)).2.failed offset = true :=
    hout.imp id fun hw => hw.failed
  refine Accounts.seek (h.frame hf (fun _ => houtcome) fun hwhy k hk hle => ?_) position
    fun k hk hlt => ?_
  · by_cases hlt : k < offset
    · exact hbefore k hk hlt
    · obtain rfl : k = offset := by omega
      rcases hout with hn | hw
      · exact hn
      · -- it was committed or registered before, so it was known then
        obtain ⟨hc, hpend⟩ := begin_same F k w
        rcases hwhy with e | e
        · rw [hw.committed, hc] at e
          exact hf.fate k (h.committed k hk (by omega))
        · rw [hw.pending, hpend] at e
          exact hf.fate k (h.pending k e k hk le_rfl)
  · by_cases hlt' : k < offset
    · exact Or.inl (hbefore k hk hlt')
    · obtain rfl : k = offset := by omega
      exact houtcome

theorem Accounts.settle {w : Partition} (h : Accounts log w) {offset : Nat} (F : Faults)
    (hpending : w.pending offset = true) :
    Accounts log (Handler.exec (kafkaAck F offset) (w.setPending offset false)).2 := by
  have hf := (frame_setPending offset w false).trans (frame_kafkaAck F offset _)
  have hfailed : (Handler.exec (kafkaAck F offset) (w.setPending offset false)).2.failed =
      w.failed := by
    unfold Handler.exec kafkaAck
    split <;> rfl
  refine h.frame hf (fun hw => Or.inr (by rw [hfailed]; exact hw)) fun _ k hk hle => ?_
  exact hf.fate k (h.pending offset hpending k hk hle)

theorem Accounts.timeout {w : Partition} (h : Accounts log w) {offset : Nat}
    (hpending : w.pending offset = true) :
    Accounts log (Handler.exec (kafkaNack offset) (w.setPending offset false)).2 := by
  have hf := (frame_setPending offset w false).trans (frame_kafkaNack offset _)
  refine h.frame hf (fun _ => Or.inr (waits_kafkaNack offset _).failed) fun _ k hk hle => ?_
  exact hf.fate k (h.pending offset hpending k hk hle)

/-- What every step keeps. -/
structure Kept (config : KafkaConfig) (log : PartitionLog) (w : Partition) : Prop where
  skipped : ∀ offset, w.skipped offset = false
  accounts : config.delivery.ackStrategy ≠ .beforePublish → Accounts log w

theorem Kept.step {w w' : Partition} {label : KafkaLabel} (h : Kept config log w)
    (horder : InOrder w label) (hstep : kafkaStep config log w label = some w') :
    Kept config log w' := by
  cases label with
  | deliver offset F =>
    simp only [kafkaStep] at hstep
    split at hstep
    · rename_i m hm
      split at hstep
      · rename_i hnext
        have hf := frame_deliver config F offset m w
        have hdone : ∃ position, position ≤ offset + 1 ∧ w' =
            { (onKafkaMessage config F offset m (w.begin F offset)).2 with
              position := position } := by
          rcases hr : onKafkaMessage config F offset m (w.begin F offset) with ⟨⟨e⟩ | ⟨u⟩, v⟩
          · rw [hr] at hstep
            exact ⟨offset, by omega, (Option.some.inj hstep).symm⟩
          · rw [hr] at hstep
            exact ⟨offset + 1, le_rfl, (Option.some.inj hstep).symm⟩
        obtain ⟨position, hp, rfl⟩ := hdone
        exact ⟨fun k => (congrFun (hf.skipped horder) k).trans (h.skipped k),
          fun hs => (h.accounts hs).deliver hs F m hnext horder hp⟩
      · cases hstep
    · cases hstep
  | settle offset F =>
    simp only [kafkaStep] at hstep
    split at hstep
    · rename_i hpending
      cases hstep
      have hf := (frame_setPending offset w false).trans (frame_kafkaAck F offset _)
      exact ⟨fun k => (congrFun (hf.skipped horder) k).trans (h.skipped k),
        fun hs => (h.accounts hs).settle F hpending⟩
    · cases hstep
  | timeout offset =>
    simp only [kafkaStep] at hstep
    split at hstep
    · rename_i hpending
      cases hstep
      exact ⟨h.skipped, fun hs => (h.accounts hs).timeout hpending⟩
    · cases hstep
  | rebalance =>
    cases hstep
    exact ⟨h.skipped, fun hs => ⟨(h.accounts hs).committed,
      fun k hk hlt => Or.inl ((h.accounts hs).committed k hk hlt), (h.accounts hs).pending⟩⟩

theorem kept_init : Kept config log Partition.init :=
  ⟨fun _ => rfl, fun _ => ⟨fun _ _ h => absurd h (by simp [Partition.init]),
    fun _ _ h => absurd h (by simp [Partition.init]), fun _ h => by cases h⟩⟩

def sampleConfig (maxRetries : Nat) (dlqTopic : Option String) : KafkaConfig where
  topic := "orders"
  partition := 0
  delivery := ⟨.afterPublish, maxRetries⟩
  dlqTopic := dlqTopic

def twoMessages : PartitionLog := fun offset => if offset < 2 then some { value := "" } else none

end Declaragent.Sources
