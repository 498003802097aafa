import Declaragent.Sources.Kafka

/-!
# Sources — the commits of a partition whose messages are acked after dispatch

In the `after-dispatch` mode the consumer goes on to the next message as soon as one is
published, so any number of deliveries of a partition wait for their dispatch at once, and their
hooks fire in any order.  Each ack commits the offset after its own message, whatever was
committed before.

`consumeStep` is the Kafka source over the pending acks of its base: a delivery is handled by
`handleMessage`, and hooks and timers call the ack handle it was registered with.

* `Moves` is what handling a delivery does to the committed offset: nothing, or the commit of its
  own.
* `consumeStep_advances` is that for every step; `committing` names the delivery that commits.
* `committed_in_order_iff`: the committed offset passes only acked messages, and never goes back,
  exactly in the runs whose commits are in the order of their offsets (`InOffsetOrder`).
-/

namespace Declaragent.Sources
open Events Transition

/-- The consumption of one partition, with the ack handles of its deliveries. -/
structure Consumption (ι : Type) where
  partition : Partition
  settlement : Settlement ι

/-- The group starts from what it has committed. -/
def Consumption.init (ι : Type) (start : Nat) : Consumption ι :=
  ⟨{ Partition.init with position := start, committed := start }, .init ι⟩

/-- The collaborators of a message work on the partition. -/
def onPartition {ι α : Type} (h : Handler Partition α) : Handler (Consumption ι) α := fun w =>
  let r := Handler.exec h w.partition
  (r.1, { w with partition := r.2 })

inductive ConsumeLabel (ι : Type) where
  /-- The message of the delivery is handed over, and its collaborators answer as `F` says. -/
  | deliver (i : ι) (F : Faults)
  /-- `event.after` fires for an event with this id. -/
  | after (eventId : String) (F : Faults)
  /-- The ack timer of a registered delivery runs out. -/
  | timeout (i : ι)
  | rebalance
  | seek (position : Nat)

section
variable {ι : Type} [DecidableEq ι] (config : KafkaConfig) (log : PartitionLog) (offset : ι → Nat)

def Consumption.modify (w : Consumption ι) (i : ι) (f : Delivery → Delivery) : Consumption ι :=
  { w with settlement := w.settlement.modify i f }

def Consumption.seek (w : Consumption ι) (position : Nat) : Consumption ι :=
  { w with partition := { w.partition with position := position } }

/-- The ack handle of the delivery: a Kafka ack or nack of its message. -/
def deliveryContext (F : Faults) (i : ι) : AckContext (Consumption ι) where
  ack := fun w => onPartition (kafkaAck F (offset i)) (w.modify i .callAck)
  nack := fun w => onPartition (kafkaNack (offset i)) (w.modify i .callNack)

/-- What the delivery is handled with. -/
def deliveryDeps (F : Faults) (i : ι) : SourceDependencies (Consumption ι) where
  normalizer := (kafkaDeps config F (offset i)).normalizer.map fun normalize raw =>
    onPartition (normalize raw)
  publish event := onPartition ((kafkaDeps config F (offset i)).publish event)
  sendToDLQ raw err := onPartition ((kafkaDeps config F (offset i)).sendToDLQ raw err)
  registerPendingAck eventId := fun w =>
    if F.hookRegistry then
      (.ok (), { w with settlement := registerPendingAck w.settlement eventId i })
    else (.ok (), (Handler.exec (deliveryContext offset F i).ack w).2)
  tenant := F.tenant

/-- The `event.after` listener, with the commit of the ack it calls. -/
def Consumption.onEventAfter (w : Consumption ι) (F : Faults) (eventId : String) :
    Consumption ι :=
  match w.settlement.pendingAcks eventId with
  | none => w
  | some i => ⟨(Handler.exec (kafkaAck F (offset i)) w.partition).2,
      Sources.onEventAfter w.settlement eventId⟩

def consumeStep (w : Consumption ι) : ConsumeLabel ι → Option (Consumption ι)
  | .deliver i F =>
    match log (offset i) with
    | some m =>
      if IsNext log w.partition (offset i) ∧ w.settlement.delivery i = .new then
        match Handler.exec (handleMessage config.delivery (deliveryDeps config offset F i)
          (rawOf config (offset i) m (w.partition.attemptCounts (offset i)))
          (deliveryContext offset F i))
            { w with partition := w.partition.begin F (offset i) } with
        | (.ok _, t) => some (t.seek (offset i + 1))
        | (.error _, t) => some (t.seek (offset i))
      else none
    | none => none
  | .after eventId F => some (w.onEventAfter offset F eventId)
  | .timeout i =>
    match (w.settlement.delivery i).timer with
    | .armed eventId => some ⟨(Handler.exec (kafkaNack (offset i)) w.partition).2,
        onAckTimeout w.settlement eventId i⟩
    | _ => none
  | .rebalance =>
    some { w with partition :=
      { w.partition with position := w.partition.committed, attemptCounts := fun _ => 0 } }
  | .seek position => some (w.seek position)

/-! ### What is claimed of the commits -/

/-- The message at the offset was acked. -/
def Consumption.Acked (w : Consumption ι) (f : Nat) : Prop :=
  ∃ i, offset i = f ∧ 0 < (w.settlement.delivery i).acks

/-- No message that was not acked is before the committed offset. -/
def Consumption.Covered (start : Nat) (w : Consumption ι) : Prop :=
  ∀ f, start ≤ f → f < w.partition.committed → (log f).isSome → w.Acked offset f

/-- The step leaves the committed offset where it was or moves it on, past acked messages only. -/
def CommitsForward (start : Nat) (w : Consumption ι) (label : ConsumeLabel ι) : Prop :=
  ∀ t, consumeStep config log offset w label = some t →
    w.partition.committed ≤ t.partition.committed ∧ t.Covered log offset start

/-- Handling the message acks it at once, and the commit goes through: it is filtered or no
normalizer is wired, its retries are exhausted, or no hook registry is wired. -/
def commitsAtOnce (F : Faults) (raw : RawMessage) (commits : Nat) : Bool :=
  let commitsNow := fun k => (F.ack k).isNone
  let givesUp := fun k => !decide (raw.attempt < config.delivery.maxRetries) && commitsNow k
  match F.normalizer with
  | .unwired | .filtered => commitsNow commits || givesUp (commits + 1)
  | .threw _ => givesUp commits
  | .event _ =>
    match F.publish with
    | some _ => givesUp commits
    | none => !F.hookRegistry && commitsNow commits

/-- The delivery whose offset the step commits. -/
def committing (w : Consumption ι) : ConsumeLabel ι → Option ι
  | .deliver i F =>
    match log (offset i) with
    | some m => if commitsAtOnce config F (rawOf config (offset i) m
        (w.partition.attemptCounts (offset i))) w.partition.commits then some i else none
    | none => none
  | .after eventId F =>
    if (F.ack w.partition.commits).isNone then w.settlement.pendingAcks eventId else none
  | _ => none

/-- A message is committed only when all before it were acked and none after it is committed. -/
def InOffsetOrder (start : Nat) (w : Consumption ι) (label : ConsumeLabel ι) : Prop :=
  ∀ i, committing config log offset w label = some i →
    (∀ f, start ≤ f → f < offset i → (log f).isSome → w.Acked offset f) ∧
    w.partition.committed ≤ offset i + 1

end

/-! ### What handling a delivery does -/

section
variable {ι : Type} [DecidableEq ι] {config : KafkaConfig} {log : PartitionLog} {offset : ι → Nat}
  {F : Faults} {i : ι} {b : Bool} {u v w : Consumption ι}

/-- Delivery `i` is handled, and commits its offset if `b`. -/
structure Moves (offset : ι → Nat) (i : ι) (b : Bool) (w w' : Consumption ι) : Prop where
  committed : w'.partition.committed = if b then offset i + 1 else w.partition.committed
  acks : ∀ j, (w.settlement.delivery j).acks ≤ (w'.settlement.delivery j).acks
  others : ∀ j, j ≠ i → (w'.settlement.delivery j).acks = (w.settlement.delivery j).acks
  acked : b = true → 0 < (w'.settlement.delivery i).acks

/-- Neither the deliveries nor the commits are touched. -/
structure Quiet (w w' : Consumption ι) : Prop where
  committed : w'.partition.committed = w.partition.committed
  commits : w'.partition.commits = w.partition.commits
  settlement : w'.settlement = w.settlement

omit [DecidableEq ι] in
theorem Quiet.moves (h : Quiet w v) (offset : ι → Nat) (i : ι) : Moves offset i false w v where
  committed := h.committed
  acks j := by rw [h.settlement]
  others j _ := by rw [h.settlement]
  acked hb := by cases hb

omit [DecidableEq ι] in
/-- What comes before a commit commits nothing. -/
theorem Moves.trans (h : Moves offset i false w u) (h' : Moves offset i b u v) :
    Moves offset i b w v where
  committed := by
    rw [h'.committed, h.committed]
    rfl
  acks j := (h.acks j).trans (h'.acks j)
  others j hj := (h'.others j hj).trans (h.others j hj)
  acked := h'.acked

/-- An ack commits unless the commit throws. -/
theorem exec_deliveryAck (offset : ι → Nat) (F : Faults) (i : ι) (w : Consumption ι) :
    ∃ v, Moves offset i (F.ack w.partition.commits).isNone w v ∧
      v.partition.commits = w.partition.commits + 1 ∧
      Handler.exec (deliveryContext offset F i).ack w =
        (match F.ack w.partition.commits with
          | none => .ok ()
          | some err => .error err, v) := by
  refine ⟨⟨(Handler.exec (kafkaAck F (offset i)) w.partition).2,
    w.settlement.modify i .callAck⟩, ⟨?_, fun j => ?_, fun j hj => ?_, fun _ => ?_⟩, ?_, ?_⟩
  · cases hF : F.ack w.partition.commits <;>
      simp [Handler.exec, kafkaAck, hF, Partition.commit, Partition.setAttempts]
  · by_cases hj : j = i
    · subst hj
      simp [Delivery.callAck]
    · rw [modify_delivery_of_ne _ hj]
  · rw [modify_delivery_of_ne _ hj]
  · simp [Delivery.callAck]
  · cases hF : F.ack w.partition.commits <;>
      simp [Handler.exec, kafkaAck, hF, Partition.commit, Partition.setAttempts]
  · cases hF : F.ack w.partition.commits <;>
      simp [Handler.exec, kafkaAck, hF, deliveryContext, onPartition, Consumption.modify]

theorem nack_moves (offset : ι → Nat) (F : Faults) (i : ι) (w : Consumption ι) :
    Moves offset i false w (Handler.exec (deliveryContext offset F i).nack w).2 := by
  refine ⟨rfl, fun j => ?_, fun j hj => ?_, fun hb => (by cases hb)⟩
  · by_cases hj : j = i
    · subst hj
      simp [Handler.exec, deliveryContext, onPartition, Consumption.modify, Delivery.callNack]
    · simp [Handler.exec, deliveryContext, onPartition, Consumption.modify,
        modify_delivery_of_ne _ hj]
  · simp [Handler.exec, deliveryContext, onPartition, Consumption.modify,
      modify_delivery_of_ne _ hj]

variable (config offset F i) in
theorem sendToDLQ_quiet (raw : RawMessage) (err : String) (w : Consumption ι) :
    Quiet w (Handler.exec ((deliveryDeps config offset F i).sendToDLQ raw err) w).2 := by
  unfold Handler.exec deliveryDeps onPartition Handler.exec kafkaDeps
  dsimp only
  split <;> exact ⟨rfl, rfl, rfl⟩

variable (config F i) in
/-- A failure commits once the retries are exhausted. -/
theorem handleFailure_moves (offset : ι → Nat) (raw : RawMessage) (err : String)
    (w : Consumption ι) :
    Moves offset i (!decide (raw.attempt < config.delivery.maxRetries) &&
        (F.ack w.partition.commits).isNone) w
      (Handler.exec (handleFailure config.delivery (deliveryDeps config offset F i) raw
        (deliveryContext offset F i) err) w).2 := by
  rw [handleFailure_exec]
  split
  · rename_i hlt
    simpa [hlt] using nack_moves offset F i w
  · rename_i hge
    have hdlq := sendToDLQ_quiet config offset F i raw err w
    obtain ⟨v, hv, -, hexec⟩ := exec_deliveryAck offset F i
      (Handler.exec ((deliveryDeps config offset F i).sendToDLQ raw err) w).2
    rw [hexec]
    rw [hdlq.commits] at hv
    simpa [hge] using (hdlq.moves offset i).trans hv

theorem register_moves (offset : ι → Nat) (eventId : String) (w : Consumption ι) :
    Moves offset i false w { w with settlement := registerPendingAck w.settlement eventId i } := by
  have hacks : ∀ j, ((registerPendingAck w.settlement eventId i).delivery j).acks =
      (w.settlement.delivery j).acks := by
    intro j
    unfold registerPendingAck
    rw [setPending_delivery]
    by_cases hj : j = i
    · subst hj
      simp [Delivery.arm]
    · rw [modify_delivery_of_ne _ hj]
  exact ⟨rfl, fun j => (hacks j).ge, fun j _ => hacks j, fun hb => (by cases hb)⟩

variable (config F i) in
/-- What an ack in the body of the `try` commits, also where it throws. -/
theorem tryAck_moves (offset : ι → Nat) (raw : RawMessage) (w : Consumption ι) :
    Moves offset i ((F.ack w.partition.commits).isNone ||
        (!decide (raw.attempt < config.delivery.maxRetries) &&
          (F.ack (w.partition.commits + 1)).isNone)) w
      (Handler.exec (tryCatch (deliveryContext offset F i).ack (handleFailure config.delivery
        (deliveryDeps config offset F i) raw (deliveryContext offset F i))) w).2 := by
  obtain ⟨u, hu, hcommits, hexec⟩ := exec_deliveryAck offset F i w
  rw [exec_tryCatch, hexec]
  cases hF : F.ack w.partition.commits with
  | none =>
    rw [hF] at hu
    exact hu
  | some err =>
    -- the commit threw, so the failure may ack once more
    rw [hF] at hu
    have hfail := handleFailure_moves config F i offset raw err u
    rw [hcommits] at hfail
    exact hu.trans hfail

theorem tryCatch_exec_congr {τ : Type} {x y : Handler τ Unit} {f : String → Handler τ Unit}
    {s t : τ} (h : Handler.exec x s = Handler.exec y t) :
    Handler.exec (tryCatch x f) s = Handler.exec (tryCatch y f) t := by
  rw [exec_tryCatch, exec_tryCatch, h]

/-- **Handling a delivery** commits its offset where the message is acked at once. -/
theorem handleMessage_moves (hs : config.delivery.ackStrategy = .afterDispatch)
    (offset : ι → Nat) (F : Faults) (i : ι) (raw : RawMessage) (w : Consumption ι) :
    Moves offset i (commitsAtOnce config F raw w.partition.commits) w
      (Handler.exec (handleMessage config.delivery (deliveryDeps config offset F i) raw
        (deliveryContext offset F i)) w).2 := by
  unfold handleMessage processMessage
  cases hN : F.normalizer with
  | unwired =>
    have hd : (deliveryDeps config offset F i).normalizer = none := by
      simp [deliveryDeps, kafkaDeps, hN]
    rw [hd]
    simpa [commitsAtOnce, hN] using tryAck_moves config F i offset raw w
  | filtered =>
    have hd : (deliveryDeps config offset F i).normalizer = some fun _ =>
        onPartition fun p => (.ok none, p.setFate (offset i) .filtered) := by
      simp [deliveryDeps, kafkaDeps, hN]
    rw [hd]
    have hquiet : Quiet w { w with partition := w.partition.setFate (offset i) .filtered } :=
      ⟨rfl, rfl, rfl⟩
    have htry := tryAck_moves config F i offset raw
      { w with partition := w.partition.setFate (offset i) .filtered }
    rw [hquiet.commits] at htry
    rw [tryCatch_exec_congr (y := (deliveryContext offset F i).ack)
      (t := { w with partition := w.partition.setFate (offset i) .filtered })]
    · simpa [commitsAtOnce, hN] using (hquiet.moves offset i).trans htry
    · rw [exec_bind]
      rfl
  | threw err =>
    have hd : (deliveryDeps config offset F i).normalizer = some fun _ =>
        onPartition fun p => (.error err, p) := by
      simp [deliveryDeps, kafkaDeps, hN]
    have hn : Handler.exec (onPartition fun p : Partition =>
        ((.error err : Except String (Option AgentEvent)), p)) w = (.error err, w) := rfl
    simp only [hd, exec_tryCatch, exec_bind, hn]
    simpa [commitsAtOnce, hN] using handleFailure_moves config F i offset raw err w
  | event event =>
    have hd : (deliveryDeps config offset F i).normalizer = some fun _ =>
        onPartition fun p => (.ok (some event), p) := by
      simp [deliveryDeps, kafkaDeps, hN]
    have hn : Handler.exec (onPartition fun p : Partition =>
        ((.ok (some event) : Except String (Option AgentEvent)), p)) w =
          (.ok (some event), w) := rfl
    simp only [hd, exec_tryCatch, exec_bind, hn, hs]
    cases hP : F.publish with
    | some err =>
      have hp : ∀ event, Handler.exec ((deliveryDeps config offset F i).publish event) w =
          (.error err, w) := fun event => by
        simp [deliveryDeps, kafkaDeps, Handler.exec, onPartition, hP]
      simp only [hp]
      simpa [commitsAtOnce, hN, hP] using
        handleFailure_moves config F i offset raw err w
    | none =>
      have hp : ∀ event, Handler.exec ((deliveryDeps config offset F i).publish event) w =
          (.ok (), { w with partition := w.partition.setFate (offset i) .published }) :=
        fun event => by
          simp [deliveryDeps, kafkaDeps, Handler.exec, onPartition, hP]
      simp only [hp]
      have hquiet : Quiet w { w with
          partition := w.partition.setFate (offset i) .published } := ⟨rfl, rfl, rfl⟩
      cases hR : F.hookRegistry with
      | true =>
        have hr : ∀ eventId v, Handler.exec
            ((deliveryDeps config offset F i).registerPendingAck eventId) v = (.ok (),
              { v with settlement := registerPendingAck v.settlement eventId i }) :=
          fun eventId v => by simp [deliveryDeps, Handler.exec, hR]
        simp only [hr]
        simpa [commitsAtOnce, hN, hP, hR] using
          (hquiet.moves offset i).trans (register_moves offset _ _)
      | false =>
        obtain ⟨v, hv, -, hexec⟩ := exec_deliveryAck offset F i
          { w with partition := w.partition.setFate (offset i) .published }
        have hr : ∀ eventId v, Handler.exec
            ((deliveryDeps config offset F i).registerPendingAck eventId) v =
              (.ok (), (Handler.exec (deliveryContext offset F i).ack v).2) :=
          fun eventId v => by simp [deliveryDeps, Handler.exec, hR]
        simp only [hr, hexec]
        rw [hquiet.commits] at hv
        simpa [commitsAtOnce, hN, hP, hR] using (hquiet.moves offset i).trans hv

/-! ### What a step does -/

/-- The step commits the offset of the delivery it names, or nothing. -/
structure Advances (offset : ι → Nat) (i? : Option ι) (w w' : Consumption ι) : Prop where
  committed : w'.partition.committed =
    match i? with
    | none => w.partition.committed
    | some i => offset i + 1
  acks : ∀ j, (w.settlement.delivery j).acks ≤ (w'.settlement.delivery j).acks
  others : ∀ i, i? = some i → ∀ j, j ≠ i →
    (w'.settlement.delivery j).acks = (w.settlement.delivery j).acks
  acked : ∀ i, i? = some i → 0 < (w'.settlement.delivery i).acks

omit [DecidableEq ι] in
theorem Moves.advances (h : Moves offset i b w v) :
    Advances offset (if b then some i else none) w v := by
  cases b with
  | false => exact ⟨h.committed, h.acks, fun _ hi => (by cases hi), fun _ hi => (by cases hi)⟩
  | true =>
    refine ⟨h.committed, h.acks, fun j hj => ?_, fun j hj => ?_⟩
    · cases hj
      exact h.others
    · cases hj
      exact h.acked rfl

/-- The hook of a registered delivery commits its offset, unless the commit throws. -/
theorem onEventAfter_moves {eventId : String} (hp : w.settlement.pendingAcks eventId = some i) :
    Moves offset i (F.ack w.partition.commits).isNone w (w.onEventAfter offset F eventId) := by
  have hdelivery : (w.onEventAfter offset F eventId).settlement.delivery =
      Function.update w.settlement.delivery i
        (Delivery.settle eventId (w.settlement.delivery i)) := by
    simp [Consumption.onEventAfter, Sources.onEventAfter, hp, Settlement.modify]
  refine ⟨?_, fun j => ?_, fun j hj => ?_, fun _ => ?_⟩
  · cases hF : F.ack w.partition.commits <;>
      simp [Consumption.onEventAfter, hp, Handler.exec, kafkaAck, hF, Partition.commit,
        Partition.setAttempts]
  · rw [hdelivery]
    by_cases hj : j = i
    · subst hj
      simp [Delivery.settle]
    · simp [hj]
  · rw [hdelivery]
    simp [hj]
  · rw [hdelivery]
    simp [Delivery.settle]

theorem onAckTimeout_moves (offset : ι → Nat) (eventId : String) (i : ι) (w : Consumption ι) :
    Moves offset i false w ⟨(Handler.exec (kafkaNack (offset i)) w.partition).2,
      onAckTimeout w.settlement eventId i⟩ := by
  have hacks : ∀ j, ((onAckTimeout w.settlement eventId i).delivery j).acks =
      (w.settlement.delivery j).acks := by
    intro j
    unfold onAckTimeout
    by_cases hj : j = i
    · subst hj
      simp [Delivery.expire]
    · rw [modify_delivery_of_ne _ hj, setPending_delivery]
  exact ⟨rfl, fun j => (hacks j).ge, fun j _ => hacks j, fun hb => (by cases hb)⟩

/-- **One step.** -/
theorem consumeStep_advances (hs : config.delivery.ackStrategy = .afterDispatch)
    {label : ConsumeLabel ι} (hstep : consumeStep config log offset w label = some v) :
    Advances offset (committing config log offset w label) w v := by
  cases label with
  | deliver i F =>
    simp only [consumeStep] at hstep
    split at hstep
    · rename_i m hm
      split at hstep
      · have hbegin : Quiet w { w with partition := w.partition.begin F (offset i) } := by
          unfold Partition.begin
          split <;> exact ⟨rfl, rfl, rfl⟩
        have hmoves := handleMessage_moves hs offset F i
          (rawOf config (offset i) m (w.partition.attemptCounts (offset i)))
          { w with partition := w.partition.begin F (offset i) }
        rw [hbegin.commits] at hmoves
        have hadvances := ((hbegin.moves offset i).trans hmoves).advances
        have hcommitting : committing config log offset w (.deliver i F) =
            if commitsAtOnce config F (rawOf config (offset i) m
              (w.partition.attemptCounts (offset i))) w.partition.commits
            then some i else none := by
          simp only [committing, hm]
        rw [hcommitting]
        rcases hr : Handler.exec (handleMessage config.delivery (deliveryDeps config offset F i)
            (rawOf config (offset i) m (w.partition.attemptCounts (offset i)))
            (deliveryContext offset F i))
              { w with partition := w.partition.begin F (offset i) } with ⟨err | u, t⟩
        · rw [hr] at hstep hadvances
          cases hstep
          exact ⟨hadvances.committed, hadvances.acks, hadvances.others, hadvances.acked⟩
        · rw [hr] at hstep hadvances
          cases hstep
          exact ⟨hadvances.committed, hadvances.acks, hadvances.others, hadvances.acked⟩
      · cases hstep
    · cases hstep
  | after eventId F =>
    cases hstep
    cases hp : w.settlement.pendingAcks eventId with
    | none =>
      have hidle : w.onEventAfter offset F eventId = w := by
        simp [Consumption.onEventAfter, hp]
      rw [hidle]
      simp only [committing, hp, ite_self]
      exact ⟨rfl, fun _ => le_rfl, fun _ hi => (by cases hi), fun _ hi => (by cases hi)⟩
    | some i =>
      simpa only [committing, hp] using (onEventAfter_moves hp).advances
  | timeout i =>
    simp only [consumeStep] at hstep
    split at hstep
    · cases hstep
      exact (onAckTimeout_moves offset _ i w).advances
    · cases hstep
  | rebalance =>
    cases hstep
    exact ⟨rfl, fun _ => le_rfl, fun _ hi => (by cases hi), fun _ hi => (by cases hi)⟩
  | seek position =>
    cases hstep
    exact ⟨rfl, fun _ => le_rfl, fun _ hi => (by cases hi), fun _ hi => (by cases hi)⟩

/-! ### Runs -/

variable {start : Nat}

/-- A step commits forward exactly when it commits in the order of the offsets. -/
theorem commitsForward_iff (hs : config.delivery.ackStrategy = .afterDispatch)
    {label : ConsumeLabel ι} (h : w.Covered log offset start)
    (hstep : consumeStep config log offset w label = some v) :
    CommitsForward config log offset start w label ↔
      InOffsetOrder config log offset start w label := by
  have hv := consumeStep_advances hs hstep
  have hacked : ∀ f, w.Acked offset f → v.Acked offset f := by
    rintro f ⟨j, hj, hpos⟩
    exact ⟨j, hj, lt_of_lt_of_le hpos (hv.acks j)⟩
  constructor
  · intro hforward i hi
    obtain ⟨hle, hcovered⟩ := hforward v hstep
    have hcommitted : v.partition.committed = offset i + 1 := by
      rw [hv.committed, hi]
    rw [hcommitted] at hle
    refine ⟨fun f hf hlt hm => ?_, hle⟩
    obtain ⟨j, rfl, hpos⟩ := hcovered f hf (by omega) hm
    -- the step acked a later message, so this one was acked before
    have hne : j ≠ i := by
      rintro rfl
      exact lt_irrefl _ hlt
    exact ⟨j, rfl, by rwa [hv.others i hi j hne] at hpos⟩
  · intro horder t ht
    obtain rfl : v = t := Option.some.inj (hstep.symm.trans ht)
    cases hi : committing config log offset w label with
    | none =>
      have hcommitted : v.partition.committed = w.partition.committed := by
        rw [hv.committed, hi]
      exact ⟨hcommitted.ge, fun f hf hlt hm =>
        hacked f (h f hf (by rwa [hcommitted] at hlt) hm)⟩
    | some i =>
      obtain ⟨hbefore, hle⟩ := horder i hi
      have hcommitted : v.partition.committed = offset i + 1 := by
        rw [hv.committed, hi]
      refine ⟨by rwa [hcommitted], fun f hf hlt hm => ?_⟩
      rw [hcommitted] at hlt
      rcases Nat.lt_succ_iff_lt_or_eq.mp hlt with hlt | rfl
      · exact hacked f (hbefore f hf hlt hm)
      · exact ⟨i, rfl, hv.acked i hi⟩

omit [DecidableEq ι] in
theorem covered_start : (Consumption.init ι start).Covered log offset start :=
  fun _ hf hlt _ => absurd hlt (Nat.not_lt.mpr hf)

/-- The end of a run whose steps all commit forward. -/
theorem covered_of_run {labels : List (ConsumeLabel ι)}
    (r : Run (consumeStep config log offset) (CommitsForward config log offset start)
      (.init ι start) labels w) : w.Covered log offset start :=
  r.invariant covered_start fun _ _ _ _ hforward hstep => (hforward _ hstep).2

/-- **The commits of a partition.**  For any number of deliveries acked after their dispatch,
redeliveries, failures, rebalances and seeks, in any order: every step of a run commits forward,
past no message that was not acked, exactly when every step commits in the order of the
offsets. -/
theorem committed_in_order_iff (hs : config.delivery.ackStrategy = .afterDispatch)
    (log : PartitionLog) (offset : ι → Nat) (start : Nat) (labels : List (ConsumeLabel ι))
    (w : Consumption ι) :
    Run (consumeStep config log offset) (CommitsForward config log offset start)
        (.init ι start) labels w ↔
      Run (consumeStep config log offset) (InOffsetOrder config log offset start)
        (.init ι start) labels w :=
  Run.congr_of (P := fun w => w.Covered log offset start) covered_start
    (fun _ _ _ h hstep => commitsForward_iff hs h hstep)
    fun _ _ _ _ hforward hstep => (hforward _ hstep).2

end

/-! ### Two messages in flight -/

def afterDispatchConfig : KafkaConfig where
  topic := "orders"
  partition := 0
  delivery := ⟨.afterDispatch, 1⟩
  dlqTopic := none

/-- The message is published as an event with this id. -/
def publishedAs (eventId : String) : Faults :=
  { faults none none with normalizer := .event { wakeup with id := eventId } }

/-- The first delivery is of the message at offset 0, the second of the one at offset 1. -/
def firstThenSecond (i : Bool) : Nat := if i then 0 else 1

/-- The dispatch of the second message completes first, and its ack commits past the first. -/
theorem later_ack_passes : ¬ ∀ (ι : Type) (_ : DecidableEq ι) (config : KafkaConfig)
    (log : PartitionLog) (offset : ι → Nat) (start : Nat) (labels : List (ConsumeLabel ι))
    (w : Consumption ι), config.delivery.ackStrategy = .afterDispatch →
      Run (consumeStep config log offset) Any (.init ι start) labels w →
        Run (consumeStep config log offset) (CommitsForward config log offset start)
          (.init ι start) labels w := by
  intro h
  obtain ⟨w, r, hw⟩ := Run.any_of_replay
    (p := fun w : Consumption Bool => decide (w.partition.committed = 2) &&
      decide ((w.settlement.delivery true).acks = 0))
    (show (exec (consumeStep afterDispatchConfig twoMessages firstThenSecond) (.init Bool 0)
      [.deliver true (publishedAs "e1"), .deliver false (publishedAs "e2"),
        .after "e2" (publishedAs "e2")]).any _ = true by decide)
  rw [Bool.and_eq_true, decide_eq_true_eq, decide_eq_true_eq] at hw
  obtain ⟨i, hi, hpos⟩ := covered_of_run (h Bool _ _ _ _ _ _ w rfl r) 0 (Nat.le_refl 0)
    (by omega) rfl
  cases i with
  | true => omega
  | false => cases hi

/-- In order, both messages are committed. -/
theorem committed_in_order_iff_two : ∃ w : Consumption Bool,
    Run (consumeStep afterDispatchConfig twoMessages firstThenSecond)
      (CommitsForward afterDispatchConfig twoMessages firstThenSecond 0) (.init Bool 0)
      [.deliver true (publishedAs "e1"), .deliver false (publishedAs "e2"),
        .after "e1" (publishedAs "e1"), .after "e2" (publishedAs "e2")] w ∧
    w.partition.committed = 2 := by
  have r : Run (consumeStep afterDispatchConfig twoMessages firstThenSecond)
      (InOffsetOrder afterDispatchConfig twoMessages firstThenSecond 0) (.init Bool 0)
      [.deliver true (publishedAs "e1"), .deliver false (publishedAs "e2"),
        .after "e1" (publishedAs "e1"), .after "e2" (publishedAs "e2")] _ :=
    .snoc (.snoc (.snoc (.snoc .nil (fun _ hi => (by cases hi)) rfl) (fun _ hi => (by cases hi))
      rfl) (fun i hi => (by
        cases hi
        exact ⟨fun f _ hlt => absurd hlt (Nat.not_lt_zero f), Nat.zero_le _⟩)) rfl)
      (fun i hi => (by
        cases hi
        refine ⟨fun f _ hlt _ => ⟨true, (Nat.lt_one_iff.mp hlt).symm, Nat.one_pos⟩, ?_⟩
        exact Nat.le_succ 1)) rfl
  exact ⟨_, (committed_in_order_iff rfl _ _ _ _ _).mpr r, rfl⟩

end Declaragent.Sources
