import Declaragent.Library.JsNumber
import Declaragent.Sources.Adapters
import Declaragent.Sources.BaseSource
import Mathlib.Order.Lattice.Nat

/-!
# Sources — the retry budget

A message whose handling fails is nacked while the attempt that the adapter counts is below
`maxRetries`, and is then sent to the dead letter queue and acked.  Each adapter counts the
attempts in its own way: MQTT and Kafka in a map by the name of the message, AMQP in such a map or
by what the headers say, whichever is more, NATS and SQS by the count of the broker.

* `Counting` is what the adapters differ in; `deliver` hands one delivery to the base class.
* `Kept` is what a run keeps: a message that always fails was nacked as often as it was delivered,
  until its budget was spent.
* `budget_of_run` is the rule for an adapter, and `budgeted_of_run` the result for the five of them.
* `nacked_again` is the message without an id: AMQP nacks it for ever.
-/

namespace Declaragent.Sources.RetryBudget
open Events JsonText Transition

/-! ### How the adapters count -/

/-- `Number(v)`. -/
def toNumber : Option Json → Numeral
  | none => .nonFinite .nan
  | some .null => .finite 0
  | some (.bool b) => .finite (if b then 1 else 0)
  | some (.num n) => .finite n.value
  | some (.str s) => .ofText s
  | some v => .ofText (jsString v)

def deliveryCountHeader : String := "x-declaragent-delivery-count"

/-- Where an adapter keeps its count for a delivery, if it keeps one; the least that the delivery
itself gives; what a nack makes of the count, and the error that it throws. -/
structure Counting (δ : Type) where
  key : δ → Option String
  floor : δ → WithTop Nat
  next : δ → Nat → Nat := fun _ n => n + 1
  nackError : δ → Option String := fun _ => none

/-- A header that spells no finite number counts as zero. -/
def headerCount (headers : List (String × Json)) : Nat :=
  match toNumber (headers.lookup deliveryCountHeader) with
  | .finite q => ⌊q⌋₊
  | .nonFinite _ => 0

/-- The sum of the counts of the `x-death` entries. -/
def extractXDeathCount (headers : List (String × Json)) : Nat :=
  match headers.lookup "x-death" with
  | some (.arr entries) => ⌊(entries.map fun entry =>
    match toNumber (entry.field "count") with
    | .finite q => if 0 < q then q else 0
    | .nonFinite _ => 0).sum⌋₊
  | _ => 0

def amqpFloor (msg : AmqpIncomingMessage) : Nat :=
  max (headerCount msg.headers)
    (max (extractXDeathCount msg.headers) (if msg.redelivered then 1 else 0))

def amqpCounting : Counting AmqpIncomingMessage where
  key msg := some msg.tagKey
  floor msg := amqpFloor msg

/-- The message with what `nextQos0Seq` draws for it.  A nack of QoS 0 forgets the count. -/
def mqttCounting : Counting (MqttIncomingMessage × String) where
  key := fun (m, seq) => some (m.messageKey seq)
  floor _ := (0 : Nat)
  next := fun (m, _) n => if m.qos = .atMostOnce then 0 else n + 1
  nackError := fun (m, _) =>
    if m.qos = .atMostOnce then none else some "mqtt retry scheduled"

def natsCounting : Counting NatsIncomingMessage where
  key _ := none
  floor m := ((m.redeliveryCount - 1 : Nat) : WithTop Nat)

def sqsCounting : Counting SqsIncomingMessage where
  key _ := none
  floor msg := (Numeral.ofText ((msg.attributes.lookup "ApproximateReceiveCount").getD "1")).count

/-- `headerAttempt ? Number(headerAttempt) : 0`. -/
def kafkaFloor (N : NormalizerDeps) (m : KafkaReplay.KafkaIncomingMessage) : WithTop Nat :=
  match (KafkaReplay.decodeHeaders N m.headers).lookup deliveryCountHeader with
  | none | some (.str "") => (0 : Nat)
  | some v => (toNumber (some v)).count

def kafkaCounting (N : NormalizerDeps) : Counting KafkaReplay.KafkaIncomingMessage where
  key m := some (KafkaReplay.messageId m)
  floor := kafkaFloor N
  nackError _ := some "kafka retry scheduled"

/-! ### Deliveries to a source -/

inductive Call where
  | nack
  | sendToDLQ
  | ack
  deriving DecidableEq

/-- What an adapter counts, what was called for each message, how often and under which key it was
last delivered, and the last delivery tag on the channel. -/
structure Retries (μ : Type) where
  attemptCounts : String → Nat := fun _ => 0
  calls : μ → List Call := fun _ => []
  deliveries : μ → Nat := fun _ => 0
  lastKey : μ → Option String := fun _ => none
  lastTag : Nat := 0

/-- How the handling of a delivery goes: the filter drops it, or the normalizer or the bus
throws. -/
inductive Processing where
  | filtered
  | normalizeThrows (err : String)
  | publishThrows (event : AgentEvent) (err : String)

section
variable {μ δ ε : Type} [DecidableEq μ]

namespace Retries

def call (s : Retries μ) (x : μ) (c : Call) : Retries μ :=
  { s with calls := Function.update s.calls x (s.calls x ++ [c]) }

def count (s : Retries μ) : Option String → Nat
  | none => 0
  | some key => s.attemptCounts key

def setCount (s : Retries μ) (n : Nat) : Option String → Retries μ
  | none => s
  | some key => { s with attemptCounts := Function.update s.attemptCounts key n }

end Retries

/-- The ack handle of a delivery. -/
def ackContext (A : Counting δ) (x : μ) (d : δ) : AckContext (Retries μ) where
  ack s := (.ok (), (s.call x .ack).setCount 0 (A.key d))
  nack s :=
    (match A.nackError d with
      | none => .ok ()
      | some err => .error err,
      (s.call x .nack).setCount (A.next d (s.count (A.key d))) (A.key d))

/-- The collaborators of the base class, of which the dead letter queue may throw. -/
def budgetDeps (x : μ) (p : Processing) (dlqError : Option String) :
    SourceDependencies (Retries μ) where
  normalizer := some fun _ s =>
    match p with
    | .filtered => (.ok none, s)
    | .normalizeThrows err => (.error err, s)
    | .publishThrows event _ => (.ok (some event), s)
  publish _ s :=
    match p with
    | .publishThrows _ err => (.error err, s)
    | .filtered | .normalizeThrows _ => (.ok (), s)
  sendToDLQ _ _ s :=
    match dlqError with
    | none => (.ok (), s.call x .sendToDLQ)
    | some err => (.error err, s)
  registerPendingAck _ s := (.ok (), s)
  tenant := none

/-- What the base class reads of the raw message. -/
def countedMessage (deliveryCount : WithTop Nat) : Sources.RawMessage where
  value := ""
  deliveryCount := some deliveryCount

def deliver (A : Counting δ) (config : DeliveryConfig) (s : Retries μ) (x : μ) (d : δ)
    (p : Processing) (dlqError : Option String) : Retries μ :=
  let raw := countedMessage (max (s.count (A.key d) : WithTop Nat) (A.floor d))
  let s' := (Handler.exec
    (handleMessage config (budgetDeps x p dlqError) raw (ackContext A x d)) s).2
  { s' with
    deliveries := Function.update s.deliveries x (s.deliveries x + 1)
    lastKey := Function.update s.lastKey x (A.key d)
    lastTag := s.lastTag + 1 }

inductive RetryLabel (μ ε : Type) where
  | delivers (x : μ) (e : ε) (p : Processing) (dlqError : Option String)
  /-- The source stops and starts again, or its partitions are assigned again. -/
  | restarts

/-- What the broker hands over; `none` if it does not deliver the message so. -/
abbrev Hand (μ δ ε : Type) := Retries μ → μ → ε → Option δ

/-- A message that is acked is not delivered again, and the handling of one that is `poison`
always fails. -/
def retryStep (A : Counting δ) (hand : Hand μ δ ε) (config : DeliveryConfig) (poison : μ → Bool)
    (s : Retries μ) : RetryLabel μ ε → Option (Retries μ)
  | .delivers x e p dlqError =>
    if .ack ∈ s.calls x then none
    else
      match poison x, p with
      | true, .filtered => none
      | _, p => (hand s x e).map fun d => deliver A config s x d p dlqError
  | .restarts => some { s with attemptCounts := fun _ => 0, lastTag := 0 }

/-- The calls for a message that always fails, after `k` deliveries of `m + 1`. -/
def budget (m k : Nat) : List Call :=
  if k ≤ m then List.replicate k .nack else List.replicate m .nack ++ [.sendToDLQ, .ack]

/-- The message was nacked at each of its first `m` deliveries and dead-lettered and acked at the
next one, as far as it was delivered; and it was not delivered after that. -/
def Budgeted (m : Nat) (s : Retries μ) (x : μ) : Prop :=
  s.deliveries x ≤ m + 1 ∧ s.calls x = budget m (s.deliveries x)

/-- It was nacked, and nothing else has become of it. -/
def Retries.Waits (m : Nat) (s : Retries μ) (x : μ) : Prop :=
  0 < s.deliveries x ∧ s.deliveries x ≤ m

/-- The handling fails before the message is acked. -/
def Fails (config : DeliveryConfig) : Processing → Prop
  | .filtered => False
  | .normalizeThrows _ => True
  | .publishThrows _ _ => config.ackStrategy ≠ .beforePublish

end

/-! ### What a delivery does -/

section
variable {μ : Type} {s : Retries μ}

@[simp] theorem calls_setCount (n : Nat) (key : Option String) :
    (s.setCount n key).calls = s.calls := by
  cases key <;> rfl

theorem count_setCount_of_ne {key other : Option String} (h : other ≠ key) (n : Nat) :
    (s.setCount n key).count other = s.count other := by
  cases key with
  | none => rfl
  | some key =>
    cases other with
    | none => rfl
    | some other => exact Function.update_of_ne (fun e => h (congrArg some e)) ..

theorem count_setCount_self (key : String) (n : Nat) :
    (s.setCount n (some key)).count (some key) = n :=
  Function.update_self ..

end

section
variable {μ δ ε : Type} [DecidableEq μ] {A : Counting δ} {config : DeliveryConfig} {s : Retries μ}
  {x y : μ} {d : δ} {p : Processing} {dlqError : Option String}

@[simp] theorem calls_call_self (c : Call) : (s.call x c).calls x = s.calls x ++ [c] :=
  Function.update_self ..

@[simp] theorem calls_call_of_ne (h : y ≠ x) (c : Call) : (s.call x c).calls y = s.calls y :=
  Function.update_of_ne h ..

theorem exec_fails (hp : Fails config p) (raw : Sources.RawMessage) :
    ∃ err, Handler.exec (processMessage config (budgetDeps x p dlqError) raw (ackContext A x d)) s =
      (.error err, s) := by
  cases p with
  | filtered => exact hp.elim
  | normalizeThrows err => exact ⟨err, rfl⟩
  | publishThrows event err =>
    refine ⟨err, ?_⟩
    unfold processMessage
    cases hstrategy : config.ackStrategy with
    | beforePublish => exact absurd hstrategy hp
    | afterPublish => rfl
    | afterDispatch => rfl

/-- What the handling of a delivery leaves as it is, but for the calls for the message and the
count under its key. -/
structure Elsewhere (A : Counting δ) (x : μ) (d : δ) (s t : Retries μ) : Prop where
  calls : ∀ y, y ≠ x → t.calls y = s.calls y
  counts : ∀ key, some key ≠ A.key d → t.count (some key) = s.count (some key)

theorem elsewhere_call (c : Call) (n : Nat) :
    Elsewhere A x d s ((s.call x c).setCount n (A.key d)) where
  calls y hy := by rw [calls_setCount, calls_call_of_ne hy]
  counts key hkey := count_setCount_of_ne hkey n

omit [DecidableEq μ] in
theorem Elsewhere.trans {t u : Retries μ} (h : Elsewhere A x d s t) (h' : Elsewhere A x d t u) :
    Elsewhere A x d s u where
  calls y hy := (h'.calls y hy).trans (h.calls y hy)
  counts key hkey := (h'.counts key hkey).trans (h.counts key hkey)

theorem budget_respects (A : Counting δ) (x : μ) (d : δ) (p : Processing)
    (dlqError : Option String) :
    Respects (Elsewhere A x d) (budgetDeps x p dlqError) (ackContext A x d) where
  refl _ := ⟨fun _ _ => rfl, fun _ _ => rfl⟩
  trans := Elsewhere.trans
  ack _ := elsewhere_call .ack 0
  nack _ := elsewhere_call .nack _
  normalizer normalize h := by
    cases h
    intro raw s
    cases p <;> exact ⟨fun _ _ => rfl, fun _ _ => rfl⟩
  publish _ s := by
    cases p <;> exact ⟨fun _ _ => rfl, fun _ _ => rfl⟩
  sendToDLQ _ _ s := by
    cases dlqError with
    | none => exact ⟨fun y hy => calls_call_of_ne hy _, fun _ _ => rfl⟩
    | some err => exact ⟨fun _ _ => rfl, fun _ _ => rfl⟩
  registerPendingAck _ _ := ⟨fun _ _ => rfl, fun _ _ => rfl⟩

theorem elsewhere_deliver : Elsewhere A x d s (deliver A config s x d p dlqError) := by
  have h := (budget_respects A x d p dlqError).handleMessage config
    (countedMessage (max (s.count (A.key d) : WithTop Nat) (A.floor d))) s
  exact ⟨h.calls, h.counts⟩

/-- A delivery whose handling fails is nacked while the count is below the budget. -/
theorem deliver_fails (hp : Fails config p) :
    deliver A config s x d p none =
      let t := if max (s.count (A.key d) : WithTop Nat) (A.floor d) < config.maxRetries then
          (s.call x .nack).setCount (A.next d (s.count (A.key d))) (A.key d)
        else ((s.call x .sendToDLQ).call x .ack).setCount 0 (A.key d)
      { t with
        deliveries := Function.update s.deliveries x (s.deliveries x + 1)
        lastKey := Function.update s.lastKey x (A.key d)
        lastTag := s.lastTag + 1 } := by
  let raw := countedMessage (max (s.count (A.key d) : WithTop Nat) (A.floor d))
  obtain ⟨err, hprocess⟩ : ∃ err, Handler.exec
      (processMessage config (budgetDeps x p none) raw (ackContext A x d)) s = (.error err, s) :=
    exec_fails hp raw
  have hattempt : raw.attempt = max (s.count (A.key d) : WithTop Nat) (A.floor d) := rfl
  unfold deliver
  dsimp only
  rw [handleMessage_exec, hprocess]
  dsimp only
  rw [handleFailure_exec, hattempt]
  split <;> rfl

/-- A delivery below the budget nacks the message. -/
theorem calls_deliver_below (hp : Fails config p)
    (hlt : max (s.count (A.key d) : WithTop Nat) (A.floor d) < config.maxRetries) :
    (deliver A config s x d p none).calls x = s.calls x ++ [.nack] := by
  rw [deliver_fails hp]
  dsimp only
  rw [if_pos hlt, calls_setCount, calls_call_self]

/-! ### The budget -/

/-- The count of the adapter is right at this delivery: `tracked` messages are counted under one
key that is theirs, and for the others the decision is as if they were. -/
structure Counts (A : Counting δ) (m : Nat) (tracked : μ → Prop) (s : Retries μ) (x : μ) (d : δ) :
    Prop where
  first : tracked x → s.deliveries x = 0 → s.count (A.key d) = 0
  again : tracked x → s.deliveries x ≠ 0 → s.lastKey x = A.key d
  below : tracked x → s.deliveries x < m → A.floor d < m
  counted : tracked x → (∃ key, A.key d = some key) ∧ ∀ n, A.next d n = n + 1
  decided : ¬ tracked x →
    (max (s.count (A.key d) : WithTop Nat) (A.floor d) < m ↔ s.deliveries x < m)

/-- What a delivery must meet: that of a message that always fails fails before the ack, with a
dead letter queue that takes it and a count that is right, and no delivery comes under the key of
another message that waits. -/
def CleanDelivery (A : Counting δ) (config : DeliveryConfig) (poison : μ → Bool)
    (tracked : μ → Prop) (counted : Retries μ → μ → δ → Prop) (s : Retries μ) (x : μ) (d : δ)
    (p : Processing) (dlqError : Option String) : Prop :=
  (poison x = true → dlqError = none ∧ Fails config p ∧ counted s x d) ∧
  ∀ y, y ≠ x → poison y = true → tracked y → s.Waits config.maxRetries y →
    s.lastKey y ≠ A.key d

/-- And no count is lost of a message that waits. -/
def Clean (A : Counting δ) (hand : Hand μ δ ε) (config : DeliveryConfig) (poison : μ → Bool)
    (tracked : μ → Prop) (counted : Retries μ → μ → δ → Prop) (s : Retries μ) :
    RetryLabel μ ε → Prop
  | .delivers x e p dlqError =>
    ∀ d, hand s x e = some d → CleanDelivery A config poison tracked counted s x d p dlqError
  | .restarts => ∀ y, poison y = true → tracked y → ¬ s.Waits config.maxRetries y

structure Kept (m : Nat) (poison : μ → Bool) (tracked : μ → Prop) (s : Retries μ) : Prop where
  budgeted : ∀ x, poison x = true → Budgeted m s x
  counted : ∀ x, poison x = true → tracked x → s.Waits m x →
    ∃ key, s.lastKey x = some key ∧ s.count (some key) = s.deliveries x

theorem budget_of_le {m k : Nat} (h : k ≤ m) : budget m k = List.replicate k .nack := if_pos h

omit [DecidableEq μ] in
/-- A tracked message is counted as often as it was delivered. -/
theorem Counts.count_eq {m : Nat} {poison : μ → Bool} {tracked : μ → Prop}
    (hc : Counts A m tracked s x d) (hs : Kept m poison tracked s) (hx : poison x = true)
    (hle : s.deliveries x ≤ m) (htracked : tracked x) : s.count (A.key d) = s.deliveries x := by
  by_cases hzero : s.deliveries x = 0
  · rw [hc.first htracked hzero, hzero]
  · obtain ⟨key, hlast, hcount⟩ := hs.counted x hx htracked ⟨Nat.pos_of_ne_zero hzero, hle⟩
    rw [← hc.again htracked hzero, hlast, hcount]

omit [DecidableEq μ] in
/-- The attempt that is counted is the number of the deliveries before, as far as the budget
goes. -/
theorem Counts.decides {m : Nat} {poison : μ → Bool} {tracked : μ → Prop}
    (hc : Counts A m tracked s x d) (hs : Kept m poison tracked s) (hx : poison x = true)
    (hle : s.deliveries x ≤ m) :
    max (s.count (A.key d) : WithTop Nat) (A.floor d) < m ↔ s.deliveries x < m := by
  by_cases htracked : tracked x
  · rw [hc.count_eq hs hx hle htracked]
    constructor
    · intro hlt
      exact WithTop.coe_lt_coe.mp (lt_of_le_of_lt (le_max_left _ _) hlt)
    · intro hlt
      exact max_lt (WithTop.coe_lt_coe.mpr hlt) (hc.below htracked hlt)
  · exact hc.decided htracked

omit [DecidableEq μ] in
/-- A message that is not acked has a budget left. -/
theorem Budgeted.le {m : Nat} (h : Budgeted m s x) (hopen : .ack ∉ s.calls x) :
    s.deliveries x ≤ m := by
  obtain ⟨hle, hcalls⟩ := h
  by_contra hgt
  refine hopen ?_
  rw [hcalls, budget, if_neg hgt]
  simp

section
variable {poison : μ → Bool} {tracked : μ → Prop}

theorem deliveries_deliver_self :
    (deliver A config s x d p dlqError).deliveries x = s.deliveries x + 1 :=
  Function.update_self ..

theorem deliveries_deliver_of_ne (h : y ≠ x) :
    (deliver A config s x d p dlqError).deliveries y = s.deliveries y :=
  Function.update_of_ne h ..

theorem lastKey_deliver_self : (deliver A config s x d p dlqError).lastKey x = A.key d :=
  Function.update_self ..

theorem lastKey_deliver_of_ne (h : y ≠ x) :
    (deliver A config s x d p dlqError).lastKey y = s.lastKey y :=
  Function.update_of_ne h ..

/-- The message that is delivered stays within its budget. -/
theorem Budgeted.deliver (hs : Kept config.maxRetries poison tracked s) (hx : poison x = true)
    (hopen : .ack ∉ s.calls x) (hfails : Fails config p)
    (hc : Counts A config.maxRetries tracked s x d) :
    Budgeted config.maxRetries (deliver A config s x d p none) x := by
  have hle := (hs.budgeted x hx).le hopen
  have hcalls : s.calls x = List.replicate (s.deliveries x) .nack :=
    (hs.budgeted x hx).2.trans (budget_of_le hle)
  refine ⟨by rw [deliveries_deliver_self]; exact Nat.succ_le_succ hle, ?_⟩
  rw [deliveries_deliver_self]
  by_cases hlt : s.deliveries x < config.maxRetries
  · rw [calls_deliver_below hfails ((hc.decides hs hx hle).mpr hlt), hcalls, budget_of_le hlt,
      List.replicate_succ']
  · have hspent : s.deliveries x = config.maxRetries := le_antisymm hle (Nat.not_lt.mp hlt)
    rw [deliver_fails hfails]
    dsimp only
    rw [if_neg (fun h => hlt ((hc.decides hs hx hle).mp h)), calls_setCount, calls_call_self,
      calls_call_self, hcalls, hspent, budget, if_neg (Nat.not_succ_le_self _)]
    simp

/-- The count of the message that is delivered goes up with its deliveries. -/
theorem Kept.counted_self (hs : Kept config.maxRetries poison tracked s) (hx : poison x = true)
    (htracked : tracked x) (hfails : Fails config p)
    (hc : Counts A config.maxRetries tracked s x d)
    (hwaits : (deliver A config s x d p none).Waits config.maxRetries x) :
    ∃ key, (deliver A config s x d p none).lastKey x = some key ∧
      (deliver A config s x d p none).count (some key) =
        (deliver A config s x d p none).deliveries x := by
  have hlt : s.deliveries x < config.maxRetries := by
    have hle := hwaits.2
    rwa [deliveries_deliver_self] at hle
  obtain ⟨⟨key, hkey⟩, hnext⟩ := hc.counted htracked
  refine ⟨key, by rw [lastKey_deliver_self, hkey], ?_⟩
  rw [deliveries_deliver_self, deliver_fails hfails]
  dsimp only
  rw [if_pos ((hc.decides hs hx hlt.le).mpr hlt), hnext,
    hc.count_eq hs hx hlt.le htracked, hkey]
  exact count_setCount_self key _

theorem Kept.deliver (hs : Kept config.maxRetries poison tracked s) (hopen : .ack ∉ s.calls x)
    (hclean : CleanDelivery A config poison tracked (Counts A config.maxRetries tracked) s x d p
      dlqError) :
    Kept config.maxRetries poison tracked (deliver A config s x d p dlqError) := by
  obtain ⟨hfaulty, hother⟩ := hclean
  refine ⟨fun y hy => ?_, fun y hy htracked hwaits => ?_⟩
  · by_cases hyx : y = x
    · subst hyx
      obtain ⟨rfl, hfails, hc⟩ := hfaulty hy
      exact Budgeted.deliver hs hy hopen hfails hc
    · obtain ⟨hle, hcalls⟩ := hs.budgeted y hy
      rw [Budgeted, deliveries_deliver_of_ne hyx, elsewhere_deliver.calls y hyx]
      exact ⟨hle, hcalls⟩
  · by_cases hyx : y = x
    · subst hyx
      obtain ⟨rfl, hfails, hc⟩ := hfaulty hy
      exact hs.counted_self hy htracked hfails hc hwaits
    · rw [Retries.Waits, deliveries_deliver_of_ne hyx] at hwaits
      obtain ⟨key, hlast, hcount⟩ := hs.counted y hy htracked hwaits
      have hkey : some key ≠ A.key d := hlast ▸ hother y hyx hy htracked hwaits
      refine ⟨key, by rw [lastKey_deliver_of_ne hyx, hlast], ?_⟩
      rw [elsewhere_deliver.counts key hkey, deliveries_deliver_of_ne hyx, hcount]

theorem retryStep_delivers_inv {hand : Hand μ δ ε} {e : ε} {t : Retries μ}
    (h : retryStep A hand config poison s (.delivers x e p dlqError) = some t) :
    .ack ∉ s.calls x ∧ ∃ d, hand s x e = some d ∧ t = deliver A config s x d p dlqError := by
  simp only [retryStep, Option.ite_none_left_eq_some] at h
  obtain ⟨hopen, h⟩ := h
  split at h
  · cases h
  · obtain ⟨d, hd, rfl⟩ := Option.map_eq_some_iff.mp h
    exact ⟨hopen, d, hd, rfl⟩

theorem retryStep_delivers {hand : Hand μ δ ε} {e : ε} (hopen : .ack ∉ s.calls x)
    (hp : p ≠ .filtered) (hd : hand s x e = some d) :
    retryStep A hand config poison s (.delivers x e p dlqError) =
      some (deliver A config s x d p dlqError) := by
  simp only [retryStep]
  rw [if_neg hopen, hd]
  split
  · exact absurd rfl hp
  · rfl

theorem Kept.step {hand : Hand μ δ ε} {t : Retries μ} {label : RetryLabel μ ε}
    (hs : Kept config.maxRetries poison tracked s)
    (hclean : Clean A hand config poison tracked (Counts A config.maxRetries tracked) s label)
    (hstep : retryStep A hand config poison s label = some t) :
    Kept config.maxRetries poison tracked t := by
  cases label with
  | delivers x e p dlqError =>
    obtain ⟨hopen, d, hd, rfl⟩ := retryStep_delivers_inv hstep
    exact hs.deliver hopen (hclean d hd)
  | restarts =>
    obtain rfl := Option.some.inj hstep
    exact ⟨hs.budgeted, fun y hy htracked hwaits => absurd hwaits (hclean y hy htracked)⟩

/-- **The rule for an adapter.**  A message that always fails stays within its budget in a run of
clean deliveries, where the condition on them makes the count right on the states of an
invariant. -/
theorem budget_of_run {hand : Hand μ δ ε} {counted : Retries μ → μ → δ → Prop}
    {P : Retries μ → Prop} (h0 : P {})
    (hP : ∀ s label t, P s → retryStep A hand config poison s label = some t → P t)
    (hcounts : ∀ s x e d, P s → hand s x e = some d → counted s x d →
      Counts A config.maxRetries tracked s x d)
    {labels : List (RetryLabel μ ε)}
    (r : Run (retryStep A hand config poison) (Clean A hand config poison tracked counted) {} labels
      s) (hx : poison x = true) : Budgeted config.maxRetries s x := by
  have hclean : Run (retryStep A hand config poison)
      (Clean A hand config poison tracked (Counts A config.maxRetries tracked)) {} labels s := by
    refine r.mono h0 fun t label t' ht hstep => ⟨hP t label t' ht hstep, fun hclean => ?_⟩
    cases label with
    | restarts => exact hclean
    | delivers x e p dlqError =>
      intro d hd
      obtain ⟨hfaulty, hother⟩ := hclean d hd
      refine ⟨fun hpoison => ?_, hother⟩
      obtain ⟨hdlq, hfails, hcounted⟩ := hfaulty hpoison
      exact ⟨hdlq, hfails, hcounts t x e d ht hd hcounted⟩
  have hstart : Kept config.maxRetries poison tracked ({} : Retries μ) :=
    ⟨fun _ _ => ⟨Nat.zero_le _, rfl⟩, fun _ _ _ hwaits => absurd hwaits.1 (Nat.lt_irrefl 0)⟩
  exact (Run.invariant hstart (fun _ _ _ ht hclean hstep => ht.step hclean hstep)
    hclean).budgeted x hx

/-- The messages that have a name were last delivered under it. -/
def Named (named : μ → Prop) (name : μ → String) (s : Retries μ) : Prop :=
  ∀ x, named x → s.deliveries x ≠ 0 → s.lastKey x = some (name x)

theorem Named.step {hand : Hand μ δ ε} {named : μ → Prop} {name : μ → String}
    (hname : ∀ s x e d, named x → hand s x e = some d → A.key d = some (name x)) (s : Retries μ)
    (label : RetryLabel μ ε) (t : Retries μ) (hs : Named named name s)
    (hstep : retryStep A hand config poison s label = some t) : Named named name t := by
  cases label with
  | delivers x e p dlqError =>
    obtain ⟨-, d, hd, rfl⟩ := retryStep_delivers_inv hstep
    intro y hy hdelivered
    by_cases hyx : y = x
    · subst hyx
      rw [lastKey_deliver_self]
      exact hname s y e d hy hd
    · rw [deliveries_deliver_of_ne hyx] at hdelivered
      rw [lastKey_deliver_of_ne hyx]
      exact hs y hy hdelivered
  | restarts =>
    obtain rfl := Option.some.inj hstep
    exact hs

end

end

/-! ### The adapters -/

/-- An adapter with the messages of its broker. -/
inductive Adapter (μ : Type) where
  | amqp (sent : μ → AmqpMessage)
  | mqtt (sent : μ → MqttMessage) (qos : μ → MqttQoS)
  | nats (sent : μ → NatsMessage) (streamSequence : μ → Nat)
  | sqs (sent : μ → SqsMessage) (messageId : μ → String)
  | kafka (N : NormalizerDeps) (log : μ → KafkaReplay.KafkaIncomingMessage)

namespace Adapter
variable {μ : Type}

def Delivered : Adapter μ → Type
  | .amqp _ => AmqpIncomingMessage
  | .mqtt .. => MqttIncomingMessage × String
  | .nats .. => NatsIncomingMessage
  | .sqs .. => SqsIncomingMessage
  | .kafka .. => KafkaReplay.KafkaIncomingMessage

def counting : (a : Adapter μ) → Counting a.Delivered
  | .amqp _ => amqpCounting
  | .mqtt .. => mqttCounting
  | .nats .. => natsCounting
  | .sqs .. => sqsCounting
  | .kafka N _ => kafkaCounting N

structure MqttPacket where
  packetId : Nat
  retain : Bool
  dup : Bool
  date : Nat
  counter : Int

/-- What is not fixed by the message and the deliveries before. -/
def Shown : Adapter μ → Type
  | .amqp _ => Bool × String
  | .mqtt .. => MqttPacket
  | .nats .. => Nat
  | .sqs .. => String × List (String × String)
  | .kafka .. => Unit

/-- AMQP marks a requeued message as redelivered, and the tags of a channel go up by one; MQTT does
not redeliver QoS 0; NATS and SQS count the deliveries. -/
def hand : (a : Adapter μ) → Hand μ a.Delivered a.Shown
  | .amqp sent => fun s x (redelivered, consumerTag) =>
    if s.deliveries x ≠ 0 ∧ redelivered = false then none
    else some { sent x with deliveryTag := s.lastTag + 1, redelivered, consumerTag }
  | .mqtt sent qos => fun s x packet =>
    if qos x = .atMostOnce ∧ s.deliveries x ≠ 0 then none
    else
      some
        ({ sent x with
            qos := qos x
            retain := packet.retain
            messageId := if qos x = .atMostOnce then none else some packet.packetId
            dup := packet.dup },
          qos0Seq packet.date packet.counter)
  | .nats sent streamSequence => fun s x deliverySequence =>
    some { sent x with
      streamSequence := streamSequence x
      deliverySequence
      redeliveryCount := s.deliveries x + 1 }
  | .sqs sent messageId => fun s x (receiptHandle, attributes) =>
    some { sent x with
      messageId := messageId x
      receiptHandle
      attributes :=
        ("ApproximateReceiveCount", toString (s.deliveries x + 1)) :: attributes }
  | .kafka _ log => fun _ x _ => some (log x)

/-- The publisher named it. -/
def HasId (m : AmqpMessage) : Prop := ∃ id, m.messageId = some id ∧ id ≠ ""

/-- The messages whose count rests on the key: AMQP needs it from the second retry on. -/
def tracked (m : Nat) : Adapter μ → μ → Prop
  | .amqp sent, x => 2 ≤ m ∧ HasId (sent x)
  | .mqtt _ qos, x => 0 < m ∧ qos x ≠ .atMostOnce
  | .nats .., _ | .sqs .., _ => False
  | .kafka .., _ => 0 < m

/-- Nothing is counted before the first delivery, and the message brings no count with it that
spends the budget. -/
structure Unspent {δ : Type} (A : Counting δ) (m : Nat) (s : Retries μ) (x : μ) (d : δ) : Prop where
  first : s.deliveries x = 0 → 0 < m → s.count (A.key d) = 0
  below : s.deliveries x < m → A.floor d < m

/-- When the count is right: of AMQP, for a message with an id or at most one retry; of MQTT, for a
redelivery under the same packet id; of SQS, which counts the delivery itself, for no retries. -/
def Counted (m : Nat) : (a : Adapter μ) → Retries μ → μ → a.Delivered → Prop
  | .amqp sent, s, x, d => Unspent amqpCounting m s x d ∧ (2 ≤ m → HasId (sent x))
  | .mqtt .., s, x, d =>
    Unspent mqttCounting m s x d ∧
      (s.deliveries x ≠ 0 → 0 < m → s.lastKey x = mqttCounting.key d)
  | .nats .., _, _, _ => True
  | .sqs .., _, _, _ => m = 0
  | .kafka N _, s, x, d => Unspent (kafkaCounting N) m s x d

end Adapter

section
variable {μ : Type} {m : Nat} {s : Retries μ} {x : μ}
open Adapter

/-- With no retries every delivery is the last. -/
theorem decided_zero {a : WithTop Nat} : a < ((0 : Nat) : WithTop Nat) ↔ s.deliveries x < 0 :=
  iff_of_false not_lt_bot (Nat.not_lt_zero _)

def midKey (m : AmqpMessage) : String := "mid:" ++ m.messageId.getD ""

theorem tagKey_of_hasId {msg : AmqpIncomingMessage} {m : AmqpMessage} (hm : msg.toAmqpMessage = m)
    (h : HasId m) : msg.tagKey = midKey m := by
  subst hm
  obtain ⟨id, hid, hne⟩ := h
  rw [AmqpIncomingMessage.tagKey, midKey, hid]
  exact if_neg hne

theorem amqp_hand_inv {sent : μ → AmqpMessage} {e : Bool × String} {d : AmqpIncomingMessage}
    (h : (Adapter.amqp sent).hand s x e = some d) :
    d.toAmqpMessage = sent x ∧ (s.deliveries x ≠ 0 → d.redelivered = true) := by
  simp only [hand] at h
  split at h
  · cases h
  · rename_i hmarked
    obtain rfl := Option.some.inj h
    refine ⟨rfl, fun hdelivered => ?_⟩
    by_contra hfalse
    exact hmarked ⟨hdelivered, Bool.eq_false_of_not_eq_true hfalse⟩

theorem amqp_counts {sent : μ → AmqpMessage} {e : Bool × String} {d : AmqpIncomingMessage}
    (hs : Named (fun x => HasId (sent x)) (fun x => midKey (sent x)) s)
    (hd : (Adapter.amqp sent).hand s x e = some d) (hc : (Adapter.amqp sent).Counted m s x d) :
    Counts amqpCounting m ((Adapter.amqp sent).tracked m) s x d := by
  obtain ⟨hunspent, hid⟩ := hc
  obtain ⟨hsent, hmarked⟩ := amqp_hand_inv hd
  refine ⟨fun ⟨hm, _⟩ hzero => hunspent.first hzero (by omega), fun ⟨_, hname⟩ hdelivered => ?_,
    fun _ => hunspent.below, fun _ => ⟨⟨d.tagKey, rfl⟩, fun _ => rfl⟩, fun huntracked => ?_⟩
  · rw [hs x hname hdelivered]
    exact congrArg some (tagKey_of_hasId hsent hname).symm
  · have hm : m < 2 := Nat.lt_of_not_le fun hm => huntracked ⟨hm, hid hm⟩
    obtain rfl | rfl : m = 0 ∨ m = 1 := by omega
    · exact decided_zero
    · by_cases hzero : s.deliveries x = 0
      · have hfloor := hunspent.below (by omega)
        rw [hunspent.first hzero Nat.one_pos, hzero]
        exact iff_of_true (max_lt (WithTop.coe_lt_coe.mpr Nat.one_pos) hfloor) Nat.one_pos
      · -- a redelivery counts as one attempt at least
        have hfloor : 1 ≤ amqpFloor d := by
          rw [amqpFloor, hmarked hzero]
          exact le_max_of_le_right (le_max_right _ _)
        refine iff_of_false (fun hlt => ?_) (by omega)
        have hlt' : amqpFloor d < 1 :=
          WithTop.coe_lt_coe.mp (lt_of_le_of_lt (le_max_right _ _) hlt)
        omega

theorem mqtt_counts {sent : μ → MqttMessage} {qos : μ → MqttQoS} {e : MqttPacket}
    {d : MqttIncomingMessage × String} (hd : (Adapter.mqtt sent qos).hand s x e = some d)
    (hc : (Adapter.mqtt sent qos).Counted m s x d) :
    Counts mqttCounting m ((Adapter.mqtt sent qos).tracked m) s x d := by
  obtain ⟨hunspent, hsame⟩ := hc
  simp only [hand] at hd
  split at hd
  · cases hd
  rename_i honce
  obtain rfl := Option.some.inj hd
  refine ⟨fun ⟨hm, _⟩ hzero => hunspent.first hzero hm, fun ⟨hm, _⟩ hdelivered =>
    hsame hdelivered hm, fun _ => hunspent.below,
    fun ⟨_, hqos⟩ => ⟨⟨_, rfl⟩, fun _ => if_neg hqos⟩, fun huntracked => ?_⟩
  rcases Nat.eq_zero_or_pos m with rfl | hm
  · exact decided_zero
  · have hqos : qos x = .atMostOnce := by
      by_contra hqos
      exact huntracked ⟨hm, hqos⟩
    have hzero : s.deliveries x = 0 := by
      by_contra hdelivered
      exact honce ⟨hqos, hdelivered⟩
    rw [hunspent.first hzero hm, hzero]
    exact iff_of_true (max_lt (WithTop.coe_lt_coe.mpr hm) (WithTop.coe_lt_coe.mpr hm)) hm

theorem nats_counts {sent : μ → NatsMessage} {streamSequence : μ → Nat} {e : Nat}
    {d : NatsIncomingMessage} (hd : (Adapter.nats sent streamSequence).hand s x e = some d) :
    Counts natsCounting m ((Adapter.nats sent streamSequence).tracked m) s x d := by
  obtain rfl := Option.some.inj hd
  refine ⟨False.elim, False.elim, False.elim, False.elim, fun _ => ?_⟩
  have hfloor : max ((0 : Nat) : WithTop Nat) (s.deliveries x : Nat) = (s.deliveries x : Nat) :=
    max_eq_right (WithTop.coe_le_coe.mpr (Nat.zero_le _))
  show max ((0 : Nat) : WithTop Nat) (s.deliveries x : Nat) < m ↔ _
  rw [hfloor]
  exact WithTop.coe_lt_coe

theorem sqs_counts {sent : μ → SqsMessage} {messageId : μ → String} {d : SqsIncomingMessage}
    (hc : (Adapter.sqs sent messageId).Counted m s x d) :
    Counts sqsCounting m ((Adapter.sqs sent messageId).tracked m) s x d := by
  obtain rfl : m = 0 := hc
  exact ⟨False.elim, False.elim, False.elim, False.elim, fun _ => decided_zero⟩

theorem kafka_counts {N : NormalizerDeps} {log : μ → KafkaReplay.KafkaIncomingMessage}
    {d : KafkaReplay.KafkaIncomingMessage} {e : Unit}
    (hs : Named (fun _ => True) (fun x => KafkaReplay.messageId (log x)) s)
    (hd : (Adapter.kafka N log).hand s x e = some d) (hc : (Adapter.kafka N log).Counted m s x d) :
    Counts (kafkaCounting N) m ((Adapter.kafka N log).tracked m) s x d := by
  have hunspent : Unspent (kafkaCounting N) m s x d := hc
  obtain rfl := Option.some.inj hd
  refine ⟨fun hm hzero => hunspent.first hzero hm, fun _ hdelivered => hs x trivial hdelivered,
    fun _ => hunspent.below, fun _ => ⟨⟨_, rfl⟩, fun _ => rfl⟩, fun huntracked => ?_⟩
  obtain rfl : m = 0 := Nat.eq_zero_of_not_pos huntracked
  exact decided_zero

end

section
variable {μ : Type} [DecidableEq μ]
open Adapter

/-- **Each message that always fails has its retries**, whichever the adapter: nacked at its first
`maxRetries` deliveries, dead-lettered and acked at the next. -/
theorem budgeted_of_run (a : Adapter μ) (config : DeliveryConfig) (poison : μ → Bool)
    {labels : List (RetryLabel μ a.Shown)} {s : Retries μ}
    (r : Run (retryStep a.counting a.hand config poison)
      (Clean a.counting a.hand config poison (a.tracked config.maxRetries)
        (a.Counted config.maxRetries)) {} labels s)
    {x : μ} (hx : poison x = true) : Budgeted config.maxRetries s x := by
  cases a with
  | amqp sent =>
    refine budget_of_run (P := Named (fun x => HasId (sent x)) fun x => midKey (sent x)) ?_
      (Named.step ?_) ?_ r hx
    · exact fun _ _ h => absurd rfl h
    · exact fun s x e d hname hd =>
        congrArg some (tagKey_of_hasId (amqp_hand_inv hd).1 hname)
    · exact fun s x e d hs hd hc => amqp_counts hs hd hc
  | mqtt sent qos =>
    exact budget_of_run (P := fun _ => True) trivial (fun _ _ _ _ _ => trivial)
      (fun s x e d _ hd hc => mqtt_counts hd hc) r hx
  | nats sent streamSequence =>
    exact budget_of_run (P := fun _ => True) trivial (fun _ _ _ _ _ => trivial)
      (fun s x e d _ hd _ => nats_counts hd) r hx
  | sqs sent messageId =>
    exact budget_of_run (P := fun _ => True) trivial (fun _ _ _ _ _ => trivial)
      (fun s x e d _ _ hc => sqs_counts hc) r hx
  | kafka N log =>
    refine budget_of_run (P := Named (fun _ => True)
      fun x => KafkaReplay.messageId (log x)) ?_ (Named.step ?_) ?_ r hx
    · exact fun _ _ h => absurd rfl h
    · intro s x e d _ hd
      obtain rfl := Option.some.inj hd
      rfl
    · exact fun s x e d hs hd hc => kafka_counts hs hd hc

/-- A stream with one message, which is nacked once and then dead-lettered. -/
theorem budgeted_of_run_once :
    ∃ s, Run (retryStep
        (Adapter.nats (fun _ : Unit => { subject := "", data := [] }) fun _ => 1).counting
        (Adapter.nats (fun _ : Unit => { subject := "", data := [] }) fun _ => 1).hand
        { ackStrategy := .afterPublish, maxRetries := 1 } fun _ => true) Any {}
        [.delivers () (1 : Nat) (.normalizeThrows "bad payload") none,
          .delivers () (2 : Nat) (.normalizeThrows "bad payload") none] s ∧
      Budgeted 1 s () ∧ s.calls () = [.nack, .sendToDLQ, .ack] := by
  let a : Adapter Unit := .nats (fun _ => { subject := "", data := [] }) fun _ => 1
  let config : DeliveryConfig := { ackStrategy := .afterPublish, maxRetries := 1 }
  let label (n : Nat) : RetryLabel Unit a.Shown :=
    .delivers () n (.normalizeThrows "bad payload") none
  have hclean : ∀ (s : Retries Unit) n, Clean a.counting a.hand config (fun _ => true) (a.tracked 1)
      (a.Counted 1) s (label n) :=
    fun s n d _ => ⟨fun _ => ⟨rfl, trivial, trivial⟩, fun _ _ _ h => h.elim⟩
  have r : Run (retryStep a.counting a.hand config fun _ => true)
      (Clean a.counting a.hand config (fun _ => true) (a.tracked 1) (a.Counted 1)) {}
      [label 1, label 2] _ :=
    Run.snoc (.snoc .nil (hclean _ 1) rfl) (hclean _ 2) rfl
  exact ⟨_, Run.snoc (.snoc .nil trivial rfl) trivial rfl,
    budgeted_of_run a config (fun _ => true) r rfl, by decide⟩

end

section
variable {μ : Type} [DecidableEq μ]
open Adapter

omit [DecidableEq μ] in

/-! ### A message without an id -/

def tagName (deliveryTag : Nat) : String := "tag:" ++ numberText deliveryTag

theorem tagName_injective : Function.Injective tagName := fun _ _ h =>
  numberText_injective (String.append_right_inj _ |>.mp h)

/-- Nothing is counted under the tags to come. -/
def Fresh (s : Retries μ) : Prop := ∀ tag, s.lastTag < tag → s.attemptCounts (tagName tag) = 0

/-- The delivery of a message whose handling fails. -/
def failing (sent : μ → AmqpMessage) (x : μ) (redelivered : Bool) :
    RetryLabel μ (Adapter.amqp sent).Shown :=
  .delivers x (redelivered, "") (.normalizeThrows "bad payload") none

/-- The headers of the message bring no count with them that spends the budget. -/
def FewRetries (m : Nat) (msg : AmqpMessage) : Prop :=
  headerCount msg.headers < m ∧ extractXDeathCount msg.headers < m

theorem nacked_step (sent : μ → AmqpMessage) (config : DeliveryConfig) (poison : μ → Bool)
    {s : Retries μ} {x : μ} (hid : (sent x).messageId = none) (hm : 2 ≤ config.maxRetries)
    (hheaders : FewRetries config.maxRetries (sent x)) (hfresh : Fresh s)
    (hopen : .ack ∉ s.calls x) :
    ∃ t, retryStep (Adapter.amqp sent).counting (Adapter.amqp sent).hand config poison s
        (failing sent x (s.deliveries x ≠ 0)) = some t ∧
      t.calls x = s.calls x ++ [.nack] ∧ t.deliveries x = s.deliveries x + 1 ∧ Fresh t := by
  let d : AmqpIncomingMessage := { sent x with
    deliveryTag := s.lastTag + 1, redelivered := s.deliveries x ≠ 0, consumerTag := "" }
  have hkey : amqpCounting.key d = some (tagName (s.lastTag + 1)) := by
    change some (AmqpIncomingMessage.tagKey d) = _
    rw [AmqpIncomingMessage.tagKey, show d.messageId = none from hid]
    rfl
  have hcount : s.count (amqpCounting.key d) = 0 := by
    rw [hkey]
    exact hfresh _ (Nat.lt_succ_self _)
  have hfloor : amqpFloor d < config.maxRetries := by
    refine max_lt hheaders.1 (max_lt hheaders.2 ?_)
    split <;> omega
  have hlt : max (s.count (amqpCounting.key d) : WithTop Nat) (amqpCounting.floor d) <
      config.maxRetries := by
    rw [hcount]
    have hpos : 0 < config.maxRetries := by omega
    exact max_lt (WithTop.coe_lt_coe.mpr hpos) (WithTop.coe_lt_coe.mpr hfloor)
  have hhand : (Adapter.amqp sent).hand s x (decide (s.deliveries x ≠ 0), "") = some d :=
    if_neg fun h => of_decide_eq_false h.2 h.1
  have hfails : Fails config (.normalizeThrows "bad payload") := trivial
  have hunfiltered : Processing.normalizeThrows "bad payload" ≠ .filtered := by
    intro h
    cases h
  refine ⟨_, retryStep_delivers hopen hunfiltered hhand, calls_deliver_below hfails hlt,
    deliveries_deliver_self, ?_⟩
  · intro tag htag
    have hne : some (tagName tag) ≠ amqpCounting.key d := by
      rw [hkey]
      intro h
      have htag' : tag = s.lastTag + 1 := tagName_injective (Option.some.inj h)
      exact absurd htag (htag' ▸ Nat.lt_irrefl _)
    exact (elsewhere_deliver.counts _ hne).trans (hfresh tag (Nat.lt_of_succ_lt htag))

/-- **Without an id a message is never dead-lettered**: it is nacked however often it is delivered,
as its tag is another one each time and a redelivery counts as one attempt. -/
theorem nacked_again (sent : μ → AmqpMessage) (config : DeliveryConfig) (poison : μ → Bool) (x : μ)
    (hid : (sent x).messageId = none) (hm : 2 ≤ config.maxRetries)
    (hheaders : FewRetries config.maxRetries (sent x)) (n : Nat) :
    ∃ s, Run (retryStep (Adapter.amqp sent).counting (Adapter.amqp sent).hand config poison) Any {}
        ((List.range n).map fun k => failing sent x (k ≠ 0)) s ∧
      s.calls x = List.replicate n .nack ∧ s.deliveries x = n ∧ Fresh s := by
  induction n with
  | zero => exact ⟨{}, .nil, rfl, rfl, fun _ _ => rfl⟩
  | succ n ih =>
    obtain ⟨s, r, hcalls, hdeliveries, hfresh⟩ := ih
    have hopen : .ack ∉ s.calls x := by
      rw [hcalls]
      exact fun h => Call.noConfusion (List.eq_of_mem_replicate h)
    obtain ⟨t, hstep, hcalls', hdeliveries', hfresh'⟩ :=
      nacked_step sent config poison hid hm hheaders hfresh hopen
    rw [hdeliveries] at hstep hdeliveries'
    refine ⟨t, ?_, ?_, hdeliveries', hfresh'⟩
    · rw [List.range_succ]
      simpa using Run.snoc r trivial hstep
    · rw [hcalls', hcalls, List.replicate_succ']

/-- With two retries and no id the message is nacked at its third delivery as well. -/
theorem third_nack :
    ∃ s, Run (retryStep (Adapter.amqp fun _ : Unit => { content := [] }).counting
        (Adapter.amqp fun _ : Unit => { content := [] }).hand
        { ackStrategy := .afterPublish, maxRetries := 2 } fun _ => true) Any {}
        ([false, true, true].map (failing (fun _ => { content := [] }) ())) s ∧
      s.calls () = [.nack, .nack, .nack] ∧ ¬ Budgeted 2 s () := by
  have hheaders : FewRetries 2 { content := [] } := by
    constructor <;> exact Nat.two_pos
  obtain ⟨s, r, hcalls, hdeliveries, -⟩ :=
    nacked_again (fun _ : Unit => { content := [] })
      { ackStrategy := .afterPublish, maxRetries := 2 } (fun _ => true) () rfl le_rfl hheaders 3
  refine ⟨s, r, hcalls, fun hbudgeted => ?_⟩
  have hspent := hbudgeted.2
  rw [hcalls, hdeliveries] at hspent
  exact absurd hspent (by decide)

end

end Declaragent.Sources.RetryBudget
