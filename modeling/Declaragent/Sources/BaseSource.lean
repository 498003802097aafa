import Declaragent.Events.Types
import Declaragent.Sources.AfterDispatch
import Mathlib.Algebra.Order.Monoid.Unbundled.WithTop

/-!
# Sources — the ingest path of a base source

`handleMessage` takes one message from the transport to the bus: it normalizes, publishes, and
calls the delivery's ack handle where the ack strategy says so.  Whatever throws on the way,
the failure goes through `handleFailure`: a nack while the retry budget lasts, then the dead
letter queue and an ack.

The collaborators (normalizer, bus, dead letter queue, ack handle) are parameters: actions on a
state `τ` that may throw.  Below, `Faults` is one pattern of their failures, and
`Broker` the state they act on for the deliveries of one source.

* `handleFailure_exec`, `handleMessage_exec`: what the two functions do, as equations.
* `ack_accounted` is what an ack of the delivery says about its message, and how often the
  delivery's handle is called, for every ack strategy and every pattern of failures, whatever
  hooks and timers come after.
-/

namespace Declaragent.Sources
open Events Transition

inductive AckStrategy where
  | beforePublish
  | afterPublish
  | afterDispatch
  deriving DecidableEq

/-- A message from the transport; `deliveryCount` is `meta.deliveryCount`, with `⊤` for what
`Number` makes of a text that is no number: it is below no retry budget. -/
structure RawMessage where
  value : String
  key : Option String := none
  topic : Option String := none
  partition : Option Nat := none
  offset : Option String := none
  headers : List (String × String) := []
  timestamp : Option Int := none
  deliveryCount : Option (WithTop Nat) := none

/-- `Number(raw.meta?.deliveryCount ?? 0)`. -/
def RawMessage.attempt (raw : RawMessage) : WithTop Nat := raw.deliveryCount.getD (0 : Nat)

structure DeliveryConfig where
  ackStrategy : AckStrategy
  maxRetries : Nat

/-- An asynchronous action on `τ` that may throw an error with the given message. -/
abbrev Handler (τ α : Type) := ExceptT String (StateM τ) α

/-- The result of the action and the state it leaves, also when it throws. -/
def Handler.exec {τ α : Type} (h : Handler τ α) (w : τ) : Except String α × τ := h w

structure AckContext (τ : Type) where
  ack : Handler τ Unit
  nack : Handler τ Unit

/-- What `handleMessage` works with. -/
structure SourceDependencies (τ : Type) where
  normalizer : Option (RawMessage → Handler τ (Option AgentEvent))
  publish : AgentEvent → Handler τ Unit
  sendToDLQ : RawMessage → String → Handler τ Unit
  registerPendingAck : String → Handler τ Unit
  tenant : Option TenantContext

section
variable {τ : Type}

/-- The body of the `try`. -/
def processMessage (config : DeliveryConfig) (deps : SourceDependencies τ) (raw : RawMessage)
    (ack : AckContext τ) : Handler τ Unit :=
  match deps.normalizer with
  | none => ack.ack
  | some normalize => do
      match ← normalize raw with
      | none => ack.ack
      | some normalized =>
        let event := stampTenantId normalized deps.tenant
        match config.ackStrategy with
        | .beforePublish => do ack.ack; deps.publish event
        | .afterPublish => do deps.publish event; ack.ack
        | .afterDispatch => do deps.publish event; deps.registerPendingAck event.id

/-- Retry budget, then dead letter queue, then ack. -/
def handleFailure (config : DeliveryConfig) (deps : SourceDependencies τ) (raw : RawMessage)
    (ack : AckContext τ) (err : String) : Handler τ Unit :=
  if raw.attempt < config.maxRetries then
    tryCatch ack.nack fun _ => pure ()
  else do
    tryCatch (deps.sendToDLQ raw err) fun _ => pure ()
    ack.ack

def handleMessage (config : DeliveryConfig) (deps : SourceDependencies τ) (raw : RawMessage)
    (ack : AckContext τ) : Handler τ Unit :=
  tryCatch (processMessage config deps raw ack) (handleFailure config deps raw ack)

/-! ### What the functions do -/

theorem exec_bind {α β : Type} (x : Handler τ α) (f : α → Handler τ β) (w : τ) :
    Handler.exec (x >>= f) w = match Handler.exec x w with
      | (.ok a, w') => Handler.exec (f a) w'
      | (.error e, w') => (.error e, w') := by
  unfold Handler.exec
  change (ExceptT.bind x f) w = _
  simp only [ExceptT.bind, ExceptT.mk, bind, StateT.bind, ExceptT.bindCont]
  rcases x w with ⟨⟨e⟩ | ⟨a⟩, w'⟩ <;> rfl

theorem exec_tryCatch (x : Handler τ Unit) (f : String → Handler τ Unit) (w : τ) :
    Handler.exec (tryCatch x f) w = match Handler.exec x w with
      | (.ok a, w') => (.ok a, w')
      | (.error e, w') => Handler.exec (f e) w' := by
  unfold Handler.exec
  change (ExceptT.tryCatch x f) w = _
  simp only [ExceptT.tryCatch, ExceptT.mk, bind, StateT.bind]
  rcases x w with ⟨⟨e⟩ | ⟨a⟩, w'⟩ <;> rfl

/-- A failure never throws while the budget lasts: the error of a nack is swallowed. -/
theorem handleFailure_exec (config : DeliveryConfig) (deps : SourceDependencies τ)
    (raw : RawMessage) (ack : AckContext τ) (err : String) (w : τ) :
    Handler.exec (handleFailure config deps raw ack err) w =
      if raw.attempt < config.maxRetries then (.ok (), (Handler.exec ack.nack w).2)
      else Handler.exec ack.ack (Handler.exec (deps.sendToDLQ raw err) w).2 := by
  unfold handleFailure
  split
  · rw [exec_tryCatch]
    rcases Handler.exec ack.nack w with ⟨⟨e⟩ | ⟨a⟩, w'⟩ <;> rfl
  · rw [exec_bind, exec_tryCatch]
    rcases Handler.exec (deps.sendToDLQ raw err) w with ⟨⟨e⟩ | ⟨a⟩, w'⟩ <;> rfl

theorem handleMessage_exec (config : DeliveryConfig) (deps : SourceDependencies τ)
    (raw : RawMessage) (ack : AckContext τ) (w : τ) :
    Handler.exec (handleMessage config deps raw ack) w =
      match Handler.exec (processMessage config deps raw ack) w with
      | (.ok _, w') => (.ok (), w')
      | (.error err, w') => Handler.exec (handleFailure config deps raw ack err) w' :=
  exec_tryCatch _ _ _

/-- Whatever the action does, it leaves a state related to the one it started in. -/
def Handler.Keeps {α : Type} (R : τ → τ → Prop) (h : Handler τ α) : Prop :=
  ∀ w, R w (Handler.exec h w).2

section
variable {R : τ → τ → Prop}

theorem Handler.Keeps.bind {α β : Type} {x : Handler τ α} {f : α → Handler τ β}
    (htrans : ∀ {u v w}, R u v → R v w → R u w) (hx : Handler.Keeps R x)
    (hf : ∀ a, Handler.Keeps R (f a)) : Handler.Keeps R (x >>= f) := by
  intro w
  rw [exec_bind]
  have h := hx w
  rcases hr : Handler.exec x w with ⟨⟨e⟩ | ⟨a⟩, w'⟩
  · rw [hr] at h; exact h
  · rw [hr] at h; exact htrans h (hf a w')

theorem Handler.Keeps.tryCatch {x : Handler τ Unit} {f : String → Handler τ Unit}
    (htrans : ∀ {u v w}, R u v → R v w → R u w) (hx : Handler.Keeps R x)
    (hf : ∀ err, Handler.Keeps R (f err)) : Handler.Keeps R (tryCatch x f) := by
  intro w
  rw [exec_tryCatch]
  have h := hx w
  rcases hr : Handler.exec x w with ⟨⟨e⟩ | ⟨a⟩, w'⟩
  · rw [hr] at h; exact htrans h (hf e w')
  · rw [hr] at h; exact h

/-- The collaborators of a message keep `R`. -/
structure Respects (R : τ → τ → Prop) (deps : SourceDependencies τ) (ctx : AckContext τ) :
    Prop where
  refl : ∀ w, R w w
  trans : ∀ {u v w}, R u v → R v w → R u w
  ack : Handler.Keeps R ctx.ack
  nack : Handler.Keeps R ctx.nack
  normalizer : ∀ normalize, deps.normalizer = some normalize →
    ∀ raw, Handler.Keeps R (normalize raw)
  publish : ∀ event, Handler.Keeps R (deps.publish event)
  sendToDLQ : ∀ raw err, Handler.Keeps R (deps.sendToDLQ raw err)
  registerPendingAck : ∀ eventId, Handler.Keeps R (deps.registerPendingAck eventId)

theorem Respects.handleFailure {deps : SourceDependencies τ} {ack : AckContext τ}
    (h : Respects R deps ack) (config : DeliveryConfig) (raw : RawMessage) (err : String) :
    Handler.Keeps R (Sources.handleFailure config deps raw ack err) := by
  intro w
  rw [handleFailure_exec]
  split
  · exact h.nack w
  · exact h.trans (h.sendToDLQ raw err w) (h.ack _)

/-- **Frame.**  What the collaborators leave alone, handling a message leaves alone. -/
theorem Respects.handleMessage {deps : SourceDependencies τ} {ack : AckContext τ}
    (h : Respects R deps ack) (config : DeliveryConfig) (raw : RawMessage) :
    Handler.Keeps R (Sources.handleMessage config deps raw ack) := by
  refine .tryCatch h.trans ?_ (h.handleFailure config raw)
  unfold processMessage
  split
  · exact h.ack
  · rename_i normalize hn
    refine .bind h.trans (h.normalizer normalize hn raw) fun normalized => ?_
    cases normalized with
    | none => exact h.ack
    | some event =>
      dsimp only
      split
      · exact .bind h.trans h.ack fun _ => h.publish _
      · exact .bind h.trans (h.publish _) fun _ => h.ack
      · exact .bind h.trans (h.publish _) fun _ => h.registerPendingAck _

end

end

/-! ### One pattern of failures -/

inductive NormalizerResult where
  | unwired
  | threw (err : String)
  | filtered
  | event (event : AgentEvent)

inductive DlqWrite where
  | stored
  | notConfigured
  | threw (err : String)

/-- How the collaborators answer for one message: `none` where a call succeeds, an error's
message where it throws; `ack k` is for the call after `k` earlier ones. -/
structure Faults where
  normalizer : NormalizerResult
  publish : Option String
  dlq : DlqWrite
  ack : Nat → Option String
  nack : Option String
  hookRegistry : Bool
  tenant : Option TenantContext

/-- The deliveries of a source, with what reached the bus and the dead letter queue. -/
structure Broker (ι : Type) where
  settlement : Settlement ι
  published : List AgentEvent
  deadLettered : List RawMessage

def Delivery.callAck (d : Delivery) : Delivery := { d with acks := d.acks + 1 }

def Delivery.callNack (d : Delivery) : Delivery := { d with nacks := d.nacks + 1 }

def throwing {τ : Type} (fault : Option String) (w : τ) : Except String Unit × τ :=
  match fault with
  | none => (.ok (), w)
  | some err => (.error err, w)

section
variable {ι : Type} [DecidableEq ι]

def Broker.modify (w : Broker ι) (i : ι) (f : Delivery → Delivery) : Broker ι :=
  { w with settlement := w.settlement.modify i f }

def Broker.publish (w : Broker ι) (event : AgentEvent) : Broker ι :=
  { w with published := w.published ++ [event] }

/-- The ack handle of delivery `i`. -/
def brokerAck (F : Faults) (i : ι) : AckContext (Broker ι) where
  ack := fun w =>
    throwing (F.ack (w.settlement.delivery i).acks) (w.modify i .callAck)
  nack := fun w => throwing F.nack (w.modify i .callNack)

/-- Registration for `event.after`; without a hook registry the delivery is acked at once. -/
def brokerRegister (F : Faults) (i : ι) (eventId : String) (w : Broker ι) : Broker ι :=
  if F.hookRegistry then
    { w with settlement := registerPendingAck w.settlement eventId i }
  else w.modify i .callAck

def brokerDeps (F : Faults) (i : ι) : SourceDependencies (Broker ι) where
  normalizer := match F.normalizer with
    | .unwired => none
    | .threw err => some fun _ w => (.error err, w)
    | .filtered => some fun _ w => (.ok none, w)
    | .event event => some fun _ w => (.ok (some event), w)
  publish event := fun w => match F.publish with
    | none => (.ok (), w.publish event)
    | some err => (.error err, w)
  sendToDLQ raw _ := fun w => match F.dlq with
    | .stored => (.ok (), { w with deadLettered := w.deadLettered ++ [raw] })
    | .notConfigured => (.ok (), w)
    | .threw err => (.error err, w)
  registerPendingAck eventId := fun w => (.ok (), brokerRegister F i eventId w)
  tenant := F.tenant

/-- `handleMessage` of delivery `i` under the faults. -/
def ingest (config : DeliveryConfig) (F : Faults) (raw : RawMessage) (i : ι) (w : Broker ι) :
    Except String Unit × Broker ι :=
  Handler.exec (handleMessage config (brokerDeps F i) raw (brokerAck F i)) w

/-- Nothing was done for delivery `i` yet. -/
structure Broker.Fresh (w : Broker ι) (i : ι) : Prop where
  delivery : w.settlement.delivery i = .new
  pending : ∀ eventId, w.settlement.pendingAcks eventId ≠ some i

/-- The message's event is on the bus. -/
def Published (F : Faults) (w : Broker ι) : Prop :=
  ∃ event, F.normalizer = .event event ∧ stampTenantId event F.tenant ∈ w.published

/-- Why a delivery may be acked. -/
def Accounted (config : DeliveryConfig) (F : Faults) (raw : RawMessage) (w : Broker ι) : Prop :=
  Published F w ∨ F.normalizer = .filtered ∨ raw ∈ w.deadLettered ∨
  F.normalizer = .unwired ∨
  (config.ackStrategy = .beforePublish ∧ (F.ack 0 ≠ none ∨ F.publish ≠ none)) ∨
  (config.maxRetries ≤ raw.attempt ∧ F.dlq ≠ .stored)

/-- Why the ack handle may be called twice. -/
def CalledTwice (config : DeliveryConfig) (F : Faults) : Prop :=
  F.ack 0 ≠ none ∨ (config.ackStrategy = .beforePublish ∧ F.publish ≠ none)

/-! ### The calls of one message -/

variable {config : DeliveryConfig} {F : Faults} {raw : RawMessage} {i : ι} {w : Broker ι}
  {a n : Nat}

/-- Delivery `i` made `a` acks and `n` nacks, and is not registered. -/
structure Broker.Calls (w : Broker ι) (i : ι) (a n : Nat) : Prop where
  delivery : w.settlement.delivery i = ⟨.unset, .waiting, a, n⟩
  pending : ∀ eventId, w.settlement.pendingAcks eventId ≠ some i

omit [DecidableEq ι] in
theorem Broker.Fresh.calls (h : w.Fresh i) : w.Calls i 0 0 := ⟨h.delivery, h.pending⟩

omit [DecidableEq ι] in
theorem Broker.Calls.counted (h : w.Calls i a n) : Counted i a n w.settlement where
  counted := by rw [h.delivery]; exact ⟨rfl, rfl⟩
  pending eventId hp := absurd hp (h.pending eventId)

theorem Broker.Calls.callAck (h : w.Calls i a n) : (w.modify i .callAck).Calls i (a + 1) n :=
  ⟨by simp [Broker.modify, h.delivery, Delivery.callAck], h.pending⟩

theorem Broker.Calls.callNack (h : w.Calls i a n) : (w.modify i .callNack).Calls i a (n + 1) :=
  ⟨by simp [Broker.modify, h.delivery, Delivery.callNack], h.pending⟩

theorem exec_ack (h : w.Calls i a n) : Handler.exec (brokerAck F i).ack w =
    throwing (F.ack a) (w.modify i .callAck) := by
  have : (w.settlement.delivery i).acks = a := by rw [h.delivery]
  simp [Handler.exec, brokerAck, this]

omit [DecidableEq ι] in
theorem Broker.Calls.publish (h : w.Calls i a n) (event : AgentEvent) :
    (w.publish event).Calls i a n := ⟨h.delivery, h.pending⟩

theorem exec_publish_ok (hP : F.publish = none) (event : AgentEvent) (w : Broker ι) :
    Handler.exec ((brokerDeps F i).publish event) w = (.ok (), w.publish event) := by
  simp [Handler.exec, brokerDeps, hP]

theorem exec_publish_throw {err : String} (hP : F.publish = some err) (event : AgentEvent)
    (w : Broker ι) : Handler.exec ((brokerDeps F i).publish event) w = (.error err, w) := by
  simp [Handler.exec, brokerDeps, hP]

theorem throwing_state {τ : Type} (fault : Option String) (w : τ) : (throwing fault w).2 = w := by
  cases fault <;> rfl

variable (config F raw) in
/-- **What a failure does**: one more call, and an ack only past the dead letter queue. -/
theorem handleFailure_calls (h : w.Calls i a n) (err : String) :
    let w' := (Handler.exec (handleFailure config (brokerDeps F i) raw (brokerAck F i) err) w).2
    w'.published = w.published ∧ ∃ a' n', w'.Calls i a' n' ∧ a' + n' = a + n + 1 ∧
      (a' = a ∨ raw ∈ w'.deadLettered ∨
        (config.maxRetries ≤ raw.attempt ∧ F.dlq ≠ .stored)) := by
  intro w'
  simp only [w', handleFailure_exec]
  split
  · have hstate : (Handler.exec (brokerAck F i).nack w).2 = w.modify i .callNack :=
      throwing_state _ _
    rw [hstate]
    exact ⟨rfl, a, n + 1, h.callNack, by omega, Or.inl rfl⟩
  · rename_i hbudget
    have hack : ∀ v : Broker ι, v.Calls i a n →
        (Handler.exec (brokerAck F i).ack v).2 = v.modify i .callAck := fun v hv => by
      rw [exec_ack hv]; exact throwing_state _ _
    cases hd : F.dlq with
    | stored =>
      have hq : (Handler.exec ((brokerDeps F i).sendToDLQ raw err) w).2 =
          { w with deadLettered := w.deadLettered ++ [raw] } := by
        simp [Handler.exec, brokerDeps, hd]
      have hv : ({ w with deadLettered := w.deadLettered ++ [raw] } : Broker ι).Calls i a n :=
        ⟨h.delivery, h.pending⟩
      rw [hq, hack _ hv]
      exact ⟨rfl, a + 1, n, hv.callAck, by omega, Or.inr (Or.inl (by simp [Broker.modify]))⟩
    | notConfigured | threw _ =>
      have hq : (Handler.exec ((brokerDeps F i).sendToDLQ raw err) w).2 = w := by
        simp [Handler.exec, brokerDeps, hd]
      rw [hq, hack _ h]
      exact ⟨rfl, a + 1, n, h.callAck, by omega, Or.inr (Or.inr ⟨not_lt.mp hbudget, by simp⟩)⟩

/-- How a message may leave `handleMessage`: registered and published, or with its calls made. -/
inductive Ingested (config : DeliveryConfig) (F : Faults) (raw : RawMessage) (i : ι)
    (w : Broker ι) : Prop where
  | registered (c : Counted i 0 0 w.settlement) (p : Published F w)
  | called {a n : Nat} (c : w.Calls i a n) (why : 0 < a → Accounted config F raw w)
      (once : a + n ≤ 1 ∨ CalledTwice config F)

/-- A failure after `a` acks and `n` nacks: the message leaves with one more call. -/
theorem ingested_of_failure {w : Broker ι} (h : w.Calls i a n) (err : String)
    (why : ∀ w' : Broker ι, w'.published = w.published → 0 < a → Accounted config F raw w')
    (once : a + n = 0 ∨ CalledTwice config F) :
    Ingested config F raw i
      (Handler.exec (handleFailure config (brokerDeps F i) raw (brokerAck F i) err) w).2 := by
  obtain ⟨hp, a', n', hc, hsum, hack⟩ := handleFailure_calls config F raw h err
  refine .called hc (fun ha' => ?_) (once.imp (fun h0 => by omega) id)
  rcases hack with rfl | hd | hb
  · exact why _ hp ha'
  · exact Or.inr (Or.inr (Or.inl hd))
  · exact Or.inr (Or.inr (Or.inr (Or.inr (Or.inr hb))))

/-- The body of the `try` ended with an ack, after what `why` accounts for. -/
theorem ingested_of_ack {v : Broker ι} (h : v.Calls i 0 0)
    (why : ∀ w' : Broker ι, w'.published = v.published → Accounted config F raw w')
    (hx : Handler.exec (processMessage config (brokerDeps F i) raw (brokerAck F i)) w =
      Handler.exec (brokerAck F i).ack v) :
    Ingested config F raw i (ingest config F raw i w).2 := by
  unfold ingest
  rw [handleMessage_exec, hx, exec_ack h]
  cases hf : F.ack 0 with
  | none => exact .called h.callAck (fun _ => why _ rfl) (Or.inl (by omega))
  | some err =>
    exact ingested_of_failure h.callAck err (fun w' hw' _ => why w' hw')
      (Or.inr (Or.inl (by simp [hf])))

/-- The body of the `try` threw. -/
theorem ingested_of_throw {v : Broker ι} (err : String) (h : v.Calls i a n)
    (why : ∀ w' : Broker ι, w'.published = v.published → 0 < a → Accounted config F raw w')
    (once : a + n = 0 ∨ CalledTwice config F)
    (hx : Handler.exec (processMessage config (brokerDeps F i) raw (brokerAck F i)) w =
      (.error err, v)) :
    Ingested config F raw i (ingest config F raw i w).2 := by
  unfold ingest
  rw [handleMessage_exec, hx]
  exact ingested_of_failure h err why once

theorem ingested_of_ok {v : Broker ι} (h : Ingested config F raw i v)
    (hx : Handler.exec (processMessage config (brokerDeps F i) raw (brokerAck F i)) w =
      (.ok (), v)) :
    Ingested config F raw i (ingest config F raw i w).2 := by
  unfold ingest
  rw [handleMessage_exec, hx]
  exact h

variable (config raw) in
/-- The part of the body after the normalizer. -/
theorem processMessage_event {event : AgentEvent} (hN : F.normalizer = .event event)
    (i : ι) (w : Broker ι) :
    Handler.exec (processMessage config (brokerDeps F i) raw (brokerAck F i)) w =
      Handler.exec (match config.ackStrategy with
        | .beforePublish => do
            (brokerAck F i).ack; (brokerDeps F i).publish (stampTenantId event F.tenant)
        | .afterPublish => do
            (brokerDeps F i).publish (stampTenantId event F.tenant); (brokerAck F i).ack
        | .afterDispatch => do
            (brokerDeps F i).publish (stampTenantId event F.tenant)
            (brokerDeps F i).registerPendingAck (stampTenantId event F.tenant).id) w := by
  have hd : (brokerDeps F i).normalizer = some fun _ w => (.ok (some event), w) := by
    simp [brokerDeps, hN]
  unfold processMessage
  rw [hd]
  rfl

variable (config F raw) in
/-- **Every way through `handleMessage`.** -/
theorem ingest_spec (hw : w.Fresh i) :
    Ingested config F raw i (ingest config F raw i w).2 := by
  have h := hw.calls
  cases hN : F.normalizer with
  | unwired =>
    refine ingested_of_ack h (fun _ _ => Or.inr (Or.inr (Or.inr (Or.inl hN)))) ?_
    have hd : (brokerDeps F i).normalizer = none := by simp [brokerDeps, hN]
    unfold processMessage
    rw [hd]
  | threw err =>
    refine ingested_of_throw err h (fun _ _ h0 => absurd h0 (by omega)) (Or.inl rfl) ?_
    have hd : (brokerDeps F i).normalizer = some fun _ w => (.error err, w) := by
      simp [brokerDeps, hN]
    unfold processMessage
    rw [hd]
    rfl
  | filtered =>
    refine ingested_of_ack h (fun _ _ => Or.inr (Or.inl hN)) ?_
    have hd : (brokerDeps F i).normalizer = some fun _ w => (.ok none, w) := by
      simp [brokerDeps, hN]
    unfold processMessage
    rw [hd]
    rfl
  | event event =>
    have published : ∀ {w' v : Broker ι}, w'.published = v.published →
        stampTenantId event F.tenant ∈ v.published → Accounted config F raw w' :=
      fun hp hm => Or.inl ⟨event, hN, hp ▸ hm⟩
    have onBus : ∀ v : Broker ι, stampTenantId event F.tenant ∈
        (v.publish (stampTenantId event F.tenant)).published := fun v => by
      simp [Broker.publish]
    have hx := processMessage_event config raw hN i w
    cases hS : config.ackStrategy with
    | beforePublish =>
      -- the ack is made, so whatever throws from here on calls the handle again
      have early : ∀ w' : Broker ι, F.ack 0 ≠ none ∨ F.publish ≠ none →
          Accounted config F raw w' := fun _ hf =>
        Or.inr (Or.inr (Or.inr (Or.inr (Or.inl ⟨hS, hf⟩))))
      rw [hS] at hx
      dsimp only at hx
      rw [exec_bind, exec_ack h] at hx
      cases hf : F.ack 0 with
      | some err =>
        rw [hf] at hx
        have hf' : F.ack 0 ≠ none := by simp [hf]
        exact ingested_of_throw err h.callAck (fun w' _ _ => early w' (Or.inl hf'))
          (Or.inr (Or.inl hf')) hx
      | none =>
        rw [hf] at hx
        cases hP : F.publish with
        | some err =>
          have hP' : F.publish ≠ none := by simp [hP]
          exact ingested_of_throw err h.callAck (fun w' _ _ => early w' (Or.inr hP'))
            (Or.inr (Or.inr ⟨hS, hP'⟩)) (hx.trans (exec_publish_throw hP _ _))
        | none =>
          exact ingested_of_ok (.called (h.callAck.publish _)
            (fun _ => published rfl (onBus _)) (Or.inl (by omega)))
            (hx.trans (exec_publish_ok hP _ _))
    | afterPublish =>
      rw [hS] at hx
      dsimp only at hx
      rw [exec_bind] at hx
      cases hP : F.publish with
      | some err =>
        rw [exec_publish_throw hP] at hx
        exact ingested_of_throw err h (fun _ _ h0 => absurd h0 (by omega)) (Or.inl rfl) hx
      | none =>
        rw [exec_publish_ok hP] at hx
        exact ingested_of_ack (h.publish _) (fun _ hw' => published hw' (onBus _)) hx
    | afterDispatch =>
      rw [hS] at hx
      dsimp only at hx
      rw [exec_bind] at hx
      cases hP : F.publish with
      | some err =>
        rw [exec_publish_throw hP] at hx
        exact ingested_of_throw err h (fun _ _ h0 => absurd h0 (by omega)) (Or.inl rfl) hx
      | none =>
        rw [exec_publish_ok hP] at hx
        refine ingested_of_ok ?_ hx
        unfold brokerRegister
        -- without a hook registry nobody would ever ack, so it is acked now
        split
        · refine .registered ?_ ⟨event, hN, onBus w⟩
          exact (h.publish _).counted.register (by rw [(h.publish _).delivery])
            fun _ => ⟨rfl, rfl⟩
        · exact .called (h.publish _).callAck (fun _ => published rfl (onBus _))
            (Or.inl (by omega))

variable (config F raw) in
/-- **An ack is accounted for, and the calls are few.**  Take a message, any ack strategy and
any pattern of failures, and after `handleMessage` any hooks and timers of this delivery and any
steps of the others.  If the delivery was acked, its event was published, or dropped by the
filter, or stored in the dead letter queue; or the ack came first by strategy and what followed
failed; or no normalizer was wired; or the retry budget was spent and the dead letter queue did
not store the message.  The handle was called at most once, unless an ack threw or an ack before
publishing was followed by a failed publish. -/
theorem ack_accounted (hw : w.Fresh i) {labels : List (SettleLabel ι)} {s : Settlement ι}
    (r : Run settleStep (NotRegistering i) (ingest config F raw i w).2.settlement labels s) :
    (0 < (s.delivery i).acks → Accounted config F raw (ingest config F raw i w).2) ∧
    ((s.delivery i).acks + (s.delivery i).nacks ≤ 1 ∨ CalledTwice config F) := by
  cases ingest_spec config F raw hw with
  | registered hc hp =>
    -- the hook or the timer makes the one call, whatever the other deliveries do
    refine ⟨fun _ => Or.inl hp, Or.inl ?_⟩
    have h := (hc.of_run r).counted
    unfold Delivery.Counted at h
    split at h <;> omega
  | called hc why once =>
    obtain ⟨ha, hn⟩ := hc.counted.of_run_unset (by rw [hc.delivery]) r
    rw [ha, hn]
    exact ⟨why, once⟩

end

/-! ### One message -/

def wakeup : AgentEvent where
  id := "e1"
  source := .self "wakeup"
  target := .broadcast
  kind := .selfWakeup
  timestamp := 0
  payload := .null
  auth := .internal

/-- Everything succeeds but what is listed. -/
def faults (publish ack : Option String) : Faults where
  normalizer := .event wakeup
  publish := publish
  dlq := .stored
  ack _ := ack
  nack := none
  hookRegistry := true
  tenant := none

def emptyBroker : Broker Unit := ⟨Settlement.init Unit, [], []⟩

theorem emptyBroker_fresh : emptyBroker.Fresh () := ⟨rfl, fun _ h => by cases h⟩

def sampleMessage : RawMessage := { value := "" }

/-- Acked before publishing, and nacked when the publish fails. -/
theorem acked_and_nacked : ¬ ∀ (ι : Type) (_ : DecidableEq ι) (config : DeliveryConfig)
    (F : Faults) (raw : RawMessage) (i : ι) (w : Broker ι), w.Fresh i →
    ∀ (labels : List (SettleLabel ι)) (s : Settlement ι),
      Run settleStep (NotRegistering i) (ingest config F raw i w).2.settlement labels s →
        (0 < (s.delivery i).acks → Published F (ingest config F raw i w).2 ∨
          F.normalizer = .filtered ∨ raw ∈ (ingest config F raw i w).2.deadLettered) ∧
        (s.delivery i).acks + (s.delivery i).nacks ≤ 1 := by
  intro h
  have hcalls := (h Unit inferInstance ⟨.beforePublish, 1⟩ (faults (some "bus down") none)
    sampleMessage () emptyBroker emptyBroker_fresh [] _ .nil).2
  exact absurd hcalls (by decide)

theorem ack_accounted_after_publish :
    let w := (ingest ⟨.afterPublish, 1⟩ (faults none none) sampleMessage () emptyBroker).2
    (w.settlement.delivery ()).acks = 1 ∧
      Accounted ⟨.afterPublish, 1⟩ (faults none none) sampleMessage w := by
  have h := ack_accounted ⟨.afterPublish, 1⟩ (faults none none) sampleMessage
    emptyBroker_fresh .nil
  exact ⟨by decide, h.1 (by decide)⟩

end Declaragent.Sources
