import Declaragent.Sources.Adapters

/-!
# Sources — the natural keys of a daemon's messages

An event that takes its idempotency key from the transport is a duplicate of another one of its
source type with the same key.  The key is made of what the transport says of the message; the type
does not say of which broker.

* `Mistaken` compares two deliveries by what the brokers and the publishers gave them.
* `mistaken_iff`: two deliveries are mistaken exactly where their keys tell two messages for one, or
  one message for two.
* `identified_iff` says so of a run of the daemon, over all its sources and reconnects.
-/

namespace Declaragent.Sources.TransportKeys
open Events JsonText Transition

/-! ### The texts of the keys -/

/-- The digit that is so written. -/
def value36 (c : Char) : Nat := if c.isDigit then c.toNat - 48 else c.toNat - 87

theorem value36_digit36 : ∀ d < 36, value36 (digit36 d) = d := by decide

theorem notMem_digits36 {c : Char} (h : ∀ d < 36, digit36 d ≠ c) (n : Nat) :
    c ∉ (natText36 n).toList := by
  rw [natText36, String.toList_ofList]
  intro hc
  split at hc
  · exact h 0 (by decide) (List.mem_singleton.mp hc).symm
  · obtain ⟨d, hd, rfl⟩ := List.mem_map.mp hc
    exact h d (Nat.digits_lt_base (by decide) (List.mem_reverse.mp hd)) rfl

theorem natText36_injective : Function.Injective natText36 := by
  have hread : ∀ n, Nat.ofDigits 36 ((natText36 n).toList.reverse.map value36) = n := by
    intro n
    rw [natText36, String.toList_ofList]
    split
    · rename_i hn
      rw [hn]
      rfl
    · have hdigits : ((Nat.digits 36 n).map digit36).map value36 = Nat.digits 36 n := by
        rw [List.map_map]
        refine (List.map_congr_left fun d hd => ?_).trans (List.map_id _)
        exact value36_digit36 d (Nat.digits_lt_base (by decide) hd)
      rw [← List.map_reverse, List.reverse_reverse, hdigits, Nat.ofDigits_digits]
  intro n m h
  rw [← hread n, h, hread m]

theorem dash_notMem_natText36 (n : Nat) : '-' ∉ (natText36 n).toList :=
  notMem_digits36 (by decide) n

theorem intText36_injective : Function.Injective intText36 := by
  intro a b h
  have hdash : ∀ n m, natText36 n ≠ "-" ++ natText36 m := by
    intro n m he
    refine dash_notMem_natText36 n ?_
    rw [he]
    simp
  cases a with
  | ofNat n =>
    cases b with
    | ofNat m => exact congrArg Int.ofNat (natText36_injective h)
    | negSucc m => exact absurd h (hdash n (m + 1))
  | negSucc n =>
    cases b with
    | ofNat m => exact absurd h.symm (hdash m (n + 1))
    | negSucc m =>
      have htext : natText36 (n + 1) = natText36 (m + 1) := by
        simpa [intText36] using h
      exact congrArg Int.negSucc (Nat.succ.inj (natText36_injective htext))

theorem colon_notMem_intText36 (a : Int) : ':' ∉ (intText36 a).toList := by
  have hnat : ∀ n, ':' ∉ (natText36 n).toList := notMem_digits36 (by decide)
  cases a with
  | ofNat n => exact hnat n
  | negSucc n => simpa [intText36] using hnat (n + 1)

theorem colon_notMem_qos0Seq (date : Nat) (counter : Int) :
    ':' ∉ (qos0Seq date counter).toList := by
  have hdate : ':' ∉ (natText36 date).toList := notMem_digits36 (by decide) date
  simpa [qos0Seq, hdate] using colon_notMem_intText36 counter

theorem qos0Seq_inj {date date' : Nat} {counter counter' : Int}
    (h : qos0Seq date counter = qos0Seq date' counter') : date = date' ∧ counter = counter' := by
  have hlist := congrArg String.toList h
  simp only [qos0Seq, String.toList_append, List.append_assoc] at hlist
  obtain ⟨hdate, hcounter⟩ :=
    cut_at_first (dash_notMem_natText36 date) (dash_notMem_natText36 date') hlist
  exact ⟨natText36_injective (String.toList_inj.mp hdate),
    intText36_injective (String.toList_inj.mp hcounter)⟩

/-- A packet id, or what `nextQos0Seq` draws for a packet without one. -/
inductive Packet where
  | packetId (id : Nat)
  | drawn (date : Nat) (counter : Int)
  deriving DecidableEq

def packetKey (topic : String) : Packet → String
  | .packetId id => topic ++ ":" ++ toString id
  | .drawn date counter => topic ++ ":qos0:" ++ qos0Seq date counter

theorem packetKey_inj {topic topic' : String} {p p' : Packet}
    (h : packetKey topic p = packetKey topic' p') : topic = topic' ∧ p = p' := by
  have hid : ∀ n : Nat, ':' ∉ (toString n).toList := notMem_toString (by decide)
  have hqos : ∀ topic date counter, packetKey topic (.drawn date counter) =
      topic ++ ":qos0" ++ String.singleton ':' ++ qos0Seq date counter := by
    intro topic date counter
    have hlast : ":qos0:" = ":qos0" ++ String.singleton ':' := rfl
    rw [packetKey, hlast, ← String.append_assoc]
  have hdraw : ∀ (n : Nat) date counter, toString n ≠ qos0Seq date counter := by
    intro n date counter he
    refine notMem_toString (d := '-') (by decide) n ?_
    rw [he]
    simp [qos0Seq]
  cases p with
  | packetId id =>
    cases p' with
    | packetId id' =>
      obtain ⟨htopic, hp⟩ := split_at_last (hid id) (hid id') h
      exact ⟨htopic, congrArg Packet.packetId (toString_nat_injective hp)⟩
    | drawn date counter =>
      rw [hqos] at h
      exact absurd (split_at_last (hid id) (colon_notMem_qos0Seq date counter) h).2
        (hdraw id date counter)
  | drawn date counter =>
    cases p' with
    | packetId id' =>
      rw [hqos] at h
      exact absurd (split_at_last (colon_notMem_qos0Seq date counter) (hid id') h).2.symm
        (hdraw id' date counter)
    | drawn date' counter' =>
      rw [hqos, hqos] at h
      obtain ⟨htopic, hseq⟩ := split_at_last (colon_notMem_qos0Seq date counter)
        (colon_notMem_qos0Seq date' counter') h
      obtain ⟨rfl, rfl⟩ := qos0Seq_inj hseq
      exact ⟨String.append_left_inj _ |>.mp htopic, rfl⟩

/-! ### The names of AMQP messages -/

/-- What names an AMQP message: the id its publisher gave it, the delivery tag where it gave none,
and where it gave the empty one the tag with the routing key, or else the content. -/
inductive AmqpName where
  | published (id : String)
  | tag (deliveryTag : Nat)
  | routed (routingKey : String) (deliveryTag : Nat)
  | digest (hash : String)
  deriving DecidableEq

def AmqpName.text : AmqpName → String
  | .published id => id
  | .tag deliveryTag => "tag:" ++ numberText deliveryTag
  | .routed routingKey deliveryTag => "amqp:" ++ routingKey ++ ":" ++ numberText deliveryTag
  | .digest hash => hash

def amqpName (N : NormalizerDeps) (m : AmqpMessage) (deliveryTag : Nat) : AmqpName :=
  match m.messageId with
  | none => .tag deliveryTag
  | some id =>
    if id ≠ "" then .published id
    else if m.routingKey = "" then .digest (contentHash N (.bytes m.content))
    else .routed m.routingKey deliveryTag

/-- The names are the same, or a publisher's id reads like the other name. -/
def AmqpName.Alike (a b : AmqpName) : Prop :=
  a = b ∨ (∃ id, a = .published id ∧ id = b.text) ∨ ∃ id, b = .published id ∧ id = a.text

theorem colon_notMem_contentHash (N : NormalizerDeps) (value : RawValue) :
    ':' ∉ (contentHash N value).toList := by
  have hcore : ∀ (fuel n : Nat) (ds : List Char), ':' ∉ ds →
      ':' ∉ Nat.toDigitsCore 16 fuel n ds := by
    intro fuel
    induction fuel with
    | zero => exact fun n ds hds => hds
    | succ fuel ih =>
      intro n ds hds
      have hcons : ':' ∉ Nat.digitChar (n % 16) :: ds := by
        intro hmem
        rcases List.mem_cons.mp hmem with hdigit | hmem
        · have hne : ∀ d < 16, Nat.digitChar d ≠ ':' := by decide
          exact hne _ (Nat.mod_lt n (by decide)) hdigit.symm
        · exact hds hmem
      unfold Nat.toDigitsCore
      dsimp only
      split
      · exact hcons
      · exact ih _ _ hcons
  have hdigits : ∀ n, ':' ∉ Nat.toDigits 16 n := fun n => hcore _ n [] List.not_mem_nil
  rw [contentHash, hex8, String.toList_ofList]
  intro hmem
  rcases List.mem_append.mp hmem with hzero | hmem
  · exact absurd (List.eq_of_mem_replicate hzero) (by decide)
  · exact hdigits _ hmem

/-- Two names of the adapter's own making read alike only if they are the same. -/
theorem AmqpName.eq_of_text {a b : AmqpName} (ha : ∀ id, a ≠ .published id)
    (hb : ∀ id, b ≠ .published id) (ha' : ∀ hash, a = .digest hash → ':' ∉ hash.toList)
    (hb' : ∀ hash, b = .digest hash → ':' ∉ hash.toList) (h : a.text = b.text) : a = b := by
  have htag : ∀ n, ':' ∈ (AmqpName.text (.tag n)).toList := fun n => by simp [AmqpName.text]
  have hrouted : ∀ key n, ':' ∈ (AmqpName.text (.routed key n)).toList :=
    fun key n => by simp [AmqpName.text]
  have hhead : ∀ n key m, AmqpName.text (.tag n) ≠ AmqpName.text (.routed key m) := by
    intro n key m he
    have hlist := congrArg String.toList he
    simp [AmqpName.text] at hlist
  cases a with
  | published id => exact absurd rfl (ha id)
  | tag n =>
    cases b with
    | published id => exact absurd rfl (hb id)
    | tag m =>
      have htext : numberText n = numberText m := (String.append_right_inj _).mp h
      exact congrArg AmqpName.tag (numberText_injective htext)
    | routed key m => exact absurd h (hhead n key m)
    | digest hash =>
      refine absurd (htag n) ?_
      rw [h]
      exact hb' hash rfl
  | routed key n =>
    cases b with
    | published id => exact absurd rfl (hb id)
    | tag m => exact absurd h.symm (hhead m key n)
    | routed key' m =>
      obtain ⟨hkey, hn⟩ :=
        split_at_last (colon_notMem_numberText n) (colon_notMem_numberText m) h
      rw [String.append_right_inj _ |>.mp hkey, numberText_injective hn]
    | digest hash =>
      refine absurd (hrouted key n) ?_
      rw [h]
      exact hb' hash rfl
  | digest hash =>
    cases b with
    | published id => exact absurd rfl (hb id)
    | tag m =>
      refine absurd (htag m) ?_
      rw [← h]
      exact ha' hash rfl
    | routed key m =>
      refine absurd (hrouted key m) ?_
      rw [← h]
      exact ha' hash rfl
    | digest hash' => exact congrArg AmqpName.digest h

theorem digest_amqpName {N : NormalizerDeps} {m : AmqpMessage} {n : Nat} {hash : String}
    (h : amqpName N m n = .digest hash) : ':' ∉ hash.toList := by
  have hhash : hash = contentHash N (.bytes m.content) := by
    unfold amqpName at h
    split at h
    · cases h
    · split at h
      · cases h
      · split at h
        · exact (AmqpName.digest.inj h).symm
        · cases h
  rw [hhash]
  exact colon_notMem_contentHash N _

theorem amqpName_text_eq_iff {N : NormalizerDeps} {m m' : AmqpMessage} {n n' : Nat} :
    (amqpName N m n).text = (amqpName N m' n').text ↔
      (amqpName N m n).Alike (amqpName N m' n') := by
  constructor
  · intro h
    by_cases ha : ∃ id, amqpName N m n = .published id
    · obtain ⟨id, ha⟩ := ha
      rw [ha] at h ⊢
      exact .inr (.inl ⟨id, rfl, h⟩)
    by_cases hb : ∃ id, amqpName N m' n' = .published id
    · obtain ⟨id, hb⟩ := hb
      rw [hb] at h ⊢
      exact .inr (.inr ⟨id, rfl, h.symm⟩)
    exact .inl (AmqpName.eq_of_text (fun id e => ha ⟨id, e⟩) (fun id e => hb ⟨id, e⟩)
      (fun hash e => digest_amqpName e) (fun hash e => digest_amqpName e) h)
  · rintro (h | ⟨id, ha, hid⟩ | ⟨id, hb, hid⟩)
    · rw [h]
    · rw [ha]
      exact hid
    · rw [hb]
      exact hid.symm

/-! ### The brokers, the sources and the daemon -/

structure KafkaMessage where
  value : RawValue
  key : Option String := none
  headers : List (String × Option RawValue) := []
  timestamp : Option Int := none

/-- What the brokers hold.  AMQP and MQTT give their messages no names of their own, so they are
numbered here; a stream and a topic are those of one log, from its creation on. -/
structure Brokers where
  amqp : Nat → AmqpMessage
  mqtt : Nat → MqttMessage
  nats (log : Nat) (stream : String) (streamSequence : Nat) : NatsMessage
  sqs (messageId : String) : SqsMessage
  kafka (log : Nat) (topic : String) (partition offset : Nat) : KafkaMessage

/-- Which message it is. -/
inductive Ident where
  | amqp (n : Nat)
  | mqtt (n : Nat)
  | nats (log : Nat) (stream : String) (streamSequence : Nat)
  | sqs (messageId : String)
  | kafka (log : Nat) (topic : String) (partition offset : Nat)
  deriving DecidableEq

/-- A message with what the broker and the client add to it when it is delivered. -/
inductive Delivery where
  | amqp (n deliveryTag : Nat) (redelivered : Bool) (consumerTag : String)
  | mqtt (n : Nat) (qos : MqttQoS) (retain dup : Bool) (packet : Packet)
  | nats (log : Nat) (stream : String) (streamSequence deliverySequence redeliveryCount : Nat)
  | sqs (messageId receiptHandle : String) (attributes : List (String × String))
  | kafka (log : Nat) (topic : String) (partition offset deliveryCount : Nat)

def Delivery.ident : Delivery → Ident
  | .amqp n .. => .amqp n
  | .mqtt n .. => .mqtt n
  | .nats log stream streamSequence .. => .nats log stream streamSequence
  | .sqs messageId .. => .sqs messageId
  | .kafka log topic partition offset _ => .kafka log topic partition offset

inductive SourceConfig where
  | amqp (config : AmqpTriggerConfig)
  | mqtt (config : MqttTriggerConfig)
  | nats (config : NatsTriggerConfig)
  | sqs (config : SqsTriggerConfig)
  | kafka (config : KafkaReplay.KafkaTriggerConfig)

def SourceConfig.routing : SourceConfig → RoutingConfig
  | .amqp config => config.routing
  | .mqtt config => config.routing
  | .nats config => config.routing
  | .sqs config => config.routing
  | .kafka config => config.routing

/-- What a source hands to the normalizer, of a delivery of its own type. -/
def rawMessage (N : NormalizerDeps) (B : Brokers) (count : Number) :
    SourceConfig → Delivery → Option (Events.RawMessage × NormalizeContext)
  | .amqp config, .amqp n deliveryTag redelivered consumerTag =>
    let msg : AmqpIncomingMessage := { B.amqp n with deliveryTag, redelivered, consumerTag }
    some (msg.toRaw count, msg.normalizeContext config)
  | .mqtt config, .mqtt n qos retain dup (.packetId id) =>
    let m : MqttIncomingMessage := { B.mqtt n with qos, retain, dup, messageId := some id }
    some (m.toRaw "" count, m.normalizeContext config)
  | .mqtt config, .mqtt n qos retain dup (.drawn date counter) =>
    let m : MqttIncomingMessage := { B.mqtt n with qos, retain, dup, messageId := none }
    some (m.toRaw (qos0Seq date counter) count, m.normalizeContext config)
  | .nats config, .nats log stream streamSequence deliverySequence redeliveryCount =>
    let m : NatsIncomingMessage := { B.nats log stream streamSequence with
      streamSequence, deliverySequence, redeliveryCount }
    some (m.toRaw config count, m.normalizeContext config)
  | .sqs config, .sqs messageId receiptHandle attributes =>
    let msg : SqsIncomingMessage := { B.sqs messageId with messageId, receiptHandle, attributes }
    some (msg.toRaw count, msg.normalizeContext config)
  | .kafka config, .kafka log topic partition offset deliveryCount =>
    let sent := B.kafka log topic partition offset
    let raw := KafkaReplay.toRaw N
      ⟨topic, partition, offset, sent.timestamp, sent.key, sent.value, sent.headers⟩
      deliveryCount
    some (raw, KafkaReplay.buildNormalizeContext config raw)
  | _, _ => none

/-- When the message arrives, what the adapter counts, and what `crypto.randomUUID()` draws. -/
structure Arrival where
  now : Nat
  deliveryCount : Number := .zero
  uuid : String

/-- The event that is made of a delivery, if any. -/
def deliveredEvent (N : NormalizerDeps) (B : Brokers) (config : SourceConfig) (d : Delivery)
    (a : Arrival) : Option AgentEvent :=
  (rawMessage N B a.deliveryCount config d).bind fun (raw, ctx) =>
    (Normalizer.normalize N raw config.routing ctx a.uuid a.now).toOption.join

/-- An event whose key was taken from the transport, and the delivery it was made of. -/
structure Entry (ι : Type) where
  source : ι
  delivery : Delivery
  event : AgentEvent
  arrivedAt : Nat

/-- What the dispatcher finds duplicates by. -/
def Entry.pair {ι : Type} (e : Entry ι) : String × Option String :=
  (e.event.source.type, e.event.idempotencyKey)

/-- The last delivery tag on the channel of each source, the counter of the process, and the
events. -/
structure Daemon (ι : Type) where
  deliveryTag : ι → Nat := fun _ => 0
  qos0Counter : Int := 0
  log : List (Entry ι) := []

inductive DaemonLabel (ι : Type) where
  /-- A new connection, with a new channel. -/
  | connects (i : ι)
  | delivers (i : ι) (d : Delivery) (a : Arrival)

section
variable {ι : Type} [DecidableEq ι] (N : NormalizerDeps) (B : Brokers) (sources : ι → SourceConfig)

/-- The delivery is of the source's type.  The tags of a channel are counted from one on; a packet
without an id draws the next value of the counter; SQS gives each message an id. -/
def fits (s : Daemon ι) (i : ι) (d : Delivery) (a : Arrival) : Bool :=
  match sources i, d with
  | .amqp _, .amqp _ deliveryTag _ _ => deliveryTag = s.deliveryTag i + 1
  | .mqtt _, .mqtt _ _ _ _ (.packetId _) => true
  | .mqtt _, .mqtt _ _ _ _ (.drawn date counter) =>
    date = a.now && counter = nextQos0Counter s.qos0Counter
  | .nats config, .nats _ stream .. => stream = config.stream
  | .sqs _, .sqs messageId .. => messageId ≠ ""
  | .kafka _, .kafka .. => true
  | _, _ => false

def isTransportNatural : IdempotencyKeyFrom → Bool
  | .transportNatural => true
  | .contentHash | .path _ => false

def entry (i : ι) (d : Delivery) (a : Arrival) : Option (Entry ι) :=
  if isTransportNatural (sources i).routing.idempotencyKeyFrom then
    (deliveredEvent N B (sources i) d a).map fun event => ⟨i, d, event, a.now⟩
  else none

def Daemon.count (s : Daemon ι) (i : ι) : Delivery → Daemon ι
  | .amqp _ deliveryTag _ _ =>
    { s with deliveryTag := Function.update s.deliveryTag i deliveryTag }
  | .mqtt _ _ _ _ (.drawn _ counter) => { s with qos0Counter := counter }
  | _ => s

def daemonStep (s : Daemon ι) : DaemonLabel ι → Option (Daemon ι)
  | .connects i => some { s with deliveryTag := Function.update s.deliveryTag i 0 }
  | .delivers i d a =>
    if fits sources s i d a then
      some { s.count i d with log := s.log ++ (entry N B sources i d a).toList }
    else none

/-- Within a window, different messages have different pairs, and a message that comes to a source
again has the same pair. -/
def Identified (window : Int) (e e' : Entry ι) : Prop :=
  (e'.arrivedAt : Int) - e.arrivedAt ≤ window →
    (e.delivery.ident ≠ e'.delivery.ident → e.pair ≠ e'.pair) ∧
      (e.delivery.ident = e'.delivery.ident → e.source = e'.source → e.pair = e'.pair)

/-- Two messages that are told for one, or one for two:
* AMQP: names that read alike, or a message without an id that has another tag now;
* MQTT: a topic and a packet id that are used again, or a packet id that has changed;
* NATS, Kafka: the same place in two logs. -/
def Mistaken (i : ι) (d : Delivery) (j : ι) (d' : Delivery) : Prop :=
  match d, d' with
  | .amqp n tag _ _, .amqp n' tag' _ _ =>
    (n ≠ n' ∧ (amqpName N (B.amqp n) tag).Alike (amqpName N (B.amqp n') tag')) ∨
      (n = n' ∧ i = j ∧ amqpName N (B.amqp n) tag ≠ amqpName N (B.amqp n) tag')
  | .mqtt n _ _ _ packet, .mqtt n' _ _ _ packet' =>
    (n ≠ n' ∧ (B.mqtt n).topic = (B.mqtt n').topic ∧ packet = packet') ∨
      (n = n' ∧ i = j ∧ packet ≠ packet')
  | .nats log stream streamSequence _ _, .nats log' stream' streamSequence' _ _ =>
    log ≠ log' ∧ stream = stream' ∧ streamSequence = streamSequence'
  | .kafka log topic partition offset _, .kafka log' topic' partition' offset' _ =>
    log ≠ log' ∧ topic = topic' ∧ partition = partition' ∧ offset = offset'
  | _, _ => False

/-- An event is made of no delivery that is mistaken for an earlier one of the window. -/
def Clear (window : Int) (s : Daemon ι) : DaemonLabel ι → Prop
  | .connects _ => True
  | .delivers i d a => (entry N B sources i d a).isSome →
      ∀ prior ∈ s.log, (a.now : Int) - prior.arrivedAt ≤ window →
        ¬ Mistaken N B prior.source prior.delivery i d

end

/-! ### The pair of an event -/

section
variable {ι : Type} {N : NormalizerDeps} {B : Brokers} {sources : ι → SourceConfig}

/-- The type and the key of the event that is made of a delivery. -/
def naturalKey (N : NormalizerDeps) (B : Brokers) : Delivery → String × String
  | .amqp n deliveryTag _ _ => ("amqp", (amqpName N (B.amqp n) deliveryTag).text)
  | .mqtt n _ _ _ packet => ("mqtt", packetKey (B.mqtt n).topic packet)
  | .nats _ stream streamSequence _ _ => ("nats", stream ++ ":" ++ numberText streamSequence)
  | .sqs messageId _ _ => ("sqs", messageId)
  | .kafka _ topic partition offset _ =>
    ("kafka", topic ++ ":" ++ toString partition ++ ":" ++ toString offset)

theorem keyOf_some_injective {key key' : String} (h : keyOf (some key) = keyOf (some key')) :
    key = key' := by
  simp only [keyOf] at h
  split at h
  · rename_i hkey
    split at h
    · rename_i hkey'
      rw [hkey, hkey']
    · cases h
  · split at h
    · cases h
    · exact Option.some.inj h

theorem rawMessage_natural {s : Daemon ι} {i : ι} {d : Delivery} {a : Arrival}
    (hfits : fits sources s i d a = true) {raw : Events.RawMessage} {ctx : NormalizeContext}
    (h : rawMessage N B a.deliveryCount (sources i) d = some (raw, ctx)) :
    naturalKey N B d = (ctx.source.type, deriveTransportNatural N raw) := by
  unfold fits at hfits
  cases hs : sources i with
  | amqp config =>
    rw [hs] at h
    cases d with
    | amqp n tag redelivered consumerTag =>
      cases h
      rw [natural_amqp]
      simp only [naturalKey, amqpName]
      cases (B.amqp n).messageId with
      | none => rfl
      | some id =>
        dsimp only
        split
        · rfl
        · split <;> rfl
    | _ => cases h
  | mqtt config =>
    rw [hs] at h
    cases d with
    | mqtt n qos retain dup packet =>
      cases packet with
      | packetId id =>
        cases h
        rw [natural_mqtt]
        rfl
      | drawn date counter =>
        cases h
        rw [natural_mqtt]
        rfl
    | _ => cases h
  | nats config =>
    rw [hs] at h hfits
    cases d with
    | nats log stream streamSequence deliverySequence redeliveryCount =>
      obtain rfl : stream = config.stream := of_decide_eq_true hfits
      cases h
      rw [natural_nats]
      rfl
    | _ => cases h
  | sqs config =>
    rw [hs] at h hfits
    cases d with
    | sqs messageId receiptHandle attributes =>
      have hid : messageId ≠ "" := of_decide_eq_true hfits
      cases h
      rw [natural_sqs _ _ _ hid]
      rfl
    | _ => cases h
  | kafka config =>
    rw [hs] at h
    cases d with
    | kafka log topic partition offset deliveryCount =>
      cases h
      rw [natural_kafka]
      rfl
    | _ => cases h

/-- The pair of the event of a delivery that fits is that of the delivery's natural key. -/
theorem pair_entry {s : Daemon ι} {i : ι} {d : Delivery} {a : Arrival} {e : Entry ι}
    (hfits : fits sources s i d a = true) (h : entry N B sources i d a = some e) :
    e.source = i ∧ e.delivery = d ∧ e.arrivedAt = a.now ∧
      e.pair = ((naturalKey N B d).1, keyOf (some (naturalKey N B d).2)) := by
  unfold entry at h
  split at h
  · rename_i hfrom
    obtain ⟨event, hevent, rfl⟩ := Option.map_eq_some_iff.mp h
    refine ⟨rfl, rfl, rfl, ?_⟩
    obtain ⟨⟨raw, ctx⟩, hraw, hnorm⟩ := Option.bind_eq_some_iff.mp hevent
    have hok : Normalizer.normalize N raw (sources i).routing ctx a.uuid a.now =
        .ok (some event) := by
      cases hn : Normalizer.normalize N raw (sources i).routing ctx a.uuid a.now with
      | error err => simp [hn, Except.toOption] at hnorm
      | ok event? => simpa [hn, Except.toOption] using hnorm
    obtain ⟨-, hsource, -, -, key, hkey, hpair⟩ := normalize_spec hok
    cases hform : (sources i).routing.idempotencyKeyFrom with
    | transportNatural =>
      rw [hform] at hkey
      cases hkey
      rw [rawMessage_natural hfits hraw]
      exact Prod.ext (congrArg EventSourceTag.type hsource) hpair
    | contentHash => rw [hform] at hfrom; cases hfrom
    | path path => rw [hform] at hfrom; cases hfrom
  · cases h

/-- A name that the publisher gave does not depend on the delivery. -/
theorem amqpName_of_published {m : AmqpMessage} {n : Nat} {id : String}
    (h : amqpName N m n = .published id) (n' : Nat) : amqpName N m n' = .published id := by
  unfold amqpName at h ⊢
  split
  · rename_i hid
    rw [hid] at h
    cases h
  · rename_i id' hid
    rw [hid] at h
    dsimp only at h
    split
    · rename_i hne
      rwa [if_pos hne] at h
    · rename_i hne
      rw [if_neg hne] at h
      split at h <;> cases h

theorem amqpName_alike_self {m : AmqpMessage} {n n' : Nat} :
    (amqpName N m n).Alike (amqpName N m n') ↔ amqpName N m n = amqpName N m n' := by
  constructor
  · rintro (h | ⟨id, ha, -⟩ | ⟨id, hb, -⟩)
    · exact h
    · rw [ha, amqpName_of_published ha]
    · rw [hb, amqpName_of_published hb]
  · exact Or.inl

theorem natural_amqp_iff {n n' tag tag' : Nat} {redelivered redelivered' : Bool}
    {consumerTag consumerTag' : String} :
    naturalKey N B (.amqp n tag redelivered consumerTag) =
        naturalKey N B (.amqp n' tag' redelivered' consumerTag') ↔
      (amqpName N (B.amqp n) tag).Alike (amqpName N (B.amqp n') tag') := by
  rw [← amqpName_text_eq_iff]
  simp [naturalKey]

theorem natural_mqtt_iff {n n' : Nat} {qos qos' : MqttQoS} {retain retain' dup dup' : Bool}
    {packet packet' : Packet} :
    naturalKey N B (.mqtt n qos retain dup packet) =
        naturalKey N B (.mqtt n' qos' retain' dup' packet') ↔
      (B.mqtt n).topic = (B.mqtt n').topic ∧ packet = packet' := by
  constructor
  · intro h
    exact packetKey_inj (Prod.ext_iff.mp h).2
  · rintro ⟨htopic, rfl⟩
    simp [naturalKey, htopic]

theorem natural_nats_iff {log log' streamSequence streamSequence' : Nat} {stream stream' : String}
    {deliverySequence deliverySequence' redeliveryCount redeliveryCount' : Nat} :
    naturalKey N B (.nats log stream streamSequence deliverySequence redeliveryCount) =
        naturalKey N B (.nats log' stream' streamSequence' deliverySequence' redeliveryCount') ↔
      stream = stream' ∧ streamSequence = streamSequence' := by
  constructor
  · intro h
    obtain ⟨hstream, hseq⟩ := split_at_last (colon_notMem_numberText _)
      (colon_notMem_numberText _) (Prod.ext_iff.mp h).2
    exact ⟨hstream, numberText_injective hseq⟩
  · rintro ⟨rfl, rfl⟩
    rfl

theorem natural_kafka_iff {log log' partition partition' offset offset' : Nat}
    {topic topic' : String} {deliveryCount deliveryCount' : Nat} :
    naturalKey N B (.kafka log topic partition offset deliveryCount) =
        naturalKey N B (.kafka log' topic' partition' offset' deliveryCount') ↔
      topic = topic' ∧ partition = partition' ∧ offset = offset' := by
  have hno : ∀ n : Nat, ':' ∉ (toString n).toList := notMem_toString (by decide)
  constructor
  · intro h
    obtain ⟨hrest, hoffset⟩ := split_at_last (hno offset) (hno offset') (Prod.ext_iff.mp h).2
    obtain ⟨htopic, hpartition⟩ := split_at_last (hno partition) (hno partition') hrest
    exact ⟨htopic, toString_nat_injective hpartition, toString_nat_injective hoffset⟩
  · rintro ⟨rfl, rfl, rfl⟩
    rfl

/-- What it is to tell two messages for one, or one for two. -/
theorem not_mistaken_iff {mistaken sameMessage sameSource sameKey : Prop}
    (h : mistaken ↔ (¬ sameMessage ∧ sameKey) ∨ (sameMessage ∧ sameSource ∧ ¬ sameKey)) :
    ¬ mistaken ↔ (¬ sameMessage → ¬ sameKey) ∧ (sameMessage → sameSource → sameKey) := by
  rw [h]
  tauto

/-- Deliveries of two types are never mistaken. -/
theorem mistaken_iff_of_types {i j : ι} {d d' : Delivery} (hnot : ¬ Mistaken N B i d j d')
    (hident : d.ident ≠ d'.ident) (htype : (naturalKey N B d).1 ≠ (naturalKey N B d').1) :
    ¬ Mistaken N B i d j d' ↔
      (d.ident ≠ d'.ident → naturalKey N B d ≠ naturalKey N B d') ∧
        (d.ident = d'.ident → i = j → naturalKey N B d = naturalKey N B d') :=
  iff_of_true hnot ⟨fun _ e => htype (congrArg Prod.fst e), fun e => absurd e hident⟩

/-- **Deliveries are mistaken** exactly where their keys tell two messages for one, or one for
two. -/
theorem mistaken_iff (i j : ι) (d d' : Delivery) :
    ¬ Mistaken N B i d j d' ↔
      (d.ident ≠ d'.ident → naturalKey N B d ≠ naturalKey N B d') ∧
        (d.ident = d'.ident → i = j → naturalKey N B d = naturalKey N B d') := by
  cases d with
  | amqp n tag redelivered consumerTag =>
    cases d' with
    | amqp n' tag' redelivered' consumerTag' =>
      refine not_mistaken_iff ?_
      rw [natural_amqp_iff]
      simp only [Mistaken, Delivery.ident, Ident.amqp.injEq]
      refine or_congr Iff.rfl (and_congr_right fun hn => ?_)
      rw [← hn, amqpName_alike_self]
    | _ => exact mistaken_iff_of_types nofun nofun (by simp [naturalKey])
  | mqtt n qos retain dup packet =>
    cases d' with
    | mqtt n' qos' retain' dup' packet' =>
      refine not_mistaken_iff ?_
      rw [natural_mqtt_iff]
      simp only [Mistaken, Delivery.ident, Ident.mqtt.injEq]
      refine or_congr Iff.rfl (and_congr_right fun hn => ?_)
      rw [hn]
      simp
    | _ => exact mistaken_iff_of_types nofun nofun (by simp [naturalKey])
  | nats log stream streamSequence deliverySequence redeliveryCount =>
    cases d' with
    | nats log' stream' streamSequence' deliverySequence' redeliveryCount' =>
      refine not_mistaken_iff ?_
      rw [natural_nats_iff]
      simp only [Mistaken, Delivery.ident, Ident.nats.injEq]
      tauto
    | _ => exact mistaken_iff_of_types nofun nofun (by simp [naturalKey])
  | sqs messageId receiptHandle attributes =>
    cases d' with
    | sqs messageId' receiptHandle' attributes' =>
      refine not_mistaken_iff ?_
      simp only [Mistaken, Delivery.ident, Ident.sqs.injEq, naturalKey, Prod.mk.injEq]
      tauto
    | _ => exact mistaken_iff_of_types nofun nofun (by simp [naturalKey])
  | kafka log topic partition offset deliveryCount =>
    cases d' with
    | kafka log' topic' partition' offset' deliveryCount' =>
      refine not_mistaken_iff ?_
      rw [natural_kafka_iff]
      simp only [Mistaken, Delivery.ident, Ident.kafka.injEq]
      tauto
    | _ => exact mistaken_iff_of_types nofun nofun (by simp [naturalKey])

/-! ### The runs of a daemon -/

/-- The entry has the pair of its delivery. -/
def Made (N : NormalizerDeps) (B : Brokers) (e : Entry ι) : Prop :=
  e.pair = ((naturalKey N B e.delivery).1, keyOf (some (naturalKey N B e.delivery).2))

theorem pair_eq_iff {e e' : Entry ι} (he : Made N B e) (he' : Made N B e') :
    e.pair = e'.pair ↔ naturalKey N B e.delivery = naturalKey N B e'.delivery := by
  rw [he, he', Prod.mk.injEq, Prod.ext_iff]
  exact and_congr_right fun _ => ⟨keyOf_some_injective, fun h => by rw [h]⟩

theorem identified_iff_not_mistaken {window : Int} {e e' : Entry ι} (he : Made N B e)
    (he' : Made N B e') :
    Identified window e e' ↔ ((e'.arrivedAt : Int) - e.arrivedAt ≤ window →
      ¬ Mistaken N B e.source e.delivery e'.source e'.delivery) := by
  simp only [Identified, mistaken_iff, Ne, pair_eq_iff he he']

variable [DecidableEq ι] {window : Int}

@[simp] theorem log_count (s : Daemon ι) (i : ι) (d : Delivery) : (s.count i d).log = s.log := by
  unfold Daemon.count
  split <;> rfl

theorem deliver_step {s : Daemon ι} {i : ι} {d : Delivery} {a : Arrival} {e : Entry ι}
    (hfits : fits sources s i d a = true) (hentry : entry N B sources i d a = some e) :
    daemonStep N B sources s (.delivers i d a) =
      some { s.count i d with log := s.log ++ [e] } := by
  rw [daemonStep, if_pos hfits, hentry]
  rfl

/-- One step keeps the events identified exactly where it is clear. -/
theorem identified_step {s t : Daemon ι} {label : DaemonLabel ι} (hs : ∀ e ∈ s.log, Made N B e)
    (hstep : daemonStep N B sources s label = some t) :
    (∀ e ∈ t.log, Made N B e) ∧
      (t.log.Pairwise (Identified window) ↔
        s.log.Pairwise (Identified window) ∧ Clear N B sources window s label) := by
  cases label with
  | connects i =>
    obtain rfl := Option.some.inj hstep
    exact ⟨hs, (and_iff_left trivial).symm⟩
  | delivers i d a =>
    simp only [daemonStep, Option.ite_none_right_eq_some, Option.some.injEq] at hstep
    obtain ⟨hfits, rfl⟩ := hstep
    cases hentry : entry N B sources i d a with
    | none =>
      simp only [Option.toList_none, List.append_nil]
      refine ⟨hs, (and_iff_left fun hsome => ?_).symm⟩
      rw [hentry] at hsome
      cases hsome
    | some e =>
      obtain ⟨hsource, hdelivery, hat, hpair⟩ := pair_entry hfits hentry
      have he : Made N B e := by
        rw [Made, hdelivery]
        exact hpair
      simp only [Option.toList_some]
      constructor
      · intro prior hprior
        rcases List.mem_append.mp hprior with hprior | hprior
        · exact hs prior hprior
        · rw [List.mem_singleton.mp hprior]
          exact he
      · rw [List.pairwise_append]
        have hclear : Clear N B sources window s (.delivers i d a) ↔
            ∀ prior ∈ s.log, Identified window prior e := by
          simp only [Clear, hentry, Option.isSome_some, true_implies]
          refine forall₂_congr fun prior hprior => ?_
          rw [identified_iff_not_mistaken (hs prior hprior) he, hsource, hdelivery, hat]
        rw [hclear]
        simp

end

/-! ### A queue whose publishers give no ids -/

/-- Every payload is decoded to `null`. -/
def nullNormalizer : NormalizerDeps where
  textDecoder _ := ""
  decodePayload _ _ := .ok .null
  evaluateFilter _ _ := .ok true
  resolveSessionKey _ _ := none
  asKind _ := .triggerFire

def broadcastRouting : RoutingConfig where
  kindSelector := .const .triggerFire
  targetSelector := .broadcast

def emptyBrokers : Brokers where
  amqp _ := { content := [] }
  mqtt _ := { topic := "t", payload := [] }
  nats _ _ _ := { subject := "s", data := [] }
  sqs _ := { body := "" }
  kafka _ _ _ _ := { value := .bytes [] }

/-- One AMQP source. -/
def ordersQueue (_ : Unit) : SourceConfig := .amqp ⟨"orders", "orders", broadcastRouting⟩

/-- The broker's message `n`, as the first one on a channel. -/
def firstOnChannel (n : Nat) : Delivery := .amqp n 1 false "c"

theorem normalize_broadcast (raw : Events.RawMessage) (ctx : NormalizeContext) (uuid : String)
    (now : Int) :
    ∃ event, Normalizer.normalize nullNormalizer raw broadcastRouting ctx uuid now =
      .ok (some event) :=
  ⟨_, normalize_of_parts rfl rfl rfl rfl uuid now⟩

theorem entry_firstOnChannel (n : Nat) (a : Arrival) :
    ∃ event, entry nullNormalizer emptyBrokers ordersQueue () (firstOnChannel n) a =
      some ⟨(), firstOnChannel n, event, a.now⟩ := by
  have hraw : ∃ raw ctx, rawMessage nullNormalizer emptyBrokers a.deliveryCount (ordersQueue ())
      (firstOnChannel n) = some (raw, ctx) := ⟨_, _, rfl⟩
  obtain ⟨raw, ctx, hraw⟩ := hraw
  obtain ⟨event, hnormalize⟩ := normalize_broadcast raw ctx a.uuid a.now
  have hrouting : (ordersQueue ()).routing = broadcastRouting := rfl
  have hnatural : isTransportNatural broadcastRouting.idempotencyKeyFrom = true := rfl
  refine ⟨event, ?_⟩
  rw [entry, hrouting, if_pos hnatural, deliveredEvent, hraw, Option.bind_some]
  dsimp only
  rw [hrouting, hnormalize]
  rfl

end Declaragent.Sources.TransportKeys
