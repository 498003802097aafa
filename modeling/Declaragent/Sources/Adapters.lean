import Declaragent.Library.JsValue
import Declaragent.Sources.KafkaReplay
import Mathlib.Data.Nat.Digits.Defs

/-!
# Sources — what the adapters make of a broker's message

Each adapter turns what its client hands over into a raw message for the normalizer, and names the
message: AMQP by the id its publisher gave it or else by the delivery tag, MQTT by its topic and
packet id, NATS by its place in the stream, SQS by the id of the queue.  How often a message was
delivered before is a parameter here; each adapter takes it from elsewhere.
-/

namespace Declaragent.Sources
open Events JsonText

/-- `String(n)`. -/
def numberText (n : Nat) : String := (Number.ofInt n).text

theorem numberText_injective : Function.Injective numberText := fun n m h =>
  Int.ofNat_inj.mp (Number.ofInt_injective (Number.text_injective h))

theorem colon_notMem_numberText (n : Nat) : ':' ∉ (numberText n).toList := by
  rw [numberText, Number.text, String.toList_ofList]
  exact fun h => absurd (Number.isNumeric_of_mem_render h) (by decide)

/-- The delivery count as `meta` carries it. -/
def countField (deliveryCount : Number) : String × Json := ("deliveryCount", .num deliveryCount)

/-! ### AMQP -/

/-- What a publisher sends, and the exchange it sends it to. -/
structure AmqpMessage where
  content : List UInt8
  exchange : String := ""
  routingKey : String := ""
  headers : List (String × Json) := []
  messageId : Option String := none
  timestamp : Option Int := none
  correlationId : Option String := none

/-- The message with the fields of its delivery. -/
structure AmqpIncomingMessage extends AmqpMessage where
  deliveryTag : Nat
  redelivered : Bool
  consumerTag : String

structure AmqpTriggerConfig where
  id : String
  queue : String
  routing : RoutingConfig

namespace AmqpIncomingMessage

/-- The publisher's id survives a requeue, the delivery tag does not. -/
def tagKey (msg : AmqpIncomingMessage) : String :=
  match msg.messageId with
  | some id => if id = "" then "tag:" ++ numberText msg.deliveryTag else "mid:" ++ id
  | none => "tag:" ++ numberText msg.deliveryTag

def toRaw (msg : AmqpIncomingMessage) (deliveryCount : Number) : Events.RawMessage where
  value := .bytes msg.content
  routingKey := some msg.routingKey
  headers := msg.headers
  timestamp := msg.timestamp
  info :=
    [("messageId", .str (msg.messageId.getD msg.tagKey)),
      ("deliveryTag", .num (.ofInt msg.deliveryTag)), ("redelivered", .bool msg.redelivered),
      countField deliveryCount, ("consumerTag", .str msg.consumerTag),
      ("exchange", .str msg.exchange)] ++
    (msg.correlationId.map fun id => ("correlationId", Json.str id)).toList

def normalizeContext (config : AmqpTriggerConfig) (msg : AmqpIncomingMessage) :
    NormalizeContext where
  source := .amqp config.id msg.exchange msg.routingKey config.queue msg.deliveryTag
  auth := .trigger config.id

end AmqpIncomingMessage

/-! ### MQTT -/

inductive MqttQoS where
  | atMostOnce | atLeastOnce | exactlyOnce
  deriving DecidableEq

def MqttQoS.toNat : MqttQoS → Nat
  | .atMostOnce => 0
  | .atLeastOnce => 1
  | .exactlyOnce => 2

structure MqttMessage where
  topic : String
  payload : List UInt8
  userProperties : List (String × String) := []

/-- The message with the fields of its packet.  With QoS 0 it has no packet id. -/
structure MqttIncomingMessage extends MqttMessage where
  qos : MqttQoS
  retain : Bool
  messageId : Option Nat
  dup : Bool

structure MqttTriggerConfig where
  id : String
  routing : RoutingConfig

/-- A digit of `toString(36)`. -/
def digit36 (d : Nat) : Char := if d < 10 then Char.ofNat (48 + d) else Char.ofNat (87 + d)

/-- `Number.prototype.toString(36)`, of a number that is no less than zero. -/
def natText36 (n : Nat) : String :=
  String.ofList (if n = 0 then ['0'] else (Nat.digits 36 n).reverse.map digit36)

def intText36 : Int → String
  | .ofNat n => natText36 n
  | .negSucc n => "-" ++ natText36 (n + 1)

/-- `(qos0Counter + 1) | 0`. -/
def nextQos0Counter (counter : Int) : Int := Int.bmod (counter + 1) 4294967296

/-- `nextQos0Seq`, drawn at `date` with the counter at `counter`. -/
def qos0Seq (date : Nat) (counter : Int) : String := natText36 date ++ "-" ++ intText36 counter

namespace MqttIncomingMessage

/-- `seq` is what `nextQos0Seq` draws. -/
def messageKey (m : MqttIncomingMessage) (seq : String) : String :=
  match m.messageId with
  | some id => m.topic ++ ":" ++ toString id
  | none => m.topic ++ ":qos0:" ++ seq

/-- The user properties, with what the transport says of the message put over them. -/
def headers (m : MqttIncomingMessage) : List (String × Json) :=
  let headers := m.userProperties.map fun (name, value) => (name, Json.str value)
  let headers := put "x-mqtt-qos" (.str (toString m.qos.toNat)) headers
  let headers := put "x-mqtt-retain" (.str (if m.retain then "true" else "false")) headers
  if m.dup then put "x-mqtt-dup" (.str "true") headers else headers

def toRaw (m : MqttIncomingMessage) (seq : String) (deliveryCount : Number) :
    Events.RawMessage where
  value := .bytes m.payload
  topic := some m.topic
  headers := m.headers
  info :=
    [("messageId", .str (m.messageKey seq)), countField deliveryCount,
      ("qos", .num (.ofInt m.qos.toNat)), ("retain", .bool m.retain), ("dup", .bool m.dup)] ++
    (m.messageId.map fun id => ("mqttPacketId", Json.num (.ofInt id))).toList

def normalizeContext (config : MqttTriggerConfig) (m : MqttIncomingMessage) :
    NormalizeContext where
  source := .mqtt config.id m.topic m.qos.toNat
  auth := .trigger config.id

end MqttIncomingMessage

/-! ### NATS -/

structure NatsMessage where
  subject : String
  data : List UInt8
  headers : List (String × String) := []
  timestampMs : Option Int := none

structure NatsIncomingMessage extends NatsMessage where
  streamSequence : Nat
  deliverySequence : Nat
  redeliveryCount : Nat

structure NatsTriggerConfig where
  id : String
  stream : String
  routing : RoutingConfig

namespace NatsIncomingMessage

def messageId (config : NatsTriggerConfig) (m : NatsIncomingMessage) : String :=
  config.stream ++ ":" ++ numberText m.streamSequence

def toRaw (config : NatsTriggerConfig) (m : NatsIncomingMessage) (deliveryCount : Number) :
    Events.RawMessage where
  value := .bytes m.data
  topic := some m.subject
  routingKey := some m.subject
  offset := some (numberText m.streamSequence)
  headers := m.headers.map fun (name, value) => (name, Json.str value)
  timestamp := m.timestampMs
  info :=
    [("messageId", .str (m.messageId config)),
      ("streamSequence", .num (.ofInt m.streamSequence)),
      ("deliverySequence", .num (.ofInt m.deliverySequence)), countField deliveryCount,
      ("stream", .str config.stream)]

def normalizeContext (config : NatsTriggerConfig) (m : NatsIncomingMessage) :
    NormalizeContext where
  source := .nats config.id config.stream m.subject m.streamSequence
  auth := .trigger config.id

end NatsIncomingMessage

/-! ### SQS -/

structure SqsMessage where
  body : String
  messageAttributes : List (String × String) := []
  messageGroupId : Option String := none
  messageDeduplicationId : Option String := none

structure SqsIncomingMessage extends SqsMessage where
  messageId : String
  receiptHandle : String
  /-- The attributes of the system, which are numbers in decimal. -/
  attributes : List (String × String) := []

structure SqsTriggerConfig where
  id : String
  queueUrl : String
  routing : RoutingConfig

namespace SqsIncomingMessage

def textFields (fields : List (String × String)) : List (String × Json) :=
  fields.map fun (name, value) => (name, .str value)

def toRaw (msg : SqsIncomingMessage) (deliveryCount : Number) : Events.RawMessage where
  value := .text msg.body
  headers := textFields msg.messageAttributes
  timestamp := (msg.attributes.lookup "SentTimestamp").bind String.toInt?
  info :=
    [("messageId", .str msg.messageId), ("receiptHandle", .str msg.receiptHandle),
      countField deliveryCount] ++
    (msg.messageGroupId.map fun id => ("messageGroupId", Json.str id)).toList ++
    (msg.messageDeduplicationId.map fun id => ("messageDeduplicationId", Json.str id)).toList ++
    [("sqsAttributes", .obj (textFields msg.attributes))]

def normalizeContext (config : SqsTriggerConfig) (msg : SqsIncomingMessage) :
    NormalizeContext where
  source := .sqs config.id config.queueUrl msg.messageId msg.messageGroupId
  auth := .trigger config.id

end SqsIncomingMessage

/-! ### The natural keys

What `deriveTransportNatural` makes of each raw message. -/

section
variable (N : NormalizerDeps) (deliveryCount : Number)

@[simp] theorem natural_mqtt (m : MqttIncomingMessage) (seq : String) :
    deriveTransportNatural N (m.toRaw seq deliveryCount) = m.messageKey seq := by
  have hkey : m.messageKey seq ≠ "" := by
    unfold MqttIncomingMessage.messageKey
    split <;> simp
  simp [deriveTransportNatural, MqttIncomingMessage.toRaw, Events.RawMessage.messageId, hkey]

@[simp] theorem natural_nats (config : NatsTriggerConfig) (m : NatsIncomingMessage) :
    deriveTransportNatural N (m.toRaw config deliveryCount) = m.messageId config := by
  have hkey : m.messageId config ≠ "" := by simp [NatsIncomingMessage.messageId]
  simp [deriveTransportNatural, NatsIncomingMessage.toRaw, Events.RawMessage.messageId, hkey]

theorem natural_sqs (msg : SqsIncomingMessage) (h : msg.messageId ≠ "") :
    deriveTransportNatural N (msg.toRaw deliveryCount) = msg.messageId := by
  simp [deriveTransportNatural, SqsIncomingMessage.toRaw, Events.RawMessage.messageId, h]

@[simp] theorem natural_kafka (m : KafkaReplay.KafkaIncomingMessage) (count : Nat) :
    deriveTransportNatural N (KafkaReplay.toRaw N m count) = KafkaReplay.messageId m :=
  rfl

theorem natural_amqp (msg : AmqpIncomingMessage) :
    deriveTransportNatural N (msg.toRaw deliveryCount) =
      match msg.messageId with
      | none => "tag:" ++ numberText msg.deliveryTag
      | some id =>
        if id ≠ "" then id
        else if msg.routingKey = "" then contentHash N (.bytes msg.content)
        else "amqp:" ++ msg.routingKey ++ ":" ++ numberText msg.deliveryTag := by
  cases hid : msg.messageId with
  | none =>
    simp [deriveTransportNatural, AmqpIncomingMessage.toRaw, Events.RawMessage.messageId, hid,
      AmqpIncomingMessage.tagKey]
  | some id =>
    by_cases hne : id = ""
    · have hlookup : (msg.toRaw deliveryCount).info.lookup "deliveryTag" =
          some (.num (.ofInt msg.deliveryTag)) := rfl
      have htag : (msg.toRaw deliveryCount).deliveryTag = some (numberText msg.deliveryTag) := by
        simp [Events.RawMessage.deliveryTag, hlookup, jsString, numberText]
      have hnone : (msg.toRaw deliveryCount).messageId = none := by
        simp [AmqpIncomingMessage.toRaw, Events.RawMessage.messageId, hid, hne]
      unfold deriveTransportNatural
      rw [hnone, htag]
      simp [AmqpIncomingMessage.toRaw, hne]
    · simp [deriveTransportNatural, AmqpIncomingMessage.toRaw, Events.RawMessage.messageId, hid,
        hne]

end

end Declaragent.Sources
