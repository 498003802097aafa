import Declaragent.Library.JsValue
import Declaragent.Library.Lines
import Declaragent.Library.Utf8Stream

/-!
# Mcp — messages of JSON-RPC

A message is written as one line of JSON.  `LineBuffer` takes the lines out of the chunks of bytes
that arrive, and `parseMessage` reads them.

* `Message` is what can be written: an object of plain data with the version of the protocol.
* `parseMessage_line`: a line that was written is read back.
* `lines_of_chunks`: the lines arrive, in whatever chunks their bytes come.
-/

namespace Declaragent.Mcp
open JsonText

/-- What the runtime words: the error of a text that is no JSON, the one of a property that is read
of `null`, and `String(value)`. -/
structure Wording where
  syntaxError : List Char → String
  nullProperty : String
  display : JsValue → String

/-! ### Kinds of messages -/

/-- `key in message`. -/
def inMessage (key : String) : JsValue → Bool
  | .obj properties => (properties.lookup key).isSome
  | _ => false

def isString : JsValue → Bool
  | .str _ => true
  | _ => false

/-- `message.jsonrpc === '2.0'`. -/
def isVersion2 (msg : JsValue) : Bool :=
  match msg.get "jsonrpc" with
  | .str version => version = "2.0"
  | _ => false

def isJSONRPCResponse (msg : JsValue) : Bool :=
  isVersion2 msg && (inMessage "result" msg || inMessage "error" msg)

def isJSONRPCErrorResponse (msg : JsValue) : Bool := inMessage "error" msg

def isJSONRPCNotification (msg : JsValue) : Bool :=
  isVersion2 msg && isString (msg.get "method") && !inMessage "id" msg

/-! ### Lines -/

/-- The text of a message, if it can be written. -/
def encodeMessage (msg : JsValue) : Option Utf8.Bytes :=
  (jsonText msg).map fun text => Utf8.encode (text.toList ++ ['\n'])

def parseMessage (F : NumberFormat) (W : Wording) (line : List Char) : Except String JsValue :=
  match jsonParse F (String.ofList line) with
  | none => .error (W.syntaxError line)
  | some (.obj properties) =>
    if isVersion2 (.obj properties) then .ok (.obj properties)
    else .error ("unsupported JSON-RPC version: " ++
      W.display ((JsValue.obj properties).get "jsonrpc"))
  | some (.arr _) => .error ("unsupported JSON-RPC version: " ++ W.display .undefined)
  | some _ => .error "JSON-RPC message must be an object"

structure LineBuffer where
  buffer : List Char := []
  decoder : Utf8.TextDecoder := {}

namespace LineBuffer

/-- A line without the carriage return at its end. -/
def trimmed (line : List Char) : List Char :=
  if line.getLast? = some '\r' then line.dropLast else line

def push (b : LineBuffer) (chunk : Utf8.Bytes) : LineBuffer × List (List Char) :=
  let (decoder, text) := b.decoder.decode chunk
  (⟨Lines.rest '\n' (b.buffer ++ text), decoder⟩,
    ((Lines.complete '\n' (b.buffer ++ text)).map trimmed).filter (· ≠ []))

def pushAll : LineBuffer → List Utf8.Bytes → List (List Char)
  | _, [] => []
  | b, chunk :: chunks => (b.push chunk).2 ++ (b.push chunk).1.pushAll chunks

end LineBuffer

/-! ### What was written is read -/

/-- A message that can be written: an object of plain data. -/
structure Message (F : NumberFormat) where
  json : Json
  proper : json.Proper F
  version : isVersion2 (evaluate F json) = true

namespace Message
variable {F : NumberFormat}

def value (msg : Message F) : JsValue := evaluate F msg.json

def text (msg : Message F) : List Char := (stringify msg.json).toList

theorem jsonText_value (msg : Message F) : jsonText msg.value = some (stringify msg.json) := by
  rw [jsonText, value, toJson_evaluate msg.proper, Option.map_some]

theorem encodeMessage_value (msg : Message F) :
    encodeMessage msg.value = some (Utf8.encode (msg.text ++ ['\n'])) := by
  rw [encodeMessage, jsonText_value, Option.map_some]
  rfl

/-- A version is a property of an object. -/
theorem value_eq_obj (msg : Message F) : ∃ properties, msg.value = .obj properties := by
  have hversion := msg.version
  change isVersion2 msg.value = true at hversion
  cases hvalue : msg.value with
  | obj properties => exact ⟨properties, rfl⟩
  | _ =>
    rw [hvalue] at hversion
    exact absurd hversion (by simp [isVersion2, JsValue.get])

theorem parseMessage_text (msg : Message F) (W : Wording) :
    parseMessage F W msg.text = .ok msg.value := by
  have hparse : jsonParse F (String.ofList msg.text) = some msg.value := by
    rw [text, String.ofList_toList]
    exact jsonParse_stringify F msg.json
  obtain ⟨properties, hvalue⟩ := msg.value_eq_obj
  have hversion : isVersion2 msg.value = true := msg.version
  rw [hvalue] at hparse hversion ⊢
  rw [parseMessage, hparse]
  exact if_pos hversion

/-- The text is in braces. -/
theorem text_eq (msg : Message F) : ∃ inner, msg.text = '{' :: inner ++ ['}'] := by
  obtain ⟨properties, hvalue⟩ := msg.value_eq_obj
  rw [value] at hvalue
  rw [text]
  cases hjson : msg.json with
  | obj fields =>
    refine ⟨[','].intercalate (renderFields fields), ?_⟩
    rw [stringify, String.toList_ofList, render, List.cons_append]
  | num n =>
    rw [hjson, evaluate] at hvalue
    split at hvalue <;> cases hvalue
  | _ =>
    rw [hjson, evaluate] at hvalue
    cases hvalue

theorem newline_notMem_text (msg : Message F) : '\n' ∉ msg.text := newline_notMem_stringify msg.json

/-- A line that was written is kept as it is. -/
theorem trimmed_text (msg : Message F) : LineBuffer.trimmed msg.text = msg.text := by
  obtain ⟨inner, htext⟩ := msg.text_eq
  have hlast : msg.text.getLast? ≠ some '\r' := by
    rw [htext, List.getLast?_concat]
    decide
  exact if_neg hlast

theorem text_ne_nil (msg : Message F) : msg.text ≠ [] := by
  obtain ⟨inner, htext⟩ := msg.text_eq
  rw [htext]
  exact List.cons_ne_nil _ _

end Message

/-! ### Chunks -/

theorem LineBuffer.pushAll_eq (b : LineBuffer) (chunks : List Utf8.Bytes) (h : '\n' ∉ b.buffer) :
    b.pushAll chunks =
      ((Lines.complete '\n' (b.buffer ++ (b.decoder.decodeAll chunks).flatten)).map
        trimmed).filter (· ≠ []) := by
  induction chunks generalizing b with
  | nil =>
    rw [Utf8.TextDecoder.decodeAll, List.flatten_nil, List.append_nil,
      (Lines.complete_of_notMem h).1]
    rfl
  | cons chunk chunks ih =>
    have hrest := ih (b.push chunk).1 (Lines.notMem_rest _)
    rw [pushAll, hrest, Utf8.TextDecoder.decodeAll, List.flatten_cons, ← List.append_assoc,
      Lines.complete_append (b.buffer ++ _), List.map_append, List.filter_append]
    rfl

variable {F : NumberFormat}

theorem decoded_of_chunks {messages : List (Message F)} {chunks : List Utf8.Bytes}
    (h : chunks.flatten = messages.flatMap fun msg => Utf8.encode (msg.text ++ ['\n'])) :
    (({} : Utf8.TextDecoder).decodeAll chunks).flatten =
      (messages.map Message.text).flatMap (· ++ ['\n']) := by
  have hbytes : chunks.flatten =
      Utf8.encode ((messages.map Message.text).flatMap (· ++ ['\n'])) := by
    rw [h, Utf8.encode, List.flatMap_assoc, List.flatMap_map]
    rfl
  refine Utf8.TextDecoder.decodeAll_encode ?_ hbytes
  cases messages with
  | nil => simp
  | cons msg messages =>
    obtain ⟨inner, htext⟩ := msg.text_eq
    rw [List.map_cons, List.flatMap_cons, htext]
    simp

/-- **The lines arrive**, in whatever chunks their bytes come. -/
theorem lines_of_chunks {messages : List (Message F)} {chunks : List Utf8.Bytes}
    (h : chunks.flatten = messages.flatMap fun msg => Utf8.encode (msg.text ++ ['\n'])) :
    ({} : LineBuffer).pushAll chunks = messages.map Message.text := by
  have hnewline : ∀ line ∈ messages.map Message.text, '\n' ∉ line := by
    rintro line hline
    obtain ⟨msg, -, rfl⟩ := List.mem_map.mp hline
    exact msg.newline_notMem_text
  rw [LineBuffer.pushAll_eq _ _ List.not_mem_nil, decoded_of_chunks h, List.nil_append,
    Lines.complete_all hnewline, List.map_map]
  have htrimmed : messages.map (LineBuffer.trimmed ∘ Message.text) = messages.map Message.text :=
    List.map_congr_left fun msg _ => msg.trimmed_text
  rw [htrimmed]
  refine List.filter_eq_self.mpr fun line hline => ?_
  obtain ⟨msg, -, rfl⟩ := List.mem_map.mp hline
  exact decide_eq_true msg.text_ne_nil

end Declaragent.Mcp
