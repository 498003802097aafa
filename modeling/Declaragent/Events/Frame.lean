import Declaragent.Events.Types
import Declaragent.Library.JsValue
import Declaragent.Library.Markup

/-!
# Events — the frame of an event

An event reaches the model as an `event` element, with what is known of its origin in attributes,
around a `payload` element that holds the JSON text of the payload.  Texts are in code units, so
that they may hold half of a surrogate pair.

`frameEvent` throws on a payload that `JSON.stringify` has no text for, and leaves out a trigger id
or a cause that is empty.

* `tokenize_frame`: whatever the values and the payload, the frame has these two elements and no
  other.
* `framed_iff`: when all that is framed can be read back.
-/

namespace Declaragent.Events
open Markup
open RegExp (CodeUnit unit)
open JsonText (JsValue jsonText utf16)

/-- A text in code units. -/
def textUnits (text : String) : List CodeUnit := (utf16 text).map UInt16.ofNat

/-- A payload, any value at all.  To be written, a function or a symbol is like `undefined`. -/
inductive FramePayload where
  | data (v : JsValue)
  /-- A value that `JSON.stringify` throws on, such as a bigint or a cycle, with what `String`
  makes of it unless that throws as well. -/
  | refused (string : Option (List CodeUnit))

structure FrameSource where
  type : List CodeUnit
  /-- What `getTriggerId` makes of the source. -/
  triggerId : Option (List CodeUnit) := none

/-- What `frameEvent` reads of an event. -/
structure FramedEvent where
  id : List CodeUnit
  source : FrameSource
  payload : FramePayload
  /-- `event.meta?.causedBy`. -/
  causedBy : Option (List CodeUnit) := none

def EventSourceTag.frameSource (source : EventSourceTag) : FrameSource :=
  ⟨textUnits source.type, (getTriggerId source).map textUnits⟩

/-! ### The frame -/

def attrReplacements : List (CodeUnit × List CodeUnit) :=
  [(unit '&', units "&amp;"), (unit '<', units "&lt;"), (unit '>', units "&gt;"),
    (unit '"', units "&quot;")]

def textReplacements : List (CodeUnit × List CodeUnit) :=
  [(unit '&', units "&amp;"), (unit '<', units "&lt;"), (unit '>', units "&gt;")]

def escapeAttr (s : List CodeUnit) : List CodeUnit := replaceInTurn attrReplacements s

def escapeText (s : List CodeUnit) : List CodeUnit := replaceInTurn textReplacements s

/-- `JSON.stringify(value)`, which may be `undefined`, or else `String(value)`, which may throw. -/
def safeStringify : FramePayload → Option (Option (List CodeUnit))
  | .data v => some ((jsonText v).map textUnits)
  | .refused string => string.map some

/-- An attribute that is left out if its value is absent or empty. -/
def truthyAttr (name : String) (value : Option (List CodeUnit)) :
    List (List CodeUnit × List CodeUnit) :=
  ((value.filter (· ≠ [])).map fun value => (units name, value)).toList

/-- The attributes, with their values before they are escaped. -/
def frameAttrs (event : FramedEvent) : List (List CodeUnit × List CodeUnit) :=
  (units "source", event.source.type) ::
    (truthyAttr "trigger" event.source.triggerId ++
      (units "id", event.id) :: truthyAttr "caused-by" event.causedBy)

def escapeValues (attrs : List (List CodeUnit × List CodeUnit)) :
    List (List CodeUnit × List CodeUnit) :=
  attrs.map fun attr => (attr.1, escapeAttr attr.2)

def frameEvent (event : FramedEvent) : Option (List CodeUnit) :=
  match safeStringify event.payload with
  | some (some payloadJson) =>
    some (units "<event " ++ attributeTexts (escapeValues (frameAttrs event)) ++
      units ">\n  <payload>" ++ escapeText payloadJson ++ units "</payload>\n</event>")
  | _ => none

/-! ### What is asked of a frame -/

/-- One `event` element with one `payload` element in it. -/
def frameTokens (attributes : List (List CodeUnit × List CodeUnit)) (body : List CodeUnit) :
    List Markup.Token :=
  [.text [], .opens (units "event") attributes, .text (units "\n  "), .opens (units "payload") [],
    .text body, .closes (units "payload"), .text (units "\n"), .closes (units "event"), .text []]

/-- The JSON text of a payload, if it has one. -/
def FramePayload.json : FramePayload → Option (List CodeUnit)
  | .data v => (jsonText v).map textUnits
  | .refused _ => none

/-- The attributes and the text of the payload are those of the event. -/
structure Recovers (event : FramedEvent) (attributes : List (List CodeUnit × List CodeUnit))
    (body : List CodeUnit) : Prop where
  source : attributes.lookup (units "source") = some event.source.type
  trigger : attributes.lookup (units "trigger") = event.source.triggerId
  id : attributes.lookup (units "id") = some event.id
  causedBy : attributes.lookup (units "caused-by") = event.causedBy
  payload : ∀ json, event.payload.json = some json → body = json

/-- The event has a frame that reads as the two elements, with all that was framed. -/
def Framed (event : FramedEvent) : Prop :=
  ∃ text attributes body, frameEvent event = some text ∧
    Markup.tokenize text = some (frameTokens attributes body) ∧ Recovers event attributes body

/-- There is a text for the payload: of a value that can be written, or of its `String`. -/
def FramePayload.HasText : FramePayload → Prop
  | .data v => v.isUndefined = false
  | .refused string => string.isSome = true

/-! ### Escaping -/

theorem entities_references : References entities (unit '&') := by
  constructor <;> decide

theorem escapeAttr_eq (s : List CodeUnit) : escapeAttr s = encode attrReplacements s :=
  replaceInTurn_eq (by decide) s

theorem escapeText_eq (s : List CodeUnit) : escapeText s = encode textReplacements s :=
  replaceInTurn_eq (by decide) s

theorem decode_escapeAttr (s : List CodeUnit) : decode entities (escapeAttr s) = s := by
  rw [escapeAttr_eq]
  exact decode_encode entities_references (by decide) (by decide) s

theorem decode_escapeText (s : List CodeUnit) : decode entities (escapeText s) = s := by
  rw [escapeText_eq]
  exact decode_encode entities_references (by decide) (by decide) s

theorem bare_escapeAttr (s : List CodeUnit) : Bare (escapeAttr s) := by
  rw [escapeAttr_eq]
  exact ⟨notMem_encode (by decide) (by decide) s, notMem_encode (by decide) (by decide) s⟩

theorem unquoted_escapeAttr (s : List CodeUnit) : unit '"' ∉ escapeAttr s := by
  rw [escapeAttr_eq]
  exact notMem_encode (by decide) (by decide) s

theorem bare_escapeText (s : List CodeUnit) : Bare (escapeText s) := by
  rw [escapeText_eq]
  exact ⟨notMem_encode (by decide) (by decide) s, notMem_encode (by decide) (by decide) s⟩

/-! ### Reading a frame -/

theorem decodeValues_escapeValues (attrs : List (List CodeUnit × List CodeUnit)) :
    decodeValues (escapeValues attrs) = attrs := by
  rw [decodeValues, escapeValues, List.map_map]
  refine List.map_id'' (fun attr => ?_) attrs
  exact Prod.ext rfl (decode_escapeAttr attr.2)

theorem written_escapeValues {attrs : List (List CodeUnit × List CodeUnit)}
    (plain : ∀ attr ∈ attrs, Plain attr.1) : Written (escapeValues attrs) := by
  intro a mem
  obtain ⟨attr, hattr, rfl⟩ := List.mem_map.mp mem
  exact ⟨plain attr hattr, bare_escapeAttr attr.2, unquoted_escapeAttr attr.2⟩

/-- Whatever the values and the text are, the frame reads as the two elements. -/
theorem tokenize_frame {attrs : List (List CodeUnit × List CodeUnit)}
    (plain : ∀ attr ∈ attrs, Plain attr.1) (body : List CodeUnit) :
    Markup.tokenize (units "<event " ++ attributeTexts (escapeValues attrs) ++
      units ">\n  <payload>" ++ escapeText body ++ units "</payload>\n</event>") = some (frameTokens attrs body) := by
  have opening : units "<event " = unit '<' :: units "event" ++ [unit ' '] := by decide
  have middle : units ">\n  <payload>" =
      [unit '>'] ++ (units "\n  " ++ openTag (units "payload")) := by decide
  have closing : units "</payload>\n</event>" =
      closeTag (units "payload") ++ (units "\n" ++ (closeTag (units "event") ++ [])) := by decide
  have parts : units "<event " ++ attributeTexts (escapeValues attrs) ++ units ">\n  <payload>" ++
      escapeText body ++ units "</payload>\n</event>" =
      startTag (units "event") (escapeValues attrs) ++ (units "\n  " ++
        (openTag (units "payload") ++ (escapeText body ++ (closeTag (units "payload") ++
          (units "\n" ++ (closeTag (units "event") ++ [])))))) := by
    rw [opening, middle, closing, startTag]
    simp only [List.append_assoc, List.cons_append, List.nil_append]
  rw [parts, Markup.tokenize, scan_startTag (by decide) (written_escapeValues plain),
    scan_text (by decide), scan_opens (by decide), scan_text (bare_escapeText body),
    scan_closes (by decide), scan_text (by decide), scan_closes (by decide), scan,
    decodeValues_escapeValues, List.nil_append, List.nil_append, List.nil_append,
    decode_escapeText]
  rfl

/-! ### All that is framed -/

variable {event : FramedEvent} {text : List CodeUnit}

theorem plain_truthyAttr {name : String} (h : Plain (units name))
    (value : Option (List CodeUnit)) : ∀ attr ∈ truthyAttr name value, Plain attr.1 := by
  intro attr mem
  obtain ⟨value, -, rfl⟩ := Option.map_eq_some_iff.mp (Option.mem_toList.mp mem)
  exact h

theorem plain_frameAttrs (event : FramedEvent) : ∀ attr ∈ frameAttrs event, Plain attr.1 := by
  have source : Plain (units "source") := by decide
  have id : Plain (units "id") := by decide
  rw [frameAttrs, List.forall_mem_cons, List.forall_mem_append, List.forall_mem_cons]
  exact ⟨source, plain_truthyAttr (by decide) _, id, plain_truthyAttr (by decide) _⟩

/-- A payload is framed if there is a text for it. -/
theorem hasText_iff (payload : FramePayload) :
    payload.HasText ↔ ∃ json, safeStringify payload = some (some json) := by
  cases payload with
  | data v =>
    rw [FramePayload.HasText, ← Bool.not_eq_true, ← JsonText.toJson_eq_none]
    simp [safeStringify, jsonText, Option.ne_none_iff_exists']
  | refused string => simp [FramePayload.HasText, safeStringify, Option.isSome_iff_exists]

/-- The frame of an event reads as the two elements, with the text of its payload. -/
theorem tokenize_frameEvent (h : frameEvent event = some text) :
    ∃ json, safeStringify event.payload = some (some json) ∧
      Markup.tokenize text = some (frameTokens (frameAttrs event) json) := by
  rw [frameEvent] at h
  split at h
  · rename_i json stringified
    obtain rfl := Option.some.inj h
    exact ⟨json, stringified, tokenize_frame (plain_frameAttrs event) json⟩
  · cases h

theorem frameTokens_inj {attributes attributes' : List (List CodeUnit × List CodeUnit)}
    {body body' : List CodeUnit}
    (h : frameTokens attributes body = frameTokens attributes' body') :
    attributes = attributes' := by
  have tags := (List.cons.inj (List.cons.inj h).2).1
  exact (Markup.Token.opens.inj tags).2

/-- A value that is left out is lost if it is empty. -/
theorem filter_eq_iff (value : Option (List CodeUnit)) :
    value.filter (· ≠ []) = value ↔ value ≠ some [] := by
  cases value with
  | none => simp
  | some value => by_cases empty : value = [] <;> simp [Option.filter, empty]

theorem lookup_frameAttrs (event : FramedEvent) :
    (frameAttrs event).lookup (units "source") = some event.source.type ∧
      (frameAttrs event).lookup (units "trigger") = event.source.triggerId.filter (· ≠ []) ∧
      (frameAttrs event).lookup (units "id") = some event.id ∧
      (frameAttrs event).lookup (units "caused-by") = event.causedBy.filter (· ≠ []) := by
  rw [frameAttrs, truthyAttr, truthyAttr]
  cases event.source.triggerId.filter (· ≠ []) <;> cases event.causedBy.filter (· ≠ []) <;>
    exact ⟨rfl, rfl, rfl, rfl⟩

/-- What is framed can be read back if the payload has a text, and neither the trigger id nor the
cause is empty; and only then. -/
theorem framed_iff (event : FramedEvent) :
    Framed event ↔ event.payload.HasText ∧ event.source.triggerId ≠ some [] ∧
      event.causedBy ≠ some [] := by
  obtain ⟨source, trigger, id, causedBy⟩ := lookup_frameAttrs event
  constructor
  · rintro ⟨text, attributes, body, frame, reads, recovers⟩
    obtain ⟨json, stringified, reads'⟩ := tokenize_frameEvent frame
    obtain rfl := frameTokens_inj (Option.some.inj (reads.symm.trans reads'))
    exact ⟨(hasText_iff _).mpr ⟨json, stringified⟩,
      (filter_eq_iff _).mp (trigger.symm.trans recovers.trigger),
      (filter_eq_iff _).mp (causedBy.symm.trans recovers.causedBy)⟩
  · rintro ⟨hasText, triggered, caused⟩
    obtain ⟨json, stringified⟩ := (hasText_iff _).mp hasText
    refine ⟨_, frameAttrs event, json, by rw [frameEvent, stringified],
      tokenize_frame (plain_frameAttrs event) json, source, ?_, id, ?_, fun json' has => ?_⟩
    · rw [trigger, (filter_eq_iff _).mpr triggered]
    · rw [causedBy, (filter_eq_iff _).mpr caused]
    · cases payload : event.payload with
      | data v =>
        rw [payload] at stringified has
        exact Option.some.inj ((Option.some.inj stringified).symm.trans has)
      | refused string => rw [payload] at has; cases has

/-- An event of a webhook without a payload. -/
def bodiless : FramedEvent where
  id := units "evt-1"
  source := (EventSourceTag.webhook "gh-pr" none).frameSource
  payload := .data .undefined

/-- An event without a payload is not framed: `JSON.stringify(undefined)` is no text. -/
theorem absent_payload_throws : frameEvent bodiless = none ∧ ¬ Framed bodiless := by
  refine ⟨rfl, ?_⟩
  rintro ⟨text, _, _, frame, -⟩
  cases frame

end Declaragent.Events
