import Declaragent.Mcp.JsonRpcConnection
import Declaragent.Mcp.SseParser

/-!
# Mcp — a streamed response

The body of the answer to a request is a stream of events, each with a message: the response, and
notifications.  The client reads chunks until it has seen the response, deals with the events that
end in these chunks, and does not ask the parser for an event that has not ended.

* `framesByChunk`: the frames that end in each chunk.
* `consume_of_answered`, `consume_of_unanswered`: what the client does about them.
* `losesNothing_iff`: when the response and every notification of the body arrive.
-/

namespace Declaragent.Mcp.StreamableHttp
open JsonText SSE
open JsonRpc (Settlement isId isNullish)

/-! ### The client -/

/-- The text of a stream, by the code unit. -/
def toUnits (text : List Char) : Text := (text.flatMap JsonText.units).map UInt16.ofNat

def fromUnits (text : Text) : List Char := ofUtf16 (text.map UInt16.toNat)

/-- What `consumeSSEForResponse` has done; `called` are the messages that the handlers of
notifications were called with. -/
structure Reading where
  decoder : Utf8.TextDecoder := {}
  parser : SSEFrameParser := {}
  resolved : Bool := false
  thrown : Bool := false
  settlements : List Settlement := []
  called : List JsValue := []
  errors : List String := []

/-- Requests of the server are surfaced, too. -/
def dispatchNotificationOrSkip (msg : JsValue) : List JsValue :=
  (if isJSONRPCNotification msg then [msg] else []) ++
    if isString (msg.get "method") && inMessage "id" msg then [msg] else []

/-- A response with the identifier of the request. -/
def answers (id : Nat) (msg : JsValue) : Bool := isJSONRPCResponse msg && isId id (msg.get "id")

/-- The error of the response is `null`, and building the exception throws. -/
def throws (msg : JsValue) : Bool := isJSONRPCErrorResponse msg && isNullish (msg.get "error")

def settlementOf (msg : JsValue) : Settlement :=
  if isJSONRPCErrorResponse msg then .failed (msg.get "error") else .resolved (msg.get "result")

section
variable (F : NumberFormat) (W : Wording) (id : Nat)

def onMessage (r : Reading) (msg : JsValue) : Reading :=
  if answers id msg then
    if throws msg then { r with thrown := true }
    else { r with settlements := r.settlements ++ [settlementOf msg], resolved := true }
  else { r with called := r.called ++ dispatchNotificationOrSkip msg }

def onFrame (r : Reading) (frame : SSEFrame) : Reading :=
  if r.thrown then r
  else if frame.data.length = 0 then r
  else match parseMessage F W (fromUnits frame.data) with
    | .error err => { r with errors := r.errors ++ [err] }
    | .ok msg => onMessage id r msg

def onChunk (r : Reading) (chunk : Utf8.Bytes) : Reading :=
  let (decoder, text) := r.decoder.decode chunk
  let (parser, frames) := r.parser.push (toUnits text)
  frames.foldl (onFrame F W id) { r with decoder, parser }

def readChunks : Reading → List Utf8.Bytes → Reading
  | r, [] => r
  | r, chunk :: chunks =>
    if r.resolved = true ∨ r.thrown = true then r else readChunks (onChunk F W id r chunk) chunks

/-- The body is the chunks that the reader gives, if there is one. -/
def consumeSSEForResponse : Option (List Utf8.Bytes) → Reading
  | none => { settlements := [.failed (.obj [("code", .num (.ofInt (-32000))),
      ("message", .str "SSE response had no body")])] }
  | some chunks =>
    let r := readChunks F W id {} chunks
    if r.thrown then { r with settlements := r.settlements ++ [.threw] }
    else if r.resolved then r
    else { r with settlements := r.settlements ++ [.closed] }

end

/-! ### The body -/

/-- The texts of the chunks. -/
def texts (chunks : List Utf8.Bytes) : List Text :=
  (({} : Utf8.TextDecoder).decodeAll chunks).map toUnits

/-- The frames that end in each chunk. -/
def framesByChunk : Fields → Text → List Text → List (List SSEFrame)
  | _, _, [] => []
  | f, line, text :: texts =>
    framesOf f (endedFrom false line text) ::
      framesByChunk (fieldsAfter f (endedFrom false line text)) (restFrom false line text) texts

/-- All lines of a stream, whether the last one is ended or not, and a blank one. -/
def allLines (stream : Text) : List Text :=
  endedLines stream ++ if restFrom false [] stream = [] then [[]]
    else [restFrom false [] stream, []]

section
variable (F : NumberFormat) (W : Wording)

/-- The messages of frames. -/
def messagesOf (frames : List SSEFrame) : List JsValue :=
  frames.filterMap fun frame =>
    if frame.data.length = 0 then none else (parseMessage F W (fromUnits frame.data)).toOption

/-- The messages that were sent: those of all frames of the body, with its last one. -/
def bodyMessages (chunks : List Utf8.Bytes) : List JsValue :=
  messagesOf F W
    (framesOf {} (allLines (toUnits (({} : Utf8.TextDecoder).decode chunks.flatten).2)))

/-- The messages of the frames that end in the first chunks. -/
def messagesBy (chunks : List Utf8.Bytes) (k : Nat) : List JsValue :=
  (((framesByChunk {} [] (texts chunks)).map (messagesOf F W)).take k).flatten

/-- The response that was sent settles the request, and the handlers get every notification that
was sent, once and in order. -/
def LosesNothing (id : Nat) (chunks : List Utf8.Bytes) : Prop :=
  ∃ msg, (bodyMessages F W chunks).find? (answers id) = some msg ∧
    (consumeSSEForResponse F W id (some chunks)).settlements.head? = some (settlementOf msg) ∧
    (consumeSSEForResponse F W id (some chunks)).called.filter isJSONRPCNotification =
      (bodyMessages F W chunks).filter isJSONRPCNotification

/-- The message does not throw. -/
def passes (id : Nat) (msg : JsValue) : Bool := !(answers id msg && throws msg)

/-- There is a first chunk with which a frame of a response ends.  The response says what the one
that was sent does, it does not throw, and the frames of all notifications have ended with this
chunk. -/
def HeardInTime (id : Nat) (chunks : List Utf8.Bytes) : Prop :=
  ∃ k, (∀ msg ∈ messagesBy F W chunks k, answers id msg = false) ∧
    ∃ msg, (messagesBy F W chunks (k + 1)).find? (answers id) = some msg ∧
      ((bodyMessages F W chunks).find? (answers id)).map settlementOf = some (settlementOf msg) ∧
      throws msg = false ∧
      ((messagesBy F W chunks (k + 1)).takeWhile (passes id)).filter isJSONRPCNotification =
        (bodyMessages F W chunks).filter isJSONRPCNotification

end

/-! ### What is done about messages -/

variable {F : NumberFormat} {W : Wording} {id : Nat} {r r' : Reading} {msg : JsValue}

/-- Whom a message calls if it is not the response. -/
def callsOf (id : Nat) (msg : JsValue) : List JsValue :=
  if answers id msg then [] else dispatchNotificationOrSkip msg

/-- The messages are heard, up to one that throws. -/
structure Heard (id : Nat) (msgs : List JsValue) (r r' : Reading) : Prop where
  called : r'.called = r.called ++ (msgs.takeWhile (passes id)).flatMap (callsOf id)
  settlements : r'.settlements =
    r.settlements ++ ((msgs.takeWhile (passes id)).filter (answers id)).map settlementOf
  resolved : r'.resolved = (r.resolved || (msgs.takeWhile (passes id)).any (answers id))
  thrown : r'.thrown = !msgs.all (passes id)

/-- They are heard, and nothing is read. -/
structure Dealt (id : Nat) (msgs : List JsValue) (r r' : Reading) : Prop
    extends Heard id msgs r r' where
  decoder : r'.decoder = r.decoder
  parser : r'.parser = r.parser

theorem foldl_onFrame_of_thrown (h : r.thrown = true) (frames : List SSEFrame) :
    frames.foldl (onFrame F W id) r = r := by
  induction frames with
  | nil => rfl
  | cons frame frames ih =>
    have hframe : onFrame F W id r frame = r := if_pos h
    rw [List.foldl_cons, hframe, ih]

theorem dealt_nil (h : r.thrown = false) : Dealt id [] r r where
  called := (List.append_nil _).symm
  settlements := (List.append_nil _).symm
  resolved := (Bool.or_false _).symm
  thrown := h
  decoder := rfl
  parser := rfl

theorem onMessage_of_answers (hanswers : answers id msg = true) (hthrows : throws msg = false) :
    onMessage id r msg =
      { r with settlements := r.settlements ++ [settlementOf msg], resolved := true } := by
  rw [onMessage, if_pos hanswers, if_neg (by simp [hthrows])]

theorem onMessage_of_other (hanswers : answers id msg = false) :
    onMessage id r msg = { r with called := r.called ++ dispatchNotificationOrSkip msg } :=
  if_neg (by simp [hanswers])

theorem onMessage_of_throws (h : passes id msg = false) :
    onMessage id r msg = { r with thrown := true } := by
  simp only [passes, Bool.not_eq_false', Bool.and_eq_true] at h
  rw [onMessage, if_pos h.1, if_pos h.2]

/-- A message that is dealt with comes before the others. -/
theorem Dealt.cons {msgs : List JsValue} (hpasses : passes id msg = true)
    (h : Dealt id msgs (onMessage id r msg) r') : Dealt id (msg :: msgs) r r' := by
  have htake : (msg :: msgs).takeWhile (passes id) = msg :: msgs.takeWhile (passes id) :=
    List.takeWhile_cons_of_pos hpasses
  cases hanswers : answers id msg with
  | true =>
    have hthrows : throws msg = false := by simpa [passes, hanswers] using hpasses
    rw [onMessage_of_answers hanswers hthrows] at h
    refine ⟨⟨?_, ?_, ?_, ?_⟩, h.decoder, h.parser⟩
    · rw [htake, List.flatMap_cons, callsOf, if_pos hanswers, List.nil_append, h.called]
    · rw [htake, List.filter_cons_of_pos hanswers, List.map_cons, h.settlements,
        List.append_assoc, List.singleton_append]
    · rw [htake, List.any_cons, hanswers, h.resolved]
      simp
    · rw [List.all_cons, hpasses, h.thrown, Bool.true_and]
  | false =>
    have hskip : ¬ answers id msg = true := by simp [hanswers]
    rw [onMessage_of_other hanswers] at h
    refine ⟨⟨?_, ?_, ?_, ?_⟩, h.decoder, h.parser⟩
    · rw [htake, List.flatMap_cons, callsOf, if_neg hskip, h.called, List.append_assoc]
    · rw [htake, List.filter_cons_of_neg hskip, h.settlements]
    · rw [htake, List.any_cons, hanswers, Bool.false_or, h.resolved]
    · rw [List.all_cons, hpasses, h.thrown, Bool.true_and]

theorem dealt_throws (h : passes id msg = false) (msgs : List JsValue) :
    Dealt id (msg :: msgs) r (onMessage id r msg) := by
  have htake : (msg :: msgs).takeWhile (passes id) = [] :=
    List.takeWhile_cons_of_neg (by simp [h])
  rw [onMessage_of_throws h]
  refine ⟨⟨?_, ?_, ?_, ?_⟩, rfl, rfl⟩
  · rw [htake]
    exact (List.append_nil _).symm
  · rw [htake]
    exact (List.append_nil _).symm
  · rw [htake]
    exact (Bool.or_false _).symm
  · rw [List.all_cons, h]
    rfl

theorem dealt_frames (h : r.thrown = false) (frames : List SSEFrame) :
    Dealt id (messagesOf F W frames) r (frames.foldl (onFrame F W id) r) := by
  induction frames generalizing r with
  | nil => exact dealt_nil h
  | cons frame frames ih =>
    rw [List.foldl_cons, messagesOf, List.filterMap_cons]
    by_cases hempty : frame.data.length = 0
    · have hframe : onFrame F W id r frame = r := by
        rw [onFrame, if_neg (by simp [h]), if_pos hempty]
      rw [if_pos hempty, hframe]
      exact ih h
    · cases hparse : parseMessage F W (fromUnits frame.data) with
      | error err =>
        have hframe : onFrame F W id r frame = { r with errors := r.errors ++ [err] } := by
          rw [onFrame, if_neg (by simp [h]), if_neg hempty, hparse]
        rw [if_neg hempty, hframe]
        have hrest := ih (r := { r with errors := r.errors ++ [err] }) h
        exact ⟨⟨hrest.called, hrest.settlements, hrest.resolved, hrest.thrown⟩,
          hrest.decoder, hrest.parser⟩
      | ok msg =>
        have hframe : onFrame F W id r frame = onMessage id r msg := by
          rw [onFrame, if_neg (by simp [h]), if_neg hempty, hparse]
        rw [if_neg hempty, hframe]
        cases hpasses : passes id msg with
        | true =>
          refine Dealt.cons hpasses (ih ?_)
          cases hanswers : answers id msg with
          | true =>
            have hthrows : throws msg = false := by simpa [passes, hanswers] using hpasses
            rw [onMessage_of_answers hanswers hthrows]
            exact h
          | false =>
            rw [onMessage_of_other hanswers]
            exact h
        | false =>
          have hthrown : (onMessage id r msg).thrown = true := by
            rw [onMessage_of_throws hpasses]
          rw [foldl_onFrame_of_thrown hthrown]
          exact dealt_throws hpasses _

/-! ### What is done about chunks -/

/-- The lines that end with a chunk. -/
def linesWith (r : Reading) (chunk : Utf8.Bytes) : List Text :=
  endedFrom false r.parser.buffer (toUnits (r.decoder.decode chunk).2)

/-- The chunk is read. -/
def withChunk (r : Reading) (chunk : Utf8.Bytes) : Reading :=
  { r with
    decoder := (r.decoder.decode chunk).1
    parser := { fieldsAfter r.parser.toFields (linesWith r chunk) with
      buffer := restFrom false r.parser.buffer (toUnits (r.decoder.decode chunk).2) } }

/-- The messages that end with it. -/
def messagesWith (F : NumberFormat) (W : Wording) (r : Reading) (chunk : Utf8.Bytes) :
    List JsValue :=
  messagesOf F W (framesOf r.parser.toFields (linesWith r chunk))

theorem dealt_chunk (h : r.thrown = false) (hbuffer : ∀ c ∈ r.parser.buffer, isLineEnd c = false)
    (chunk : Utf8.Bytes) :
    Dealt id (messagesWith F W r chunk) (withChunk r chunk) (onChunk F W id r chunk) := by
  have hchunk : onChunk F W id r chunk =
      (framesOf r.parser.toFields (linesWith r chunk)).foldl (onFrame F W id)
        (withChunk r chunk) := by
    rw [onChunk]
    dsimp only
    rw [push_eq _ _ hbuffer]
    rfl
  rw [hchunk]
  exact dealt_frames (r := withChunk r chunk) h _

/-- The messages of each chunk, from where the client is. -/
def messagesFrom (F : NumberFormat) (W : Wording) (r : Reading) (chunks : List Utf8.Bytes) :
    List (List JsValue) :=
  (framesByChunk r.parser.toFields r.parser.buffer
    ((r.decoder.decodeAll chunks).map toUnits)).map (messagesOf F W)

theorem messagesFrom_cons {chunk : Utf8.Bytes} (h : Dealt id (messagesWith F W r chunk)
    (withChunk r chunk) r') (chunks : List Utf8.Bytes) :
    messagesFrom F W r (chunk :: chunks) =
      messagesWith F W r chunk :: messagesFrom F W r' chunks := by
  rw [messagesFrom, messagesFrom, Utf8.TextDecoder.decodeAll, List.map_cons, framesByChunk,
    List.map_cons, h.decoder, h.parser]
  rfl

theorem passes_of_unanswered {msgs : List JsValue} (h : ∀ msg ∈ msgs, answers id msg = false) :
    ∀ msg ∈ msgs, passes id msg = true := by
  intro msg hmem
  simp [passes, h msg hmem]

/-- Messages that do not answer settle nothing. -/
theorem Heard.unanswered {msgs : List JsValue} (h : Heard id msgs r r')
    (hmsgs : ∀ msg ∈ msgs, answers id msg = false) :
    r'.called = r.called ++ msgs.flatMap (callsOf id) ∧ r'.settlements = r.settlements ∧
      r'.resolved = r.resolved ∧ r'.thrown = false := by
  have hpasses := passes_of_unanswered hmsgs
  have htake : msgs.takeWhile (passes id) = msgs := List.takeWhile_eq_self_iff.mpr hpasses
  refine ⟨?_, ?_, ?_, ?_⟩
  · rw [h.called, htake]
  · have hfilter : msgs.filter (answers id) = [] :=
      List.filter_eq_nil_iff.mpr fun msg hmem => by simp [hmsgs msg hmem]
    rw [h.settlements, htake, hfilter]
    exact List.append_nil _
  · have hany : msgs.any (answers id) = false :=
      List.any_eq_false.mpr fun msg hmem => by simp [hmsgs msg hmem]
    rw [h.resolved, htake, hany, Bool.or_false]
  · rw [h.thrown, List.all_eq_true.mpr hpasses]
    rfl

/-- Messages that do not answer, and others after them. -/
theorem Heard.append {msgs more : List JsValue} {r'' : Reading} (h : Heard id msgs r r')
    (hmsgs : ∀ msg ∈ msgs, answers id msg = false) (h' : Heard id more r' r'') :
    Heard id (msgs ++ more) r r'' := by
  obtain ⟨hcalled, hsettlements, hresolved, -⟩ := h.unanswered hmsgs
  have hpasses := passes_of_unanswered hmsgs
  have htake : (msgs ++ more).takeWhile (passes id) = msgs ++ more.takeWhile (passes id) :=
    List.takeWhile_append_of_pos hpasses
  have hfilter : msgs.filter (answers id) = [] :=
    List.filter_eq_nil_iff.mpr fun msg hmem => by simp [hmsgs msg hmem]
  have hany : msgs.any (answers id) = false :=
    List.any_eq_false.mpr fun msg hmem => by simp [hmsgs msg hmem]
  refine ⟨?_, ?_, ?_, ?_⟩
  · rw [htake, List.flatMap_append, h'.called, hcalled, List.append_assoc]
  · rw [htake, List.filter_append, hfilter, List.nil_append, h'.settlements, hsettlements]
  · rw [htake, List.any_append, hany, Bool.false_or, h'.resolved, hresolved]
  · rw [List.all_append, List.all_eq_true.mpr hpasses, Bool.true_and, h'.thrown]

/-- An answer ends the reading. -/
theorem Heard.ended {msgs : List JsValue} (h : Heard id msgs r r')
    (hanswer : ∃ msg ∈ msgs, answers id msg = true) :
    r'.resolved = true ∨ r'.thrown = true := by
  cases hall : msgs.all (passes id) with
  | true =>
    left
    have htake : msgs.takeWhile (passes id) = msgs :=
      List.takeWhile_eq_self_iff.mpr (List.all_eq_true.mp hall)
    rw [h.resolved, htake, List.any_eq_true.mpr hanswer, Bool.or_true]
  | false =>
    right
    rw [h.thrown, hall]
    rfl

theorem readChunks_unanswered (h : r.thrown = false ∧ r.resolved = false)
    (hbuffer : ∀ c ∈ r.parser.buffer, isLineEnd c = false) (chunks : List Utf8.Bytes)
    (hmsgs : ∀ msg ∈ (messagesFrom F W r chunks).flatten, answers id msg = false) :
    (readChunks F W id r chunks).thrown = false ∧ (readChunks F W id r chunks).resolved = false ∧
      (readChunks F W id r chunks).settlements = r.settlements := by
  induction chunks generalizing r with
  | nil => exact ⟨h.1, h.2, rfl⟩
  | cons chunk chunks ih =>
    have hchunk : Dealt id (messagesWith F W r chunk) (withChunk r chunk)
        (onChunk F W id r chunk) := dealt_chunk h.1 hbuffer chunk
    rw [messagesFrom_cons hchunk, List.flatten_cons, List.forall_mem_append] at hmsgs
    obtain ⟨-, hsettlements, hresolved, hthrown⟩ := hchunk.toHeard.unanswered hmsgs.1
    have hnext : ∀ c ∈ (onChunk F W id r chunk).parser.buffer, isLineEnd c = false := by
      rw [hchunk.parser]
      exact restFrom_kept hbuffer _
    rw [readChunks, if_neg (by simp [h])]
    obtain ⟨hthrown', hresolved', hsettlements'⟩ :=
      ih ⟨hthrown, hresolved.trans h.2⟩ hnext hmsgs.2
    exact ⟨hthrown', hresolved', hsettlements'.trans hsettlements⟩

theorem readChunks_of_ended (h : r.resolved = true ∨ r.thrown = true) (chunks : List Utf8.Bytes) :
    readChunks F W id r chunks = r := by
  cases chunks with
  | nil => rfl
  | cons chunk chunks => exact if_pos h

/-- Reading ends with the first chunk that answers. -/
theorem readChunks_answered (h : r.thrown = false ∧ r.resolved = false)
    (hbuffer : ∀ c ∈ r.parser.buffer, isLineEnd c = false) {chunks : List Utf8.Bytes} {k : Nat}
    (hmsgs : ∀ msg ∈ ((messagesFrom F W r chunks).take k).flatten, answers id msg = false)
    (hanswer : ∃ msg ∈ ((messagesFrom F W r chunks).take (k + 1)).flatten, answers id msg = true) :
    Heard id ((messagesFrom F W r chunks).take (k + 1)).flatten r
      (readChunks F W id r chunks) := by
  induction chunks generalizing r k with
  | nil =>
    obtain ⟨msg, hmem, -⟩ := hanswer
    cases hmem
  | cons chunk chunks ih =>
    have hchunk : Dealt id (messagesWith F W r chunk) (withChunk r chunk)
        (onChunk F W id r chunk) := dealt_chunk h.1 hbuffer chunk
    rw [messagesFrom_cons hchunk, List.take_succ_cons, List.flatten_cons] at hanswer ⊢
    rw [readChunks, if_neg (by simp [h])]
    cases k with
    | zero =>
      rw [List.take_zero, List.flatten_nil, List.append_nil] at hanswer ⊢
      rw [readChunks_of_ended (hchunk.toHeard.ended hanswer)]
      exact ⟨hchunk.called, hchunk.settlements, hchunk.resolved, hchunk.thrown⟩
    | succ k =>
      rw [messagesFrom_cons hchunk, List.take_succ_cons, List.flatten_cons,
        List.forall_mem_append] at hmsgs
      obtain ⟨-, -, hresolved, hthrown⟩ := hchunk.toHeard.unanswered hmsgs.1
      have hnext : ∀ c ∈ (onChunk F W id r chunk).parser.buffer, isLineEnd c = false := by
        rw [hchunk.parser]
        exact restFrom_kept hbuffer _
      have hlater : ∃ msg ∈ ((messagesFrom F W (onChunk F W id r chunk) chunks).take
          (k + 1)).flatten, answers id msg = true := by
        obtain ⟨msg, hmem, hmsg⟩ := hanswer
        rcases List.mem_append.mp hmem with hmem | hmem
        · rw [hmsgs.1 msg hmem] at hmsg
          cases hmsg
        · exact ⟨msg, hmem, hmsg⟩
      have hrest := ih ⟨hthrown, hresolved.trans h.2⟩ hnext hmsgs.2 hlater
      have hboth := hchunk.toHeard.append hmsgs.1 hrest
      exact ⟨hboth.called, hboth.settlements, hboth.resolved, hboth.thrown⟩

/-! ### What arrives -/

theorem messagesBy_eq (chunks : List Utf8.Bytes) (k : Nat) :
    messagesBy F W chunks k = ((messagesFrom F W {} chunks).take k).flatten := rfl

theorem get_of_not_inMessage {key : String} (h : inMessage key msg = false) :
    msg.get key = .undefined := by
  cases msg with
  | obj properties =>
    rw [JsValue.get, Option.isNone_iff_eq_none.mp (Option.isSome_eq_false_iff.mp h)]
    rfl
  | _ => rfl

/-- A notification is no response, and calls the handlers once. -/
theorem callsOf_notification (h : isJSONRPCNotification msg = true) : callsOf id msg = [msg] := by
  have hid : inMessage "id" msg = false := by
    simp only [isJSONRPCNotification, Bool.and_eq_true, Bool.not_eq_true'] at h
    exact h.2
  have hanswers : answers id msg = false := by
    rw [answers, get_of_not_inMessage hid]
    exact Bool.and_false _
  rw [callsOf, if_neg (by simp [hanswers]), dispatchNotificationOrSkip, if_pos h,
    if_neg (by simp [hid])]
  rfl

theorem eq_of_mem_callsOf {called : JsValue} (h : called ∈ callsOf id msg) : called = msg := by
  unfold callsOf dispatchNotificationOrSkip at h
  split at h
  · cases h
  · rcases List.mem_append.mp h with h | h <;> split at h
    · exact List.mem_singleton.mp h
    · cases h
    · exact List.mem_singleton.mp h
    · cases h

theorem filter_callsOf (msgs : List JsValue) :
    (msgs.flatMap (callsOf id)).filter isJSONRPCNotification =
      msgs.filter isJSONRPCNotification := by
  induction msgs with
  | nil => rfl
  | cons msg msgs ih =>
    rw [List.flatMap_cons, List.filter_append, ih]
    cases h : isJSONRPCNotification msg with
    | true =>
      rw [callsOf_notification h, List.filter_cons_of_pos h, List.filter_cons_of_pos h]
      rfl
    | false =>
      have hnone : (callsOf id msg).filter isJSONRPCNotification = [] := by
        refine List.filter_eq_nil_iff.mpr fun called hmem => ?_
        rw [eq_of_mem_callsOf hmem, h]
        exact Bool.false_ne_true
      rw [hnone, List.filter_cons_of_neg (by simp [h]), List.nil_append]

/-- The first answer settles the request, if it does not throw. -/
theorem head?_settlements {msgs : List JsValue} (hfind : msgs.find? (answers id) = some msg) :
    (((msgs.takeWhile (passes id)).filter (answers id)).map settlementOf).head? =
      if throws msg then none else some (settlementOf msg) := by
  induction msgs with
  | nil => cases hfind
  | cons first msgs ih =>
    cases hanswers : answers id first with
    | true =>
      rw [List.find?_cons_of_pos hanswers] at hfind
      obtain rfl := Option.some.inj hfind
      cases hthrows : throws first with
      | true =>
        rw [List.takeWhile_cons_of_neg (by simp [passes, hanswers, hthrows])]
        rfl
      | false =>
        rw [List.takeWhile_cons_of_pos (by simp [passes, hanswers, hthrows]),
          List.filter_cons_of_pos hanswers]
        rfl
    | false =>
      rw [List.find?_cons_of_neg (by simp [hanswers])] at hfind
      rw [List.takeWhile_cons_of_pos (by simp [passes, hanswers]),
        List.filter_cons_of_neg (by simp [hanswers])]
      exact ih hfind

theorem settlementOf_ne (msg : JsValue) :
    settlementOf msg ≠ .threw ∧ settlementOf msg ≠ .closed := by
  unfold settlementOf
  split <;> exact ⟨nofun, nofun⟩

theorem exists_first {α : Type} {p : α → Bool} : ∀ {lists : List (List α)},
    (∃ a ∈ lists.flatten, p a = true) →
      ∃ k, (∀ a ∈ (lists.take k).flatten, p a = false) ∧
        ∃ a ∈ (lists.take (k + 1)).flatten, p a = true := by
  intro lists
  induction lists with
  | nil =>
    rintro ⟨a, hmem, -⟩
    cases hmem
  | cons list lists ih =>
    rintro ⟨a, hmem, ha⟩
    by_cases hfirst : ∃ a ∈ list, p a = true
    · refine ⟨0, by simp, ?_⟩
      simpa using hfirst
    · have hnone : ∀ a ∈ list, p a = false := by simpa using hfirst
      rw [List.flatten_cons] at hmem
      rcases List.mem_append.mp hmem with hmem | hmem
      · rw [hnone a hmem] at ha
        cases ha
      · obtain ⟨k, hbefore, b, hb, hpb⟩ := ih ⟨a, hmem, ha⟩
        refine ⟨k + 1, ?_, b, ?_, hpb⟩
        · rw [List.take_succ_cons, List.flatten_cons, List.forall_mem_append]
          exact ⟨hnone, hbefore⟩
        · rw [List.take_succ_cons, List.flatten_cons]
          exact List.mem_append_right _ hb

/-- What comes of the chunks, where `k` is the number of those before the first that answers. -/
theorem consume_of_answered {chunks : List Utf8.Bytes} {k : Nat}
    (hmsgs : ∀ msg ∈ messagesBy F W chunks k, answers id msg = false)
    (hfind : (messagesBy F W chunks (k + 1)).find? (answers id) = some msg) :
    (consumeSSEForResponse F W id (some chunks)).settlements.head? =
        some (if throws msg then .threw else settlementOf msg) ∧
      (consumeSSEForResponse F W id (some chunks)).called.filter isJSONRPCNotification =
        ((messagesBy F W chunks (k + 1)).takeWhile (passes id)).filter isJSONRPCNotification := by
  rw [messagesBy_eq] at hmsgs hfind ⊢
  have hmem := List.mem_of_find?_eq_some hfind
  have hanswers := List.find?_some hfind
  have hheard := readChunks_answered (r := {}) ⟨rfl, rfl⟩ (by simp) hmsgs ⟨msg, hmem, hanswers⟩
  have hhead : (readChunks F W id {} chunks).settlements.head? =
      if throws msg then none else some (settlementOf msg) := by
    rw [hheard.settlements]
    exact head?_settlements hfind
  have hcalled : (readChunks F W id {} chunks).called.filter isJSONRPCNotification =
      (((messagesFrom F W {} chunks).take (k + 1)).flatten.takeWhile (passes id)).filter
        isJSONRPCNotification := by
    rw [hheard.called]
    exact filter_callsOf _
  rw [consumeSSEForResponse]
  cases hthrows : throws msg with
  | true =>
    have hthrown : (readChunks F W id {} chunks).thrown = true := by
      have hall : (((messagesFrom F W {} chunks).take (k + 1)).flatten.all (passes id)) =
          false :=
        List.all_eq_false.mpr ⟨msg, hmem, by simp [passes, hanswers, hthrows]⟩
      rw [hheard.thrown, hall]
      rfl
    rw [if_pos hthrows] at hhead
    rw [if_pos hthrown]
    dsimp only
    rw [List.head?_eq_none_iff.mp hhead]
    exact ⟨rfl, hcalled⟩
  | false =>
    rw [if_neg (by simp [hthrows])] at hhead
    have happend (settlement : Settlement) :
        ((readChunks F W id {} chunks).settlements ++ [settlement]).head? =
          some (settlementOf msg) := by
      rw [List.head?_append, hhead]
      rfl
    split
    · exact ⟨happend _, hcalled⟩
    · split
      · exact ⟨hhead, hcalled⟩
      · exact ⟨happend _, hcalled⟩

theorem consume_of_unanswered {chunks : List Utf8.Bytes}
    (hmsgs : ∀ msg ∈ (messagesFrom F W {} chunks).flatten, answers id msg = false) :
    (consumeSSEForResponse F W id (some chunks)).settlements = [.closed] := by
  obtain ⟨hthrown, hresolved, hsettlements⟩ :=
    readChunks_unanswered (r := {}) ⟨rfl, rfl⟩ (by simp) chunks hmsgs
  rw [consumeSSEForResponse, if_neg (by simp [hthrown]), if_neg (by simp [hresolved]), hsettlements]
  rfl

/-- **When nothing is lost.**  The response settles the request, and every notification of the body
is dispatched once, just if the frames of both have ended with the first chunk with which the
frame of a response to the request has, and the response does not throw. -/
theorem losesNothing_iff (F : NumberFormat) (W : Wording) (id : Nat) (chunks : List Utf8.Bytes) :
    LosesNothing F W id chunks ↔ HeardInTime F W id chunks := by
  constructor
  · rintro ⟨sent, hsent, hsettlement, hcalled⟩
    by_cases hanswer : ∃ msg ∈ (messagesFrom F W {} chunks).flatten, answers id msg = true
    · obtain ⟨k, hbefore, hanswered⟩ := exists_first hanswer
      obtain ⟨msg, hfind⟩ := Option.isSome_iff_exists.mp (List.find?_isSome.mpr hanswered)
      obtain ⟨hhead, hfilter⟩ := consume_of_answered hbefore hfind
      rw [hhead] at hsettlement
      have hthrows : throws msg = false := by
        by_contra hthrows
        rw [if_pos (by simpa using hthrows)] at hsettlement
        exact (settlementOf_ne sent).1 (Option.some.inj hsettlement).symm
      rw [if_neg (by simp [hthrows])] at hsettlement
      refine ⟨k, hbefore, msg, hfind, ?_, hthrows, hfilter.symm.trans hcalled⟩
      rw [hsent, hsettlement]
      rfl
    · have hnone : ∀ msg ∈ (messagesFrom F W {} chunks).flatten, answers id msg = false := by
        simpa using hanswer
      rw [consume_of_unanswered hnone] at hsettlement
      exact absurd (Option.some.inj hsettlement).symm (settlementOf_ne sent).2
  · rintro ⟨k, hbefore, msg, hfind, hsent, hthrows, hnotifications⟩
    obtain ⟨hhead, hfilter⟩ := consume_of_answered hbefore hfind
    obtain ⟨sent, hsentFind, hsame⟩ := Option.map_eq_some_iff.mp hsent
    rw [if_neg (by simp [hthrows])] at hhead
    exact ⟨sent, hsentFind, by rw [hhead, hsame], hfilter.trans hnotifications⟩

/-! ### Messages as events -/

theorem toUnits_append (text more : List Char) :
    toUnits (text ++ more) = toUnits text ++ toUnits more := by
  rw [toUnits, List.flatMap_append, List.map_append]
  rfl

/-- A code unit has 16 bits, and those of a visible character are no control characters. -/
theorem mem_units {c : Char} {u : Nat} (h : u ∈ JsonText.units c) :
    u < 65536 ∧ (0x20 ≤ c.toNat → 0x20 ≤ u) := by
  have hchar : c.toNat < 0x110000 := by
    have hvalid := c.valid
    have hnat : c.val.toNat < 0xd800 ∨ 0xdfff < c.val.toNat ∧ c.val.toNat < 0x110000 := hvalid
    change c.val.toNat < 0x110000
    omega
  unfold JsonText.units at h
  dsimp only at h
  split at h
  · obtain rfl := List.mem_singleton.mp h
    omega
  · simp only [List.mem_cons, List.not_mem_nil, or_false] at h
    omega

/-- Characters that are visible end no line. -/
theorem isLineEnd_toUnits {text : List Char} (h : ∀ d ∈ text, 0x20 ≤ d.toNat) :
    ∀ c ∈ toUnits text, isLineEnd c = false := by
  intro c hc
  obtain ⟨u, hu, rfl⟩ := List.mem_map.mp hc
  obtain ⟨d, hd, hmem⟩ := List.mem_flatMap.mp hu
  obtain ⟨hlt, hvisible⟩ := mem_units hmem
  have hu32 := hvisible (h d hd)
  have hvalue : (UInt16.ofNat u).toNat = u := by
    rw [UInt16.toNat_ofNat']
    omega
  have hlf : UInt16.ofNat u ≠ LF := by
    intro heq
    rw [heq] at hvalue
    change 10 = u at hvalue
    omega
  have hcr : UInt16.ofNat u ≠ CR := by
    intro heq
    rw [heq] at hvalue
    change 13 = u at hvalue
    omega
  simp [isLineEnd, hlf, hcr]

/-- The line that carries a message. -/
def dataLine (msg : Message F) : Text := toUnits ("data: ".toList ++ msg.text)

theorem dataLine_kept (msg : Message F) : ∀ c ∈ dataLine msg, isLineEnd c = false := by
  have hprefix : ∀ d ∈ "data: ".toList, 0x20 ≤ d.toNat := visible_of_all (by decide)
  refine isLineEnd_toUnits fun d hd => ?_
  rcases List.mem_append.mp hd with hd | hd
  · exact hprefix d hd
  · exact visible_stringify msg.json d hd

theorem endedFrom_line (line : Text) {text : Text} (h : ∀ c ∈ text, isLineEnd c = false)
    (rest : Text) :
    endedFrom false line (text ++ LF :: rest) = (line ++ text) :: endedFrom false [] rest ∧
      restFrom false line (text ++ LF :: rest) = restFrom false [] rest := by
  induction text generalizing line with
  | nil =>
    rw [List.nil_append, List.append_nil, endedFrom, restFrom]
    exact ⟨rfl, rfl⟩
  | cons c text ih =>
    obtain ⟨hc, hrest⟩ := List.forall_mem_cons.mp h
    obtain ⟨hended, hbegun⟩ := ih (line ++ [c]) hrest
    have hfeed : ¬ (c = LF ∧ false = true) := fun hfeed => Bool.false_ne_true hfeed.2
    have hend : ¬ isLineEnd c = true := Bool.eq_false_iff.mp hc
    rw [List.cons_append, endedFrom, restFrom, if_neg hfeed, if_neg hfeed, if_neg hend,
      if_neg hend, hended, hbegun, List.append_assoc]
    exact ⟨rfl, rfl⟩

theorem fieldOf_dataLine (msg : Message F) :
    fieldOf (dataLine msg) = (dataField, toUnits msg.text) := by
  have hline : dataLine msg =
      dataField ++ RegExp.unit ':' :: RegExp.unit ' ' :: toUnits msg.text := by
    rw [dataLine, toUnits_append]
    rfl
  rw [hline]
  rfl

theorem dataLine_ne_nil (msg : Message F) : dataLine msg ≠ [] := by
  rw [dataLine, toUnits_append]
  exact List.cons_ne_nil _ _

/-- A message as an event. -/
def eventOf (msg : Message F) : List Char := "data: ".toList ++ msg.text ++ ['\n', '\n']

/-! ### A response that is not heard -/

def pongFields : List (String × Json) :=
  [("jsonrpc", .str "2.0"), ("id", .num (.ofInt 1)), ("result", .bool true)]

theorem pongFields_listed : Listed pongFields :=
  (show Names ["jsonrpc", "id", "result"] by decide).listed rfl

def pong : Message JsonRpc.exactNumbers where
  json := .obj pongFields
  proper := ⟨⟨trivial, trivial, trivial, trivial⟩, pongFields_listed⟩
  version := by
    rw [evaluate_obj pongFields_listed]
    rfl

theorem answers_pong : answers 1 pong.value = true := by
  have hvalue : pong.value =
      .obj [("jsonrpc", .str "2.0"), ("id", .num (.ofInt 1)), ("result", .bool true)] :=
    evaluate_obj pongFields_listed
  rw [hvalue]
  rfl

def pongText : List Char := "data: ".toList ++ pong.text ++ ['\n']

/-- Without its blank line the event has not ended with the chunk. -/
theorem messagesFrom_pong (W : Wording) :
    (messagesFrom JsonRpc.exactNumbers W {} [Utf8.encode pongText]).flatten = [] := by
  have hhead : pongText.head? ≠ some '\uFEFF' := by
    have hd : ('d' : Char) ≠ '\uFEFF' := by decide
    exact fun heq => hd (Option.some.inj heq)
  have hdecode : (({} : Utf8.TextDecoder).decodeAll [Utf8.encode pongText]).flatten = pongText :=
    Utf8.TextDecoder.decodeAll_encode hhead List.flatten_singleton
  rw [Utf8.TextDecoder.decodeAll, Utf8.TextDecoder.decodeAll, List.flatten_singleton] at hdecode
  obtain ⟨hended, -⟩ := endedFrom_line [] (dataLine_kept pong) []
  have hlines : endedFrom false [] (toUnits pongText) = [dataLine pong] := by
    unfold pongText
    rw [toUnits_append]
    exact hended
  rw [messagesFrom, Utf8.TextDecoder.decodeAll, Utf8.TextDecoder.decodeAll, hdecode, List.map_cons,
    framesByChunk, hlines]
  have hdata : (fieldOf (dataLine pong)).1 ≠ [] := by
    rw [fieldOf_dataLine]
    exact List.cons_ne_nil _ _
  have hopen : framesOf {} [dataLine pong] = [] := by
    rw [framesOf, Fields.endLine, if_neg (dataLine_ne_nil pong)]
    rfl
  change (List.map _ [framesOf {} [dataLine pong]]).flatten = []
  rw [hopen]
  rfl

/-- The response is the last event, and its blank line is missing. -/
theorem unended_response_lost :
    ¬ ∀ (F : NumberFormat) (W : Wording) (id : Nat) (messages : List (Message F))
      (last : Message F) (ending : List Char) (chunks : List Utf8.Bytes),
      ending ∈ [[], ['\n'], ['\n', '\n']] →
      chunks.flatten =
        Utf8.encode (messages.flatMap eventOf ++ ("data: ".toList ++ last.text ++ ending)) →
      (∃ msg ∈ messages ++ [last], answers id msg.value = true) →
      LosesNothing F W id chunks := by
  intro h
  have hwording : Nonempty Wording := ⟨⟨fun _ => "", "", fun _ => ""⟩⟩
  obtain ⟨W⟩ := hwording
  obtain ⟨msg, -, hsettlement, -⟩ := h JsonRpc.exactNumbers W 1 [] pong ['\n']
    [Utf8.encode pongText] (by simp) List.flatten_singleton
    ⟨pong, List.mem_singleton_self _, answers_pong⟩
  have hunanswered : ∀ msg ∈ (messagesFrom JsonRpc.exactNumbers W {}
      [Utf8.encode pongText]).flatten, answers 1 msg = false := by
    rw [messagesFrom_pong]
    intro msg hmem
    cases hmem
  rw [consume_of_unanswered hunanswered] at hsettlement
  exact (settlementOf_ne msg).2 (Option.some.inj hsettlement).symm

end Declaragent.Mcp.StreamableHttp
