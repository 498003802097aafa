import Declaragent.Events.ControlProtocol
import Declaragent.Library.Transition

/-!
# Daemon — the control socket

A connection reads requests, one on a line, and writes a response to each.  Every chunk of the
stream has a handler of its own: it answers what is no request at once, and awaits the others one by
one, while the handlers of other chunks go on.

* `handleConnection`: the chunks and the answers of a connection, in any order.
* `accounted_iff`: which streams have every line answered.
-/

namespace Declaragent.Daemon
open JsonText Transition Events

inductive ControlSocketOp where
  | ping | status
  | dlqRequeue (eventId : String)
  | reload | shutdown
  deriving DecidableEq

def ControlSocketOp.text : ControlSocketOp → String
  | .ping => "ping"
  | .status => "status"
  | .dlqRequeue _ => "dlq.requeue"
  | .reload => "reload"
  | .shutdown => "shutdown"

structure ControlSocketRequest where
  id : String
  op : ControlSocketOp
  deriving DecidableEq

/-- `isControlSocketRequest`, with the request that the value is. -/
def asControlSocketRequest (value : JsValue) : Option ControlSocketRequest :=
  match value.get "id", value.get "op" with
  | .str id, .str op =>
    if op = "ping" then some ⟨id, .ping⟩
    else if op = "status" then some ⟨id, .status⟩
    else if op = "reload" then some ⟨id, .reload⟩
    else if op = "shutdown" then some ⟨id, .shutdown⟩
    else if op = "dlq.requeue" then
      match (value.get "params").get "eventId" with
      | .str eventId => if eventId = "" then none else some ⟨id, .dlqRequeue eventId⟩
      | _ => none
    else none
  | _, _ => none

structure ControlSocketErrorBody where
  code : String
  message : String
  deriving DecidableEq

structure ControlSocketResponse where
  id : String
  op : String
  /-- `error` or `result`. -/
  body : Except ControlSocketErrorBody JsValue

namespace ControlSocketResponse

def isError (response : ControlSocketResponse) : Bool :=
  match response.body with
  | .error _ => true
  | .ok _ => false

def toValue (response : ControlSocketResponse) : JsValue :=
  let body := match response.body with
    | .error e => ("error", .obj [("code", .str e.code), ("message", .str e.message)])
    | .ok result => ("result", result)
  .obj [("id", .str response.id), ("op", .str response.op), body]

end ControlSocketResponse

/-- A line of the stream. -/
def encodeControlSocketMessage (value : JsValue) : List Char :=
  ((jsonText value).getD "undefined").toList ++ ['\n']

/-- What the requests are answered with. -/
structure ControlSocketContext where
  /-- `bus` and `store`. -/
  hasBus : Bool := true
  /-- `reload` -/
  hasReload : Bool := true

def pong : JsValue := .obj [("pong", .bool true)]

def acked : JsValue := .obj [("ok", .bool true)]

def reloadUnsupported : JsValue :=
  .obj [("reloaded", .bool false), ("reason", .str "unsupported"),
    ("message", .str "reload is not supported by this daemon")]

/-- The outcome is what the daemon gives for the request, or the message of what it throws. -/
def handleControlSocketRequest (ctx : ControlSocketContext) (request : ControlSocketRequest)
    (outcome : Except String JsValue) : ControlSocketResponse :=
  let settled : Except ControlSocketErrorBody JsValue :=
    match outcome with
    | .ok result => .ok result
    | .error message => .error { code := "EHANDLER", message }
  let body : Except ControlSocketErrorBody JsValue :=
    match request.op with
    | .ping => .ok pong
    | .status => settled
    | .dlqRequeue _ =>
      if ctx.hasBus then settled
      else
        .error { code := "ENOBUS", message := "daemon has no bus/store wired — cannot requeue" }
    | .reload => if ctx.hasReload then settled else .ok reloadUnsupported
    | .shutdown => .ok acked
  { id := request.id, op := request.op.text, body }

/-- The id of a value that has one. -/
def idOf? (value : JsValue) : Option String :=
  match value.get "id" with
  | .str id => some id
  | _ => none

/-- The answer to what is no request. -/
def badRequest (entry : JsValue) : ControlSocketResponse :=
  let maybeRequest := match entry with
    | .null | .undefined => JsValue.obj []
    | entry => entry
  let text := (jsonText maybeRequest).getD "undefined"
  { id := (idOf? maybeRequest).getD "invalid"
    op := "ping"
    body := .error
      { code := "EBADREQ", message := s!"malformed or unknown control-socket request: {text}" } }

/-- A handler of a chunk that awaits the answer to a request, and the entries after it. -/
structure DataHandler where
  request : ControlSocketRequest
  rest : List JsValue

/-- The loop of a handler up to the next request: what is written, and the handler that waits. -/
def runHandler : List JsValue → List ControlSocketResponse × Option DataHandler
  | [] => ([], none)
  | entry :: rest =>
    match asControlSocketRequest entry with
    | none =>
      let (written, handler) := runHandler rest
      (badRequest entry :: written, handler)
    | some request => ([], some { request, rest })

structure Connection where
  decoder : NDJSONDecoder := {}
  handlers : List DataHandler := []
  /-- The responses that are written to the socket. -/
  written : List ControlSocketResponse := []

inductive ConnectionAct where
  | data (chunk : List Char)
  /-- A handler has its answer. -/
  | settles (i : Nat) (outcome : Except String JsValue)

def handleConnection (F : NumberFormat) (ctx : ControlSocketContext) (c : Connection) :
    ConnectionAct → Option Connection
  | .data chunk =>
    let (entries, decoder) := c.decoder.push F chunk
    let (written, handler) := runHandler entries
    some { decoder, handlers := c.handlers ++ handler.toList, written := c.written ++ written }
  | .settles i outcome => do
      let handler ← c.handlers[i]?
      let response := handleControlSocketRequest ctx handler.request outcome
      let (written, next) := runHandler handler.rest
      some { c with
        handlers := c.handlers.eraseIdx i ++ next.toList
        written := c.written ++ response :: written }

/-- The stream, as far as it has come. -/
def receivedText (acts : List ConnectionAct) : List Char :=
  acts.flatMap fun
    | .data chunk => chunk
    | .settles _ _ => []

/-! ### Every line is answered -/

abbrev Line := List Char

section
variable (F : NumberFormat)

/-- The request of a line that has one. -/
def requestOf? (line : Line) : Option ControlSocketRequest :=
  (lineValue? F line).bind asControlSocketRequest

/-- The response has the id of the line, and is an error where the line is no request. -/
structure Answers (line : Line) (response : ControlSocketResponse) : Prop where
  id : ∀ id, (lineValue? F line).bind idOf? = some id → response.id = id
  error : requestOf? F line = none → response.isError = true

/-- The lines are those that a handler has yet to answer. -/
def Holds (lines : List Line) (handler : DataHandler) : Prop :=
  ∃ line rest, lines = line :: rest ∧ requestOf? F line = some handler.request ∧
    rest.map (lineValue? F) = handler.rest.map some

/-- Which line each response is to, and which lines each handler is yet to answer. -/
structure Accounts (lines : List Line) (written : List ControlSocketResponse)
    (handlers : List DataHandler) (answers : List (Line × ControlSocketResponse))
    (held : List (List Line × DataHandler)) : Prop where
  lines : (answers.map Prod.fst ++ held.flatMap Prod.fst).Perm lines
  written : answers.map Prod.snd = written
  answers : ∀ p ∈ answers, Answers F p.1 p.2
  handlers : held.map Prod.snd = handlers
  held : ∀ p ∈ held, Holds F p.1 p.2

/-- Each of the lines has one response, or one handler that is to answer it. -/
def Accounted (lines : List Line) (written : List ControlSocketResponse)
    (handlers : List DataHandler) : Prop :=
  ∃ answers held, Accounts F lines written handlers answers held

/-- The lines of the stream that are values. -/
def valueLines (text : List Char) : List Line :=
  (Lines.complete '\n' text).filter fun line => (lineValue? F line).isSome

end

variable {F : NumberFormat} {ctx : ControlSocketContext} {c c' : Connection} {text : List Char}

theorem idOf_request {value : JsValue} {request : ControlSocketRequest}
    (h : asControlSocketRequest value = some request) : idOf? value = some request.id := by
  unfold asControlSocketRequest at h
  split at h
  · rename_i id op hid hop
    have hrequest : request.id = id := by
      repeat' split at h
      all_goals first | cases h | skip
      all_goals rfl
    rw [idOf?, hid, hrequest]
  · cases h

theorem badRequest_answers {line : Line} {entry : JsValue} (h : lineValue? F line = some entry) :
    Answers F line (badRequest entry) := by
  refine ⟨fun id hid => ?_, fun _ => rfl⟩
  rw [h, Option.bind_some] at hid
  cases entry with
  | null | undefined => cases hid
  | _ =>
    unfold badRequest
    dsimp only
    rw [hid]
    rfl

variable (ctx) in
theorem handle_answers {line : Line} {request : ControlSocketRequest}
    (h : requestOf? F line = some request) (outcome : Except String JsValue) :
    Answers F line (handleControlSocketRequest ctx request outcome) := by
  refine ⟨fun id hid => ?_, fun hnone => ?_⟩
  · obtain ⟨value, hvalue, hrequest⟩ := Option.bind_eq_some_iff.mp h
    rw [hvalue, Option.bind_some, idOf_request hrequest] at hid
    exact Option.some.inj hid
  · rw [h] at hnone
    cases hnone

section
variable {lines lines' : List Line} {written written' : List ControlSocketResponse}
  {handlers handlers' : List DataHandler}

theorem Accounted.append (h : Accounted F lines written handlers)
    (h' : Accounted F lines' written' handlers') :
    Accounted F (lines ++ lines') (written ++ written') (handlers ++ handlers') := by
  obtain ⟨answers, held, hlines, hwritten, hanswers, hhandlers, hheld⟩ := h
  obtain ⟨answers', held', hlines', hwritten', hanswers', hhandlers', hheld'⟩ := h'
  refine ⟨answers ++ answers', held ++ held', ?_, ?_, ?_, ?_, ?_⟩
  · refine List.Perm.trans ?_ (hlines.append hlines')
    rw [List.map_append, List.flatMap_append, List.append_assoc, List.append_assoc]
    refine List.Perm.append_left _ ?_
    rw [← List.append_assoc, ← List.append_assoc]
    exact List.perm_append_comm.append_right _
  · rw [List.map_append, hwritten, hwritten']
  · exact List.forall_mem_append.mpr ⟨hanswers, hanswers'⟩
  · rw [List.map_append, hhandlers, hhandlers']
  · exact List.forall_mem_append.mpr ⟨hheld, hheld'⟩

theorem Accounted.perm (h : Accounted F lines written handlers) (hperm : lines.Perm lines') :
    Accounted F lines' written handlers := by
  obtain ⟨answers, held, h⟩ := h
  exact ⟨answers, held, { h with lines := h.lines.trans hperm }⟩

theorem accounted_nil : Accounted F [] [] [] :=
  ⟨[], [], List.Perm.refl _, rfl, by simp, rfl, by simp⟩

theorem accounted_answer {line : Line} {response : ControlSocketResponse}
    (h : Answers F line response) : Accounted F [line] [response] [] :=
  ⟨[(line, response)], [], List.Perm.refl _, rfl, by simpa using h, rfl, by simp⟩

theorem accounted_held {handler : DataHandler} (h : Holds F lines handler) :
    Accounted F lines [] [handler] :=
  ⟨[], [(lines, handler)], by simp, rfl, by simp, rfl, by simpa using h⟩

/-- The lines of a handler, and those of the others. -/
theorem Accounted.take_out {i : Nat} {handler : DataHandler}
    (h : Accounted F lines written handlers) (hget : handlers[i]? = some handler) :
    ∃ mine others, Holds F mine handler ∧ (others ++ mine).Perm lines ∧
      Accounted F others written (handlers.eraseIdx i) := by
  obtain ⟨answers, held, hlines, hwritten, hanswers, rfl, hheld⟩ := h
  rw [List.getElem?_map, Option.map_eq_some_iff] at hget
  obtain ⟨⟨mine, handler'⟩, hget, rfl⟩ := hget
  obtain ⟨hi, hget⟩ := List.getElem?_eq_some_iff.mp hget
  have hperm : ((mine, handler') :: held.eraseIdx i).Perm held := by
    rw [← hget]
    exact List.getElem_cons_eraseIdx_perm hi
  refine ⟨mine, answers.map Prod.fst ++ (held.eraseIdx i).flatMap Prod.fst,
    hheld (mine, handler') (hget ▸ List.getElem_mem hi), ?_, answers, held.eraseIdx i,
    List.Perm.refl _, hwritten, hanswers, ?_, fun p hp => hheld p (List.mem_of_mem_eraseIdx hp)⟩
  · refine List.Perm.trans ?_ hlines
    rw [List.append_assoc]
    refine List.Perm.append_left _ ?_
    exact List.perm_append_comm.trans (hperm.flatMap_right Prod.fst)
  · exact (List.eraseIdx_map _ _ _).symm

end

/-- A handler that runs answers some of its lines, and holds the others. -/
theorem runHandler_accounted {entries : List JsValue} {lines : List Line}
    (h : lines.map (lineValue? F) = entries.map some) :
    Accounted F lines (runHandler entries).1 (runHandler entries).2.toList := by
  induction entries generalizing lines with
  | nil =>
    obtain rfl := List.map_eq_nil_iff.mp h
    exact accounted_nil
  | cons entry rest ih =>
    obtain ⟨line, lines, rfl, hline, hlines⟩ := List.map_eq_cons_iff.mp h
    unfold runHandler
    split
    · exact (accounted_answer (badRequest_answers hline)).append (ih hlines)
    · rename_i request hrequest
      refine accounted_held ⟨line, lines, rfl, ?_, hlines⟩
      rw [requestOf?, hline, Option.bind_some, hrequest]

theorem map_filter_isSome {α β : Type} (f : α → Option β) (l : List α) :
    (l.filter fun a => (f a).isSome).map f = (l.filterMap f).map some := by
  induction l with
  | nil => rfl
  | cons a l ih =>
    cases ha : f a with
    | none => simp [ha, ih]
    | some b => simp [ha, ih]

/-- What a connection keeps: the lines that are values are accounted for, and the decoder has what
follows the last of them. -/
structure Sound (F : NumberFormat) (text : List Char) (c : Connection) : Prop where
  accounted : Accounted F (valueLines F text) c.written c.handlers
  buffer : c.decoder.buffer = Lines.rest '\n' text

theorem Sound.data (h : Sound F text c) {chunk : List Char}
    (hstep : handleConnection F ctx c (.data chunk) = some c') : Sound F (text ++ chunk) c' := by
  unfold handleConnection at hstep
  cases hstep
  refine ⟨?_, ?_⟩
  · have hlines : valueLines F (text ++ chunk) = valueLines F text ++
        (Lines.complete '\n' (c.decoder.buffer ++ chunk)).filter
          fun line => (lineValue? F line).isSome := by
      rw [valueLines, Lines.complete_append, List.filter_append, h.buffer, valueLines]
    rw [hlines]
    exact h.accounted.append (runHandler_accounted (map_filter_isSome _ _))
  · change Lines.rest '\n' (c.decoder.buffer ++ chunk) = _
    rw [h.buffer, ← Lines.rest_append]

theorem Sound.settles (h : Sound F text c) {i : Nat} {outcome : Except String JsValue}
    (hstep : handleConnection F ctx c (.settles i outcome) = some c') : Sound F text c' := by
  unfold handleConnection at hstep
  dsimp only at hstep
  rw [Option.bind_eq_bind, Option.bind_eq_some_iff] at hstep
  obtain ⟨handler, hget, hstep⟩ := hstep
  cases hstep
  refine ⟨?_, h.buffer⟩
  obtain ⟨mine, others, ⟨line, rest, rfl, hrequest, hrest⟩, hperm, hothers⟩ :=
    h.accounted.take_out hget
  have hanswered := (accounted_answer (handle_answers ctx hrequest outcome)).append
    (runHandler_accounted hrest)
  exact (hothers.append hanswered).perm hperm

theorem sound_of_run {acts : List ConnectionAct}
    (r : Run (handleConnection F ctx) Any {} acts c) : Sound F (receivedText acts) c := by
  induction r with
  | nil => exact ⟨accounted_nil, rfl⟩
  | @snoc acts c c' act _ _ hstep ih =>
    rw [receivedText, List.flatMap_append, List.flatMap_singleton]
    cases act with
    | data chunk => exact ih.data hstep
    | settles i outcome => 
      rw [List.append_nil]
      exact ih.settles hstep

/-- There are as many lines as responses that are written, or are to be. -/
theorem Accounted.length {lines : List Line} {written : List ControlSocketResponse}
    {handlers : List DataHandler} (h : Accounted F lines written handlers) :
    lines.length = written.length + (handlers.map fun handler => handler.rest.length + 1).sum := by
  obtain ⟨answers, held, hlines, rfl, -, rfl, hheld⟩ := h
  rw [← hlines.length_eq, List.length_append, List.length_map, List.length_map,
    List.length_flatMap, List.map_map]
  congr 2
  refine List.map_congr_left fun p hp => ?_
  obtain ⟨line, rest, hmine, -, hrest⟩ := hheld p hp
  have hlength := congrArg List.length hrest
  rw [List.length_map, List.length_map] at hlength
  rw [hmine, List.length_cons, hlength]
  rfl

theorem valueLines_eq (F : NumberFormat) (text : List Char) :
    valueLines F text = (filledLines text).filter fun line => (lineValue? F line).isSome := by
  rw [filledLines, List.filter_filter, valueLines]
  refine List.filter_congr fun line _ => ?_
  by_cases hblank : Numeral.trim line = []
  · simp [lineValue?, hblank]
  · simp [hblank]

/-- **Every filled line is answered** exactly if all of them are values. -/
theorem accounted_iff (h : Sound F text c) :
    Accounted F (filledLines text) c.written c.handlers ↔
      ∀ line ∈ filledLines text, (lineValue? F line).isSome = true := by
  rw [← List.length_filter_eq_length_iff, ← valueLines_eq]
  constructor
  · intro haccounted
    rw [haccounted.length, h.accounted.length]
  · intro hlength
    have hall : valueLines F text = filledLines text := by
      rw [valueLines_eq] at hlength ⊢
      exact List.filter_eq_self.mpr (List.length_filter_eq_length_iff.mp hlength)
    exact hall ▸ h.accounted

end Declaragent.Daemon
