import Declaragent.Library.Transition
import Declaragent.Mcp.JsonRpc

/-!
# Mcp — a connection of JSON-RPC

A request is in the map of pending ones until its promise is settled: by its response, by its
signal, by a write that fails, or by an end of the connection.

A response with an `error` of `null` is taken from the map before the error is built, and building
it throws.  A request that cannot be written is in the map already.

* `connectionStep`: one piece of the connection that nothing interrupts.
* `Served`: every request that was pending is settled, and every request can be written.
* `Settled`: a promise is settled once if its request is not pending, and not at all if it is.
* `served_iff`: the runs in which that is so in every state.
-/

namespace Declaragent.Mcp.JsonRpc
open JsonText Transition

inductive Params where
  | value (v : JsValue)
  /-- `JSON.stringify` throws. -/
  | unserializable

/-- How a promise is settled. -/
inductive Settlement where
  | resolved (result : JsValue)
  /-- By a response with an error. -/
  | failed (error : JsValue)
  | aborted
  | closed
  | writeFailed
  /-- The executor throws. -/
  | threw

/-- A call of `request`; `settlements` are the calls that settle its promise. -/
structure Request where
  id : Option Nat := none
  signal : Option Nat := none
  listening : Bool := false
  writing : Bool := false
  settlements : List Settlement := []

inductive Effect where
  | wrote (bytes : Utf8.Bytes)
  | notified (method params : JsValue)
  | errored (message : String)

/-- `pending` has the identifiers of requests, each with the call of `request` that it is of.
`lines` are still to be dispatched, and `received` are the messages that have been. -/
structure Connection where
  nextId : Nat := 1
  pending : List (Nat × Nat) := []
  requests : Nat → Request := fun _ => {}
  nextRequest : Nat := 0
  isAborted : Nat → Bool := fun _ => false
  closeRequested : Bool := false
  writerClosed : Bool := false
  closedReason : Bool := false
  buf : LineBuffer := {}
  lines : List (List Char) := []
  readerDone : Bool := false
  received : List JsValue := []
  effects : List Effect := []

inductive ConnectionLabel where
  | request (method : String) (params : Params) (signal : Option Nat)
  | abort (signal : Nat)
  /-- The promise of `options.write` is settled. -/
  | writeEnds (request : Nat) (ok : Bool)
  | receives (chunk : Utf8.Bytes)
  | dispatches
  /-- The source ends, or it fails. -/
  | readEnds (error : Option String)
  | close

def requestMessage (id : Nat) (method : String) (params : JsValue) : JsValue :=
  .obj ([("jsonrpc", .str "2.0"), ("id", .num (.ofInt id)), ("method", .str method)] ++
    if params.isUndefined then [] else [("params", params)])

def encodeRequest (id : Nat) (method : String) : Params → Option Utf8.Bytes
  | .value params => encodeMessage (requestMessage id method params)
  | .unserializable => none

/-- The reply to a request of the server. -/
def methodNotFound (req : JsValue) : JsValue :=
  let method := match req.get "method" with
    | .str method => method
    | _ => ""
  .obj [("jsonrpc", .str "2.0"), ("id", req.get "id"),
    ("error", .obj [("code", .num (.ofInt (-32601))),
      ("message", .str ("method not implemented: " ++ method))])]

/-- The keys of the map are the same as an identifier that was read. -/
def isId (id : Nat) : JsValue → Bool
  | .num n => n = .ofInt id
  | _ => false

def isNullish : JsValue → Bool
  | .null | .undefined => true
  | _ => false

def isNull : JsValue → Bool
  | .null => true
  | _ => false

namespace Connection
variable (F : NumberFormat) (W : Wording) (s : Connection)

def emit (effect : Effect) : Connection := { s with effects := s.effects ++ [effect] }

def setRequest (p : Nat) (r : Request) : Connection :=
  { s with requests := Function.update s.requests p r }

/-- The entry of an identifier is deleted, and its clean-up runs. -/
def delete (id p : Nat) : Connection :=
  { s.setRequest p { s.requests p with listening := false } with
    pending := s.pending.filter (·.1 ≠ id) }

def settle (p : Nat) (settlement : Settlement) : Connection :=
  s.setRequest p
    { s.requests p with settlements := (s.requests p).settlements ++ [settlement] }

def pends (p : Nat) : Bool := s.pending.any (·.2 = p)

/-- A call of `request` of which the promise is settled at once. -/
def refuse (settlement : Settlement) : Connection :=
  { s.setRequest s.nextRequest { settlements := [settlement] } with
    nextRequest := s.nextRequest + 1 }

def request (method : String) (params : Params) (signal : Option Nat) : Connection :=
  if s.writerClosed = true ∨ s.closedReason = true then s.refuse .closed
  else if signal.any s.isAborted then s.refuse .aborted
  else
    let t := { s with
      nextId := s.nextId + 1
      nextRequest := s.nextRequest + 1
      pending := s.pending ++ [(s.nextId, s.nextRequest)] }
    let r : Request := { id := some s.nextId, signal, listening := signal.isSome }
    match encodeRequest s.nextId method params with
    | none => t.setRequest s.nextRequest { r with settlements := [.threw] }
    | some bytes => (t.setRequest s.nextRequest { r with writing := true }).emit (.wrote bytes)

/-- The listeners of the signal run. -/
def abort (signal : Nat) : Connection :=
  let hears (p : Nat) : Bool :=
    (s.requests p).signal = some signal && (s.requests p).listening
  { s with
    isAborted := Function.update s.isAborted signal true
    pending := s.pending.filter fun e => !hears e.2
    requests := fun p =>
      if hears p then
        { s.requests p with
          listening := false
          settlements := (s.requests p).settlements ++ if s.pends p then [.aborted] else [] }
      else s.requests p }

def writeEnds (p : Nat) (ok : Bool) : Connection :=
  let t := s.setRequest p { s.requests p with writing := false }
  match (s.requests p).id with
  | some id =>
    if ok = false ∧ t.pending.any (·.1 = id) then (t.delete id p).settle p .writeFailed else t
  | none => t

/-- Every pending request is rejected. -/
def rejectAll : Connection :=
  { s with
    pending := []
    requests := fun p =>
      if s.pends p then
        { s.requests p with
          listening := false
          settlements := (s.requests p).settlements ++ [.closed] }
      else s.requests p }

/-- A response; what is thrown is reported. -/
def respond (msg : JsValue) : Connection :=
  if isNull (msg.get "id") then
    s.emit (.errored "JSON-RPC response with null id (parse error from server)")
  else match s.pending.find? (fun e => isId e.1 (msg.get "id")) with
    | none =>
      s.emit (.errored ("JSON-RPC response for unknown id " ++ W.display (msg.get "id")))
    | some (id, p) =>
      let t := s.delete id p
      if isJSONRPCErrorResponse msg then
        if isNullish (msg.get "error") then t.emit (.errored W.nullProperty)
        else t.settle p (.failed (msg.get "error"))
      else t.settle p (.resolved (msg.get "result"))

def writeReply (reply : JsValue) : Connection :=
  if s.writerClosed then s.emit (.errored "writer is closed")
  else match encodeMessage reply with
    | some bytes => s.emit (.wrote bytes)
    | none => s

def dispatch (msg : JsValue) : Connection :=
  if isJSONRPCResponse msg then s.respond W msg
  else if isJSONRPCNotification msg then
    s.emit (.notified (msg.get "method") (msg.get "params"))
  else if isString (msg.get "method") && inMessage "id" msg then
    s.writeReply (methodNotFound msg)
  else s.emit (.errored "JSON-RPC message neither request, response, nor notification")

def dispatchLine (line : List Char) : Connection :=
  match parseMessage F W line with
  | .error message => s.emit (.errored message)
  | .ok msg => ({ s with received := s.received ++ [msg] }).dispatch W msg

def readEnds (error : Option String) : Connection :=
  { s.rejectAll with
    closedReason := true
    readerDone := true
    effects := s.effects ++ (error.map Effect.errored).toList }

def close : Connection :=
  if s.closeRequested then s
  else { s.rejectAll with closeRequested := true, writerClosed := true, closedReason := true }

end Connection

def connectionStep (F : NumberFormat) (W : Wording) (s : Connection) :
    ConnectionLabel → Option Connection
  | .request method params signal => some (s.request method params signal)
  | .abort signal => some (s.abort signal)
  | .writeEnds p ok => if (s.requests p).writing then some (s.writeEnds p ok) else none
  | .receives chunk =>
    if s.lines = [] ∧ s.readerDone = false then
      some { s with buf := (s.buf.push chunk).1, lines := (s.buf.push chunk).2 }
    else none
  | .dispatches =>
    match s.lines with
    | line :: lines => some (({ s with lines } : Connection).dispatchLine F W line)
    | [] => none
  | .readEnds error =>
    if s.lines = [] ∧ s.readerDone = false then some (s.readEnds error) else none
  | .close => some s.close

/-! ### What is claimed -/

/-- The response to a request, with the result. -/
def IsAnswer (s : Connection) (p : Nat) (result : JsValue) : Prop :=
  ∃ msg ∈ s.received, isJSONRPCResponse msg = true ∧ msg.get "result" = result ∧
    ∃ id, (s.requests p).id = some id ∧ isId id (msg.get "id") = true

/-- The map has the requests that are not settled, the others are settled once, and what resolves
a promise is the response to its request. -/
structure Settled (s : Connection) : Prop where
  pending : ∀ p, s.pends p = true ↔ p < s.nextRequest ∧ (s.requests p).settlements = []
  once : ∀ p < s.nextRequest, (s.requests p).settlements = [] ∨
    ∃ settlement, (s.requests p).settlements = [settlement]
  answered : ∀ p < s.nextRequest, ∀ result,
    .resolved result ∈ (s.requests p).settlements → IsAnswer s p result
  closed : s.writerClosed = true ∨ s.closedReason = true →
    ∀ p < s.nextRequest, (s.requests p).settlements ≠ []

/-- A request that is sent can be written, and a response to one that is pending has no error of
`null`. -/
def Served (F : NumberFormat) (W : Wording) (s : Connection) : ConnectionLabel → Prop
  | .request _ params signal =>
    s.writerClosed = false → s.closedReason = false → signal.any s.isAborted = false →
      params ≠ .unserializable
  | .dispatches =>
    ∀ line lines msg, s.lines = line :: lines → parseMessage F W line = .ok msg →
      isJSONRPCResponse msg = true → isJSONRPCErrorResponse msg = true →
        (∃ e ∈ s.pending, isId e.1 (msg.get "id") = true) →
          isNullish (msg.get "error") = false
  | _ => True

/-! ### The invariant -/

/-- Entries are under the identifiers of their requests, which are distinct. -/
structure Kept (s : Connection) : Prop where
  settled : Settled s
  entries : ∀ e ∈ s.pending, (s.requests e.2).id = some e.1
  ids : ∀ p q id, (s.requests p).id = some id → (s.requests q).id = some id → p = q
  fresh : ∀ p id, (s.requests p).id = some id → id < s.nextId
  unused : ∀ p, s.nextRequest ≤ p → (s.requests p).id = none
  empty : s.writerClosed = true ∨ s.closedReason = true → s.pending = []

variable {s t : Connection} {p : Nat}

theorem pends_iff : s.pends p = true ↔ ∃ id, (id, p) ∈ s.pending := by
  simp [Connection.pends, List.any_eq_true]

theorem kept_new : Kept {} where
  settled := {
    pending := fun p => by simp [Connection.pends]
    once := fun p hp => absurd hp (Nat.not_lt_zero p)
    answered := fun p hp => absurd hp (Nat.not_lt_zero p)
    closed := fun _ p hp => absurd hp (Nat.not_lt_zero p) }
  entries := by simp
  ids := by simp
  fresh := by simp
  unused := fun _ _ => rfl
  empty := fun _ => rfl

theorem IsAnswer.mono {result : JsValue} (h : IsAnswer s p result)
    (hreceived : ∀ msg ∈ s.received, msg ∈ t.received)
    (hid : (t.requests p).id = (s.requests p).id) : IsAnswer t p result := by
  obtain ⟨msg, hmem, hresponse, hresult, id, hown, heq⟩ := h
  exact ⟨msg, hreceived msg hmem, hresponse, hresult, id, hid.trans hown, heq⟩

/-- Some of the requests that were pending are settled, each as `out` says. -/
structure Settles (s t : Connection) (out : Nat → Option Settlement) : Prop where
  nextId : t.nextId = s.nextId
  nextRequest : t.nextRequest = s.nextRequest
  pending : ∀ e, e ∈ t.pending ↔ e ∈ s.pending ∧ out e.2 = none
  id : ∀ p, (t.requests p).id = (s.requests p).id
  settlements : ∀ p, (t.requests p).settlements =
    (s.requests p).settlements ++ if s.pends p then (out p).toList else []
  received : ∀ msg ∈ s.received, msg ∈ t.received
  answered : ∀ p result, s.pends p = true → out p = some (.resolved result) →
    IsAnswer t p result
  closed : t.writerClosed = true ∨ t.closedReason = true →
    (s.writerClosed = true ∨ s.closedReason = true) ∨ t.pending = []

variable {out : Nat → Option Settlement}

theorem Settles.pends (h : Settles s t out) :
    t.pends p = true ↔ s.pends p = true ∧ out p = none := by
  rw [pends_iff, pends_iff]
  constructor
  · rintro ⟨id, hmem⟩
    obtain ⟨hs, hout⟩ := (h.pending (id, p)).mp hmem
    exact ⟨⟨id, hs⟩, hout⟩
  · rintro ⟨⟨id, hs⟩, hout⟩
    exact ⟨id, (h.pending (id, p)).mpr ⟨hs, hout⟩⟩

theorem Settles.settled (hs : Settles s t out) (h : Settled s)
    (hempty : t.writerClosed = true ∨ t.closedReason = true → t.pending = []) : Settled t := by
  have hpending (p : Nat) :
      t.pends p = true ↔ p < t.nextRequest ∧ (t.requests p).settlements = [] := by
    rw [hs.pends, hs.nextRequest, hs.settlements]
    constructor
    · rintro ⟨hpends, hout⟩
      obtain ⟨hlt, hnil⟩ := (h.pending p).mp hpends
      rw [hout, hnil, if_pos hpends]
      exact ⟨hlt, rfl⟩
    · rintro ⟨hlt, hnil⟩
      obtain ⟨hbefore, hafter⟩ := List.append_eq_nil_iff.mp hnil
      have hpends := (h.pending p).mpr ⟨hlt, hbefore⟩
      rw [if_pos hpends] at hafter
      exact ⟨hpends, Option.toList_eq_nil_iff.mp hafter⟩
  refine ⟨hpending, fun p hlt => ?_, fun p hlt result hmem => ?_, fun hclosed p hlt hnil => ?_⟩
  · rw [hs.nextRequest] at hlt
    rw [hs.settlements]
    rcases h.once p hlt with hnil | ⟨settlement, hone⟩
    · have hpends := (h.pending p).mpr ⟨hlt, hnil⟩
      rw [hnil, if_pos hpends]
      cases out p with
      | none => exact .inl rfl
      | some settlement => exact .inr ⟨settlement, rfl⟩
    · have hpends : ¬ s.pends p = true := by
        intro hpends
        rw [((h.pending p).mp hpends).2] at hone
        cases hone
      rw [hone, if_neg hpends]
      exact .inr ⟨settlement, rfl⟩
  · rw [hs.nextRequest] at hlt
    rw [hs.settlements] at hmem
    rcases List.mem_append.mp hmem with hmem | hmem
    · exact (h.answered p hlt result hmem).mono hs.received (hs.id p)
    · split at hmem
      · rename_i hpends
        exact hs.answered p result hpends (Option.mem_toList.mp hmem)
      · cases hmem
  · obtain ⟨id, hmem⟩ := pends_iff.mp ((hpending p).mpr ⟨hlt, hnil⟩)
    rw [hempty hclosed] at hmem
    cases hmem

theorem Kept.settles (h : Kept s) (out : Nat → Option Settlement) (hs : Settles s t out) :
    Kept t := by
  have hempty : t.writerClosed = true ∨ t.closedReason = true → t.pending = [] := by
    intro hclosed
    rcases hs.closed hclosed with hbefore | hnil
    · refine List.eq_nil_iff_forall_not_mem.mpr fun e he => ?_
      have hmem := ((hs.pending e).mp he).1
      rw [h.empty hbefore] at hmem
      cases hmem
    · exact hnil
  refine ⟨hs.settled h.settled hempty, fun e he => ?_, fun p q id => ?_, fun p id => ?_,
    fun p hp => ?_, hempty⟩
  · rw [hs.id]
    exact h.entries e ((hs.pending e).mp he).1
  · rw [hs.id, hs.id]
    exact h.ids p q id
  · rw [hs.id, hs.nextId]
    exact h.fresh p id
  · rw [hs.id]
    exact h.unused p (hs.nextRequest ▸ hp)

/-- Steps that settle nothing. -/
theorem settles_none (hpending : t.pending = s.pending) (hid : t.nextId = s.nextId)
    (hrequest : t.nextRequest = s.nextRequest)
    (hrequests : ∀ p, (t.requests p).id = (s.requests p).id ∧
      (t.requests p).settlements = (s.requests p).settlements)
    (hreceived : ∀ msg ∈ s.received, msg ∈ t.received)
    (hclosed : t.writerClosed = s.writerClosed ∧ t.closedReason = s.closedReason) :
    Settles s t fun _ => none where
  nextId := hid
  nextRequest := hrequest
  pending e := by rw [hpending, and_iff_left rfl]
  id p := (hrequests p).1
  settlements p := by
    rw [(hrequests p).2]
    split <;> exact (List.append_nil _).symm
  received := hreceived
  answered _ _ _ hout := by cases hout
  closed h := .inl (by rwa [hclosed.1, hclosed.2] at h)

theorem Kept.emit (h : Kept s) (effect : Effect) : Kept (s.emit effect) :=
  h.settles _ (settles_none rfl rfl rfl (fun _ => ⟨rfl, rfl⟩) (fun _ hmem => hmem) ⟨rfl, rfl⟩)

/-! ### Requests -/

theorem Kept.pends_lt (h : Kept s) (hp : s.pends p = true) : p < s.nextRequest :=
  ((h.settled.pending p).mp hp).1

theorem Kept.refuse (h : Kept s) {settlement : Settlement}
    (hsettlement : ∀ result, settlement ≠ .resolved result) : Kept (s.refuse settlement) := by
  have hself : (s.refuse settlement).requests s.nextRequest = { settlements := [settlement] } :=
    Function.update_self ..
  have hother {p : Nat} (hp : p ≠ s.nextRequest) :
      (s.refuse settlement).requests p = s.requests p :=
    Function.update_of_ne hp ..
  have hpends (p : Nat) : (s.refuse settlement).pends p = s.pends p := rfl
  have hlast : s.pends s.nextRequest ≠ true := fun hp => Nat.lt_irrefl _ (h.pends_lt hp)
  have hlt {p : Nat} (hp : p < (s.refuse settlement).nextRequest) :
      p = s.nextRequest ∨ p ≠ s.nextRequest ∧ p < s.nextRequest := by
    have hle : p < s.nextRequest + 1 := hp
    omega
  have hid {p id : Nat} (hown : ((s.refuse settlement).requests p).id = some id) :
      p ≠ s.nextRequest ∧ (s.requests p).id = some id := by
    by_cases hp : p = s.nextRequest
    · subst hp
      rw [hself] at hown
      cases hown
    · exact ⟨hp, by rwa [hother hp] at hown⟩
  refine ⟨⟨fun p => ?_, fun p hp => ?_, fun p hp result hmem => ?_, fun hclosed p hp => ?_⟩,
    fun e he => ?_, fun p q id hp hq => ?_, fun p id hp => ?_, fun p hp => ?_, h.empty⟩
  · rw [hpends]
    by_cases hp : p = s.nextRequest
    · subst hp
      rw [hself]
      exact iff_of_false hlast (by simp)
    · have hbound : p < (s.refuse settlement).nextRequest ↔ p < s.nextRequest := by
        change p < s.nextRequest + 1 ↔ p < s.nextRequest
        omega
      rw [hother hp, hbound]
      exact h.settled.pending p
  · rcases hlt hp with rfl | ⟨hne, hp⟩
    · rw [hself]
      exact .inr ⟨settlement, rfl⟩
    · rw [hother hne]
      exact h.settled.once p hp
  · rcases hlt hp with rfl | ⟨hne, hp⟩
    · rw [hself] at hmem
      exact absurd (List.mem_singleton.mp hmem).symm (hsettlement result)
    · rw [hother hne] at hmem
      exact (h.settled.answered p hp result hmem).mono (fun _ hmsg => hmsg) (by rw [hother hne])
  · rcases hlt hp with rfl | ⟨hne, hp⟩
    · rw [hself]
      exact List.cons_ne_nil _ _
    · rw [hother hne]
      exact h.settled.closed hclosed p hp
  · have hne : e.2 ≠ s.nextRequest :=
      Nat.ne_of_lt (h.pends_lt (pends_iff.mpr ⟨e.1, he⟩))
    rw [hother hne]
    exact h.entries e he
  · exact h.ids p q id (hid hp).2 (hid hq).2
  · exact h.fresh p id (hid hp).2
  · have hle : s.nextRequest + 1 ≤ p := hp
    rw [hother (by omega)]
    exact h.unused p (by omega)

/-- A request that is sent: it has the next identifier and is pending. -/
structure Sent (s t : Connection) : Prop where
  nextId : t.nextId = s.nextId + 1
  nextRequest : t.nextRequest = s.nextRequest + 1
  pending : t.pending = s.pending ++ [(s.nextId, s.nextRequest)]
  id : (t.requests s.nextRequest).id = some s.nextId
  settlements : (t.requests s.nextRequest).settlements = []
  requests : ∀ p, p ≠ s.nextRequest → t.requests p = s.requests p
  received : t.received = s.received
  isOpen : ¬ (t.writerClosed = true ∨ t.closedReason = true)

theorem sent_setRequest {r : Request} (hid : r.id = some s.nextId)
    (hsettlements : r.settlements = [])
    (hopen : ¬ (s.writerClosed = true ∨ s.closedReason = true)) :
    Sent s (Connection.setRequest
      { s with
        nextId := s.nextId + 1
        nextRequest := s.nextRequest + 1
        pending := s.pending ++ [(s.nextId, s.nextRequest)] } s.nextRequest r) := by
  refine ⟨rfl, rfl, rfl, ?_, ?_, fun p hp => ?_, rfl, hopen⟩
  · rw [Connection.setRequest]
    dsimp only
    rw [Function.update_self, hid]
  · rw [Connection.setRequest]
    dsimp only
    rw [Function.update_self, hsettlements]
  · exact Function.update_of_ne hp ..

theorem Kept.sent (h : Kept s) (hs : Sent s t) : Kept t := by
  have hpends (p : Nat) : t.pends p = true ↔ s.pends p = true ∨ p = s.nextRequest := by
    rw [pends_iff, pends_iff, hs.pending]
    simp [exists_or]
  have hlt {p : Nat} (hp : p < t.nextRequest) :
      p = s.nextRequest ∨ p ≠ s.nextRequest ∧ p < s.nextRequest := by
    rw [hs.nextRequest] at hp
    omega
  have hid {p id : Nat} (hown : (t.requests p).id = some id) :
      p = s.nextRequest ∧ id = s.nextId ∨ p ≠ s.nextRequest ∧ (s.requests p).id = some id := by
    by_cases hp : p = s.nextRequest
    · subst hp
      rw [hs.id] at hown
      exact .inl ⟨rfl, (Option.some.inj hown).symm⟩
    · exact .inr ⟨hp, by rwa [hs.requests p hp] at hown⟩
  refine ⟨⟨fun p => ?_, fun p hp => ?_, fun p hp result hmem => ?_, fun hclosed p hp => ?_⟩,
    fun e he => ?_, fun p q id hp hq => ?_, fun p id hp => ?_, fun p hp => ?_, fun hclosed => ?_⟩
  · rw [hpends]
    by_cases hp : p = s.nextRequest
    · subst hp
      exact iff_of_true (.inr rfl) ⟨by rw [hs.nextRequest]; omega, hs.settlements⟩
    · have hbound : p < t.nextRequest ↔ p < s.nextRequest := by
        rw [hs.nextRequest]
        omega
      rw [or_iff_left hp, hs.requests p hp, hbound]
      exact h.settled.pending p
  · rcases hlt hp with rfl | ⟨hne, hp⟩
    · exact .inl hs.settlements
    · rw [hs.requests p hne]
      exact h.settled.once p hp
  · rcases hlt hp with rfl | ⟨hne, hp⟩
    · rw [hs.settlements] at hmem
      cases hmem
    · rw [hs.requests p hne] at hmem
      exact (h.settled.answered p hp result hmem).mono (fun msg hmsg => by rwa [hs.received])
        (by rw [hs.requests p hne])
  · exact absurd hclosed hs.isOpen
  · rw [hs.pending] at he
    rcases List.mem_append.mp he with he | he
    · have hne : e.2 ≠ s.nextRequest :=
        Nat.ne_of_lt (h.pends_lt (pends_iff.mpr ⟨e.1, he⟩))
      rw [hs.requests _ hne]
      exact h.entries e he
    · obtain rfl := List.mem_singleton.mp he
      exact hs.id
  · rcases hid hp with ⟨rfl, rfl⟩ | ⟨hpne, hp⟩ <;> rcases hid hq with ⟨rfl, hnew⟩ | ⟨hqne, hq⟩
    · rfl
    · exact absurd (h.fresh q _ hq) (Nat.lt_irrefl _)
    · subst hnew
      exact absurd (h.fresh p _ hp) (Nat.lt_irrefl _)
    · exact h.ids p q id hp hq
  · rw [hs.nextId]
    rcases hid hp with ⟨-, rfl⟩ | ⟨-, hp⟩
    · exact Nat.lt_succ_self _
    · exact Nat.lt_succ_of_lt (h.fresh p id hp)
  · rw [hs.nextRequest] at hp
    rw [hs.requests p (by omega)]
    exact h.unused p (by omega)
  · exact absurd hclosed hs.isOpen

/-! ### Settling -/

/-- Entries of one request are the same. -/
theorem Kept.entry_iff (h : Kept s) {id : Nat} (hmem : (id, p) ∈ s.pending) {e : Nat × Nat}
    (he : e ∈ s.pending) : e.1 = id ↔ e.2 = p := by
  have hown := h.entries e he
  have hp := h.entries (id, p) hmem
  constructor
  · rintro rfl
    exact h.ids e.2 p e.1 hown hp
  · rintro rfl
    exact Option.some.inj (hown.symm.trans hp)

/-- One request is taken from the map and settled. -/
theorem Kept.settle (h : Kept s) {id : Nat} (hmem : (id, p) ∈ s.pending) {settlement : Settlement}
    (hanswered : ∀ result, settlement = .resolved result → IsAnswer s p result) :
    Kept ((s.delete id p).settle p settlement) := by
  have hpends : s.pends p = true := pends_iff.mpr ⟨id, hmem⟩
  have hother {q : Nat} (hq : q ≠ p) :
      ((s.delete id p).settle p settlement).requests q = s.requests q :=
    (Function.update_of_ne hq ..).trans (Function.update_of_ne hq ..)
  have hself : ((s.delete id p).settle p settlement).requests p =
      { s.requests p with
        listening := false
        settlements := (s.requests p).settlements ++ [settlement] } := by
    simp [Connection.settle, Connection.delete, Connection.setRequest]
  have hid (q : Nat) : (((s.delete id p).settle p settlement).requests q).id =
      (s.requests q).id := by
    by_cases hq : q = p
    · subst hq
      rw [hself]
    · rw [hother hq]
  refine h.settles (fun q => if q = p then some settlement else none)
    ⟨rfl, rfl, fun e => ?_, hid, fun q => ?_, fun _ hmsg => hmsg, fun q result _ hout => ?_, .inl⟩
  · have hfilter : e ∈ ((s.delete id p).settle p settlement).pending ↔
        e ∈ s.pending ∧ e.1 ≠ id := by
      simp [Connection.settle, Connection.delete, Connection.setRequest]
    rw [hfilter]
    refine and_congr_right fun he => ?_
    rw [ne_eq, h.entry_iff hmem he]
    split <;> simp [*]
  · by_cases hq : q = p
    · subst hq
      rw [hself, if_pos hpends, if_pos rfl]
      rfl
    · rw [hother hq, if_neg hq]
      split <;> exact (List.append_nil _).symm
  · by_cases hq : q = p
    · subst hq
      rw [if_pos rfl] at hout
      exact (hanswered result (Option.some.inj hout)).mono (fun _ hmsg => hmsg) (hid q)
    · rw [if_neg hq] at hout
      cases hout

theorem Kept.abort (h : Kept s) (signal : Nat) : Kept (s.abort signal) := by
  refine h.settles (fun p =>
      if (s.requests p).signal = some signal && (s.requests p).listening then some .aborted
      else none)
    ⟨rfl, rfl, fun e => ?_, fun p => ?_, fun p => ?_, fun _ hmsg => hmsg,
      fun p result _ hout => ?_, .inl⟩
  · rw [Connection.abort, List.mem_filter]
    refine and_congr_right fun _ => ?_
    dsimp only
    split <;> simp [*]
  · rw [Connection.abort]
    dsimp only
    split <;> rfl
  · rw [Connection.abort]
    dsimp only
    split
    · split <;> rfl
    · split <;> exact (List.append_nil _).symm
  · split at hout <;> cases hout

/-- Every pending request is rejected, and the connection is closed. -/
theorem Kept.rejectAll (h : Kept s) (hempty : t.pending = []) (hid : t.nextId = s.nextId)
    (hrequest : t.nextRequest = s.nextRequest) (hrequests : t.requests = s.rejectAll.requests)
    (hreceived : t.received = s.received) : Kept t := by
  have hown (p : Nat) : t.requests p = if s.pends p then
      { s.requests p with
        listening := false
        settlements := (s.requests p).settlements ++ [.closed] }
    else s.requests p := by
    rw [hrequests]
    rfl
  refine h.settles (fun _ => some .closed)
    ⟨hid, hrequest, fun e => ?_, fun p => ?_, fun p => ?_, fun msg hmsg => by rwa [hreceived],
      fun p result _ hout => ?_, fun _ => .inr hempty⟩
  · rw [hempty]
    simp
  · rw [hown]
    split <;> rfl
  · rw [hown]
    split
    · rfl
    · exact (List.append_nil _).symm
  · cases hout

/-! ### Steps -/

/-- A call of `request` on an open connection, with a signal that is not aborted. -/
theorem request_open (method : String) {params : Params} {signal : Option Nat}
    (hwriter : s.writerClosed = false) (hreason : s.closedReason = false)
    (hsignal : signal.any s.isAborted = false) :
    s.request method params signal =
      match encodeRequest s.nextId method params with
      | none => Connection.setRequest
          { s with
            nextId := s.nextId + 1
            nextRequest := s.nextRequest + 1
            pending := s.pending ++ [(s.nextId, s.nextRequest)] }
          s.nextRequest
          { id := some s.nextId, signal, listening := signal.isSome, settlements := [.threw] }
      | some bytes => (Connection.setRequest
          { s with
            nextId := s.nextId + 1
            nextRequest := s.nextRequest + 1
            pending := s.pending ++ [(s.nextId, s.nextRequest)] }
          s.nextRequest
          { id := some s.nextId, signal, listening := signal.isSome, writing := true }).emit
            (.wrote bytes) := by
  rw [Connection.request, if_neg (by simp [hwriter, hreason]), if_neg (by simp [hsignal])]

theorem encodeRequest_value (id : Nat) (method : String) (params : JsValue) :
    ∃ bytes, encodeRequest id method (.value params) = some bytes :=
  ⟨_, rfl⟩

theorem Kept.request (h : Kept s) (method : String) {params : Params} {signal : Option Nat}
    (hserved : s.writerClosed = false → s.closedReason = false →
      signal.any s.isAborted = false → params ≠ .unserializable) :
    Kept (s.request method params signal) := by
  by_cases hclosed : s.writerClosed = true ∨ s.closedReason = true
  · rw [Connection.request, if_pos hclosed]
    exact h.refuse fun _ heq => by cases heq
  by_cases hsignal : signal.any s.isAborted = true
  · rw [Connection.request, if_neg hclosed, if_pos hsignal]
    exact h.refuse fun _ heq => by cases heq
  · have hopen := hclosed
    simp only [not_or, Bool.not_eq_true] at hopen hsignal
    cases params with
    | unserializable => exact absurd rfl (hserved hopen.1 hopen.2 hsignal)
    | value params =>
      obtain ⟨bytes, hbytes⟩ := encodeRequest_value s.nextId method params
      rw [request_open method hopen.1 hopen.2 hsignal, hbytes]
      exact (h.sent (sent_setRequest rfl rfl hclosed)).emit _

theorem Kept.writeEnds (h : Kept s) (p : Nat) (ok : Bool) : Kept (s.writeEnds p ok) := by
  have hwritten : Kept (s.setRequest p { s.requests p with writing := false }) := by
    refine h.settles _ (settles_none rfl rfl rfl (fun q => ?_) (fun _ hmsg => hmsg) ⟨rfl, rfl⟩)
    by_cases hq : q = p
    · subst hq
      rw [Connection.setRequest]
      dsimp only
      rw [Function.update_self]
      exact ⟨rfl, rfl⟩
    · rw [Connection.setRequest]
      dsimp only
      rw [Function.update_of_ne hq]
      exact ⟨rfl, rfl⟩
  unfold Connection.writeEnds
  split
  · rename_i id hid
    dsimp only
    split
    · rename_i hfails
      obtain ⟨e, he, hown⟩ := List.any_eq_true.mp hfails.2
      have hentry : (id, p) ∈ s.pending := by
        have hsame := h.entries e he
        rw [of_decide_eq_true hown] at hsame
        rw [← of_decide_eq_true hown, ← h.ids e.2 p id hsame hid]
        exact he
      exact hwritten.settle hentry fun _ heq => by cases heq
    · exact hwritten
  · exact hwritten

variable {F : NumberFormat} {W : Wording}

theorem Kept.respond (h : Kept s) {msg : JsValue} (hmsg : msg ∈ s.received)
    (hresponse : isJSONRPCResponse msg = true)
    (hserved : isJSONRPCErrorResponse msg = true →
      (∃ e ∈ s.pending, isId e.1 (msg.get "id") = true) → isNullish (msg.get "error") = false) :
    Kept (s.respond W msg) := by
  unfold Connection.respond
  split
  · exact h.emit _
  · split
    · exact h.emit _
    · rename_i id p hfind
      have hmem := List.mem_of_find?_eq_some hfind
      have hid := List.find?_some hfind
      dsimp only
      split
      · rename_i herror
        rw [if_neg (by rw [hserved herror ⟨(id, p), hmem, hid⟩]; exact Bool.false_ne_true)]
        exact h.settle hmem fun _ heq => by cases heq
      · refine h.settle hmem fun result heq => ?_
        obtain rfl := Settlement.resolved.inj heq
        exact ⟨msg, hmsg, hresponse, rfl, id, h.entries (id, p) hmem, hid⟩

theorem Kept.dispatchLine (h : Kept s) {line : List Char}
    (hserved : ∀ msg, parseMessage F W line = .ok msg → isJSONRPCResponse msg = true →
      isJSONRPCErrorResponse msg = true → (∃ e ∈ s.pending, isId e.1 (msg.get "id") = true) →
        isNullish (msg.get "error") = false) :
    Kept (s.dispatchLine F W line) := by
  unfold Connection.dispatchLine
  split
  · exact h.emit _
  · rename_i msg hparse
    have hreceived : Kept { s with received := s.received ++ [msg] } :=
      h.settles _ (settles_none rfl rfl rfl (fun _ => ⟨rfl, rfl⟩)
        (fun _ hmem => List.mem_append_left _ hmem) ⟨rfl, rfl⟩)
    unfold Connection.dispatch
    split
    · rename_i hresponse
      exact hreceived.respond (List.mem_append_right _ (List.mem_singleton_self msg)) hresponse
        (hserved msg hparse hresponse)
    · split
      · exact hreceived.emit _
      · split
        · unfold Connection.writeReply
          split
          · exact hreceived.emit _
          · split
            · exact hreceived.emit _
            · exact hreceived
        · exact hreceived.emit _

theorem Kept.step {label : ConnectionLabel} (h : Kept s) (hserved : Served F W s label)
    (hstep : connectionStep F W s label = some t) : Kept t := by
  cases label with
  | request method params signal =>
    obtain rfl := Option.some.inj hstep
    exact h.request method hserved
  | abort signal =>
    obtain rfl := Option.some.inj hstep
    exact h.abort signal
  | writeEnds p ok =>
    rw [connectionStep] at hstep
    split at hstep
    · obtain rfl := Option.some.inj hstep
      exact h.writeEnds p ok
    · cases hstep
  | receives chunk =>
    rw [connectionStep] at hstep
    split at hstep
    · obtain rfl := Option.some.inj hstep
      exact h.settles _ (settles_none rfl rfl rfl (fun _ => ⟨rfl, rfl⟩) (fun _ hmem => hmem)
        ⟨rfl, rfl⟩)
    · cases hstep
  | dispatches =>
    rw [connectionStep] at hstep
    split at hstep
    · rename_i line lines hlines
      obtain rfl := Option.some.inj hstep
      have hkept : Kept { s with lines } :=
        h.settles _ (settles_none rfl rfl rfl (fun _ => ⟨rfl, rfl⟩) (fun _ hmem => hmem)
          ⟨rfl, rfl⟩)
      exact hkept.dispatchLine fun msg => hserved line lines msg hlines
    · cases hstep
  | readEnds error =>
    rw [connectionStep] at hstep
    split at hstep
    · obtain rfl := Option.some.inj hstep
      exact h.rejectAll rfl rfl rfl rfl rfl
    · cases hstep
  | close =>
    obtain rfl := Option.some.inj hstep
    unfold Connection.close
    split
    · exact h
    · exact h.rejectAll rfl rfl rfl rfl rfl

/-! ### What is not served -/

/-- A promise that is settled while its request stays in the map. -/
theorem not_settled_request (method : String) {signal : Option Nat}
    (hwriter : s.writerClosed = false) (hreason : s.closedReason = false)
    (hsignal : signal.any s.isAborted = false) :
    ¬ Settled (s.request method .unserializable signal) := by
  intro h
  rw [request_open method hwriter hreason hsignal] at h
  have hsettlements := ((h.pending s.nextRequest).mp
    (pends_iff.mpr ⟨s.nextId, List.mem_append_right _ (List.mem_singleton_self _)⟩)).2
  rw [encodeRequest, Connection.setRequest] at hsettlements
  dsimp only at hsettlements
  rw [Function.update_self] at hsettlements
  cases hsettlements

/-- A request that leaves the map while its promise is not settled. -/
theorem Kept.not_settled_respond (h : Kept s) {msg : JsValue}
    (herror : isJSONRPCErrorResponse msg = true) (hnull : isNullish (msg.get "error") = true)
    (hpending : ∃ e ∈ s.pending, isId e.1 (msg.get "id") = true) : ¬ Settled (s.respond W msg) := by
  intro ht
  have hid : isNull (msg.get "id") = false := by
    obtain ⟨e, -, he⟩ := hpending
    cases hvalue : msg.get "id" <;> rw [hvalue] at he <;> first | rfl | cases he
  unfold Connection.respond at ht
  rw [if_neg (by rw [hid]; exact Bool.false_ne_true)] at ht
  split at ht
  · rename_i hfind
    obtain ⟨e, he, hown⟩ := hpending
    exact List.find?_eq_none.mp hfind e he hown
  · rename_i id p hfind
    have hmem := List.mem_of_find?_eq_some hfind
    have hpends : s.pends p = true := pends_iff.mpr ⟨id, hmem⟩
    obtain ⟨hlt, hnil⟩ := (h.settled.pending p).mp hpends
    dsimp only at ht
    rw [if_pos herror, if_pos hnull] at ht
    have hsettlements : (((s.delete id p).emit (.errored W.nullProperty)).requests p).settlements =
        [] := by
      rw [Connection.emit, Connection.delete, Connection.setRequest]
      dsimp only
      rw [Function.update_self, hnil]
    obtain ⟨id', hleft⟩ := pends_iff.mp ((ht.pending p).mpr ⟨hlt, hsettlements⟩)
    have hfilter : (id', p) ∈ s.pending ∧ id' ≠ id := by
      simpa [Connection.emit, Connection.delete, Connection.setRequest] using hleft
    exact hfilter.2 ((h.entry_iff hmem hfilter.1).mpr rfl)

theorem Kept.served {label : ConnectionLabel} (h : Kept s)
    (hstep : connectionStep F W s label = some t) (ht : Settled t) : Served F W s label := by
  cases label with
  | request method params signal =>
    obtain rfl := Option.some.inj hstep
    rintro hwriter hreason hsignal rfl
    exact not_settled_request method hwriter hreason hsignal ht
  | dispatches =>
    intro line lines msg hlines hparse hresponse herror hpending
    rw [connectionStep, hlines] at hstep
    obtain rfl := Option.some.inj hstep
    have hkept : Kept { s with lines, received := s.received ++ [msg] } :=
      h.settles _ (settles_none rfl rfl rfl (fun _ => ⟨rfl, rfl⟩)
        (fun _ hmem => List.mem_append_left _ hmem) ⟨rfl, rfl⟩)
    rw [Connection.dispatchLine, hparse] at ht
    dsimp only at ht
    rw [Connection.dispatch, if_pos hresponse] at ht
    by_contra hnull
    exact hkept.not_settled_respond herror (Bool.not_eq_false _ ▸ hnull) hpending ht
  | _ => trivial

/-- In exactly the runs whose requests are served, every state is settled. -/
theorem run_settled_iff (labels : List ConnectionLabel) (s : Connection) :
    Run (connectionStep F W) (Leads (connectionStep F W) fun _ t => Settled t) {} labels s ↔
      Run (connectionStep F W) (Served F W) {} labels s := by
  refine Run.leads_iff kept_new fun s label t hs hstep => ⟨⟨?_, ?_⟩, ?_⟩
  · exact hs.served hstep
  · exact fun hserved => (hs.step hserved hstep).settled
  · exact fun ht => hs.step (hs.served hstep ht) hstep

/-- Messages that are encoded are parsed again, whatever chunks their bytes come in. -/
def FramesRoundTrip (F : NumberFormat) (W : Wording) : Prop :=
  ∀ (messages : List (Message F)) (encoded chunks : List Utf8.Bytes),
    messages.mapM (fun msg => encodeMessage msg.value) = some encoded →
      chunks.flatten = encoded.flatten →
        (({} : LineBuffer).pushAll chunks).map (parseMessage F W) =
          messages.map fun msg => .ok msg.value

theorem mapM_encodeMessage (messages : List (Message F)) :
    messages.mapM (fun msg => encodeMessage msg.value) =
      some (messages.map fun msg => Utf8.encode (msg.text ++ ['\n'])) := by
  induction messages with
  | nil => rfl
  | cons msg messages ih =>
    rw [List.mapM_cons, msg.encodeMessage_value, ih]
    rfl

theorem framesRoundTrip (F : NumberFormat) (W : Wording) : FramesRoundTrip F W := by
  intro messages encoded chunks hencoded hchunks
  have hbytes : encoded = messages.map fun msg => Utf8.encode (msg.text ++ ['\n']) :=
    Option.some.inj (hencoded.symm.trans (mapM_encodeMessage messages))
  have hlines : chunks.flatten =
      messages.flatMap fun msg => Utf8.encode (msg.text ++ ['\n']) := by
    rw [hchunks, hbytes, List.flatMap_def]
  rw [lines_of_chunks hlines, List.map_map]
  refine List.map_congr_left fun msg _ => ?_
  rw [Function.comp_apply]
  exact msg.parseMessage_text W

/-- **The runs in which every request is settled.**  The lines of messages are read back in any
case.  In every state of a run, each promise is settled once if its request is not in the map, and
not at all if it is, just if the run sends no request that cannot be written, and gets no response
with an error of `null` to a request that is pending. -/
theorem framed_and_settled_iff (F : NumberFormat) (W : Wording) :
    FramesRoundTrip F W ∧ ∀ labels s,
      Run (connectionStep F W) (Leads (connectionStep F W) fun _ t => Settled t) {} labels s ↔
        Run (connectionStep F W) (Served F W) {} labels s :=
  ⟨framesRoundTrip F W, run_settled_iff⟩

/-! ### A response with an error of null -/

def exactNumbers : NumberFormat := ⟨fun _ => True, some, reads_itself, fun _ _ => trivial⟩

def nullErrorFields : List (String × Json) :=
  [("jsonrpc", .str "2.0"), ("id", .num (.ofInt 1)), ("result", .bool true), ("error", .null)]

theorem nullErrorFields_listed : Listed nullErrorFields :=
  (show Names ["jsonrpc", "id", "result", "error"] by decide).listed rfl

def nullError : Message exactNumbers where
  json := .obj nullErrorFields
  proper := ⟨⟨trivial, trivial, trivial, trivial, trivial⟩, nullErrorFields_listed⟩
  version := by
    rw [evaluate_obj nullErrorFields_listed]
    rfl

theorem nullError_value : nullError.value =
    .obj [("jsonrpc", .str "2.0"), ("id", .num (.ofInt 1)), ("result", .bool true),
      ("error", .null)] :=
  evaluate_obj nullErrorFields_listed

/-- The response, as it arrives. -/
def nullErrorBytes : Utf8.Bytes := Utf8.encode (nullError.text ++ ['\n'])

theorem push_nullErrorBytes : (({} : LineBuffer).push nullErrorBytes).2 = [nullError.text] := by
  have hbytes : [nullErrorBytes].flatten =
      [nullError].flatMap fun msg => Utf8.encode (msg.text ++ ['\n']) := by
    rw [List.flatMap_singleton, List.flatten_singleton]
    rfl
  have hlines := lines_of_chunks hbytes
  rw [LineBuffer.pushAll, LineBuffer.pushAll, List.append_nil] at hlines
  exact hlines

/-- A connection with one request. -/
def pinged : Connection := ({} : Connection).request "ping" (.value .undefined) none

/-- The request is gone from the map, and nobody hears of it. -/
theorem null_error_unsettled :
    ¬ ∀ (F : NumberFormat) (W : Wording), FramesRoundTrip F W ∧
      ∀ labels s, Run (connectionStep F W) Any {} labels s → Settled s := by
  intro h
  have hwording : Nonempty Wording := ⟨⟨fun _ => "", "", fun _ => ""⟩⟩
  obtain ⟨W⟩ := hwording
  have hsettled := (h exactNumbers W).2
  have hrequest : connectionStep exactNumbers W {} (.request "ping" (.value .undefined) none) =
      some pinged := rfl
  have hreceives : connectionStep exactNumbers W pinged (.receives nullErrorBytes) =
      some { pinged with
        buf := (({} : LineBuffer).push nullErrorBytes).1
        lines := [nullError.text] } := by
    have hfree : pinged.lines = [] ∧ pinged.readerDone = false := ⟨rfl, rfl⟩
    rw [← push_nullErrorBytes, connectionStep, if_pos hfree]
    rfl
  have hpinged : Kept pinged := kept_new.request "ping" (by simp)
  have hserves : Served exactNumbers W pinged (.receives nullErrorBytes) := trivial
  have hkept := hpinged.step hserves hreceives
  have hstep : connectionStep exactNumbers W
      { pinged with
        buf := (({} : LineBuffer).push nullErrorBytes).1
        lines := [nullError.text] } .dispatches = some _ := rfl
  have hrun := Run.snoc (.snoc (.snoc (.nil (C := Any)) trivial hrequest) trivial hreceives)
    trivial hstep
  have hserved := hkept.served hstep (hsettled _ _ hrun)
  have hnull := hserved nullError.text [] nullError.value rfl (nullError.parseMessage_text W)
    (by rw [nullError_value]; rfl) (by rw [nullError_value]; rfl)
    ⟨(1, 0), List.mem_singleton_self _, by rw [nullError_value]; rfl⟩
  rw [nullError_value] at hnull
  cases hnull

end Declaragent.Mcp.JsonRpc
