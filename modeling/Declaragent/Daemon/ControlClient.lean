import Declaragent.Daemon.ControlSocket
import Declaragent.Library.Directory

/-!
# Daemon — a client of the control socket

The calls of a client share a connection.  A call is pending under its id, until a response with
that id comes or the socket is closed.  The other side answers each request once, in any order and
with anything, and its responses come in any chunks.

* `clientStep`: the calls, the responses, and the end of the connection, at any time.
* `settles_iff`: every call is settled once and with its own response, exactly if no call is made
  while another of its id is pending.
* `answered_iff`: the two sides of the socket.
-/

namespace Declaragent.Daemon
open JsonText Transition Events
open Directory (remove lookup_remove_self lookup_remove_of_ne)

structure ClientCall where
  request : ControlSocketRequest
  /-- What its promise is settled with. -/
  outcomes : List JsValue := []

structure ControlClient where
  decoder : NDJSONDecoder := {}
  /-- The calls that wait, by their ids: a `Map`. -/
  pending : List (String × Nat) := []
  closed : Bool := false
  /-- The socket has emitted `close`. -/
  ended : Bool := false
  calls : List ClientCall := []
  /-- The calls whose requests the other side has not answered. -/
  asked : List Nat := []
  /-- The responses that the other side has written, and to which calls. -/
  answers : List (Nat × ControlSocketResponse) := []
  /-- What is written and has not come yet. -/
  wire : List Char := []

def socketClosed (id op message : String) : JsValue :=
  ControlSocketResponse.toValue
    { id, op, body := .error { code := "ESOCKETCLOSED", message } }

namespace ControlClient

/-- `resolver(value)` -/
def settle (calls : List ClientCall) (n : Nat) (value : JsValue) : List ClientCall :=
  calls.modify n fun call => { call with outcomes := call.outcomes ++ [value] }

def call (client : ControlClient) (request : ControlSocketRequest) : ControlClient :=
  if client.closed then
    { client with calls := client.calls ++
        [{ request,
           outcomes := [socketClosed request.id request.op.text "control socket is closed"] }] }
  else
    { client with
      calls := client.calls ++ [{ request }]
      pending := put request.id client.calls.length client.pending
      asked := client.asked ++ [client.calls.length] }

/-- An entry of a chunk. -/
def onEntry (client : ControlClient) (entry : JsValue) : ControlClient :=
  match idOf? entry with
  | none => client
  | some id =>
    match client.pending.lookup id with
    | none => client
    | some n =>
      { client with
        pending := remove id client.pending
        calls := settle client.calls n entry }

def onData (F : NumberFormat) (client : ControlClient) (chunk : List Char) : ControlClient :=
  let (entries, decoder) := client.decoder.push F chunk
  entries.foldl onEntry { client with decoder }

def onClose (client : ControlClient) : ControlClient :=
  let message := "control socket closed before response"
  { client with
    closed := true
    ended := true
    calls := client.pending.foldl
      (fun calls entry => settle calls entry.2 (socketClosed entry.1 "ping" message)) client.calls
    pending := [] }

end ControlClient

inductive ClientAct where
  | call (request : ControlSocketRequest)
  /-- The other side writes the response to a call. -/
  | answers (n : Nat) (op : String) (body : Except ControlSocketErrorBody JsValue)
  /-- Some of what is written comes. -/
  | data (count : Nat)
  | close
  | closes

def clientStep (F : NumberFormat) (client : ControlClient) : ClientAct → Option ControlClient
  | .call request => some (client.call request)
  | .answers n op body =>
    match client.calls[n]? with
    | some call =>
      if n ∈ client.asked ∧ client.ended = false then
        let response : ControlSocketResponse := { id := call.request.id, op, body }
        some { client with
          asked := client.asked.erase n
          answers := client.answers ++ [(n, response)]
          wire := client.wire ++ encodeControlSocketMessage response.toValue }
      else none
    | none => none
  | .data count =>
    if client.ended then none
    else some ({ client with wire := client.wire.drop count }.onData F (client.wire.take count))
  | .close => some { client with closed := true }
  | .closes => if client.ended then none else some client.onClose

/-! ### Every call is settled -/

/-- A call that is not settled is pending, so a response with its id settles it, or the end of the
connection. -/
def Registered (client : ControlClient) : Prop :=
  ∀ n call, client.calls[n]? = some call → call.outcomes = [] →
    client.pending.lookup call.request.id = some n

/-- The outcome is the response to the call, or the error of a closed socket. -/
def IsOwn (F : NumberFormat) (client : ControlClient) (n : Nat) (call : ClientCall)
    (outcome : JsValue) : Prop :=
  (∃ response, (n, response) ∈ client.answers ∧ outcome = received F response.toValue) ∨
    ∃ op message, outcome = socketClosed call.request.id op message

structure CallsSettle (F : NumberFormat) (client : ControlClient) : Prop where
  registered : Registered client
  once : ∀ call ∈ client.calls, call.outcomes.length ≤ 1
  own : ∀ n call, client.calls[n]? = some call → ∀ outcome ∈ call.outcomes,
    IsOwn F client n call outcome
  /-- Where everything has come that was written, the calls that were answered are settled. -/
  answered : client.decoder.buffer = [] → client.wire = [] → ∀ p ∈ client.answers,
    ∃ call, client.calls[p.1]? = some call ∧ call.outcomes ≠ []
  ended : client.ended = true → ∀ call ∈ client.calls, call.outcomes ≠ []

/-- No call is made while another of its id is pending. -/
def FreshId (client : ControlClient) : ClientAct → Prop
  | .call request => client.closed = false → client.pending.lookup request.id = none
  | _ => True

/-! ### The text of a response -/

variable {F : NumberFormat} {client client' : ControlClient}

/-- The properties of a response. -/
def responseProperties (response : ControlSocketResponse) : List (String × JsValue) :=
  let body := match response.body with
    | .error e => ("error", .obj [("code", .str e.code), ("message", .str e.message)])
    | .ok result => ("result", result)
  [("id", .str response.id), ("op", .str response.op), body]

theorem toValue_eq (response : ControlSocketResponse) :
    response.toValue = .obj (responseProperties response) := rfl

theorem idOf_received (F : NumberFormat) (response : ControlSocketResponse) :
    idOf? (received F response.toValue) = some response.id := by
  have hlisted : Listed (responseProperties response) := by
    cases hbody : response.body with
    | error e =>
      have hnames : Names ["id", "op", "error"] := by decide
      exact hnames.listed (by simp [responseProperties, hbody])
    | ok result =>
      have hnames : Names ["id", "op", "result"] := by decide
      exact hnames.listed (by simp [responseProperties, hbody])
  rw [toValue_eq, received_obj hlisted]
  rfl

/-- A response on its line. -/
def responseLine (response : ControlSocketResponse) : Line :=
  (stringify (.obj (propertiesJson (responseProperties response)))).toList

theorem newline_notMem_responseLine (response : ControlSocketResponse) :
    '\n' ∉ responseLine response := newline_notMem_stringify _

theorem lineValue_responseLine (F : NumberFormat) (response : ControlSocketResponse) :
    lineValue? F (responseLine response) = some (received F response.toValue) := by
  let fields := propertiesJson (responseProperties response)
  have htext : responseLine response = render (.obj fields) := String.toList_ofList
  have hne : render (.obj fields) ≠ [] := by rw [render]; exact List.cons_ne_nil _ _
  rw [lineValue?, htext, Numeral.trim_render_obj, if_neg hne]
  exact jsonParse_stringify F (.obj fields)

/-! ### The calls of a client -/

/-- The call has not been settled. -/
def Open (client : ControlClient) (n : Nat) : Prop :=
  ∃ call, client.calls[n]? = some call ∧ call.outcomes = []

def Settled (client : ControlClient) (n : Nat) : Prop :=
  ∃ call, client.calls[n]? = some call ∧ call.outcomes ≠ []

/-- What a client keeps, where the responses have come as far as `delivered`. -/
structure Kept (F : NumberFormat) (client : ControlClient)
    (delivered undelivered : List (Nat × ControlSocketResponse)) : Prop where
  pending : ∀ id n, client.pending.lookup id = some n →
    ∃ call, client.calls[n]? = some call ∧ call.request.id = id ∧ call.outcomes = []
  keys : (client.pending.map Prod.fst).Nodup
  once : ∀ call ∈ client.calls, call.outcomes.length ≤ 1
  ended : client.ended = true → client.closed = true ∧ client.pending = []
  answers : client.answers = delivered ++ undelivered
  /-- Each call is asked for once, and answered once, and with its id. -/
  requests : (client.asked ++ client.answers.map Prod.fst).Nodup
  asked : ∀ n ∈ client.asked, n < client.calls.length
  ids : ∀ p ∈ client.answers,
    ∃ call, client.calls[p.1]? = some call ∧ call.request.id = p.2.id
  /-- While the socket is open, the response to a call that is settled has come. -/
  waits : Registered client → client.ended = false →
    ∀ n ∈ client.asked ++ undelivered.map Prod.fst, Open client n
  delivered : Registered client → ∀ p ∈ delivered, Settled client p.1
  own : Registered client → ∀ n call, client.calls[n]? = some call → ∀ outcome ∈ call.outcomes,
    IsOwn F client n call outcome

section
variable {calls : List ClientCall} {n m : Nat} {value : JsValue} {c : ClientCall}

theorem getElem?_settle (calls : List ClientCall) (n m : Nat) (value : JsValue) :
    (ControlClient.settle calls n value)[m]? =
      (calls[m]?).map fun call =>
        if n = m then { call with outcomes := call.outcomes ++ [value] } else call := by
  rw [ControlClient.settle, List.getElem?_modify]
  split <;> simp

@[simp] theorem length_settle (calls : List ClientCall) (n : Nat) (value : JsValue) :
    (ControlClient.settle calls n value).length = calls.length := List.length_modify ..

theorem settle_of_ne (h : n ≠ m) (value : JsValue) :
    (ControlClient.settle calls n value)[m]? = calls[m]? := by
  rw [getElem?_settle]
  simp [h]

theorem settle_self (h : calls[n]? = some c) (value : JsValue) :
    (ControlClient.settle calls n value)[n]? =
      some { c with outcomes := c.outcomes ++ [value] } := by
  rw [getElem?_settle, h]
  simp

end

theorem forall_calls_iff {calls : List ClientCall} {Q : ClientCall → Prop} :
    (∀ call ∈ calls, Q call) ↔ ∀ (n : Nat) (call : ClientCall), calls[n]? = some call → Q call := by
  simp only [List.mem_iff_getElem?]
  exact ⟨fun h n call hn => h call ⟨n, hn⟩, fun h call ⟨n, hn⟩ => h n call hn⟩

section
variable {calls : List ClientCall} {n m : Nat} {value : JsValue} {c d : ClientCall}

/-- A call after one that was open has been settled. -/
theorem settle_cases (hc : calls[n]? = some c) (hopen : c.outcomes = [])
    (hd : (ControlClient.settle calls n value)[m]? = some d) :
    (m = n ∧ d = { c with outcomes := [value] }) ∨ (n ≠ m ∧ calls[m]? = some d) := by
  by_cases hnm : n = m
  · subst hnm
    rw [settle_self hc, hopen] at hd
    exact .inl ⟨rfl, (Option.some.inj hd).symm⟩
  · rw [settle_of_ne hnm] at hd
    exact .inr ⟨hnm, hd⟩

theorem settle_some (h : calls[m]? = some c) : ∃ d, d.request = c.request ∧
    (ControlClient.settle calls n value)[m]? = some d ∧ (c.outcomes ≠ [] → d.outcomes ≠ []) := by
  rw [getElem?_settle, h]
  by_cases hnm : n = m
  · exact ⟨{ c with outcomes := c.outcomes ++ [value] }, rfl, by simp [hnm], by simp⟩
  · exact ⟨c, rfl, by simp [hnm], id⟩

end

section
variable {delivered later : List (Nat × ControlSocketResponse)}
  {p : Nat × ControlSocketResponse}

theorem onEntry_received (F : NumberFormat) (client : ControlClient)
    (response : ControlSocketResponse) :
    client.onEntry (received F response.toValue) =
      match client.pending.lookup response.id with
      | none => client
      | some n =>
        { client with
          pending := remove response.id client.pending
          calls := ControlClient.settle client.calls n (received F response.toValue) } := by
  unfold ControlClient.onEntry
  rw [idOf_received]

/-- The call that a response is to is the one that is pending under its id. -/
theorem Kept.lookup (h : Kept F client delivered (p :: later)) (hregistered : Registered client)
    (hopen : client.ended = false) : client.pending.lookup p.2.id = some p.1 := by
  obtain ⟨call, hcall, houtcomes⟩ := h.waits hregistered hopen p.1 (by simp)
  obtain ⟨call', hcall', hid⟩ := h.ids p (by rw [h.answers]; simp)
  obtain rfl := Option.some.inj (hcall.symm.trans hcall')
  rw [← hid]
  exact hregistered p.1 call hcall houtcomes

/-- The call is asked for once, and answered once. -/
theorem Kept.notMem (h : Kept F client delivered (p :: later)) :
    p.1 ∉ client.asked ++ later.map Prod.fst := by
  have hnodup := h.requests
  rw [h.answers, List.map_append, List.map_cons, ← List.append_assoc, List.nodup_middle,
    List.nodup_cons] at hnodup
  intro hmem
  refine hnodup.1 ?_
  rcases List.mem_append.mp hmem with hmem | hmem
  · exact List.mem_append_left _ (List.mem_append_left _ hmem)
  · exact List.mem_append_right _ hmem

/-- An open call that is not the one settled is registered as before. -/
theorem registered_onEntry {n : Nat} {id : String} (value : JsValue) {call : ClientCall}
    (hlookup : client.pending.lookup id = some n) (hcall : client.calls[n]? = some call)
    (hid : call.request.id = id) (hopen : call.outcomes = []) :
    Registered { client with
      pending := remove id client.pending
      calls := ControlClient.settle client.calls n value } ↔ Registered client := by
  constructor
  · intro hregistered m d hd houtcomes
    by_cases hnm : n = m
    · subst hnm
      obtain rfl := Option.some.inj (hcall.symm.trans hd)
      rwa [hid]
    · have hlater := hregistered m d (by rw [← hd]; exact settle_of_ne hnm value) houtcomes
      have hne : d.request.id ≠ id := by
        intro heq
        rw [heq, lookup_remove_self] at hlater
        cases hlater
      rwa [lookup_remove_of_ne hne] at hlater
  · intro hregistered m d hd houtcomes
    rcases settle_cases hcall hopen hd with ⟨-, rfl⟩ | ⟨hnm, hd⟩
    · cases houtcomes
    · have hbefore := hregistered m d hd houtcomes
      have hne : d.request.id ≠ id := by
        intro heq
        rw [heq, hlookup] at hbefore
        exact hnm (Option.some.inj hbefore)
      exact (lookup_remove_of_ne hne _).trans hbefore

theorem keys_remove {V : Type} {ps : List (String × V)} (h : (ps.map Prod.fst).Nodup)
    (id : String) : ((remove id ps).map Prod.fst).Nodup :=
  h.sublist (List.filter_sublist.map Prod.fst)

/-- The first response to come settles its call. -/
theorem Kept.onEntry (h : Kept F client delivered (p :: later)) (hopen : client.ended = false) :
    Kept F (client.onEntry (received F p.2.toValue)) (delivered ++ [p]) later ∧
      (Registered (client.onEntry (received F p.2.toValue)) ↔ Registered client) ∧
      (client.onEntry (received F p.2.toValue)).ended = false := by
  have hanswers : client.answers = (delivered ++ [p]) ++ later := by rw [h.answers]; simp
  rw [onEntry_received]
  cases hlookup : client.pending.lookup p.2.id with
  | none =>
    have hlost : Registered client → False := fun hregistered => by
      rw [h.lookup hregistered hopen] at hlookup
      cases hlookup
    exact ⟨⟨h.pending, h.keys, h.once, h.ended, hanswers, h.requests, h.asked, h.ids,
      fun hregistered => (hlost hregistered).elim, fun hregistered => (hlost hregistered).elim,
      h.own⟩, Iff.rfl, hopen⟩
  | some n =>
    obtain ⟨call, hcall, hid, houtcomes⟩ := h.pending _ _ hlookup
    have hiff := registered_onEntry (received F p.2.toValue) hlookup hcall hid houtcomes
    have hmine : Registered client → n = p.1 := fun hregistered =>
      Option.some.inj (hlookup.symm.trans (h.lookup hregistered hopen))
    refine ⟨⟨?_, keys_remove h.keys _, ?_, fun hended => absurd (hopen.symm.trans hended)
      Bool.false_ne_true, hanswers, h.requests, ?_, ?_, ?_, ?_, ?_⟩, hiff, hopen⟩
    · intro id m hm
      dsimp only at hm
      have hne : id ≠ p.2.id := by
        rintro rfl
        rw [lookup_remove_self] at hm
        cases hm
      rw [lookup_remove_of_ne hne] at hm
      obtain ⟨d, hd, hdid, hdopen⟩ := h.pending id m hm
      have hnm : n ≠ m := by
        rintro rfl
        obtain rfl := Option.some.inj (hcall.symm.trans hd)
        exact hne (hdid.symm.trans hid)
      exact ⟨d, (settle_of_ne hnm _).trans hd, hdid, hdopen⟩
    · refine forall_calls_iff.mpr fun m d hd => ?_
      rcases settle_cases hcall houtcomes hd with ⟨-, rfl⟩ | ⟨-, hd⟩
      · exact Nat.le_refl 1
      · exact forall_calls_iff.mp h.once m d hd
    · intro m hm
      exact (length_settle ..).symm ▸ h.asked m hm
    · intro q hq
      obtain ⟨d, hd, hdid⟩ := h.ids q hq
      obtain ⟨d', hrequest, hd', -⟩ := settle_some hd
      exact ⟨d', hd', hrequest ▸ hdid⟩
    · intro hafter _ m hm
      have hbefore := hiff.mp hafter
      have hnm : n ≠ m := by
        rintro rfl
        exact h.notMem (hmine hbefore ▸ hm)
      obtain ⟨d, hd, hdopen⟩ := h.waits hbefore hopen m (by
        rcases List.mem_append.mp hm with hm | hm
        · exact List.mem_append_left _ hm
        · exact List.mem_append_right _ (List.mem_cons_of_mem _ hm))
      exact ⟨d, (settle_of_ne hnm _).trans hd, hdopen⟩
    · intro hafter q hq
      have hbefore := hiff.mp hafter
      rcases List.mem_append.mp hq with hq | hq
      · obtain ⟨d, hd, hdsettled⟩ := h.delivered hbefore q hq
        obtain ⟨d', -, hd', hkeeps⟩ := settle_some hd
        exact ⟨d', hd', hkeeps hdsettled⟩
      · rw [List.mem_singleton.mp hq, ← hmine hbefore]
        exact ⟨_, settle_self hcall _, by simp⟩
    · intro hafter m d hd outcome houtcome
      have hbefore := hiff.mp hafter
      rcases settle_cases hcall houtcomes hd with ⟨rfl, rfl⟩ | ⟨-, hd⟩
      · rw [List.mem_singleton.mp houtcome, hmine hbefore]
        exact .inl ⟨p.2, hanswers ▸ by simp, rfl⟩
      · exact h.own hbefore m d hd outcome houtcome

/-- All responses that a chunk completes. -/
theorem Kept.onEntries {now : List (Nat × ControlSocketResponse)}
    (h : Kept F client delivered (now ++ later)) (hopen : client.ended = false) :
    let after := (now.map fun p => received F p.2.toValue).foldl ControlClient.onEntry client
    Kept F after (delivered ++ now) later ∧ (Registered after ↔ Registered client) ∧
      after.ended = false := by
  induction now generalizing client delivered with
  | nil => exact ⟨by rwa [List.append_nil], Iff.rfl, hopen⟩
  | cons p now ih =>
    obtain ⟨hkept, hiff, hended⟩ := Kept.onEntry h hopen
    obtain ⟨hafter, hiff', hended'⟩ := ih hkept hended
    rw [List.append_assoc] at hafter
    exact ⟨hafter, hiff'.trans hiff, hended'⟩

end

section
variable {delivered undelivered : List (Nat × ControlSocketResponse)}

theorem lookup_iff_mem (h : Kept F client delivered undelivered) {id : String} {n : Nat} :
    client.pending.lookup id = some n ↔ (id, n) ∈ client.pending := lookup_eq_some_iff_mem h.keys

theorem getElem?_made {calls : List ClientCall} {n : Nat} {c d : ClientCall}
    (hd : (calls ++ [c])[n]? = some d) : calls[n]? = some d ∨ (n = calls.length ∧ d = c) := by
  rw [List.getElem?_append] at hd
  split at hd
  · exact .inl hd
  · rename_i hlt
    obtain ⟨hlast, hget⟩ := List.getElem?_eq_some_iff.mp hd
    rw [List.length_singleton] at hlast
    exact .inr ⟨by omega, by simpa using hget.symm⟩

theorem getElem?_kept {calls : List ClientCall} {n : Nat} {d : ClientCall}
    (hd : calls[n]? = some d) (c : ClientCall) : (calls ++ [c])[n]? = some d := by
  rw [List.getElem?_append_left (List.getElem?_eq_some_iff.mp hd).1, hd]

/-- A call of a client that is closed is settled at once. -/
theorem Kept.refuse (h : Kept F client delivered undelivered) (made : ClientCall)
    {op message : String}
    (hmade : made.outcomes = [socketClosed made.request.id op message]) :
    Kept F { client with calls := client.calls ++ [made] } delivered undelivered ∧
      (Registered { client with calls := client.calls ++ [made] } ↔ Registered client) := by
  have hiff : Registered { client with calls := client.calls ++ [made] } ↔ Registered client := by
    refine ⟨fun hafter m d hd => hafter m d (getElem?_kept hd _),
      fun hbefore m d hd houtcomes => ?_⟩
    rcases getElem?_made hd with hd | ⟨-, rfl⟩
    · exact hbefore m d hd houtcomes
    · rw [hmade] at houtcomes
      cases houtcomes
  refine ⟨⟨?_, h.keys, ?_, h.ended, h.answers, h.requests, ?_, ?_, ?_, ?_, ?_⟩, hiff⟩
  · intro id n hn
    obtain ⟨d, hd, hrest⟩ := h.pending id n hn
    exact ⟨d, getElem?_kept hd _, hrest⟩
  · refine List.forall_mem_append.mpr ⟨h.once, ?_⟩
    rw [List.forall_mem_singleton, hmade]
    exact Nat.le_refl 1
  · intro n hn
    rw [List.length_append]
    exact Nat.lt_add_right _ (h.asked n hn)
  · intro p hp
    obtain ⟨d, hd, hid⟩ := h.ids p hp
    exact ⟨d, getElem?_kept hd _, hid⟩
  · intro hafter hopen n hn
    obtain ⟨d, hd, houtcomes⟩ := h.waits (hiff.mp hafter) hopen n hn
    exact ⟨d, getElem?_kept hd _, houtcomes⟩
  · intro hafter p hp
    obtain ⟨d, hd, houtcomes⟩ := h.delivered (hiff.mp hafter) p hp
    exact ⟨d, getElem?_kept hd _, houtcomes⟩
  · intro hafter n d hd outcome houtcome
    rcases getElem?_made hd with hd | ⟨-, rfl⟩
    · exact h.own (hiff.mp hafter) n d hd outcome houtcome
    · rw [hmade] at houtcome
      exact .inr ⟨op, message, List.mem_singleton.mp houtcome⟩

/-- The client that has sent a request. -/
def requested (client : ControlClient) (request : ControlSocketRequest) : ControlClient :=
  { client with
    calls := client.calls ++ [{ request }]
    pending := put request.id client.calls.length client.pending
    asked := client.asked ++ [client.calls.length] }

/-- A call whose id another call is pending under takes its place. -/
theorem Kept.registered_requested (h : Kept F client delivered undelivered)
    (request : ControlSocketRequest) : Registered (requested client request) ↔
      Registered client ∧ client.pending.lookup request.id = none := by
  constructor
  · intro hafter
    have hfresh : client.pending.lookup request.id = none := by
      cases hlookup : client.pending.lookup request.id with
      | none => rfl
      | some n =>
        obtain ⟨d, hd, hid, houtcomes⟩ := h.pending _ n hlookup
        have hlost := hafter n d (getElem?_kept hd _) houtcomes
        rw [hid, requested, lookup_put_self, Option.some.injEq] at hlost
        exact absurd (List.getElem?_eq_some_iff.mp hd).1 (by omega)
    refine ⟨fun n d hd houtcomes => ?_, hfresh⟩
    have hlater := hafter n d (getElem?_kept hd _) houtcomes
    have hne : d.request.id ≠ request.id := by
      intro heq
      rw [heq, requested, lookup_put_self, Option.some.injEq] at hlater
      exact absurd (List.getElem?_eq_some_iff.mp hd).1 (by omega)
    rwa [requested, lookup_put_of_ne hne] at hlater
  · rintro ⟨hbefore, hfresh⟩ n d hd houtcomes
    rcases getElem?_made hd with hd | ⟨rfl, rfl⟩
    · have hlookup := hbefore n d hd houtcomes
      have hne : d.request.id ≠ request.id := by
        intro heq
        rw [heq, hfresh] at hlookup
        cases hlookup
      rwa [requested, lookup_put_of_ne hne]
    · rw [requested, lookup_put_self]

theorem Kept.send (h : Kept F client delivered undelivered) (hopen : client.closed = false)
    (request : ControlSocketRequest) :
    Kept F (requested client request) delivered undelivered := by
  have hlt : ∀ p ∈ client.answers, p.1 < client.calls.length := fun p hp => by
    obtain ⟨d, hd, -⟩ := h.ids p hp
    exact (List.getElem?_eq_some_iff.mp hd).1
  have hregistered := fun hafter => ((h.registered_requested request).mp hafter).1
  refine ⟨?_, nodup_put h.keys _, ?_, ?_, h.answers, ?_, ?_, ?_, ?_, ?_, ?_⟩
  · intro id n hn
    by_cases hid : id = request.id
    · rw [hid, requested, lookup_put_self, Option.some.injEq] at hn
      refine ⟨{ request }, ?_, hid.symm, rfl⟩
      rw [← hn, requested]
      simp
    · rw [requested, lookup_put_of_ne hid] at hn
      obtain ⟨d, hd, hrest⟩ := h.pending id n hn
      exact ⟨d, getElem?_kept hd _, hrest⟩
  · refine List.forall_mem_append.mpr ⟨h.once, ?_⟩
    rw [List.forall_mem_singleton]
    exact Nat.zero_le 1
  · intro hended
    rw [(h.ended hended).1] at hopen
    cases hopen
  · rw [requested, List.append_assoc, List.singleton_append, List.nodup_middle, List.nodup_cons]
    refine ⟨fun hmem => ?_, h.requests⟩
    rcases List.mem_append.mp hmem with hmem | hmem
    · exact Nat.lt_irrefl _ (h.asked _ hmem)
    · obtain ⟨p, hp, heq⟩ := List.mem_map.mp hmem
      exact absurd (hlt p hp) (by omega)
  · intro n hn
    rw [requested, List.length_append]
    rcases List.mem_append.mp hn with hn | hn
    · exact Nat.lt_add_right _ (h.asked n hn)
    · rw [List.mem_singleton.mp hn]
      exact Nat.lt_succ_self _
  · intro p hp
    obtain ⟨d, hd, hid⟩ := h.ids p hp
    exact ⟨d, getElem?_kept hd _, hid⟩
  · intro hafter hended n hn
    have hold : n ∈ client.asked ++ undelivered.map Prod.fst →
        Open (requested client request) n := fun hn => by
      obtain ⟨d, hd, houtcomes⟩ := h.waits (hregistered hafter) hended n hn
      exact ⟨d, getElem?_kept hd _, houtcomes⟩
    rcases List.mem_append.mp hn with hn | hn
    · rcases List.mem_append.mp hn with hn | hn
      · exact hold (List.mem_append_left _ hn)
      · rw [List.mem_singleton.mp hn]
        exact ⟨{ request }, by simp [requested], rfl⟩
    · exact hold (List.mem_append_right _ hn)
  · intro hafter p hp
    obtain ⟨d, hd, houtcomes⟩ := h.delivered (hregistered hafter) p hp
    exact ⟨d, getElem?_kept hd _, houtcomes⟩
  · intro hafter n d hd outcome houtcome
    rcases getElem?_made hd with hd | ⟨-, rfl⟩
    · exact h.own (hregistered hafter) n d hd outcome houtcome
    · cases houtcome

/-- A call that is made. -/
theorem Kept.call (h : Kept F client delivered undelivered) (request : ControlSocketRequest) :
    Kept F (client.call request) delivered undelivered ∧
      (Registered (client.call request) ↔
        Registered client ∧ FreshId client (.call request)) := by
  unfold ControlClient.call FreshId
  split
  · rename_i hclosed
    obtain ⟨hkept, hiff⟩ := h.refuse
      { request
        outcomes := [socketClosed request.id request.op.text "control socket is closed"] } rfl
    refine ⟨hkept, hiff.trans ⟨fun hbefore => ⟨hbefore, fun hopen => ?_⟩, fun hboth => hboth.1⟩⟩
    rw [hclosed] at hopen
    cases hopen
  · rename_i hclosed
    have hopen : client.closed = false := Bool.eq_false_iff.mpr hclosed
    refine ⟨h.send hopen request, (h.registered_requested request).trans ?_⟩
    exact and_congr_right fun _ => ⟨fun hfresh _ => hfresh, fun hfresh => hfresh hopen⟩

theorem Kept.answer (h : Kept F client delivered undelivered) {n : Nat} {call : ClientCall}
    (hcall : client.calls[n]? = some call) (hasked : n ∈ client.asked)
    {response : ControlSocketResponse} (hid : call.request.id = response.id) (wire : List Char) :
    Kept F { client with
      asked := client.asked.erase n
      answers := client.answers ++ [(n, response)]
      wire } delivered (undelivered ++ [(n, response)]) := by
  have hperm : (client.asked.erase n ++ (client.answers ++ [(n, response)]).map Prod.fst).Perm
      (client.asked ++ client.answers.map Prod.fst) := by
    rw [List.map_append, List.map_singleton, ← List.append_assoc]
    refine List.perm_append_comm.trans ?_
    exact (List.perm_cons_erase hasked).symm.append_right _
  refine ⟨h.pending, h.keys, h.once, h.ended, ?_, hperm.nodup_iff.mpr h.requests, ?_, ?_, ?_,
    h.delivered, ?_⟩
  · rw [h.answers, List.append_assoc]
  · exact fun m hm => h.asked m (List.mem_of_mem_erase hm)
  · intro q hq
    rcases List.mem_append.mp hq with hq | hq
    · exact h.ids q hq
    · rw [List.mem_singleton.mp hq]
      exact ⟨call, hcall, hid⟩
  · intro hregistered hopen m hm
    refine h.waits hregistered hopen m ?_
    rw [List.map_append, List.map_singleton, ← List.append_assoc] at hm
    rcases List.mem_append.mp hm with hm | hm
    · rcases List.mem_append.mp hm with hm | hm
      · exact List.mem_append_left _ (List.mem_of_mem_erase hm)
      · exact List.mem_append_right _ hm
    · rw [List.mem_singleton.mp hm]
      exact List.mem_append_left _ hasked
  · intro hregistered m d hd outcome houtcome
    refine (h.own hregistered m d hd outcome houtcome).imp_left ?_
    rintro ⟨own, hmem, heq⟩
    exact ⟨own, List.mem_append_left _ hmem, heq⟩

theorem Kept.close (h : Kept F client delivered undelivered) :
    Kept F { client with closed := true } delivered undelivered :=
  ⟨h.pending, h.keys, h.once, fun hended => ⟨rfl, (h.ended hended).2⟩, h.answers, h.requests,
    h.asked, h.ids, h.waits, h.delivered, h.own⟩

/-! ### The end of the connection -/

/-- The entries of a map that lead to different calls settle each of them. -/
theorem getElem?_settleAll (f : String → JsValue) :
    ∀ (entries : List (String × Nat)) (calls : List ClientCall) (m : Nat),
      (entries.map Prod.snd).Nodup →
      (entries.foldl (fun calls e => ControlClient.settle calls e.2 (f e.1)) calls)[m]? =
        (calls[m]?).map fun call =>
          match entries.find? (·.2 = m) with
          | some e => { call with outcomes := call.outcomes ++ [f e.1] }
          | none => call
  | [], calls, m, _ => by simp
  | e :: entries, calls, m, hnodup => by
      obtain ⟨hnot, hnodup⟩ := List.nodup_cons.mp hnodup
      rw [List.foldl_cons, getElem?_settleAll f entries _ m hnodup, getElem?_settle,
        Option.map_map]
      congr 1
      funext call
      by_cases hm : e.2 = m
      · have hnone : entries.find? (·.2 = m) = none := by
          rw [List.find?_eq_none]
          intro e' he'
          have hne : e'.2 ≠ m := fun heq => hnot (List.mem_map.mpr ⟨e', he', heq.trans hm.symm⟩)
          simpa using hne
        simp [hm, hnone]
      · simp [hm]

theorem Kept.nodup_pending (h : Kept F client delivered undelivered) :
    (client.pending.map Prod.snd).Nodup := by
  have hids : client.pending.map Prod.fst =
      (client.pending.map Prod.snd).map fun n =>
        ((client.calls[n]?).map fun call => call.request.id).getD "" := by
    rw [List.map_map]
    refine List.map_congr_left fun e he => ?_
    obtain ⟨call, hcall, hid, -⟩ := h.pending e.1 e.2 ((lookup_iff_mem h).mpr he)
    simp [hcall, hid]
  have hkeys := h.keys
  rw [hids] at hkeys
  exact hkeys.of_map _

/-- A call after the end: one that was registered has been told, and the others are as before. -/
theorem Kept.onClose_cases (h : Kept F client delivered undelivered) {n : Nat} {d : ClientCall}
    (hd : client.onClose.calls[n]? = some d) : ∃ call, client.calls[n]? = some call ∧
      ((client.pending.lookup call.request.id = some n ∧
        d = { call with outcomes :=
          [socketClosed call.request.id "ping" "control socket closed before response"] }) ∨
      ((∀ e ∈ client.pending, e.2 ≠ n) ∧ d = call)) := by
  rw [ControlClient.onClose] at hd
  dsimp only at hd
  rw [getElem?_settleAll (fun id => socketClosed id "ping" "control socket closed before response")
    _ _ _ h.nodup_pending, Option.map_eq_some_iff] at hd
  obtain ⟨call, hcall, hd⟩ := hd
  refine ⟨call, hcall, ?_⟩
  cases hfind : client.pending.find? (·.2 = n) with
  | none =>
    rw [hfind] at hd
    refine .inr ⟨fun e he => ?_, hd.symm⟩
    simpa using List.find?_eq_none.mp hfind e he
  | some e =>
    rw [hfind] at hd
    have hmem := List.mem_of_find?_eq_some hfind
    have hn : e.2 = n := by simpa using List.find?_some hfind
    obtain ⟨call', hcall', hid, houtcomes⟩ := h.pending e.1 e.2 ((lookup_iff_mem h).mpr hmem)
    rw [hn] at hcall'
    obtain rfl := Option.some.inj (hcall.symm.trans hcall')
    refine .inl ⟨?_, ?_⟩
    · rw [hid, lookup_iff_mem h, ← hn]
      exact hmem
    · rw [← hd, houtcomes, hid]
      rfl

theorem Kept.onClose_some (h : Kept F client delivered undelivered) {n : Nat} {call : ClientCall}
    (hcall : client.calls[n]? = some call) : ∃ d, client.onClose.calls[n]? = some d ∧
      d.request = call.request ∧ (call.outcomes ≠ [] → d.outcomes ≠ []) := by
  obtain ⟨d, hd⟩ : ∃ d, client.onClose.calls[n]? = some d := by
    rw [ControlClient.onClose]
    dsimp only
    rw [getElem?_settleAll
      (fun id => socketClosed id "ping" "control socket closed before response") _ _ _
      h.nodup_pending, hcall]
    exact ⟨_, rfl⟩
  obtain ⟨call', hcall', hcases⟩ := h.onClose_cases hd
  obtain rfl := Option.some.inj (hcall.symm.trans hcall')
  refine ⟨d, hd, ?_⟩
  rcases hcases with ⟨-, rfl⟩ | ⟨-, rfl⟩
  · exact ⟨rfl, fun _ => List.cons_ne_nil _ _⟩
  · exact ⟨rfl, id⟩

theorem Kept.registered_onClose (h : Kept F client delivered undelivered) :
    Registered client.onClose ↔ Registered client := by
  constructor
  · intro hafter n call hcall houtcomes
    obtain ⟨d, hd, -, -⟩ := h.onClose_some hcall
    obtain ⟨call', hcall', hcases⟩ := h.onClose_cases hd
    obtain rfl := Option.some.inj (hcall.symm.trans hcall')
    rcases hcases with ⟨hlookup, -⟩ | ⟨-, rfl⟩
    · exact hlookup
    · have hlost := hafter n d hd houtcomes
      cases hlost
  · intro hbefore n d hd houtcomes
    obtain ⟨call, hcall, ⟨-, rfl⟩ | ⟨hnot, rfl⟩⟩ := h.onClose_cases hd
    · cases houtcomes
    · have hmem := (lookup_iff_mem h).mp (hbefore n d hcall houtcomes)
      exact absurd rfl (hnot _ hmem)

/-- The end of the connection settles what is pending. -/
theorem Kept.onClose (h : Kept F client delivered undelivered) :
    Kept F client.onClose delivered undelivered := by
  have hiff := h.registered_onClose
  refine ⟨fun id n hn => (by cases hn), List.nodup_nil, ?_, fun _ => ⟨rfl, rfl⟩, h.answers,
    h.requests, ?_, ?_, fun _ hopen => absurd hopen.symm Bool.false_ne_true, ?_, ?_⟩
  · refine forall_calls_iff.mpr fun n d hd => ?_
    obtain ⟨call, hcall, ⟨-, rfl⟩ | ⟨-, rfl⟩⟩ := h.onClose_cases hd
    · exact Nat.le_refl 1
    · exact forall_calls_iff.mp h.once n d hcall
  · intro n hn
    obtain ⟨d, hd, -⟩ := h.onClose_some (List.getElem?_eq_getElem (h.asked n hn))
    exact (List.getElem?_eq_some_iff.mp hd).1
  · intro p hp
    obtain ⟨call, hcall, hid⟩ := h.ids p hp
    obtain ⟨d, hd, hrequest, -⟩ := h.onClose_some hcall
    exact ⟨d, hd, hrequest ▸ hid⟩
  · intro hafter p hp
    obtain ⟨call, hcall, houtcomes⟩ := h.delivered (hiff.mp hafter) p hp
    obtain ⟨d, hd, -, hkeeps⟩ := h.onClose_some hcall
    exact ⟨d, hd, hkeeps houtcomes⟩
  · intro hafter n d hd outcome houtcome
    obtain ⟨call, hcall, ⟨-, rfl⟩ | ⟨-, rfl⟩⟩ := h.onClose_cases hd
    · exact .inr ⟨"ping", _, List.mem_singleton.mp houtcome⟩
    · exact h.own (hiff.mp hafter) n d hcall outcome houtcome

end

/-! ### The client's side -/

/-- What a client keeps, and what is on the way to it: the responses that have not come. -/
def ClientSound (F : NumberFormat) (client : ControlClient) : Prop :=
  ∃ delivered undelivered, Kept F client delivered undelivered ∧
    (client.ended = false → client.decoder.buffer ++ client.wire =
      undelivered.flatMap fun p => encodeControlSocketMessage p.2.toValue)

theorem ClientSound.settle_iff (h : ClientSound F client) :
    CallsSettle F client ↔ Registered client := by
  refine ⟨fun hsettle => hsettle.registered, fun hregistered => ?_⟩
  obtain ⟨delivered, undelivered, hkept, htext⟩ := h
  have hended : client.ended = true → ∀ call ∈ client.calls, call.outcomes ≠ [] := by
    intro hended call hmem houtcomes
    obtain ⟨n, hcall⟩ := List.mem_iff_getElem?.mp hmem
    have hlookup := hregistered n call hcall houtcomes
    rw [(hkept.ended hended).2] at hlookup
    cases hlookup
  refine ⟨hregistered, hkept.once, hkept.own hregistered, fun hbuffer hwire p hp => ?_, hended⟩
  cases hopen : client.ended with
  | true =>
    obtain ⟨call, hcall, -⟩ := hkept.ids p hp
    exact ⟨call, hcall, hended hopen call (List.mem_of_getElem? hcall)⟩
  | false =>
    have hempty := htext hopen
    rw [hbuffer, hwire, List.append_nil] at hempty
    have hnil : undelivered = [] := by
      cases undelivered with
      | nil => rfl
      | cons q rest => simp [encodeControlSocketMessage] at hempty
    rw [hkept.answers, hnil, List.append_nil] at hp
    exact hkept.delivered hregistered p hp

theorem onEntries_stream (entries : List JsValue) (client : ControlClient) :
    (entries.foldl ControlClient.onEntry client).decoder = client.decoder ∧
      (entries.foldl ControlClient.onEntry client).wire = client.wire := by
  induction entries generalizing client with
  | nil => exact ⟨rfl, rfl⟩
  | cons entry entries ih =>
    have hentry : (client.onEntry entry).decoder = client.decoder ∧
        (client.onEntry entry).wire = client.wire := by
      unfold ControlClient.onEntry
      split
      · exact ⟨rfl, rfl⟩
      · split <;> exact ⟨rfl, rfl⟩
    exact ⟨(ih _).1.trans hentry.1, (ih _).2.trans hentry.2⟩

/-- A chunk has the responses whose lines it completes. -/
theorem ClientSound.data (h : ClientSound F client) (hopen : client.ended = false) (count : Nat) :
    let after := { client with wire := client.wire.drop count }.onData F (client.wire.take count)
    ClientSound F after ∧ (Registered after ↔ Registered client) := by
  obtain ⟨delivered, undelivered, hkept, htext⟩ := h
  have hlines : (client.decoder.buffer ++ client.wire.take count) ++ client.wire.drop count =
      (undelivered.map fun p => responseLine p.2).flatMap (· ++ ['\n']) := by
    rw [List.append_assoc, List.take_append_drop, htext hopen, List.flatMap_map]
    rfl
  have hnewline : ∀ line ∈ undelivered.map fun p => responseLine p.2, '\n' ∉ line := by
    intro line hline
    obtain ⟨p, -, rfl⟩ := List.mem_map.mp hline
    exact newline_notMem_responseLine p.2
  obtain ⟨rest, hsplit, hrest⟩ := Lines.terminated_append hnewline hlines
  obtain ⟨now, later, rfl, hnow, rfl⟩ := List.map_eq_append_iff.mp hsplit
  have hentries : (Lines.complete '\n' (client.decoder.buffer ++ client.wire.take count)).filterMap
      (lineValue? F) = now.map fun p => received F p.2.toValue := by
    have hvalues : (lineValue? F ∘ fun p : Nat × ControlSocketResponse => responseLine p.2) =
        some ∘ fun p => received F p.2.toValue := by
      funext p
      rw [Function.comp_apply, Function.comp_apply, lineValue_responseLine]
    rw [← hnow, List.filterMap_map, hvalues, List.filterMap_eq_map]
  unfold ControlClient.onData NDJSONDecoder.push
  dsimp only
  rw [hentries]
  have hstart : Kept F { client with
      decoder := ⟨Lines.rest '\n' (client.decoder.buffer ++ client.wire.take count)⟩
      wire := client.wire.drop count } delivered (now ++ later) :=
    ⟨hkept.pending, hkept.keys, hkept.once, hkept.ended, hkept.answers, hkept.requests,
      hkept.asked, hkept.ids, hkept.waits, hkept.delivered, hkept.own⟩
  obtain ⟨hafter, hiff, -⟩ := hstart.onEntries hopen
  refine ⟨⟨_, _, hafter, fun _ => ?_⟩, hiff⟩
  rw [(onEntries_stream _ _).1, (onEntries_stream _ _).2]
  rw [List.flatMap_map] at hrest
  exact hrest

/-- What a step keeps, and when every call is registered after it. -/
theorem clientStep_kept {act : ClientAct} (h : ClientSound F client)
    (hstep : clientStep F client act = some client') :
    ClientSound F client' ∧ (Registered client' ↔ Registered client ∧ FreshId client act) := by
  cases act with
  | call request =>
    cases hstep
    obtain ⟨delivered, undelivered, hkept, htext⟩ := h
    obtain ⟨hafter, hiff⟩ := hkept.call request
    refine ⟨⟨delivered, undelivered, hafter, ?_⟩, hiff⟩
    unfold ControlClient.call
    split <;> exact htext
  | answers n op body =>
    unfold clientStep at hstep
    dsimp only at hstep
    split at hstep
    · rename_i call hcall
      split at hstep
      · rename_i hguard
        cases hstep
        obtain ⟨delivered, undelivered, hkept, htext⟩ := h
        refine ⟨⟨delivered, undelivered ++ [(n, { id := call.request.id, op, body })],
          hkept.answer hcall hguard.1 rfl _, fun hopen => ?_⟩,
          ⟨fun hregistered => ⟨hregistered, trivial⟩, fun hboth => hboth.1⟩⟩
        rw [List.flatMap_append, ← htext hopen, List.append_assoc, List.flatMap_singleton]
      · cases hstep
    · cases hstep
  | data count =>
    unfold clientStep at hstep
    dsimp only at hstep
    split at hstep
    · cases hstep
    · rename_i hopen
      cases hstep
      obtain ⟨hafter, hiff⟩ := h.data (Bool.eq_false_iff.mpr hopen) count
      exact ⟨hafter, hiff.trans ⟨fun hregistered => ⟨hregistered, trivial⟩,
        fun hboth => hboth.1⟩⟩
  | close =>
    cases hstep
    obtain ⟨delivered, undelivered, hkept, htext⟩ := h
    exact ⟨⟨delivered, undelivered, hkept.close, htext⟩,
      ⟨fun hregistered => ⟨hregistered, trivial⟩, fun hboth => hboth.1⟩⟩
  | closes =>
    unfold clientStep at hstep
    dsimp only at hstep
    split at hstep
    · cases hstep
    · cases hstep
      obtain ⟨delivered, undelivered, hkept, htext⟩ := h
      refine ⟨⟨delivered, undelivered, hkept.onClose, fun hopen => ?_⟩,
        hkept.registered_onClose.trans ⟨fun hregistered => ⟨hregistered, trivial⟩,
          fun hboth => hboth.1⟩⟩
      cases hopen

/-- **Every call is settled**, once and with its own response, exactly if no call is made while
another of its id is pending. -/
theorem callsSettle_iff {acts : List ClientAct} (r : Run (clientStep F) Any {} acts client) :
    CallsSettle F client ↔ Run (clientStep F) FreshId {} acts client := by
  have hbegin : ClientSound F {} :=
    ⟨[], [], ⟨by simp, List.nodup_nil, by simp, by simp, rfl, by simp, by simp, by simp, by simp,
      by simp, by simp⟩, fun _ => rfl⟩
  have hregistered : Registered {} := by
    intro n call hcall
    cases hcall
  have hsound : ClientSound F client :=
    Run.invariant hbegin (fun _ _ _ hs _ hstep => (clientStep_kept hs hstep).1) r
  rw [hsound.settle_iff]
  exact Run.meets_iff_of hbegin hregistered (fun _ _ _ hs hstep => clientStep_kept hs hstep) r

/-! ### Both sides -/

/-- **The requests of a socket are all answered** exactly if every line that is filled is a value,
and no call is made while another of its id is pending. -/
theorem socket_answers_iff (F : NumberFormat) (ctx : ControlSocketContext)
    {serverActs : List ConnectionAct} {c : Connection}
    (server : Run (handleConnection F ctx) Any {} serverActs c)
    {clientActs : List ClientAct} {client : ControlClient}
    (calls : Run (clientStep F) Any {} clientActs client) :
    (Accounted F (filledLines (receivedText serverActs)) c.written c.handlers ↔
      ∀ line ∈ filledLines (receivedText serverActs), (lineValue? F line).isSome = true) ∧
    (CallsSettle F client ↔ Run (clientStep F) FreshId {} clientActs client) :=
  ⟨accounted_iff (sound_of_run server), callsSettle_iff calls⟩

theorem reads_decimal (n : Number) (_ : True) : some n = some n := rfl

theorem is_decimal (d : Int) (_ : d.natAbs < 9007199254740992) : True := trivial

/-- Every decimal is a number. -/
def decimals : NumberFormat where
  IsNumber _ := True
  read := some
  read_number := reads_decimal
  isNumber_ofInt := is_decimal

def pingRequest : ControlSocketRequest := ⟨"a", .ping⟩

/-- A line that comes in two chunks, and a call that the end of the connection settles. -/
theorem socket_answers_iff_once : ∃ (c : Connection) (client : ControlClient),
    (Accounted decimals (filledLines (receivedText [.data ['4'], .data ['2', '\n']])) c.written
        c.handlers ↔ ∀ line ∈ filledLines (receivedText [.data ['4'], .data ['2', '\n']]),
          (lineValue? decimals line).isSome = true) ∧
    (CallsSettle decimals client ↔
      Run (clientStep decimals) FreshId {} [.call pingRequest, .closes] client) :=
  ⟨_, _, socket_answers_iff decimals {} (.snoc (.snoc .nil trivial rfl) trivial rfl)
    (.snoc (.snoc .nil trivial rfl) trivial rfl)⟩

/-- A line that is no JSON is never answered, and of two calls with one id the first waits for
ever, even when the socket is closed. -/
theorem requests_lost :
    (∃ c, Run (handleConnection decimals {}) Any {} [.data ['p', 'i', 'n', 'g', '\n']] c ∧
      ¬ Accounted decimals (filledLines ['p', 'i', 'n', 'g', '\n']) c.written c.handlers) ∧
    ∃ client, Run (clientStep decimals) Any {}
      [.call pingRequest, .call pingRequest, .closes] client ∧ ¬ CallsSettle decimals client := by
  constructor
  · have r : Run (handleConnection decimals {}) Any {} [.data ['p', 'i', 'n', 'g', '\n']] _ :=
      .snoc .nil trivial rfl
    refine ⟨_, r, fun haccounted => ?_⟩
    have hvalues := (accounted_iff (sound_of_run r)).mp haccounted ['p', 'i', 'n', 'g']
    revert hvalues
    decide
  · have r : Run (clientStep decimals) Any {} [.call pingRequest, .call pingRequest, .closes] _ :=
      .snoc (.snoc (.snoc .nil trivial rfl) trivial rfl) trivial rfl
    refine ⟨_, r, fun hsettle => ?_⟩
    exact hsettle.ended rfl ⟨pingRequest, []⟩ (.head _) rfl

end Declaragent.Daemon
