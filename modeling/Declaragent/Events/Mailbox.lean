import Declaragent.Events.Types
import Declaragent.Library.JsonParse
import Declaragent.Library.Transition

/-!
# Events — the mailbox

Messages from agent to agent, in a table that any number of mailbox instances work on.  Each
instance caches how many messages wait for an agent, and a drain is three statements: it selects
the rows, marks whatever is undrained by then, and returns the rows it selected.

* `rowToEvent_sent`: the row that `send` inserts comes back as the event that `send` publishes.
* `MailboxInv.step`: what holds of the rows whatever the instances do.
* `intact_iff`: in which runs every message is returned once and in order, and the depths are
  right.
-/

namespace Declaragent.Events
open JsonText Transition

/-! ### Rows -/

structure MailboxRow where
  id : String
  toAgent : String
  fromAgent : String
  payloadJson : Option String
  queuedAt : Int
  drainedAt : Option Int := none

/-- The event of a message: what `send` publishes for live observers. -/
def mailboxEvent (id fromAgent : String) (payload : Option Json) (queuedAt : Int) : AgentEvent where
  id := id
  kind := .mailboxMessage
  source := .mailbox fromAgent
  target := .broadcast
  timestamp := queuedAt
  payload := payload.getD .null
  auth := .internal
  info := some { idempotencyKey := some id }

/-- An empty text counts as none. -/
def rowToEvent (row : MailboxRow) : Option AgentEvent :=
  match row.payloadJson with
  | none | some "" => some (mailboxEvent row.id row.fromAgent none row.queuedAt)
  | some text =>
    (parse text).map fun payload => mailboxEvent row.id row.fromAgent (some payload) row.queuedAt

/-- One mailbox on the table: its depth cache, and the drain it is in the middle of. -/
structure MailboxInstance where
  depthByAgent : String → Option Nat := fun _ => none
  draining : Option (String × List MailboxRow) := none

/-- The table in insertion order, the instances, and, with the agent each is for, the events of
the messages that were sent and of those that drains returned. -/
structure Mailbox (κ : Type) where
  rows : List MailboxRow := []
  instances : κ → MailboxInstance
  sent : List (String × AgentEvent) := []
  returned : List (String × AgentEvent) := []

variable {κ : Type}

namespace Mailbox

/-! ### Statements -/

def pending (m : Mailbox κ) (agentId : String) : List MailboxRow :=
  m.rows.filter fun row => row.toAgent = agentId ∧ row.drainedAt = none

/-- `ORDER BY queued_at ASC`. -/
def selectPending (m : Mailbox κ) (agentId : String) : List MailboxRow :=
  (m.pending agentId).insertionSort fun a b => a.queuedAt ≤ b.queuedAt

def countPending (m : Mailbox κ) (agentId : String) : Nat := (m.pending agentId).length

def insert (m : Mailbox κ) (id toAgent : String) (payload : Option Json) (fromAgent : String)
    (queuedAt : Int) : Mailbox κ :=
  { m with
    rows := m.rows ++ [⟨id, toAgent, fromAgent, payload.map stringify, queuedAt, none⟩]
    sent := m.sent ++ [(toAgent, mailboxEvent id fromAgent payload queuedAt)] }

def markDrained (m : Mailbox κ) (now : Int) (agentId : String) : Mailbox κ :=
  { m with
    rows := m.rows.map fun row =>
      if row.toAgent = agentId ∧ row.drainedAt = none then { row with drainedAt := some now }
      else row }

def vacuum (m : Mailbox κ) (cutoff : Int) : Mailbox κ :=
  { m with rows := m.rows.filter fun row => ¬ row.drainedAt.any (· < cutoff) }

/-! ### The depth cache -/

variable [DecidableEq κ]

def update (m : Mailbox κ) (k : κ) (i : MailboxInstance) : Mailbox κ :=
  { m with instances := Function.update m.instances k i }

def setDepth (m : Mailbox κ) (k : κ) (agentId : String) (n : Nat) : Mailbox κ :=
  m.update k { m.instances k with
    depthByAgent := Function.update (m.instances k).depthByAgent agentId (some n) }

def incDepth (m : Mailbox κ) (k : κ) (agentId : String) : Mailbox κ :=
  m.setDepth k agentId (((m.instances k).depthByAgent agentId).getD 0 + 1)

def resolveDepth (m : Mailbox κ) (k : κ) (agentId : String) : Nat × Mailbox κ :=
  match (m.instances k).depthByAgent agentId with
  | some cached => (cached, m)
  | none => (m.countPending agentId, m.setDepth k agentId (m.countPending agentId))

/-! ### Calls -/

def send (m : Mailbox κ) (k : κ) (id toAgent : String) (payload : Option Json)
    (fromAgent : String) (queuedAt : Int) : Except String (Mailbox κ) :=
  if toAgent = "" then .error "mailbox.send: toAgent is required"
  else if fromAgent = "" then .error "mailbox.send: fromAgent is required"
  else .ok ((m.insert id toAgent payload fromAgent queuedAt).incDepth k toAgent)

/-- The rest of a drain that selected `rows`. -/
def finishDrain (m : Mailbox κ) (k : κ) (agentId : String) (rows : List MailboxRow) (now : Int) :
    Mailbox κ :=
  let m := (m.markDrained now agentId).setDepth k agentId 0
  { m.update k { m.instances k with draining := none } with
    returned := m.returned ++ ((rows.mapM rowToEvent).getD []).map fun event => (agentId, event) }

end Mailbox

inductive MailboxLabel (κ : Type) where
  | sends (k : κ) (id toAgent : String) (payload : Option Json) (fromAgent : String) (now : Int)
  | selects (k : κ) (agentId : String)
  | marks (k : κ) (now : Int)
  | dies (k : κ) (now : Int)
  | restarts (k : κ)
  | queries (k : κ) (agentId : String)
  | vacuums (cutoff : Int)

/-- A statement is one step with what it does to the instance's own cache.  An instance does nothing
else while it drains; `marks` ends a drain, and `dies` marks the rows, too, but the process is gone
before it returns them.  No id is given twice. -/
def mailboxStep [DecidableEq κ] (m : Mailbox κ) : MailboxLabel κ → Option (Mailbox κ)
  | .sends k id toAgent payload fromAgent now =>
    if (m.instances k).draining.isSome ∨ id ∈ m.sent.map (·.2.id) then none
    else some ((m.send k id toAgent payload fromAgent now).toOption.getD m)
  | .selects k agentId =>
    if (m.instances k).draining.isSome then none
    else if m.selectPending agentId = [] then some m
    else
      some (m.update k { m.instances k with draining := some (agentId, m.selectPending agentId) })
  | .marks k now =>
    (m.instances k).draining.map fun (agentId, rows) => m.finishDrain k agentId rows now
  | .dies k now =>
    (m.instances k).draining.map fun (agentId, _) => (m.markDrained now agentId).update k {}
  | .restarts k => some (m.update k {})
  | .queries k agentId =>
    if (m.instances k).draining.isSome then none else some (m.resolveDepth k agentId).2
  | .vacuums cutoff => some (m.vacuum cutoff)

/-! ### What is asked of the mailbox -/

namespace Mailbox

def sentTo (m : Mailbox κ) (agentId : String) : List AgentEvent :=
  (m.sent.filter (·.1 = agentId)).map (·.2)

def returnedTo (m : Mailbox κ) (agentId : String) : List AgentEvent :=
  (m.returned.filter (·.1 = agentId)).map (·.2)

/-- What the drains of an agent returned and what still waits for it is what was sent to it, in
that order; no message is returned twice; and each instance knows the depth. -/
structure Intact [DecidableEq κ] (m : Mailbox κ) : Prop where
  inOrder : ∀ agentId,
    m.returnedTo agentId ++ (m.pending agentId).filterMap rowToEvent = m.sentTo agentId
  once : ∀ agentId, ((m.returnedTo agentId).map (·.id)).Nodup
  depth : ∀ k agentId, (m.resolveDepth k agentId).1 = m.countPending agentId

/-- The step leaves the mailbox as it should be. -/
def KeepsIntact [DecidableEq κ] (m : Mailbox κ) (a : MailboxLabel κ) : Prop :=
  ∀ m', mailboxStep m a = some m' → m'.Intact

/-- No other instance has the agent's depth cached. -/
def Alone (m : Mailbox κ) (k : κ) (agentId : String) : Prop :=
  ∀ k' ≠ k, (m.instances k').depthByAgent agentId = none

/-- A message is sent by an instance that has the depth cached where others wait for the agent,
and no other instance has; a drain marks the rows that it selected, which the clock gave in the
order they were sent, and no other instance has the depth cached; no process is gone in the
middle of a drain that has something to mark. -/
def Undisturbed (m : Mailbox κ) : MailboxLabel κ → Prop
  | .sends k _ toAgent _ fromAgent _ => toAgent ≠ "" → fromAgent ≠ "" →
      ((m.instances k).depthByAgent toAgent = none → m.pending toAgent = []) ∧ m.Alone k toAgent
  | .marks k _ => ∀ agentId rows, (m.instances k).draining = some (agentId, rows) →
      rows.map (·.id) = (m.selectPending agentId).map (·.id) ∧
      (m.pending agentId).Pairwise (fun a b => a.queuedAt ≤ b.queuedAt) ∧ m.Alone k agentId
  | .dies k _ => ∀ agentId rows, (m.instances k).draining = some (agentId, rows) →
      m.pending agentId = []
  | _ => True

end Mailbox

/-! ### Rows and events -/

theorem stringify_ne_empty (j : Json) : stringify j ≠ "" := by
  intro h
  obtain ⟨c, cs, hrender, -⟩ := render_head j
  rw [stringify, hrender] at h
  exact absurd (congrArg String.toList h) (by simp)

/-- The row of a message comes back as its event. -/
theorem rowToEvent_sent (id toAgent fromAgent : String) (payload : Option Json) (queuedAt : Int)
    (drainedAt : Option Int) :
    rowToEvent ⟨id, toAgent, fromAgent, payload.map stringify, queuedAt, drainedAt⟩ =
      some (mailboxEvent id fromAgent payload queuedAt) := by
  cases payload with
  | none => rfl
  | some payload =>
    unfold rowToEvent
    simp only [Option.map_some]
    split
    · rename_i h
      cases h
    · rename_i h
      exact absurd (Option.some.inj h) (stringify_ne_empty payload)
    · rename_i text _ h
      obtain rfl := Option.some.inj h
      rw [parse_stringify]
      rfl

/-- An event keeps the id of its row and the time it was queued. -/
theorem rowToEvent_fields {row : MailboxRow} {event : AgentEvent}
    (h : rowToEvent row = some event) : event.id = row.id ∧ event.timestamp = row.queuedAt := by
  unfold rowToEvent at h
  split at h
  · cases h; exact ⟨rfl, rfl⟩
  · cases h; exact ⟨rfl, rfl⟩
  · obtain ⟨payload, -, rfl⟩ := Option.map_eq_some_iff.mp h
    exact ⟨rfl, rfl⟩

namespace Mailbox

variable {m m' : Mailbox κ} {rows rows' : List MailboxRow} {agentId : String}

/-- The rows are those of messages that were sent to the agent. -/
def Known (m : Mailbox κ) (agentId : String) (rows : List MailboxRow) : Prop :=
  ∀ row ∈ rows, ∃ event, rowToEvent row = some event ∧ (agentId, event) ∈ m.sent

theorem Known.mapM (h : m.Known agentId rows) :
    rows.mapM rowToEvent = some (rows.filterMap rowToEvent) := by
  induction rows with
  | nil => rfl
  | cons row rest ih =>
    obtain ⟨hrow, hrest⟩ := List.forall_mem_cons.mp h
    obtain ⟨event, hevent, -⟩ := hrow
    simp [hevent, ih hrest]

theorem Known.map_eq {β : Type} {f : AgentEvent → β} {g : MailboxRow → β}
    (h : m.Known agentId rows)
    (hfields : ∀ row event, rowToEvent row = some event → f event = g row) :
    (rows.filterMap rowToEvent).map f = rows.map g := by
  induction rows with
  | nil => rfl
  | cons row rest ih =>
    obtain ⟨hrow, hrest⟩ := List.forall_mem_cons.mp h
    obtain ⟨event, hevent, -⟩ := hrow
    rw [List.filterMap_cons_some hevent, List.map_cons, List.map_cons, ih hrest,
      hfields row event hevent]

theorem Known.map_id (h : m.Known agentId rows) :
    (rows.filterMap rowToEvent).map (·.id) = rows.map (·.id) :=
  h.map_eq fun _ _ hevent => (rowToEvent_fields hevent).1

theorem Known.map_timestamp (h : m.Known agentId rows) :
    (rows.filterMap rowToEvent).map (·.timestamp) = rows.map (·.queuedAt) :=
  h.map_eq fun _ _ hevent => (rowToEvent_fields hevent).2

/-- The ids of the rows tell which messages they are. -/
theorem Known.events_eq (hunique : (m.sent.map (·.2.id)).Nodup) (h : m.Known agentId rows)
    (h' : m.Known agentId rows') (hids : rows.map (·.id) = rows'.map (·.id)) :
    rows.filterMap rowToEvent = rows'.filterMap rowToEvent := by
  induction rows generalizing rows' with
  | nil => rw [List.map_eq_nil_iff.mp hids.symm]
  | cons row rest ih =>
    cases rows' with
    | nil => cases hids
    | cons row' rest' =>
      obtain ⟨hrow, hrest⟩ := List.forall_mem_cons.mp h
      obtain ⟨hrow', hrest'⟩ := List.forall_mem_cons.mp h'
      obtain ⟨event, hevent, hsent⟩ := hrow
      obtain ⟨event', hevent', hsent'⟩ := hrow'
      obtain ⟨hid, hids⟩ := List.cons.inj hids
      have hsame : (agentId, event) = (agentId, event') := by
        refine List.inj_on_of_nodup_map hunique hsent hsent' ?_
        exact (rowToEvent_fields hevent).1.trans
          (hid.trans (rowToEvent_fields hevent').1.symm)
      cases hsame
      rw [List.filterMap_cons_some hevent, List.filterMap_cons_some hevent',
        ih hrest hrest' hids]

/-! ### What the statements do -/

theorem pending_insert (m : Mailbox κ) (id toAgent : String) (payload : Option Json)
    (fromAgent : String) (queuedAt : Int) (agentId : String) :
    (m.insert id toAgent payload fromAgent queuedAt).pending agentId = m.pending agentId ++
      if toAgent = agentId then [⟨id, toAgent, fromAgent, payload.map stringify, queuedAt, none⟩]
      else [] := by
  unfold pending insert
  rw [List.filter_append]
  by_cases e : toAgent = agentId <;> simp [e]

theorem pending_markDrained (m : Mailbox κ) (now : Int) (agentId other : String) :
    (m.markDrained now agentId).pending other =
      if other = agentId then [] else m.pending other := by
  unfold pending markDrained
  induction m.rows with
  | nil => simp
  | cons row rest ih =>
    rw [List.map_cons, List.filter_cons, ih, List.filter_cons]
    by_cases hother : other = agentId
    · by_cases hagent : row.toAgent = agentId <;> by_cases hdrained : row.drainedAt = none <;>
        simp [hother, hagent, hdrained]
    · by_cases hagent : row.toAgent = agentId <;> by_cases hdrained : row.drainedAt = none <;>
        simp [hother, hagent, hdrained, Ne.symm hother]

theorem pending_vacuum (m : Mailbox κ) (cutoff : Int) (agentId : String) :
    (m.vacuum cutoff).pending agentId = m.pending agentId := by
  unfold pending vacuum
  rw [List.filter_filter]
  refine List.filter_congr fun row _ => ?_
  cases hdrained : row.drainedAt <;> simp

theorem sentTo_insert (m : Mailbox κ) (id toAgent : String) (payload : Option Json)
    (fromAgent : String) (queuedAt : Int) (agentId : String) :
    (m.insert id toAgent payload fromAgent queuedAt).sentTo agentId = m.sentTo agentId ++
      if toAgent = agentId then [mailboxEvent id fromAgent payload queuedAt] else [] := by
  unfold sentTo insert
  rw [List.filter_append, List.map_append]
  by_cases e : toAgent = agentId <;> simp [e]

variable [DecidableEq κ]

theorem resolveDepth_eq (m : Mailbox κ) (k : κ) (agentId : String) :
    (m.resolveDepth k agentId).1 =
      ((m.instances k).depthByAgent agentId).getD (m.countPending agentId) := by
  unfold resolveDepth
  split
  · rename_i cached e
    rw [e]
    rfl
  · rename_i e
    rw [e]
    rfl

theorem depth_iff : (∀ k agentId, (m.resolveDepth k agentId).1 = m.countPending agentId) ↔
    ∀ k agentId n, (m.instances k).depthByAgent agentId = some n → n = m.countPending agentId := by
  refine forall_congr' fun k => forall_congr' fun agentId => ?_
  rw [resolveDepth_eq]
  cases (m.instances k).depthByAgent agentId with
  | none => exact ⟨fun _ => nofun, fun _ => rfl⟩
  | some n => exact ⟨fun h n' e => Option.some.inj e ▸ h, fun h => h n rfl⟩

theorem setDepth_draining (m : Mailbox κ) (k k' : κ) (agentId : String) (n : Nat) :
    ((m.setDepth k agentId n).instances k').draining = (m.instances k').draining := by
  unfold setDepth update
  by_cases e : k' = k
  · subst e
    simp
  · simp [Function.update_of_ne e]

/-- What is cached after a depth is set. -/
theorem setDepth_cached (m : Mailbox κ) (k k' : κ) (agentId other : String) (n : Nat) :
    ((m.setDepth k agentId n).instances k').depthByAgent other =
      if k' = k ∧ other = agentId then some n else (m.instances k').depthByAgent other := by
  unfold setDepth update
  by_cases e : k' = k
  · subst e
    by_cases e' : other = agentId <;> simp [e']
  · simp [e]

/-! ### What holds of the rows whatever happens -/

end Mailbox

structure MailboxInv (m : Mailbox κ) : Prop where
  unique : (m.sent.map (·.2.id)).Nodup
  known : ∀ row ∈ m.rows, ∃ event, rowToEvent row = some event ∧ (row.toAgent, event) ∈ m.sent
  selected : ∀ k agentId rows, (m.instances k).draining = some (agentId, rows) →
    rows ≠ [] ∧ m.Known agentId rows ∧ rows.Pairwise fun a b => a.queuedAt ≤ b.queuedAt

namespace Mailbox
variable {m m' : Mailbox κ} {a : MailboxLabel κ}

theorem Known.mono {agentId : String} {rows : List MailboxRow} (h : m.Known agentId rows)
    (hsent : ∀ e ∈ m.sent, e ∈ m'.sent) : m'.Known agentId rows := by
  intro row hrow
  obtain ⟨event, hevent, hmem⟩ := h row hrow
  exact ⟨event, hevent, hsent _ hmem⟩

end Mailbox

namespace MailboxInv
variable {m m' : Mailbox κ} {a : MailboxLabel κ}

theorem known_pending (h : MailboxInv m) (agentId : String) :
    m.Known agentId (m.pending agentId) := by
  intro row hrow
  obtain ⟨hmem, hagent⟩ := List.mem_filter.mp hrow
  obtain ⟨event, hevent, hsent⟩ := h.known row hmem
  obtain ⟨rfl, -⟩ := of_decide_eq_true hagent
  exact ⟨event, hevent, hsent⟩

theorem known_selectPending (h : MailboxInv m) (agentId : String) :
    m.Known agentId (m.selectPending agentId) := fun row hrow =>
  h.known_pending agentId row ((List.perm_insertionSort _ _).mem_iff.mp hrow)

/-- A step that keeps the rows but for when they were drained, and starts no drain. -/
theorem of_same (h : MailboxInv m) (hsent : m'.sent = m.sent)
    (hrows : ∀ row' ∈ m'.rows, ∃ row ∈ m.rows, rowToEvent row' = rowToEvent row ∧
      row'.toAgent = row.toAgent)
    (hdraining : ∀ k drain, (m'.instances k).draining = some drain →
      (m.instances k).draining = some drain) : MailboxInv m' where
  unique := by rw [hsent]; exact h.unique
  known row' hrow' := by
    obtain ⟨row, hrow, hevent, hagent⟩ := hrows row' hrow'
    rw [hevent, hagent, hsent]
    exact h.known row hrow
  selected k agentId rows hd := by
    obtain ⟨hne, hknown, hsorted⟩ := h.selected k agentId rows (hdraining k _ hd)
    exact ⟨hne, hknown.mono fun e he => by rw [hsent]; exact he, hsorted⟩

theorem insert (h : MailboxInv m) {id toAgent fromAgent : String} {payload : Option Json}
    {queuedAt : Int} (hid : id ∉ m.sent.map (·.2.id)) :
    MailboxInv (m.insert id toAgent payload fromAgent queuedAt) where
  unique := by
    simp only [Mailbox.insert, List.map_append, List.map_cons, List.map_nil, mailboxEvent]
    exact List.nodup_append.mpr ⟨h.unique, List.nodup_singleton _, fun x hx y hy e =>
      hid (List.mem_singleton.mp hy ▸ e ▸ hx)⟩
  known row hrow := by
    rcases List.mem_append.mp hrow with hrow | hrow
    · obtain ⟨event, hevent, hsent⟩ := h.known row hrow
      exact ⟨event, hevent, List.mem_append_left _ hsent⟩
    · obtain rfl := List.mem_singleton.mp hrow
      exact ⟨_, rowToEvent_sent _ _ _ _ _ _,
        List.mem_append_right _ (List.mem_singleton_self _)⟩
  selected k agentId rows hd := by
    obtain ⟨hne, hknown, hsorted⟩ := h.selected k agentId rows hd
    exact ⟨hne, hknown.mono fun e he => List.mem_append_left _ he, hsorted⟩

theorem markDrained (h : MailboxInv m) (now : Int) (agentId : String) :
    MailboxInv (m.markDrained now agentId) := by
  refine h.of_same rfl (fun row' hrow' => ?_) fun _ _ hd => hd
  obtain ⟨row, hrow, rfl⟩ := List.mem_map.mp hrow'
  refine ⟨row, hrow, ?_⟩
  split <;> exact ⟨rfl, rfl⟩

variable [DecidableEq κ]

theorem setDepth (h : MailboxInv m) (k : κ) (agentId : String) (n : Nat) :
    MailboxInv (m.setDepth k agentId n) :=
  h.of_same rfl (fun row hrow => ⟨row, hrow, rfl, rfl⟩) fun k' _ hd => by
    rwa [Mailbox.setDepth_draining] at hd

/-- An instance that is in the middle of no drain. -/
theorem update (h : MailboxInv m) (k : κ) {i : MailboxInstance} (hi : i.draining = none) :
    MailboxInv (m.update k i) := by
  refine h.of_same rfl (fun row hrow => ⟨row, hrow, rfl, rfl⟩) fun k' drain hd => ?_
  by_cases e : k' = k
  · subst e
    simp [Mailbox.update, hi] at hd
  · simpa [Mailbox.update, Function.update_of_ne e] using hd

theorem step (h : MailboxInv m) (hstep : mailboxStep m a = some m') : MailboxInv m' := by
  cases a with
  | sends k id toAgent payload fromAgent now =>
    simp only [mailboxStep, Option.ite_none_left_eq_some, Option.some.injEq, not_or] at hstep
    obtain ⟨⟨-, hid⟩, rfl⟩ := hstep
    unfold Mailbox.send
    split
    · exact h
    · split
      · exact h
      · exact (h.insert hid).setDepth _ _ _
  | selects k agentId =>
    simp only [mailboxStep, Option.ite_none_left_eq_some] at hstep
    obtain ⟨-, hstep⟩ := hstep
    split at hstep
    · obtain rfl := Option.some.inj hstep
      exact h
    · rename_i hne
      obtain rfl := Option.some.inj hstep
      refine ⟨h.unique, h.known, fun k' agentId' rows hd => ?_⟩
      by_cases e : k' = k
      · subst e
        simp only [Mailbox.update, Function.update_self, Option.some.injEq, Prod.mk.injEq] at hd
        obtain ⟨rfl, rfl⟩ := hd
        exact ⟨hne, h.known_selectPending agentId, List.pairwise_insertionSort _ _⟩
      · simp only [Mailbox.update, Function.update_of_ne e] at hd
        exact h.selected k' agentId' rows hd
  | marks k now =>
    obtain ⟨⟨agentId, rows⟩, -, rfl⟩ := Option.map_eq_some_iff.mp hstep
    have hmarked := ((h.markDrained now agentId).setDepth k agentId 0).update k
      (i := { ((m.markDrained now agentId).setDepth k agentId 0).instances k with
        draining := none }) rfl
    exact ⟨hmarked.unique, hmarked.known, hmarked.selected⟩
  | dies k now =>
    obtain ⟨⟨agentId, rows⟩, -, rfl⟩ := Option.map_eq_some_iff.mp hstep
    exact (h.markDrained now agentId).update k rfl
  | restarts k =>
    obtain rfl := Option.some.inj hstep
    exact h.update k rfl
  | queries k agentId =>
    simp only [mailboxStep, Option.ite_none_left_eq_some, Option.some.injEq] at hstep
    obtain ⟨-, rfl⟩ := hstep
    unfold Mailbox.resolveDepth
    split
    · exact h
    · exact h.setDepth _ _ _
  | vacuums cutoff =>
    obtain rfl := Option.some.inj hstep
    exact h.of_same rfl (fun row hrow => ⟨row, List.mem_of_mem_filter hrow, rfl, rfl⟩)
      fun _ _ hd => hd

end MailboxInv

/-! ### When the mailbox stays intact -/

namespace Mailbox
variable {m m' : Mailbox κ} {a : MailboxLabel κ}

/-- Nothing is returned twice where the order is kept. -/
theorem once_of_inOrder (h : MailboxInv m) {agentId : String} {events : List AgentEvent}
    (hinOrder : m.returnedTo agentId ++ events = m.sentTo agentId) :
    ((m.returnedTo agentId).map (·.id)).Nodup := by
  have hsent : ((m.sentTo agentId).map (·.id)).Nodup := by
    unfold sentTo
    rw [List.map_map]
    exact h.unique.sublist (List.filter_sublist.map _)
  rw [← hinOrder, List.map_append] at hsent
  exact hsent.of_append_left

/-- A drain returns the messages that it marks, in order, if and only if the rows it selected
are still those that a select finds, and the clock kept the order. -/
theorem selected_iff (h : MailboxInv m) {k : κ} {agentId : String} {rows : List MailboxRow}
    (hd : (m.instances k).draining = some (agentId, rows)) :
    rows.filterMap rowToEvent = (m.pending agentId).filterMap rowToEvent ↔
      rows.map (·.id) = (m.selectPending agentId).map (·.id) ∧
      (m.pending agentId).Pairwise fun a b => a.queuedAt ≤ b.queuedAt := by
  obtain ⟨-, hknown, hsorted⟩ := h.selected k agentId rows hd
  have hpending := h.known_pending agentId
  constructor
  · intro hevents
    have hpairwise : (m.pending agentId).Pairwise fun a b => a.queuedAt ≤ b.queuedAt := by
      have htimes := congrArg (List.map (·.timestamp)) hevents
      rw [hknown.map_timestamp, hpending.map_timestamp] at htimes
      have hmapped : (rows.map (·.queuedAt)).Pairwise (· ≤ ·) := List.pairwise_map.mpr hsorted
      rw [htimes] at hmapped
      exact List.pairwise_map.mp hmapped
    have hids := congrArg (List.map (·.id)) hevents
    rw [hknown.map_id, hpending.map_id] at hids
    refine ⟨?_, hpairwise⟩
    unfold selectPending
    rw [hpairwise.insertionSort_eq]
    exact hids
  · rintro ⟨hids, hpairwise⟩
    unfold selectPending at hids
    rw [hpairwise.insertionSort_eq] at hids
    exact hknown.events_eq h.unique hpending hids

variable [DecidableEq κ]

/-- A step that concerns no message, and caches right depths only. -/
theorem Intact.of_same (h : m.Intact) (hpending : ∀ agentId, m'.pending agentId = m.pending agentId)
    (hsent : m'.sent = m.sent) (hreturned : m'.returned = m.returned)
    (hcached : ∀ k agentId n, (m'.instances k).depthByAgent agentId = some n →
      (m.instances k).depthByAgent agentId = some n ∨ n = m.countPending agentId) :
    m'.Intact where
  inOrder agentId := by
    have hinOrder := h.inOrder agentId
    unfold returnedTo sentTo at hinOrder ⊢
    rw [hpending, hsent, hreturned]
    exact hinOrder
  once agentId := by
    unfold returnedTo
    rw [hreturned]
    exact h.once agentId
  depth := by
    refine depth_iff.mpr fun k agentId n hn => ?_
    unfold countPending
    rw [hpending]
    rcases hcached k agentId n hn with hn | hn
    · exact depth_iff.mp h.depth k agentId n hn
    · exact hn

/-- An instance that starts cold. -/
theorem Intact.cold (h : m.Intact) (k : κ) : (m.update k {}).Intact := by
  refine h.of_same (fun _ => rfl) rfl rfl fun k' agentId n hn => ?_
  by_cases e : k' = k
  · subst e
    simp [update] at hn
  · simp only [update, Function.update_of_ne e] at hn
    exact .inl hn

theorem returnedTo_finishDrain (h : MailboxInv m) {k : κ} {agentId : String}
    {rows : List MailboxRow} (hd : (m.instances k).draining = some (agentId, rows)) (now : Int)
    (other : String) : (m.finishDrain k agentId rows now).returnedTo other =
      m.returnedTo other ++ if other = agentId then rows.filterMap rowToEvent else [] := by
  obtain ⟨-, hknown, -⟩ := h.selected k agentId rows hd
  unfold returnedTo finishDrain
  simp only [hknown.mapM, Option.getD_some]
  rw [List.filter_append, List.map_append]
  by_cases e : other = agentId
  · subst e
    simp [List.filter_map, Function.comp_def, setDepth, update, markDrained]
  · simp [List.filter_map, Function.comp_def, setDepth, update, markDrained, e, Ne.symm e]

theorem pending_finishDrain (m : Mailbox κ) (k : κ) (agentId : String) (rows : List MailboxRow)
    (now : Int) (other : String) : (m.finishDrain k agentId rows now).pending other =
      if other = agentId then [] else m.pending other :=
  pending_markDrained m now agentId other

theorem cached_finishDrain (m : Mailbox κ) (k k' : κ) (agentId other : String)
    (rows : List MailboxRow) (now : Int) :
    ((m.finishDrain k agentId rows now).instances k').depthByAgent other =
      if k' = k ∧ other = agentId then some 0 else (m.instances k').depthByAgent other := by
  rw [← setDepth_cached]
  unfold finishDrain update
  by_cases e : k' = k
  · subst e
    simp [setDepth, update, markDrained]
  · simp [Function.update_of_ne e, setDepth, update, markDrained]

theorem intact_send_iff (h : m.Intact) {k : κ}
    {id toAgent fromAgent : String} {payload : Option Json} {now : Int} :
    ((m.insert id toAgent payload fromAgent now).incDepth k toAgent).Intact ↔
      ((m.instances k).depthByAgent toAgent = none → m.pending toAgent = []) ∧
        m.Alone k toAgent := by
  have hcount (agentId : String) :
      ((m.insert id toAgent payload fromAgent now).incDepth k toAgent).countPending agentId =
        m.countPending agentId + if toAgent = agentId then 1 else 0 := by
    unfold countPending
    rw [show ((m.insert id toAgent payload fromAgent now).incDepth k toAgent).pending agentId = _
      from pending_insert m id toAgent payload fromAgent now agentId, List.length_append]
    split <;> rfl
  have hcached := depth_iff.mp h.depth
  constructor
  · intro hintact
    have hcached' := depth_iff.mp hintact.depth
    refine ⟨fun hnone => ?_, fun k' hk' => ?_⟩
    · have hone := hcached' k toAgent 1 (by
        rw [incDepth, setDepth_cached, if_pos ⟨rfl, rfl⟩]
        exact congrArg (fun cached => some (cached.getD 0 + 1)) hnone)
      rw [hcount, if_pos rfl] at hone
      exact List.length_eq_zero_iff.mp (Nat.succ.inj hone).symm
    · cases hn : (m.instances k').depthByAgent toAgent with
      | none => rfl
      | some n =>
        have hstale := hcached' k' toAgent n (by
          rw [incDepth, setDepth_cached, if_neg (fun e => hk' e.1)]
          exact hn)
        have hright := hcached k' toAgent n hn
        rw [hcount, if_pos rfl] at hstale
        omega
  · rintro ⟨hcold, halone⟩
    have hinOrder (agentId : String) :
        m.returnedTo agentId ++ ((m.insert id toAgent payload fromAgent now).pending
          agentId).filterMap rowToEvent =
            (m.insert id toAgent payload fromAgent now).sentTo agentId := by
      rw [pending_insert, sentTo_insert, List.filterMap_append, ← List.append_assoc, h.inOrder]
      split
      · rw [List.filterMap_cons_some (rowToEvent_sent _ _ _ _ _ _), List.filterMap_nil]
      · rfl
    refine ⟨hinOrder, h.once, depth_iff.mpr fun k' agentId n hn => ?_⟩
    rw [incDepth, setDepth_cached] at hn
    rw [hcount]
    split at hn
    · rename_i hsame
      obtain ⟨rfl, rfl⟩ := hsame
      rw [if_pos rfl, ← Option.some.inj hn]
      cases hk : (m.instances k').depthByAgent agentId with
      | none =>
        have hzero : m.countPending agentId = 0 := by
          rw [countPending, hcold hk, List.length_nil]
        rw [hzero]
        exact congrArg (fun cached => cached.getD 0 + 1) hk
      | some n' =>
        rw [← hcached k' agentId n' hk]
        exact congrArg (fun cached => cached.getD 0 + 1) hk
    · rename_i hother
      have hn : (m.instances k').depthByAgent agentId = some n := hn
      by_cases e : toAgent = agentId
      · subst e
        rw [halone k' fun e => hother ⟨e, rfl⟩] at hn
        cases hn
      · rw [if_neg e, Nat.add_zero]
        exact hcached k' agentId n hn

theorem intact_marks_iff (hm : MailboxInv m) (h : m.Intact) {k : κ} {agentId : String}
    {rows : List MailboxRow} (hd : (m.instances k).draining = some (agentId, rows)) (now : Int) :
    (m.finishDrain k agentId rows now).Intact ↔
      rows.map (·.id) = (m.selectPending agentId).map (·.id) ∧
      (m.pending agentId).Pairwise (fun a b => a.queuedAt ≤ b.queuedAt) ∧ m.Alone k agentId := by
  have hm' : MailboxInv (m.finishDrain k agentId rows now) :=
    hm.step (a := .marks k now) (by rw [mailboxStep, hd]; rfl)
  have hcached := depth_iff.mp h.depth
  rw [← and_assoc, ← selected_iff hm hd]
  constructor
  · intro hintact
    have hevents : rows.filterMap rowToEvent = (m.pending agentId).filterMap rowToEvent := by
      have hafter := hintact.inOrder agentId
      rw [returnedTo_finishDrain hm hd, pending_finishDrain, if_pos rfl, if_pos rfl,
        List.filterMap_nil, List.append_nil] at hafter
      exact List.append_cancel_left (hafter.trans (h.inOrder agentId).symm)
    refine ⟨hevents, fun k' hk' => ?_⟩
    cases hn : (m.instances k').depthByAgent agentId with
    | none => rfl
    | some n =>
      -- the depth that it has is not zero, for there were rows to select
      obtain ⟨hne, hknown, -⟩ := hm.selected k agentId rows hd
      have hright := hcached k' agentId n hn
      have hzero := depth_iff.mp hintact.depth k' agentId n (by
        rw [cached_finishDrain, if_neg fun e => hk' e.1]
        exact hn)
      rw [countPending, pending_finishDrain, if_pos rfl] at hzero
      have hnone : m.pending agentId = [] := List.length_eq_zero_iff.mp (hright.symm.trans hzero)
      have hids := congrArg (List.map (·.id)) hevents
      rw [hknown.map_id, hnone, List.filterMap_nil, List.map_nil] at hids
      exact absurd (List.map_eq_nil_iff.mp hids) hne
  · rintro ⟨hevents, halone⟩
    have hinOrder (other : String) : (m.finishDrain k agentId rows now).returnedTo other ++
        ((m.finishDrain k agentId rows now).pending other).filterMap rowToEvent =
          m.sentTo other := by
      rw [returnedTo_finishDrain hm hd, pending_finishDrain, ← h.inOrder other]
      by_cases e : other = agentId
      · subst e
        rw [if_pos rfl, if_pos rfl, hevents, List.filterMap_nil, List.append_nil]
      · rw [if_neg e, if_neg e, List.append_nil]
    refine ⟨hinOrder, fun other => once_of_inOrder hm' (hinOrder other),
      depth_iff.mpr fun k' other n hn => ?_⟩
    rw [cached_finishDrain] at hn
    rw [countPending, pending_finishDrain]
    split at hn
    · rename_i hsame
      rw [if_pos hsame.2]
      exact (Option.some.inj hn).symm
    · rename_i hother
      by_cases e : other = agentId
      · subst e
        rw [halone k' fun e => hother ⟨e, rfl⟩] at hn
        cases hn
      · rw [if_neg e]
        exact hcached k' other n hn

theorem intact_step_iff (hm : MailboxInv m) (h : m.Intact) (hstep : mailboxStep m a = some m') :
    m'.Intact ↔ m.Undisturbed a := by
  cases a with
  | sends k id toAgent payload fromAgent now =>
    simp only [mailboxStep, Option.ite_none_left_eq_some, Option.some.injEq] at hstep
    obtain ⟨-, rfl⟩ := hstep
    unfold send Undisturbed
    split
    · rename_i hto
      exact ⟨fun _ hne => absurd hto hne, fun _ => h⟩
    · rename_i hto
      split
      · rename_i hfrom
        exact ⟨fun _ _ hne => absurd hfrom hne, fun _ => h⟩
      · rename_i hfrom
        exact (intact_send_iff h).trans ⟨fun hall _ _ => hall, fun hall => hall hto hfrom⟩
  | selects k agentId =>
    simp only [mailboxStep, Option.ite_none_left_eq_some] at hstep
    obtain ⟨-, hstep⟩ := hstep
    refine iff_of_true ?_ trivial
    split at hstep
    · obtain rfl := Option.some.inj hstep
      exact h
    · obtain rfl := Option.some.inj hstep
      refine h.of_same (fun _ => rfl) rfl rfl fun k' other n hn => .inl ?_
      by_cases e : k' = k
      · subst e
        simpa [update] using hn
      · simpa [update, Function.update_of_ne e] using hn
  | marks k now =>
    obtain ⟨⟨agentId, rows⟩, hd, rfl⟩ := Option.map_eq_some_iff.mp hstep
    rw [intact_marks_iff hm h hd, Undisturbed]
    refine ⟨fun hall agentId' rows' hd' => ?_, fun hall => hall agentId rows hd⟩
    obtain ⟨rfl, rfl⟩ := Prod.mk.inj (Option.some.inj (hd'.symm.trans hd))
    exact hall
  | dies k now =>
    obtain ⟨⟨agentId, rows⟩, hd, rfl⟩ := Option.map_eq_some_iff.mp hstep
    have hundisturbed : m.Undisturbed (.dies k now) ↔ m.pending agentId = [] := by
      rw [Undisturbed]
      refine ⟨fun hall => hall agentId rows hd, fun hnone agentId' rows' hd' => ?_⟩
      obtain ⟨rfl, rfl⟩ := Prod.mk.inj (Option.some.inj (hd'.symm.trans hd))
      exact hnone
    rw [hundisturbed]
    constructor
    · intro hintact
      -- what is marked and not returned is lost
      have hafter := hintact.inOrder agentId
      rw [show ((m.markDrained now agentId).update k {}).pending agentId = _ from
        pending_markDrained m now agentId agentId, if_pos rfl, List.filterMap_nil] at hafter
      have hevents : [] = (m.pending agentId).filterMap rowToEvent :=
        List.append_cancel_left (hafter.trans (h.inOrder agentId).symm)
      have hids := congrArg (List.map (·.id)) hevents
      rw [(hm.known_pending agentId).map_id] at hids
      exact List.map_eq_nil_iff.mp hids.symm
    · intro hnone
      have hmarked : (m.markDrained now agentId).Intact := by
        refine h.of_same (fun other => ?_) rfl rfl fun _ _ _ hn => .inl hn
        rw [pending_markDrained]
        split
        · rename_i e
          rw [e, hnone]
        · rfl
      exact hmarked.cold k
  | restarts k =>
    obtain rfl := Option.some.inj hstep
    exact iff_of_true (h.cold k) trivial
  | queries k agentId =>
    simp only [mailboxStep, Option.ite_none_left_eq_some, Option.some.injEq] at hstep
    obtain ⟨-, rfl⟩ := hstep
    refine iff_of_true ?_ trivial
    unfold resolveDepth
    split
    · exact h
    · refine h.of_same (fun _ => rfl) rfl rfl fun k' other n hn => ?_
      rw [setDepth_cached] at hn
      split at hn
      · rename_i hsame
        rw [hsame.2]
        exact .inr (Option.some.inj hn).symm
      · exact .inl hn
  | vacuums cutoff =>
    obtain rfl := Option.some.inj hstep
    exact iff_of_true (h.of_same (fun _ => pending_vacuum m cutoff _) rfl rfl
      fun _ _ _ hn => .inl hn) trivial

end Mailbox

/-- **The mailbox keeps its messages and its depths** in exactly the runs in which no instance
sends past its cold cache or another one's cached depth, every drain marks the rows it selected,
and no process is gone between marking rows and returning them. -/
theorem intact_iff [DecidableEq κ] {m : Mailbox κ} {as : List (MailboxLabel κ)} :
    Run mailboxStep Mailbox.KeepsIntact { instances := fun _ => {} } as m ↔
      Run mailboxStep Mailbox.Undisturbed { instances := fun _ => {} } as m := by
  have hstart : MailboxInv { instances := fun _ : κ => {} } ∧
      Mailbox.Intact { instances := fun _ : κ => {} } :=
    ⟨⟨List.nodup_nil, nofun, nofun⟩, fun _ => rfl, fun _ => List.nodup_nil, fun _ _ => rfl⟩
  refine Run.leads_iff (P := fun m : Mailbox κ => MailboxInv m ∧ m.Intact) hstart
    fun m a m' hm hstep => ⟨Mailbox.intact_step_iff hm.1 hm.2 hstep, fun hintact => ?_⟩
  exact ⟨hm.1.step hstep, hintact⟩

/-- After a restart the first message is counted as the only one. -/
theorem depth_after_restart :
    ∃ m : Mailbox Unit, Run mailboxStep Any { instances := fun _ => {} }
        [.sends () "a" "agent" none "peer" 0, .restarts (), .sends () "b" "agent" none "peer" 1]
        m ∧
      (m.resolveDepth () "agent").1 = 1 ∧ m.countPending "agent" = 2 ∧ ¬ m.Intact := by
  have hreplay : (exec mailboxStep { instances := fun _ : Unit => {} }
      [.sends () "a" "agent" none "peer" 0, .restarts (), .sends () "b" "agent" none "peer" 1]).any
        (fun m => decide ((m.resolveDepth () "agent").1 = 1 ∧ m.countPending "agent" = 2)) =
          true := by
    decide
  obtain ⟨m, r, h⟩ := Run.any_of_replay hreplay
  obtain ⟨hdepth, hcount⟩ := of_decide_eq_true h
  refine ⟨m, r, hdepth, hcount, fun hintact => ?_⟩
  have hright := hintact.depth () "agent"
  omega

end Declaragent.Events
