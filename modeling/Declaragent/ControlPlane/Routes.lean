import Declaragent.Audit.Sink
import Declaragent.ControlPlane.Auth
import Declaragent.Events.Store
import Declaragent.Library.Base64Url
import Declaragent.Library.Paging
import Mathlib.Data.List.Flatten
import Mathlib.Data.Prod.Lex

/-!
# ControlPlane — the paged routes

`/events`, `/dlq` and `/audit` answer with a page of rows and an opaque cursor for the next page.
The cursor is applied to a window of rows that is read from the start each time.

* `eventsRoute`, `dlqRoute`, `auditRoute`: the handlers, from the query parameters to the page.
* `Follows`: the pages that a client gets that passes each cursor back.
* `pages_iff`: when the pages together are the matching rows.
-/

namespace Declaragent.ControlPlane
open JsonText Events
open Paging (Reader)

/-- `searchParams.get`. -/
abbrev Params := String → Option String

structure RouteRequest where
  method : String := "GET"
  params : Params

/-- The response of a handler; `HEAD` gets no body. -/
inductive JsonResponse (β : Type) where
  | methodNotAllowed
  | error (status : Nat) (message : String)
  | ok (body : Option β)

/-! ### Cursors -/

structure EventCursor where
  beforeTs : Number
  beforeId : String

structure AuditCursor where
  beforeSeq : Number

def EventCursor.json (c : EventCursor) : Json :=
  .obj [("beforeTs", .num c.beforeTs), ("beforeId", .str c.beforeId)]

def AuditCursor.json (c : AuditCursor) : Json := .obj [("beforeSeq", .num c.beforeSeq)]

def encodeCursor (value : Json) : String :=
  String.ofList (Base64Url.encode (Utf8.encode (stringify value).toList))

/-- The property of an object that was parsed: the last one of its name counts. -/
def parsedField (key : String) : Json → Option Json
  | .obj fields => fields.reverse.lookup key
  | _ => none

/-- What is no object, and what has a text under `error`, is an error. -/
def decodeOpaqueCursor (raw : String) : Except String Json :=
  match parse (String.ofList (Utf8.decode (Base64Url.decode raw.toList))) with
  | some (.obj fields) =>
    match parsedField "error" (.obj fields) with
    | some (.str error) => .error error
    | _ => .ok (.obj fields)
  | some (.arr items) => .ok (.arr items)
  | _ => .error "malformed cursor"

def decodeEventCursor (raw : String) : Except String EventCursor :=
  match decodeOpaqueCursor raw with
  | .error error => .error error
  | .ok parsed =>
    match parsedField "beforeTs" parsed, parsedField "beforeId" parsed with
    | some (.num beforeTs), some (.str beforeId) => .ok { beforeTs, beforeId }
    | _, _ => .error "malformed cursor"

def decodeAuditCursor (raw : String) : Except String AuditCursor :=
  match decodeOpaqueCursor raw with
  | .error error => .error error
  | .ok parsed =>
    match parsedField "beforeSeq" parsed with
    | some (.num beforeSeq) =>
      if beforeSeq.value < 0 then .error "malformed cursor" else .ok { beforeSeq }
    | _ => .error "malformed cursor"

/-- The cursor of the parameters, where it is not empty. -/
def parseCursor {κ : Type} (decode : String → Except String κ) (params : Params) :
    Except String (Option κ) :=
  match params "cursor" with
  | none | some "" => .ok none
  | some raw => (decode raw).map some

/-! ### The other parameters -/

/-- `Number.parseInt(raw, 10)`. -/
def parseInteger (raw : String) : Option Int :=
  let cs := raw.toList.dropWhile Numeral.isWhite
  let negative := cs.head? = some '-'
  let ds := (if cs.head? = some '-' ∨ cs.head? = some '+' then cs.drop 1 else cs).takeWhile
    Char.isDigit
  if ds = [] then none
  else some (if negative then -Nat.ofDigitChars 10 ds 0 else Nat.ofDigitChars 10 ds 0)

/-- The bounds of a route. -/
structure Limits where
  maxLimit : Nat := 500
  defaultLimit : Nat := 200
  positive : 0 < defaultLimit := by decide

def parseLimit (limits : Limits) (params : Params) : Except String Nat :=
  match params "limit" with
  | none | some "" => .ok limits.defaultLimit
  | some raw =>
    match parseInteger raw with
    | none => .error "limit must be a positive integer"
    | some n =>
      if n ≤ 0 then .error "limit must be a positive integer"
      else if limits.maxLimit < n then .error ("limit exceeds max " ++ toString limits.maxLimit)
      else .ok n.toNat

/-- A number, or what `Date.parse` makes of the text. -/
def parseSince (dateParse : String → Option ℚ) (raw : Option String) : Except String (Option ℚ) :=
  match raw with
  | none | some "" => .ok none
  | some raw =>
    match Numeral.ofText raw with
    | .finite asNum => .ok (some asNum)
    | .nonFinite _ =>
      match dateParse raw with
      | some asDate => .ok (some asDate)
      | none => .error "since must be a number (ms epoch) or ISO-8601 timestamp"

/-- A parameter that is neither missing nor empty. -/
def given (params : Params) (key : String) : Option String := (params key).filter (· ≠ "")

/-- How many rows are read. -/
def overFetch (limit : Nat) {κ : Type} (cursor : Option κ) : Nat :=
  if cursor.isSome then max (limit * 2 + 1) 256 else limit + 1

/-- The page and the next cursor, of the rows that are kept. -/
def cutPage {α : Type} (limit : Nat) (token : α → String) (kept : List α) :
    List α × Option String :=
  let filtered := kept.take (limit + 1)
  let hasMore := limit < filtered.length
  let page := if hasMore then filtered.take limit else filtered
  (page, if hasMore then page.getLast?.map token else none)

theorem cutPage_eq {α : Type} (limit : Nat) (token : α → String) (kept : List α) :
    cutPage limit token kept = (kept.take limit,
      if limit < kept.length then (kept.take limit).getLast?.map token else none) := by
  have hlength : limit < (kept.take (limit + 1)).length ↔ limit < kept.length := by
    rw [List.length_take]
    omega
  have htake : (kept.take (limit + 1)).take limit = kept.take limit := by
    rw [List.take_take, min_eq_left (Nat.le_succ limit)]
  by_cases hmore : limit < kept.length
  · simp only [cutPage, hlength, hmore, if_true, htake]
  · have hall : ∀ n, limit ≤ n → kept.take n = kept := fun n hn =>
      List.take_of_length_le ((not_lt.mp hmore).trans hn)
    simp only [cutPage, hmore, if_false, hall _ le_rfl, hall _ (Nat.le_succ limit)]

/-! ### Rows of a store -/

/-- The columns of a table that its cursor is made of. -/
structure Columns (ρ : Type) where
  ts : ρ → Int
  id : ρ → String

/-- A table that is read newest first.  `select` are the rows of a filter in the order in which the
query lists them without a limit: rows of one time are in any order. -/
structure Table {ρ φ : Type} (column : Columns ρ) (accepts : φ → ρ → Bool) where
  rows : List ρ
  keyed : (rows.map column.id).Nodup
  select : φ → List ρ
  perm : ∀ filter, (select filter).Perm (rows.filter (accepts filter))
  newest : ∀ filter, (select filter).Pairwise fun a b => column.ts b ≤ column.ts a

/-- A row, with the agent it belongs to on a fan-out. -/
abbrev Tagged (ρ : Type) := Option String × ρ

section
variable {ρ φ : Type} (column : Columns ρ) {accepts : φ → ρ → Bool}

def cursorOf (row : ρ) : EventCursor := ⟨.ofInt (column.ts row), column.id row⟩

/-- The row is older than the cursor. -/
def EventCursor.keeps (cursor : EventCursor) (row : ρ) : Bool :=
  !(decide (cursor.beforeTs.value < column.ts row) ||
    (decide ((column.ts row : ℚ) = cursor.beforeTs.value) &&
      decide (utf16 cursor.beforeId ≤ utf16 (column.id row))))

/-- The order of a merged stream. -/
def NewestFirst (a b : Tagged ρ) : Prop :=
  column.ts b.2 < column.ts a.2 ∨
    (column.ts a.2 = column.ts b.2 ∧ utf16 (column.id b.2) ≤ utf16 (column.id a.2))

instance : DecidableRel (NewestFirst column) := fun _ _ => inferInstanceAs (Decidable (_ ∨ _))

/-- The tables that a request reads. -/
inductive Targets (column : Columns ρ) (accepts : φ → ρ → Bool) where
  | single (table : Table column accepts)
  /-- `?all=1`: one table for each agent. -/
  | fanOut (tables : List (String × Table column accepts))
      (unique : (tables.map Prod.fst).Nodup)

variable {column}

/-- What is read of the tables: a limit holds for each of them, and for what is merged. -/
def Targets.window (filter : φ) (limit : Nat) : Targets column accepts → List (Tagged ρ)
  | .single table => ((table.select filter).take limit).map fun row => (none, row)
  | .fanOut tables _ =>
    ((tables.flatMap fun t => ((t.2.select filter).take limit).map fun row =>
      (some t.1, row)).insertionSort (NewestFirst column)).take limit

/-- What there is to read, in the declared order. -/
def Targets.whole (filter : φ) : Targets column accepts → List (Tagged ρ)
  | .single table => (table.select filter).map fun row => (none, row)
  | .fanOut tables _ =>
    (tables.flatMap fun t => (t.2.select filter).map fun row =>
      (some t.1, row)).insertionSort (NewestFirst column)

/-- A page, of the rows that are shown and older than the cursor. -/
def pageOf (targets : Targets column accepts) (filter : φ) (shown : ρ → Bool) (limit : Nat)
    (cursor : Option EventCursor) : List (Tagged ρ) × Option String :=
  cutPage limit (fun row => encodeCursor (cursorOf column row.2).json)
    ((targets.window filter (overFetch limit cursor)).filter fun row =>
      cursor.all (·.keeps column row.2) && shown row.2)

/-- Where `?all=1` is asked for, the tables of all agents. -/
def targetsOf (fanOut : Option (Targets column accepts)) (table : Table column accepts)
    (params : Params) : Except String (Targets column accepts) :=
  if params "all" = some "1" then
    match fanOut with
    | none => .error "?all=1 not supported: fan-out provider not configured"
    | some targets => .ok targets
  else .ok (.single table)

end

/-- The error of a `400`, or the page. -/
def answer {β : Type} (request : RouteRequest) (body : Except String β) : JsonResponse β :=
  if request.method ≠ "GET" ∧ request.method ≠ "HEAD" then .methodNotAllowed
  else
    match body with
    | .error message => .error 400 message
    | .ok body => .ok (if request.method = "HEAD" then none else some body)

/-! ### `/events` -/

def EventKind.name : EventKind → String
  | .userInput => "user.input"
  | .triggerFire => "trigger.fire"
  | .webhookReceived => "webhook.received"
  | .fileChanged => "file.changed"
  | .mcpNotification => "mcp.notification"
  | .mailboxMessage => "mailbox.message"
  | .selfWakeup => "self.wakeup"
  | .selfRetry => "self.retry"
  | .chatMessage => "chat.message"
  | .chatMention => "chat.mention"
  | .chatDm => "chat.dm"
  | .chatVoice => "chat.voice"
  | .chatFile => "chat.file"
  | .channelInteraction => "channel.interaction"
  | .channelCommand => "channel.command"
  | .channelReaction => "channel.reaction"
  | .channelPresence => "channel.presence"
  | .channelSendRequest => "channel.send.request"
  | .channelSendDelivered => "channel.send.delivered"
  | .channelSendFailed => "channel.send.failed"
  | .assistantMessage => "assistant.message"
  | .assistantFinal => "assistant.final"
  | .turnStarted => "turn.started"

def targetType : EventTarget → String
  | .session .. => "session"
  | .newSession .. => "new-session"
  | .skill .. => "skill"
  | .subAgent .. => "sub-agent"
  | .broadcast => "broadcast"

def DispatchOutcome.kindName : DispatchOutcome → String
  | .dispatched _ => "dispatched"
  | .broadcast => "broadcast"
  | .queued _ => "queued"
  | .duplicate .. => "duplicate"
  | .rejected .. => "rejected"

structure EventStoreListFilter where
  kind : Option String := none
  correlationId : Option String := none
  sinceMs : Option ℚ := none
  outcomeKind : Option String := none

/-- The `WHERE` clause. -/
def EventStoreListFilter.accepts (filter : EventStoreListFilter) (row : EventStoreRecord) : Bool :=
  filter.kind.all (fun kind => EventKind.name row.event.kind = kind) &&
  filter.correlationId.all (fun id => row.event.info.bind (·.correlationId) = some id) &&
  filter.sinceMs.all (fun since => since ≤ (row.event.timestamp : ℚ)) &&
  filter.outcomeKind.all fun kind =>
    if kind = "pending" then row.outcome.isNone
    else row.outcome.map DispatchOutcome.kindName = some kind

def eventColumns : Columns EventStoreRecord where
  ts row := row.event.timestamp
  id row := row.event.id

abbrev EventTable := Table eventColumns EventStoreListFilter.accepts

abbrev EventTargets := Targets eventColumns EventStoreListFilter.accepts

structure EventsResponseEntry where
  id : String
  kind : EventKind
  ts : Int
  recordedAt : Int
  correlationId : Option String
  sourceType : String
  targetType : String
  outcome : Option DispatchOutcome
  outcomeAt : Option Int
  event : AgentEvent
  agentId : Option String

def toEventsEntry (row : Tagged EventStoreRecord) : EventsResponseEntry where
  id := row.2.event.id
  kind := row.2.event.kind
  ts := row.2.event.timestamp
  recordedAt := row.2.recordedAt
  correlationId := row.2.event.info.bind (·.correlationId)
  sourceType := row.2.event.source.type
  targetType := targetType row.2.event.target
  outcome := row.2.outcome
  outcomeAt := row.2.outcomeAt
  event := row.2.event
  agentId := row.1

/-- A page of entries. -/
structure PageResponse (ε : Type) where
  entries : List ε
  nextCursor : Option String

def ALLOWED_OUTCOME_KINDS : List String :=
  ["dispatched", "broadcast", "queued", "duplicate", "rejected", "pending"]

structure EventsQuery where
  limit : Nat
  filter : EventStoreListFilter
  circuitOpen : Bool
  cursor : Option EventCursor

/-- `state`, of which one is supported. -/
def parseState (params : Params) : Except String Bool :=
  match params "state" with
  | none => .ok false
  | some state =>
    if state = "circuit-open" then .ok true
    else .error ("unsupported state " ++ quoted state ++ "; supported: circuit-open")

def parseOutcome (params : Params) : Except String (Option String) :=
  match params "outcome" with
  | none => .ok none
  | some outcome =>
    if outcome ∈ ALLOWED_OUTCOME_KINDS then .ok (some outcome)
    else .error ("unsupported outcome " ++ quoted outcome ++
      "; supported: dispatched, broadcast, queued, duplicate, rejected, pending")

def parseEvents (dateParse : String → Option ℚ) (limits : Limits) (params : Params) :
    Except String EventsQuery := do
  let limit ← parseLimit limits params
  let sinceMs ← parseSince dateParse (params "since")
  let circuitOpen ← parseState params
  let outcome ← parseOutcome params
  let cursor ← parseCursor decodeEventCursor params
  let filter : EventStoreListFilter :=
    { kind := given params "kind"
      correlationId := given params "correlation"
      sinceMs
      outcomeKind := if circuitOpen then some "rejected" else outcome }
  return { limit, filter, circuitOpen, cursor }

/-- What the filter of the store leaves to `state=circuit-open`. -/
def EventsQuery.shown (query : EventsQuery) (row : EventStoreRecord) : Bool :=
  !query.circuitOpen ||
    match row.outcome with
    | some (.rejected .circuitOpen _) => true
    | _ => false

def eventsRoute (dateParse : String → Option ℚ) (limits : Limits) (fanOut : Option EventTargets)
    (store : EventTable) (request : RouteRequest) :
    JsonResponse (PageResponse EventsResponseEntry) :=
  answer request do
    let query ← parseEvents dateParse limits request.params
    let targets ← targetsOf fanOut store request.params
    let (page, nextCursor) := pageOf targets query.filter query.shown query.limit query.cursor
    return { entries := page.map toEventsEntry, nextCursor }

/-! ### `/dlq` -/

def RejectReason.name : RejectReason → String
  | .rateLimit => "rate-limit"
  | .unauthorized => "unauthorized"
  | .noHandler => "no-handler"
  | .loop => "loop"
  | .invalid => "invalid"
  | .circuitOpen => "circuit-open"
  | .interrupted => "interrupted"

structure EventRejectionListFilter where
  reason : Option String := none
  sinceMs : Option ℚ := none
  minAttempts : Option Int := none

/-- The `WHERE` clause. -/
def EventRejectionListFilter.accepts (filter : EventRejectionListFilter)
    (row : EventRejectionRecord) : Bool :=
  filter.reason.all (fun reason => RejectReason.name row.rejectionReason = reason) &&
  filter.sinceMs.all (fun since => since ≤ (row.lastSeenMs : ℚ)) &&
  filter.minAttempts.all fun attempts => attempts ≤ (row.attemptCount : Int)

def rejectionColumns : Columns EventRejectionRecord where
  ts row := row.lastSeenMs
  id row := row.eventId

abbrev RejectionTable := Table rejectionColumns EventRejectionListFilter.accepts

abbrev RejectionTargets := Targets rejectionColumns EventRejectionListFilter.accepts

structure DlqResponseEntry where
  eventId : String
  reason : RejectReason
  details : Option String
  attemptCount : Nat
  firstSeenMs : Int
  lastSeenMs : Int
  agentId : Option String

def toDlqEntry (row : Tagged EventRejectionRecord) : DlqResponseEntry where
  eventId := row.2.eventId
  reason := row.2.rejectionReason
  details := row.2.details
  attemptCount := row.2.attemptCount
  firstSeenMs := row.2.firstSeenMs
  lastSeenMs := row.2.lastSeenMs
  agentId := row.1

structure DlqQuery where
  limit : Nat
  filter : EventRejectionListFilter
  cursor : Option EventCursor

def parseMinAttempts (params : Params) : Except String (Option Int) :=
  match params "minAttempts" with
  | none | some "" => .ok none
  | some raw =>
    match parseInteger raw with
    | none => .error "minAttempts must be a positive integer"
    | some n => if n ≤ 0 then .error "minAttempts must be a positive integer" else .ok (some n)

def parseDlqKind (params : Params) : Except String Unit :=
  match params "kind" with
  | none => .ok ()
  | some kind =>
    if kind = "dispatch" then .ok ()
    else .error ("unsupported kind " ++ quoted kind ++ "; supported: dispatch")

def parseDlq (dateParse : String → Option ℚ) (limits : Limits) (params : Params) :
    Except String DlqQuery := do
  let _ ← parseDlqKind params
  let limit ← parseLimit limits params
  let sinceMs ← parseSince dateParse (params "since")
  let minAttempts ← parseMinAttempts params
  let cursor ← parseCursor decodeEventCursor params
  return { limit, filter := { reason := given params "reason", sinceMs, minAttempts }, cursor }

def dlqRoute (dateParse : String → Option ℚ) (limits : Limits) (fanOut : Option RejectionTargets)
    (store : RejectionTable) (request : RouteRequest) :
    JsonResponse (PageResponse DlqResponseEntry) :=
  answer request do
    let query ← parseDlq dateParse limits request.params
    let targets ← targetsOf fanOut store request.params
    let (page, nextCursor) := pageOf targets query.filter (fun _ => true) query.limit query.cursor
    return { entries := page.map toDlqEntry, nextCursor }

/-! ### `/audit` -/

structure TenantAuditQuery where
  tenantId : Option String := none
  kind : Option (List String) := none
  sinceMs : Option ℚ := none
  untilMs : Option ℚ := none

/-- The `WHERE` clause. -/
def TenantAuditQuery.accepts (q : TenantAuditQuery) (row : Audit.RowShape) : Bool :=
  q.tenantId.all (fun tenantId => row.tenant_id = tenantId) &&
  q.kind.all (fun kinds => row.kind ∈ kinds) &&
  q.sinceMs.all (fun since => since ≤ row.ts.value) &&
  q.untilMs.all fun til => row.ts.value ≤ til

/-- `query({ order: 'asc', limit })`. -/
def auditSelect (db : Audit.AuditDb) (q : TenantAuditQuery) : List Audit.StoredAuditEntry :=
  (db.rows.filter q.accepts).map Audit.rowToEntry

structure AuditResponseEntry where
  seq : Nat
  kind : String
  ts : Number
  tenantId : String
  prevHash : String
  recordHash : String
  record : Json

def toAuditEntry (row : Audit.StoredAuditEntry) : AuditResponseEntry where
  seq := row.seq
  kind := Audit.kindOf row.record
  ts :=
    match row.record.field "ts" with
    | some (.num ts) => ts
    | _ => .zero
  tenantId :=
    match row.record.field "tenantId", row.record.field "sourceTenantId" with
    | some (.str tenantId), _ => tenantId
    | _, some (.str tenantId) => tenantId
    | _, _ => ""
  prevHash := row.prevHash
  recordHash := row.recordHash
  record := row.record

structure AuditVerifySummary where
  ok : Bool
  totalEntries : Nat
  verifiedEntries : Nat
  violationCount : Nat

structure AuditResponse extends PageResponse AuditResponseEntry where
  verify : Option AuditVerifySummary

structure AuditQuery where
  limit : Nat
  query : TenantAuditQuery
  cursor : Option AuditCursor

def AuditCursor.keeps (cursor : AuditCursor) (row : Audit.StoredAuditEntry) : Bool :=
  !decide ((row.seq : ℚ) ≤ cursor.beforeSeq.value)

/-- The kinds between commas; blanks around them and empty ones are dropped. -/
def parseKinds (params : Params) : Except String (Option (List String)) :=
  match given params "kind" with
  | none => .ok none
  | some raw =>
    let kinds := ((raw.toList.splitOn ',').map Numeral.trim).filter (· ≠ [])
    if kinds = [] then .error "kind must be non-empty" else .ok (some (kinds.map String.ofList))

def parseAudit (dateParse : String → Option ℚ) (limits : Limits) (params : Params) :
    Except String AuditQuery := do
  let limit ← parseLimit limits params
  let sinceMs ← parseSince dateParse (params "since")
  let untilMs ← parseSince dateParse (params "until")
  let cursor ← parseCursor decodeAuditCursor params
  let kind ← parseKinds params
  return { limit, query := { tenantId := given params "tenant", kind, sinceMs, untilMs }, cursor }

/-- The summary that `verify=1` asks for. -/
def verifySummary (sha256Hex : String → String) (db : Audit.AuditDb) (query : AuditQuery)
    (params : Params) : Option AuditVerifySummary :=
  if params "verify" = some "1" then
    let report := Audit.verify sha256Hex db query.query.tenantId
    some
      { ok := report.ok
        totalEntries := report.totalEntries
        verifiedEntries := report.verifiedEntries
        violationCount := report.violations.length }
  else none

def auditRoute (dateParse : String → Option ℚ) (sha256Hex : String → String) (limits : Limits)
    (db : Audit.AuditDb) (request : RouteRequest) : JsonResponse AuditResponse :=
  answer request do
    let query ← parseAudit dateParse limits request.params
    let rows := (auditSelect db query.query).take (overFetch query.limit query.cursor)
    let (page, nextCursor) := cutPage query.limit
      (fun row => encodeCursor (AuditCursor.json ⟨.ofInt row.seq⟩))
      (rows.filter fun row => query.cursor.all (·.keeps row))
    let body : AuditResponse :=
      { entries := page.map toAuditEntry
        nextCursor
        verify := verifySummary sha256Hex db query request.params }
    return body

/-! ### Cursors are read back -/

theorem decodeOpaqueCursor_encodeCursor {fields : List (String × Json)}
    (h : parsedField "error" (.obj fields) = none) :
    decodeOpaqueCursor (encodeCursor (.obj fields)) = .ok (.obj fields) := by
  unfold decodeOpaqueCursor encodeCursor
  rw [String.toList_ofList, Base64Url.decode_encode, Utf8.decode_encode, String.ofList_toList,
    parse_stringify]
  simp only [h]

theorem decodeEventCursor_encodeCursor (c : EventCursor) :
    decodeEventCursor (encodeCursor c.json) = .ok c := by
  unfold decodeEventCursor
  rw [EventCursor.json, decodeOpaqueCursor_encodeCursor (by simp [parsedField])]
  rfl

theorem decodeAuditCursor_encodeCursor {c : AuditCursor} (h : 0 ≤ c.beforeSeq.value) :
    decodeAuditCursor (encodeCursor c.json) = .ok c := by
  unfold decodeAuditCursor
  rw [AuditCursor.json, decodeOpaqueCursor_encodeCursor (by simp [parsedField])]
  exact if_neg (not_lt.mpr h)

/-! ### The place of a row -/

section
variable {ρ φ : Type} {column : Columns ρ} {accepts : φ → ρ → Bool}

/-- Time, and id in the order of texts. -/
def EventCursor.place (c : EventCursor) : ℚ ×ₗ List Nat :=
  toLex (c.beforeTs.value, utf16 c.beforeId)

def place (column : Columns ρ) (row : ρ) : ℚ ×ₗ List Nat :=
  toLex ((column.ts row : ℚ), utf16 (column.id row))

@[simp] theorem place_cursorOf (row : ρ) : (cursorOf column row).place = place column row := by
  rw [EventCursor.place, cursorOf, value_ofInt]
  rfl

theorem reads_iff {c : EventCursor} {row : ρ} :
    c.keeps column row = true ↔ place column row < c.place := by
  rw [place, EventCursor.place, Prod.Lex.toLex_lt_toLex, EventCursor.keeps, Bool.not_eq_true',
    Bool.or_eq_false_iff, Bool.and_eq_false_iff, decide_eq_false_iff_not, decide_eq_false_iff_not,
    decide_eq_false_iff_not, not_lt, not_le]
  constructor
  · rintro ⟨hle, hne | hlt⟩
    · exact Or.inl (lt_of_le_of_ne hle hne)
    · rcases lt_or_eq_of_le hle with h | h
      · exact Or.inl h
      · exact Or.inr ⟨h, hlt⟩
  · rintro (h | ⟨h, hlt⟩)
    · exact ⟨h.le, Or.inl h.ne⟩
    · exact ⟨h.le, Or.inr hlt⟩

theorem newestFirst_iff {a b : Tagged ρ} :
    NewestFirst column a b ↔ place column b.2 ≤ place column a.2 := by
  rw [place, place, Prod.Lex.toLex_le_toLex, NewestFirst, Int.cast_lt, Int.cast_inj,
    eq_comm (a := column.ts a.2)]

instance : Std.Total (NewestFirst column) := ⟨fun a b => by
  rw [newestFirst_iff, newestFirst_iff]
  exact le_total _ _⟩

instance : IsTrans (Tagged ρ) (NewestFirst column) := ⟨fun a b c hab hbc => by
  rw [newestFirst_iff] at hab hbc ⊢
  exact hbc.trans hab⟩

/-! ### Windows -/

namespace Targets
variable (targets : Targets column accepts) (filter : φ)

theorem window_sublist (limit : Nat) :
    (targets.window filter limit).Sublist (targets.whole filter) := by
  cases targets with
  | single table => exact (List.take_sublist _ _).map _
  | fanOut tables unique =>
    refine (List.take_sublist _ _).trans (Paging.insertionSort_sublist _ ?_)
    exact List.Sublist.flatMap_right _ fun t _ => (List.take_sublist _ _).map _

theorem nodup_select (table : Table column accepts) : (table.select filter).Nodup :=
  (table.perm filter).nodup_iff.mpr (table.keyed.of_map.filter _)

theorem nodup_tagged {agent : Option String} {rows : List ρ} (h : rows.Nodup) :
    (rows.map fun row => (agent, row)).Nodup :=
  h.map fun _ _ heq => (Prod.mk.inj heq).2

theorem whole_nodup : (targets.whole filter).Nodup := by
  cases targets with
  | single table => exact nodup_tagged (nodup_select filter table)
  | fanOut tables unique =>
    refine (List.perm_insertionSort _ _).nodup_iff.mpr (List.nodup_flatMap.mpr ⟨?_, ?_⟩)
    · exact fun t _ => nodup_tagged (nodup_select filter t.2)
    · refine (List.pairwise_map.mp unique).imp fun {t u} hne => ?_
      intro row ht hu
      obtain ⟨_, _, rfl⟩ := List.mem_map.mp ht
      obtain ⟨_, _, heq⟩ := List.mem_map.mp hu
      exact hne (Option.some.inj (Prod.mk.inj heq).1).symm

/-- The reader of the rows that are shown. -/
def reader (shown : ρ → Bool) (limit : Nat) : Reader (Tagged ρ) EventCursor where
  first := (targets.window filter (limit + 1)).filter fun row => shown row.2
  window := (targets.window filter (max (limit * 2 + 1) 256)).filter fun row => shown row.2
  cursorOf row := cursorOf column row.2
  older cursor row := cursor.keeps column row.2
  limit := limit

/-- What a request asks for, in the declared order. -/
def matching (shown : ρ → Bool) : List (Tagged ρ) :=
  (targets.whole filter).filter fun row => shown row.2

theorem reader_ordered (shown : ρ → Bool) {limit : Nat} (hpos : 0 < limit) :
    (targets.reader filter shown limit).Ordered (targets.matching filter shown) where
  positive := hpos
  irrefl a := by
    rw [reader, ← Bool.not_eq_true, reads_iff, place_cursorOf]
    exact lt_irrefl _
  trans {c a b} hca hab := by
    simp only [reader, reads_iff, place_cursorOf] at hca hab ⊢
    exact hab.trans hca
  first := (targets.window_sublist filter _).filter _
  sublist := (targets.window_sublist filter _).filter _
  nodup := (targets.whole_nodup filter).filter _
  again := by
    cases targets with
    | single table =>
      refine Or.inl fun a ha => ?_
      have hle : limit + 1 ≤ max (limit * 2 + 1) 256 := by omega
      have hsub : (window filter (limit + 1) (single table)).Sublist
          (window filter (max (limit * 2 + 1) 256) (single table)) :=
        (List.take_sublist_take_left hle).map _
      exact (hsub.filter _).subset ha
    | fanOut tables unique =>
      refine Or.inr (((List.pairwise_insertionSort _ _).filter _).imp fun {a b} hab => ?_)
      simp only [reader]
      rw [← Bool.not_eq_true, reads_iff, place_cursorOf, not_lt]
      exact newestFirst_iff.mp hab

/-- A page is that of the reader. -/
theorem pageOf_eq (shown : ρ → Bool) (limit : Nat) (cursor : Option EventCursor) :
    pageOf targets filter shown limit cursor =
      (((targets.reader filter shown limit).page cursor).1,
        ((targets.reader filter shown limit).page cursor).2.map fun c => encodeCursor c.json) := by
  have hkept : ((targets.window filter (overFetch limit cursor)).filter fun row =>
      cursor.all (·.keeps column row.2) && shown row.2) =
        (targets.reader filter shown limit).found cursor := by
    cases cursor with
    | none => simp [overFetch, Reader.found, reader]
    | some c => simp [overFetch, Reader.found, reader, List.filter_filter]
  rw [pageOf, hkept, cutPage_eq, Reader.page]
  refine Prod.ext rfl ?_
  simp only [apply_ite (Option.map _), Option.map_none, Option.map_map]
  rfl

end Targets

end

/-! ### Following the cursors -/

/-- The request for the next page. -/
def withCursor (request : RouteRequest) (token : String) : RouteRequest :=
  { request with params := fun key => if key = "cursor" then some token else request.params key }

/-- The entries that a client gets that passes each cursor back until there is none. -/
inductive Follows {β ε : Type} (page : β → PageResponse ε) (fetch : RouteRequest → JsonResponse β) :
    RouteRequest → List (List ε) → Prop
  | last {request : RouteRequest} {body : β} (h : fetch request = .ok (some body))
      (hnext : (page body).nextCursor = none) : Follows page fetch request [(page body).entries]
  | next {request : RouteRequest} {body : β} {token : String} {pages : List (List ε)}
      (h : fetch request = .ok (some body)) (hnext : (page body).nextCursor = some token)
      (hrest : Follows page fetch (withCursor request token) pages) :
      Follows page fetch request ((page body).entries :: pages)

/-- From the first page to the last one, the entries are those of the rows, each once and in
order. -/
def Complete {α β ε : Type} (page : β → PageResponse ε) (fetch : RouteRequest → JsonResponse β)
    (entry : α → ε) (request : RouteRequest) (rows : List α) : Prop :=
  ∃ pages, Follows page fetch request pages ∧ pages.flatten = rows.map entry

section
variable {α β ε κ : Type} {page : β → PageResponse ε} {fetch : RouteRequest → JsonResponse β}
  {entry : α → ε} {request : RouteRequest} {reader : Reader α κ} {token : κ → String}

/-- The request for the page of a cursor. -/
def pageRequest (request : RouteRequest) : Option String → RouteRequest
  | none => request
  | some token => withCursor request token

theorem withCursor_withCursor (request : RouteRequest) (token token' : String) :
    withCursor (withCursor request token) token' = withCursor request token' := by
  unfold withCursor
  refine congrArg _ (funext fun key => ?_)
  by_cases hkey : key = "cursor"
  · rw [if_pos hkey, if_pos hkey]
  · rw [if_neg hkey, if_neg hkey]
    exact if_neg hkey

theorem withCursor_pageRequest (cursor : Option String) (token : String) :
    withCursor (pageRequest request cursor) token = pageRequest request (some token) := by
  cases cursor with
  | none => rfl
  | some token' => exact withCursor_withCursor request token' token

/-- The handler answers with the pages of a reader. -/
def Serves (page : β → PageResponse ε) (fetch : RouteRequest → JsonResponse β) (entry : α → ε)
    (request : RouteRequest) (reader : Reader α κ) (token : κ → String) : Prop :=
  ∀ cursor, ∃ body, fetch (pageRequest request (cursor.map token)) = .ok (some body) ∧
    (page body).entries = (reader.page cursor).1.map entry ∧
    (page body).nextCursor = (reader.page cursor).2.map token

theorem Serves.follows (h : Serves page fetch entry request reader token) {cursor : Option κ}
    {pages : List (List α)} (hfollows : reader.Follows cursor pages) :
    Follows page fetch (pageRequest request (cursor.map token)) (pages.map (List.map entry)) := by
  induction hfollows with
  | @last cursor rows hpage =>
    obtain ⟨body, hfetch, hentries, hnext⟩ := h cursor
    rw [hpage] at hentries hnext
    rw [List.map_singleton, ← hentries]
    exact .last hfetch hnext
  | @next cursor next rows pages hpage _ ih =>
    obtain ⟨body, hfetch, hentries, hnext⟩ := h cursor
    rw [hpage] at hentries hnext
    rw [List.map_cons, ← hentries]
    refine .next hfetch hnext ?_
    rw [withCursor_pageRequest]
    exact ih

/-- A body that is served at a cursor is the reader's page there. -/
theorem Serves.body (h : Serves page fetch entry request reader token) {cursor : Option κ}
    {body : β} (hfetch : fetch (pageRequest request (cursor.map token)) = .ok (some body)) :
    (page body).entries = (reader.page cursor).1.map entry ∧
      (page body).nextCursor = (reader.page cursor).2.map token := by
  obtain ⟨body', hfetch', hpage⟩ := h cursor
  obtain rfl : body = body' := by
    rw [hfetch] at hfetch'
    exact Option.some.inj (JsonResponse.ok.inj hfetch')
  exact hpage

theorem Serves.of_follows (h : Serves page fetch entry request reader token) {start : RouteRequest}
    {entries : List (List ε)} (hfollows : Follows page fetch start entries) :
    ∀ cursor : Option κ, start = pageRequest request (cursor.map token) →
      ∃ pages, reader.Follows cursor pages ∧ entries = pages.map (List.map entry) := by
  induction hfollows with
  | @last start body hfetch hnext =>
    rintro cursor rfl
    obtain ⟨hentries, hnext'⟩ := h.body hfetch
    rw [hnext] at hnext'
    refine ⟨[(reader.page cursor).1], .last (Prod.ext rfl ?_), by rw [hentries]; rfl⟩
    exact Option.map_eq_none_iff.mp hnext'.symm
  | @next start body token' entries hfetch hnext _ ih =>
    rintro cursor rfl
    obtain ⟨hentries, hnext'⟩ := h.body hfetch
    rw [hnext] at hnext'
    obtain ⟨next, hpage, rfl⟩ := Option.map_eq_some_iff.mp hnext'.symm
    obtain ⟨pages, hpages, rfl⟩ := ih (some next) (withCursor_pageRequest _ _)
    exact ⟨(reader.page cursor).1 :: pages, .next (Prod.ext rfl hpage) hpages,
      by rw [hentries]; rfl⟩

/-- A route whose pages are those of a reader is complete exactly if its rows are covered. -/
theorem Serves.complete_iff (h : Serves page fetch entry request reader token)
    (hentry : Function.Injective entry) {rows : List α} (hordered : reader.Ordered rows) :
    Complete page fetch entry request rows ↔ reader.Covered rows := by
  rw [← Reader.follows_iff hordered]
  constructor
  · rintro ⟨entries, hfollows, hflat⟩
    obtain ⟨pages, hpages, rfl⟩ := h.of_follows hfollows none rfl
    rw [← List.map_flatten] at hflat
    exact ⟨pages, hpages, List.map_injective_iff.mpr hentry hflat⟩
  · rintro ⟨pages, hpages, rfl⟩
    exact ⟨_, h.follows hpages, by rw [List.map_flatten]⟩

end

/-! ### The handlers serve pages -/

section
variable {request : RouteRequest} {dateParse : String → Option ℚ} {limits : Limits}

theorem pageRequest_params (token : Option String) {key : String} (hkey : key ≠ "cursor") :
    (pageRequest request token).params key = request.params key := by
  cases token with
  | none => rfl
  | some token => exact if_neg hkey

theorem pageRequest_method (token : Option String) :
    (pageRequest request token).method = request.method := by
  cases token <;> rfl

/-- The cursor of the request for a page. -/
theorem parseCursor_pageRequest {κ κ' : Type} {decode : String → Except String κ'}
    {token : κ → String} (read : κ → κ') (hfirst : request.params "cursor" = none)
    (hdecode : ∀ c, decode (token c) = .ok (read c)) (hempty : ∀ c, decode "" ≠ .ok c)
    (cursor : Option κ) :
    parseCursor decode (pageRequest request (cursor.map token)).params = .ok (cursor.map read) := by
  cases cursor with
  | none =>
    have hparams : (pageRequest request ((none : Option κ).map token)).params "cursor" = none :=
      hfirst
    rw [parseCursor, hparams]
    rfl
  | some c =>
    have hparams : (pageRequest request ((some c).map token)).params "cursor" = some (token c) :=
      rfl
    rw [parseCursor, hparams]
    split
    · rename_i heq
      cases heq
    · rename_i heq
      exact absurd (Option.some.inj heq ▸ hdecode c) (hempty (read c))
    · rename_i heq
      obtain rfl := Option.some.inj heq
      rw [hdecode]
      rfl

theorem decodeOpaqueCursor_empty : decodeOpaqueCursor "" = .error "malformed cursor" := by
  have hbytes : Base64Url.decode "".toList = [] := by decide
  have hparse : parse (String.ofList []) = none := by decide
  rw [decodeOpaqueCursor, hbytes, Utf8.decode, hparse]

theorem decodeEventCursor_empty (c : EventCursor) : decodeEventCursor "" ≠ .ok c := by
  rw [decodeEventCursor, decodeOpaqueCursor_empty]
  exact fun heq => nomatch heq

theorem bind_eq_ok {ε α β : Type} {x : Except ε α} {f : α → Except ε β} {b : β} :
    (x >>= f) = .ok b ↔ ∃ a, x = .ok a ∧ f a = .ok b := by
  cases x with
  | error e => simp [bind, Except.bind]
  | ok a => simp [bind, Except.bind]

/-- What does not look at the cursor is parsed for every page alike. -/
theorem parseEvents_pageRequest {query : EventsQuery} (hfirst : request.params "cursor" = none)
    (hparse : parseEvents dateParse limits request.params = .ok query)
    (cursor : Option EventCursor) :
    parseEvents dateParse limits
        (pageRequest request (cursor.map fun c => encodeCursor c.json)).params =
      .ok { query with cursor := cursor } := by
  have hcursor := parseCursor_pageRequest id hfirst decodeEventCursor_encodeCursor
    decodeEventCursor_empty cursor
  unfold parseEvents at hparse ⊢
  simp only [bind_eq_ok] at hparse ⊢
  obtain ⟨limit, hlimit, since, hsince, circuitOpen, hstate, outcome, houtcome, _, _, hquery⟩ :=
    hparse
  cases hquery
  refine ⟨limit, ?_, since, ?_, circuitOpen, ?_, outcome, ?_, cursor, ?_, ?_⟩
  · rw [← hlimit, parseLimit, parseLimit, pageRequest_params _ (by decide)]
  · rw [← hsince, pageRequest_params _ (by decide)]
  · rw [← hstate, parseState, parseState, pageRequest_params _ (by decide)]
  · rw [← houtcome, parseOutcome, parseOutcome, pageRequest_params _ (by decide)]
  · rw [hcursor, Option.map_id, id]
  · rw [given, given, pageRequest_params _ (by decide), pageRequest_params _ (by decide)]
    rfl

theorem parseDlq_pageRequest {query : DlqQuery} (hfirst : request.params "cursor" = none)
    (hparse : parseDlq dateParse limits request.params = .ok query) (cursor : Option EventCursor) :
    parseDlq dateParse limits
        (pageRequest request (cursor.map fun c => encodeCursor c.json)).params =
      .ok { query with cursor := cursor } := by
  have hcursor := parseCursor_pageRequest id hfirst decodeEventCursor_encodeCursor
    decodeEventCursor_empty cursor
  unfold parseDlq at hparse ⊢
  simp only [bind_eq_ok] at hparse ⊢
  obtain ⟨_, hkind, limit, hlimit, since, hsince, minAttempts, hattempts, _, _, hquery⟩ := hparse
  cases hquery
  refine ⟨(), ?_, limit, ?_, since, ?_, minAttempts, ?_, cursor, ?_, ?_⟩
  · rw [← hkind, parseDlqKind, parseDlqKind, pageRequest_params _ (by decide)]
  · rw [← hlimit, parseLimit, parseLimit, pageRequest_params _ (by decide)]
  · rw [← hsince, pageRequest_params _ (by decide)]
  · rw [← hattempts, parseMinAttempts, parseMinAttempts, pageRequest_params _ (by decide)]
  · rw [hcursor, Option.map_id, id]
  · rw [given, given, pageRequest_params _ (by decide)]
    rfl

/-- The cursor after a row of the chain. -/
def auditCursor (seq : Nat) : AuditCursor := ⟨.ofInt seq⟩

theorem decodeAuditCursor_auditCursor (seq : Nat) :
    decodeAuditCursor (encodeCursor (auditCursor seq).json) = .ok (auditCursor seq) := by
  refine decodeAuditCursor_encodeCursor ?_
  rw [auditCursor, value_ofInt]
  exact_mod_cast Nat.zero_le seq

theorem decodeAuditCursor_empty (c : AuditCursor) : decodeAuditCursor "" ≠ .ok c := by
  rw [decodeAuditCursor, decodeOpaqueCursor_empty]
  exact fun heq => nomatch heq

theorem parseAudit_pageRequest {query : AuditQuery} (hfirst : request.params "cursor" = none)
    (hparse : parseAudit dateParse limits request.params = .ok query) (cursor : Option Nat) :
    parseAudit dateParse limits
        (pageRequest request (cursor.map fun seq => encodeCursor (auditCursor seq).json)).params =
      .ok { query with cursor := cursor.map auditCursor } := by
  have hcursor := parseCursor_pageRequest auditCursor hfirst decodeAuditCursor_auditCursor
    decodeAuditCursor_empty cursor
  unfold parseAudit at hparse ⊢
  simp only [bind_eq_ok] at hparse ⊢
  obtain ⟨limit, hlimit, since, hsince, til, huntil, _, _, kind, hkind, hquery⟩ := hparse
  cases hquery
  refine ⟨limit, ?_, since, ?_, til, ?_, _, hcursor, kind, ?_, ?_⟩
  · rw [← hlimit, parseLimit, parseLimit, pageRequest_params _ (by decide)]
  · rw [← hsince, pageRequest_params _ (by decide)]
  · rw [← huntil, pageRequest_params _ (by decide)]
  · rw [← hkind, parseKinds, parseKinds, given, given, pageRequest_params _ (by decide)]
  · rw [given, given, pageRequest_params _ (by decide)]
    rfl

theorem targetsOf_pageRequest {ρ φ : Type} {column : Columns ρ} {accepts : φ → ρ → Bool}
    (fanOut : Option (Targets column accepts)) (table : Table column accepts)
    (token : Option String) :
    targetsOf fanOut table (pageRequest request token).params =
      targetsOf fanOut table request.params := by
  unfold targetsOf
  rw [pageRequest_params _ (by decide)]

/-- A request that is read gets its page. -/
theorem answer_ok {β : Type} {body : Except String β} {b : β} (hmethod : request.method = "GET")
    (hbody : body = .ok b) : answer request body = .ok (some b) := by
  have hget : ¬ (request.method ≠ "GET" ∧ request.method ≠ "HEAD") := fun h => h.1 hmethod
  have hhead : request.method ≠ "HEAD" := by
    rw [hmethod]
    decide
  unfold answer
  rw [if_neg hget, hbody]
  simp only [hhead, if_false]

/-- A limit that was parsed is positive. -/
theorem parseLimit_pos {params : Params} {limit : Nat} (h : parseLimit limits params = .ok limit) :
    0 < limit := by
  unfold parseLimit at h
  split at h
  · cases h
    exact limits.positive
  · cases h
    exact limits.positive
  · split at h
    · cases h
    · split at h
      · cases h
      · split at h
        · cases h
        · cases h
          omega

theorem eventsRoute_serves {fanOut : Option EventTargets} {store : EventTable}
    {query : EventsQuery} {targets : EventTargets} (hmethod : request.method = "GET")
    (hfirst : request.params "cursor" = none)
    (hparse : parseEvents dateParse limits request.params = .ok query)
    (htargets : targetsOf fanOut store request.params = .ok targets) :
    Serves id (eventsRoute dateParse limits fanOut store) toEventsEntry request
      (targets.reader query.filter query.shown query.limit) fun c => encodeCursor c.json := by
  intro cursor
  have hpage := parseEvents_pageRequest hfirst hparse cursor
  have hreader := targets.pageOf_eq query.filter query.shown query.limit cursor
  have hbody : eventsRoute dateParse limits fanOut store
      (pageRequest request (cursor.map fun c => encodeCursor c.json)) = .ok (some
        ⟨(pageOf targets query.filter query.shown query.limit cursor).1.map toEventsEntry,
          (pageOf targets query.filter query.shown query.limit cursor).2⟩) := by
    refine answer_ok ((pageRequest_method _).trans hmethod) ?_
    rw [hpage, targetsOf_pageRequest, htargets]
    rfl
  rw [hreader] at hbody
  exact ⟨_, hbody, rfl, rfl⟩

theorem dlqRoute_serves {fanOut : Option RejectionTargets} {store : RejectionTable}
    {query : DlqQuery} {targets : RejectionTargets} (hmethod : request.method = "GET")
    (hfirst : request.params "cursor" = none)
    (hparse : parseDlq dateParse limits request.params = .ok query)
    (htargets : targetsOf fanOut store request.params = .ok targets) :
    Serves id (dlqRoute dateParse limits fanOut store) toDlqEntry request
      (targets.reader query.filter (fun _ => true) query.limit) fun c => encodeCursor c.json := by
  intro cursor
  have hpage := parseDlq_pageRequest hfirst hparse cursor
  have hreader := targets.pageOf_eq query.filter (fun _ => true) query.limit cursor
  have hbody : dlqRoute dateParse limits fanOut store
      (pageRequest request (cursor.map fun c => encodeCursor c.json)) = .ok (some
        ⟨(pageOf targets query.filter (fun _ => true) query.limit cursor).1.map toDlqEntry,
          (pageOf targets query.filter (fun _ => true) query.limit cursor).2⟩) := by
    refine answer_ok ((pageRequest_method _).trans hmethod) ?_
    rw [hpage, targetsOf_pageRequest, htargets]
    rfl
  rw [hreader] at hbody
  exact ⟨_, hbody, rfl, rfl⟩

/-- The reader of the chain. -/
def auditReader (db : Audit.AuditDb) (query : AuditQuery) : Reader Audit.StoredAuditEntry Nat where
  first := (auditSelect db query.query).take (query.limit + 1)
  window := (auditSelect db query.query).take (max (query.limit * 2 + 1) 256)
  cursorOf := Audit.StoredAuditEntry.seq
  older cursor row := !decide (row.seq ≤ cursor)
  limit := query.limit

theorem auditRoute_serves {sha256Hex : String → String} {db : Audit.AuditDb} {query : AuditQuery}
    (hmethod : request.method = "GET") (hfirst : request.params "cursor" = none)
    (hparse : parseAudit dateParse limits request.params = .ok query) :
    Serves AuditResponse.toPageResponse (auditRoute dateParse sha256Hex limits db) toAuditEntry
      request (auditReader db query) fun seq => encodeCursor (auditCursor seq).json := by
  intro cursor
  have hpage := parseAudit_pageRequest hfirst hparse cursor
  have hkept : ((auditSelect db query.query).take
      (overFetch query.limit (cursor.map auditCursor))).filter
        (fun row => (cursor.map auditCursor).all (·.keeps row)) =
      (auditReader db query).found cursor := by
    cases cursor with
    | none => simp [overFetch, Reader.found, auditReader]
    | some c =>
      simp [overFetch, Reader.found, auditReader, AuditCursor.keeps, auditCursor, value_ofInt]
  have hcut : cutPage query.limit (fun row => encodeCursor (AuditCursor.json ⟨.ofInt row.seq⟩))
      ((auditReader db query).found cursor) =
        (((auditReader db query).page cursor).1,
          ((auditReader db query).page cursor).2.map fun seq =>
            encodeCursor (auditCursor seq).json) := by
    rw [cutPage_eq, Reader.page]
    refine Prod.ext rfl ?_
    simp only [apply_ite (Option.map _), Option.map_none, Option.map_map]
    rfl
  have hbody : auditRoute dateParse sha256Hex limits db
      (pageRequest request (cursor.map fun seq => encodeCursor (auditCursor seq).json)) = .ok (some
        { entries := ((auditReader db query).page cursor).1.map toAuditEntry
          nextCursor := ((auditReader db query).page cursor).2.map fun seq =>
            encodeCursor (auditCursor seq).json
          verify := verifySummary sha256Hex db { query with cursor := cursor.map auditCursor }
            (pageRequest request
              (cursor.map fun seq => encodeCursor (auditCursor seq).json)).params }) := by
    refine answer_ok ((pageRequest_method _).trans hmethod) ?_
    rw [hpage]
    simp only [bind, Except.bind, pure, Except.pure, hkept, hcut]
  exact ⟨_, hbody, rfl, rfl⟩

/-! ### When the pages are complete -/

theorem toEventsEntry_injective : Function.Injective toEventsEntry := by
  rintro ⟨agent, row⟩ ⟨agent', row'⟩ h
  simp only [toEventsEntry, EventsResponseEntry.mk.injEq] at h
  obtain ⟨-, -, -, hrecorded, -, -, -, houtcome, hat, hevent, hagent⟩ := h
  exact Prod.ext hagent (by cases row; cases row'; simp_all)

theorem toDlqEntry_injective : Function.Injective toDlqEntry := by
  rintro ⟨agent, row⟩ ⟨agent', row'⟩ h
  simp only [toDlqEntry, DlqResponseEntry.mk.injEq] at h
  obtain ⟨hid, hreason, hdetails, hcount, hfirst, hlast, hagent⟩ := h
  exact Prod.ext hagent (by cases row; cases row'; simp_all)

theorem toAuditEntry_injective : Function.Injective toAuditEntry := by
  intro row row' h
  simp only [toAuditEntry, AuditResponseEntry.mk.injEq] at h
  obtain ⟨hseq, -, -, -, hprev, hhash, hrecord⟩ := h
  cases row
  cases row'
  simp_all

/-- The chain is read in the order of its numbers. -/
theorem auditSelect_sorted (db : Audit.AuditDb) (q : TenantAuditQuery) :
    (auditSelect db q).Pairwise fun a b => a.seq < b.seq := by
  have hrows : db.rows.Pairwise fun a b => a.seq < b.seq := by
    rw [← List.pairwise_map (f := Audit.RowShape.seq) (R := (· < ·)), db.numbered]
    exact List.pairwise_lt_range'
  rw [auditSelect, List.pairwise_map]
  exact hrows.filter _

theorem auditReader_ordered (db : Audit.AuditDb) {query : AuditQuery} (hpos : 0 < query.limit) :
    (auditReader db query).Ordered (auditSelect db query.query) where
  positive := hpos
  irrefl a := by simp [auditReader]
  trans {c a b} hca hab := by
    simp only [auditReader, Bool.not_eq_true', decide_eq_false_iff_not, not_le] at hca hab ⊢
    exact hca.trans hab
  first := List.take_sublist _ _
  sublist := List.take_sublist _ _
  nodup := (auditSelect_sorted db query.query).imp fun {a b} h heq => by
    rw [heq] at h
    exact lt_irrefl _ h
  again := by
    have hle : query.limit + 1 ≤ max (query.limit * 2 + 1) 256 := by omega
    exact Or.inl fun a ha => (List.take_sublist_take_left hle).subset ha

/-- The chain is covered while the window holds it. -/
theorem auditReader_covered (db : Audit.AuditDb) {query : AuditQuery} (hpos : 0 < query.limit) :
    (auditReader db query).Covered (auditSelect db query.query) ↔
      (auditSelect db query.query).length ≤ max (query.limit * 2 + 1) 256 := by
  have hnodup := (auditReader_ordered db hpos).nodup
  constructor
  · intro hcovered
    by_contra hlong
    rw [not_le] at hlong
    have hdrop : (auditSelect db query.query)[max (query.limit * 2 + 1) 256] ∈
        (auditSelect db query.query).drop (max (query.limit * 2 + 1) 256) := by
      rw [List.drop_eq_getElem_cons hlong]
      exact List.mem_cons_self
    have hle : query.limit ≤ max (query.limit * 2 + 1) 256 := by omega
    have hwindow := hcovered.window _ ((List.drop_sublist_drop_left _ hle).subset hdrop)
    exact (List.disjoint_take_drop hnodup le_rfl) hwindow hdrop
  · intro hshort
    refine ⟨?_, ?_, fun a ha => ?_, fun k hk _ => Reader.cut_of_pairwise ?_ ?_ ?_⟩
    · simp only [auditReader, List.take_take, min_eq_left (Nat.le_succ query.limit)]
    · simp only [auditReader, List.length_take]
      omega
    · simp only [auditReader, List.take_of_length_le hshort] at ha ⊢
      exact List.mem_of_mem_drop ha
    · exact (auditReader_ordered db hpos).irrefl
    · refine (auditSelect_sorted db query.query).imp fun {a b} hlt => ?_
      simp only [auditReader, Bool.not_eq_true', Bool.not_eq_false', decide_eq_true_eq,
        decide_eq_false_iff_not, not_le]
      exact ⟨hlt, hlt.le⟩
    · exact Nat.mul_pos hk hpos

/-- The limit of a query that was parsed is positive. -/
theorem parseEvents_pos {query : EventsQuery}
    (h : parseEvents dateParse limits request.params = .ok query) : 0 < query.limit := by
  simp only [parseEvents, bind_eq_ok] at h
  obtain ⟨limit, hlimit, _, _, _, _, _, _, _, _, hquery⟩ := h
  cases hquery
  exact parseLimit_pos hlimit

theorem parseDlq_pos {query : DlqQuery}
    (h : parseDlq dateParse limits request.params = .ok query) : 0 < query.limit := by
  simp only [parseDlq, bind_eq_ok] at h
  obtain ⟨_, _, limit, hlimit, _, _, _, _, _, _, hquery⟩ := h
  cases hquery
  exact parseLimit_pos hlimit

theorem parseAudit_pos {query : AuditQuery}
    (h : parseAudit dateParse limits request.params = .ok query) : 0 < query.limit := by
  simp only [parseAudit, bind_eq_ok] at h
  obtain ⟨limit, hlimit, _, _, _, _, _, _, _, _, hquery⟩ := h
  cases hquery
  exact parseLimit_pos hlimit

theorem audit_complete_iff {sha256Hex : String → String} {db : Audit.AuditDb} {query : AuditQuery}
    (hmethod : request.method = "GET") (hfirst : request.params "cursor" = none)
    (hparse : parseAudit dateParse limits request.params = .ok query) :
    Complete AuditResponse.toPageResponse (auditRoute dateParse sha256Hex limits db) toAuditEntry
        request (auditSelect db query.query) ↔
      (auditSelect db query.query).length ≤ max (query.limit * 2 + 1) 256 := by
  have hpos := parseAudit_pos hparse
  rw [← auditReader_covered db hpos]
  exact (auditRoute_serves hmethod hfirst hparse).complete_iff toAuditEntry_injective
    (auditReader_ordered db hpos)

end

/-- A request for the first page that gives no parameters. -/
def plainRequest : RouteRequest := { params := fun _ => none }

def emptyTable {ρ φ : Type} (column : Columns ρ) (accepts : φ → ρ → Bool) :
    Table column accepts where
  rows := []
  keyed := List.nodup_nil
  select _ := []
  perm _ := List.Perm.nil
  newest _ := List.Pairwise.nil

def noEvents : EventTargets := .single (emptyTable _ _)

def noRejections : RejectionTargets := .single (emptyTable _ _)

/-- Records of one tenant. -/
def records (n : Nat) : Audit.AuditDb where
  rows := (List.range' 1 n).map fun seq => ⟨seq, .zero, "acme", "tool_call", .null, "", ""⟩
  numbered := by
    rw [List.map_map, List.length_map, List.length_range']
    exact List.map_id _

end Declaragent.ControlPlane
