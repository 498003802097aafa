import Declaragent.Library.JsonParse
import Declaragent.Session.Sqlite
import Declaragent.Tenancy.Quota

/-!
# Session — a session that is opened again

A handle keeps in memory its transcript, a ledger of what its messages used, and the turns that
ended well; the store keeps the messages, as JSON text, and the turns.  To open a session is to
build a handle from its messages: the ledger is derived from them, the turns are not read.

* `rowToMessage_columns`: a message reads back as it was written.
* `Kept.step`: what the handle and the store have in common, whatever is done with the handle.
* `opens_as_is_iff`: in which runs the session opens as it is, in every state.
-/

namespace Declaragent.Session
open JsonText Engine Transition Tenancy

attribute [local instance] lawful_keys

/-! ### The columns of a message -/

def roleText : Role → String
  | .user => "user"
  | .assistant => "assistant"
  | .system => "system"
  | .tool => "tool"

def stopReasonText : StopReason → String
  | .endTurn => "end_turn"
  | .toolUse => "tool_use"
  | .maxTokens => "max_tokens"
  | .stopSequence => "stop_sequence"
  | .error => "error"

def contentJson : MessageContent → Json
  | .text text => .obj [("type", .str "text"), ("text", .str text)]
  | .toolUse id name input =>
    .obj [("type", .str "tool_use"), ("id", .str id), ("name", .str name), ("input", input)]
  | .toolResult toolUseId content isError =>
    .obj (("type", .str "tool_result") :: ("toolUseId", .str toolUseId) ::
      ("content", .str content) :: isError.toList.map fun b => ("isError", .bool b))

def usageJson (usage : TokenUsage) : Json :=
  .obj (("inputTokens", .num (.ofInt usage.inputTokens)) ::
    ("outputTokens", .num (.ofInt usage.outputTokens)) ::
    usage.cacheReadTokens.toList.map fun tokens => ("cacheReadTokens", .num (.ofInt tokens)))

def metaJson (info : MessageMeta) : Json :=
  .obj ((info.model.toList.map fun model => ("model", .str model)) ++
    (info.stopReason.toList.map fun reason => ("stopReason", .str (stopReasonText reason))) ++
    info.usage.toList.map fun usage => ("usage", usageJson usage))

structure MessageColumns where
  role : String
  contentJson : String
  metaJson : Option String

def columns (m : Message) : MessageColumns where
  role := roleText m.role
  contentJson := stringify (.arr (m.content.map Session.contentJson))
  metaJson := m.info.map fun info => stringify (Session.metaJson info)

/-! A text that was parsed is taken for the type it was written from. -/

def readRole : String → Option Role
  | "user" => some .user
  | "assistant" => some .assistant
  | "system" => some .system
  | "tool" => some .tool
  | _ => none

def readStopReason : String → Option StopReason
  | "end_turn" => some .endTurn
  | "tool_use" => some .toolUse
  | "max_tokens" => some .maxTokens
  | "stop_sequence" => some .stopSequence
  | "error" => some .error
  | _ => none

def readText : Json → Option String
  | .str s => some s
  | _ => none

def readBool : Json → Option Bool
  | .bool b => some b
  | _ => none

def readTokens : Json → Option Nat
  | .num n => n.intValue?.map Int.toNat
  | _ => none

def readContent (j : Json) : Option MessageContent :=
  match j.field "type" with
  | some (.str "text") => do
      let text ← (j.field "text").bind readText
      pure (.text text)
  | some (.str "tool_use") => do
      let id ← (j.field "id").bind readText
      let name ← (j.field "name").bind readText
      let input ← j.field "input"
      pure (.toolUse id name input)
  | some (.str "tool_result") => do
      let toolUseId ← (j.field "toolUseId").bind readText
      let content ← (j.field "content").bind readText
      pure (.toolResult toolUseId content ((j.field "isError").bind readBool))
  | _ => none

def readUsage (j : Json) : Option TokenUsage := do
  let inputTokens ← (j.field "inputTokens").bind readTokens
  let outputTokens ← (j.field "outputTokens").bind readTokens
  pure ⟨inputTokens, outputTokens, (j.field "cacheReadTokens").bind readTokens⟩

def readMeta (j : Json) : MessageMeta where
  model := (j.field "model").bind readText
  stopReason := (j.field "stopReason").bind fun reason => (readText reason).bind readStopReason
  usage := (j.field "usage").bind readUsage

/-- `role` is not checked; `JSON.parse` throws where a text is none. -/
def rowToMessage (row : MessageColumns) : Option Message := do
  let role ← readRole row.role
  let .arr blocks ← parse row.contentJson | none
  let content ← blocks.mapM readContent
  match row.metaJson with
  | none => pure ⟨role, content, none⟩
  | some text =>
    if text = "" then pure ⟨role, content, none⟩
    else do
      let info ← parse text
      pure ⟨role, content, some (readMeta info)⟩

@[simp] theorem readTokens_ofInt (n : Nat) : readTokens (.num (.ofInt n)) = some n := by
  simp [readTokens]

theorem readContent_contentJson (block : MessageContent) :
    readContent (contentJson block) = some block := by
  cases block with
  | text text => rfl
  | toolUse id name input => rfl
  | toolResult toolUseId content isError => cases isError <;> rfl

theorem readUsage_usageJson (usage : TokenUsage) : readUsage (usageJson usage) = some usage := by
  obtain ⟨inputTokens, outputTokens, cacheReadTokens⟩ := usage
  cases cacheReadTokens <;>
    simp [readUsage, usageJson, Json.field, List.lookup_cons]

theorem readMeta_metaJson (info : MessageMeta) : readMeta (metaJson info) = info := by
  obtain ⟨model, stopReason, usage⟩ := info
  have hreason (reason : StopReason) : readStopReason (stopReasonText reason) = some reason := by
    cases reason <;> rfl
  cases model <;> cases stopReason <;> cases usage <;>
    simp [readMeta, metaJson, Json.field, List.lookup_cons, readText, hreason,
      readUsage_usageJson]

theorem mapM_readContent (content : List MessageContent) :
    content.mapM (readContent ∘ contentJson) = some content := by
  induction content with
  | nil => rfl
  | cons block content ih => simp [readContent_contentJson, ih]

/-- **A message reads back** as it was written. -/
theorem rowToMessage_columns (m : Message) : rowToMessage (columns m) = some m := by
  obtain ⟨role, content, info⟩ := m
  have hrole : readRole (roleText role) = some role := by cases role <;> rfl
  unfold rowToMessage columns
  cases info with
  | none => simp [hrole, parse_stringify, mapM_readContent]
  | some info =>
    have hne : stringify (metaJson info) ≠ "" := by
      intro e
      have hparse := parse_stringify (metaJson info)
      rw [e] at hparse
      cases hparse
    simp [hrole, hne, parse_stringify, mapM_readContent, readMeta_metaJson]

/-! ### The handle -/

structure SessionLedger where
  inputTokens : Nat := 0
  outputTokens : Nat := 0
  cacheReadTokens : Nat := 0
  turns : Nat := 0
  estimatedCostUSD : ℚ := 0

/-- What a message adds to the ledger. -/
def SessionLedger.count (ledger : SessionLedger) (m : Message) : SessionLedger :=
  match m.info.bind (·.usage) with
  | none => ledger
  | some usage =>
    { ledger with
      inputTokens := ledger.inputTokens + usage.inputTokens
      outputTokens := ledger.outputTokens + usage.outputTokens
      cacheReadTokens := ledger.cacheReadTokens + usage.cacheReadTokens.getD 0
      estimatedCostUSD := ledger.estimatedCostUSD +
        ((m.info.bind (·.model)).map fun model => estimateCostUSD model usage).getD 0 }

def deriveLedger (messages : List Message) : SessionLedger := messages.foldl .count {}

inductive TurnStatus where
  | ok | error | aborted
  deriving DecidableEq

structure TurnRow where
  sessionId : String
  turnId : String
  status : TurnStatus
  endedAt : Int

/-- The tables of the sessions, and that of their turns. -/
structure SessionStore where
  db : SessionDb
  turns : List TurnRow
  turnId : (turns.map fun row => (row.sessionId, row.turnId)).Nodup

/-- A handle with what it counts. -/
structure LiveHandle extends SessionHandle where
  ledger : SessionLedger
  okTurnIds : List String

def buildHandle (id : String) (spec : Json) (initial : List Message) : LiveHandle :=
  ⟨⟨id, spec, initial⟩, deriveLedger initial, []⟩

/-- `UPDATE sessions SET spec_json`. -/
def SessionDb.updateSessionSpec (db : SessionDb) (id : String) (spec : Json) : SessionDb :=
  { db with
    sessions := db.sessions.map fun row => if row.id = id then { row with spec := spec } else row
    sessionId := by
      have hids : (db.sessions.map fun row =>
          if row.id = id then { row with spec := spec } else row).map (fun row => row.id) =
            db.sessions.map fun row => row.id := by
        rw [List.map_map]
        refine List.map_congr_left fun row _ => ?_
        simp only [Function.comp_apply]
        split <;> rfl
      rw [hids]
      exact db.sessionId }

namespace SessionStore

/-- The foreign key is checked for a row that is there already, too. -/
def upsertTurn (store : SessionStore) (row : TurnRow) : Except String SessionStore :=
  if (store.db.selectSession row.sessionId).isNone then .error "FOREIGN KEY constraint failed"
  else if h : (row.sessionId, row.turnId) ∈
      store.turns.map fun row => (row.sessionId, row.turnId) then
    .ok { store with
      turns := store.turns.map fun old =>
        if (old.sessionId, old.turnId) = (row.sessionId, row.turnId) then row else old
      turnId := by
        have hkeys : (store.turns.map fun old =>
            if (old.sessionId, old.turnId) = (row.sessionId, row.turnId) then row else old).map
              (fun row => (row.sessionId, row.turnId)) =
                store.turns.map fun row => (row.sessionId, row.turnId) := by
          rw [List.map_map]
          refine List.map_congr_left fun old _ => ?_
          simp only [Function.comp_apply]
          split
          · rename_i e
            exact e.symm
          · rfl
        rw [hkeys]
        exact store.turnId }
  else
    .ok { store with
      turns := store.turns ++ [row]
      turnId := by
        rw [List.map_append]
        exact store.turnId.append (List.nodup_singleton _) (by simpa using h) }

/-- The message is pushed once its row is in. -/
def appendMessage (store : SessionStore) (handle : LiveHandle) (m : Message) :
    Except String (SessionStore × LiveHandle) := do
  let (db, appended) ← store.db.appendMessage handle.toSessionHandle m
  pure ({ store with db := db }, ⟨appended, handle.ledger.count m, handle.okTurnIds⟩)

def markTurn (store : SessionStore) (handle : LiveHandle) (turnId : String) (status : TurnStatus)
    (now : Int) : Except String (SessionStore × LiveHandle) := do
  let store ← store.upsertTurn ⟨handle.id, turnId, status, now⟩
  if status = .ok ∧ turnId ∉ handle.okTurnIds then
    pure (store, { handle with
      okTurnIds := handle.okTurnIds ++ [turnId]
      ledger := { handle.ledger with turns := handle.ledger.turns + 1 } })
  else pure (store, handle)

/-- `{ ...currentSpec, ...patch }`. -/
def updateSpec (store : SessionStore) (handle : LiveHandle) (patch : List (String × Json)) :
    SessionStore × LiveHandle :=
  let spec := patch.foldl (fun spec p => spec.set p.1 p.2) handle.spec
  ({ store with db := store.db.updateSessionSpec handle.id spec }, { handle with spec := spec })

/-- The rows are read, and the handle is built from them. -/
def openSession (store : SessionStore) (id tenantId : String) :
    Except String (Option LiveHandle) :=
  match store.db.openWithinTenant id tenantId with
  | .error e => .error e
  | .ok none => .ok none
  | .ok (some stored) =>
    match stored.messages.mapM fun m => rowToMessage (columns m) with
    | none => .error "JSON Parse error"
    | some messages => .ok (some (buildHandle stored.id stored.spec messages))

/-- Appends, one after the other. -/
def appendAll (store : SessionStore) (handle : LiveHandle) :
    List Message → Except String (SessionStore × LiveHandle)
  | [] => .ok (store, handle)
  | m :: ms => do
      let (store, handle) ← store.appendMessage handle m
      appendAll store handle ms

end SessionStore

/-- A store, and the handle of a session that was opened for the tenant. -/
structure LiveSession where
  store : SessionStore
  handle : LiveHandle
  tenantId : String

inductive SessionOp where
  | appendMessage (m : Message)
  | markTurn (turnId : String) (status : TurnStatus) (now : Int)
  | updateSpec (patch : List (String × Json))
  /-- The handle is dropped, and the session opened again. -/
  | reopen

/-- An operation that throws changes nothing. -/
def sessionStep (s : LiveSession) : SessionOp → Option LiveSession
  | .appendMessage m =>
    match s.store.appendMessage s.handle m with
    | .error _ => some s
    | .ok (store, handle) => some { s with store := store, handle := handle }
  | .markTurn turnId status now =>
    match s.store.markTurn s.handle turnId status now with
    | .error _ => some s
    | .ok (store, handle) => some { s with store := store, handle := handle }
  | .updateSpec patch =>
    let (store, handle) := s.store.updateSpec s.handle patch
    some { s with store := store, handle := handle }
  | .reopen =>
    match s.store.openSession s.handle.id s.tenantId with
    | .ok (some handle) => some { s with handle := handle }
    | _ => some s

/-- Opened now, the session has the transcript and the ledger of the handle, and appends have the
same outcome through both. -/
def Reopens (s : LiveSession) : Prop :=
  ∃ opened, s.store.openSession s.handle.id s.tenantId = .ok (some opened) ∧
    opened.messages = s.handle.messages ∧ opened.ledger = s.handle.ledger ∧
    ∀ ms, (s.store.appendAll opened ms).map (fun r => (r.1, r.2.messages, r.2.ledger)) =
      (s.store.appendAll s.handle ms).map fun r => (r.1, r.2.messages, r.2.ledger)

/-- No turn is marked as ended well. -/
def NoTurnEndsWell (_ : LiveSession) : SessionOp → Prop
  | .markTurn _ status _ => status ≠ .ok
  | _ => True

/-! ### What handle and store have in common -/

/-- The handle is up to date, and its ledger that of its messages, with the turns it knows of. -/
structure Kept (s : LiveSession) : Prop where
  sound : s.store.db.Sound
  session : s.store.db.selectSession s.handle.id = some ⟨s.handle.id, s.tenantId, s.handle.spec⟩
  messages : s.handle.messages = s.store.db.selectMessages s.handle.id
  ledger : s.handle.ledger =
    { deriveLedger s.handle.messages with turns := s.handle.okTurnIds.length }

variable {s t : LiveSession}

theorem openSession_eq (store : SessionStore) (id tenantId : String) :
    store.openSession id tenantId = match store.db.openWithinTenant id tenantId with
      | .error e => .error e
      | .ok none => .ok none
      | .ok (some stored) => .ok (some (buildHandle stored.id stored.spec stored.messages)) := by
  have hread (messages : List Message) :
      (messages.mapM fun m => rowToMessage (columns m)) = some messages := by
    induction messages with
    | nil => rfl
    | cons m messages ih =>
      rw [List.mapM_cons, rowToMessage_columns, ih]
      rfl
  unfold SessionStore.openSession
  split
  · rfl
  · rfl
  · rename_i stored _
    rw [hread]

/-- **The session opens** with its messages, and without its turns. -/
theorem Kept.openSession (h : Kept s) : s.store.openSession s.handle.id s.tenantId =
    .ok (some (buildHandle s.handle.id s.handle.spec s.handle.messages)) := by
  rw [openSession_eq, h.messages]
  unfold SessionDb.openWithinTenant
  rw [h.session]
  simp

theorem turns_deriveLedger (messages : List Message) : (deriveLedger messages).turns = 0 := by
  have hfold (ledger : SessionLedger) : (messages.foldl .count ledger).turns = ledger.turns := by
    induction messages generalizing ledger with
    | nil => rfl
    | cons m messages ih =>
      rw [List.foldl_cons, ih]
      unfold SessionLedger.count
      split <;> rfl
  exact hfold {}

/-- **It opens as it is** exactly when no turn is known to have ended well. -/
theorem Kept.reopens_iff (h : Kept s) : Reopens s ↔ s.handle.okTurnIds = [] := by
  constructor
  · rintro ⟨opened, hopen, -, hledger, -⟩
    rw [h.openSession] at hopen
    obtain rfl := Option.some.inj (Except.ok.inj hopen)
    have hturns := congrArg SessionLedger.turns hledger
    rw [h.ledger] at hturns
    exact List.length_eq_zero_iff.mp
      (hturns.symm.trans (turns_deriveLedger s.handle.messages))
  · intro hnone
    have hledger : deriveLedger s.handle.messages = s.handle.ledger := by
      rw [h.ledger, hnone]
      exact congrArg (fun n => { deriveLedger s.handle.messages with turns := n })
        (turns_deriveLedger s.handle.messages)
    have hsame : buildHandle s.handle.id s.handle.spec s.handle.messages = s.handle := by
      unfold buildHandle
      rw [hledger, ← hnone]
    refine ⟨s.handle, ?_, rfl, rfl, fun _ => rfl⟩
    rw [h.openSession, hsame]

/-! ### One operation -/

theorem SessionLedger.count_turns (ledger : SessionLedger) (n : Nat) (m : Message) :
    SessionLedger.count { ledger with turns := n } m = { ledger.count m with turns := n } := by
  unfold SessionLedger.count
  split <;> rfl

theorem Kept.appendMessage (h : Kept s) (m : Message) : ∃ store handle,
    s.store.appendMessage s.handle m = .ok (store, handle) ∧ Kept ⟨store, handle, s.tenantId⟩ ∧
      handle.okTurnIds = s.handle.okTurnIds := by
  have hcurrent : s.store.db.Current s.handle.toSessionHandle :=
    ⟨by rw [h.session]; rfl, h.messages⟩
  obtain ⟨db, hdb, hsound, hsessions, -, hselect⟩ := h.sound.appendMessage_current hcurrent m
  refine ⟨{ s.store with db := db }, ⟨⟨s.handle.id, s.handle.spec, s.handle.messages ++ [m]⟩,
    s.handle.ledger.count m, s.handle.okTurnIds⟩, ?_, ⟨hsound, ?_, ?_, ?_⟩, rfl⟩
  · unfold SessionStore.appendMessage
    rw [hdb]
    rfl
  · refine Eq.trans ?_ h.session
    unfold SessionDb.selectSession
    rw [hsessions]
  · show s.handle.messages ++ [m] = db.selectMessages s.handle.id
    rw [hselect, ← h.messages]
  · show s.handle.ledger.count m = _
    rw [h.ledger, SessionLedger.count_turns]
    unfold deriveLedger
    rw [List.foldl_append]
    rfl

theorem Kept.markTurn (h : Kept s) (turnId : String) (status : TurnStatus) (now : Int) :
    ∃ store handle, s.store.markTurn s.handle turnId status now = .ok (store, handle) ∧
      Kept ⟨store, handle, s.tenantId⟩ ∧
      (status ≠ .ok → handle.okTurnIds = s.handle.okTurnIds) ∧
      (status = .ok → handle.okTurnIds ≠ []) := by
  have hupsert : ∃ store, s.store.upsertTurn ⟨s.handle.id, turnId, status, now⟩ = .ok store ∧
      store.db = s.store.db := by
    unfold SessionStore.upsertTurn
    rw [h.session]
    simp only [Option.isNone_some, Bool.false_eq_true, if_false]
    split
    · exact ⟨_, rfl, rfl⟩
    · exact ⟨_, rfl, rfl⟩
  obtain ⟨store, hstore, hdb⟩ := hupsert
  unfold SessionStore.markTurn
  simp only [hstore, bind, Except.bind]
  split
  · rename_i hok
    refine ⟨_, _, rfl, ⟨?_, ?_, ?_, ?_⟩, fun hne => absurd hok.1 hne, fun _ => by simp⟩
    · exact hdb ▸ h.sound
    · exact hdb ▸ h.session
    · exact hdb ▸ h.messages
    · rw [h.ledger]
      simp
  · rename_i hno
    refine ⟨_, _, rfl, ⟨hdb ▸ h.sound, hdb ▸ h.session, hdb ▸ h.messages, h.ledger⟩, fun _ => rfl,
      fun hok hnone => hno ⟨hok, ?_⟩⟩
    rw [hnone]
    exact List.not_mem_nil

theorem selectSession_updateSessionSpec (db : SessionDb) (id : String) (spec : Json)
    (other : String) : (db.updateSessionSpec id spec).selectSession other =
      (db.selectSession other).map fun row =>
        if row.id = id then { row with spec := spec } else row := by
  unfold SessionDb.selectSession SessionDb.updateSessionSpec
  rw [List.find?_map]
  congr 2
  funext row
  simp only [Function.comp_apply]
  split <;> rfl

theorem sound_updateSessionSpec {db : SessionDb} (h : db.Sound) (id : String) (spec : Json) :
    (db.updateSessionSpec id spec).Sound where
  owned row hrow := by
    rw [selectSession_updateSessionSpec, Option.isSome_map]
    exact h.owned row hrow
  pinned row hrow := by
    obtain ⟨session, hsession, htenant⟩ := h.pinned row hrow
    rw [selectSession_updateSessionSpec, hsession]
    refine ⟨_, rfl, ?_⟩
    dsimp only
    split <;> exact htenant
  numbered := h.numbered

theorem Kept.updateSpec (h : Kept s) (patch : List (String × Json)) :
    Kept ⟨(s.store.updateSpec s.handle patch).1, (s.store.updateSpec s.handle patch).2,
      s.tenantId⟩ where
  sound := sound_updateSessionSpec h.sound _ _
  session := by
    refine (selectSession_updateSessionSpec s.store.db s.handle.id _ s.handle.id).trans ?_
    rw [h.session]
    simp [SessionStore.updateSpec]
  messages := h.messages
  ledger := h.ledger

/-- **One operation** keeps what handle and store have in common; the session opens as it is
after it exactly when it marks no turn as ended well. -/
theorem Kept.step (h : Kept s) (hnone : s.handle.okTurnIds = []) {a : SessionOp}
    (hstep : sessionStep s a = some t) :
    Kept t ∧ (t.handle.okTurnIds = [] ↔ NoTurnEndsWell s a) := by
  cases a with
  | appendMessage m =>
    obtain ⟨store, handle, happend, hkept, hturns⟩ := h.appendMessage m
    simp only [sessionStep, happend] at hstep
    obtain rfl := Option.some.inj hstep
    exact ⟨hkept, iff_of_true (hturns.trans hnone) trivial⟩
  | markTurn turnId status now =>
    obtain ⟨store, handle, hmark, hkept, hother, hok⟩ := h.markTurn turnId status now
    simp only [sessionStep, hmark] at hstep
    obtain rfl := Option.some.inj hstep
    refine ⟨hkept, fun hturns e => hok e hturns, fun hne => (hother hne).trans hnone⟩
  | updateSpec patch =>
    obtain rfl := Option.some.inj hstep
    exact ⟨h.updateSpec patch, iff_of_true hnone trivial⟩
  | reopen =>
    simp only [sessionStep, h.openSession] at hstep
    obtain rfl := Option.some.inj hstep
    refine ⟨⟨h.sound, h.session, h.messages, ?_⟩, iff_of_true rfl trivial⟩
    exact congrArg (fun n => { deriveLedger s.handle.messages with turns := n })
      (turns_deriveLedger s.handle.messages)

/-- What was just opened. -/
theorem Kept.of_open (hsound : s.store.db.Sound)
    (hopen : s.store.openSession s.handle.id s.tenantId = .ok (some s.handle)) :
    Kept s ∧ s.handle.okTurnIds = [] := by
  rw [openSession_eq] at hopen
  unfold SessionDb.openWithinTenant at hopen
  cases hrow : s.store.db.selectSession s.handle.id with
  | none =>
    rw [hrow] at hopen
    cases hopen
  | some row =>
    rw [hrow] at hopen
    dsimp only at hopen
    by_cases htenant : row.tenantId = s.tenantId
    · rw [if_neg (not_not.mpr htenant)] at hopen
      have hhandle : buildHandle s.handle.id row.spec (s.store.db.selectMessages s.handle.id) =
          s.handle := Option.some.inj (Except.ok.inj hopen)
      have hid : row.id = s.handle.id := by
        have hfound := List.find?_some hrow
        simpa using hfound
      have hspec : row.spec = s.handle.spec :=
        congrArg (fun handle : LiveHandle => handle.spec) hhandle
      have hmessages : s.store.db.selectMessages s.handle.id = s.handle.messages :=
        congrArg (fun handle : LiveHandle => handle.messages) hhandle
      have hturns : [] = s.handle.okTurnIds := congrArg LiveHandle.okTurnIds hhandle
      refine ⟨⟨hsound, ?_, hmessages.symm, ?_⟩, hturns.symm⟩
      · rw [hrow, ← hid, ← htenant, ← hspec]
      · refine (congrArg LiveHandle.ledger hhandle).symm.trans ?_
        rw [← hturns, ← hmessages]
        exact congrArg (fun n => { deriveLedger (s.store.db.selectMessages s.handle.id) with
          turns := n }) (turns_deriveLedger _)
    · rw [if_pos htenant] at hopen
      cases hopen

/-- **A session opens as it is**, after every operation of a run, in exactly the runs in which no
turn is marked as ended well. -/
theorem opens_as_is_iff {as : List SessionOp} (hsound : s.store.db.Sound)
    (hopen : s.store.openSession s.handle.id s.tenantId = .ok (some s.handle)) :
    Run sessionStep (Leads sessionStep fun _ t => Reopens t) s as t ↔
      Run sessionStep NoTurnEndsWell s as t := by
  refine Run.leads_iff (P := fun u => Kept u ∧ u.handle.okTurnIds = [])
    (Kept.of_open hsound hopen) fun u a u' hu hstep => ?_
  obtain ⟨hkept, hturns⟩ := hu.1.step hu.2 hstep
  exact ⟨hkept.reopens_iff.trans hturns, fun hreopens => ⟨hkept, hkept.reopens_iff.mp hreopens⟩⟩

/-- A store with one session that has no messages. -/
def newSession : LiveSession where
  store :=
    { db :=
        { SessionDb.empty with
          sessions := [⟨"s1", defaultTenantId, .null⟩]
          sessionId := List.nodup_singleton _ }
      turns := []
      turnId := nodup_no_keys }
  handle := buildHandle "s1" .null []
  tenantId := defaultTenantId

theorem opens_as_is_appended : ∃ t,
    Run sessionStep NoTurnEndsWell newSession [.appendMessage (userText "hello"), .reopen] t ∧
    Run sessionStep (Leads sessionStep fun _ t => Reopens t) newSession
      [.appendMessage (userText "hello"), .reopen] t := by
  have hsound : newSession.store.db.Sound :=
    ⟨fun _ hrow => (by cases hrow), fun _ hrow => (by cases hrow), fun _ => rfl⟩
  have hopen : newSession.store.openSession newSession.handle.id newSession.tenantId =
      .ok (some newSession.handle) := rfl
  obtain ⟨store, handle, happend, hkept, -⟩ :=
    (Kept.of_open hsound hopen).1.appendMessage (userText "hello")
  have h₁ : sessionStep newSession (.appendMessage (userText "hello")) =
      some ⟨store, handle, newSession.tenantId⟩ := by
    simp only [sessionStep, happend]
  have h₂ : sessionStep ⟨store, handle, newSession.tenantId⟩ .reopen =
      some ⟨store, buildHandle handle.id handle.spec handle.messages, newSession.tenantId⟩ := by
    simp only [sessionStep, hkept.openSession]
  have happended : NoTurnEndsWell newSession (.appendMessage (userText "hello")) := trivial
  have hreopened : NoTurnEndsWell ⟨store, handle, newSession.tenantId⟩ .reopen := trivial
  have r := Run.cons happended h₁ (.snoc .nil hreopened h₂)
  exact ⟨_, r, (opens_as_is_iff hsound hopen).mpr r⟩

/-- One turn ends well, and the session opens with no turn. -/
theorem turns_lost : ∃ t opened,
    sessionStep newSession (.markTurn "t1" .ok 0) = some t ∧ t.handle.ledger.turns = 1 ∧
    t.store.openSession t.handle.id t.tenantId = .ok (some opened) ∧ opened.ledger.turns = 0 :=
  ⟨_, _, rfl, rfl, rfl, rfl⟩

end Declaragent.Session
