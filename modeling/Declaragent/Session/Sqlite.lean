import Declaragent.Engine.Messages

/-!
# Session — the SQLite session store

Sessions, their messages, and the pins that map a session key to a session within a tenant.
The tables carry their primary keys, so a row that would break one cannot be stored; an insert
that tries it throws.  A message's `seq` is not the table's: it is the length of the transcript
that the handle has cached, so a handle that was opened before another one appended throws on
its next append.

`Sound` is what the store's writes keep (`Sound.createForKey`, `Sound.appendMessage`): each row
refers to a session, the session of a pin is of the pin's tenant, and the messages of a session
are numbered from `0`.

* `resolveByKey_pinned`: a pinned key opens its session, with the transcript stored so far.
* `createForKey_unpinned`: a new pin.
* `appendMessage_current`: an append through a handle that is up to date.
-/

namespace Declaragent.Session
open JsonText Engine

def defaultTenantId : String := "__default__"

structure SessionRow where
  id : String
  tenantId : String
  spec : Json

structure MessageRow where
  sessionId : String
  seq : Nat
  message : Message

structure SessionKeyRow where
  tenantId : String
  sessionKey : String
  sessionId : String

theorem lawful_keys : LawfulBEq (String × String) := inferInstance

attribute [local instance] lawful_keys

theorem nodup_no_keys : ([] : List (String × String)).Nodup := List.nodup_nil

/-- The tables, in insertion order, and their primary keys. -/
structure SessionDb where
  sessions : List SessionRow
  messages : List MessageRow
  sessionKeys : List SessionKeyRow
  sessionId : (sessions.map fun row => row.id).Nodup
  messageSeq : (messages.map fun row => (row.sessionId, row.seq)).Nodup
  sessionKey : (sessionKeys.map fun row => (row.tenantId, row.sessionKey)).Nodup

/-- A session in memory: `messages` is the transcript it was opened with and what was appended
through it since. -/
structure SessionHandle where
  id : String
  spec : Json
  messages : List Message

namespace SessionDb

def empty : SessionDb := ⟨[], [], [], List.nodup_nil, List.nodup_nil, nodup_no_keys⟩

/-! ### Statements -/

def selectSession (db : SessionDb) (id : String) : Option SessionRow :=
  db.sessions.find? fun row => row.id == id

/-- The rows of one session. -/
def messageRows (db : SessionDb) (sessionId : String) : List MessageRow :=
  db.messages.filter fun row => row.sessionId == sessionId

/-- `ORDER BY seq ASC`. -/
def selectMessages (db : SessionDb) (sessionId : String) : List Message :=
  ((db.messageRows sessionId).insertionSort fun a b => a.seq ≤ b.seq).map (·.message)

def selectSessionKey (db : SessionDb) (tenantId sessionKey : String) : Option String :=
  (db.sessionKeys.find? fun row => (row.tenantId, row.sessionKey) == (tenantId, sessionKey)).map
    (·.sessionId)

def insertSession (db : SessionDb) (row : SessionRow) : Except String SessionDb :=
  if h : row.id ∈ db.sessions.map fun row => row.id then
    .error "UNIQUE constraint failed: sessions.id"
  else
    .ok { db with
      sessions := db.sessions ++ [row]
      sessionId := by
        rw [List.map_append]
        exact db.sessionId.append (List.nodup_singleton _) (by simpa using h) }

/-- The primary key is checked at once, the foreign key at the end of the statement. -/
def insertMessage (db : SessionDb) (row : MessageRow) : Except String SessionDb :=
  if h : (row.sessionId, row.seq) ∈ db.messages.map fun row => (row.sessionId, row.seq) then
    .error "UNIQUE constraint failed: messages.session_id, messages.seq"
  else if (db.selectSession row.sessionId).isNone then
    .error "FOREIGN KEY constraint failed"
  else
    .ok { db with
      messages := db.messages ++ [row]
      messageSeq := by
        rw [List.map_append]
        exact db.messageSeq.append (List.nodup_singleton _) (by simpa using h) }

def insertSessionKey (db : SessionDb) (row : SessionKeyRow) : Except String SessionDb :=
  if h : (row.tenantId, row.sessionKey) ∈
      db.sessionKeys.map fun row => (row.tenantId, row.sessionKey) then
    .error "UNIQUE constraint failed: session_keys.tenant_id, session_keys.session_key"
  else if (db.selectSession row.sessionId).isNone then
    .error "FOREIGN KEY constraint failed"
  else
    .ok { db with
      sessionKeys := db.sessionKeys ++ [row]
      sessionKey := by
        rw [List.map_append]
        exact db.sessionKey.append (List.nodup_singleton _) (by simpa using h) }

/-! ### The store -/

/-- `seq` is the number of messages the handle knows of. -/
def appendMessage (db : SessionDb) (handle : SessionHandle) (m : Message) :
    Except String (SessionDb × SessionHandle) := do
  let db ← db.insertMessage ⟨handle.id, handle.messages.length, m⟩
  pure (db, { handle with messages := handle.messages ++ [m] })

def tenantBoundaryError (sourceTenantId targetTenantId resource resourceId : String) : String :=
  "tenant boundary violation: tenant " ++ sourceTenantId ++ " attempted to access " ++ resource ++
    " \"" ++ resourceId ++ "\" owned by tenant " ++ targetTenantId

def openWithinTenant (db : SessionDb) (id tenantId : String) :
    Except String (Option SessionHandle) :=
  match db.selectSession id with
  | none => .ok none
  | some row =>
    if row.tenantId ≠ tenantId then
      .error (tenantBoundaryError tenantId row.tenantId "session" id)
    else .ok (some ⟨id, row.spec, db.selectMessages id⟩)

/-- A pin whose session is gone is no pin. -/
def resolveByKey (db : SessionDb) (sessionKey tenantId : String) :
    Except String (Option SessionHandle) :=
  match db.selectSessionKey tenantId sessionKey with
  | none => .ok none
  | some sessionId => db.openWithinTenant sessionId tenantId

/-- One transaction; `sessionId` is the UUID drawn for the session. -/
def createForKey (db : SessionDb) (sessionKey : String) (spec : Json)
    (tenantId sessionId : String) : Except String (SessionDb × SessionHandle) := do
  let db ← db.insertSession ⟨sessionId, tenantId, spec⟩
  let db ← db.insertSessionKey ⟨tenantId, sessionKey, sessionId⟩
  pure (db, ⟨sessionId, spec, []⟩)

/-! ### What the statements do -/

variable {db db' : SessionDb}

theorem selectSession_eq_none {id : String} :
    db.selectSession id = none ↔ id ∉ db.sessions.map fun row => row.id := by
  unfold selectSession
  simp

theorem selectSessionKey_eq_none {tenantId sessionKey : String} :
    db.selectSessionKey tenantId sessionKey = none ↔ (tenantId, sessionKey) ∉
      db.sessionKeys.map fun row => (row.tenantId, row.sessionKey) := by
  unfold selectSessionKey
  rw [Option.map_eq_none_iff, List.find?_eq_none]
  simp

theorem selectSessionKey_mem {tenantId sessionKey sessionId : String}
    (h : db.selectSessionKey tenantId sessionKey = some sessionId) :
    ⟨tenantId, sessionKey, sessionId⟩ ∈ db.sessionKeys := by
  unfold selectSessionKey at h
  obtain ⟨row, hrow, rfl⟩ := Option.map_eq_some_iff.mp h
  have hkey := List.find?_some hrow
  simp only [beq_iff_eq, Prod.mk.injEq] at hkey
  obtain ⟨rfl, rfl⟩ := hkey
  exact List.mem_of_find?_eq_some hrow

/-- **An insert of a session** under a new id. -/
theorem insertSession_new (row : SessionRow) (h : db.selectSession row.id = none) :
    ∃ db', db.insertSession row = .ok db' ∧ db'.sessions = db.sessions ++ [row] ∧
      db'.messages = db.messages ∧ db'.sessionKeys = db.sessionKeys := by
  unfold insertSession
  rw [dif_neg (selectSession_eq_none.mp h)]
  exact ⟨_, rfl, rfl, rfl, rfl⟩

theorem insertMessage_new (row : MessageRow)
    (hseq : (row.sessionId, row.seq) ∉ db.messages.map fun row => (row.sessionId, row.seq))
    (hsession : (db.selectSession row.sessionId).isSome) :
    ∃ db', db.insertMessage row = .ok db' ∧ db'.sessions = db.sessions ∧
      db'.messages = db.messages ++ [row] ∧ db'.sessionKeys = db.sessionKeys := by
  unfold insertMessage
  have hnone : ¬ (db.selectSession row.sessionId).isNone := by
    simpa using Option.isSome_iff_ne_none.mp hsession
  rw [dif_neg hseq, if_neg hnone]
  exact ⟨_, rfl, rfl, rfl, rfl⟩

theorem insertSessionKey_new (row : SessionKeyRow)
    (hkey : db.selectSessionKey row.tenantId row.sessionKey = none)
    (hsession : (db.selectSession row.sessionId).isSome) :
    ∃ db', db.insertSessionKey row = .ok db' ∧ db'.sessions = db.sessions ∧
      db'.messages = db.messages ∧ db'.sessionKeys = db.sessionKeys ++ [row] := by
  unfold insertSessionKey
  have hnone : ¬ (db.selectSession row.sessionId).isNone := by
    simpa using Option.isSome_iff_ne_none.mp hsession
  rw [dif_neg (selectSessionKey_eq_none.mp hkey), if_neg hnone]
  exact ⟨_, rfl, rfl, rfl, rfl⟩

/-! ### What the store keeps -/

/-- The rows refer to sessions, a pin to one of its tenant, and the messages of a session are
numbered from `0`. -/
structure Sound (db : SessionDb) : Prop where
  owned : ∀ row ∈ db.messages, (db.selectSession row.sessionId).isSome
  pinned : ∀ row ∈ db.sessionKeys, ∃ session, db.selectSession row.sessionId = some session ∧
    session.tenantId = row.tenantId
  numbered : ∀ sessionId, (db.messageRows sessionId).map (·.seq) =
    List.range (db.messageRows sessionId).length

theorem sound_empty : Sound empty where
  owned row hrow := by cases hrow
  pinned row hrow := by cases hrow
  numbered _ := rfl

/-- A numbered session is read in the order it was written. -/
theorem Sound.selectMessages_eq (h : Sound db) (sessionId : String) :
    db.selectMessages sessionId = (db.messageRows sessionId).map (·.message) := by
  have hsorted : (db.messageRows sessionId).Pairwise fun a b => a.seq ≤ b.seq := by
    have hrange := List.pairwise_le_range (n := (db.messageRows sessionId).length)
    rw [← h.numbered sessionId, List.pairwise_map] at hrange
    exact hrange
  unfold selectMessages
  rw [List.Pairwise.insertionSort_eq hsorted]

theorem Sound.length_selectMessages (h : Sound db) (sessionId : String) :
    (db.selectMessages sessionId).length = (db.messageRows sessionId).length := by
  rw [h.selectMessages_eq, List.length_map]

/-- Which sequence numbers of a session are taken. -/
theorem Sound.mem_messageSeq (h : Sound db) {sessionId : String} {seq : Nat} :
    (sessionId, seq) ∈ (db.messages.map fun row => (row.sessionId, row.seq)) ↔
      seq < (db.selectMessages sessionId).length := by
  rw [h.length_selectMessages, ← List.mem_range, ← h.numbered sessionId]
  unfold messageRows
  constructor
  · intro hmem
    obtain ⟨row, hrow, hpair⟩ := List.mem_map.mp hmem
    obtain ⟨rfl, rfl⟩ := Prod.mk.inj hpair
    exact List.mem_map_of_mem (List.mem_filter.mpr ⟨hrow, by simp⟩)
  · intro hmem
    obtain ⟨row, hrow, rfl⟩ := List.mem_map.mp hmem
    obtain ⟨hrow, hid⟩ := List.mem_filter.mp hrow
    exact List.mem_map.mpr ⟨row, hrow, by rw [show row.sessionId = sessionId by simpa using hid]⟩

/-- **A pinned key** opens its session with the transcript stored so far. -/
theorem Sound.resolveByKey_pinned (h : Sound db) {tenantId sessionKey sessionId : String}
    (hpin : db.selectSessionKey tenantId sessionKey = some sessionId) :
    ∃ spec, db.resolveByKey sessionKey tenantId =
      .ok (some ⟨sessionId, spec, db.selectMessages sessionId⟩) := by
  obtain ⟨session, hsession, htenant⟩ := h.pinned _ (selectSessionKey_mem hpin)
  have htenant : session.tenantId = tenantId := htenant
  refine ⟨session.spec, ?_⟩
  unfold resolveByKey openWithinTenant
  simp [hpin, hsession, htenant]

theorem resolveByKey_unpinned {tenantId sessionKey : String}
    (hpin : db.selectSessionKey tenantId sessionKey = none) :
    db.resolveByKey sessionKey tenantId = .ok none := by
  unfold resolveByKey
  rw [hpin]

/-! ### A new pin -/

/-- A session that is not there has no messages. -/
theorem Sound.messageRows_of_absent (h : Sound db) {id : String}
    (hid : db.selectSession id = none) : db.messageRows id = [] := by
  unfold messageRows
  refine List.filter_eq_nil_iff.mpr fun row hrow he => ?_
  have hsome := h.owned row hrow
  rw [show row.sessionId = id by simpa using he, hid] at hsome
  cases hsome

/-- More sessions at the end of the table take nothing away. -/
theorem selectSession_append {more : List SessionRow} {id : String} {session : SessionRow}
    (hsessions : db'.sessions = db.sessions ++ more)
    (hsession : db.selectSession id = some session) : db'.selectSession id = some session := by
  unfold selectSession at hsession ⊢
  rw [hsessions, List.find?_append, hsession, Option.some_or]

theorem messageRows_congr (h : db'.messages = db.messages) (id : String) :
    db'.messageRows id = db.messageRows id := by
  unfold messageRows
  rw [h]

/-- A session and its pin, in one go. -/
theorem Sound.pin (h : Sound db) {session : SessionRow} {row : SessionKeyRow}
    (hsessions : db'.sessions = db.sessions ++ [session]) (hmessages : db'.messages = db.messages)
    (hkeys : db'.sessionKeys = db.sessionKeys ++ [row])
    (hnew : db'.selectSession row.sessionId = some session)
    (htenant : session.tenantId = row.tenantId) : Sound db' where
  owned message hmessage := by
    rw [hmessages] at hmessage
    obtain ⟨owner, howner⟩ := Option.isSome_iff_exists.mp (h.owned message hmessage)
    rw [selectSession_append hsessions howner]
    rfl
  pinned pin hpin := by
    rw [hkeys, List.mem_append, List.mem_singleton] at hpin
    rcases hpin with hpin | rfl
    · obtain ⟨owner, howner, htenant⟩ := h.pinned pin hpin
      exact ⟨owner, selectSession_append hsessions howner, htenant⟩
    · exact ⟨session, hnew, htenant⟩
  numbered id := by
    rw [messageRows_congr hmessages]
    exact h.numbered id

/-- **The first pin of a key**, under a new session id. -/
theorem Sound.createForKey_unpinned (h : Sound db) {sessionKey tenantId sessionId : String}
    (spec : Json) (hpin : db.selectSessionKey tenantId sessionKey = none)
    (hid : db.selectSession sessionId = none) :
    ∃ db', db.createForKey sessionKey spec tenantId sessionId =
        .ok (db', ⟨sessionId, spec, []⟩) ∧ Sound db' ∧
      db'.selectSessionKey tenantId sessionKey = some sessionId ∧
      db'.selectMessages sessionId = [] := by
  obtain ⟨db₁, hdb₁, hsessions₁, hmessages₁, hkeys₁⟩ :=
    insertSession_new ⟨sessionId, tenantId, spec⟩ hid
  have hpin₁ : db₁.selectSessionKey tenantId sessionKey = none := by
    unfold selectSessionKey at hpin ⊢
    rw [hkeys₁, hpin]
  have hnew₁ : db₁.selectSession sessionId = some ⟨sessionId, tenantId, spec⟩ := by
    unfold selectSession at hid ⊢
    rw [hsessions₁, List.find?_append, hid]
    simp
  obtain ⟨db₂, hdb₂, hsessions₂, hmessages₂, hkeys₂⟩ :=
    insertSessionKey_new ⟨tenantId, sessionKey, sessionId⟩ hpin₁ (by rw [hnew₁]; rfl)
  have hsessions : db₂.sessions = db.sessions ++ [⟨sessionId, tenantId, spec⟩] := by
    rw [hsessions₂, hsessions₁]
  have hmessages : db₂.messages = db.messages := by rw [hmessages₂, hmessages₁]
  have hkeys : db₂.sessionKeys = db.sessionKeys ++ [⟨tenantId, sessionKey, sessionId⟩] := by
    rw [hkeys₂, hkeys₁]
  have hnew : db₂.selectSession sessionId = some ⟨sessionId, tenantId, spec⟩ := by
    unfold selectSession at hnew₁ ⊢
    rw [hsessions₂, hnew₁]
  have hsound : Sound db₂ := h.pin hsessions hmessages hkeys hnew rfl
  refine ⟨db₂, ?_, hsound, ?_, ?_⟩
  · unfold createForKey
    rw [hdb₁]
    simp only [bind, Except.bind, hdb₂]
    rfl
  · unfold selectSessionKey at hpin ⊢
    rw [hkeys, List.find?_append, Option.map_eq_none_iff.mp hpin]
    simp
  · rw [hsound.selectMessages_eq, messageRows_congr hmessages, h.messageRows_of_absent hid]
    rfl

/-! ### Appends -/

/-- The handle has what is stored. -/
structure Current (db : SessionDb) (handle : SessionHandle) : Prop where
  stored : (db.selectSession handle.id).isSome
  messages : handle.messages = db.selectMessages handle.id

theorem messageRows_append_self {row : MessageRow} (h : db'.messages = db.messages ++ [row]) :
    db'.messageRows row.sessionId = db.messageRows row.sessionId ++ [row] := by
  unfold messageRows
  rw [h, List.filter_append]
  simp

theorem messageRows_append_of_ne {row : MessageRow} (h : db'.messages = db.messages ++ [row])
    {id : String} (hid : id ≠ row.sessionId) : db'.messageRows id = db.messageRows id := by
  unfold messageRows
  rw [h, List.filter_append]
  simp [hid.symm]

/-- The next message of a session. -/
theorem Sound.append (h : Sound db) {row : MessageRow} (hsessions : db'.sessions = db.sessions)
    (hmessages : db'.messages = db.messages ++ [row])
    (hkeys : db'.sessionKeys = db.sessionKeys)
    (hstored : (db.selectSession row.sessionId).isSome)
    (hseq : row.seq = (db.messageRows row.sessionId).length) : Sound db' := by
  have hselect : ∀ id, db'.selectSession id = db.selectSession id := fun id => by
    unfold selectSession
    rw [hsessions]
  refine ⟨fun message hmessage => ?_, fun pin hpin => ?_, fun id => ?_⟩
  · rw [hmessages, List.mem_append, List.mem_singleton] at hmessage
    rw [hselect]
    rcases hmessage with hmessage | rfl
    · exact h.owned message hmessage
    · exact hstored
  · rw [hkeys] at hpin
    rw [hselect]
    exact h.pinned pin hpin
  · by_cases hid : id = row.sessionId
    · subst hid
      rw [messageRows_append_self hmessages, List.map_append, h.numbered, List.length_append,
        List.length_singleton, List.range_succ, ← hseq]
      rfl
    · rw [messageRows_append_of_ne hmessages hid]
      exact h.numbered id

/-- **An append through a handle that is up to date** goes to the end of the transcript, and
leaves the handle up to date. -/
theorem Sound.appendMessage_current (h : Sound db) {handle : SessionHandle}
    (hcurrent : db.Current handle) (m : Message) :
    ∃ db', db.appendMessage handle m =
        .ok (db', { handle with messages := handle.messages ++ [m] }) ∧ Sound db' ∧
      db'.sessions = db.sessions ∧ db'.sessionKeys = db.sessionKeys ∧
      db'.selectMessages handle.id = db.selectMessages handle.id ++ [m] := by
  have hlength : (db.messageRows handle.id).length = handle.messages.length := by
    rw [hcurrent.messages, h.length_selectMessages]
  have hfree : (handle.id, handle.messages.length) ∉
      db.messages.map fun row => (row.sessionId, row.seq) := by
    rw [h.mem_messageSeq, hcurrent.messages]
    exact lt_irrefl _
  obtain ⟨db', hdb', hsessions, hmessages, hkeys⟩ :=
    insertMessage_new ⟨handle.id, handle.messages.length, m⟩ hfree hcurrent.stored
  have hsound : Sound db' := h.append hsessions hmessages hkeys hcurrent.stored hlength.symm
  have hself : db'.messageRows handle.id =
      db.messageRows handle.id ++ [⟨handle.id, handle.messages.length, m⟩] :=
    messageRows_append_self hmessages
  refine ⟨db', ?_, hsound, hsessions, hkeys, ?_⟩
  · unfold appendMessage
    rw [hdb']
    rfl
  · rw [hsound.selectMessages_eq, h.selectMessages_eq, hself, List.map_append]
    rfl

end SessionDb

end Declaragent.Session
