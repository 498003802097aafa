import Declaragent.Engine.Lineage
import Declaragent.Engine.RunAgent
import Declaragent.Library.JsonParse
import Mathlib.Data.List.Infix

/-!
# Tools — long-term memory

The three memory tools work on one store, in the partition that is named after the agent's
namespace, the tenant of the engine and the subject of the turn.

* `unseen_iff`: what one context writes is not seen in another if and only if their partitions
  have different names.
* `scopedNamespace_eq_iff`: when two names are the same.
* `works_iff`: which turns work in the partition of their user.
* `isolated_iff`: what keeps two turns of one agent apart.
-/

namespace Declaragent.Tools
open Events Engine JsonText

/-! ### The store -/

/-- A row of `memories`. -/
structure MemoryRow where
  ns : String
  key : String
  value : String
  tagsJson : String
  createdAt : Int
  updatedAt : Int

structure MemoryRecord where
  ns : String
  key : String
  value : String
  tags : List String
  createdAt : Int
  updatedAt : Int

/-- What is no array of strings has no tags. -/
def parseTags (raw : String) : List String :=
  match parse raw with
  | some (.arr tags) => tags.filterMap fun | .str tag => some tag | _ => none
  | _ => []

def rowToRecord (row : MemoryRow) : MemoryRecord where
  ns := row.ns
  key := row.key
  value := row.value
  tags := parseTags row.tagsJson
  createdAt := row.createdAt
  updatedAt := row.updatedAt

/-- `ORDER BY updated_at DESC, key ASC`. -/
def MemoryRow.before (a b : MemoryRow) : Bool :=
  b.updatedAt < a.updatedAt || (a.updatedAt = b.updatedAt && a.key ≤ b.key)

/-- `PRIMARY KEY (namespace, key)`. -/
structure MemoryStore where
  rows : List MemoryRow
  keys : (rows.map fun row => (row.ns, row.key)).Nodup

structure MemorySearchQuery where
  startsWith : Option String := none
  substring : Option String := none
  tags : Option (List String) := none

namespace MemoryStore
variable (store : MemoryStore)

def empty : MemoryStore := ⟨[], List.nodup_nil⟩

def Has (ns key : String) : Prop := ∃ row ∈ store.rows, row.ns = ns ∧ row.key = key

instance (ns key : String) : Decidable (store.Has ns key) :=
  inferInstanceAs (Decidable (∃ row ∈ store.rows, row.ns = ns ∧ row.key = key))

/-- The `DO UPDATE` of the upsert: the time of creation stays. -/
def updateRow (ns key value tagsJson : String) (now : Int) (row : MemoryRow) : MemoryRow :=
  if row.ns = ns ∧ row.key = key then
    { row with
      value := value
      tagsJson := tagsJson
      updatedAt := now }
  else row

theorem updateRow_key (ns key value tagsJson : String) (now : Int) (row : MemoryRow) :
    ((updateRow ns key value tagsJson now row).ns, (updateRow ns key value tagsJson now row).key) =
      (row.ns, row.key) := by
  unfold updateRow
  split <;> rfl

def write (ns key value : String) (tags : List String) (now : Int) : MemoryStore :=
  let tagsJson := stringify (.arr (tags.map .str))
  if h : store.Has ns key then
    { rows := store.rows.map (updateRow ns key value tagsJson now)
      keys := by
        rw [List.map_map]
        have hkeys : (fun row => (row.ns, row.key)) ∘ updateRow ns key value tagsJson now =
            fun row => (row.ns, row.key) := funext (updateRow_key ns key value tagsJson now)
        rw [hkeys]
        exact store.keys }
  else
    { rows := store.rows ++ [⟨ns, key, value, tagsJson, now, now⟩]
      keys := by
        rw [List.map_append]
        refine store.keys.append (List.nodup_singleton _) ?_
        intro k hk hnew
        obtain ⟨row, hrow, rfl⟩ := List.mem_map.mp hk
        obtain ⟨hns, hkey⟩ := Prod.mk.inj (List.mem_singleton.mp hnew)
        exact h ⟨row, hrow, hns, hkey⟩ }

def read (ns key : String) : Option MemoryRecord :=
  (store.rows.find? fun row => row.ns = ns ∧ row.key = key).map rowToRecord

def listAll (ns : String) : List MemoryRecord :=
  ((store.rows.filter (·.ns = ns)).mergeSort MemoryRow.before).map rowToRecord

end MemoryStore

/-- Every part of a query that is there has to match; an empty list of tags is none. -/
def MemorySearchQuery.accepts (query : MemorySearchQuery) (rec : MemoryRecord) : Bool :=
  (query.startsWith.all fun start => start.toList <+: rec.key.toList) &&
    (query.substring.all fun text =>
      text.toList <:+: rec.key.toList || text.toList <:+: rec.value.toList) &&
    query.tags.all fun tags => tags.all (rec.tags.contains ·)

def MemoryStore.search (store : MemoryStore) (ns : String) (query : MemorySearchQuery) :
    List MemoryRecord :=
  (store.listAll ns).filter query.accepts

/-! ### The partition of a turn -/

def DEFAULT_TENANT_ID : String := "__default__"

def isDefaultTenant : Option TenantContext → Prop
  | none => True
  | some tenant => tenant.id = DEFAULT_TENANT_ID

instance : ∀ tenant : Option TenantContext, Decidable (isDefaultTenant tenant)
  | none => .isTrue trivial
  | some tenant => inferInstanceAs (Decidable (tenant.id = DEFAULT_TENANT_ID))

def resolveTenant (tenant : Option TenantContext) : TenantContext :=
  tenant.getD ⟨DEFAULT_TENANT_ID⟩

def tenantScopedNamespace (base : String) (tenant : Option TenantContext) : String :=
  match tenant with
  | none => base
  | some tenant => if isDefaultTenant (some tenant) then base else base ++ "::t::" ++ tenant.id

def scopedNamespace (base : String) (tenant : Option TenantContext) (subject : Option String) :
    String :=
  let tenantScoped := tenantScopedNamespace base tenant
  match subject with
  | none => tenantScoped
  | some subject => if subject = "" then tenantScoped else tenantScoped ++ "::sub::" ++ subject

/-! ### The tools -/

structure MemoryWriteInput where
  key : String
  value : String
  tags : Option (List String) := none

structure MemoryWriteOutput where
  key : String
  ns : String

structure MemoryReadOutput where
  key : String
  found : Bool
  value : Option String := none
  tags : Option (List String) := none

structure MemorySearchMatch where
  key : String
  value : String
  tags : List String

def aborted (tool : String) : ToolError where
  message := tool ++ " aborted"
  code := some "ABORTED"

section
variable (base : String) (ctx : ToolContext)

/-- The partition that the tools of a context work in. -/
def memoryPartition : String := scopedNamespace base ctx.tenant ctx.subject

def memoryWrite (store : MemoryStore) (input : MemoryWriteInput) (isAborted : Bool) (now : Int) :
    MemoryStore × Except ToolError MemoryWriteOutput :=
  if isAborted then (store, .error (aborted "memory_write"))
  else
    let ns := memoryPartition base ctx
    (store.write ns input.key input.value (input.tags.getD []) now, .ok ⟨input.key, ns⟩)

def memoryRead (store : MemoryStore) (key : String) (isAborted : Bool) :
    Except ToolError MemoryReadOutput :=
  if isAborted then .error (aborted "memory_read")
  else
    match store.read (memoryPartition base ctx) key with
    | none =>
      .ok { key
            found := false }
    | some rec =>
      .ok { key := rec.key
            found := true
            value := some rec.value
            tags := some rec.tags }

def memorySearch (store : MemoryStore) (query : String) (tags : Option (List String))
    (isAborted : Bool) : Except ToolError (List MemorySearchMatch) :=
  if isAborted then .error (aborted "memory_search")
  else
    let records := store.search (memoryPartition base ctx)
      { substring := if query = "" then none else some query
        tags := tags.filter (· ≠ []) }
    .ok (records.map fun rec => ⟨rec.key, rec.value, rec.tags⟩)

/-- A call of `memory_write`. -/
structure MemoryWriteCall where
  input : MemoryWriteInput
  isAborted : Bool
  now : Int

def writeAll (store : MemoryStore) (calls : List MemoryWriteCall) : MemoryStore :=
  calls.foldl (fun store call => (memoryWrite base ctx store call.input call.isAborted call.now).1)
    store

end

/-- No writes in the one context change what a read or a search in the other returns. -/
structure Unseen (base : String) (writer reader : ToolContext) : Prop where
  read : ∀ (store : MemoryStore) (calls : List MemoryWriteCall) (key : String) (isAborted : Bool),
    memoryRead base reader (writeAll base writer store calls) key isAborted =
      memoryRead base reader store key isAborted
  search : ∀ (store : MemoryStore) (calls : List MemoryWriteCall) (query : String)
      (tags : Option (List String)) (isAborted : Bool),
    memorySearch base reader (writeAll base writer store calls) query tags isAborted =
      memorySearch base reader store query tags isAborted

/-- The event is not for a skill in a child session. -/
def KeepsSubject (event : AgentEvent) : Prop :=
  match event.target with
  | .skill _ _ none | .skill _ _ (some "") => False
  | _ => True

/-- A turn for an event with a principal: the one the dispatcher starts, or one under nested calls
of the Agent tool, in the last of their sessions. -/
structure MemoryTurn where
  event : AgentEvent
  input : TurnInput
  started : turnInput event = some input
  user : String
  principal : event.info.bind (·.platformUserId) = some user
  session : SessionRef
  subAgents : List SessionRef
  tenant : Option TenantContext

namespace MemoryTurn

def ctx (turn : MemoryTurn) : ToolContext :=
  nestedContext turn.tenant turn.input turn.session turn.subAgents

/-- Its memory tools work in the partition of its user. -/
def Works (base : String) (turn : MemoryTurn) : Prop :=
  memoryPartition base turn.ctx = scopedNamespace base turn.tenant (some turn.user)

/-- They are of different tenants or of different users. -/
def Differ (turn other : MemoryTurn) : Prop :=
  (resolveTenant turn.tenant).id ≠ (resolveTenant other.tenant).id ∨ turn.user ≠ other.user

/-- The user gets to the turn: it is the first turn, and not that of a skill in a child session.
No text is no user. -/
def Forwarded (turn : MemoryTurn) : Prop :=
  turn.user = "" ∨ turn.subAgents = [] ∧ KeepsSubject turn.event

end MemoryTurn

/-- What the name of a partition has for a user. -/
def subjectSegment (user : String) : String := if user = "" then "" else "::sub::" ++ user

/-- The ids of two tenants read the same when they are continued with the users. -/
def MemoryTurn.Collide (turn other : MemoryTurn) : Prop :=
  ∃ a b, turn.tenant = some a ∧ other.tenant = some b ∧ ¬ isDefaultTenant (some a) ∧
    ¬ isDefaultTenant (some b) ∧
    a.id ++ subjectSegment turn.user = b.id ++ subjectSegment other.user

/-- Two turns work in the partitions of their users, and where these or the tenants differ, no
writes of the one are seen by the other. -/
structure Isolated (base : String) (turn other : MemoryTurn) : Prop where
  works : turn.Works base
  otherWorks : other.Works base
  unseen : turn.Differ other → Unseen base turn.ctx other.ctx

/-- The users get to both turns, and the names do not collide. -/
structure Apart (turn other : MemoryTurn) : Prop where
  forwarded : turn.Forwarded
  otherForwarded : other.Forwarded
  names : turn.Differ other → ¬ turn.Collide other

/-! ### What a write leaves as it was -/

namespace MemoryStore
variable {store : MemoryStore} {ns other key : String}

/-- The rows of a partition. -/
def view (store : MemoryStore) (ns : String) : List MemoryRow := store.rows.filter (·.ns = ns)

theorem updateRow_of_ne {value tagsJson : String} {now : Int} {row : MemoryRow}
    (h : row.ns ≠ other) : updateRow other key value tagsJson now row = row :=
  if_neg fun hrow => h hrow.1

theorem view_write_of_ne (h : ns ≠ other) (key value : String) (tags : List String) (now : Int) :
    (store.write other key value tags now).view ns = store.view ns := by
  unfold view write
  dsimp only
  split
  · rw [List.filter_map]
    have hns : ∀ row : MemoryRow, (updateRow other key value
        (stringify (.arr (tags.map .str))) now row).ns = row.ns := fun row =>
      congrArg Prod.fst (updateRow_key other key value _ now row)
    have hsame : (store.rows.filter (·.ns = ns)).map (updateRow other key value
        (stringify (.arr (tags.map .str))) now) = store.rows.filter (·.ns = ns) := by
      refine (List.map_congr_left fun row hrow => ?_).trans (List.map_id _)
      have hrow : row.ns = ns := by simpa using (List.mem_filter.mp hrow).2
      exact updateRow_of_ne (hrow ▸ h)
    simpa only [Function.comp_def, hns] using hsame
  · simp [List.filter_append, Ne.symm h]

theorem listAll_eq (ns : String) :
    store.listAll ns = ((store.view ns).mergeSort MemoryRow.before).map rowToRecord := rfl

theorem read_eq (ns key : String) :
    store.read ns key = ((store.view ns).find? (·.key = key)).map rowToRecord := by
  unfold read view
  rw [List.find?_filter]
  simp

/-- A read returns what was written last. -/
theorem read_empty_write (ns key value : String) (tags : List String) (now : Int) :
    ((empty.write ns key value tags now).read ns key).map (·.value) = some value := by
  simp [write, read, empty, Has, rowToRecord]

end MemoryStore

section
variable {base : String} {writer reader : ToolContext}

theorem view_writeAll (h : memoryPartition base writer ≠ memoryPartition base reader)
    (store : MemoryStore) (calls : List MemoryWriteCall) :
    (writeAll base writer store calls).view (memoryPartition base reader) =
      store.view (memoryPartition base reader) := by
  induction calls generalizing store with
  | nil => rfl
  | cons call rest ih =>
    refine (ih _).trans ?_
    show ((memoryWrite base writer store call.input call.isAborted call.now).1).view _ = _
    unfold memoryWrite
    split
    · rfl
    · exact MemoryStore.view_write_of_ne (Ne.symm h) ..

/-- **What one context writes is not seen in another if and only if their partitions have
different names.** -/
theorem unseen_iff :
    Unseen base writer reader ↔ memoryPartition base writer ≠ memoryPartition base reader := by
  constructor
  · intro h hsame
    have hread := h.read .empty [⟨⟨"k", "v", none⟩, false, 0⟩] "k" false
    have hwritten := MemoryStore.read_empty_write (memoryPartition base reader) "k" "v" [] 0
    simp only [writeAll, List.foldl_cons, List.foldl_nil, memoryWrite, memoryRead, hsame,
      Bool.false_eq_true, if_false, Option.getD_none] at hread
    obtain ⟨rec, hrec, -⟩ := Option.map_eq_some_iff.mp hwritten
    have hbefore : MemoryStore.empty.read (memoryPartition base reader) "k" = none := rfl
    rw [hrec, hbefore] at hread
    have hfound := congrArg MemoryReadOutput.found (Except.ok.inj hread)
    cases hfound
  · intro h
    have hview := view_writeAll h
    constructor
    · intro store calls key isAborted
      unfold memoryRead
      rw [MemoryStore.read_eq, MemoryStore.read_eq, hview]
    · intro store calls query tags isAborted
      unfold memorySearch MemoryStore.search
      simp only [MemoryStore.listAll_eq, hview]

end

/-! ### The names -/

theorem scopedNamespace_some (base : String) (tenant : Option TenantContext) (user : String) :
    scopedNamespace base tenant (some user) =
      tenantScopedNamespace base tenant ++ subjectSegment user := by
  unfold scopedNamespace subjectSegment
  dsimp only
  split
  · exact (String.append_empty ..).symm
  · exact String.append_assoc ..

theorem subjectSegment_of_ne {user : String} (h : user ≠ "") :
    subjectSegment user = "::sub::" ++ user := if_neg h

theorem subjectSegment_ne_empty {user : String} (h : user ≠ "") : subjectSegment user ≠ "" := by
  rw [subjectSegment_of_ne h]
  intro hempty
  have hlist := congrArg String.toList hempty
  rw [String.toList_append] at hlist
  cases hlist

theorem subjectSegment_injective : Function.Injective subjectSegment := by
  intro u v h
  by_cases hu : u = ""
  · subst hu
    by_contra hv
    exact subjectSegment_ne_empty (Ne.symm hv) h.symm
  · by_cases hv : v = ""
    · subst hv
      exact absurd h (subjectSegment_ne_empty hu)
    · rw [subjectSegment_of_ne hu, subjectSegment_of_ne hv] at h
      exact String.append_right_inj _ |>.mp h

theorem subjectSegment_ne_tenant (user rest : String) :
    subjectSegment user ≠ "::t::" ++ rest := by
  intro h
  have hlist := congrArg String.toList h
  unfold subjectSegment at hlist
  split at hlist
  · rw [String.toList_append] at hlist
    cases hlist
  · rw [String.toList_append, String.toList_append] at hlist
    -- the third characters differ
    have hthird := congrArg (·[2]?) hlist
    simp at hthird

theorem tenantScopedNamespace_of_default {tenant : Option TenantContext}
    (h : isDefaultTenant tenant) (base : String) : tenantScopedNamespace base tenant = base := by
  cases tenant with
  | none => rfl
  | some tenant => exact if_pos h

theorem tenantScopedNamespace_of_not_default {tenant : TenantContext}
    (h : ¬ isDefaultTenant (some tenant)) (base : String) :
    tenantScopedNamespace base (some tenant) = base ++ "::t::" ++ tenant.id := if_neg h

theorem exists_of_not_default {tenant : Option TenantContext} (h : ¬ isDefaultTenant tenant) :
    ∃ a, tenant = some a ∧ ¬ isDefaultTenant (some a) := by
  cases tenant with
  | none => exact absurd trivial h
  | some a => exact ⟨a, rfl, h⟩

/-- A partition of the default tenant and one of another have different names. -/
theorem scopedNamespace_ne {a : Option TenantContext} {b : TenantContext}
    (ha : isDefaultTenant a) (hb : ¬ isDefaultTenant (some b)) (base u v : String) :
    scopedNamespace base a (some u) ≠ scopedNamespace base (some b) (some v) := by
  rw [scopedNamespace_some, scopedNamespace_some, tenantScopedNamespace_of_default ha,
    tenantScopedNamespace_of_not_default hb, String.append_assoc, String.append_assoc]
  intro h
  exact subjectSegment_ne_tenant u _ (String.append_right_inj _ |>.mp h)

/-- **When two partitions have the same name.** -/
theorem scopedNamespace_eq_iff (base : String) (a b : Option TenantContext) (u v : String) :
    scopedNamespace base a (some u) = scopedNamespace base b (some v) ↔
      (isDefaultTenant a ∧ isDefaultTenant b ∧ u = v) ∨
      ∃ x y, a = some x ∧ b = some y ∧ ¬ isDefaultTenant (some x) ∧ ¬ isDefaultTenant (some y) ∧
        x.id ++ subjectSegment u = y.id ++ subjectSegment v := by
  by_cases ha : isDefaultTenant a <;> by_cases hb : isDefaultTenant b
  · rw [scopedNamespace_some, scopedNamespace_some, tenantScopedNamespace_of_default ha,
      tenantScopedNamespace_of_default hb, String.append_right_inj, subjectSegment_injective.eq_iff]
    constructor
    · exact fun h => .inl ⟨ha, hb, h⟩
    · rintro (⟨-, -, h⟩ | ⟨x, y, rfl, -, hx, -, -⟩)
      · exact h
      · exact absurd ha hx
  · obtain ⟨y, rfl, hy⟩ := exists_of_not_default hb
    constructor
    · exact fun h => absurd h (scopedNamespace_ne ha hy base u v)
    · rintro (⟨-, h, -⟩ | ⟨x, y, rfl, -, hx, -, -⟩)
      · exact absurd h hb
      · exact absurd ha hx
  · obtain ⟨x, rfl, hx⟩ := exists_of_not_default ha
    constructor
    · exact fun h => absurd h.symm (scopedNamespace_ne hb hx base v u)
    · rintro (⟨h, -, -⟩ | ⟨x, y, -, rfl, -, hy, -⟩)
      · exact absurd h ha
      · exact absurd hb hy
  · obtain ⟨x, rfl, hx⟩ := exists_of_not_default ha
    obtain ⟨y, rfl, hy⟩ := exists_of_not_default hb
    rw [scopedNamespace_some, scopedNamespace_some, tenantScopedNamespace_of_not_default hx,
      tenantScopedNamespace_of_not_default hy]
    simp only [String.append_assoc, String.append_right_inj]
    constructor
    · exact fun h => .inr ⟨x, y, rfl, rfl, hx, hy, h⟩
    · rintro (⟨h, -, -⟩ | ⟨_, _, ⟨⟩, ⟨⟩, -, -, h⟩)
      · exact absurd h ha
      · exact h

/-! ### The subject of a turn -/

/-- A nested turn has no subject. -/
theorem nestedContext_subject (tenant : Option TenantContext) (input : TurnInput)
    (session : SessionRef) (subAgents : List SessionRef) :
    (nestedContext tenant input session subAgents).subject =
      if subAgents = [] then input.subject else none := by
  induction subAgents generalizing input session with
  | nil => rfl
  | cons child rest ih =>
    rw [nestedContext, ih]
    split <;> rfl

theorem nestedContext_tenant (tenant : Option TenantContext) (input : TurnInput)
    (session : SessionRef) (subAgents : List SessionRef) :
    (nestedContext tenant input session subAgents).tenant = tenant := by
  induction subAgents generalizing input session with
  | nil => rfl
  | cons child rest ih => exact ih _ _

/-- The first turn has the subject of the event, or none. -/
theorem turnInput_subject {event : AgentEvent} {input : TurnInput}
    (h : turnInput event = some input) :
    KeepsSubject event ∧ input.subject = event.info.bind (·.platformUserId) ∨
      ¬ KeepsSubject event ∧ input.subject = none := by
  unfold turnInput at h
  unfold KeepsSubject
  cases ht : event.target with
  | broadcast => simp [ht] at h
  | session sessionId mode =>
    obtain rfl := Option.some.inj (by simpa [ht] using h)
    exact .inl ⟨trivial, rfl⟩
  | newSession agentSpec initialPrompt =>
    obtain rfl := Option.some.inj (by simpa [ht] using h)
    exact .inl ⟨trivial, rfl⟩
  | subAgent parentSessionId spec =>
    obtain rfl := Option.some.inj (by simpa [ht] using h)
    exact .inl ⟨trivial, rfl⟩
  | skill name inputs sessionKey =>
    simp only [ht] at h
    split at h
    · obtain rfl := Option.some.inj h
      exact .inr ⟨id, rfl⟩
    · obtain rfl := Option.some.inj h
      exact .inr ⟨id, rfl⟩
    · rename_i hpinned
      obtain rfl := Option.some.inj h
      refine .inl ⟨?_, rfl⟩
      split <;> simp_all

namespace MemoryTurn
variable {base : String} {turn other : MemoryTurn}

theorem memoryPartition_ctx (base : String) (turn : MemoryTurn) :
    memoryPartition base turn.ctx = scopedNamespace base turn.tenant turn.ctx.subject := by
  unfold memoryPartition
  rw [ctx, nestedContext_tenant]

/-- The subject of a turn is its user, or none. -/
theorem ctx_subject (turn : MemoryTurn) :
    turn.subAgents = [] ∧ KeepsSubject turn.event ∧ turn.ctx.subject = some turn.user ∨
      ¬ (turn.subAgents = [] ∧ KeepsSubject turn.event) ∧ turn.ctx.subject = none := by
  have hsubject : turn.ctx.subject = if turn.subAgents = [] then turn.input.subject else none :=
    nestedContext_subject ..
  by_cases hnil : turn.subAgents = []
  · rw [if_pos hnil] at hsubject
    rcases turnInput_subject turn.started with ⟨hkeeps, hinput⟩ | ⟨hkeeps, hinput⟩
    · exact .inl ⟨hnil, hkeeps, hsubject.trans (hinput.trans turn.principal)⟩
    · exact .inr ⟨fun h => hkeeps h.2, hsubject.trans hinput⟩
  · rw [if_neg hnil] at hsubject
    exact .inr ⟨fun h => hnil h.1, hsubject⟩

/-- **A turn works in the partition of its user if and only if the user gets to it.** -/
theorem works_iff : turn.Works base ↔ turn.Forwarded := by
  unfold Works Forwarded
  rw [memoryPartition_ctx]
  rcases turn.ctx_subject with ⟨hnil, hkeeps, hsubject⟩ | ⟨hlost, hsubject⟩
  · rw [hsubject]
    exact iff_of_true rfl (.inr ⟨hnil, hkeeps⟩)
  · rw [hsubject, scopedNamespace_some]
    show tenantScopedNamespace base turn.tenant = _ ↔ _
    constructor
    · intro h
      by_contra hne
      have huser : turn.user ≠ "" := fun h => hne (.inl h)
      refine subjectSegment_ne_empty huser (String.append_right_inj _ |>.mp (h.symm.trans ?_))
      exact (String.append_empty ..).symm
    · rintro (h | h)
      · rw [h]
        exact (String.append_empty ..).symm
      · exact absurd h hlost

/-- The partitions of two users that differ have the same name when the names collide. -/
theorem scopedNamespace_eq_iff_collide (h : turn.Differ other) :
    scopedNamespace base turn.tenant (some turn.user) =
      scopedNamespace base other.tenant (some other.user) ↔ turn.Collide other := by
  rw [scopedNamespace_eq_iff]
  refine ⟨?_, .inr⟩
  rintro (⟨ha, hb, huser⟩ | hcollide)
  · have hid : ∀ {t : Option TenantContext}, isDefaultTenant t →
        (resolveTenant t).id = DEFAULT_TENANT_ID := by
      intro t ht
      cases t with
      | none => rfl
      | some t => exact ht
    rcases h with hne | hne
    · exact absurd ((hid ha).trans (hid hb).symm) hne
    · exact absurd huser hne
  · exact hcollide

end MemoryTurn

/-- **Two turns of an agent are isolated if and only if their users get to them and the names of
their partitions do not collide.** -/
theorem isolated_iff (base : String) (turn other : MemoryTurn) :
    Isolated base turn other ↔ Apart turn other := by
  have hunseen : turn.Works base → other.Works base → turn.Differ other →
      (Unseen base turn.ctx other.ctx ↔ ¬ turn.Collide other) := by
    intro hw how hdiffer
    rw [unseen_iff, hw, how]
    exact not_congr (MemoryTurn.scopedNamespace_eq_iff_collide hdiffer)
  constructor
  · intro h
    exact ⟨MemoryTurn.works_iff.mp h.works, MemoryTurn.works_iff.mp h.otherWorks,
      fun hdiffer => (hunseen h.works h.otherWorks hdiffer).mp (h.unseen hdiffer)⟩
  · intro h
    have hw : turn.Works base := MemoryTurn.works_iff.mpr h.forwarded
    have how : other.Works base := MemoryTurn.works_iff.mpr h.otherForwarded
    exact ⟨hw, how, fun hdiffer => (hunseen hw how hdiffer).mpr (h.names hdiffer)⟩

/-- A message of a user, for the skill `support` in a child session. -/
def askedBy (id user : String) : AgentEvent where
  id := id
  source := .slack "slack-1" "T1" "D1" id none
  target := .skill "support" [] none
  kind := .chatDm
  timestamp := 0
  payload := .null
  auth := .internal
  info := some { platformUserId := some user }

def supportTurn (id user : String) : MemoryTurn where
  event := askedBy id user
  input := ⟨some "skill:support", none, 1⟩
  started := rfl
  user := user
  principal := rfl
  session := ⟨"s1", "bot"⟩
  subAgents := []
  tenant := none

/-- The turns of two users work in one partition, and the one reads what the other wrote. -/
theorem users_share_memory :
    (supportTurn "1.0" "U1").Differ (supportTurn "2.0" "U2") ∧
    memoryPartition "bot" (supportTurn "1.0" "U1").ctx = "bot" ∧
    memoryPartition "bot" (supportTurn "2.0" "U2").ctx = "bot" ∧
    ¬ Isolated "bot" (supportTurn "1.0" "U1") (supportTurn "2.0" "U2") := by
  refine ⟨.inr (by decide), rfl, rfl, fun h => ?_⟩
  have hdiffer : (supportTurn "1.0" "U1").Differ (supportTurn "2.0" "U2") := .inr (by decide)
  exact unseen_iff.mp (h.unseen hdiffer) rfl

end Declaragent.Tools
