import Declaragent.Audit.ChainVerify

/-!
# Audit — the sqlite sink

The sink keeps its rows in one table.  `record()` reads the hash of the last row, waits for the
hash of the new record, and inserts the row: `recordStart` is the code before the wait and
`recordInsert` the code after it.  `erase()` and `prune()` put tombstones in place of rows, with
the hashes left as they were; both are one transaction (`scrubRows`).

* `AuditDb.Sound`: the unfiltered verifier passes, and each row's hash was made by the record
  hash.  `Sound.insert` and `Sound.scrub` keep it.
* A sequence of calls that do not overlap keeps it (`sound_runOps`), and so the unfiltered
  `verify()` always passes.
* The hash chain is one for all tenants.  A verification filtered to one tenant checks that
  tenant's rows as if they were a chain of their own, and `verify_tenant_iff` says when they
  are: exactly when the tenant's rows come before those of every other tenant.
-/

namespace Declaragent.Audit
open JsonText

/-! ### The table -/

/-- A row of `audit_records`.  `record_json` is the tree its canonical text spells. -/
structure RowShape where
  seq : Nat
  ts : Number
  tenant_id : String
  kind : String
  record_json : Json
  prev_hash : String
  record_hash : String

/-- The table, its rows in the order of `seq`: rows are only ever added at the end. -/
structure AuditDb where
  rows : List RowShape
  numbered : rows.map RowShape.seq = List.range' 1 rows.length

def AuditDb.empty : AuditDb := ⟨[], rfl⟩

def rowToEntry (row : RowShape) : StoredAuditEntry where
  seq := row.seq
  record := row.record_json
  prevHash := row.prev_hash
  recordHash := row.record_hash

/-- The `record_hash` of the last row, or the empty text. -/
def latestHash (db : AuditDb) : String :=
  (db.rows.getLast?.map RowShape.record_hash).getD ""

/-- A row as a link of the hash chain. -/
def RowShape.link (row : RowShape) : HashChain.Link String CanonicalText :=
  (rowToEntry row).link

/-! ### `record()` -/

inductive BackpressurePolicy where
  | failFast
  | drop
  deriving DecidableEq

/-- What the controller says while it is paused. -/
structure Pause where
  policy : BackpressurePolicy
  reasonMs : Option Number

/-- The locals of `record()` that live across its wait. -/
structure PendingRecord where
  ts : Number
  stamped : TenantAuditRecord
  prev : String
  hash : String

inductive RecordStart where
  | dropped
  | threw (message : String)
  | hashing (p : PendingRecord)

/-- The text of the field, where the record has one. -/
def textField (record : TenantAuditRecord) (key : String) : String :=
  match record.field key with
  | some (.str text) => text
  | _ => ""

def tenantIdOf (record : TenantAuditRecord) : String :=
  if kindOf record = "tenant_boundary_violation" then textField record "sourceTenantId"
  else textField record "tenantId"

def backpressureMessage (reasonMs : Option Number) : String :=
  "audit sink paused — SIEM export backlog exceeds threshold" ++
    match reasonMs with
    | some ms => " (oldest unshipped row age " ++ ms.text ++ "ms)"
    | none => ""

/-- `input.ts ?? now()`. -/
def stampOf (now : Number) (input : TenantAuditRecord) : Number :=
  match input.field "ts" with
  | some (.num ts) => ts
  | _ => now

/-- `record()` up to its wait: the back-pressure gate, the time stamp, and the chain head. -/
def recordStart (sha256Hex : String → String) (db : AuditDb) (paused : Option Pause)
    (now : Number) (input : TenantAuditRecord) : RecordStart :=
  match paused with
  | some ⟨.drop, _⟩ => .dropped
  | some ⟨.failFast, reasonMs⟩ => .threw (backpressureMessage reasonMs)
  | none =>
    let ts := stampOf now input
    let stamped := input.set "ts" (.num ts)
    let prev := latestHash db
    .hashing { ts, stamped, prev, hash := computeRecordHash sha256Hex prev stamped }

def PendingRecord.row (p : PendingRecord) (seq : Nat) : RowShape where
  seq := seq
  ts := p.ts
  tenant_id := tenantIdOf p.stamped
  kind := kindOf p.stamped
  record_json := deepSortKeys p.stamped
  prev_hash := p.prev
  record_hash := p.hash

/-- `record()` after its wait: insert the row. -/
def recordInsert (db : AuditDb) (p : PendingRecord) : AuditDb where
  rows := db.rows ++ [p.row (db.rows.length + 1)]
  numbered := by
    simp [db.numbered, PendingRecord.row, List.range'_concat, Nat.add_comm]

/-- `record()` with nothing else in between. -/
def record (sha256Hex : String → String) (db : AuditDb) (paused : Option Pause) (now : Number)
    (input : TenantAuditRecord) : AuditDb :=
  match recordStart sha256Hex db paused now input with
  | .hashing p => recordInsert db p
  | .dropped | .threw _ => db

/-! ### `erase()` and `prune()` -/

def tombstone (row : RowShape) (erasedAt : Number) (reason : String) : TenantAuditRecord :=
  .obj [("kind", .str "erased"), ("ts", .num row.ts), ("tenantId", .str row.tenant_id),
    ("originalKind", .str row.kind), ("erasedAt", .num erasedAt), ("reason", .str reason)]

/-- The row with a tombstone in place of its record; its hashes stay. -/
def RowShape.scrub (row : RowShape) (erasedAt : Number) (reason : String) : RowShape :=
  { row with kind := "erased", record_json := deepSortKeys (tombstone row erasedAt reason) }

/-- The transaction of `erase()` and `prune()`: scrub the selected rows and count them.  `clock`
gives the time at each reading of the clock, `done` counts the readings so far. -/
def scrubRows (select : RowShape → Bool) (reason : String) (clock : Nat → Number) :
    Nat → List RowShape → List RowShape × Nat
  | done, [] => ([], done)
  | done, row :: rows =>
    if select row then
      let r := scrubRows select reason clock (done + 1) rows
      (row.scrub (clock done) reason :: r.1, r.2)
    else
      let r := scrubRows select reason clock done rows
      (row :: r.1, r.2)

theorem scrubRows_seq (select : RowShape → Bool) (reason : String) (clock : Nat → Number) :
    ∀ (done : Nat) (rows : List RowShape),
      (scrubRows select reason clock done rows).1.map RowShape.seq = rows.map RowShape.seq
  | _, [] => rfl
  | done, row :: rows => by
      unfold scrubRows
      split
      · simp only [List.map_cons, scrubRows_seq select reason clock (done + 1) rows]; rfl
      · simp only [List.map_cons, scrubRows_seq select reason clock done rows]

def AuditDb.scrub (db : AuditDb) (select : RowShape → Bool) (reason : String)
    (clock : Nat → Number) : AuditDb where
  rows := (scrubRows select reason clock 0 db.rows).1
  numbered := by
    have h := scrubRows_seq select reason clock 0 db.rows
    rw [h, db.numbered]
    simpa using congrArg (fun l => List.range' 1 l.length) h.symm

structure EraseOptions where
  reason : String
  matches_ : TenantAuditRecord → Bool

def erase (db : AuditDb) (options : EraseOptions) (now : Nat → Number) : AuditDb × Nat :=
  let select row := options.matches_ row.record_json
  (db.scrub select options.reason now, (scrubRows select options.reason now 0 db.rows).2)

structure RetentionPruneOptions where
  tenantId : String
  retentionDays : Number

/-- `tenant_id = ? AND ts < ? AND kind != 'erased'`. -/
def expired (opts : RetentionPruneOptions) (cutoff : ℚ) (row : RowShape) : Bool :=
  row.tenant_id == opts.tenantId && decide (row.ts.value < cutoff) && row.kind != "erased"

/-- Retention pruning: the first reading of the clock gives the cutoff. -/
def prune (db : AuditDb) (opts : RetentionPruneOptions) (clock : Nat → Number) : AuditDb × Nat :=
  let cutoff := (clock 0).value - opts.retentionDays.value * 24 * 60 * 60 * 1000
  let reason := "retention:" ++ opts.retentionDays.text ++ "d"
  let later k := clock (k + 1)
  (db.scrub (expired opts cutoff) reason later,
    (scrubRows (expired opts cutoff) reason later 0 db.rows).2)

/-! ### `verify()` -/

/-- The rows `verify()` walks: those of one tenant, or all of them. -/
def verifyRows (db : AuditDb) : Option String → List RowShape
  | some tenantId =>
    if tenantId ≠ "" then db.rows.filter (·.tenant_id == tenantId) else db.rows
  | none => db.rows

def verify (sha256Hex : String → String) (db : AuditDb) (tenantId : Option String) :
    VerifyReport :=
  verifyEntries sha256Hex ((verifyRows db tenantId).map rowToEntry)

theorem verify_ok {sha256Hex : String → String} {db : AuditDb} {tenantId : Option String} :
    (verify sha256Hex db tenantId).ok = true ↔
      HashChain.Intact (chainHash sha256Hex) "" ((verifyRows db tenantId).map RowShape.link) := by
  unfold verify
  rw [verifyEntries_ok, List.map_map]
  rfl

/-! ### What each operation does to the chain -/

theorem latestHash_eq_tip (db : AuditDb) :
    latestHash db = HashChain.tip "" (db.rows.map RowShape.link) := by
  have h := tip_map_link (db.rows.map rowToEntry) ""
  rw [List.map_map] at h
  rw [show RowShape.link = StoredAuditEntry.link ∘ rowToEntry from rfl, h, latestHash,
    List.getLast?_map, Option.map_map]
  rfl

/-- The row of a pending record has the hash of its own text. -/
def PendingRecord.Hashed (sha256Hex : String → String) (p : PendingRecord) : Prop :=
  p.hash = computeRecordHash sha256Hex p.prev p.stamped

theorem recordStart_hashing {sha256Hex : String → String} {db : AuditDb} {paused : Option Pause}
    {now : Number} {input : TenantAuditRecord} {p : PendingRecord}
    (h : recordStart sha256Hex db paused now input = .hashing p) :
    paused = none ∧ p.stamped = input.set "ts" (.num (stampOf now input)) ∧
      p.prev = latestHash db ∧ p.Hashed sha256Hex := by
  unfold recordStart at h
  split at h
  · cases h
  · cases h
  · cases h; exact ⟨rfl, rfl, rfl, rfl⟩

theorem PendingRecord.link_faithful {sha256Hex : String → String} {p : PendingRecord} {seq : Nat}
    (h : p.Hashed sha256Hex) : (p.row seq).link.Faithful (chainHash sha256Hex) := by
  refine StoredAuditEntry.link_faithful_iff.mpr fun _ => ?_
  simp only [rowToEntry, PendingRecord.row, computeRecordHash, canonicalizeRecord_deepSortKeys]
  exact h.symm

theorem PendingRecord.link_made {sha256Hex : String → String} {p : PendingRecord} {seq : Nat}
    (h : p.Hashed sha256Hex) : (p.row seq).link.Made (chainHash sha256Hex) :=
  ⟨canonicalText p.stamped, h⟩

/-- A scrubbed row keeps its place in the chain and has no content to check. -/
theorem RowShape.link_scrub (row : RowShape) (erasedAt : Number) (reason : String) :
    (row.scrub erasedAt reason).link = { row.link with content := none } := by
  have h : (rowToEntry (row.scrub erasedAt reason)).isErased = true := by
    simp only [StoredAuditEntry.isErased, rowToEntry, RowShape.scrub, kindOf_deepSortKeys]
    rfl
  simp only [RowShape.link, StoredAuditEntry.link, h, if_true]
  rfl

/-- What scrubbing may do to a row. -/
structure Scrubbed (row row' : RowShape) : Prop where
  tenant : row'.tenant_id = row.tenant_id
  link : row'.link = row.link ∨ row'.link = { row.link with content := none }

theorem scrubRows_scrubbed (select : RowShape → Bool) (reason : String) (clock : Nat → Number) :
    ∀ (done : Nat) (rows : List RowShape),
      List.Forall₂ Scrubbed rows (scrubRows select reason clock done rows).1
  | _, [] => .nil
  | done, row :: rows => by
      unfold scrubRows
      split
      · exact .cons ⟨rfl, Or.inr (row.link_scrub _ _)⟩ (scrubRows_scrubbed _ _ _ _ rows)
      · exact .cons ⟨rfl, Or.inl rfl⟩ (scrubRows_scrubbed _ _ _ _ rows)

/-- Each row after scrubbing comes from a row before it. -/
theorem exists_of_mem_scrubRows {select : RowShape → Bool} {reason : String}
    {clock : Nat → Number} {row' : RowShape} :
    ∀ {done : Nat} {rows : List RowShape}, row' ∈ (scrubRows select reason clock done rows).1 →
      ∃ row ∈ rows, Scrubbed row row' := by
  intro done rows h
  have hs := scrubRows_scrubbed select reason clock done rows
  generalize (scrubRows select reason clock done rows).1 = rows' at h hs
  induction hs with
  | nil => cases h
  | cons hd _ ih =>
    rcases List.mem_cons.mp h with rfl | h
    · exact ⟨_, List.mem_cons_self, hd⟩
    · obtain ⟨row, hrow, hr⟩ := ih h
      exact ⟨row, List.mem_cons_of_mem _ hrow, hr⟩

theorem Scrubbed.sameHashes {row row' : RowShape} (h : Scrubbed row row') :
    HashChain.SameHashes row.link row'.link := by
  rcases h.link with h | h <;> exact ⟨by rw [h], by rw [h]⟩

section
variable {sha256Hex : String → String} {db : AuditDb}

/-- The unfiltered verifier passes on the table. -/
def AuditDb.Intact (sha256Hex : String → String) (db : AuditDb) : Prop :=
  HashChain.Intact (chainHash sha256Hex) "" (db.rows.map RowShape.link)

/-- Each row's hash is a record hash, of a record that may since have been scrubbed. -/
def AuditDb.Made (sha256Hex : String → String) (db : AuditDb) : Prop :=
  ∀ row ∈ db.rows, row.link.Made (chainHash sha256Hex)

theorem verify_none_ok : (verify sha256Hex db none).ok = true ↔ db.Intact sha256Hex := verify_ok

theorem scrub_linkwise (select : RowShape → Bool) (reason : String) (clock : Nat → Number) :
    List.Forall₂ HashChain.SameHashes (db.rows.map RowShape.link)
      ((db.scrub select reason clock).rows.map RowShape.link) :=
  List.forall₂_map_left_iff.mpr (List.forall₂_map_right_iff.mpr
    ((scrubRows_scrubbed select reason clock 0 db.rows).imp fun _ _ h => h.sameHashes))

/-- Scrubbing leaves the chain head as it is. -/
theorem latestHash_scrub (select : RowShape → Bool) (reason : String) (clock : Nat → Number) :
    latestHash (db.scrub select reason clock) = latestHash db := by
  rw [latestHash_eq_tip, latestHash_eq_tip,
    HashChain.tip_rewrite (scrub_linkwise select reason clock)]

/-- **Scrubbing keeps the chain intact.** -/
theorem AuditDb.Intact.scrub (h : db.Intact sha256Hex) (select : RowShape → Bool)
    (reason : String) (clock : Nat → Number) : (db.scrub select reason clock).Intact sha256Hex := by
  refine ⟨h.linked.rewrite (scrub_linkwise select reason clock), fun l hl => ?_⟩
  obtain ⟨row', hrow', rfl⟩ := List.mem_map.mp hl
  obtain ⟨row, hrow, hs⟩ := exists_of_mem_scrubRows hrow'
  -- a scrubbed row has no content left that its hash could belie
  rcases hs.link with e | e
  · rw [e]; exact h.faithful _ (List.mem_map_of_mem hrow)
  · rw [e]; intro c hc; cases hc

/-- **Inserting a record that names the chain head keeps the chain intact.** -/
theorem AuditDb.Intact.insert (h : db.Intact sha256Hex) {p : PendingRecord}
    (hprev : p.prev = latestHash db) (hash : p.Hashed sha256Hex) :
    (recordInsert db p).Intact sha256Hex := by
  unfold AuditDb.Intact recordInsert
  rw [List.map_append, List.map_singleton]
  refine ⟨HashChain.linked_append.mpr ⟨h.linked, hprev.trans (latestHash_eq_tip db), trivial⟩,
    fun l hl => ?_⟩
  rcases List.mem_append.mp hl with hl | hl
  · exact h.faithful l hl
  · rw [List.mem_singleton.mp hl]; exact p.link_faithful hash

theorem AuditDb.Made.scrub (h : db.Made sha256Hex) (select : RowShape → Bool) (reason : String)
    (clock : Nat → Number) : (db.scrub select reason clock).Made sha256Hex := by
  intro row' hrow'
  obtain ⟨row, hrow, hs⟩ := exists_of_mem_scrubRows hrow'
  obtain ⟨c, hc⟩ := h row hrow
  exact ⟨c, hs.sameHashes.2.trans (by rw [hc, hs.sameHashes.1])⟩

theorem AuditDb.Made.insert (h : db.Made sha256Hex) {p : PendingRecord}
    (hash : p.Hashed sha256Hex) : (recordInsert db p).Made sha256Hex := by
  intro row hrow
  rcases List.mem_append.mp hrow with hrow | hrow
  · exact h row hrow
  · rw [List.mem_singleton.mp hrow]; exact p.link_made hash

theorem tenants_scrub (select : RowShape → Bool) (reason : String) (clock : Nat → Number) :
    (db.scrub select reason clock).rows.map RowShape.tenant_id =
      db.rows.map RowShape.tenant_id := by
  have tenants : ∀ {rows rows' : List RowShape}, List.Forall₂ Scrubbed rows rows' →
      rows'.map RowShape.tenant_id = rows.map RowShape.tenant_id := by
    intro rows rows' hs
    induction hs with
    | nil => rfl
    | cons hd _ ih => rw [List.map_cons, List.map_cons, hd.tenant, ih]
  exact tenants (scrubRows_scrubbed select reason clock 0 db.rows)

end

/-! ### Calls that do not overlap -/

/-- One call of the sink. -/
inductive SinkOp where
  | record (paused : Option Pause) (now : Number) (input : TenantAuditRecord)
  | erase (options : EraseOptions) (now : Nat → Number)
  | prune (opts : RetentionPruneOptions) (clock : Nat → Number)

def SinkOp.apply (sha256Hex : String → String) (db : AuditDb) : SinkOp → AuditDb
  | .record paused now input => Audit.record sha256Hex db paused now input
  | .erase options now => (Audit.erase db options now).1
  | .prune opts clock => (Audit.prune db opts clock).1

/-- The table after a sequence of calls on an empty one. -/
def runOps (sha256Hex : String → String) (ops : List SinkOp) : AuditDb :=
  ops.foldl (SinkOp.apply sha256Hex) .empty

/-- The tenant of the row a call stores, if it stores one. -/
def SinkOp.storedTenant : SinkOp → Option String
  | .record none _ input => some (tenantIdOf input)
  | _ => none

section
variable {sha256Hex : String → String}

/-- The time stamp does not touch the fields the tenant is read from. -/
theorem tenantIdOf_stamped (input : TenantAuditRecord) (ts : Number) :
    tenantIdOf (input.set "ts" (.num ts)) = tenantIdOf input := by
  unfold tenantIdOf kindOf textField
  rw [Json.field_set_of_ne (by decide), Json.field_set_of_ne (by decide),
    Json.field_set_of_ne (by decide)]

/-- One call: what it does to the chain and to the tenants of the rows. -/
theorem SinkOp.apply_spec {db : AuditDb} (hi : db.Intact sha256Hex) (hm : db.Made sha256Hex)
    (op : SinkOp) : (op.apply sha256Hex db).Intact sha256Hex ∧
      (op.apply sha256Hex db).Made sha256Hex ∧
      (op.apply sha256Hex db).rows.map RowShape.tenant_id =
        db.rows.map RowShape.tenant_id ++ op.storedTenant.toList := by
  have scrubbed : ∀ select reason clock, (db.scrub select reason clock).Intact sha256Hex ∧
      (db.scrub select reason clock).Made sha256Hex ∧
      (db.scrub select reason clock).rows.map RowShape.tenant_id =
        db.rows.map RowShape.tenant_id ++ (none : Option String).toList := fun _ _ _ =>
    ⟨hi.scrub _ _ _, hm.scrub _ _ _, by rw [tenants_scrub]; simp⟩
  cases op with
  | erase options now => exact scrubbed _ _ _
  | prune opts clock => exact scrubbed _ _ _
  | record paused now input =>
    unfold SinkOp.apply Audit.record
    dsimp only
    cases hs : recordStart sha256Hex db paused now input with
    | hashing p =>
      obtain ⟨rfl, hstamped, hprev, hash⟩ := recordStart_hashing hs
      refine ⟨hi.insert hprev hash, hm.insert hash, ?_⟩
      simp [recordInsert, PendingRecord.row, SinkOp.storedTenant, hstamped,
        tenantIdOf_stamped]
    | dropped | threw message =>
      have hpaused : paused ≠ none := by rintro rfl; cases hs
      obtain ⟨pause, rfl⟩ := Option.ne_none_iff_exists'.mp hpaused
      exact ⟨hi, hm, by simp [SinkOp.storedTenant]⟩

/-- **A run of calls that do not overlap.** -/
theorem runOps_spec (sha256Hex : String → String) (ops : List SinkOp) :
    (runOps sha256Hex ops).Intact sha256Hex ∧
    (runOps sha256Hex ops).Made sha256Hex ∧
    (runOps sha256Hex ops).rows.map RowShape.tenant_id = ops.filterMap SinkOp.storedTenant := by
  induction ops using List.reverseRecOn with
  | nil => exact ⟨⟨trivial, by simp [AuditDb.empty, runOps]⟩, by simp [AuditDb.Made, AuditDb.empty,
      runOps], rfl⟩
  | append_singleton ops op ih =>
    obtain ⟨hi, hm, ht⟩ := ih
    obtain ⟨hi', hm', ht'⟩ := op.apply_spec hi hm
    have happly : runOps sha256Hex (ops ++ [op]) = op.apply sha256Hex (runOps sha256Hex ops) :=
      List.foldl_append ..
    rw [happly]
    refine ⟨hi', hm', ht'.trans ?_⟩
    rw [ht, List.filterMap_append]
    cases h : op.storedTenant <;> simp [h]

/-- **Tenant-filtered verification.**  After any calls that do not overlap, the unfiltered
`verify()` passes, and `verify()` of one tenant passes exactly when the tenant's id is empty (it
is then no filter) or none of the tenant's records was stored after another tenant's. -/
theorem verify_tenant_iff (hinj : InjectiveHash sha256Hex) (hne : NonemptyHash sha256Hex)
    (ops : List SinkOp) (tenantId : String) :
    ((verify sha256Hex (runOps sha256Hex ops) (some tenantId)).ok = true ∧
      (verify sha256Hex (runOps sha256Hex ops) none).ok = true) ↔
    (tenantId = "" ∨ (ops.filterMap SinkOp.storedTenant).Pairwise
      fun earlier later => later = tenantId → earlier = tenantId) := by
  obtain ⟨hi, hm, ht⟩ := runOps_spec sha256Hex ops
  rw [and_iff_left (verify_none_ok.mpr hi), verify_ok]
  by_cases he : tenantId = ""
  · simpa [verifyRows, he] using (show HashChain.Intact _ _ _ from hi)
  -- no two rows have one hash, so a row follows only the row whose hash it names
  have hnd : ("" :: ((runOps sha256Hex ops).rows.map RowShape.link).map
      HashChain.Link.hash).Nodup := by
    refine HashChain.Linked.nodup
      (fun a c a' c' h => (chainHash_injective hinj a c a' c' h).1) ?_ hi.linked ?_
    · rintro a ⟨_, record, rfl⟩
      exact hne a record
    · simpa [AuditDb.Made] using hm
  have hfilter := HashChain.linked_filter_iff (f := RowShape.link)
    (b := fun row => row.tenant_id == tenantId) hi.linked hnd
  rw [← ht, List.pairwise_map]
  simp only [beq_iff_eq] at hfilter
  simp only [verifyRows, he, ne_eq, not_false_eq_true, if_true, false_or]
  refine Iff.trans ⟨HashChain.Intact.linked, fun h => ⟨h, fun l hl => hi.faithful l ?_⟩⟩ hfilter
  exact List.map_subset _ (List.filter_subset_self _) hl

end

/-- A record of the tenant. -/
def tenantRecord (tenantId : String) : TenantAuditRecord :=
  .obj [("kind", .str "tool_call"), ("tenantId", .str tenantId)]

/-- Two tenants, one record each. -/
def twoTenants : List SinkOp :=
  [.record none .zero (tenantRecord "acme"), .record none .zero (tenantRecord "globex")]

/-- The second tenant's record names the first tenant's hash, which its own chain lacks. -/
theorem verify_fails_of_second_tenant : ¬ ∀ sha256Hex, InjectiveHash sha256Hex →
    NonemptyHash sha256Hex → ∀ (ops : List SinkOp) (tenantId : String),
      (verify sha256Hex (runOps sha256Hex ops) (some tenantId)).ok = true ∧
        (verify sha256Hex (runOps sha256Hex ops) none).ok = true := fun h =>
  absurd (h tagDigest (.of_injective tagDigest_injective) nonemptyHash_tagDigest twoTenants
    "globex").1 (by decide)

theorem verify_tenant_iff_acme :
    ((verify tagDigest (runOps tagDigest twoTenants) (some "acme")).ok = true ∧
      (verify tagDigest (runOps tagDigest twoTenants) none).ok = true) :=
  (verify_tenant_iff (.of_injective tagDigest_injective) nonemptyHash_tagDigest twoTenants
    "acme").mpr (by decide)

end Declaragent.Audit
