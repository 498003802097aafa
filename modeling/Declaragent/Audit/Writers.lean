import Declaragent.Audit.Sink
import Declaragent.Library.Async

/-!
# Audit — writers that overlap

Any number of `record()` calls run on one sink.  Each reads the chain head, waits for its hash,
and inserts its row; between the two, other calls read, insert, erase and prune.  Nothing holds
the head still during the wait, so two calls that wait together link their rows to the same
head (`verify_fails_of_overlap`).

`Sequenced` is the condition on a step under which this cannot happen: a call reads the head
only while no other call waits.  The proof outline is

* of the table: the unfiltered verifier passes;
* of a waiting call: it names the present head, and has the hash of its record after it;
* of two calls: they do not both wait,

and it is kept by every such step, with erasures and prunes anywhere (`chained_of_sequenced`).
-/

namespace Declaragent.Audit
open JsonText Async Transition

/-- A `record()` call. -/
inductive Writer where
  | idle
  | hashing (p : PendingRecord)
  | stored
  | dropped
  | threw (message : String)

inductive WriterAct where
  | start (paused : Option Pause) (now : Number) (input : TenantAuditRecord)
  | resume

/-- What else happens to the table. -/
inductive SinkEnv where
  | erase (options : EraseOptions) (now : Nat → Number)
  | prune (opts : RetentionPruneOptions) (clock : Nat → Number)

def writerStep (sha256Hex : String → String) (db : AuditDb) :
    Writer → WriterAct → Option (AuditDb × Writer)
  | .idle, .start paused now input =>
    match recordStart sha256Hex db paused now input with
    | .dropped => some (db, .dropped)
    | .threw message => some (db, .threw message)
    | .hashing p => some (db, .hashing p)
  | .hashing p, .resume => some (recordInsert db p, .stored)
  | _, _ => none

def sinkEnvStep (db : AuditDb) : SinkEnv → Option AuditDb
  | .erase options now => some (erase db options now).1
  | .prune opts clock => some (prune db opts clock).1

/-- The sink with one `record()` call for each member of `ι`. -/
def sinkSystem (ι : Type) (sha256Hex : String → String) :
    System ι AuditDb Writer WriterAct SinkEnv where
  task _ := writerStep sha256Hex
  env := sinkEnvStep

abbrev SinkState (ι : Type) := State ι AuditDb Writer
abbrev SinkLabel (ι : Type) := Label ι WriterAct SinkEnv

/-- No call has started. -/
def sinkInit (ι : Type) (db : AuditDb) : SinkState ι := ⟨db, fun _ => .idle⟩

def Writer.isHashing : Writer → Bool
  | .hashing _ => true
  | _ => false

/-- A call reads the chain head only while no other call waits for its hash. -/
def Sequenced {ι : Type} (s : SinkState ι) : SinkLabel ι → Prop
  | .task _ (.start none _ _) => ∀ j, (s.loc j).isHashing = false
  | _ => True

/-- Each row names the hash of the row before it. -/
def AuditDb.Chained (db : AuditDb) : Prop :=
  db.rows.IsChain fun row next => next.prev_hash = row.record_hash

theorem AuditDb.Intact.chained {sha256Hex : String → String} {db : AuditDb}
    (h : db.Intact sha256Hex) : db.Chained := by
  have isChain : ∀ {rows : List RowShape} {p : String},
      HashChain.Linked p (rows.map RowShape.link) →
        rows.IsChain fun row next => next.prev_hash = row.record_hash := by
    intro rows
    induction rows with
    | nil => exact fun _ => .nil
    | cons row rows ih =>
      intro p hL
      cases rows with
      | nil => exact .singleton row
      | cons next rows => exact .cons_cons hL.2.1 (ih hL.2)
  exact isChain h.linked

/-! ### The outline -/

/-- What a waiting call knows. -/
def Writer.Ready (sha256Hex : String → String) (db : AuditDb) : Writer → Prop
  | .hashing p => p.prev = latestHash db ∧ p.Hashed sha256Hex
  | _ => True

def sinkOutline (ι : Type) (sha256Hex : String → String) : Outline ι AuditDb Writer where
  shared := AuditDb.Intact sha256Hex
  own _ db w := w.Ready sha256Hex db
  pair _ _ w _ w' := w.isHashing = false ∨ w'.isHashing = false

theorem Writer.ready_of_not_hashing {sha256Hex : String → String} {db : AuditDb} {w : Writer}
    (h : w.isHashing = false) : w.Ready sha256Hex db := by
  cases w with
  | hashing p => cases h
  | idle | stored | dropped | threw _ => trivial

/-- What one step of a call does: it starts to wait with the present head, it ends without
touching the table, or it inserts its row. -/
theorem writerStep_cases {sha256Hex : String → String} {db db' : AuditDb} {w w' : Writer}
    {a : WriterAct} (h : writerStep sha256Hex db w a = some (db', w')) :
    (∃ now input p, a = .start none now input ∧ db' = db ∧ w' = .hashing p ∧
      p.prev = latestHash db ∧ p.Hashed sha256Hex) ∨
    (db' = db ∧ w'.isHashing = false) ∨
    (∃ p, w = .hashing p ∧ db' = recordInsert db p ∧ w' = .stored) := by
  cases w with
  | idle =>
    cases a with
    | resume => cases h
    | start paused now input =>
      simp only [writerStep] at h
      cases hs : recordStart sha256Hex db paused now input with
      | dropped => rw [hs] at h; cases h; exact Or.inr (Or.inl ⟨rfl, rfl⟩)
      | threw message => rw [hs] at h; cases h; exact Or.inr (Or.inl ⟨rfl, rfl⟩)
      | hashing p =>
        rw [hs] at h; cases h
        obtain ⟨rfl, -, hprev, hash⟩ := recordStart_hashing hs
        exact Or.inl ⟨now, input, p, rfl, rfl, rfl, hprev, hash⟩
  | hashing p =>
    cases a with
    | start => cases h
    | resume => cases h; exact Or.inr (Or.inr ⟨p, rfl, rfl, rfl⟩)
  | stored | dropped | threw _ => cases h

/-- Scrubbing leaves the head as it is, so a waiting call still names it. -/
theorem Writer.Ready.scrub {sha256Hex : String → String} {db : AuditDb} {w : Writer}
    (h : w.Ready sha256Hex db) (select : RowShape → Bool) (reason : String)
    (clock : Nat → Number) : w.Ready sha256Hex (db.scrub select reason clock) := by
  cases w with
  | hashing p => exact ⟨h.1.trans (latestHash_scrub select reason clock).symm, h.2⟩
  | idle | stored | dropped | threw _ => trivial

theorem sinkOutline_scrub {ι : Type} {sha256Hex : String → String} {s : SinkState ι}
    (h : (sinkOutline ι sha256Hex).Holds s) (select : RowShape → Bool) (reason : String)
    (clock : Nat → Number) :
    (sinkOutline ι sha256Hex).Holds { s with shared := s.shared.scrub select reason clock } where
  shared := h.shared.scrub select reason clock
  own i := (h.own i).scrub select reason clock
  pair := h.pair

/-- **One step of the sink** that is sequenced keeps the outline. -/
theorem sinkOutline_kept (ι : Type) (sha256Hex : String → String) :
    (sinkOutline ι sha256Hex).Kept (sinkSystem ι sha256Hex) Sequenced where
  env := by
    rintro s e db h - he
    cases e with
    | erase options now => cases he; exact sinkOutline_scrub h _ _ _
    | prune opts clock => cases he; exact sinkOutline_scrub h _ _ _
  task := by
    rintro s i a db w h hC hstep
    rcases writerStep_cases hstep with ⟨now, input, p, rfl, rfl, rfl, hp⟩ | ⟨rfl, hw⟩ |
      ⟨p, hw, rfl, rfl⟩
    · have hnone : ∀ j, (s.loc j).isHashing = false := hC
      exact ⟨h.shared, hp, fun j _ => ⟨h.own j, Or.inr (hnone j), Or.inl (hnone j)⟩,
        fun j k _ _ hjk => h.pair j k hjk⟩
    · exact ⟨h.shared, Writer.ready_of_not_hashing hw, fun j _ => ⟨h.own j, Or.inl hw, Or.inr hw⟩,
        fun j k _ _ hjk => h.pair j k hjk⟩
    · have hready := h.own i
      rw [hw] at hready
      -- no other call waits, so none is left behind by the new head
      have hnone : ∀ j, j ≠ i → (s.loc j).isHashing = false := fun j hj => by
        rcases h.pair j i hj with e | e
        · exact e
        · rw [hw] at e; cases e
      exact ⟨h.shared.insert hready.1 hready.2, trivial,
        fun j hj => ⟨Writer.ready_of_not_hashing (hnone j hj), Or.inl rfl, Or.inr rfl⟩,
        fun j k hj _ _ => Or.inl (hnone j hj)⟩

/-- **The chain under overlapping calls.**  From a table that verifies, in a run in which no
call reads the chain head while another waits for its hash, with erasures and prunes anywhere,
the unfiltered `verify()` passes and each row names the hash of the row before it. -/
theorem chained_of_sequenced {ι : Type} [DecidableEq ι] {sha256Hex : String → String}
    {db : AuditDb} (hdb : (verify sha256Hex db none).ok = true)
    {labels : List (SinkLabel ι)} {s : SinkState ι}
    (r : Run (sinkSystem ι sha256Hex).step Sequenced (sinkInit ι db) labels s) :
    (verify sha256Hex s.shared none).ok = true ∧ s.shared.Chained := by
  have h0 : (sinkOutline ι sha256Hex).Holds (sinkInit ι db) :=
    ⟨verify_none_ok.mp hdb, fun _ => trivial, fun _ _ _ => Or.inl rfl⟩
  have h := (sinkOutline_kept ι sha256Hex).holds_of_run h0 r
  exact ⟨verify_none_ok.mpr h.shared, h.shared.chained⟩

/-! ### Two calls -/

/-- Two calls one after the other, with an erasure in between. -/
def sequencedCalls : List (SinkLabel Bool) :=
  [.task false (.start none .zero (tenantRecord "acme")), .task false .resume,
    .env (.erase ⟨"gdpr-subject-access", fun _ => true⟩ fun _ => .zero),
    .task true (.start none .zero (tenantRecord "acme")), .task true .resume]

/-- Two calls that wait together. -/
def overlappingCalls : List (SinkLabel Bool) :=
  [.task false (.start none .zero (tenantRecord "acme")),
    .task true (.start none .zero (tenantRecord "acme")), .task false .resume, .task true .resume]

instance (s : SinkState Bool) (a : SinkLabel Bool) : Decidable (Sequenced s a) := by
  unfold Sequenced; split <;> infer_instance

/-- Both rows name the empty hash, so the second one breaks the chain. -/
theorem verify_fails_of_overlap : ¬ ∀ (ι : Type) (_ : DecidableEq ι) (sha256Hex : String → String)
    (labels : List (SinkLabel ι)) (s : SinkState ι),
      Run (sinkSystem ι sha256Hex).step Any (sinkInit ι .empty) labels s →
        (verify sha256Hex s.shared none).ok = true ∧ s.shared.Chained := by
  intro h
  obtain ⟨s, r, hbad⟩ := Run.any_of_replay (p := fun s => !(verify tagDigest s.shared none).ok)
    (show (exec (sinkSystem Bool tagDigest).step (sinkInit Bool .empty)
      overlappingCalls).any _ = true by decide)
  have hok := (h Bool inferInstance tagDigest _ s r).1
  simp [hok] at hbad

theorem chained_of_sequenced_calls :
    ∃ s, Run (sinkSystem Bool tagDigest).step Sequenced (sinkInit Bool .empty) sequencedCalls s ∧
      s.shared.rows.length = 2 ∧ (verify tagDigest s.shared none).ok = true ∧
      s.shared.Chained := by
  obtain ⟨s, r, hlen⟩ := Run.of_replay (p := fun s => s.shared.rows.length == 2)
    (show (exec (guarded (sinkSystem Bool tagDigest).step Sequenced) (sinkInit Bool .empty)
      sequencedCalls).any _ = true by decide)
  exact ⟨s, r, by simpa using hlen, chained_of_sequenced (by decide) r⟩

end Declaragent.Audit
