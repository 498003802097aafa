import Declaragent.Audit.Sink
import Declaragent.Events.Store
import Mathlib.Algebra.GroupWithZero.Nat

/-!
# Tenancy — the erasure of a subject

`eraseSubject` puts tombstones in place of the audit records of a user, and then deletes the
user's events from one event store after the other.  A store deletes by a list of ids, each of
them a bound parameter of the statement.

* `eraseByPlatformUser_of_le`: a store deletes the user's events and their rejections, where
  there are no more of them than a statement has parameters for.
* `scrubRows_exact`: an erasure changes the rows it selects and no others.
* `erased_iff`: when an erasure is complete.
-/

namespace Declaragent.Tenancy
open Audit Events JsonText

/-! ### The event store -/

/-- More bound parameters than this are refused. -/
def SQLITE_MAX_VARIABLE_NUMBER : Nat := 32766

/-- `meta.principal.platformUserId`. -/
def platformUserId (row : EventStoreRecord) : Option String :=
  row.event.info.bind (·.platformUserId)

/-- The ids of the events of a user. -/
def eventIdsOf (store : EventStore) (user : String) : List String :=
  (store.events.filter fun row => platformUserId row = some user).map (·.event.id)

/-- `DELETE … WHERE id IN (…)` on both tables. -/
def deleteEvents (store : EventStore) (ids : List String) : EventStore where
  events := store.events.filter fun row => row.event.id ∉ ids
  rejections := store.rejections.filter fun row => row.eventId ∉ ids
  primaryKey := store.primaryKey.sublist (List.filter_sublist.map _)
  rejectionKey := store.rejectionKey.sublist (List.filter_sublist.map _)

def eraseByPlatformUser (store : EventStore) (user : String) : EventStore × Except String Nat :=
  let ids := eventIdsOf store user
  if ids.length = 0 then (store, .ok 0)
  else if SQLITE_MAX_VARIABLE_NUMBER < ids.length then (store, .error "too many SQL variables")
  else (deleteEvents store ids, .ok (store.events.filter fun row => row.event.id ∈ ids).length)

/-! ### The audit sink -/

/-- `record.user.platformUserId`. -/
def recordUser (record : TenantAuditRecord) : Option String :=
  match (record.field "user").bind (·.field "platformUserId") with
  | some (.str id) => some id
  | _ => none

/-- The predicate of `erasePlatformUser`: by the kind of the record. -/
def matchesPlatformUser (user : String) (record : TenantAuditRecord) : Bool :=
  if kindOf record = "channel_event" then recordUser record == some user
  else if kindOf record = "channel_tool_call" then recordUser record == some user
  else false

def erasePlatformUser (db : AuditDb) (user reason : String) (now : Nat → Number) :
    AuditDb × Nat :=
  erase db ⟨reason, matchesPlatformUser user⟩ now

/-! ### The erasure -/

structure EraseSubjectStores where
  auditSink : Option AuditDb
  eventStores : List EventStore

structure EraseSubjectResult where
  auditRecords : Nat
  events : Nat

/-- The loop over the event stores: what the one throws leaves the others as they are. -/
def eraseEvents (user : String) : List EventStore → List EventStore × Except String Nat
  | [] => ([], .ok 0)
  | store :: rest =>
    match eraseByPlatformUser store user with
    | (store', .error e) => (store' :: rest, .error e)
    | (store', .ok events) =>
      let r := eraseEvents user rest
      (store' :: r.1, r.2.map (events + ·))

/-- The stores afterwards, and what is returned. -/
def eraseSubject (user : String) (stores : EraseSubjectStores) (reason : Option String)
    (now : Nat → Number) : EraseSubjectStores × Except String EraseSubjectResult :=
  let reason := reason.getD "gdpr-erasure"
  let audit := stores.auditSink.map fun db => erasePlatformUser db user reason now
  let events := eraseEvents user stores.eventStores
  (⟨audit.map (·.1), events.1⟩, events.2.map fun n => ⟨(audit.map (·.2)).getD 0, n⟩)

/-! ### What an erasure is for -/

/-- The user of an audit record. -/
def HasUser (user : String) (record : TenantAuditRecord) : Prop :=
  (kindOf record = "channel_event" ∨ kindOf record = "channel_tool_call") ∧
    recordUser record = some user

/-- The user of a record, or the principal that a check of an envelope found. -/
def HasUserOrPrincipal (user : String) (record : TenantAuditRecord) : Prop :=
  HasUser user record ∨
    kindOf record = "auth_check" ∧ record.field "subject" = some (.str user)

/-- A store has no event of the user and no rejection of one, and is the same otherwise. -/
structure StoreErased (user : String) (before after : EventStore) : Prop where
  gone : ∀ row ∈ after.events, platformUserId row ≠ some user
  rejectionsGone : ∀ row ∈ before.events, platformUserId row = some user →
    ∀ rejection ∈ after.rejections, rejection.eventId ≠ row.event.id
  others : after.events = before.events.filter fun row => platformUserId row ≠ some user
  otherRejections : after.rejections = before.rejections.filter fun rejection =>
    ∀ row ∈ before.events, platformUserId row = some user → rejection.eventId ≠ row.event.id

/-- No live record is one of the user's, those of the user are tombstones and no other row is
changed, and the chain verifies if it did. -/
structure AuditErased (sha256Hex : String → String) (names : TenantAuditRecord → Prop)
    (user : String) (before after : AuditDb) : Prop where
  gone : ∀ row ∈ after.rows, kindOf row.record_json ≠ "erased" → ¬ names row.record_json
  others : List.Forall₂ (fun row row' => (∃ erasedAt reason, HasUser user row.record_json ∧
    row' = row.scrub erasedAt reason) ∨ ¬ HasUser user row.record_json ∧ row' = row)
    before.rows after.rows
  verified : (verify sha256Hex before none).ok = true → (verify sha256Hex after none).ok = true

instance (user : String) (record : TenantAuditRecord) : Decidable (HasUser user record) :=
  inferInstanceAs (Decidable (_ ∧ _))

/-- The erasure succeeds and is complete, and its counts are the numbers of rows. -/
structure Erased (sha256Hex : String → String) (names : TenantAuditRecord → Prop) (user : String)
    (before : EraseSubjectStores) (r : EraseSubjectStores × Except String EraseSubjectResult) :
    Prop where
  events : List.Forall₂ (StoreErased user) before.eventStores r.1.eventStores
  audit : ∀ db, before.auditSink = some db →
    ∃ db', r.1.auditSink = some db' ∧ AuditErased sha256Hex names user db db'
  counts : r.2 = .ok
    { auditRecords := (before.auditSink.map fun db =>
        db.rows.countP fun row => HasUser user row.record_json).getD 0
      events := (before.eventStores.map fun store =>
        store.events.countP fun row => platformUserId row = some user).sum }

/-- No store has more events of the user than a statement has parameters for. -/
def FitsStatement (user : String) (stores : EraseSubjectStores) : Prop :=
  ∀ store ∈ stores.eventStores,
    (store.events.countP fun row => platformUserId row = some user) ≤ SQLITE_MAX_VARIABLE_NUMBER

/-- The user is the principal of no check. -/
def NoCheckOf (user : String) (stores : EraseSubjectStores) : Prop :=
  ∀ db, stores.auditSink = some db → ∀ row ∈ db.rows, kindOf row.record_json = "auth_check" →
    row.record_json.field "subject" ≠ some (.str user)

/-! ### One event store -/

section
variable {store : EventStore} {user : String}

theorem eventIdsOf_length :
    (eventIdsOf store user).length =
      store.events.countP fun row => platformUserId row = some user := by
  rw [eventIdsOf, List.length_map, List.countP_eq_length_filter]

/-- A row of the store has one of the ids exactly when it is the user's. -/
theorem mem_eventIdsOf {row : EventStoreRecord} (h : row ∈ store.events) :
    row.event.id ∈ eventIdsOf store user ↔ platformUserId row = some user := by
  unfold eventIdsOf
  constructor
  · intro hid
    obtain ⟨row', hrow', hsame⟩ := List.mem_map.mp hid
    obtain ⟨hmem, huser⟩ := List.mem_filter.mp hrow'
    obtain rfl := List.inj_on_of_nodup_map store.primaryKey hmem h hsame
    exact of_decide_eq_true huser
  · intro huser
    exact List.mem_map_of_mem (List.mem_filter.mpr ⟨h, decide_eq_true huser⟩)

theorem deleteEvents_erased :
    StoreErased user store (deleteEvents store (eventIdsOf store user)) where
  gone := by
    intro row hrow huser
    obtain ⟨hmem, hid⟩ := List.mem_filter.mp hrow
    exact of_decide_eq_true hid ((mem_eventIdsOf hmem).mpr huser)
  rejectionsGone := by
    intro row hrow huser rejection hrejection hid
    obtain ⟨-, hkept⟩ := List.mem_filter.mp hrejection
    refine of_decide_eq_true hkept ?_
    rw [hid]
    exact (mem_eventIdsOf hrow).mpr huser
  others := by
    refine List.filter_congr fun row hrow => ?_
    simp only [mem_eventIdsOf hrow]
  otherRejections := by
    refine List.filter_congr fun rejection _ => decide_eq_decide.mpr ?_
    constructor
    · intro hkept row hrow huser hid
      exact hkept (hid ▸ (mem_eventIdsOf hrow).mpr huser)
    · intro hothers hid
      obtain ⟨row, hrow, hsame⟩ := List.mem_map.mp hid
      obtain ⟨hmem, huser⟩ := List.mem_filter.mp hrow
      exact hothers row hmem (of_decide_eq_true huser) hsame.symm

theorem deleteEvents_nil : deleteEvents store [] = store := by
  unfold deleteEvents
  simp

/-- **A store deletes the user's events and counts them.** -/
theorem eraseByPlatformUser_of_le
    (hfits : (store.events.countP fun row => platformUserId row = some user) ≤
      SQLITE_MAX_VARIABLE_NUMBER) :
    ∃ store', eraseByPlatformUser store user =
        (store', .ok (store.events.countP fun row => platformUserId row = some user)) ∧
      StoreErased user store store' := by
  rw [← eventIdsOf_length] at hfits ⊢
  unfold eraseByPlatformUser
  dsimp only
  by_cases hnone : (eventIdsOf store user).length = 0
  · refine ⟨store, ?_, ?_⟩
    · rw [if_pos hnone, hnone]
    · have herased : StoreErased user store (deleteEvents store (eventIdsOf store user)) :=
        deleteEvents_erased
      rwa [List.length_eq_zero_iff.mp hnone, deleteEvents_nil] at herased
  · rw [if_neg hnone, if_neg (Nat.not_lt.mpr hfits)]
    refine ⟨_, ?_, deleteEvents_erased⟩
    have hchanges : (store.events.filter fun row =>
        row.event.id ∈ eventIdsOf store user).length = (eventIdsOf store user).length := by
      rw [← List.countP_eq_length_filter, eventIdsOf_length]
      refine List.countP_congr fun row hrow => ?_
      simp only [decide_eq_true_eq]
      exact mem_eventIdsOf hrow
    rw [hchanges]

/-- With too many of them the store refuses. -/
theorem eraseByPlatformUser_of_lt
    (hmany : SQLITE_MAX_VARIABLE_NUMBER <
      store.events.countP fun row => platformUserId row = some user) :
    eraseByPlatformUser store user = (store, .error "too many SQL variables") := by
  rw [← eventIdsOf_length] at hmany
  have hpos : (eventIdsOf store user).length ≠ 0 := Nat.ne_of_gt (Nat.zero_lt_of_lt hmany)
  unfold eraseByPlatformUser
  dsimp only
  rw [if_neg hpos, if_pos hmany]

end

/-! ### All of them -/

theorem eraseEvents_of_fits {user : String} : ∀ {stores : List EventStore},
    (∀ store ∈ stores, (store.events.countP fun row => platformUserId row = some user) ≤
      SQLITE_MAX_VARIABLE_NUMBER) →
    List.Forall₂ (StoreErased user) stores (eraseEvents user stores).1 ∧
      (eraseEvents user stores).2 = .ok (stores.map fun store =>
        store.events.countP fun row => platformUserId row = some user).sum
  | [], _ => ⟨.nil, rfl⟩
  | store :: rest, h => by
      obtain ⟨hrest, hcount⟩ := eraseEvents_of_fits fun s hs => h s (List.mem_cons_of_mem _ hs)
      obtain ⟨store', heq, herased⟩ := eraseByPlatformUser_of_le (h store List.mem_cons_self)
      simp only [eraseEvents, heq, hcount, List.map_cons, List.sum_cons]
      exact ⟨.cons herased hrest, rfl⟩

theorem fits_of_eraseEvents {user : String} : ∀ {stores : List EventStore} {n : Nat},
    (eraseEvents user stores).2 = .ok n → ∀ store ∈ stores,
      (store.events.countP fun row => platformUserId row = some user) ≤ SQLITE_MAX_VARIABLE_NUMBER
  | [], _, _ => fun _ hs => by cases hs
  | store :: rest, n, h => by
      rcases Nat.lt_or_ge SQLITE_MAX_VARIABLE_NUMBER
        (store.events.countP fun row => platformUserId row = some user) with hmany | hfits
      · simp only [eraseEvents, eraseByPlatformUser_of_lt hmany] at h
        cases h
      · obtain ⟨store', heq, -⟩ := eraseByPlatformUser_of_le hfits
        simp only [eraseEvents, heq] at h
        intro s hs
        rcases List.mem_cons.mp hs with rfl | hs
        · exact hfits
        · cases hr : (eraseEvents user rest).2 with
          | error e => rw [hr] at h; cases h
          | ok m => exact fits_of_eraseEvents hr s hs

/-! ### The audit sink -/

theorem matchesPlatformUser_iff {user : String} {record : TenantAuditRecord} :
    matchesPlatformUser user record = true ↔ HasUser user record := by
  unfold matchesPlatformUser HasUser
  split
  · simp_all
  · split
    · simp_all
    · simp_all

/-- **Scrubbing puts a tombstone in place of each selected row** and leaves the others. -/
theorem scrubRows_exact (select : RowShape → Bool) (reason : String) (clock : Nat → Number) :
    ∀ (done : Nat) (rows : List RowShape),
      List.Forall₂ (fun row row' => (∃ erasedAt, select row = true ∧
          row' = row.scrub erasedAt reason) ∨ select row = false ∧ row' = row)
        rows (scrubRows select reason clock done rows).1
  | _, [] => .nil
  | done, row :: rows => by
      unfold scrubRows
      split
      · rename_i hselect
        exact .cons (.inl ⟨_, hselect, rfl⟩) (scrubRows_exact select reason clock _ rows)
      · rename_i hselect
        exact .cons (.inr ⟨Bool.eq_false_iff.mpr hselect, rfl⟩)
          (scrubRows_exact select reason clock _ rows)

theorem scrubRows_count (select : RowShape → Bool) (reason : String) (clock : Nat → Number) :
    ∀ (done : Nat) (rows : List RowShape),
      (scrubRows select reason clock done rows).2 = done + rows.countP select
  | _, [] => rfl
  | done, row :: rows => by
      unfold scrubRows
      split
      · rename_i hselect
        rw [List.countP_cons_of_pos hselect]
        exact (scrubRows_count select reason clock _ rows).trans (by omega)
      · rename_i hselect
        rw [List.countP_cons_of_neg hselect]
        exact scrubRows_count select reason clock _ rows

theorem kindOf_scrub (row : RowShape) (erasedAt : Number) (reason : String) :
    kindOf (row.scrub erasedAt reason).record_json = "erased" := by
  unfold RowShape.scrub
  rw [kindOf_deepSortKeys]
  rfl

theorem erasePlatformUser_count (db : AuditDb) (user reason : String) (now : Nat → Number) :
    (erasePlatformUser db user reason now).2 =
      db.rows.countP fun row => HasUser user row.record_json := by
  unfold erasePlatformUser erase
  rw [scrubRows_count, Nat.zero_add]
  refine List.countP_congr fun row _ => ?_
  simp only [decide_eq_true_eq]
  exact matchesPlatformUser_iff

/-- What the sink does to each row. -/
theorem erasePlatformUser_rows (db : AuditDb) (user reason : String) (now : Nat → Number) :
    List.Forall₂ (fun row row' => (∃ erasedAt reason, HasUser user row.record_json ∧
        row' = row.scrub erasedAt reason) ∨ ¬ HasUser user row.record_json ∧ row' = row)
      db.rows (erasePlatformUser db user reason now).1.rows := by
  refine (scrubRows_exact _ reason now 0 db.rows).imp ?_
  rintro row row' (⟨erasedAt, hselect, rfl⟩ | ⟨hselect, rfl⟩)
  · exact .inl ⟨erasedAt, reason, matchesPlatformUser_iff.mp hselect, rfl⟩
  · refine .inr ⟨fun huser => ?_, rfl⟩
    cases hselect.symm.trans (matchesPlatformUser_iff.mpr huser)

theorem exists_of_mem_right {α : Type} {R : α → α → Prop} {l l' : List α} {b : α}
    (h : List.Forall₂ R l l') (hb : b ∈ l') : ∃ a ∈ l, R a b := by
  induction h with
  | nil => cases hb
  | cons hd _ ih =>
    rcases List.mem_cons.mp hb with rfl | hb
    · exact ⟨_, List.mem_cons_self, hd⟩
    · obtain ⟨a, ha, hr⟩ := ih hb
      exact ⟨a, List.mem_cons_of_mem _ ha, hr⟩

theorem exists_of_mem_left {α : Type} {R : α → α → Prop} {l l' : List α} {a : α}
    (h : List.Forall₂ R l l') (ha : a ∈ l) : ∃ b ∈ l', R a b := by
  obtain ⟨b, hb, hr⟩ := exists_of_mem_right (R := fun x y => R y x) h.flip ha
  exact ⟨b, hb, hr⟩

section
variable {sha256Hex : String → String} {names : TenantAuditRecord → Prop} {user : String}
  {stores : EraseSubjectStores} {reason : Option String} {now : Nat → Number}

/-- Where a record names the user only as its user, none is left. -/
theorem auditErased {db : AuditDb} (reason : String) (now : Nat → Number)
    (hnames : ∀ row ∈ db.rows, names row.record_json → HasUser user row.record_json) :
    AuditErased sha256Hex names user db (erasePlatformUser db user reason now).1 where
  gone := by
    intro row' hrow' hlive hnamed
    obtain ⟨row, hrow, hr⟩ := exists_of_mem_right (erasePlatformUser_rows db user reason now) hrow'
    rcases hr with ⟨erasedAt, r, -, rfl⟩ | ⟨hother, rfl⟩
    · exact hlive (kindOf_scrub ..)
    · exact hother (hnames _ hrow hnamed)
  others := erasePlatformUser_rows db user reason now
  verified := by
    intro hok
    exact verify_none_ok.mpr ((verify_none_ok.mp hok).scrub _ reason now)

/-- The events are all there is to the success of an erasure. -/
theorem erased_iff_fits (hnames : ∀ db, stores.auditSink = some db → ∀ row ∈ db.rows,
      names row.record_json → HasUser user row.record_json) :
    Erased sha256Hex names user stores (eraseSubject user stores reason now) ↔
      FitsStatement user stores := by
  constructor
  · intro h
    have hcounts := h.counts
    unfold eraseSubject at hcounts
    cases hevents : (eraseEvents user stores.eventStores).2 with
    | error e =>
      simp only [hevents] at hcounts
      cases hcounts
    | ok n => exact fits_of_eraseEvents hevents
  · intro h
    obtain ⟨herased, hcount⟩ := eraseEvents_of_fits h
    refine ⟨herased, ?_, ?_⟩
    · intro db hdb
      refine ⟨(erasePlatformUser db user (reason.getD "gdpr-erasure") now).1, ?_,
        auditErased _ _ (hnames db hdb)⟩
      simp only [eraseSubject, hdb, Option.map_some]
    · simp only [eraseSubject, hcount, Except.map, Option.map_map]
      congr 2
      cases stores.auditSink with
      | none => rfl
      | some db => exact erasePlatformUser_count ..

/-- A check of an envelope stays as it is. -/
theorem noCheckOf_of_erased
    (h : Erased sha256Hex (HasUserOrPrincipal user) user stores
      (eraseSubject user stores reason now)) : NoCheckOf user stores := by
  intro db hdb row hrow hkind hsubject
  obtain ⟨db', -, haudit⟩ := h.audit db hdb
  obtain ⟨row', hrow', hr⟩ := exists_of_mem_left haudit.others hrow
  rcases hr with ⟨_, _, ⟨hchannel, -⟩, -⟩ | ⟨-, rfl⟩
  · rw [hkind] at hchannel
    revert hchannel
    decide
  · refine haudit.gone row' hrow' ?_ (.inr ⟨hkind, hsubject⟩)
    rw [hkind]
    decide

end

/-- **When an erasure is complete**: of the users of records, if and only if no store has too many
events for a statement; and of the principals of checks as well, if and only if besides the user
is none. -/
theorem erased_iff (sha256Hex : String → String) (user : String) (stores : EraseSubjectStores)
    (reason : Option String) (now : Nat → Number) :
    (Erased sha256Hex (HasUser user) user stores (eraseSubject user stores reason now) ↔
      FitsStatement user stores) ∧
    (Erased sha256Hex (HasUserOrPrincipal user) user stores (eraseSubject user stores reason now) ↔
      FitsStatement user stores ∧ NoCheckOf user stores) := by
  have hprincipal : NoCheckOf user stores → ∀ db, stores.auditSink = some db → ∀ row ∈ db.rows,
      HasUserOrPrincipal user row.record_json → HasUser user row.record_json := by
    rintro hnone db hdb row hrow (huser | ⟨hkind, hsubject⟩)
    · exact huser
    · exact absurd hsubject (hnone db hdb row hrow hkind)
  refine ⟨erased_iff_fits fun _ _ _ _ => id, ?_⟩
  constructor
  · intro h
    have hnone := noCheckOf_of_erased h
    exact ⟨(erased_iff_fits (hprincipal hnone)).mp h, hnone⟩
  · rintro ⟨hfits, hnone⟩
    exact (erased_iff_fits (hprincipal hnone)).mpr hfits

/-! ### A second erasure -/

theorem eraseEvents_of_erased {user : String} {before after : List EventStore}
    (h : List.Forall₂ (StoreErased user) before after) :
    eraseEvents user after = (after, .ok 0) := by
  induction h with
  | nil => rfl
  | @cons _ store _ _ herased _ ih =>
    have hnone : (eventIdsOf store user).length = 0 := by
      rw [eventIdsOf_length, List.countP_eq_zero]
      exact fun row hrow huser => herased.gone row hrow (of_decide_eq_true huser)
    have hstore : eraseByPlatformUser store user = (store, .ok 0) := if_pos hnone
    rw [eraseEvents, hstore]
    dsimp only
    rw [ih]
    rfl

theorem scrubRows_of_none {select : RowShape → Bool} {rows : List RowShape}
    (h : ∀ row ∈ rows, select row = false) (reason : String) (clock : Nat → Number) (done : Nat) :
    scrubRows select reason clock done rows = (rows, done) := by
  induction rows with
  | nil => rfl
  | cons row rows ih =>
    obtain ⟨hrow, hrows⟩ := List.forall_mem_cons.mp h
    rw [scrubRows, hrow, if_neg Bool.false_ne_true, ih hrows]

theorem erasePlatformUser_of_none {db : AuditDb} {user : String}
    (h : ∀ row ∈ db.rows, matchesPlatformUser user row.record_json = false) (reason : String)
    (now : Nat → Number) : erasePlatformUser db user reason now = (db, 0) := by
  have hrows := scrubRows_of_none h reason now 0
  cases db
  simp only [erasePlatformUser, erase, AuditDb.scrub, hrows]

/-- **A second erasure** of a user finds nothing and changes nothing. -/
theorem eraseSubject_again {user : String} {stores : EraseSubjectStores} {reason : Option String}
    {now : Nat → Number} {result : EraseSubjectResult}
    (h : (eraseSubject user stores reason now).2 = .ok result) (reason' : Option String)
    (now' : Nat → Number) :
    eraseSubject user (eraseSubject user stores reason now).1 reason' now' =
      ((eraseSubject user stores reason now).1, .ok ⟨0, 0⟩) := by
  unfold eraseSubject at h ⊢
  cases hevents : (eraseEvents user stores.eventStores).2 with
  | error e =>
    simp only [hevents] at h
    cases h
  | ok n =>
    dsimp only
    rw [eraseEvents_of_erased (eraseEvents_of_fits (fits_of_eraseEvents hevents)).1]
    cases stores.auditSink with
    | none => simp only [Option.map_none, Option.getD_none, Except.map]
    | some db =>
      -- a tombstone is no record of the user
      have hnone : ∀ row ∈ (erasePlatformUser db user (reason.getD "gdpr-erasure") now).1.rows,
          matchesPlatformUser user row.record_json = false := by
        refine fun row' hrow' => Bool.eq_false_iff.mpr fun huser => ?_
        have huser := matchesPlatformUser_iff.mp huser
        obtain ⟨row, -, ⟨_, _, -, rfl⟩ | ⟨hother, rfl⟩⟩ := exists_of_mem_right
          (erasePlatformUser_rows db user (reason.getD "gdpr-erasure") now) hrow'
        · have hkind := huser.1
          rw [kindOf_scrub] at hkind
          revert hkind
          decide
        · exact hother huser
      simp only [Option.map_some, erasePlatformUser_of_none hnone]
      rfl

/-- An event of a user, in a session. -/
def eventOf (user id : String) : EventStoreRecord where
  event :=
    { id := id
      source := .slack "slack-1" "T1" "D1" id none
      target := .session "s1" .inject
      kind := .chatDm
      timestamp := 0
      payload := .null
      auth := .internal
      info := some { platformUserId := some user } }
  recordedAt := 0

/-- So many events of a user. -/
def eventsOf (user : String) (n : Nat) : EventStore where
  events := (List.range n).map fun i => eventOf user (toString i)
  rejections := []
  primaryKey := by
    rw [List.map_map]
    exact List.nodup_range.map fun _ _ h => toString_nat_injective h
  rejectionKey := List.nodup_nil

theorem eventsOf_count (user : String) (n : Nat) :
    ((eventsOf user n).events.countP fun row => platformUserId row = some user) = n := by
  have hall : ∀ row ∈ (eventsOf user n).events, decide (platformUserId row = some user) = true := by
    intro row hrow
    obtain ⟨i, -, rfl⟩ := List.mem_map.mp hrow
    exact decide_eq_true rfl
  rw [List.countP_eq_length.mpr hall]
  exact (List.length_map _).trans List.length_range

/-- The erasure of a user with one event too many is refused, and all of them stay. -/
theorem too_many_events :
    let stores : EraseSubjectStores := ⟨none, [eventsOf "U1" 32767]⟩
    let r := eraseSubject "U1" stores none fun _ => .zero
    (∃ e, r.2 = .error e) ∧ r.1.eventStores = stores.eventStores ∧
      ¬ Erased tagDigest (HasUser "U1") "U1" stores r := by
  intro stores r
  have hmany : SQLITE_MAX_VARIABLE_NUMBER <
      (eventsOf "U1" 32767).events.countP fun row => platformUserId row = some "U1" := by
    rw [eventsOf_count]
    decide
  have hevents : eraseEvents "U1" stores.eventStores =
      ([eventsOf "U1" 32767], .error "too many SQL variables") := by
    show eraseEvents "U1" [eventsOf "U1" 32767] = _
    rw [eraseEvents, eraseByPlatformUser_of_lt hmany]
  have hr : r = (⟨none, [eventsOf "U1" 32767]⟩, .error "too many SQL variables") := by
    show eraseSubject "U1" stores none _ = _
    rw [eraseSubject, hevents]
    rfl
  have hthrows : ∀ result : EraseSubjectResult,
      (Except.error "too many SQL variables" : Except String _) ≠ .ok result := nofun
  rw [hr]
  exact ⟨⟨_, rfl⟩, rfl, fun h => hthrows _ h.counts⟩

theorem eraseSubject_again_event :
    let r := eraseSubject "U1" ⟨none, [eventsOf "U1" 1]⟩ none fun _ => .zero
    eraseSubject "U1" r.1 none (fun _ => .zero) = (r.1, .ok ⟨0, 0⟩) := by
  have hfits : ∀ store ∈ [eventsOf "U1" 1], (store.events.countP fun row =>
      platformUserId row = some "U1") ≤ SQLITE_MAX_VARIABLE_NUMBER :=
    List.forall_mem_singleton.mpr ((eventsOf_count "U1" 1).trans_le (by decide))
  exact eraseSubject_again (by rw [eraseSubject, (eraseEvents_of_fits hfits).2]; rfl) none _

end Declaragent.Tenancy
