import Declaragent.Audit.Exporters
import Declaragent.Audit.Sink
import Declaragent.Library.Transition
import Mathlib.Order.MinMax

/-!
# Audit — the export loop

A loop ships the audit rows behind the persisted cursor of its exporter: a tick reads the cursor,
queries the rows after it, pushes them, and writes the cursor behind the rows that the exporter
acknowledged.  It waits in between, for the other loops and the writers of the same database.
Several loops may have one exporter; how long a timer is set for is left out.

* `seq_query`: a batch is numbered without gaps from the cursor on.
* `ExportInv.step`: what holds of the cursors and the ticks in progress, whatever happens.
* `exported_of_le_cursor`: no cursor ever moves back, and what is behind it was acknowledged.
-/

namespace Declaragent.Audit
open JsonText Transition

/-! ### The cursor -/

structure ExportCursor where
  lastSeq : Nat
  updatedAt : Int
  deriving DecidableEq

/-- `cursor?.lastSeq ?? 0`. -/
def sinceSeq (cursor : Option ExportCursor) : Nat := (cursor.map (·.lastSeq)).getD 0

/-- `INSERT … ON CONFLICT(exporter_name) DO UPDATE`: the greater `last_seq` stays. -/
def writeExportCursor (cursors : String → Option ExportCursor) (exporterName : String)
    (lastSeq : Nat) (now : Int) : String → Option ExportCursor :=
  Function.update cursors exporterName
    (match cursors exporterName with
    | none => some ⟨lastSeq, now⟩
    | some cursor => if cursor.lastSeq < lastSeq then some ⟨lastSeq, now⟩ else some cursor)

/-- `query({ sinceSeq, order: 'asc', limit })`.  A negative limit is none. -/
def query (db : AuditDb) (sinceSeq : Nat) (limit : Int) : List StoredAuditEntry :=
  let rows := db.rows.filter fun row => sinceSeq < row.seq
  (if limit < 0 then rows else rows.take limit.toNat).map rowToEntry

/-! ### The loop -/

structure AuditExportLoopOptions where
  exporter : String
  batchSize : Int := 500
  maxConsecutiveFailures : Nat := 5

/-- What a tick in progress waits for. -/
inductive Tick where
  | reading (cursor : Option ExportCursor)
  | querying (stored : List StoredAuditEntry)
  | pushing (entries : List AuditExportEntry)
  | writing

inductive LoopLife where
  | idle | running | gone
  deriving DecidableEq

/-- The variables of a loop, the timers it has scheduled, and its ticks in progress.  `resolved`
says that a call of `stop` has returned. -/
structure ExportLoop where
  life : LoopLife := .idle
  paused : Bool := false
  consecutiveFailures : Nat := 0
  stopped : Bool := false
  ticking : Bool := false
  timer : Option Nat := none
  timers : List Nat := []
  nextTimer : Nat := 0
  ticks : List Tick := []
  resolved : Bool := false

namespace ExportLoop

def scheduleNext (l : ExportLoop) : ExportLoop :=
  if l.stopped then l
  else
    { l with
      timer := some l.nextTimer
      timers := l.timers ++ [l.nextTimer]
      nextTimer := l.nextTimer + 1 }

/-- `if (timer) clearTimeout(timer)`. -/
def clearTimer (l : ExportLoop) : ExportLoop :=
  { l with timers := l.timers.filter fun t => l.timer ≠ some t }

/-- `runTick` up to its first wait.  A paused loop has none, and only sets the next timer. -/
def runTick (l : ExportLoop) (cursor : Option ExportCursor) : ExportLoop :=
  if l.stopped || l.ticking then l
  else if l.paused then l.scheduleNext
  else { l with ticking := true, ticks := l.ticks ++ [.reading cursor] }

def setTick (l : ExportLoop) (n : Nat) (tick : Tick) : ExportLoop :=
  { l with ticks := l.ticks.set n tick }

/-- The end of a tick. -/
def endTick (l : ExportLoop) (n : Nat) : ExportLoop :=
  scheduleNext { l with ticking := false, ticks := l.ticks.eraseIdx n }

def succeed (l : ExportLoop) (n : Nat) : ExportLoop :=
  endTick { l with consecutiveFailures := 0 } n

/-- A throw counts as retryable. -/
def fail (l : ExportLoop) (opts : AuditExportLoopOptions) (retryable : Bool) (n : Nat) :
    ExportLoop :=
  let failures := l.consecutiveFailures + 1
  endTick
    { l with
      consecutiveFailures := failures
      paused := l.paused || !retryable || decide (opts.maxConsecutiveFailures ≤ failures) }
    n

def start : ExportLoop := scheduleNext { life := .running }

/-- The timer `t` fires. -/
def fire (l : ExportLoop) (t : Nat) (cursor : Option ExportCursor) : ExportLoop :=
  runTick { l with timers := l.timers.erase t, timer := none } cursor

def resume (l : ExportLoop) : ExportLoop :=
  (clearTimer { l with consecutiveFailures := 0, paused := false }).scheduleNext

def stop (l : ExportLoop) : ExportLoop :=
  { l.clearTimer with stopped := true, timer := none }

end ExportLoop

/-! ### Loops on one database -/

/-- A push that the exporter accepted, and how many of its leading rows. -/
structure Push where
  exporter : String
  entries : List AuditExportEntry
  acked : Nat

structure ExportSystem (κ : Type) where
  audit : AuditDb := .empty
  cursors : String → Option ExportCursor := fun _ => none
  loops : κ → ExportLoop := fun _ => {}
  pushes : List Push := []

inductive LoopLabel where
  | fires (t : Nat)
  | flushes
  | resumes
  | stops
  | stopResolves
  | queries (n : Nat)
  | pushes (n : Nat)
  | settles (n : Nat) (outcome : PushOutcome) (now : Int)
  | writeThrows (n : Nat) (acked : Int)
  | written (n : Nat)
  | sinkThrows (n : Nat)
  | crashes

inductive ExportLabel (κ : Type) where
  | records (p : PendingRecord)
  | scrubs (select : RowShape → Bool) (reason : String) (clock : Nat → Number)
  | starts (k : κ)
  | acts (k : κ) (a : LoopLabel)

namespace ExportSystem
variable {κ : Type} [DecidableEq κ]

def setLoop (s : ExportSystem κ) (k : κ) (l : ExportLoop) : ExportSystem κ :=
  { s with loops := Function.update s.loops k l }

/-- The exporter acknowledges `acked` rows, as far as there are so many. -/
def accept (s : ExportSystem κ) (opts : AuditExportLoopOptions) (entries : List AuditExportEntry)
    (acked : Int) : ExportSystem κ :=
  { s with pushes :=
      s.pushes ++ [⟨opts.exporter, entries, (min acked entries.length).toNat⟩] }

/-- A push is back. -/
def settle (s : ExportSystem κ) (opts : AuditExportLoopOptions) (k : κ) (n : Nat)
    (entries : List AuditExportEntry) (now : Int) : PushOutcome → ExportSystem κ
  | .ok acked =>
    let s := s.accept opts entries acked
    let acked := (min acked entries.length).toNat
    if acked = 0 then s.setLoop k ((s.loops k).succeed n)
    else
      match entries[acked - 1]? with
      | none => s.setLoop k ((s.loops k).succeed n)
      | some nth =>
        { s.setLoop k ((s.loops k).setTick n .writing) with
          cursors := writeExportCursor s.cursors opts.exporter nth.seq now }
  | .failed retryable => s.setLoop k ((s.loops k).fail opts retryable n)
  | .threw => s.setLoop k ((s.loops k).fail opts true n)

/-- What a running loop does next. -/
def act (s : ExportSystem κ) (opts : AuditExportLoopOptions) (k : κ) :
    LoopLabel → Option (ExportSystem κ)
  | .fires t =>
    if t ∈ (s.loops k).timers then
      some (s.setLoop k ((s.loops k).fire t (s.cursors opts.exporter)))
    else none
  | .flushes => some (s.setLoop k ((s.loops k).runTick (s.cursors opts.exporter)))
  | .resumes => some (s.setLoop k (s.loops k).resume)
  | .stops => some (s.setLoop k (s.loops k).stop)
  | .stopResolves =>
    if (s.loops k).stopped ∧ (s.loops k).ticking = false then
      some (s.setLoop k { s.loops k with resolved := true })
    else none
  | .queries n =>
    match (s.loops k).ticks[n]? with
    | some (.reading cursor) =>
      some (s.setLoop k ((s.loops k).setTick n
        (.querying (query s.audit (sinceSeq cursor) opts.batchSize))))
    | _ => none
  | .pushes n =>
    match (s.loops k).ticks[n]? with
    | some (.querying []) => some (s.setLoop k ((s.loops k).succeed n))
    | some (.querying stored) =>
      some (s.setLoop k ((s.loops k).setTick n (.pushing (stored.map toExportEntry))))
    | _ => none
  | .settles n outcome now =>
    match (s.loops k).ticks[n]? with
    | some (.pushing entries) => some (s.settle opts k n entries now outcome)
    | _ => none
  | .writeThrows n acked =>
    match (s.loops k).ticks[n]? with
    | some (.pushing entries) =>
      some ((s.accept opts entries acked).setLoop k ((s.loops k).fail opts true n))
    | _ => none
  | .written n =>
    match (s.loops k).ticks[n]? with
    | some .writing => some (s.setLoop k ((s.loops k).succeed n))
    | _ => none
  | .sinkThrows n =>
    match (s.loops k).ticks[n]? with
    | some (.reading _) => some (s.setLoop k ((s.loops k).fail opts true n))
    | _ => none
  | .crashes => some (s.setLoop k { life := .gone })

end ExportSystem

/-- Any number of loops over one database.  A loop that is started again is another loop. -/
def exportStep {κ : Type} [DecidableEq κ] (opts : κ → AuditExportLoopOptions)
    (s : ExportSystem κ) : ExportLabel κ → Option (ExportSystem κ)
  | .records p => some { s with audit := recordInsert s.audit p }
  | .scrubs select reason clock => some { s with audit := s.audit.scrub select reason clock }
  | .starts k => if (s.loops k).life = .idle then some (s.setLoop k .start) else none
  | .acts k a => if (s.loops k).life = .running then s.act (opts k) k a else none

/-! ### The batch after a cursor -/

theorem filter_range' (c n : Nat) :
    (List.range' 1 n).filter (fun seq => decide (c < seq)) = List.range' (c + 1) (n - c) := by
  induction n with
  | zero => simp
  | succ n ih =>
    rw [List.range'_concat, List.filter_append, ih]
    by_cases h : c ≤ n
    · have hlt : c < 1 + n := by omega
      have hlen : n + 1 - c = n - c + 1 := by omega
      have hlast : c + 1 + (n - c) = 1 + n := by omega
      rw [hlen, List.range'_concat]
      simp [hlt, hlast]
    · have hlen : n + 1 - c = n - c := by omega
      have hle : ¬ c < 1 + n := by omega
      rw [hlen]
      simp [hle]

/-- A batch is numbered without gaps from the cursor on. -/
theorem seq_query (db : AuditDb) (sinceSeq : Nat) (limit : Int) :
    (query db sinceSeq limit).map (·.seq) =
      List.range' (sinceSeq + 1) (query db sinceSeq limit).length := by
  have hrows : (db.rows.filter fun row => decide (sinceSeq < row.seq)).map RowShape.seq =
      List.range' (sinceSeq + 1) (db.rows.length - sinceSeq) := by
    rw [← filter_range', ← db.numbered, List.filter_map]
    rfl
  have hlength := congrArg List.length hrows
  rw [List.length_map, List.length_range'] at hlength
  unfold query
  rw [List.map_map, List.length_map]
  have hseq : (StoredAuditEntry.seq ∘ rowToEntry) = RowShape.seq := rfl
  split
  · rw [hlength]
    exact hrows
  · rw [List.map_take, List.length_take, hlength]
    refine (congrArg (List.take limit.toNat) hrows).trans ?_
    rcases Nat.le_total (db.rows.length - sinceSeq) limit.toNat with hle | hle
    · rw [List.take_range'_of_length_le hle, Nat.min_eq_right hle]
    · rw [List.take_range'_of_length_ge hle, Nat.min_eq_left hle]

/-! ### What is behind a cursor -/

/-- The row was in the acknowledged prefix of some push to the exporter. -/
def Acknowledged (pushes : List Push) (exporter : String) (seq : Nat) : Prop :=
  ∃ push ∈ pushes, push.exporter = exporter ∧ seq ∈ (push.entries.take push.acked).map (·.seq)

/-- Every row up to `lastSeq` was acknowledged. -/
def Shipped (pushes : List Push) (exporter : String) (lastSeq : Nat) : Prop :=
  ∀ seq, 1 ≤ seq → seq ≤ lastSeq → Acknowledged pushes exporter seq

/-- The rows come without gaps behind rows that were acknowledged. -/
def Follows (pushes : List Push) (exporter : String) (seqs : List Nat) : Prop :=
  ∃ lastSeq, Shipped pushes exporter lastSeq ∧ seqs = List.range' (lastSeq + 1) seqs.length

def TickSound (pushes : List Push) (exporter : String) : Tick → Prop
  | .reading cursor => Shipped pushes exporter (sinceSeq cursor)
  | .querying stored => Follows pushes exporter (stored.map (·.seq))
  | .pushing entries => Follows pushes exporter (entries.map (·.seq))
  | .writing => True

section
variable {pushes pushes' : List Push} {exporter : String}

theorem Shipped.mono {lastSeq : Nat} (h : Shipped pushes exporter lastSeq)
    (hpushes : ∀ push ∈ pushes, push ∈ pushes') : Shipped pushes' exporter lastSeq := by
  intro seq hpos hle
  obtain ⟨push, hpush, hacked⟩ := h seq hpos hle
  exact ⟨push, hpushes push hpush, hacked⟩

theorem Follows.mono {seqs : List Nat} (h : Follows pushes exporter seqs)
    (hpushes : ∀ push ∈ pushes, push ∈ pushes') : Follows pushes' exporter seqs := by
  obtain ⟨lastSeq, hshipped, hseqs⟩ := h
  exact ⟨lastSeq, hshipped.mono hpushes, hseqs⟩

theorem TickSound.mono {tick : Tick} (h : TickSound pushes exporter tick)
    (hpushes : ∀ push ∈ pushes, push ∈ pushes') : TickSound pushes' exporter tick := by
  cases tick with
  | reading cursor => exact Shipped.mono h hpushes
  | querying stored => exact Follows.mono h hpushes
  | pushing entries => exact Follows.mono h hpushes
  | writing => trivial

/-- An acknowledged prefix extends what was acknowledged before it. -/
theorem Follows.shipped {entries : List AuditExportEntry} {acked : Nat} {nth : AuditExportEntry}
    (h : Follows pushes exporter (entries.map (·.seq))) (hpos : acked ≠ 0)
    (hnth : entries[acked - 1]? = some nth) :
    Shipped (pushes ++ [⟨exporter, entries, acked⟩]) exporter nth.seq := by
  obtain ⟨lastSeq, hshipped, hseqs⟩ := h
  rw [List.length_map] at hseqs
  obtain ⟨hlt, hget⟩ := List.getElem?_eq_some_iff.mp hnth
  have hlast : nth.seq = lastSeq + 1 + (acked - 1) := by
    have hseq : (entries.map (·.seq))[acked - 1]? = some nth.seq := by
      rw [List.getElem?_map, hnth]
      rfl
    rw [hseqs, List.getElem?_range' hlt] at hseq
    have hsome := Option.some.inj hseq
    omega
  intro seq hone hle
  by_cases hold : seq ≤ lastSeq
  · exact (hshipped.mono fun _ hmem => List.mem_append_left _ hmem) seq hone hold
  · refine ⟨_, List.mem_append_right _ (List.mem_singleton_self _), rfl, ?_⟩
    show seq ∈ (entries.take acked).map (·.seq)
    rw [List.map_take, hseqs, List.take_range'_of_length_ge (by omega), List.mem_range'_1]
    omega

end

theorem sinceSeq_writeExportCursor (cursors : String → Option ExportCursor)
    (exporterName : String) (lastSeq : Nat) (now : Int) (exporter : String) :
    sinceSeq (writeExportCursor cursors exporterName lastSeq now exporter) =
      if exporter = exporterName then max (sinceSeq (cursors exporter)) lastSeq
      else sinceSeq (cursors exporter) := by
  unfold writeExportCursor
  by_cases e : exporter = exporterName
  · subst e
    rw [Function.update_self, if_pos rfl]
    cases cursors exporter with
    | none => exact (Nat.zero_max lastSeq).symm
    | some cursor =>
      simp only [sinceSeq, Option.map_some, Option.getD_some]
      by_cases hlt : cursor.lastSeq < lastSeq
      · rw [if_pos hlt, Nat.max_eq_right hlt.le]
        rfl
      · rw [if_neg hlt, Nat.max_eq_left (Nat.not_lt.mp hlt)]
        rfl
  · rw [Function.update_of_ne e, if_neg e]

/-! ### The ticks of a loop -/

namespace ExportLoop
variable {l : ExportLoop} {tick : Tick}

@[simp] theorem scheduleNext_ticks (l : ExportLoop) : l.scheduleNext.ticks = l.ticks := by
  unfold scheduleNext
  split <;> rfl

theorem mem_runTick {cursor : Option ExportCursor} (h : tick ∈ (l.runTick cursor).ticks) :
    tick ∈ l.ticks ∨ tick = .reading cursor := by
  unfold runTick at h
  split at h
  · exact .inl h
  · split at h
    · rw [scheduleNext_ticks] at h
      exact .inl h
    · exact (List.mem_append.mp h).imp_right List.mem_singleton.mp

theorem mem_endTick {n : Nat} (h : tick ∈ (l.endTick n).ticks) : tick ∈ l.ticks := by
  rw [endTick, scheduleNext_ticks] at h
  exact List.mem_of_mem_eraseIdx h

end ExportLoop

namespace ExportSystem
variable {κ : Type} [DecidableEq κ] {s t : ExportSystem κ} {o : AuditExportLoopOptions} {k : κ}

theorem act_fires_inv {timer : Nat} (h : s.act o k (.fires timer) = some t) :
    timer ∈ (s.loops k).timers ∧
      t = s.setLoop k ((s.loops k).fire timer (s.cursors o.exporter)) := by
  simp only [act, Option.ite_none_right_eq_some, Option.some.injEq] at h
  exact ⟨h.1, h.2.symm⟩

/-- A timer that was cleared does not fire. -/
example {timer : Nat} (h : timer ∉ (s.loops k).timers) : s.act o k (.fires timer) = none := by
  simp only [act, if_neg h]

theorem act_stopResolves_inv (h : s.act o k .stopResolves = some t) :
    (s.loops k).stopped = true ∧ t = s.setLoop k { s.loops k with resolved := true } := by
  simp only [act, Option.ite_none_right_eq_some, Option.some.injEq] at h
  exact ⟨h.1.1, h.2.symm⟩

theorem act_queries_inv {n : Nat} (h : s.act o k (.queries n) = some t) :
    ∃ cursor, (s.loops k).ticks[n]? = some (.reading cursor) ∧
      t = s.setLoop k ((s.loops k).setTick n
        (.querying (query s.audit (sinceSeq cursor) o.batchSize))) := by
  simp only [act] at h
  split at h
  · rename_i cursor htick
    exact ⟨cursor, htick, (Option.some.inj h).symm⟩
  · cases h

/-- A batch without rows ends the tick. -/
theorem act_pushes_inv {n : Nat} (h : s.act o k (.pushes n) = some t) :
    ∃ stored, (s.loops k).ticks[n]? = some (.querying stored) ∧
      (stored = [] ∧ t = s.setLoop k ((s.loops k).succeed n) ∨
        stored ≠ [] ∧
          t = s.setLoop k ((s.loops k).setTick n (.pushing (stored.map toExportEntry)))) := by
  simp only [act] at h
  split at h
  · rename_i htick
    exact ⟨[], htick, .inl ⟨rfl, (Option.some.inj h).symm⟩⟩
  · rename_i stored hne htick
    exact ⟨stored, htick, .inr ⟨fun e => hne (e ▸ rfl), (Option.some.inj h).symm⟩⟩
  · cases h

theorem act_settles_inv {n : Nat} {outcome : PushOutcome} {now : Int}
    (h : s.act o k (.settles n outcome now) = some t) :
    ∃ entries, (s.loops k).ticks[n]? = some (.pushing entries) ∧
      t = s.settle o k n entries now outcome := by
  simp only [act] at h
  split at h
  · rename_i entries htick
    exact ⟨entries, htick, (Option.some.inj h).symm⟩
  · cases h

theorem act_writeThrows_inv {n : Nat} {acked : Int}
    (h : s.act o k (.writeThrows n acked) = some t) :
    ∃ entries, (s.loops k).ticks[n]? = some (.pushing entries) ∧
      t = (s.accept o entries acked).setLoop k ((s.loops k).fail o true n) := by
  simp only [act] at h
  split at h
  · rename_i entries htick
    exact ⟨entries, htick, (Option.some.inj h).symm⟩
  · cases h

theorem act_written_inv {n : Nat} (h : s.act o k (.written n) = some t) :
    (s.loops k).ticks[n]? = some .writing ∧ t = s.setLoop k ((s.loops k).succeed n) := by
  simp only [act] at h
  split at h
  · rename_i htick
    exact ⟨htick, (Option.some.inj h).symm⟩
  · cases h

theorem act_sinkThrows_inv {n : Nat} (h : s.act o k (.sinkThrows n) = some t) :
    ∃ cursor, (s.loops k).ticks[n]? = some (.reading cursor) ∧
      t = s.setLoop k ((s.loops k).fail o true n) := by
  simp only [act] at h
  split at h
  · rename_i cursor htick
    exact ⟨cursor, htick, (Option.some.inj h).symm⟩
  · cases h

end ExportSystem

/-! ### Any number of loops -/

section
variable {κ : Type} {opts : κ → AuditExportLoopOptions} {s t : ExportSystem κ}

/-- What holds whatever the loops, the writers and the exporters do. -/
structure ExportInv (opts : κ → AuditExportLoopOptions) (s : ExportSystem κ) : Prop where
  cursor : ∀ exporter, Shipped s.pushes exporter (sinceSeq (s.cursors exporter))
  tick : ∀ k, ∀ tick ∈ (s.loops k).ticks, TickSound s.pushes (opts k).exporter tick

theorem ExportInv.accept (h : ExportInv opts s) (o : AuditExportLoopOptions)
    (entries : List AuditExportEntry) (acked : Int) :
    ExportInv opts (s.accept o entries acked) where
  cursor exporter := (h.cursor exporter).mono fun _ => List.mem_append_left _
  tick k tick htick := (h.tick k tick htick).mono fun _ => List.mem_append_left _

variable [DecidableEq κ]

theorem ExportInv.setLoop (h : ExportInv opts s) {k : κ} {l : ExportLoop}
    (hl : ∀ tick ∈ l.ticks, tick ∈ (s.loops k).ticks ∨
      TickSound s.pushes (opts k).exporter tick) : ExportInv opts (s.setLoop k l) where
  cursor := h.cursor
  tick k' tick htick := by
    by_cases e : k' = k
    · subst e
      simp only [ExportSystem.setLoop, Function.update_self] at htick
      rcases hl tick htick with hmem | hsound
      · exact h.tick k' tick hmem
      · exact hsound
    · simp only [ExportSystem.setLoop, Function.update_of_ne e] at htick
      exact h.tick k' tick htick

/-- A tick ends. -/
theorem ExportInv.endTick (h : ExportInv opts s) {k : κ} {l : ExportLoop} {n : Nat}
    (hl : l.ticks = (s.loops k).ticks) : ExportInv opts (s.setLoop k (l.endTick n)) :=
  h.setLoop fun _ htick => .inl (hl ▸ ExportLoop.mem_endTick htick)

/-- A tick goes on to wait for something else. -/
theorem ExportInv.setTick (h : ExportInv opts s) {k : κ} {n : Nat} {tick : Tick}
    (hsound : TickSound s.pushes (opts k).exporter tick) :
    ExportInv opts (s.setLoop k ((s.loops k).setTick n tick)) := by
  refine h.setLoop fun tick' htick => ?_
  rcases List.mem_or_eq_of_mem_set htick with hmem | rfl
  · exact .inl hmem
  · exact .inr hsound

theorem ExportInv.settle (h : ExportInv opts s) {k : κ} {n : Nat}
    {entries : List AuditExportEntry} {now : Int}
    (hfollows : Follows s.pushes (opts k).exporter (entries.map (·.seq))) (outcome : PushOutcome) :
    ExportInv opts (s.settle (opts k) k n entries now outcome) := by
  cases outcome with
  | ok acked =>
    have haccept := h.accept (opts k) entries acked
    simp only [ExportSystem.settle]
    split
    · exact haccept.endTick rfl
    · rename_i hpos
      split
      · exact haccept.endTick rfl
      · rename_i nth hnth
        have hset : ExportInv opts ((s.accept (opts k) entries acked).setLoop k
            ((s.loops k).setTick n .writing)) := haccept.setTick trivial
        refine ⟨fun exporter => ?_, hset.tick⟩
        show Shipped (s.accept (opts k) entries acked).pushes exporter
          (sinceSeq (writeExportCursor s.cursors (opts k).exporter nth.seq now exporter))
        rw [sinceSeq_writeExportCursor]
        split
        · rename_i e
          intro seq hone hle
          rcases le_max_iff.mp hle with hold | hnew
          · exact haccept.cursor exporter seq hone hold
          · rw [e]
            exact hfollows.shipped hpos hnth seq hone hnew
        · exact haccept.cursor exporter
  | failed retryable => exact h.endTick rfl
  | threw => exact h.endTick rfl

theorem ExportInv.act (h : ExportInv opts s) {k : κ} {a : LoopLabel}
    (hact : s.act (opts k) k a = some t) : ExportInv opts t := by
  have hread : TickSound s.pushes (opts k).exporter (.reading (s.cursors (opts k).exporter)) :=
    h.cursor _
  have hrun (l : ExportLoop) (hl : l.ticks = (s.loops k).ticks) :
      ExportInv opts (s.setLoop k (l.runTick (s.cursors (opts k).exporter))) := by
    refine h.setLoop fun tick htick => ?_
    rcases ExportLoop.mem_runTick htick with hmem | rfl
    · exact .inl (hl ▸ hmem)
    · exact .inr hread
  have hkept (l : ExportLoop) (hl : l.ticks = (s.loops k).ticks) :
      ExportInv opts (s.setLoop k l) := h.setLoop fun _ htick => .inl (hl ▸ htick)
  cases a with
  | fires timer =>
    obtain ⟨-, rfl⟩ := ExportSystem.act_fires_inv hact
    exact hrun _ rfl
  | flushes =>
    obtain rfl := Option.some.inj hact
    exact hrun _ rfl
  | resumes =>
    obtain rfl := Option.some.inj hact
    exact hkept _ (ExportLoop.scheduleNext_ticks _)
  | stops =>
    obtain rfl := Option.some.inj hact
    exact hkept _ rfl
  | stopResolves =>
    obtain ⟨-, rfl⟩ := ExportSystem.act_stopResolves_inv hact
    exact hkept _ rfl
  | queries n =>
    obtain ⟨cursor, htick, rfl⟩ := ExportSystem.act_queries_inv hact
    have hshipped := h.tick k _ (List.mem_of_getElem? htick)
    refine h.setTick ⟨sinceSeq cursor, hshipped, ?_⟩
    rw [List.length_map]
    exact seq_query _ _ _
  | pushes n =>
    obtain ⟨stored, htick, ⟨-, rfl⟩ | ⟨-, rfl⟩⟩ := ExportSystem.act_pushes_inv hact
    · exact h.endTick rfl
    · have hfollows : Follows _ _ (stored.map (·.seq)) := h.tick k _ (List.mem_of_getElem? htick)
      refine h.setTick ?_
      rwa [TickSound, List.map_map]
  | settles n outcome now =>
    obtain ⟨entries, htick, rfl⟩ := ExportSystem.act_settles_inv hact
    exact h.settle (h.tick k _ (List.mem_of_getElem? htick)) outcome
  | writeThrows n acked =>
    obtain ⟨entries, -, rfl⟩ := ExportSystem.act_writeThrows_inv hact
    exact (h.accept (opts k) entries acked).endTick rfl
  | written n =>
    obtain ⟨-, rfl⟩ := ExportSystem.act_written_inv hact
    exact h.endTick rfl
  | sinkThrows n =>
    obtain ⟨cursor, -, rfl⟩ := ExportSystem.act_sinkThrows_inv hact
    exact h.endTick rfl
  | crashes =>
    obtain rfl := Option.some.inj hact
    exact h.setLoop nofun

theorem ExportInv.step {a : ExportLabel κ} (h : ExportInv opts s)
    (hstep : exportStep opts s a = some t) : ExportInv opts t := by
  cases a with
  | records p => cases hstep; exact ⟨h.cursor, h.tick⟩
  | scrubs select reason clock => cases hstep; exact ⟨h.cursor, h.tick⟩
  | starts k =>
    simp only [exportStep, Option.ite_none_right_eq_some, Option.some.injEq] at hstep
    obtain ⟨-, rfl⟩ := hstep
    exact h.setLoop fun _ htick => by
      rw [ExportLoop.start, ExportLoop.scheduleNext_ticks] at htick
      cases htick
  | acts k a =>
    simp only [exportStep, Option.ite_none_right_eq_some] at hstep
    exact h.act hstep.2

/-- A step leaves the cursors, or writes that of its exporter. -/
theorem cursors_act {o : AuditExportLoopOptions} {k : κ} {a : LoopLabel}
    (hact : s.act o k a = some t) : t.cursors = s.cursors ∨
      ∃ lastSeq now, t.cursors = writeExportCursor s.cursors o.exporter lastSeq now := by
  cases a with
  | fires timer =>
    obtain ⟨-, rfl⟩ := ExportSystem.act_fires_inv hact
    exact .inl rfl
  | stopResolves =>
    obtain ⟨-, rfl⟩ := ExportSystem.act_stopResolves_inv hact
    exact .inl rfl
  | flushes => cases hact; exact .inl rfl
  | resumes => cases hact; exact .inl rfl
  | stops => cases hact; exact .inl rfl
  | crashes => cases hact; exact .inl rfl
  | queries n =>
    obtain ⟨cursor, -, rfl⟩ := ExportSystem.act_queries_inv hact
    exact .inl rfl
  | pushes n =>
    obtain ⟨stored, -, ⟨-, rfl⟩ | ⟨-, rfl⟩⟩ := ExportSystem.act_pushes_inv hact
    · exact .inl rfl
    · exact .inl rfl
  | settles n outcome now =>
    obtain ⟨entries, -, rfl⟩ := ExportSystem.act_settles_inv hact
    cases outcome with
    | ok acked =>
      simp only [ExportSystem.settle]
      split
      · exact .inl rfl
      · split
        · exact .inl rfl
        · exact .inr ⟨_, now, rfl⟩
    | failed retryable => exact .inl rfl
    | threw => exact .inl rfl
  | writeThrows n acked =>
    obtain ⟨entries, -, rfl⟩ := ExportSystem.act_writeThrows_inv hact
    exact .inl rfl
  | written n =>
    obtain ⟨-, rfl⟩ := ExportSystem.act_written_inv hact
    exact .inl rfl
  | sinkThrows n =>
    obtain ⟨cursor, -, rfl⟩ := ExportSystem.act_sinkThrows_inv hact
    exact .inl rfl

/-- No step moves a cursor back. -/
theorem cursor_le_step {a : ExportLabel κ} (hstep : exportStep opts s a = some t)
    (exporter : String) : sinceSeq (s.cursors exporter) ≤ sinceSeq (t.cursors exporter) := by
  cases a with
  | records p => cases hstep; exact le_rfl
  | scrubs select reason clock => cases hstep; exact le_rfl
  | starts k =>
    simp only [exportStep, Option.ite_none_right_eq_some, Option.some.injEq] at hstep
    obtain ⟨-, rfl⟩ := hstep
    exact le_rfl
  | acts k a =>
    simp only [exportStep, Option.ite_none_right_eq_some] at hstep
    rcases cursors_act hstep.2 with e | ⟨lastSeq, now, e⟩
    · rw [e]
    · rw [e, sinceSeq_writeExportCursor]
      split
      · exact Nat.le_max_left _ _
      · exact le_rfl

/-- **Audit export is at-least-once**: whatever the loops, the writers and the exporters do, and
wherever a loop is gone, the cursor of an exporter never moves back, and each row up to it was in
the acknowledged prefix of some push. -/
theorem exported_of_le_cursor (opts : κ → AuditExportLoopOptions) {audit : AuditDb}
    {as bs : List (ExportLabel κ)} (r : Run (exportStep opts) Any { audit := audit } as s)
    (r' : Run (exportStep opts) Any s bs t) (exporter : String) :
    sinceSeq (s.cursors exporter) ≤ sinceSeq (t.cursors exporter) ∧
      ∀ row ∈ t.audit.rows, row.seq ≤ sinceSeq (t.cursors exporter) →
        Acknowledged t.pushes exporter row.seq := by
  have hstart : ExportInv opts { audit := audit } :=
    ⟨fun _ _ hone hle => absurd (hone.trans hle) (Nat.not_succ_le_zero 0), fun _ => nofun⟩
  have hinv : ExportInv opts t :=
    Run.invariant hstart (fun _ _ _ hu _ hstep => hu.step hstep) (r.trans r')
  refine ⟨?_, fun row hrow hle => hinv.cursor exporter row.seq ?_ hle⟩
  · exact Run.invariant
      (P := fun u => sinceSeq (s.cursors exporter) ≤ sinceSeq (u.cursors exporter))
      le_rfl (fun _ _ _ hu _ hstep => hu.trans (cursor_le_step hstep exporter)) r'
  · have hmem : row.seq ∈ List.range' 1 t.audit.rows.length := by
      rw [← t.audit.numbered]
      exact List.mem_map_of_mem hrow
    exact (List.mem_range'_1.mp hmem).1

end

/-- Any record. -/
def someRecord : PendingRecord := ⟨.zero, .obj [("kind", .str "tool_call")], "", ""⟩

/-- The exporter accepts one row of two, and the loop is gone; the loop that is started after it
ships the other row. -/
theorem exported_after_crash : ∃ s t : ExportSystem Bool,
    sinceSeq (s.cursors "siem") = 1 ∧ sinceSeq (t.cursors "siem") = 2 ∧
    sinceSeq (s.cursors "siem") ≤ sinceSeq (t.cursors "siem") ∧
    ∀ row ∈ t.audit.rows, row.seq ≤ sinceSeq (t.cursors "siem") →
      Acknowledged t.pushes "siem" row.seq := by
  have hreplay : (exec (exportStep fun _ : Bool => { exporter := "siem" }) { audit := .empty }
      [.records someRecord, .records someRecord, .starts false, .acts false (.fires 0),
        .acts false (.queries 0), .acts false (.pushes 0),
        .acts false (.settles 0 (.ok 1) 0)]).any (fun s =>
          (exec (exportStep fun _ : Bool => { exporter := "siem" }) s
            [.acts false .crashes, .starts true, .acts true (.fires 0), .acts true (.queries 0),
              .acts true (.pushes 0), .acts true (.settles 0 (.ok 1) 1)]).any (fun t =>
                decide (sinceSeq (s.cursors "siem") = 1 ∧ sinceSeq (t.cursors "siem") = 2))) =
                  true := by
    decide
  obtain ⟨s, r, hs⟩ := Run.any_of_replay hreplay
  obtain ⟨t, r', ht⟩ := Run.any_of_replay hs
  obtain ⟨hone, htwo⟩ := of_decide_eq_true ht
  exact ⟨s, t, hone, htwo, exported_of_le_cursor _ r r' "siem"⟩

end Declaragent.Audit
