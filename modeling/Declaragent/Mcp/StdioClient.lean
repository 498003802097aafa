import Declaragent.Library.Transition

/-!
# Mcp — the connections of a client

A client starts its session on demand and, once that has failed or its connection has ended, from a
loop that backs off.  Both await a start of the session and then assign it.  A label runs one of
them from one await to the next.

* `stdioClientStep`: one piece of `ensureSession`, of the restart loop, of `startSession` or of
  `shutdown`.
* `Undisturbed`: no session is started on demand while a restart loop runs, a server that has
  answered is understood and can be notified, and nothing is assigned once the client has stopped.
* `oneConnection_of_run`: then an open connection is the session's, or is about to be.
-/

namespace Declaragent.Mcp.Stdio
open Transition

inductive MCPClientStatus where
  | starting | ready | reconnecting | failed | stopped
  deriving DecidableEq

/-- The answer to `initialize`, as `parseInitResult` takes it. -/
inductive Handshake where
  | understood
  /-- `parseInitResult` throws. -/
  | malformed
  | rejected
  deriving DecidableEq

/-- How far a start is, and with which connection. -/
inductive StartPhase where
  /-- The restart loop backs off. -/
  | sleeping
  | connecting
  | initializing (connection : Nat)
  | notifying (connection : Nat)
  /-- The connection is closed, as it was not initialized. -/
  | closing
  /-- `startSession` has returned. -/
  | started (connection : Nat)
  /-- `startSession` has thrown. -/
  | failed
  | ended
  deriving DecidableEq

/-- Whether `startSession` is called and its caller has not gone on. -/
def StartPhase.attempts : StartPhase → Bool
  | .sleeping | .ended => false
  | _ => true

def StartPhase.connection : StartPhase → Option Nat
  | .initializing connection | .notifying connection | .started connection => some connection
  | _ => none

structure Start where
  phase : StartPhase := .ended
  /-- The restart loop makes it, and not `ensureSession`. -/
  restarts : Bool := false

structure Connection where
  closed : Bool := false
  /-- The callback on `closed` is there and has not run. -/
  watched : Bool := false

/-- The state of `createMCPClient`, with every connection it has opened and every start, which is
either one of `ensureSession` or a whole restart loop. -/
structure StdioClient where
  status : MCPClientStatus := .starting
  session : Option Nat := none
  initPromise : Option Nat := none
  consecutiveFailures : Nat := 0
  stopped : Bool := false
  connections : Nat → Connection := fun _ => {}
  nextConnection : Nat := 0
  starts : Nat → Start := fun _ => {}
  nextStart : Nat := 0

inductive StdioClientLabel where
  | ensureSession
  /-- The restart loop has slept. -/
  | wakes (start : Nat)
  | connected (start : Nat) (ok : Bool)
  | initialized (start : Nat) (answer : Handshake)
  | notified (start : Nat) (ok : Bool)
  /-- The connection of a failed start is closed. -/
  | discarded (start : Nat)
  | assigns (start : Nat)
  | fails (start : Nat)
  /-- The other side ends. -/
  | closes (connection : Nat)
  | closedRuns (connection : Nat)
  | shutdown

namespace StdioClient
variable (maxFailures : Nat) (s : StdioClient)

def setStart (i : Nat) (start : Start) : StdioClient :=
  { s with starts := Function.update s.starts i start }

def setPhase (i : Nat) (phase : StartPhase) : StdioClient :=
  s.setStart i { s.starts i with phase }

def setConnection (c : Nat) (connection : Connection) : StdioClient :=
  { s with connections := Function.update s.connections c connection }

def close (c : Nat) : StdioClient := s.setConnection c { s.connections c with closed := true }

/-- The head of the restart loop, and what follows the loop. -/
def restartLoop (i : Nat) : StdioClient :=
  if s.stopped = false ∧ s.consecutiveFailures < maxFailures then
    s.setStart i { phase := .sleeping, restarts := true }
  else
    let t := s.setStart i { phase := .ended, restarts := true }
    if t.stopped then t else { t with status := .failed }

def scheduleRestart : StdioClient :=
  if s.stopped then s
  else { s with status := .reconnecting, nextStart := s.nextStart + 1 }.restartLoop maxFailures
    s.nextStart

def ensureSession : StdioClient :=
  if s.session.isSome then s
  else if s.stopped then s
  else if s.status = .failed then s
  else if s.initPromise.isSome then s
  else { s.setStart s.nextStart { phase := .connecting } with
    initPromise := some s.nextStart
    nextStart := s.nextStart + 1 }

/-- The session is assigned by whoever has started it. -/
def assign (i c : Nat) : StdioClient :=
  { s.setPhase i .ended with
    session := some c
    consecutiveFailures := 0
    status := .ready
    initPromise := if (s.starts i).restarts then s.initPromise else none }

/-- A start has failed. -/
def fail (i : Nat) : StdioClient :=
  let t := { s with consecutiveFailures := s.consecutiveFailures + 1 }
  if (s.starts i).restarts then t.restartLoop maxFailures i
  else
    let t := { t.setPhase i .ended with initPromise := none }
    if maxFailures ≤ t.consecutiveFailures then { t with status := .failed }
    else t.scheduleRestart maxFailures

/-- The callback on the `closed` of a connection. -/
def closedRuns (c : Nat) : StdioClient :=
  let t := s.setConnection c { s.connections c with watched := false }
  if t.stopped then t
  else if t.session = some c then { t with session := none }.scheduleRestart maxFailures
  else t

def shutdown : StdioClient :=
  if s.stopped then s
  else
    let t := { s with stopped := true, status := .stopped, session := none }
    match s.session with
    | some c => t.close c
    | none => t

end StdioClient

def stdioClientStep (maxFailures : Nat) (s : StdioClient) : StdioClientLabel → Option StdioClient
  | .ensureSession => some s.ensureSession
  | .wakes i =>
    match (s.starts i).phase with
    | .sleeping => some (s.setPhase i (if s.stopped then .ended else .connecting))
    | _ => none
  | .connected i ok =>
    match (s.starts i).phase with
    | .connecting => some
        (if ok then
          { (s.setConnection s.nextConnection {}).setPhase i (.initializing s.nextConnection) with
            nextConnection := s.nextConnection + 1 }
        else s.setPhase i .failed)
    | _ => none
  | .initialized i answer =>
    match (s.starts i).phase with
    | .initializing c => some
        (match answer with
        | .understood => s.setPhase i (.notifying c)
        | .malformed => s.setPhase i .failed
        | .rejected => (s.close c).setPhase i .closing)
    | _ => none
  | .notified i ok =>
    match (s.starts i).phase with
    | .notifying c => some
        (if ok then
          (s.setConnection c { s.connections c with watched := true }).setPhase i (.started c)
        else s.setPhase i .failed)
    | _ => none
  | .discarded i =>
    match (s.starts i).phase with
    | .closing => some (s.setPhase i .failed)
    | _ => none
  | .assigns i =>
    match (s.starts i).phase with
    | .started c => some (s.assign i c)
    | _ => none
  | .fails i =>
    match (s.starts i).phase with
    | .failed => some (s.fail maxFailures i)
    | _ => none
  | .closes c => if c < s.nextConnection then some (s.close c) else none
  | .closedRuns c =>
    if (s.connections c).closed = true ∧ (s.connections c).watched = true then
      some (s.closedRuns maxFailures c)
    else none
  | .shutdown => some s.shutdown

/-! ### One connection -/

/-- The client has opened the connection, and neither side has closed it. -/
def StdioClient.Open (s : StdioClient) (c : Nat) : Prop :=
  c < s.nextConnection ∧ (s.connections c).closed = false

/-- Whoever starts the session is at work on the connection. -/
def StdioClient.Starting (s : StdioClient) (c : Nat) : Prop :=
  ∃ i, (s.starts i).phase.connection = some c

/-- Every connection is the session's, about to be, or closed; there is one start at a time; and a
client that was shut down stays so, with no connection but those that are still being started. -/
structure OneConnection (s : StdioClient) : Prop where
  connection : ∀ c, s.Open c → s.session = some c ∨ s.Starting c
  start : ∀ i j, (s.starts i).phase.attempts = true → (s.starts j).phase.attempts = true → i = j
  stopped : s.stopped = true → s.status = .stopped ∧ s.session = none

def Undisturbed (maxFailures : Nat) (s : StdioClient) : StdioClientLabel → Prop
  | .ensureSession => s.session = none → s.stopped = false → s.status ≠ .failed →
      s.initPromise = none → ∀ i < s.nextStart, (s.starts i).phase = .ended
  | .initialized _ answer => answer ≠ .malformed
  | .notified _ ok => ok = true
  | .assigns _ => s.stopped = false
  | .fails i => s.stopped = true → (s.starts i).restarts = false →
      s.consecutiveFailures + 1 < maxFailures
  | _ => True

/-! ### What a run keeps -/

structure Kept (s : StdioClient) : Prop where
  fresh : ∀ i, s.nextStart ≤ i → (s.starts i).phase = .ended
  one : ∀ i j, (s.starts i).phase ≠ .ended → (s.starts j).phase ≠ .ended → i = j
  connection : ∀ c, s.Open c → s.session = some c ∨ s.Starting c
  session : s.session ≠ none → ∀ i, (s.starts i).phase = .ended
  stopped : s.stopped = true → s.status = .stopped ∧ s.session = none
  init : ∀ i, (s.starts i).phase ≠ .ended → (s.starts i).restarts = false → s.initPromise = some i

variable {maxFailures : Nat} {s t : StdioClient} {i c : Nat}

@[simp] theorem StdioClient.setPhase_self (s : StdioClient) (i : Nat) (phase : StartPhase) :
    (s.setPhase i phase).starts i = { s.starts i with phase } := Function.update_self ..

theorem StdioClient.setPhase_of_ne (s : StdioClient) {i j : Nat} (phase : StartPhase) (h : j ≠ i) :
    (s.setPhase i phase).starts j = s.starts j := Function.update_of_ne h ..

theorem Kept.oneConnection (h : Kept s) : OneConnection s := by
  have hrun : ∀ {phase : StartPhase}, phase.attempts = true → phase ≠ .ended := by
    rintro phase hphase rfl
    cases hphase
  exact ⟨h.connection, fun i j hi hj => h.one i j (hrun hi) (hrun hj), h.stopped⟩

theorem Kept.others (h : Kept s) (hi : (s.starts i).phase ≠ .ended) (j : Nat) (hj : j ≠ i) :
    (s.starts j).phase = .ended := by
  by_contra hne
  exact hj (h.one j i hne hi)

theorem Kept.lt_nextStart (h : Kept s) (hi : (s.starts i).phase ≠ .ended) : i < s.nextStart := by
  by_contra hle
  exact hi (h.fresh i (Nat.le_of_not_lt hle))

/-- While a start goes on there is no session. -/
theorem Kept.session_none (h : Kept s) (hi : (s.starts i).phase ≠ .ended) : s.session = none := by
  by_contra hne
  exact hi (h.session hne i)

/-- An open connection belongs to the one start that goes on. -/
theorem Kept.starting (h : Kept s) (hi : (s.starts i).phase ≠ .ended) (hc : s.Open c) :
    (s.starts i).phase.connection = some c := by
  rcases h.connection c hc with hsession | ⟨j, hj⟩
  · rw [h.session_none hi] at hsession
    cases hsession
  · by_cases hne : j = i
    · exact hne ▸ hj
    · rw [h.others hi j hne] at hj
      cases hj

/-- One start goes on, or begins while none does, to a phase with all the connections that are
open. -/
theorem Kept.only {start : Start} (hothers : ∀ j, j ≠ i → (s.starts j).phase = .ended)
    (hi : i < t.nextStart) (hstarts : t.starts = Function.update s.starts i start)
    (hsession : t.session ≠ none → start.phase = .ended)
    (hopen : ∀ c, t.Open c → t.session = some c ∨ start.phase.connection = some c)
    (hstopped : t.stopped = true → t.status = .stopped ∧ t.session = none)
    (hinit : start.phase ≠ .ended → start.restarts = false → t.initPromise = some i) : Kept t := by
  have hself : t.starts i = start := by rw [hstarts, Function.update_self]
  have hother : ∀ j, j ≠ i → (t.starts j).phase = .ended := by
    intro j hj
    rw [hstarts, Function.update_of_ne hj]
    exact hothers j hj
  have honly : ∀ j, (t.starts j).phase ≠ .ended → j = i := by
    intro j hj
    by_contra hne
    exact hj (hother j hne)
  refine ⟨fun j hj => ?_, fun j k hj hk => (honly j hj).trans (honly k hk).symm, fun c hc => ?_,
    fun hs j => ?_, hstopped, fun j hj => ?_⟩
  · exact hother j fun he => Nat.lt_irrefl i (Nat.lt_of_lt_of_le hi (he ▸ hj))
  · exact (hopen c hc).imp_right fun hstart => ⟨i, by rw [hself]; exact hstart⟩
  · by_cases he : j = i
    · rw [he, hself]
      exact hsession hs
    · exact hother j he
  · obtain rfl := honly j hj
    rw [hself] at hj ⊢
    exact hinit hj

/-- The start goes on, and the connections stay as they are. -/
theorem Kept.setPhase (h : Kept s) {phase : StartPhase} (hi : (s.starts i).phase ≠ .ended)
    (hopen : ∀ c, s.Open c → (s.starts i).phase.connection = some c → phase.connection = some c) :
    Kept (s.setPhase i phase) := by
  refine .only (h.others hi) (h.lt_nextStart hi) rfl
    (fun hs => absurd (h.session_none hi) hs) (fun c hc => .inr ?_) h.stopped
    fun _ hrestarts => h.init i hi hrestarts
  exact hopen c hc (h.starting hi hc)

/-- A connection that is closed, or watched, is not opened again. -/
theorem Kept.setConnection (h : Kept s) {connection : Connection}
    (hclosed : (s.connections c).closed = true → connection.closed = true) :
    Kept (s.setConnection c connection) := by
  have hopen : ∀ d, (s.setConnection c connection).Open d → s.Open d := by
    rintro d ⟨hlt, hd⟩
    refine ⟨hlt, ?_⟩
    by_cases he : d = c
    · subst he
      have hd : (Function.update s.connections d connection d).closed = false := hd
      rw [Function.update_self] at hd
      cases hs : (s.connections d).closed with
      | false => rfl
      | true => exact (hclosed hs).symm.trans hd
    · have hd : (Function.update s.connections c connection d).closed = false := hd
      rwa [Function.update_of_ne he] at hd
  exact ⟨h.fresh, h.one, fun d hd => h.connection d (hopen d hd), h.session, h.stopped, h.init⟩

theorem not_open_close (c : Nat) : ¬ (s.close c).Open c := by
  rintro ⟨-, hc⟩
  have hc : (Function.update s.connections c { s.connections c with closed := true } c).closed =
      false := hc
  rw [Function.update_self] at hc
  cases hc

theorem open_of_close {d : Nat} (h : (s.close c).Open d) : d ≠ c ∧ s.Open d := by
  have hne : d ≠ c := by
    rintro rfl
    exact not_open_close d h
  obtain ⟨hlt, hd⟩ := h
  have hd : (Function.update s.connections c { s.connections c with closed := true } d).closed =
      false := hd
  rw [Function.update_of_ne hne] at hd
  exact ⟨hne, hlt, hd⟩

/-! ### Starts -/

theorem Kept.ensureSession (h : Kept s)
    (hclear : s.session = none → s.stopped = false → s.status ≠ .failed → s.initPromise = none →
      ∀ i < s.nextStart, (s.starts i).phase = .ended) : Kept s.ensureSession := by
  unfold StdioClient.ensureSession
  split
  · exact h
  · rename_i hsession
    have hsession := Option.not_isSome_iff_eq_none.mp hsession
    split
    · exact h
    · rename_i hstopped
      split
      · exact h
      · rename_i hfailed
        split
        · exact h
        · rename_i hpromise
          have hidle := hclear hsession (Bool.eq_false_iff.mpr hstopped) hfailed
            (Option.not_isSome_iff_eq_none.mp hpromise)
          have hall : ∀ j, (s.starts j).phase = .ended := by
            intro j
            by_cases hj : j < s.nextStart
            · exact hidle j hj
            · exact h.fresh j (Nat.le_of_not_lt hj)
          refine .only (fun j _ => hall j) (Nat.lt_succ_self _) rfl
            (fun hs => absurd hsession hs) (fun c hc => ?_) h.stopped fun _ _ => rfl
          rcases h.connection c hc with hs | ⟨j, hj⟩
          · exact .inl hs
          · rw [hall j] at hj
            cases hj

theorem Kept.connected (h : Kept s) (hphase : (s.starts i).phase = .connecting) :
    Kept { (s.setConnection s.nextConnection {}).setPhase i (.initializing s.nextConnection) with
      nextConnection := s.nextConnection + 1 } := by
  have hi : (s.starts i).phase ≠ .ended := by rw [hphase]; exact nofun
  refine .only (h.others hi) (h.lt_nextStart hi) rfl
    (fun hs => absurd (h.session_none hi) hs) (fun c hc => .inr ?_) h.stopped
    fun _ hrestarts => h.init i hi hrestarts
  by_cases he : c = s.nextConnection
  · rw [he]
    rfl
  · obtain ⟨hlt, hc⟩ := hc
    have hc : (Function.update s.connections s.nextConnection {} c).closed = false := hc
    rw [Function.update_of_ne he] at hc
    have hstarting := h.starting hi ⟨Nat.lt_of_le_of_ne (Nat.le_of_lt_succ hlt) he, hc⟩
    rw [hphase] at hstarting
    cases hstarting

/-- The connection of a start that was rejected is closed. -/
theorem Kept.rejected (h : Kept s) (hphase : (s.starts i).phase = .initializing c) :
    Kept ((s.close c).setPhase i .closing) := by
  have hi : (s.starts i).phase ≠ .ended := by rw [hphase]; exact nofun
  have hclosed : Kept (s.close c) := h.setConnection fun _ => rfl
  refine hclosed.setPhase hi fun d hd hstarting => ?_
  have hphase' : ((s.close c).starts i).phase = .initializing c := hphase
  rw [hphase'] at hstarting
  obtain rfl := Option.some.inj hstarting
  exact absurd hd (not_open_close c)

theorem Kept.assign (h : Kept s) (hphase : (s.starts i).phase = .started c)
    (hstopped : s.stopped = false) : Kept (s.assign i c) := by
  have hi : (s.starts i).phase ≠ .ended := by rw [hphase]; exact nofun
  refine .only (h.others hi) (h.lt_nextStart hi) rfl (fun _ => rfl)
    (fun d hd => .inl ?_) (fun hs => absurd (hstopped.symm.trans hs) (by decide))
    fun hended => absurd rfl hended
  have hstarting := h.starting hi (c := d) hd
  rw [hphase] at hstarting
  exact hstarting

/-! ### The restart loop -/

/-- A loop is at its head, while no other start goes on and no connection is open. -/
theorem Kept.restartLoop (h : Kept s) (hothers : ∀ j, j ≠ i → (s.starts j).phase = .ended)
    (hi : i < s.nextStart) (hsession : s.session = none) (hopen : ∀ c, ¬ s.Open c) :
    Kept (s.restartLoop maxFailures i) := by
  unfold StdioClient.restartLoop
  split
  · exact .only hothers hi rfl (fun hs => absurd hsession hs)
      (fun c hc => absurd hc (hopen c)) h.stopped fun _ hrestarts => by cases hrestarts
  · dsimp only
    split
    · exact .only hothers hi rfl (fun _ => rfl)
        (fun c hc => absurd hc (hopen c)) h.stopped fun hended => absurd rfl hended
    · rename_i hstopped
      exact .only hothers hi rfl (fun _ => rfl)
        (fun c hc => absurd hc (hopen c)) (fun hs => absurd hs hstopped)
        fun hended => absurd rfl hended

theorem Kept.scheduleRestart (h : Kept s) (hall : ∀ j, (s.starts j).phase = .ended)
    (hsession : s.session = none) (hopen : ∀ c, ¬ s.Open c) :
    Kept (s.scheduleRestart maxFailures) := by
  unfold StdioClient.scheduleRestart
  split
  · exact h
  · rename_i hstopped
    refine Kept.restartLoop ?_ (fun j _ => hall j) (Nat.lt_succ_self _) hsession hopen
    exact ⟨fun j hj => h.fresh j (Nat.le_of_succ_le hj), h.one, h.connection, h.session,
      fun hs => absurd hs hstopped, h.init⟩

theorem Kept.fail (h : Kept s) (hphase : (s.starts i).phase = .failed)
    (hlast : s.stopped = true → (s.starts i).restarts = false →
      s.consecutiveFailures + 1 < maxFailures) : Kept (s.fail maxFailures i) := by
  have hi : (s.starts i).phase ≠ .ended := by rw [hphase]; exact nofun
  have hopen : ∀ c, ¬ s.Open c := by
    intro c hc
    have hstarting := h.starting hi hc
    rw [hphase] at hstarting
    cases hstarting
  have hsession := h.session_none hi
  unfold StdioClient.fail
  dsimp only
  split
  · have hcounted : Kept { s with consecutiveFailures := s.consecutiveFailures + 1 } :=
      ⟨h.fresh, h.one, h.connection, h.session, h.stopped, h.init⟩
    exact hcounted.restartLoop (h.others hi) (h.lt_nextStart hi) hsession hopen
  · rename_i hrestarts
    have hended : Kept { ({ s with consecutiveFailures := s.consecutiveFailures + 1 } :
        StdioClient).setPhase i .ended with initPromise := none } :=
      .only (h.others hi) (h.lt_nextStart hi) rfl (fun _ => rfl)
        (fun c hc => absurd hc (hopen c)) h.stopped fun hne => absurd rfl hne
    split
    · rename_i hmax
      refine ⟨hended.fresh, hended.one, hended.connection, hended.session, fun hs => ?_,
        hended.init⟩
      exact absurd (hlast hs (Bool.eq_false_iff.mpr hrestarts)) (Nat.not_lt.mpr hmax)
    · refine hended.scheduleRestart (fun j => ?_) hsession hopen
      by_cases he : j = i
      · rw [he, StdioClient.setPhase_self]
      · rw [StdioClient.setPhase_of_ne _ _ he]
        exact h.others hi j he

/-- The session's connection has ended. -/
theorem Kept.closedRuns (h : Kept s) (hclosed : (s.connections c).closed = true) :
    Kept (s.closedRuns maxFailures c) := by
  have hseen : Kept (s.setConnection c { s.connections c with watched := false }) :=
    h.setConnection fun hc => hc
  unfold StdioClient.closedRuns
  dsimp only
  split
  · exact hseen
  · rename_i hstopped
    split
    · rename_i hsession
      have hall : ∀ j, (s.starts j).phase = .ended := h.session (by
        have hs : s.session = some c := hsession
        rw [hs]
        exact nofun)
      have hopen : ∀ d, ¬ (s.setConnection c { s.connections c with watched := false }).Open d := by
        intro d hd
        rcases hseen.connection d hd with hs | ⟨j, hj⟩
        · obtain rfl := Option.some.inj (hsession.symm.trans hs)
          have hd := hd.2
          have hd : (Function.update s.connections c { s.connections c with watched := false }
            c).closed = false := hd
          rw [Function.update_self] at hd
          exact absurd (hclosed.symm.trans hd) (by decide)
        · have hended : ((s.setConnection c { s.connections c with watched := false }).starts
            j).phase = .ended := hall j
          rw [hended] at hj
          cases hj
      refine Kept.scheduleRestart ?_ hall rfl hopen
      exact ⟨hseen.fresh, hseen.one, fun d hd => absurd hd (hopen d), fun hs => absurd rfl hs,
        fun hs => absurd hs hstopped, hseen.init⟩
    · exact hseen

theorem Kept.shutdown (h : Kept s) : Kept s.shutdown := by
  unfold StdioClient.shutdown
  split
  · exact h
  · cases hsession : s.session with
    | none =>
      refine ⟨h.fresh, h.one, fun c hc => ?_, fun hs => absurd rfl hs, fun _ => ⟨rfl, rfl⟩,
        h.init⟩
      rcases h.connection c hc with hs | hstarting
      · cases hsession.symm.trans hs
      · exact .inr hstarting
    | some current =>
      refine ⟨h.fresh, h.one, fun c hc => ?_, fun hs => absurd rfl hs, fun _ => ⟨rfl, rfl⟩,
        h.init⟩
      obtain ⟨hne, hc⟩ := open_of_close hc
      rcases h.connection c hc with hs | hstarting
      · exact absurd (Option.some.inj (hsession.symm.trans hs)).symm hne
      · exact .inr hstarting

theorem Kept.step {label : StdioClientLabel} (h : Kept s)
    (hclear : Undisturbed maxFailures s label)
    (hstep : stdioClientStep maxFailures s label = some t) : Kept t := by
  cases label with
  | ensureSession =>
    obtain rfl := Option.some.inj hstep
    exact h.ensureSession hclear
  | wakes i =>
    simp only [stdioClientStep] at hstep
    split at hstep
    · rename_i hphase
      obtain rfl := Option.some.inj hstep
      refine h.setPhase (by rw [hphase]; exact nofun) fun c hc hstarting => ?_
      rw [hphase] at hstarting
      cases hstarting
    · cases hstep
  | connected i ok =>
    simp only [stdioClientStep] at hstep
    split at hstep
    · rename_i hphase
      obtain rfl := Option.some.inj hstep
      split
      · exact h.connected hphase
      · refine h.setPhase (by rw [hphase]; exact nofun) fun c hc hstarting => ?_
        rw [hphase] at hstarting
        cases hstarting
    · cases hstep
  | initialized i answer =>
    simp only [stdioClientStep] at hstep
    split at hstep
    · rename_i c hphase
      obtain rfl := Option.some.inj hstep
      cases answer with
      | understood =>
        refine h.setPhase (by rw [hphase]; exact nofun) fun d hd hstarting => ?_
        rw [hphase] at hstarting
        exact hstarting
      | malformed => exact absurd rfl hclear
      | rejected => exact h.rejected hphase
    · cases hstep
  | notified i ok =>
    obtain rfl : ok = true := hclear
    simp only [stdioClientStep] at hstep
    split at hstep
    · rename_i c hphase
      obtain rfl := Option.some.inj hstep
      have hwatched : Kept (s.setConnection c { s.connections c with watched := true }) :=
        h.setConnection fun hc => hc
      have hphase' : ((s.setConnection c { s.connections c with watched := true }).starts
          i).phase = .notifying c := hphase
      refine hwatched.setPhase (by rw [hphase']; exact nofun) fun d hd hstarting => ?_
      rw [hphase'] at hstarting
      exact hstarting
    · cases hstep
  | discarded i =>
    simp only [stdioClientStep] at hstep
    split at hstep
    · rename_i hphase
      obtain rfl := Option.some.inj hstep
      refine h.setPhase (by rw [hphase]; exact nofun) fun c hc hstarting => ?_
      rw [hphase] at hstarting
      cases hstarting
    · cases hstep
  | assigns i =>
    simp only [stdioClientStep] at hstep
    split at hstep
    · rename_i c hphase
      obtain rfl := Option.some.inj hstep
      exact h.assign hphase hclear
    · cases hstep
  | fails i =>
    simp only [stdioClientStep] at hstep
    split at hstep
    · rename_i hphase
      obtain rfl := Option.some.inj hstep
      exact h.fail hphase hclear
    · cases hstep
  | closes c =>
    simp only [stdioClientStep] at hstep
    split at hstep
    · obtain rfl := Option.some.inj hstep
      exact h.setConnection fun _ => rfl
    · cases hstep
  | closedRuns c =>
    simp only [stdioClientStep] at hstep
    split at hstep
    · rename_i hclosed
      obtain rfl := Option.some.inj hstep
      exact h.closedRuns hclosed.1
    · cases hstep
  | shutdown =>
    obtain rfl := Option.some.inj hstep
    exact h.shutdown

/-- **No connection leaks** in a run in which no session is started on demand beside a restart
loop, every server that answers is understood and can be notified, and no start outlives
`shutdown`. -/
theorem oneConnection_of_run {labels : List StdioClientLabel}
    (r : Run (stdioClientStep maxFailures) (Undisturbed maxFailures) {} labels s) :
    OneConnection s := by
  have hstart : Kept ({} : StdioClient) :=
    ⟨fun _ _ => rfl, fun _ _ hi => absurd rfl hi, fun _ hc => absurd hc.1 (Nat.not_lt_zero _),
      fun hs => absurd rfl hs, fun hs => (nomatch hs), fun _ hi => absurd rfl hi⟩
  have hkept : Kept s :=
    Run.invariant hstart (fun _ _ _ hs hclear hstep => hs.step hclear hstep) r
  exact hkept.oneConnection

instance : ∀ (s : StdioClient) (label : StdioClientLabel),
    Decidable (Undisturbed maxFailures s label)
  | s, .ensureSession => inferInstanceAs (Decidable (s.session = none → s.stopped = false →
      s.status ≠ .failed → s.initPromise = none → ∀ i < s.nextStart, (s.starts i).phase = .ended))
  | _, .initialized _ answer => inferInstanceAs (Decidable (answer ≠ .malformed))
  | _, .notified _ ok => inferInstanceAs (Decidable (ok = true))
  | s, .assigns _ => inferInstanceAs (Decidable (s.stopped = false))
  | s, .fails i => inferInstanceAs (Decidable (s.stopped = true → (s.starts i).restarts = false →
      s.consecutiveFailures + 1 < maxFailures))
  | _, .wakes _ | _, .connected _ _ | _, .discarded _ | _, .closes _ | _, .closedRuns _
  | _, .shutdown => .isTrue trivial

/-- A connection ends, the loop brings the next one, and the client is shut down. -/
theorem oneConnection_of_run_restarted :
    ∃ s : StdioClient, Run (stdioClientStep 5) (Undisturbed 5) {}
        [.ensureSession, .connected 0 true, .initialized 0 .understood, .notified 0 true,
          .assigns 0, .closes 0, .closedRuns 0, .wakes 1, .connected 1 true,
          .initialized 1 .understood, .notified 1 true, .assigns 1, .shutdown, .closedRuns 1] s ∧
      s.nextConnection = 2 ∧ OneConnection s := by
  have hreplay : (exec (guarded (stdioClientStep 5) (Undisturbed 5)) ({} : StdioClient)
      [.ensureSession, .connected 0 true, .initialized 0 .understood, .notified 0 true,
        .assigns 0, .closes 0, .closedRuns 0, .wakes 1, .connected 1 true,
        .initialized 1 .understood, .notified 1 true, .assigns 1, .shutdown, .closedRuns 1]).any
      (fun s => decide (s.nextConnection = 2)) = true := by decide
  obtain ⟨s, r, hs⟩ := Run.of_replay hreplay
  exact ⟨s, r, of_decide_eq_true hs, oneConnection_of_run r⟩

/-- A session that is asked for while the restart loop sleeps, and a connection that outlives
`shutdown`. -/
theorem connections_beside :
    (∃ s : StdioClient, Run (stdioClientStep 5) Any {}
        [.ensureSession, .connected 0 true, .initialized 0 .understood, .notified 0 true,
          .assigns 0, .closes 0, .closedRuns 0, .ensureSession, .connected 2 true,
          .initialized 2 .understood, .notified 2 true, .assigns 2, .wakes 1, .connected 1 true,
          .initialized 1 .understood, .notified 1 true, .assigns 1] s ∧
      s.Open 1 ∧ s.session = some 2 ∧ ¬ OneConnection s) ∧
    ∃ s : StdioClient, Run (stdioClientStep 5) Any {}
        [.ensureSession, .connected 0 true, .shutdown, .initialized 0 .understood,
          .notified 0 true, .assigns 0] s ∧
      s.Open 0 ∧ s.stopped = true ∧ s.status = .ready ∧ ¬ OneConnection s := by
  refine ⟨⟨_, .any_of_exec rfl, ⟨by decide, rfl⟩, rfl, fun h => ?_⟩,
    ⟨_, .any_of_exec rfl, ⟨by decide, rfl⟩, rfl, rfl, fun h => ?_⟩⟩
  · rcases h.connection 1 ⟨by decide, rfl⟩ with hs | ⟨i, hi⟩
    · cases hs
    · match i with
      | 0 | 1 | 2 | i + 3 => cases hi
  · cases (h.stopped rfl).1

end Declaragent.Mcp.Stdio
