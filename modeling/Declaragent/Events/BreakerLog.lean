import Declaragent.Events.CircuitBreaker
import Declaragent.Library.Transition

/-!
# Events — what a circuit breaker went through

Whoever watches a breaker sees the calls that are admitted, the outcomes that are recorded, the
operator's two actions and the moves from state to state.  The log has them newest first.

An operation reads the clock when it asks for the state, and again when it opens the breaker.

* `moves_accounted`: each move and each admitted call has what the breaker's thresholds ask for, as
  long as no half-open breaker is tripped that has counted a success.
* `halfOpen_reset`: the operator closes a half-open breaker without any success.
-/

namespace Declaragent.Events
open Transition

namespace CircuitBreaker

variable (opts : CircuitBreakerOptions) (b : CircuitBreaker)

/-- Force the breaker open, with what it has counted. -/
def trip (now : Int) : CircuitBreaker × List CircuitBreakerState :=
  match b.state with
  | .opened _ => (b, [])
  | .closed | .halfOpen => ({ b with state := .opened now }, [.opened now])

/-- `onFailure`, where the clock was read at `asked` and then, to open, at `now`. -/
def onFailureAt (asked now : Int) : CircuitBreaker × List CircuitBreakerState :=
  let (b, moves) := advance opts b asked
  match b.state with
  | .halfOpen =>
    ({ state := .opened now
       consecutiveSuccesses := 0
       consecutiveFailures := b.consecutiveFailures + 1 }, moves ++ [.opened now])
  | .opened _ => (b, moves)
  | .closed =>
    let b := { b with
      consecutiveFailures := b.consecutiveFailures + 1
      consecutiveSuccesses := 0 }
    if opts.failureThreshold.1 ≤ b.consecutiveFailures then
      ({ b with state := .opened now }, moves ++ [.opened now])
    else (b, moves)

variable {opts b} {asked now : Int}

theorem onFailureAt_of_halfOpen (h : (advance opts b asked).1.state = .halfOpen) :
    (onFailureAt opts b asked now).1 = ⟨.opened now, b.consecutiveFailures + 1, 0⟩ := by
  simp only [onFailureAt, h, (advance_counts opts b asked).1]

theorem onFailureAt_of_opened {openedAt : Int}
    (h : (advance opts b asked).1.state = .opened openedAt) :
    onFailureAt opts b asked now = advance opts b asked := by
  simp only [onFailureAt, h]

theorem onFailureAt_of_closed (h : (advance opts b asked).1.state = .closed) :
    (onFailureAt opts b asked now).1 =
      if opts.failureThreshold.1 ≤ b.consecutiveFailures + 1 then
        ⟨.opened now, b.consecutiveFailures + 1, 0⟩
      else ⟨.closed, b.consecutiveFailures + 1, 0⟩ := by
  simp only [onFailureAt, h, (advance_counts opts b asked).1]
  split <;> rfl

theorem trip_of_isOpen (h : b.IsOpen) (now : Int) : b.trip now = (b, []) := by
  obtain ⟨openedAt, hopened⟩ := h
  simp only [trip, hopened]

theorem trip_of_not_isOpen (h : ¬ b.IsOpen) (now : Int) :
    b.trip now = ({ b with state := .opened now }, [.opened now]) := by
  unfold trip
  split
  · rename_i openedAt hopened
    exact absurd ⟨openedAt, hopened⟩ h
  · rfl
  · rfl

variable (opts b)

def recordAt (success : Bool) (asked now : Int) : CircuitBreaker × List CircuitBreakerState :=
  if success then onSuccess opts b asked else onFailureAt opts b asked now

end CircuitBreaker

open CircuitBreaker

inductive BreakerOp where
  | allow
  | record (success : Bool)
  | trip
  | reset

/-- An operation, with what the clock says when it asks for the state and when it opens. -/
structure BreakerCall where
  op : BreakerOp
  asked : Int
  now : Int

/-- What is seen of a breaker. -/
inductive Noted where
  | admitted
  | recorded (success : Bool)
  | tripped
  | reset
  | moved (origin next : CircuitBreakerState) (now : Int)

/-- The state that the last move led to. -/
def lastState : List Noted → CircuitBreakerState
  | [] => .closed
  | .moved _ next _ :: _ => next
  | .admitted :: log | .recorded _ :: log | .tripped :: log | .reset :: log => lastState log

/-- The outcomes that were recorded since the last move, the last one first. -/
def outcomes : List Noted → List Bool
  | [] => []
  | .moved .. :: _ => []
  | .recorded success :: log => success :: outcomes log
  | .admitted :: log | .tripped :: log | .reset :: log => outcomes log

/-- The failures in a row that were recorded last, since the last move. -/
def failuresInRow (log : List Noted) : Nat := ((outcomes log).takeWhile (!·)).length

/-- What a move from one state to another has before it. -/
def Explained (opts : CircuitBreakerOptions) (earlier : List Noted) :
    CircuitBreakerState → CircuitBreakerState → Int → Prop
  | .closed, .opened openedAt, now =>
    openedAt = now ∧
      (earlier.head? = some .tripped ∨ opts.failureThreshold.1 ≤ failuresInRow earlier)
  | .opened openedAt, .halfOpen, now => openedAt + opts.resetTimeoutMs ≤ now
  | .halfOpen, .opened openedAt, now =>
    openedAt = now ∧
      (earlier.head? = some .tripped ∨ earlier.head? = some (.recorded false))
  | .halfOpen, .closed, _ =>
    earlier.head? = some .reset ∨
      (∀ success ∈ outcomes earlier, success = true) ∧
        opts.successThreshold.1 ≤ (outcomes earlier).length
  | .opened _, .closed, _ => earlier.head? = some .reset
  | .closed, .closed, _ | .closed, .halfOpen, _ | .opened _, .opened _, _
  | .halfOpen, .halfOpen, _ => False

/-- What may be noted, after what was noted before. -/
def Accounted (opts : CircuitBreakerOptions) (earlier : List Noted) : Noted → Prop
  | .moved origin next now => lastState earlier = origin ∧ Explained opts earlier origin next now
  | .admitted => ∀ openedAt, lastState earlier ≠ .opened openedAt
  | .recorded _ | .tripped | .reset => True

/-- All that was noted is accounted for. -/
def AllAccounted (opts : CircuitBreakerOptions) : List Noted → Prop
  | [] => True
  | noted :: earlier => Accounted opts earlier noted ∧ AllAccounted opts earlier

/-- A breaker, and what was seen of it. -/
structure WatchedBreaker where
  breaker : CircuitBreaker := {}
  log : List Noted := []

namespace WatchedBreaker

variable (opts : CircuitBreakerOptions) (w : WatchedBreaker)

def note (noted : Noted) : WatchedBreaker := { w with log := noted :: w.log }

/-- The breaker becomes `b`, which is seen where its state changes. -/
def follow (b : CircuitBreaker) (now : Int) : WatchedBreaker where
  breaker := b
  log := if b.state = w.breaker.state then w.log
    else .moved w.breaker.state b.state now :: w.log

def ask (now : Int) : WatchedBreaker := w.follow (advance opts w.breaker now).1 now

def call (c : BreakerCall) : WatchedBreaker :=
  match c.op with
  | .allow =>
    if (allow opts w.breaker c.asked).2.2 then (w.ask opts c.asked).note .admitted
    else w.ask opts c.asked
  | .record success =>
    ((w.ask opts c.asked).note (.recorded success)).follow
      (recordAt opts w.breaker success c.asked c.now).1 c.now
  | .trip => (w.note .tripped).follow (w.breaker.trip c.now).1 c.now
  | .reset => (w.note .reset).follow w.breaker.reset.1 c.now

def step (c : BreakerCall) : Option WatchedBreaker := some (w.call opts c)

/-- No half-open breaker is tripped that has counted a success. -/
def TripsUncounted (w : WatchedBreaker) (c : BreakerCall) : Prop :=
  match c.op with
  | .trip => w.breaker.state = .halfOpen → w.breaker.consecutiveSuccesses = 0
  | .allow | .record _ | .reset => True

instance (c : BreakerCall) : Decidable (TripsUncounted w c) :=
  match h : c.op with
  | .trip => decidable_of_iff (w.breaker.state = .halfOpen → w.breaker.consecutiveSuccesses = 0)
      (by rw [TripsUncounted, h])
  | .allow | .record _ | .reset => isTrue (by rw [TripsUncounted, h]; trivial)

variable {opts w}

theorem follow_of_eq {b : CircuitBreaker} (h : b.state = w.breaker.state) (now : Int) :
    w.follow b now = ⟨b, w.log⟩ := by
  rw [follow, if_pos h]

theorem follow_of_ne {b : CircuitBreaker} (h : b.state ≠ w.breaker.state) (now : Int) :
    w.follow b now = ⟨b, .moved w.breaker.state b.state now :: w.log⟩ := by
  rw [follow, if_neg h]

/-- The breaker is in the state that was seen last, and has counted no more than was seen. -/
structure Counted (opts : CircuitBreakerOptions) (w : WatchedBreaker) : Prop where
  state : lastState w.log = w.breaker.state
  failures : w.breaker.state = .closed → w.breaker.consecutiveFailures ≤ failuresInRow w.log
  successes : w.breaker.state = .halfOpen → (∀ success ∈ outcomes w.log, success = true) ∧
    w.breaker.consecutiveSuccesses ≤ (outcomes w.log).length
  uncounted : w.breaker.state ≠ .halfOpen → w.breaker.consecutiveSuccesses = 0
  accounted : AllAccounted opts w.log

theorem counted_new (opts : CircuitBreakerOptions) : Counted opts {} :=
  ⟨rfl, fun _ => Nat.zero_le _, fun h => (by cases h), fun _ => rfl, trivial⟩

/-- Time is up for an open breaker, or nothing is seen. -/
theorem Counted.ask (h : w.Counted opts) (now : Int) : (w.ask opts now).Counted opts := by
  unfold WatchedBreaker.ask
  unfold advance
  split
  · rename_i openedAt hopened
    split
    · rename_i hup
      have hne : w.breaker.state ≠ .halfOpen := by
        rw [hopened]
        exact fun h => (by cases h)
      rw [follow_of_ne hne.symm]
      refine ⟨rfl, fun h => (by cases h), fun _ => ⟨fun _ hmem => (by cases hmem), ?_⟩,
        fun h => absurd rfl h, ⟨⟨h.state, ?_⟩, h.accounted⟩⟩
      · exact Nat.le_of_eq (h.uncounted hne)
      · rw [hopened]
        exact Int.add_le_of_le_sub_left hup
    · rw [follow_of_eq rfl]
      exact h
  · rw [follow_of_eq rfl]
    exact h
  · rw [follow_of_eq rfl]
    exact h

theorem Counted.allow (h : w.Counted opts) {c : BreakerCall} (hop : c.op = .allow) :
    (w.call opts c).Counted opts := by
  have hask := h.ask c.asked
  have hstate : (w.ask opts c.asked).breaker.state = (advance opts w.breaker c.asked).1.state := rfl
  unfold call
  rw [hop]
  dsimp only
  split
  · rename_i hallowed
    refine ⟨hask.state, hask.failures, hask.successes, hask.uncounted, fun openedAt hlast => ?_,
      hask.accounted⟩
    rw [hask.state, hstate] at hlast
    rw [CircuitBreaker.allow] at hallowed
    dsimp only at hallowed
    rw [hlast] at hallowed
    cases hallowed
  · exact hask

/-- An outcome is noted, and the breaker does not change its state. -/
theorem Counted.noteOutcome (h : w.Counted opts) (success : Bool) {b : CircuitBreaker}
    (hstate : b.state = w.breaker.state)
    (hfailures : b.state = .closed →
      b.consecutiveFailures ≤ failuresInRow (.recorded success :: w.log))
    (hsuccesses : b.state = .halfOpen → success = true ∧
      b.consecutiveSuccesses ≤ (outcomes w.log).length + 1)
    (huncounted : b.state ≠ .halfOpen → b.consecutiveSuccesses = 0) (now : Int) :
    ((w.note (.recorded success)).follow b now).Counted opts := by
  rw [follow_of_eq (w := w.note (.recorded success)) hstate]
  refine ⟨h.state.trans hstate.symm, hfailures, fun hhalf => ?_, huncounted, trivial, h.accounted⟩
  obtain ⟨hsuccess, hle⟩ := hsuccesses hhalf
  refine ⟨fun outcome hmem => ?_, hle⟩
  rcases List.mem_cons.mp hmem with rfl | hmem
  · exact hsuccess
  · exact (h.successes (hstate ▸ hhalf)).1 outcome hmem

/-- Something is noted that lets the breaker close or open. -/
theorem Counted.noteMove (h : w.Counted opts) (noted : Noted)
    (hnoted : Accounted opts w.log noted) (hlast : lastState (noted :: w.log) = lastState w.log)
    {b : CircuitBreaker} (hne : b.state ≠ w.breaker.state) (hhalf : b.state ≠ .halfOpen)
    (hfailures : b.state = .closed → b.consecutiveFailures = 0)
    (huncounted : b.consecutiveSuccesses = 0) {now : Int}
    (hexplained : Explained opts (noted :: w.log) w.breaker.state b.state now) :
    ((w.note noted).follow b now).Counted opts := by
  rw [follow_of_ne (w := w.note noted) hne]
  exact ⟨rfl, fun hclosed => (by rw [hfailures hclosed]; exact Nat.zero_le _),
    fun h => absurd h hhalf, fun _ => huncounted, ⟨hlast.trans h.state, hexplained⟩, hnoted,
    h.accounted⟩

theorem Counted.recordTrue (h : w.Counted opts) {c : BreakerCall}
    (hop : c.op = .record true) : (w.call opts c).Counted opts := by
  have hask := h.ask c.asked
  have hcounts := advance_counts opts w.breaker c.asked
  have hstate : (w.ask opts c.asked).breaker = (advance opts w.breaker c.asked).1 := rfl
  unfold call
  rw [hop]
  simp only [recordAt, if_true]
  by_cases hhalf : (advance opts w.breaker c.asked).1.state = .halfOpen
  · rw [onSuccess_of_halfOpen hhalf]
    obtain ⟨hall, hle⟩ := hask.successes hhalf
    rw [hstate, hcounts.2.1] at hle
    split
    · rename_i hthreshold
      refine hask.noteMove (.recorded true) trivial rfl ?_ (fun h => (by cases h)) (fun _ => rfl) rfl ?_
      · rw [hstate, hhalf]
        exact fun h => (by cases h)
      · rw [hstate, hhalf]
        refine .inr ⟨fun success hmem => ?_, Nat.le_trans hthreshold (Nat.succ_le_succ hle)⟩
        rcases List.mem_cons.mp hmem with rfl | hmem
        · rfl
        · exact hall success hmem
    · exact hask.noteOutcome true (by rw [hstate, hhalf]) (fun h => (by cases h))
        (fun _ => ⟨rfl, Nat.succ_le_succ hle⟩) (fun h => absurd rfl h) _
  · rw [onSuccess_of_ne hhalf]
    exact Counted.noteOutcome hask true (b := ⟨(advance opts w.breaker c.asked).1.state, 0, 0⟩) rfl
      (fun _ => Nat.zero_le _) (fun h => absurd h hhalf) (fun _ => rfl) _

theorem Counted.recordFalse (h : w.Counted opts) {c : BreakerCall}
    (hop : c.op = .record false) : (w.call opts c).Counted opts := by
  have hask := h.ask c.asked
  have hcounts := advance_counts opts w.breaker c.asked
  have hstate : (w.ask opts c.asked).breaker = (advance opts w.breaker c.asked).1 := rfl
  unfold call
  rw [hop]
  simp only [recordAt, Bool.false_eq_true, if_false]
  cases hadvance : (advance opts w.breaker c.asked).1.state with
  | halfOpen =>
    rw [onFailureAt_of_halfOpen hadvance]
    refine hask.noteMove (.recorded false) trivial rfl ?_ (fun h => (by cases h))
      (fun h => (by cases h)) rfl ?_
    · rw [hstate, hadvance]
      exact fun h => (by cases h)
    · rw [hstate, hadvance]
      exact ⟨rfl, .inr rfl⟩
  | opened openedAt =>
    rw [onFailureAt_of_opened hadvance]
    have hne : (advance opts w.breaker c.asked).1.state ≠ .halfOpen := by
      rw [hadvance]
      exact fun h => (by cases h)
    exact Counted.noteOutcome hask false (b := (advance opts w.breaker c.asked).1) rfl
      (fun h => (by rw [hadvance] at h; cases h)) (fun h => absurd h hne) hask.uncounted _
  | closed =>
    rw [onFailureAt_of_closed hadvance]
    have hle := hask.failures hadvance
    rw [hstate, hcounts.1] at hle
    split
    · rename_i hthreshold
      refine hask.noteMove (.recorded false) trivial rfl ?_ (fun h => (by cases h))
        (fun h => (by cases h)) rfl ?_
      · rw [hstate, hadvance]
        exact fun h => (by cases h)
      · rw [hstate, hadvance]
        exact ⟨rfl, .inr (Nat.le_trans hthreshold (Nat.succ_le_succ hle))⟩
    · exact hask.noteOutcome false (by rw [hstate, hadvance]) (fun _ => Nat.succ_le_succ hle)
        (fun h => (by cases h)) (fun _ => rfl) _

theorem Counted.trip (h : w.Counted opts) {c : BreakerCall} (hop : c.op = .trip)
    (huncounted : TripsUncounted w c) : (w.call opts c).Counted opts := by
  unfold TripsUncounted at huncounted
  rw [hop] at huncounted
  unfold call
  rw [hop]
  dsimp only
  by_cases hopen : w.breaker.IsOpen
  · rw [trip_of_isOpen hopen, follow_of_eq (by rfl)]
    exact ⟨h.state, h.failures, h.successes, h.uncounted, trivial, h.accounted⟩
  · rw [trip_of_not_isOpen hopen]
    refine h.noteMove .tripped trivial rfl (fun e => hopen ⟨c.now, e.symm⟩)
      (fun h => (by cases h)) (fun h => (by cases h)) ?_ ?_
    · by_cases hhalf : w.breaker.state = .halfOpen
      · exact huncounted hhalf
      · exact h.uncounted hhalf
    · cases hstate : w.breaker.state with
      | opened openedAt => exact absurd ⟨openedAt, hstate⟩ hopen
      | closed => exact ⟨rfl, .inl rfl⟩
      | halfOpen => exact ⟨rfl, .inl rfl⟩

theorem Counted.reset (h : w.Counted opts) {c : BreakerCall} (hop : c.op = .reset) :
    (w.call opts c).Counted opts := by
  unfold call
  rw [hop]
  dsimp only
  cases hstate : w.breaker.state with
  | closed =>
    rw [follow_of_eq hstate.symm]
    exact ⟨h.state.trans hstate, fun _ => Nat.zero_le _, fun h => (by cases h), fun _ => rfl,
      trivial, h.accounted⟩
  | opened openedAt =>
    refine h.noteMove .reset trivial rfl ?_ (fun h => (by cases h)) (fun _ => rfl) rfl ?_
    · rw [hstate]
      exact fun h => (by cases h)
    · rw [hstate]
      exact rfl
  | halfOpen =>
    refine h.noteMove .reset trivial rfl ?_ (fun h => (by cases h)) (fun _ => rfl) rfl ?_
    · rw [hstate]
      exact fun h => (by cases h)
    · rw [hstate]
      exact .inl rfl

theorem Counted.call (h : w.Counted opts) {c : BreakerCall} (huncounted : TripsUncounted w c) :
    (w.call opts c).Counted opts := by
  cases hop : c.op with
  | allow => exact h.allow hop
  | trip => exact h.trip hop huncounted
  | reset => exact h.reset hop
  | record success =>
    cases success with
    | true => exact h.recordTrue hop
    | false => exact h.recordFalse hop

/-- **Every move is accounted for**, in the runs in which no half-open breaker is tripped that has
counted a success. -/
theorem moves_accounted (opts : CircuitBreakerOptions) {calls : List BreakerCall}
    (r : Run (step opts) TripsUncounted {} calls w) : AllAccounted opts w.log := by
  have hcounted : w.Counted opts :=
    r.invariant (P := Counted opts) (counted_new opts) fun t c t' ht hc hstep => by
      rw [← Option.some.inj hstep]
      exact ht.call hc
  exact hcounted.accounted

/-- Two successes close a breaker that was tripped, after its time is up. -/
def twoSuccesses : CircuitBreakerOptions := { successThreshold := ⟨2, Nat.two_pos⟩ }

theorem moves_accounted_recovered : ∃ w : WatchedBreaker,
    w.breaker.state = .closed ∧ AllAccounted twoSuccesses w.log := by
  have hreplay : (exec (guarded (step twoSuccesses) TripsUncounted) {}
      [⟨.trip, 0, 0⟩, ⟨.record true, 30000, 30000⟩, ⟨.record true, 30001, 30001⟩]).any
        (fun w => decide (w.breaker.state = .closed)) = true := by
    decide
  obtain ⟨w, r, hw⟩ := Run.of_replay hreplay
  exact ⟨w, of_decide_eq_true hw, moves_accounted twoSuccesses r⟩

/-- **The operator closes a half-open breaker** for which no success was recorded. -/
theorem halfOpen_reset :
    ¬ ∀ (opts : CircuitBreakerOptions) (calls : List BreakerCall) (w : WatchedBreaker),
      Run (step opts) Any {} calls w → ∀ earlier now,
        w.log = .moved .halfOpen .closed now :: earlier →
          opts.successThreshold.1 ≤ (outcomes earlier).length := by
  intro h
  have hreplay : exec (step {}) {}
      [⟨.trip, 0, 0⟩, ⟨.allow, 30000, 30000⟩, ⟨.reset, 30001, 30001⟩] =
      some ⟨{}, [.moved .halfOpen .closed 30001, .reset, .admitted,
        .moved (.opened 0) .halfOpen 30000, .moved .closed (.opened 0) 0, .tripped]⟩ := rfl
  exact absurd (h {} _ _ (.any_of_exec hreplay) _ _ rfl) (by decide)

end WatchedBreaker

end Declaragent.Events
