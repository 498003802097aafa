import Mathlib.Data.Nat.Init

/-!
# Events — the circuit breaker

Closed until `failureThreshold` failures in a row, open for `resetTimeoutMs`, then half-open until
`successThreshold` successes in a row or one failure.  The step from open to half-open is taken
when somebody asks for the state.

An operation gives the breaker it leaves and the states it moved to, which its listeners see.

* `isOpen_onSuccess`, `isOpen_onFailure`: when the breaker is open after an outcome was recorded.
* `needed_record`: an outcome brings it at most one success closer to being closed.
-/

namespace Declaragent.Events

theorem five_pos : 0 < 5 := by decide

/-- What the constructor makes of its options. -/
structure CircuitBreakerOptions where
  failureThreshold : { n : Nat // 0 < n } := ⟨5, five_pos⟩
  successThreshold : { n : Nat // 0 < n } := ⟨1, Nat.one_pos⟩
  resetTimeoutMs : Nat := 30000

/-- An open breaker knows when it opened. -/
inductive CircuitBreakerState where
  | closed
  | opened (openedAt : Int)
  | halfOpen
  deriving DecidableEq

def CircuitBreakerState.name : CircuitBreakerState → String
  | .closed => "closed"
  | .opened _ => "open"
  | .halfOpen => "half-open"

structure CircuitBreaker where
  state : CircuitBreakerState := .closed
  consecutiveFailures : Nat := 0
  consecutiveSuccesses : Nat := 0
  deriving DecidableEq

namespace CircuitBreaker

variable (opts : CircuitBreakerOptions) (b : CircuitBreaker) (now : Int)

/-- The `state` getter. -/
def advance : CircuitBreaker × List CircuitBreakerState :=
  match b.state with
  | .opened openedAt =>
    if (opts.resetTimeoutMs : Int) ≤ now - openedAt then
      ({ b with state := .halfOpen }, [.halfOpen])
    else (b, [])
  | .closed | .halfOpen => (b, [])

def allow : CircuitBreaker × List CircuitBreakerState × Bool :=
  let (b, moves) := advance opts b now
  (b, moves, match b.state with
    | .closed | .halfOpen => true
    | .opened _ => false)

/-- Force the breaker closed. -/
def reset : CircuitBreaker × List CircuitBreakerState :=
  ({}, match b.state with
    | .closed => []
    | .opened _ | .halfOpen => [.closed])

def onSuccess : CircuitBreaker × List CircuitBreakerState :=
  let (b, moves) := advance opts b now
  match b.state with
  | .halfOpen =>
    let b := { b with
      consecutiveSuccesses := b.consecutiveSuccesses + 1
      consecutiveFailures := 0 }
    if opts.successThreshold.1 ≤ b.consecutiveSuccesses then
      (b.reset.1, moves ++ b.reset.2)
    else (b, moves)
  | .closed | .opened _ => ({ b with consecutiveFailures := 0, consecutiveSuccesses := 0 }, moves)

def onFailure : CircuitBreaker × List CircuitBreakerState :=
  let (b, moves) := advance opts b now
  match b.state with
  | .halfOpen =>
    ({ state := .opened now
       consecutiveSuccesses := 0
       consecutiveFailures := b.consecutiveFailures + 1 }, moves ++ [.opened now])
  | .opened _ => (b, moves)
  | .closed =>
    let b := { b with
      consecutiveFailures := b.consecutiveFailures + 1
      consecutiveSuccesses := 0 }
    if opts.failureThreshold.1 ≤ b.consecutiveFailures then
      ({ b with state := .opened now }, moves ++ [.opened now])
    else (b, moves)

/-- Record the outcome of a protected call. -/
def record (success : Bool) : CircuitBreaker × List CircuitBreakerState :=
  if success then onSuccess opts b now else onFailure opts b now

/-! ### The operations, by the state they find -/

variable {opts b now}

/-- Asking for the state neither closes a breaker nor counts. -/
theorem advance_counts (opts : CircuitBreakerOptions) (b : CircuitBreaker) (now : Int) :
    (advance opts b now).1.consecutiveFailures = b.consecutiveFailures ∧
    (advance opts b now).1.consecutiveSuccesses = b.consecutiveSuccesses ∧
    ((advance opts b now).1.state = .closed ↔ b.state = .closed) := by
  unfold advance
  cases hb : b.state with
  | closed => simp [hb]
  | halfOpen => simp [hb]
  | opened openedAt =>
    dsimp only
    split <;> simp [hb]

theorem onSuccess_of_halfOpen (h : (advance opts b now).1.state = .halfOpen) :
    onSuccess opts b now =
      if opts.successThreshold.1 ≤ b.consecutiveSuccesses + 1 then
        ({}, (advance opts b now).2 ++ [.closed])
      else
        (⟨.halfOpen, 0, b.consecutiveSuccesses + 1⟩, (advance opts b now).2) := by
  simp only [onSuccess, h, reset, (advance_counts opts b now).2.1]

theorem onSuccess_of_ne (h : (advance opts b now).1.state ≠ .halfOpen) :
    onSuccess opts b now = (⟨(advance opts b now).1.state, 0, 0⟩, (advance opts b now).2) := by
  unfold onSuccess
  cases hb : (advance opts b now).1.state with
  | closed => simp [hb]
  | opened openedAt => simp [hb]
  | halfOpen => exact absurd hb h

theorem onFailure_of_halfOpen (h : (advance opts b now).1.state = .halfOpen) :
    onFailure opts b now =
      (⟨.opened now, b.consecutiveFailures + 1, 0⟩, (advance opts b now).2 ++ [.opened now]) := by
  simp only [onFailure, h, (advance_counts opts b now).1]

theorem onFailure_of_opened {openedAt : Int} (h : (advance opts b now).1.state = .opened openedAt) :
    onFailure opts b now = advance opts b now := by
  simp only [onFailure, h]

theorem onFailure_of_closed (h : (advance opts b now).1.state = .closed) :
    onFailure opts b now =
      if opts.failureThreshold.1 ≤ b.consecutiveFailures + 1 then
        (⟨.opened now, b.consecutiveFailures + 1, 0⟩, (advance opts b now).2 ++ [.opened now])
      else
        (⟨.closed, b.consecutiveFailures + 1, 0⟩, (advance opts b now).2) := by
  simp only [onFailure, h, (advance_counts opts b now).1]

/-! ### When it is open -/

/-- The breaker is open, whether its time is up or not. -/
def IsOpen (b : CircuitBreaker) : Prop := ∃ openedAt, b.state = .opened openedAt

theorem isOpen_advance : (advance opts b now).1.IsOpen ↔
    ∃ openedAt, b.state = .opened openedAt ∧ now - openedAt < opts.resetTimeoutMs := by
  unfold advance IsOpen
  cases hb : b.state with
  | closed => simp [hb]
  | halfOpen => simp [hb]
  | opened openedAt =>
    dsimp only
    split
    · rename_i hup
      simp only [reduceCtorEq, exists_false, CircuitBreakerState.opened.injEq, false_iff]
      rintro ⟨t, rfl, hlt⟩
      omega
    · rename_i hup
      simp only [hb, CircuitBreakerState.opened.injEq, exists_eq', true_iff]
      exact ⟨openedAt, rfl, Int.not_le.mp hup⟩

/-- A success leaves an open breaker open, and opens none. -/
theorem isOpen_onSuccess : (onSuccess opts b now).1.IsOpen ↔ (advance opts b now).1.IsOpen := by
  by_cases h : (advance opts b now).1.state = .halfOpen
  · rw [onSuccess_of_halfOpen h]
    unfold IsOpen
    split <;> simp [h]
  · rw [onSuccess_of_ne h]
    rfl

/-- A failure opens a half-open breaker, and a closed one at the threshold. -/
theorem isOpen_onFailure : (onFailure opts b now).1.IsOpen ↔
    (advance opts b now).1.IsOpen ∨ (advance opts b now).1.state = .halfOpen ∨
      (advance opts b now).1.state = .closed ∧
        opts.failureThreshold.1 ≤ b.consecutiveFailures + 1 := by
  unfold IsOpen
  cases h : (advance opts b now).1.state with
  | opened openedAt => simp [onFailure_of_opened h, h]
  | halfOpen => simp [onFailure_of_halfOpen h]
  | closed =>
    rw [onFailure_of_closed h]
    split <;> rename_i hthreshold <;> simp [hthreshold]

theorem failures_of_onSuccess : (onSuccess opts b now).1.consecutiveFailures = 0 := by
  by_cases h : (advance opts b now).1.state = .halfOpen
  · rw [onSuccess_of_halfOpen h]
    split <;> rfl
  · rw [onSuccess_of_ne h]

theorem failures_of_onFailure (h : (onFailure opts b now).1.state = .closed) :
    b.state = .closed ∧
      (onFailure opts b now).1.consecutiveFailures = b.consecutiveFailures + 1 := by
  obtain ⟨-, -, hclosed⟩ := advance_counts opts b now
  cases hb : (advance opts b now).1.state with
  | opened openedAt =>
    rw [onFailure_of_opened hb, hb] at h
    cases h
  | halfOpen =>
    rw [onFailure_of_halfOpen hb] at h
    cases h
  | closed =>
    refine ⟨hclosed.mp hb, ?_⟩
    rw [onFailure_of_closed hb]
    split <;> rfl

/-! ### How far it is from closed -/

/-- What holds of the successes that a breaker has counted. -/
structure Sound (opts : CircuitBreakerOptions) (b : CircuitBreaker) : Prop where
  opened : b.IsOpen → b.consecutiveSuccesses = 0
  halfOpen : b.state = .halfOpen → b.consecutiveSuccesses < opts.successThreshold.1

/-- The successes that close the breaker, once its time is up. -/
def needed (opts : CircuitBreakerOptions) (b : CircuitBreaker) : Nat :=
  match b.state with
  | .closed => 0
  | .opened _ => opts.successThreshold.1
  | .halfOpen => opts.successThreshold.1 - b.consecutiveSuccesses

/-- How an outcome moves the breaker: it opens, it closes, or no listener is told of either. -/
inductive Moved (b : CircuitBreaker) : CircuitBreaker × List CircuitBreakerState → Prop where
  | opens {b' : CircuitBreaker} (openedAt : Int) (moves : List CircuitBreakerState)
      (hmoves : ∀ move ∈ moves, move = .halfOpen) (h : b'.state = .opened openedAt) :
      Moved b (b', moves ++ [.opened openedAt])
  | closes {b' : CircuitBreaker} (moves : List CircuitBreakerState)
      (hmoves : ∀ move ∈ moves, move = .halfOpen) (h : b'.state = .closed) :
      Moved b (b', moves ++ [.closed])
  | stays {b' : CircuitBreaker} (moves : List CircuitBreakerState)
      (hmoves : ∀ move ∈ moves, move = .halfOpen) (h : b'.state = .closed ↔ b.state = .closed) :
      Moved b (b', moves)

theorem advance_moves (opts : CircuitBreakerOptions) (b : CircuitBreaker) (now : Int) :
    ∀ move ∈ (advance opts b now).2, move = .halfOpen := by
  unfold advance
  split
  · split <;> simp
  · simp
  · simp

theorem moved_record (opts : CircuitBreakerOptions) (b : CircuitBreaker) (now : Int)
    (success : Bool) : Moved b (record opts b now success) := by
  obtain ⟨-, -, hclosed⟩ := advance_counts opts b now
  have hmoves := advance_moves opts b now
  cases success with
  | true =>
    by_cases h : (advance opts b now).1.state = .halfOpen
    · have hne : b.state ≠ .closed := fun e => by
        rw [hclosed.mpr e] at h
        cases h
      rw [record, if_pos rfl, onSuccess_of_halfOpen h]
      split
      · exact .closes _ hmoves rfl
      · exact .stays _ hmoves (iff_of_false nofun hne)
    · rw [record, if_pos rfl, onSuccess_of_ne h]
      exact .stays _ hmoves hclosed
  | false =>
    rw [record, if_neg (by decide)]
    cases h : (advance opts b now).1.state with
    | opened openedAt =>
      rw [onFailure_of_opened h]
      exact .stays _ hmoves hclosed
    | halfOpen =>
      rw [onFailure_of_halfOpen h]
      exact .opens now _ hmoves rfl
    | closed =>
      rw [onFailure_of_closed h]
      split
      · exact .opens now _ hmoves rfl
      · exact .stays _ hmoves ⟨fun _ => hclosed.mp h, fun _ => rfl⟩

/-- Half-open is what an open breaker is to whoever asks once its time is up. -/
theorem needed_of_halfOpen (hs : b.Sound opts) (h : (advance opts b now).1.state = .halfOpen) :
    b.needed opts = opts.successThreshold.1 - b.consecutiveSuccesses ∧
      b.consecutiveSuccesses < opts.successThreshold.1 := by
  obtain ⟨-, -, hclosed⟩ := advance_counts opts b now
  unfold needed
  cases hb : b.state with
  | closed =>
    rw [hclosed.mpr hb] at h
    cases h
  | opened openedAt =>
    have hzero := hs.opened ⟨openedAt, hb⟩
    rw [hzero]
    exact ⟨rfl, opts.successThreshold.2⟩
  | halfOpen => exact ⟨rfl, hs.halfOpen hb⟩

/-- A success brings a breaker whose time is up one step closer to closed. -/
theorem needed_onSuccess (hs : b.Sound opts) (h : (advance opts b now).1.state = .halfOpen) :
    (onSuccess opts b now).1.needed opts + 1 = b.needed opts ∧
      ¬ (onSuccess opts b now).1.IsOpen := by
  obtain ⟨hneeded, hlt⟩ := needed_of_halfOpen hs h
  rw [hneeded, onSuccess_of_halfOpen h]
  split
  · refine ⟨?_, nofun⟩
    simp only [needed]
    omega
  · refine ⟨?_, nofun⟩
    simp only [needed]
    omega

theorem needed_of_isOpen (h : b.IsOpen) : b.needed opts = opts.successThreshold.1 := by
  obtain ⟨openedAt, hb⟩ := h
  simp [needed, hb]

theorem needed_le (opts : CircuitBreakerOptions) (b : CircuitBreaker) :
    b.needed opts ≤ opts.successThreshold.1 := by
  unfold needed
  split
  · exact Nat.zero_le _
  · exact Nat.le_refl _
  · exact Nat.sub_le _ _

theorem Sound.record (hs : b.Sound opts) (now : Int) (success : Bool) :
    (record opts b now success).1.Sound opts := by
  obtain ⟨-, hsuccesses, -⟩ := advance_counts opts b now
  cases success with
  | true =>
    by_cases h : (advance opts b now).1.state = .halfOpen
    · rw [CircuitBreaker.record, if_pos rfl, onSuccess_of_halfOpen h]
      split
      · exact ⟨fun _ => rfl, nofun⟩
      · rename_i hlt
        exact ⟨nofun, fun _ => Nat.lt_of_not_le hlt⟩
    · rw [CircuitBreaker.record, if_pos rfl, onSuccess_of_ne h]
      exact ⟨fun _ => rfl, fun e => absurd e h⟩
  | false =>
    rw [CircuitBreaker.record, if_neg (by decide)]
    cases h : (advance opts b now).1.state with
    | opened openedAt =>
      rw [onFailure_of_opened h]
      refine ⟨fun _ => ?_, fun e => ?_⟩
      · obtain ⟨openedAt', hb, -⟩ := isOpen_advance.mp ⟨openedAt, h⟩
        rw [hsuccesses]
        exact hs.opened ⟨openedAt', hb⟩
      · rw [h] at e
        cases e
    | halfOpen =>
      rw [onFailure_of_halfOpen h]
      exact ⟨fun _ => rfl, nofun⟩
    | closed =>
      rw [onFailure_of_closed h]
      split
      · exact ⟨fun _ => rfl, nofun⟩
      · exact ⟨nofun, nofun⟩

/-- **An outcome takes one success at most** off what a breaker needs. -/
theorem needed_record (hs : b.Sound opts) (hb : b.state ≠ .closed) (now : Int) (success : Bool) :
    b.needed opts ≤ (CircuitBreaker.record opts b now success).1.needed opts + 1 := by
  obtain ⟨-, -, hclosed⟩ := advance_counts opts b now
  have hle := needed_le opts b
  cases h : (advance opts b now).1.state with
  | closed => exact absurd (hclosed.mp h) hb
  | opened openedAt =>
    -- still open, so all successes are still to come
    have hopen : (CircuitBreaker.record opts b now success).1.IsOpen := by
      cases success with
      | true => exact isOpen_onSuccess.mpr ⟨openedAt, h⟩
      | false => exact isOpen_onFailure.mpr (.inl ⟨openedAt, h⟩)
    rw [needed_of_isOpen hopen]
    omega
  | halfOpen =>
    cases success with
    | true => exact Nat.le_of_eq (needed_onSuccess hs h).1.symm
    | false =>
      have hopen : (CircuitBreaker.record opts b now false).1.IsOpen :=
        isOpen_onFailure.mpr (.inr (.inl h))
      rw [needed_of_isOpen hopen]
      omega

end CircuitBreaker

end Declaragent.Events
