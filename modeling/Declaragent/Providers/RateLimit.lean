import Declaragent.Library.Metering
import Declaragent.Library.Transition
import Mathlib.Data.Rat.Floor

/-!
# Providers — the token bucket of a provider

A caller takes a token, or sleeps until there should be one and takes it then, whatever has become
of it meanwhile: where others took it first, the bucket is left empty and the caller goes on.

Any number of callers share a bucket.  Between its readings of the clock a call is not interrupted,
and the clock does not go back.  Times are in milliseconds, and tokens are exact; a bucket that is
filled at an infinite rate holds nobody up and is left out.

* `takes_conform`: what a bucket grants is paced, in the runs in which no caller that slept wakes to
  less than a token.
* `overlapping_sleepers`: two callers that slept for the same token are both granted one.
-/

namespace Declaragent.Providers
open Metering Transition

structure ProviderTokenBucketOptions where
  ratePerSec : ℚ
  burst : Option ℚ := none

structure ProviderTokenBucket where
  ratePerSec : { rate : ℚ // 0 < rate }
  burst : { burst : ℚ // 1 ≤ burst }
  tokens : ℚ
  lastRefillMs : ℚ

namespace ProviderTokenBucket

/-- The constructor, which throws unless the rate is positive. -/
def create (options : ProviderTokenBucketOptions) (now : ℚ) : Except String ProviderTokenBucket :=
  if h : 0 < options.ratePerSec then
    let burst := max 1 (options.burst.getD options.ratePerSec)
    .ok
      { ratePerSec := ⟨options.ratePerSec, h⟩
        burst := ⟨burst, le_max_left _ _⟩
        tokens := burst
        lastRefillMs := now }
  else .error "TokenBucket requires ratePerSec > 0"

variable (b : ProviderTokenBucket) (now : ℚ)

def refill : ProviderTokenBucket :=
  let elapsedMs := max 0 (now - b.lastRefillMs)
  if elapsedMs = 0 then b
  else
    let added := elapsedMs / 1000 * b.ratePerSec
    { b with
      tokens := min b.burst (b.tokens + added)
      lastRefillMs := now }

/-- `take()` up to its end, or to its sleep of so many milliseconds. -/
def take : ProviderTokenBucket × Option Int :=
  let b := b.refill now
  if 1 ≤ b.tokens then ({ b with tokens := b.tokens - 1 }, none)
  else (b, some ⌈(1 - b.tokens) / b.ratePerSec * 1000⌉)

/-- `take()` after its sleep. -/
def takeSlept : ProviderTokenBucket :=
  let b := b.refill now
  { b with tokens := max 0 (b.tokens - 1) }

def tryTake : ProviderTokenBucket × Bool :=
  let b := b.refill now
  if 1 ≤ b.tokens then ({ b with tokens := b.tokens - 1 }, true) else (b, false)

end ProviderTokenBucket

/-! ### The callers of a bucket -/

/-- The bucket, the last reading of the clock, when the sleeping callers are due, and when takes
were granted. -/
structure Callers where
  bucket : ProviderTokenBucket
  clock : ℚ
  due : List ℚ := []
  granted : List ℚ := []

inductive Call where
  | takes
  | wakes (sleeper : Nat)
  | triesToTake
  /-- `available` is read. -/
  | reads

def noCallers (bucket : ProviderTokenBucket) : Callers :=
  { bucket, clock := bucket.lastRefillMs }

/-- A token was taken, or there is none. -/
def Callers.tried (s : Callers) (now : ℚ) : ProviderTokenBucket × Bool → Callers
  | (bucket, true) => { s with bucket, clock := now, granted := s.granted ++ [now] }
  | (bucket, false) => { s with bucket, clock := now }

/-- A token was taken, or its caller sleeps. -/
def Callers.took (s : Callers) (now : ℚ) : ProviderTokenBucket × Option Int → Callers
  | (bucket, none) => s.tried now (bucket, true)
  | (bucket, some waitMs) => { s with bucket, clock := now, due := s.due ++ [now + waitMs] }

/-- What is done at a reading of the clock. -/
def Callers.call (s : Callers) (now : ℚ) : Call → Option Callers
  | .takes => some (s.took now (s.bucket.take now))
  | .wakes sleeper =>
    match s.due[sleeper]? with
    | some due =>
      if due ≤ now then
        some
          { bucket := s.bucket.takeSlept now
            clock := now
            due := s.due.eraseIdx sleeper
            granted := s.granted ++ [now] }
      else none
    | none => none
  | .triesToTake => some (s.tried now (s.bucket.tryTake now))
  | .reads => some { s with bucket := s.bucket.refill now, clock := now }

def callStep (s : Callers) (a : Call × ℚ) : Option Callers :=
  if s.clock ≤ a.2 then s.call a.2 a.1 else none

def Call.slept : Call → Bool
  | .wakes _ => true
  | .takes | .triesToTake | .reads => false

/-- A caller that slept finds a token. -/
def FindsToken (s : Callers) (a : Call × ℚ) : Prop :=
  a.1.slept = true → 1 ≤ (s.bucket.refill a.2).tokens

instance (s : Callers) (a : Call × ℚ) : Decidable (FindsToken s a) :=
  inferInstanceAs (Decidable (_ → _))

/-- What was granted is paced by the bucket; its rate is by the second. -/
def Callers.Paced (s : Callers) : Prop :=
  Conforms s.bucket.burst (s.bucket.ratePerSec / 1000) s.granted

/-! ### What a call does -/

/-- The bucket was filled at the last reading of the clock. -/
structure Callers.Kept (s : Callers) : Prop where
  current : s.bucket.lastRefillMs = s.clock
  low : s.bucket.tokens ≤ s.bucket.burst
  metered : Metered s.bucket.burst (s.bucket.ratePerSec / 1000) s.bucket.tokens s.clock s.granted

variable {s t : Callers} {b : ProviderTokenBucket} {now : ℚ}

@[simp] theorem refill_burst (b : ProviderTokenBucket) (now : ℚ) :
    (b.refill now).burst = b.burst := by
  unfold ProviderTokenBucket.refill
  dsimp only
  split <;> rfl

@[simp] theorem refill_ratePerSec (b : ProviderTokenBucket) (now : ℚ) :
    (b.refill now).ratePerSec = b.ratePerSec := by
  unfold ProviderTokenBucket.refill
  dsimp only
  split <;> rfl

/-- What flows in since the last reading, up to a full bucket. -/
theorem refill_spec (hlow : b.tokens ≤ b.burst) (hnow : b.lastRefillMs ≤ now) :
    (b.refill now).lastRefillMs = now ∧ (b.refill now).tokens ≤ b.burst ∧
      (b.refill now).tokens ≤ b.tokens + b.ratePerSec / 1000 * (now - b.lastRefillMs) := by
  have helapsed : max 0 (now - b.lastRefillMs) = now - b.lastRefillMs :=
    max_eq_right (sub_nonneg.mpr hnow)
  unfold ProviderTokenBucket.refill
  dsimp only
  rw [helapsed]
  split
  · rename_i hzero
    rw [hzero, mul_zero, add_zero]
    exact ⟨(sub_eq_zero.mp hzero).symm, hlow, le_refl _⟩
  · refine ⟨rfl, min_le_left _ _, (min_le_right _ _).trans (le_of_eq ?_)⟩
    ring

theorem take_of_le (h : 1 ≤ (b.refill now).tokens) :
    b.take now = ({ b.refill now with tokens := (b.refill now).tokens - 1 }, none) :=
  if_pos h

theorem take_of_not_le (h : ¬ 1 ≤ (b.refill now).tokens) :
    b.take now = (b.refill now, some ⌈(1 - (b.refill now).tokens) / b.ratePerSec * 1000⌉) := by
  rw [← refill_ratePerSec b now]
  exact if_neg h

theorem tryTake_of_le (h : 1 ≤ (b.refill now).tokens) :
    b.tryTake now = ({ b.refill now with tokens := (b.refill now).tokens - 1 }, true) :=
  if_pos h

theorem tryTake_of_not_le (h : ¬ 1 ≤ (b.refill now).tokens) :
    b.tryTake now = (b.refill now, false) :=
  if_neg h

theorem rate_nonneg (b : ProviderTokenBucket) : 0 ≤ (b.ratePerSec : ℚ) / 1000 :=
  div_nonneg b.ratePerSec.2.le (by norm_num)

/-- The bucket after a reading of the clock. -/
theorem Callers.Kept.refill (h : s.Kept) (hnow : s.clock ≤ now) :
    ({ s with bucket := s.bucket.refill now, clock := now } : Callers).Kept := by
  obtain ⟨hcurrent, hfull, hflow⟩ := refill_spec h.low (h.current.trans_le hnow)
  refine ⟨hcurrent, by simpa using hfull, ?_⟩
  simp only [refill_burst, refill_ratePerSec]
  exact h.metered.refill (rate_nonneg _) hnow (by rwa [h.current] at hflow) hfull

/-- A token is taken that is there. -/
theorem Callers.Kept.grant (h : s.Kept) (hnow : s.clock ≤ now) {tokens : ℚ} {due : List ℚ}
    (htoken : 1 ≤ (s.bucket.refill now).tokens)
    (htokens : tokens = (s.bucket.refill now).tokens - 1) :
    ({ bucket := { s.bucket.refill now with tokens }
       clock := now
       due
       granted := s.granted ++ [now] } : Callers).Kept := by
  obtain ⟨hcurrent, hlow, hmetered⟩ := h.refill hnow
  refine ⟨hcurrent, ?_, hmetered.grant (rate_nonneg _) htoken htokens.le⟩
  have hless : tokens ≤ (s.bucket.refill now).tokens := by linarith
  exact hless.trans hlow

theorem Callers.Kept.step {a : Call × ℚ} (h : s.Kept) (htoken : FindsToken s a)
    (hstep : callStep s a = some t) : t.Kept := by
  obtain ⟨call, now⟩ := a
  rw [callStep] at hstep
  split at hstep
  swap
  · cases hstep
  rename_i hnow
  have hrefill := h.refill hnow
  cases call with
  | takes =>
    rw [← Option.some.inj hstep]
    by_cases htokens : 1 ≤ (s.bucket.refill now).tokens
    · rw [take_of_le htokens]
      exact h.grant hnow htokens rfl
    · rw [take_of_not_le htokens]
      exact ⟨hrefill.current, hrefill.low, hrefill.metered⟩
  | wakes sleeper =>
    have htokens := htoken rfl
    rw [Callers.call] at hstep
    split at hstep
    · split at hstep
      · rw [← Option.some.inj hstep]
        exact h.grant hnow htokens (max_eq_right (sub_nonneg.mpr htokens))
      · cases hstep
    · cases hstep
  | triesToTake =>
    rw [← Option.some.inj hstep]
    by_cases htokens : 1 ≤ (s.bucket.refill now).tokens
    · rw [tryTake_of_le htokens]
      exact h.grant hnow htokens rfl
    · rw [tryTake_of_not_le htokens]
      exact hrefill
  | reads =>
    rw [← Option.some.inj hstep]
    exact hrefill

/-- A bucket that was just made is full. -/
theorem kept_noCallers {options : ProviderTokenBucketOptions}
    (h : ProviderTokenBucket.create options now = .ok b) : (noCallers b).Kept := by
  unfold ProviderTokenBucket.create at h
  split at h
  · rw [← Except.ok.inj h]
    refine ⟨rfl, le_refl _, Metered.full ?_ (rate_nonneg _) _⟩
    exact zero_le_one.trans (le_max_left _ _)
  · cases h

/-- **What a bucket grants is paced** where no caller that slept wakes to less than a token. -/
theorem takes_conform {options : ProviderTokenBucketOptions}
    (h : ProviderTokenBucket.create options now = .ok b) {calls : List (Call × ℚ)}
    (r : Run callStep FindsToken (noCallers b) calls s) : s.Paced :=
  (r.invariant (kept_noCallers h) fun _ _ _ hs htoken hstep => hs.step htoken hstep).metered.conforms

/-- One token, and one more each second. -/
def oneEachSecond : ProviderTokenBucket where
  ratePerSec := ⟨1, one_pos⟩
  burst := ⟨1, le_refl 1⟩
  tokens := 1
  lastRefillMs := 0

theorem create_oneEachSecond :
    ProviderTokenBucket.create { ratePerSec := 1 } 0 = .ok oneEachSecond := by
  rw [ProviderTokenBucket.create, dif_pos one_pos]
  simp [oneEachSecond]

/-- A caller sleeps until its token is there. -/
theorem takes_conform_slept : ∃ s : Callers, s.granted = [0, 1000] ∧ s.Paced := by
  have hreplay : (exec (guarded callStep FindsToken) (noCallers oneEachSecond)
      [(.takes, 0), (.takes, 0), (.wakes 0, 1000)]).any
        (fun s => decide (s.granted = [0, 1000])) = true := by
    decide +kernel
  obtain ⟨s, r, h⟩ := Run.of_replay hreplay
  exact ⟨s, of_decide_eq_true h, takes_conform create_oneEachSecond r⟩

/-- **Two callers that slept for the same token** are granted one each, at the same time. -/
theorem overlapping_sleepers :
    ¬ ∀ options now b, ProviderTokenBucket.create options now = .ok b →
      ∀ calls s, Run callStep Any (noCallers b) calls s → s.Paced := by
  intro h
  have hreplay : (exec callStep (noCallers oneEachSecond)
      [(.takes, 0), (.takes, 0), (.takes, 0), (.wakes 0, 1000), (.wakes 0, 1000)]).any
        (fun s => decide (s.granted = [0, 1000, 1000] ∧ s.bucket.burst.1 = 1)) = true := by
    decide +kernel
  obtain ⟨s, r, hs⟩ := Run.any_of_replay hreplay
  obtain ⟨hgranted, hburst⟩ := of_decide_eq_true hs
  have hpaced := h _ _ _ create_oneEachSecond _ _ r 1000 1000 (le_refl _)
  rw [hgranted, hburst, sub_self, mul_zero, add_zero] at hpaced
  norm_num [between] at hpaced

end Declaragent.Providers
