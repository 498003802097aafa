import Declaragent.Events.Types
import Declaragent.Library.Metering

/-!
# Events — rate limits by target

Every rule that applies to an event has a bucket, which rules of the same key share.  An event is
let through if each of them holds a token, and then takes one for every rule; the first bucket
without a token denies it.

The clock is read again for every bucket, and may go back: `clock n` is its `n`-th reading.  A
bucket goes by the latest reading that it has seen.  Times are in milliseconds, and tokens are exact.

* `denied_takes_nothing`: an event that is denied takes no token.
* `admitted_conform`: what is let through under a key is paced by its bucket, at the times that the
  bucket goes by.
* `seen_eq_reading`: while the clock does not go back, these are its readings.
-/

namespace Declaragent.Events
open Metering

/-! ### Buckets -/

structure TokenBucketOptions where
  ratePerSec : ℚ
  burst : Option ℚ := none

inductive TokenBucketError where
  | ratePerSec (got : ℚ)
  | burst (got : ℚ)

structure TokenBucket where
  ratePerSec : { rate : ℚ // 0 < rate }
  burst : { burst : ℚ // 1 ≤ burst }
  tokens : ℚ
  lastRefillAt : ℚ

namespace TokenBucket

/-- The constructor, which throws unless the rate and the burst are large enough. -/
def create (options : TokenBucketOptions) (now : ℚ) : Except TokenBucketError TokenBucket :=
  let burst := options.burst.getD options.ratePerSec
  if hrate : 0 < options.ratePerSec then
    if hburst : 1 ≤ burst then
      .ok
        { ratePerSec := ⟨options.ratePerSec, hrate⟩
          burst := ⟨burst, hburst⟩
          tokens := burst
          lastRefillAt := now }
    else .error (.burst burst)
  else .error (.ratePerSec options.ratePerSec)

variable (b : TokenBucket) (now : ℚ)

def refill : TokenBucket :=
  let elapsed := now - b.lastRefillAt
  if elapsed ≤ 0 then b
  else
    let add := elapsed / 1000 * b.ratePerSec
    { b with
      tokens := min b.burst (b.tokens + add)
      lastRefillAt := now }

def spend (cost : ℚ) : TokenBucket := { b with tokens := b.tokens - cost }

/-- A bucket that lacks a billionth of a token at most has it. -/
def tryTake (cost : ℚ) : TokenBucket × Bool :=
  let b := b.refill now
  if b.tokens + 1 / 1000000000 < cost then (b, false) else (b.spend cost, true)

end TokenBucket

/-! ### Rules -/

inductive EventTargetType where
  | session | newSession | skill | subAgent | broadcast
  deriving DecidableEq

def EventTargetType.name : EventTargetType → String
  | .session => "session"
  | .newSession => "new-session"
  | .skill => "skill"
  | .subAgent => "sub-agent"
  | .broadcast => "broadcast"

def targetType : EventTarget → EventTargetType
  | .session .. => .session
  | .newSession .. => .newSession
  | .skill .. => .skill
  | .subAgent .. => .subAgent
  | .broadcast => .broadcast

/-- A rule for one type of targets, or for every type. -/
structure RateLimitRule where
  target : Option EventTargetType
  id : Option String := none
  ratePerSec : ℚ
  burst : Option ℚ := none

def RateLimitRule.targetName (rule : RateLimitRule) : String :=
  match rule.target with
  | none => "*"
  | some type => type.name

def ruleKey (rule : RateLimitRule) : String :=
  match rule.id with
  | none => rule.targetName
  | some id => rule.targetName ++ ":" ++ id

def targetIdentity : EventTarget → Option String
  | .session sessionId _ => some sessionId
  | .skill name _ _ => some name
  | .subAgent parentSessionId _ => some parentSessionId
  | .broadcast | .newSession .. => none

def RateLimitRule.applies (rule : RateLimitRule) (target : EventTarget) : Bool :=
  (rule.target = none || rule.target = some (targetType target)) &&
    (rule.id = none || rule.id = targetIdentity target)

/-! ### The limiter -/

inductive RateLimitDecision where
  | allowed
  | denied (byKey : String) (byRule : RateLimitRule)

/-- The buckets by their keys, and how often the clock was read. -/
structure PerTargetRateLimiter where
  buckets : String → Option TokenBucket := fun _ => none
  readings : Nat := 0

/-- A token that was taken: at which reading of the clock, and at which the bucket went by. -/
structure Taken where
  reading : ℚ
  seen : ℚ

namespace PerTargetRateLimiter

variable (clock : Nat → ℚ)

def now (l : PerTargetRateLimiter) : ℚ := clock l.readings

/-- The clock was read, and a bucket is as it is then. -/
def store (l : PerTargetRateLimiter) (key : String) (b : TokenBucket) : PerTargetRateLimiter where
  buckets := fun k => if k = key then some b else l.buckets k
  readings := l.readings + 1

def bucketFor (l : PerTargetRateLimiter) (rule : RateLimitRule) :
    Except TokenBucketError (TokenBucket × PerTargetRateLimiter) :=
  match l.buckets (ruleKey rule) with
  | some b => .ok (b, l)
  | none =>
    match TokenBucket.create ⟨rule.ratePerSec, rule.burst⟩ (l.now clock) with
    | .ok b => .ok (b, l.store (ruleKey rule) b)
    | .error err => .error err

/-- The first rule whose bucket has no token. -/
def exhausted (l : PerTargetRateLimiter) :
    List RateLimitRule → PerTargetRateLimiter × Except TokenBucketError (Option RateLimitRule)
  | [] => (l, .ok none)
  | rule :: rules =>
    match l.bucketFor clock rule with
    | .error err => (l, .error err)
    | .ok (b, l) =>
      let b := b.refill (l.now clock)
      let l := l.store (ruleKey rule) b
      if b.tokens < 1 then (l, .ok (some rule)) else l.exhausted rules

/-- A token is taken for each rule. -/
def takeAll (l : PerTargetRateLimiter) :
    List RateLimitRule → PerTargetRateLimiter × Except TokenBucketError (List (String × Taken))
  | [] => (l, .ok [])
  | rule :: rules =>
    match l.bucketFor clock rule with
    | .error err => (l, .error err)
    | .ok (b, l) =>
      let reading := l.now clock
      let b := (b.tryTake reading 1).1
      match (l.store (ruleKey rule) b).takeAll rules with
      | (l, .ok taken) => (l, .ok ((ruleKey rule, ⟨reading, b.lastRefillAt⟩) :: taken))
      | (l, .error err) => (l, .error err)

/-- What becomes of an event, with the tokens that it takes. -/
def allow (rules : List RateLimitRule) (l : PerTargetRateLimiter) (target : EventTarget) :
    PerTargetRateLimiter × Except TokenBucketError (RateLimitDecision × List (String × Taken)) :=
  let found := rules.filter (·.applies target)
  match l.exhausted clock found with
  | (l, .error err) => (l, .error err)
  | (l, .ok (some rule)) => (l, .ok (.denied (ruleKey rule) rule, []))
  | (l, .ok none) =>
    match l.takeAll clock found with
    | (l, .error err) => (l, .error err)
    | (l, .ok taken) => (l, .ok (.allowed, taken))

end PerTargetRateLimiter

/-- The limiter, and under each key the events that were let through: an event counts once under a
key, with the first token that it took. -/
structure Traffic where
  limiter : PerTargetRateLimiter := {}
  admitted : String → List Taken := fun _ => []

def Traffic.event (rules : List RateLimitRule) (clock : Nat → ℚ) (s : Traffic)
    (target : EventTarget) : Traffic :=
  match s.limiter.allow clock rules target with
  | (limiter, .ok (_, taken)) =>
    { limiter, admitted := fun key => s.admitted key ++ (taken.lookup key).toList }
  | (limiter, .error _) => { s with limiter }

def runEvents (rules : List RateLimitRule) (clock : Nat → ℚ) (events : List EventTarget) :
    Traffic :=
  events.foldl (Traffic.event rules clock) {}

/-! ### What becomes of a bucket -/

/-- The bucket holds no more than it can. -/
def TokenBucket.Sound (b : TokenBucket) : Prop := b.tokens ≤ b.burst

/-- The bucket later on: it was filled in the course of time, and tokens may have been taken. -/
structure Drained (b b' : TokenBucket) : Prop where
  ratePerSec : b'.ratePerSec = b.ratePerSec
  burst : b'.burst = b.burst
  later : b.lastRefillAt ≤ b'.lastRefillAt
  sound : b'.Sound
  flow : b'.tokens ≤ b.tokens + b.ratePerSec / 1000 * (b'.lastRefillAt - b.lastRefillAt)

/-- The bucket later on, with all its tokens. -/
structure Refilled (b b' : TokenBucket) : Prop extends Drained b b' where
  keeps : b.tokens ≤ b'.tokens

variable {b b' b'' : TokenBucket} {now : ℚ}

/-- A new bucket is full. -/
theorem of_create {options : TokenBucketOptions} (h : TokenBucket.create options now = .ok b) :
    b.tokens = b.burst ∧ (b.ratePerSec : ℚ) = options.ratePerSec ∧
      (b.burst : ℚ) = options.burst.getD options.ratePerSec ∧ b.lastRefillAt = now := by
  unfold TokenBucket.create at h
  dsimp only at h
  split at h
  · split at h
    · rw [← Except.ok.inj h]
      exact ⟨rfl, rfl, rfl, rfl⟩
    · cases h
  · cases h

theorem rate_nonneg (b : TokenBucket) : 0 ≤ (b.ratePerSec : ℚ) / 1000 :=
  div_nonneg b.ratePerSec.2.le (by norm_num)

theorem Drained.refl (h : b.Sound) : Drained b b :=
  ⟨rfl, rfl, le_refl _, h, by rw [sub_self, mul_zero, add_zero]⟩

theorem Drained.trans (h : Drained b b') (h' : Drained b' b'') : Drained b b'' := by
  refine ⟨h'.ratePerSec.trans h.ratePerSec, h'.burst.trans h.burst, h.later.trans h'.later,
    h'.sound, ?_⟩
  have hflow := h'.flow
  rw [h.ratePerSec] at hflow
  have hsum : (b.ratePerSec : ℚ) / 1000 * (b''.lastRefillAt - b.lastRefillAt) =
      b.ratePerSec / 1000 * (b'.lastRefillAt - b.lastRefillAt) +
        b.ratePerSec / 1000 * (b''.lastRefillAt - b'.lastRefillAt) := by ring
  linarith [h.flow]

theorem Refilled.refl (h : b.Sound) : Refilled b b := ⟨Drained.refl h, le_refl _⟩

theorem Refilled.trans (h : Refilled b b') (h' : Refilled b' b'') : Refilled b b'' :=
  ⟨h.toDrained.trans h'.toDrained, h.keeps.trans h'.keeps⟩

/-- The tokens that are left pay for nothing that was granted before. -/
theorem Drained.metered (h : Drained b b') {grants : List ℚ}
    (hmetered : Metered b.burst (b.ratePerSec / 1000) b.tokens b.lastRefillAt grants) :
    Metered b'.burst (b'.ratePerSec / 1000) b'.tokens b'.lastRefillAt grants := by
  have hsound : b'.tokens ≤ b.burst := h.burst ▸ h.sound
  rw [h.burst, h.ratePerSec]
  exact hmetered.refill (rate_nonneg b) h.later h.flow hsound

theorem refilled_refill (h : b.Sound) (now : ℚ) : Refilled b (b.refill now) := by
  unfold TokenBucket.refill
  dsimp only
  split
  · exact Refilled.refl h
  · rename_i helapsed
    rw [not_le] at helapsed
    have hadd : 0 ≤ (now - b.lastRefillAt) / 1000 * (b.ratePerSec : ℚ) :=
      mul_nonneg (div_nonneg helapsed.le (by norm_num)) b.ratePerSec.2.le
    refine ⟨⟨rfl, rfl, (sub_pos.mp helapsed).le, min_le_left _ _, (min_le_right _ _).trans ?_⟩,
      le_min h (le_add_of_nonneg_right hadd)⟩
    refine le_of_eq ?_
    ring

theorem drained_spend (h : b.Sound) {cost : ℚ} (hcost : 0 ≤ cost) : Drained b (b.spend cost) := by
  have hless : (b.spend cost).tokens ≤ b.tokens := sub_le_self _ hcost
  refine ⟨rfl, rfl, le_refl _, hless.trans h, ?_⟩
  have hnow : (b.spend cost).lastRefillAt - b.lastRefillAt = 0 := sub_self _
  rw [hnow, mul_zero, add_zero]
  exact hless

theorem drained_tryTake (h : b.Sound) (now : ℚ) : Drained b (b.tryTake now 1).1 := by
  have hrefill := (refilled_refill h now).toDrained
  unfold TokenBucket.tryTake
  dsimp only
  split
  · exact hrefill
  · exact hrefill.trans (drained_spend hrefill.sound zero_le_one)

/-- A bucket that holds a token gives it. -/
theorem tryTake_of_one_le (hsound : b.Sound) (h : 1 ≤ b.tokens) (now : ℚ) :
    (b.tryTake now 1).1 = (b.refill now).spend 1 ∧ 1 ≤ (b.refill now).tokens := by
  have htoken := h.trans (refilled_refill hsound now).keeps
  have hthere : ¬ (b.refill now).tokens + 1 / 1000000000 < 1 := by
    rw [not_lt]
    linarith
  exact ⟨congrArg Prod.fst (if_neg hthere), htoken⟩

/-- That token is granted at the time that the bucket then goes by. -/
theorem metered_tryTake (hsound : b.Sound) (h : 1 ≤ b.tokens) (now : ℚ) {grants : List ℚ}
    (hmetered : Metered b.burst (b.ratePerSec / 1000) b.tokens b.lastRefillAt grants) :
    Metered (b.tryTake now 1).1.burst ((b.tryTake now 1).1.ratePerSec / 1000)
      (b.tryTake now 1).1.tokens (b.tryTake now 1).1.lastRefillAt
      (grants ++ [(b.tryTake now 1).1.lastRefillAt]) := by
  obtain ⟨htake, htoken⟩ := tryTake_of_one_le hsound h now
  rw [htake]
  exact ((refilled_refill hsound now).toDrained.metered hmetered).grant (rate_nonneg _) htoken
    (le_refl _)

/-! ### What becomes of the limiter -/

namespace PerTargetRateLimiter

variable {clock : Nat → ℚ} {l l' l'' : PerTargetRateLimiter} {rules : List RateLimitRule}
variable {rule : RateLimitRule}

def AllSound (l : PerTargetRateLimiter) : Prop := ∀ key b, l.buckets key = some b → b.Sound

/-- No bucket has lost a token, and a new one is full. -/
structure Spares (l l' : PerTargetRateLimiter) : Prop where
  keeps : ∀ key b, l.buckets key = some b → ∃ b', l'.buckets key = some b' ∧ Refilled b b'
  full : ∀ key b', l.buckets key = none → l'.buckets key = some b' →
    b'.tokens = b'.burst

theorem Spares.refl (h : l.AllSound) : Spares l l :=
  ⟨fun key b hb => ⟨b, hb, Refilled.refl (h key b hb)⟩, fun key b' hnone hb' => by
    rw [hnone] at hb'
    cases hb'⟩

theorem Spares.trans (h : Spares l l') (h' : Spares l' l'') : Spares l l'' := by
  refine ⟨fun key b hb => ?_, fun key b'' hnone hb'' => ?_⟩
  · obtain ⟨b', hb', hrefill⟩ := h.keeps key b hb
    obtain ⟨b'', hb'', hrefill'⟩ := h'.keeps key b' hb'
    exact ⟨b'', hb'', hrefill.trans hrefill'⟩
  · cases hb' : l'.buckets key with
    | none => exact h'.full key b'' hb' hb''
    | some b' =>
      obtain ⟨b₂, hb₂, hrefill⟩ := h'.keeps key b' hb'
      obtain rfl := Option.some.inj (hb''.symm.trans hb₂)
      have hfull := h.full key b' hnone hb'
      have hburst : (b''.burst : ℚ) = b'.burst := by rw [hrefill.burst]
      exact le_antisymm hrefill.sound (by rw [hburst, ← hfull]; exact hrefill.keeps)

theorem Spares.allSound (h : Spares l l') (hl : l.AllSound) : l'.AllSound := by
  intro key b' hb'
  cases hb : l.buckets key with
  | none => exact (h.full key b' hb hb').le
  | some b =>
    obtain ⟨b₂, hb₂, hrefill⟩ := h.keeps key b hb
    obtain rfl := Option.some.inj (hb'.symm.trans hb₂)
    exact hrefill.sound

@[simp] theorem store_self (l : PerTargetRateLimiter) (key : String) (b : TokenBucket) :
    (l.store key b).buckets key = some b := if_pos rfl

theorem store_of_ne {key key' : String} (h : key' ≠ key) (l : PerTargetRateLimiter)
    (b : TokenBucket) : (l.store key b).buckets key' = l.buckets key' := if_neg h

/-- The bucket of a rule: the one that is there, or a full one of its own. -/
theorem bucketFor_cases {b : TokenBucket} (h : l.bucketFor clock rule = .ok (b, l')) :
    l.buckets (ruleKey rule) = some b ∧ l' = l ∨
      l.buckets (ruleKey rule) = none ∧ l' = l.store (ruleKey rule) b ∧
        b.tokens = b.burst ∧ (b.ratePerSec : ℚ) = rule.ratePerSec ∧
          (b.burst : ℚ) = rule.burst.getD rule.ratePerSec ∧ b.lastRefillAt = l.now clock := by
  unfold bucketFor at h
  split at h
  · rename_i b₀ hb₀
    obtain ⟨rfl, rfl⟩ := Prod.mk.inj (Except.ok.inj h)
    exact .inl ⟨hb₀, rfl⟩
  · rename_i hnone
    split at h
    · rename_i b₀ hcreate
      obtain ⟨rfl, rfl⟩ := Prod.mk.inj (Except.ok.inj h)
      exact .inr ⟨hnone, rfl, of_create hcreate⟩
    · cases h

theorem bucketFor_of_some {b : TokenBucket} (h : l.buckets (ruleKey rule) = some b) :
    l.bucketFor clock rule = .ok (b, l) := by
  unfold bucketFor
  rw [h]

theorem spares_store (hl : l.AllSound) {key : String} {b b' : TokenBucket}
    (hb : l.buckets key = some b) (hrefill : Refilled b b') : Spares l (l.store key b') := by
  refine ⟨fun key' b₀ hb₀ => ?_, fun key' b₀ hnone hb₀ => ?_⟩
  · by_cases hkey : key' = key
    · subst hkey
      obtain rfl := Option.some.inj (hb.symm.trans hb₀)
      exact ⟨b', store_self _ _ _, hrefill⟩
    · exact ⟨b₀, by rw [store_of_ne hkey, hb₀], Refilled.refl (hl _ _ hb₀)⟩
  · by_cases hkey : key' = key
    · subst hkey
      rw [hb] at hnone
      cases hnone
    · rw [store_of_ne hkey, hnone] at hb₀
      cases hb₀

theorem spares_bucketFor {b : TokenBucket} (hl : l.AllSound)
    (h : l.bucketFor clock rule = .ok (b, l')) : Spares l l' := by
  rcases bucketFor_cases h with ⟨-, rfl⟩ | ⟨hnone, rfl, hfull, -⟩
  · exact Spares.refl hl
  · refine ⟨fun key b₀ hb₀ => ?_, fun key b₀ hnone' hb₀ => ?_⟩
    · have hkey : key ≠ ruleKey rule := by
        rintro rfl
        rw [hnone] at hb₀
        cases hb₀
      exact ⟨b₀, by rw [store_of_ne hkey, hb₀], Refilled.refl (hl _ _ hb₀)⟩
    · by_cases hkey : key = ruleKey rule
      · subst hkey
        rw [store_self] at hb₀
        rw [← Option.some.inj hb₀, hfull]
      · rw [store_of_ne hkey, hnone'] at hb₀
        cases hb₀

theorem bucketFor_there {b : TokenBucket} (h : l.bucketFor clock rule = .ok (b, l')) :
    l'.buckets (ruleKey rule) = some b := by
  rcases bucketFor_cases h with ⟨hb, rfl⟩ | ⟨-, rfl, -⟩
  · exact hb
  · exact store_self _ _ _

/-- A look at the bucket of a rule. -/
theorem spares_look {b : TokenBucket} (hl : l.AllSound)
    (h : l.bucketFor clock rule = .ok (b, l')) (now : ℚ) :
    Spares l (l'.store (ruleKey rule) (b.refill now)) := by
  have hspares := spares_bucketFor hl h
  have hl' := hspares.allSound hl
  have hb := bucketFor_there h
  exact hspares.trans (spares_store hl' hb (refilled_refill (hl' _ _ hb) now))

/-- **The first look takes nothing.** -/
theorem spares_exhausted (clock : Nat → ℚ) (rules : List RateLimitRule) :
    ∀ {l : PerTargetRateLimiter}, l.AllSound → Spares l (l.exhausted clock rules).1 := by
  induction rules with
  | nil => exact fun hl => Spares.refl hl
  | cons rule rules ih =>
    intro l hl
    unfold exhausted
    split
    · exact Spares.refl hl
    · rename_i b l' hbucket
      have hspares := spares_look hl hbucket (l'.now clock)
      dsimp only
      split
      · exact hspares
      · exact hspares.trans (ih (hspares.allSound hl))

/-- An event that no bucket denies finds a token in each. -/
theorem exhausted_none (clock : Nat → ℚ) (rules : List RateLimitRule) :
    ∀ {l : PerTargetRateLimiter}, l.AllSound →
    (l.exhausted clock rules).2 = .ok none → ∀ rule ∈ rules, ∃ b,
      (l.exhausted clock rules).1.buckets (ruleKey rule) = some b ∧ 1 ≤ b.tokens := by
  induction rules with
  | nil => exact fun _ _ rule hrule => (by cases hrule)
  | cons first rules ih =>
    intro l hl h
    unfold exhausted at h ⊢
    split at h
    · cases h
    · rename_i b l' hbucket
      have hl' := (spares_look hl hbucket (l'.now clock)).allSound hl
      dsimp only at h ⊢
      by_cases htoken : (b.refill (l'.now clock)).tokens < 1
      · rw [if_pos htoken] at h
        cases h
      · rw [if_neg htoken] at h ⊢
        intro rule hrule
        rcases List.mem_cons.mp hrule with rfl | hrule
        · obtain ⟨b', hb', hrefill⟩ := (spares_exhausted clock rules hl').keeps _ _
            (store_self l' (ruleKey rule) (b.refill (l'.now clock)))
          exact ⟨b', hb', (not_lt.mp htoken).trans hrefill.keeps⟩
        · exact ih hl' h rule hrule

/-! ### What was let through -/

/-- The bucket of a key is that of the first rule with the key. -/
def Own (rules : List RateLimitRule) (key : String) (b : TokenBucket) : Prop :=
  ∃ rule, rules.find? (fun rule => ruleKey rule = key) = some rule ∧
    (b.ratePerSec : ℚ) = rule.ratePerSec ∧ (b.burst : ℚ) = rule.burst.getD rule.ratePerSec

/-- What was let through under each key is metered by its bucket. -/
structure Kept (rules : List RateLimitRule) (l : PerTargetRateLimiter)
    (admitted : String → List ℚ) : Prop where
  sound : l.AllSound
  own : ∀ key b, l.buckets key = some b → Own rules key b
  metered : ∀ key b, l.buckets key = some b →
    Metered b.burst (b.ratePerSec / 1000) b.tokens b.lastRefillAt (admitted key)
  unknown : ∀ key, l.buckets key = none → admitted key = []

variable {admitted : String → List ℚ}

theorem Own.drained {key : String} {b b' : TokenBucket} (h : Own rules key b)
    (hdrained : Drained b b') : Own rules key b' := by
  unfold Own
  rw [hdrained.ratePerSec, hdrained.burst]
  exact h

theorem Kept.spares (h : l.Kept rules admitted) (hspares : Spares l l')
    (hown : ∀ key b, l'.buckets key = some b → Own rules key b) : l'.Kept rules admitted := by
  have hl' := hspares.allSound h.sound
  refine ⟨hl', hown, fun key b' hb' => ?_, fun key hnone' => ?_⟩
  · cases hb : l.buckets key with
    | none =>
      rw [h.unknown key hb, hspares.full key b' hb hb']
      exact Metered.full (zero_le_one.trans b'.burst.2) (rate_nonneg b') _
    | some b =>
      obtain ⟨b₂, hb₂, hrefill⟩ := hspares.keeps key b hb
      obtain rfl := Option.some.inj (hb'.symm.trans hb₂)
      exact hrefill.metered (h.metered key b hb)
  · cases hb : l.buckets key with
    | none => exact h.unknown key hb
    | some b =>
      obtain ⟨b', hb', -⟩ := hspares.keeps key b hb
      rw [hnone'] at hb'
      cases hb'

theorem Kept.store (h : l.Kept rules admitted) {key : String} {b : TokenBucket}
    {grants : List ℚ} (hsound : b.Sound) (hown : Own rules key b)
    (hmetered : Metered b.burst (b.ratePerSec / 1000) b.tokens b.lastRefillAt grants) :
    (l.store key b).Kept rules fun k => if k = key then grants else admitted k := by
  refine ⟨fun k b' hb' => ?_, fun k b' hb' => ?_, fun k b' hb' => ?_, fun k hnone => ?_⟩
  · by_cases hk : k = key
    · subst hk
      rw [store_self] at hb'
      rwa [← Option.some.inj hb']
    · rw [store_of_ne hk] at hb'
      exact h.sound k b' hb'
  · by_cases hk : k = key
    · subst hk
      rw [store_self] at hb'
      rwa [← Option.some.inj hb']
    · rw [store_of_ne hk] at hb'
      exact h.own k b' hb'
  · by_cases hk : k = key
    · subst hk
      rw [store_self] at hb'
      rwa [if_pos rfl, ← Option.some.inj hb']
    · rw [store_of_ne hk] at hb'
      rw [if_neg hk]
      exact h.metered k b' hb'
  · by_cases hk : k = key
    · subst hk
      rw [store_self] at hnone
      cases hnone
    · rw [store_of_ne hk] at hnone
      rw [if_neg hk]
      exact h.unknown k hnone

/-- What a list of taken tokens adds under a key, unless the event was counted already. -/
def added (charged : List String) (taken : List (String × Taken)) (key : String) : List ℚ :=
  if key ∈ charged then [] else (taken.lookup key).toList.map Taken.seen

theorem added_cons_self (charged : List String) (key : String) (t : Taken)
    (taken : List (String × Taken)) :
    added charged ((key, t) :: taken) key = if key ∈ charged then [] else [t.seen] := by
  simp [added]

theorem added_cons_of_ne {key key' : String} (h : key' ≠ key) (charged : List String) (t : Taken)
    (taken : List (String × Taken)) :
    added charged ((key, t) :: taken) key' = added (key :: charged) taken key' := by
  have hne : (key' == key) = false := beq_eq_false_iff_ne.mpr h
  simp only [added, List.lookup_cons, hne, List.mem_cons, h, false_or, Bool.false_eq_true]

/-- What a token taken from a bucket leaves, where the event was counted under its key or not. -/
theorem Kept.take (h : l.Kept rules admitted) {key : String} {b : TokenBucket} (charged : List String)
    (hb : l.buckets key = some b) (htoken : key ∉ charged → 1 ≤ b.tokens) (now : ℚ) :
    (l.store key (b.tryTake now 1).1).Kept rules fun k =>
      if k = key then
        admitted key ++ if key ∈ charged then [] else [(b.tryTake now 1).1.lastRefillAt]
      else admitted k := by
  have hsound := h.sound _ b hb
  have hdrained := drained_tryTake hsound now
  have hown := (h.own _ b hb).drained hdrained
  by_cases hcharged : key ∈ charged
  · rw [if_pos hcharged, List.append_nil]
    exact h.store hdrained.sound hown (hdrained.metered (h.metered key b hb))
  · rw [if_neg hcharged]
    exact h.store hdrained.sound hown
      (metered_tryTake hsound (htoken hcharged) now (h.metered key b hb))

/-- **A token from each bucket**, where all of them have one. -/
theorem takeAll_kept (clock : Nat → ℚ) (found : List RateLimitRule) :
    ∀ {l : PerTargetRateLimiter} {admitted : String → List ℚ} (charged : List String),
      l.Kept rules admitted →
      (∀ rule ∈ found, ∃ b, l.buckets (ruleKey rule) = some b ∧
        (ruleKey rule ∉ charged → 1 ≤ b.tokens)) →
      ∃ l' taken, l.takeAll clock found = (l', .ok taken) ∧
        l'.Kept rules fun key => admitted key ++ added charged taken key := by
  induction found with
  | nil =>
    intro l admitted charged h _
    refine ⟨l, [], rfl, ?_⟩
    have hnothing : (fun key => admitted key ++ added charged [] key) = admitted := by
      funext key
      simp [added]
    rw [hnothing]
    exact h
  | cons rule found ih =>
    intro l admitted charged h htokens
    obtain ⟨b, hb, htoken⟩ := htokens rule List.mem_cons_self
    have hkept := h.take charged hb htoken (l.now clock)
    obtain ⟨l', taken, hrest, hkept'⟩ := ih (ruleKey rule :: charged) hkept fun other hmem => by
      by_cases hkey : ruleKey other = ruleKey rule
      · rw [hkey]
        exact ⟨_, store_self _ _ _, fun hne => absurd List.mem_cons_self hne⟩
      · obtain ⟨b', hb', htoken'⟩ := htokens other (List.mem_cons_of_mem _ hmem)
        exact ⟨b', by rw [store_of_ne hkey, hb'],
          fun hne => htoken' fun hmem' => hne (List.mem_cons_of_mem _ hmem')⟩
    refine ⟨l', (ruleKey rule, ⟨l.now clock, (b.tryTake (l.now clock) 1).1.lastRefillAt⟩) :: taken,
      ?_, ?_⟩
    · simp only [takeAll, bucketFor_of_some hb, hrest]
    · have hsame : ∀ key, admitted key ++ added charged ((ruleKey rule,
          ⟨l.now clock, (b.tryTake (l.now clock) 1).1.lastRefillAt⟩) :: taken) key =
            (if key = ruleKey rule then admitted (ruleKey rule) ++
                if ruleKey rule ∈ charged then []
                else [(b.tryTake (l.now clock) 1).1.lastRefillAt]
              else admitted key) ++ added (ruleKey rule :: charged) taken key := by
        intro key
        by_cases hkey : key = ruleKey rule
        · subst hkey
          have hcounted : added (ruleKey rule :: charged) taken (ruleKey rule) = [] :=
            if_pos List.mem_cons_self
          rw [if_pos rfl, added_cons_self, hcounted, List.append_nil]
        · rw [if_neg hkey, added_cons_of_ne hkey]
      rw [funext hsame]
      exact hkept'

/-- A bucket is made for the first rule with its key. -/
theorem own_exhausted {found : List RateLimitRule}
    (hfirst : ∀ before rule after, found = before ++ rule :: after →
      (∀ earlier ∈ before, ruleKey earlier ≠ ruleKey rule) →
        rules.find? (fun other => ruleKey other = ruleKey rule) = some rule) :
    ∀ (after before : List RateLimitRule) {l : PerTargetRateLimiter}, found = before ++ after →
      l.AllSound → (∀ rule ∈ before, l.buckets (ruleKey rule) ≠ none) →
      (∀ key b, l.buckets key = some b → Own rules key b) →
      ∀ key b, (l.exhausted clock after).1.buckets key = some b → Own rules key b := by
  intro after
  induction after with
  | nil => exact fun _ _ _ _ _ hown => hown
  | cons rule after ih =>
    intro before l hfound hl hthere hown
    unfold exhausted
    split
    · exact hown
    · rename_i b l' hbucket
      have hspares := spares_look hl hbucket (l'.now clock)
      have hb := bucketFor_there hbucket
      have hrefill := refilled_refill ((spares_bucketFor hl hbucket).allSound hl _ b hb)
        (l'.now clock)
      -- the bucket of the rule, and the others
      have hnew : Own rules (ruleKey rule) b ∧
          ∀ key b', l'.buckets key = some b' → Own rules key b' := by
        rcases bucketFor_cases hbucket with ⟨hb', rfl⟩ | ⟨hnone, rfl, -, hrate, hburst, -⟩
        · exact ⟨hown _ b hb', hown⟩
        · have hownRule : Own rules (ruleKey rule) b := by
            refine ⟨rule, hfirst before rule after hfound fun earlier hearlier hkey => ?_, hrate,
              hburst⟩
            exact hthere earlier hearlier (hkey ▸ hnone)
          refine ⟨hownRule, fun key b' hb' => ?_⟩
          by_cases hkey : key = ruleKey rule
          · subst hkey
            rw [store_self] at hb'
            rwa [← Option.some.inj hb']
          · rw [store_of_ne hkey] at hb'
            exact hown key b' hb'
      have hown' : ∀ key b', (l'.store (ruleKey rule) (b.refill (l'.now clock))).buckets key =
          some b' → Own rules key b' := by
        intro key b' hb'
        by_cases hkey : key = ruleKey rule
        · subst hkey
          rw [store_self] at hb'
          rw [← Option.some.inj hb']
          exact hnew.1.drained hrefill.toDrained
        · rw [store_of_ne hkey] at hb'
          exact hnew.2 key b' hb'
      dsimp only
      split
      · exact hown'
      · refine ih (before ++ [rule]) (by rw [hfound, List.append_assoc]; rfl)
          (hspares.allSound hl) (fun other hother => ?_) hown'
        rcases List.mem_append.mp hother with hother | hother
        · obtain ⟨b₀, hb₀⟩ := Option.ne_none_iff_exists'.mp (hthere other hother)
          obtain ⟨b', hb', -⟩ := hspares.keeps _ _ hb₀
          rw [hb']
          exact Option.some_ne_none _
        · rw [List.mem_singleton.mp hother, store_self]
          exact Option.some_ne_none _

end PerTargetRateLimiter

/-! ### Rules with the same key -/

theorem notMem_targetName (rule : RateLimitRule) : ':' ∉ rule.targetName.toList := by
  unfold RateLimitRule.targetName
  cases rule.target with
  | none => decide
  | some type => cases type <;> decide

theorem target_of_targetName {rule rule' : RateLimitRule}
    (h : rule.targetName = rule'.targetName) : rule.target = rule'.target := by
  unfold RateLimitRule.targetName at h
  revert h
  cases rule.target with
  | none =>
    cases rule'.target with
    | none => exact fun _ => rfl
    | some type' => cases type' <;> decide
  | some type =>
    cases rule'.target with
    | none => cases type <;> decide
    | some type' => cases type <;> cases type' <;> decide

/-- What a key has after the name. -/
def idPart (id : Option String) : List Char := (id.map fun id => ':' :: id.toList).getD []

theorem idPart_inj {id id' : Option String} (h : idPart id = idPart id') : id = id' := by
  cases id with
  | none =>
    cases id' with
    | none => rfl
    | some id' => cases h
  | some id =>
    cases id' with
    | none => cases h
    | some id' => rw [String.toList_inj.mp (List.cons.inj h).2]

theorem toList_ruleKey (rule : RateLimitRule) :
    (ruleKey rule).toList = rule.targetName.toList ++ idPart rule.id := by
  unfold ruleKey
  cases rule.id with
  | none => exact (List.append_nil _).symm
  | some id =>
    rw [String.toList_append, String.toList_append, List.append_assoc]
    rfl

/-- A key is read up to its first colon. -/
theorem takeWhile_ruleKey (rule : RateLimitRule) :
    (ruleKey rule).toList.takeWhile (fun c => decide (c ≠ ':')) = rule.targetName.toList := by
  have hname : ∀ c ∈ rule.targetName.toList, decide (c ≠ ':') = true :=
    fun c hc => decide_eq_true fun hcolon => notMem_targetName rule (hcolon ▸ hc)
  have hrest : (idPart rule.id).takeWhile (fun c => decide (c ≠ ':')) = [] := by
    cases rule.id with
    | none => rfl
    | some id => rfl
  rw [toList_ruleKey, List.takeWhile_append_of_pos hname, hrest, List.append_nil]

theorem ruleKey_inj {rule rule' : RateLimitRule} (h : ruleKey rule = ruleKey rule') :
    rule.target = rule'.target ∧ rule.id = rule'.id := by
  have hname : rule.targetName.toList = rule'.targetName.toList := by
    rw [← takeWhile_ruleKey, h, takeWhile_ruleKey]
  have hid : rule.targetName.toList ++ idPart rule.id =
      rule'.targetName.toList ++ idPart rule'.id := by
    rw [← toList_ruleKey, h, toList_ruleKey]
  rw [hname] at hid
  exact ⟨target_of_targetName (String.toList_inj.mp hname), idPart_inj (List.append_cancel_left hid)⟩

theorem applies_congr {rule rule' : RateLimitRule} (h : ruleKey rule = ruleKey rule')
    (target : EventTarget) : rule.applies target = rule'.applies target := by
  obtain ⟨htarget, hid⟩ := ruleKey_inj h
  unfold RateLimitRule.applies
  rw [htarget, hid]

/-- The first rule with a key among those that apply is the first with that key. -/
theorem first_of_applies {rules before after : List RateLimitRule} {rule : RateLimitRule}
    {target : EventTarget}
    (hfound : rules.filter (·.applies target) = before ++ rule :: after)
    (hbefore : ∀ earlier ∈ before, ruleKey earlier ≠ ruleKey rule) :
    rules.find? (fun other => ruleKey other = ruleKey rule) = some rule := by
  have hmem : rule ∈ rules.filter (·.applies target) := by
    rw [hfound]
    exact List.mem_append_right _ List.mem_cons_self
  have happlies := (List.mem_filter.mp hmem).2
  have hfirst : (rules.filter (·.applies target)).find?
      (fun other => ruleKey other = ruleKey rule) = some rule := by
    rw [hfound, List.find?_append, List.find?_eq_none.mpr fun earlier hearlier hkey =>
      hbefore earlier hearlier (of_decide_eq_true hkey), Option.none_or]
    exact List.find?_cons_of_pos (decide_eq_true rfl)
  rw [List.find?_filter] at hfirst
  rw [← hfirst]
  refine congrArg (fun p => List.find? p rules) (funext fun other => ?_)
  by_cases hkey : ruleKey other = ruleKey rule
  · simp [hkey, applies_congr hkey, happlies]
  · simp [hkey]

/-! ### Events -/

/-- What was let through so far is metered, at the times that the buckets go by. -/
def Traffic.Kept (rules : List RateLimitRule) (s : Traffic) : Prop :=
  s.limiter.Kept rules fun key => (s.admitted key).map Taken.seen

open PerTargetRateLimiter

variable {rules : List RateLimitRule} {clock : Nat → ℚ} {s : Traffic} {target : EventTarget}

/-- The first look leaves what is metered as it is. -/
theorem Traffic.Kept.exhausted (h : s.Kept rules) (clock : Nat → ℚ) (target : EventTarget) :
    (s.limiter.exhausted clock (rules.filter (·.applies target))).1.Kept rules fun key =>
      (s.admitted key).map Taken.seen := by
  refine PerTargetRateLimiter.Kept.spares h (spares_exhausted clock _ h.sound) ?_
  exact own_exhausted (fun _ _ _ => first_of_applies) _ [] rfl h.sound
    (fun rule hrule => (by cases hrule)) h.own

theorem Traffic.Kept.event (h : s.Kept rules) (clock : Nat → ℚ) (target : EventTarget) :
    (s.event rules clock target).Kept rules := by
  have hkept := h.exhausted clock target
  have hnone := exhausted_none clock (rules.filter (·.applies target)) h.sound
  unfold Traffic.event allow
  dsimp only
  generalize s.limiter.exhausted clock (rules.filter (·.applies target)) = look at hkept hnone ⊢
  obtain ⟨l, res⟩ := look
  cases res with
  | error err => exact hkept
  | ok denied =>
    cases denied with
    | some rule =>
      have hsame : (fun key => ((s.admitted key) ++
          (List.lookup key ([] : List (String × Taken))).toList).map Taken.seen) =
            fun key => (s.admitted key).map Taken.seen := by
        funext key
        rw [List.lookup_nil, Option.toList_none, List.append_nil]
      unfold Traffic.Kept
      dsimp only
      rw [hsame]
      exact hkept
    | none =>
      obtain ⟨l', taken, htaken, hkept'⟩ := takeAll_kept clock _ [] hkept
        fun rule hrule => by
          obtain ⟨b, hb, htoken⟩ := hnone rfl rule hrule
          exact ⟨b, hb, fun _ => htoken⟩
      dsimp only
      rw [htaken]
      have hsame : (fun key => ((s.admitted key) ++ (taken.lookup key).toList).map Taken.seen) =
          fun key => (s.admitted key).map Taken.seen ++ added [] taken key := by
        funext key
        rw [List.map_append]
        rfl
      unfold Traffic.Kept
      dsimp only
      rw [hsame]
      exact hkept'

theorem kept_events (rules : List RateLimitRule) (clock : Nat → ℚ) (events : List EventTarget) :
    ∀ {s : Traffic}, s.Kept rules → (events.foldl (Traffic.event rules clock) s).Kept rules := by
  induction events with
  | nil => exact fun h => h
  | cons target events ih => exact fun h => ih (h.event clock target)

theorem kept_runEvents (rules : List RateLimitRule) (clock : Nat → ℚ) (events : List EventTarget) :
    (runEvents rules clock events).Kept rules := by
  refine kept_events rules clock events ⟨?_, ?_, ?_, fun _ _ => rfl⟩
  · intro key b hb
    cases hb
  · intro key b hb
    cases hb
  · intro key b hb
    cases hb

/-! ### A clock that does not go back -/

/-- No bucket goes by a later time than the next reading. -/
def PerTargetRateLimiter.Behind (clock : Nat → ℚ) (l : PerTargetRateLimiter) : Prop :=
  ∀ key b, l.buckets key = some b → b.lastRefillAt ≤ clock l.readings

theorem refill_lastRefillAt (h : b.lastRefillAt ≤ now) : (b.refill now).lastRefillAt = now := by
  unfold TokenBucket.refill
  dsimp only
  split
  · rename_i helapsed
    exact le_antisymm h (sub_nonpos.mp helapsed)
  · rfl

theorem tryTake_lastRefillAt (h : b.lastRefillAt ≤ now) :
    (b.tryTake now 1).1.lastRefillAt = now := by
  have hrefill := refill_lastRefillAt h
  unfold TokenBucket.tryTake
  dsimp only
  split
  · exact hrefill
  · exact hrefill

variable {l l' : PerTargetRateLimiter} (hclock : Monotone clock)
include hclock

theorem behind_store (h : l.Behind clock) (key : String) (hb : b.lastRefillAt = l.now clock) :
    (l.store key b).Behind clock := by
  have hnext : clock l.readings ≤ clock (l.readings + 1) := hclock (Nat.le_succ _)
  intro key' b' hb'
  by_cases hkey : key' = key
  · subst hkey
    rw [store_self] at hb'
    rw [← Option.some.inj hb', hb]
    exact hnext
  · rw [store_of_ne hkey] at hb'
    exact (h key' b' hb').trans hnext

theorem behind_bucketFor {rule : RateLimitRule} (h : l.Behind clock)
    (hbucket : l.bucketFor clock rule = .ok (b, l')) : l'.Behind clock := by
  rcases bucketFor_cases hbucket with ⟨-, rfl⟩ | ⟨-, rfl, -, -, -, hlast⟩
  · exact h
  · exact behind_store hclock h _ hlast

theorem behind_exhausted (found : List RateLimitRule) : ∀ {l : PerTargetRateLimiter},
    l.Behind clock → (l.exhausted clock found).1.Behind clock := by
  induction found with
  | nil => exact fun h => h
  | cons rule found ih =>
    intro l h
    unfold exhausted
    split
    · exact h
    · rename_i b l' hbucket
      have h' := behind_bucketFor hclock h hbucket
      have hstore := behind_store hclock h' (ruleKey rule)
        (refill_lastRefillAt (h' _ _ (bucketFor_there hbucket)))
      dsimp only
      split
      · exact hstore
      · exact ih hstore

theorem behind_takeAll (found : List RateLimitRule) : ∀ {l : PerTargetRateLimiter},
    l.Behind clock → (l.takeAll clock found).1.Behind clock ∧
      ∀ taken, (l.takeAll clock found).2 = .ok taken → ∀ t ∈ taken, t.2.seen = t.2.reading := by
  induction found with
  | nil =>
    refine fun h => ⟨h, fun taken htaken t ht => ?_⟩
    obtain rfl := Except.ok.inj htaken
    cases ht
  | cons rule found ih =>
    intro l h
    unfold takeAll
    split
    · exact ⟨h, fun taken htaken => (by cases htaken)⟩
    · rename_i b l' hbucket
      have h' := behind_bucketFor hclock h hbucket
      have hlast : (b.tryTake (l'.now clock) 1).1.lastRefillAt = l'.now clock :=
        tryTake_lastRefillAt (h' _ _ (bucketFor_there hbucket))
      obtain ⟨hbehind, htimes⟩ := ih (behind_store hclock h' (ruleKey rule) hlast)
      dsimp only
      split
      · rename_i l'' rest hrest
        rw [hrest] at hbehind htimes
        refine ⟨hbehind, fun taken htaken t ht => ?_⟩
        rw [← Except.ok.inj htaken] at ht
        rcases List.mem_cons.mp ht with rfl | ht
        · exact hlast
        · exact htimes rest rfl t ht
      · rename_i l'' err hrest
        rw [hrest] at hbehind
        exact ⟨hbehind, fun taken htaken => (by cases htaken)⟩

/-- The clock is ahead, and the buckets went by it. -/
structure OnTime (clock : Nat → ℚ) (s : Traffic) : Prop where
  behind : s.limiter.Behind clock
  seen : ∀ key, ∀ t ∈ s.admitted key, t.seen = t.reading

theorem OnTime.event (h : OnTime clock s) (rules : List RateLimitRule) (target : EventTarget) :
    OnTime clock (s.event rules clock target) := by
  have hbehind := behind_exhausted hclock (rules.filter (·.applies target)) h.behind
  unfold Traffic.event allow
  dsimp only
  generalize s.limiter.exhausted clock (rules.filter (·.applies target)) = look at hbehind ⊢
  obtain ⟨l, res⟩ := look
  cases res with
  | error err => exact ⟨hbehind, h.seen⟩
  | ok denied =>
    cases denied with
    | some rule => exact ⟨hbehind, fun key t ht => h.seen key t (by simpa using ht)⟩
    | none =>
      obtain ⟨hbehind', htimes⟩ := behind_takeAll hclock (rules.filter (·.applies target)) hbehind
      dsimp only at hbehind' htimes ⊢
      generalize l.takeAll clock (rules.filter (·.applies target)) = take at hbehind' htimes ⊢
      obtain ⟨l', res⟩ := take
      cases res with
      | error err => exact ⟨hbehind', h.seen⟩
      | ok taken =>
        refine ⟨hbehind', fun key t ht => ?_⟩
        rcases List.mem_append.mp ht with ht | ht
        · exact h.seen key t ht
        · obtain ⟨before, after, hsplit, -⟩ :=
            List.lookup_eq_some_iff.mp (Option.mem_toList.mp ht)
          refine htimes taken rfl (key, t) ?_
          rw [hsplit]
          exact List.mem_append_right _ List.mem_cons_self

/-- **A bucket goes by the readings of the clock** while it does not go back. -/
theorem seen_eq_reading (rules : List RateLimitRule) (events : List EventTarget) :
    ∀ key, ∀ t ∈ (runEvents rules clock events).admitted key, t.seen = t.reading := by
  have hrun : ∀ {s : Traffic}, OnTime clock s →
      OnTime clock (events.foldl (Traffic.event rules clock) s) := by
    induction events with
    | nil => exact fun h => h
    | cons target events ih => exact fun h => ih (h.event hclock rules target)
  refine (hrun ⟨fun key b hb => ?_, fun key t ht => ?_⟩).seen
  · cases hb
  · cases ht

omit hclock

/-- An event that is denied takes nothing. -/
theorem denied_takes_nothing (h : s.limiter.AllSound) {key : String} {rule : RateLimitRule}
    {taken : List (String × Taken)}
    (hdenied : (s.limiter.allow clock rules target).2 = .ok (.denied key rule, taken)) :
    taken = [] ∧ Spares s.limiter (s.limiter.allow clock rules target).1 := by
  have hspares := spares_exhausted clock (rules.filter (·.applies target)) h
  unfold allow at hdenied ⊢
  dsimp only at hdenied ⊢
  generalize s.limiter.exhausted clock (rules.filter (·.applies target)) = look
    at hspares hdenied ⊢
  obtain ⟨l, res⟩ := look
  cases res with
  | error err => cases hdenied
  | ok denied =>
    cases denied with
    | some rule =>
      obtain ⟨-, htaken⟩ := Prod.mk.inj (Except.ok.inj hdenied)
      exact ⟨htaken.symm, hspares⟩
    | none =>
      dsimp only at hdenied
      split at hdenied
      · cases hdenied
      · cases (Prod.mk.inj (Except.ok.inj hdenied)).1

/-- **What is let through under a key is paced by its bucket**, which is that of the first rule with
the key, and an event that is denied takes nothing. -/
theorem traffic_paced (rules : List RateLimitRule) (clock : Nat → ℚ) (events : List EventTarget) :
    let s := runEvents rules clock events
    (∀ key, s.limiter.buckets key = none → s.admitted key = []) ∧
      (∀ key b, s.limiter.buckets key = some b → Own rules key b ∧
        Conforms b.burst (b.ratePerSec / 1000) ((s.admitted key).map Taken.seen)) ∧
      (Monotone clock → ∀ key, ∀ t ∈ s.admitted key, t.seen = t.reading) ∧
      ∀ target key rule taken,
        (s.limiter.allow clock rules target).2 = .ok (.denied key rule, taken) →
          taken = [] ∧ Spares s.limiter (s.limiter.allow clock rules target).1 := by
  intro s
  have h := kept_runEvents rules clock events
  refine ⟨fun key hnone => ?_, fun key b hb => ⟨h.own key b hb, (h.metered key b hb).conforms⟩,
    fun hclock => seen_eq_reading hclock rules events, fun _ _ _ _ => denied_takes_nothing h.sound⟩
  exact List.map_eq_nil_iff.mp (h.unknown key hnone)

/-- A rule for skills: two at once, and one more each second. -/
def skillRule : RateLimitRule where
  target := some .skill
  ratePerSec := 1
  burst := some 2

/-- The clock is two seconds ahead while one event comes, and back for the next. -/
def jumpingClock (n : Nat) : ℚ := if n = 5 ∨ n = 6 then 2000 else 0

/-- **At one time of the clock**, three events are let through where two may. -/
theorem clock_goes_back : ¬ ∀ rules clock events key b,
    (runEvents rules clock events).limiter.buckets key = some b →
      Conforms b.burst (b.ratePerSec / 1000)
        (((runEvents rules clock events).admitted key).map Taken.reading) := by
  intro h
  have hrun : (((runEvents [skillRule] jumpingClock
        (List.replicate 4 (.skill "greet" [] none))).limiter.buckets "skill").any fun b =>
          b.burst.1 = 2) = true ∧
      ((runEvents [skillRule] jumpingClock
        (List.replicate 4 (.skill "greet" [] none))).admitted "skill").map Taken.reading =
          [0, 0, 2000, 0] := by
    decide +kernel
  obtain ⟨hbucket, hadmitted⟩ := hrun
  cases hb : (runEvents [skillRule] jumpingClock
      (List.replicate 4 (.skill "greet" [] none))).limiter.buckets "skill" with
  | none =>
    rw [hb] at hbucket
    cases hbucket
  | some b =>
    rw [hb] at hbucket
    have hconforms := h _ _ _ _ b hb 0 0 (le_refl _)
    rw [hadmitted, of_decide_eq_true hbucket, sub_self, mul_zero, add_zero] at hconforms
    norm_num [between] at hconforms

end Declaragent.Events
