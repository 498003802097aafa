import Declaragent.Sources.Pausing

/-!
# Channels — the transport of the inbound messages

A channel instance that is started, and has no reason to pause, takes messages from one transport:
Telegram's poll loop, Slack's socket, or Discord's gateway.  The calls that pause, resume and stop
it take effect at once, while the transports come up and go down behind awaits; each adapter
guards its transport by a flag or a nullable handle.

* `kept_under_control_iff`: where the steps that leave an instance under control are known, the
  runs that stay under control are those of such steps.
* `oneLive_iff`: the runs in which one transport is live when one is wanted, for each adapter.
-/

namespace Declaragent.Channels
open Transition
open Declaragent.Sources (PauseReason)

/-! ### Instances -/

/-- What an adapter does to its transports; those are numbered in the order in which they are
made.  `doStop` does to them what `doPause` does. -/
structure Transports (τ α : Type) where
  init : τ
  doPause : τ → τ
  doResume : τ → τ
  act : τ → α → Option τ
  /-- A step in which something that is awaited goes well. -/
  Completes : α → Prop
  /-- Nothing is awaited, and no timer runs. -/
  Settled : τ → Prop
  /-- Messages from the transport are delivered. -/
  Delivers : τ → Nat → Prop
  Open : τ → Nat → Prop
  /-- The transport that the instance refers to. -/
  reference : τ → Option Nat
  /-- The last attempt to connect has failed, and the instance has given up. -/
  Failed : τ → Prop

/-- An instance, from the call of `start` on. -/
structure Instance (τ : Type) where
  pauseReasons : Finset PauseReason := ∅
  stopped : Bool := false
  transport : τ

inductive InstanceLabel (α : Type) where
  | pauseFor (reason : PauseReason)
  | resumeFrom (reason : PauseReason)
  | stop
  | act (a : α)

/-- The instance is running and unpaused. -/
def Instance.wanted {τ : Type} (s : Instance τ) : Bool := s.pauseReasons = ∅ && !s.stopped

/-- The reason is the only one. -/
def Instance.Last {τ : Type} (s : Instance τ) (reason : PauseReason) : Prop :=
  reason ∈ s.pauseReasons ∧ s.pauseReasons.erase reason = ∅

instance {τ : Type} (s : Instance τ) (reason : PauseReason) : Decidable (s.Last reason) := by
  unfold Instance.Last
  infer_instance

namespace Transports

variable {τ α : Type} (T : Transports τ α)

def start : Instance τ := { transport := T.init }

/-- The first reason pauses the transport, and the removal of the last one resumes it; `stop` clears
the reasons. -/
def step (s : Instance τ) : InstanceLabel α → Option (Instance τ)
  | .pauseFor reason => some { s with
      pauseReasons := insert reason s.pauseReasons
      transport := if s.pauseReasons = ∅ then T.doPause s.transport else s.transport }
  | .resumeFrom reason => some { s with
      pauseReasons := s.pauseReasons.erase reason
      transport := if s.Last reason then T.doResume s.transport else s.transport }
  | .stop => some
      { pauseReasons := ∅
        stopped := true
        transport := T.doPause s.transport }
  | .act a => (T.act s.transport a).map fun transport => { s with transport := transport }

/-- One transport delivers if one is wanted and could be connected, none if none is, and what is
open is what the instance refers to. -/
structure Controlled (wanted : Bool) (t : τ) : Prop where
  one : wanted = true → T.Failed t ∨ ∃ i, ∀ j, T.Delivers t j ↔ j = i
  none : wanted = false → ∀ j, ¬ T.Delivers t j
  referred : ∀ j, T.Open t j → T.reference t = some j

/-- Once all that is awaited has gone well, the transport is under control. -/
def WillControl (wanted : Bool) (t : τ) : Prop :=
  ∀ as u, Run T.act (fun _ a => T.Completes a) t as u → T.Settled u → T.Controlled wanted u

/-- A run in which the transport is under control after every step. -/
def Obeyed (as : List (InstanceLabel α)) (s : Instance τ) : Prop :=
  Run T.step (Leads T.step fun _ u => T.WillControl u.wanted u.transport) T.start as s

variable {T}

theorem run_of_exec {t u : τ} {as : List α} (hcompletes : ∀ a ∈ as, T.Completes a)
    (hexec : exec T.act t as = some u) : Run T.act (fun _ a => T.Completes a) t as u := by
  induction as generalizing t with
  | nil =>
    cases hexec
    exact .nil
  | cons a as ih =>
    simp only [exec, Option.bind_eq_some_iff] at hexec
    obtain ⟨t', hact, hexec⟩ := hexec
    obtain ⟨ha, has⟩ := List.forall_mem_cons.mp hcompletes
    exact .cons ha hact (ih has hexec)

/-- Control is lost where it can settle so that the wrong transports are live. -/
theorem not_willControl {wanted : Bool} {t u v : τ} {as : List α}
    (r : Run T.act (fun _ a => T.Completes a) t as u) (bs : List α)
    (hcompletes : ∀ b ∈ bs, T.Completes b) (hexec : exec T.act u bs = some v)
    (hsettled : T.Settled v) (hv : ¬ T.Controlled wanted v) : ¬ T.WillControl wanted t :=
  fun h => hv (h _ v (r.trans (run_of_exec hcompletes hexec)) hsettled)

theorem not_willControl_of_act {wanted : Bool} {t u : τ} {a : α} (ha : T.Completes a)
    (hact : T.act t a = some u) (hu : ¬ T.WillControl wanted u) : ¬ T.WillControl wanted t :=
  fun h => hu fun as v r hsettled => h (a :: as) v (.cons ha hact r) hsettled

/-- When the calls and the steps of an adapter may come; a resumption depends on whether the
instance is stopped. -/
structure Rules (τ α : Type) where
  pause : τ → Prop
  resume : Bool → τ → Prop
  act : τ → α → Prop

/-- A step that comes when it may. -/
def Rules.Meets (R : Rules τ α) (s : Instance τ) : InstanceLabel α → Prop
  | .pauseFor _ => s.pauseReasons = ∅ → R.pause s.transport
  | .resumeFrom reason => s.Last reason → R.resume s.stopped s.transport
  | .stop => R.pause s.transport
  | .act a => R.act s.transport a

/-- What is to be shown of an adapter: from a state of the invariant, what comes when it may keeps
the invariant, and anything else loses control. -/
structure Decides (T : Transports τ α) (R : Rules τ α) (P : Bool → τ → Prop) : Prop where
  start : P true T.init
  controlled : ∀ {w t}, P w t → T.Settled t → T.Controlled w t
  completes : ∀ {w t a}, P w t → T.Completes a → R.act t a
  pause : ∀ {w t}, P w t →
    R.pause t ∧ P false (T.doPause t) ∨ ¬ R.pause t ∧ ¬ T.WillControl false (T.doPause t)
  resume : ∀ {t} (stopped : Bool), P false t →
    R.resume stopped t ∧ P (!stopped) (T.doResume t) ∨
      ¬ R.resume stopped t ∧ ¬ T.WillControl (!stopped) (T.doResume t)
  act : ∀ {w t a t'}, P w t → T.act t a = some t' →
    R.act t a ∧ P w t' ∨ ¬ R.act t a ∧ ¬ T.WillControl w t'

variable {R : Rules τ α} {P : Bool → τ → Prop}

theorem Decides.willControl (h : Decides T R P) {w : Bool} {t : τ} (ht : P w t) :
    T.WillControl w t := by
  intro as u r hsettled
  refine h.controlled (Run.invariant ht (fun v a v' hv ha hact => ?_) r) hsettled
  rcases h.act hv hact with ⟨-, hv'⟩ | ⟨hR, -⟩
  · exact hv'
  · exact absurd (h.completes hv ha) hR

/-- **One step** either comes when it may and keeps the invariant, or loses control. -/
theorem Decides.step (h : Decides T R P) {s s' : Instance τ} {label : InstanceLabel α}
    (hs : P s.wanted s.transport) (hstep : T.step s label = some s') :
    R.Meets s label ∧ P s'.wanted s'.transport ∨
      ¬ R.Meets s label ∧ ¬ T.WillControl s'.wanted s'.transport := by
  obtain ⟨reasons, stopped, t⟩ := s
  cases label with
  | act a =>
    obtain ⟨t', hact, rfl⟩ := Option.map_eq_some_iff.mp hstep
    exact h.act hs hact
  | stop =>
    cases hstep
    exact h.pause hs
  | pauseFor reason =>
    cases hstep
    have hunwanted : ∀ u : τ, Instance.wanted ⟨insert reason reasons, stopped, u⟩ = false := by
      intro u
      simp [Instance.wanted, Finset.insert_ne_empty]
    dsimp only
    by_cases hr : reasons = ∅
    · rw [if_pos hr, hunwanted]
      simp only [Rules.Meets, hr, true_implies]
      exact h.pause hs
    · rw [if_neg hr, hunwanted]
      have hw : Instance.wanted ⟨reasons, stopped, t⟩ = false := by simp [Instance.wanted, hr]
      rw [hw] at hs
      exact .inl ⟨fun he => absurd he hr, hs⟩
  | resumeFrom reason =>
    cases hstep
    dsimp only
    by_cases hlast : Instance.Last ⟨reasons, stopped, t⟩ reason
    · have hr : reasons ≠ ∅ := by
        rintro rfl
        exact Finset.notMem_empty reason hlast.1
      have hw : Instance.wanted ⟨reasons, stopped, t⟩ = false := by simp [Instance.wanted, hr]
      have hw' : ∀ u : τ, Instance.wanted ⟨reasons.erase reason, stopped, u⟩ = !stopped := by
        intro u
        have herase : reasons.erase reason = ∅ := hlast.2
        simp [Instance.wanted, herase]
      rw [if_pos hlast, hw']
      rw [hw] at hs
      simp only [Rules.Meets, hlast, true_implies]
      exact h.resume stopped hs
    · have hw : Instance.wanted ⟨reasons.erase reason, stopped, t⟩ =
          Instance.wanted ⟨reasons, stopped, t⟩ := by
        by_cases hmem : reason ∈ reasons
        · have hne : reasons.erase reason ≠ ∅ := fun he => hlast ⟨hmem, he⟩
          have hr : reasons ≠ ∅ := Finset.ne_empty_of_mem hmem
          simp [Instance.wanted, hne, hr]
        · rw [Finset.erase_eq_of_notMem hmem]
      rw [if_neg hlast, hw]
      exact .inl ⟨fun hl => absurd hl hlast, hs⟩

/-- **The rule for an adapter.** -/
theorem Decides.kept_under_control_iff (h : Decides T R P) (as : List (InstanceLabel α))
    (s : Instance τ) :
    T.Obeyed as s ↔ Run T.step R.Meets T.start as s := by
  refine Run.leads_iff (P := fun s => P s.wanted s.transport) h.start fun s a t hs hst => ?_
  rcases h.step hs hst with ⟨hC, ht⟩ | ⟨hC, ht⟩
  · exact ⟨iff_of_true (h.willControl ht) hC, fun _ => ht⟩
  · exact ⟨iff_of_false ht hC, fun hw => absurd hw ht⟩

/-- A step of the adapter that comes when it may keeps the invariant. -/
theorem Decides.kept (h : Decides T R P) {w : Bool} {t t' : τ} {a : α} (ht : P w t)
    (hact : T.act t a = some t') (hR : R.act t a) : P w t' :=
  ((h.act ht hact).resolve_right fun hnot => hnot.1 hR).2

/-- A step that comes when it may not loses control. -/
theorem Decides.lost (h : Decides T R P) {s s' : Instance τ} (label : InstanceLabel α) (w : Bool)
    (hw : s.wanted = w) (hs : P w s.transport) (hstep : T.step s label = some s')
    (hnot : ¬ R.Meets s label) : ¬ T.WillControl s'.wanted s'.transport := by
  subst hw
  exact ((h.step hs hstep).resolve_left fun hmeets => hnot hmeets.1).2

end Transports

/-! ### Telegram: a poll loop -/

/-- The state of the long polling; a loop is known by the number of its `AbortController`. -/
structure LongPoll where
  /-- `doStart` awaits `getMe`. -/
  starting : Bool := true
  longPollAbort : Option Nat := none
  longPollRunning : Bool := false
  loops : List Nat := []
  aborted : List Nat := []
  controllers : Nat := 0

inductive PollAct where
  /-- `getMe` is answered, or fails. -/
  | started
  /-- What a loop awaits is over: the updates, an error and its delay, or the publish. -/
  | turns (n : Nat)

namespace LongPoll

/-- `longPollAbort?.abort()`, and the handle is dropped. -/
def doPause (s : LongPoll) : LongPoll :=
  match s.longPollAbort with
  | none => s
  | some n => { s with
      longPollAbort := none
      aborted := n :: s.aborted }

def startLongPolling (s : LongPoll) : LongPoll :=
  if s.longPollRunning then s
  else { s with
    longPollRunning := true
    longPollAbort := some s.controllers
    loops := s.controllers :: s.loops
    controllers := s.controllers + 1 }

def act (s : LongPoll) : PollAct → Option LongPoll
  | .started => if s.starting then some { s with starting := false }.startLongPolling else none
  -- the loop looks at its signal after every await
  | .turns n =>
    if n ∈ s.loops then
      some (if n ∈ s.aborted then { s with
          loops := s.loops.erase n
          longPollRunning := false }
        else s)
    else none

end LongPoll

/-- A loop delivers until it is aborted. -/
def telegram : Transports LongPoll PollAct where
  init := {}
  doPause := LongPoll.doPause
  doResume := LongPoll.startLongPolling
  act := LongPoll.act
  Completes _ := True
  Settled s := s.starting = false ∧ ∀ n ∈ s.loops, n ∉ s.aborted
  Delivers s n := n ∈ s.loops ∧ n ∉ s.aborted
  Open s n := n ∈ s.loops ∧ n ∉ s.aborted
  reference s := s.longPollAbort
  Failed _ := False

/-- No pause and no stop before `getMe` is answered, and no resumption while an aborted loop has
not ended yet; a stopped instance resumes nothing only in that case. -/
def telegramRules : Transports.Rules LongPoll PollAct where
  pause s := s.starting = false
  resume stopped s := s.longPollRunning = stopped
  act _ _ := True

/-- A state under control. -/
inductive PollInv : Bool → LongPoll → Prop where
  | starting (ab : List Nat) (k : Nat) (h : ∀ m ∈ ab, m < k) :
      PollInv true ⟨true, none, false, [], ab, k⟩
  | polling (n : Nat) (ab : List Nat) (k : Nat) (h : ∀ m ∈ ab, m < k) (hn : n < k) (hl : n ∉ ab) :
      PollInv true ⟨false, some n, true, [n], ab, k⟩
  | idle (ab : List Nat) (k : Nat) (h : ∀ m ∈ ab, m < k) :
      PollInv false ⟨false, none, false, [], ab, k⟩
  | ending (n : Nat) (ab : List Nat) (k : Nat) (h : ∀ m ∈ ab, m < k) (hl : n ∈ ab) :
      PollInv false ⟨false, none, true, [n], ab, k⟩

/-- A loop that has just begun. -/
theorem PollInv.begun {ab : List Nat} {k : Nat} (h : ∀ m ∈ ab, m < k) :
    PollInv true ⟨false, some k, true, [k], ab, k + 1⟩ :=
  .polling k ab (k + 1) (fun m hm => Nat.lt_succ_of_lt (h m hm)) (Nat.lt_succ_self k)
    fun hk => Nat.lt_irrefl k (h k hk)

theorem PollInv.controlled {w : Bool} {s : LongPoll} (hs : PollInv w s)
    (hsettled : telegram.Settled s) : telegram.Controlled w s := by
  cases hs with
  | starting ab k h => cases hsettled.1
  | polling n ab k h hn hl =>
    refine ⟨fun _ => .inr ⟨n, fun j => ?_⟩, nofun, fun j hj => ?_⟩
    · refine ⟨fun hj => List.mem_singleton.mp hj.1, ?_⟩
      rintro rfl
      exact ⟨List.mem_singleton_self _, hl⟩
    · exact congrArg some (List.mem_singleton.mp hj.1).symm
  | idle ab k h =>
    have hnone : ∀ j, ¬ telegram.Delivers ⟨false, none, false, [], ab, k⟩ j :=
      fun j hj => List.not_mem_nil hj.1
    exact ⟨nofun, fun _ => hnone, fun j hj => absurd hj (hnone j)⟩
  | ending n ab k h hl => exact absurd hl (hsettled.2 n (List.mem_singleton_self n))

/-- A loop that has just begun delivers, wanted or not. -/
theorem not_controlled_begun {ab : List Nat} {k : Nat} (h : ∀ m ∈ ab, m < k) :
    ¬ telegram.Controlled false ⟨false, some k, true, [k], ab, k + 1⟩ :=
  fun hc => hc.none rfl k ⟨List.mem_singleton_self k, fun hk => Nat.lt_irrefl k (h k hk)⟩

theorem settled_begun {ab : List Nat} {k : Nat} (h : ∀ m ∈ ab, m < k) :
    telegram.Settled ⟨false, some k, true, [k], ab, k + 1⟩ :=
  ⟨rfl, List.forall_mem_singleton.mpr fun hk => Nat.lt_irrefl k (h k hk)⟩

theorem telegram_decides : Transports.Decides telegram telegramRules PollInv where
  start := .starting [] 0 (List.forall_mem_nil _)
  controlled := PollInv.controlled
  completes _ _ := trivial
  pause := by
    intro w s hs
    cases hs with
    | starting ab k h =>
      -- the loop is begun all the same
      exact .inr ⟨nofun, Transports.not_willControl .nil [.started]
        (fun _ _ => trivial) rfl (settled_begun h) (not_controlled_begun h)⟩
    | polling n ab k h hn hl =>
      refine .inl ⟨rfl, .ending n (n :: ab) k ?_ List.mem_cons_self⟩
      exact List.forall_mem_cons.mpr ⟨hn, h⟩
    | idle ab k h => exact .inl ⟨rfl, .idle ab k h⟩
    | ending n ab k h hl => exact .inl ⟨rfl, .ending n ab k h hl⟩
  resume := by
    intro s stopped hs
    cases hs with
    | idle ab k h =>
      cases stopped with
      | false => exact .inl ⟨rfl, .begun h⟩
      | true => exact .inr ⟨nofun, Transports.not_willControl .nil []
          (fun _ _ => trivial) rfl (settled_begun h) (not_controlled_begun h)⟩
    | ending n ab k h hl =>
      cases stopped with
      | true => exact .inl ⟨rfl, .ending n ab k h hl⟩
      | false =>
        -- the aborted loop ends, and no other has been begun
        refine .inr ⟨nofun, Transports.not_willControl
          (v := ⟨false, none, false, [], ab, k⟩) .nil [.turns n] (fun _ _ => trivial) ?_
          ⟨rfl, List.forall_mem_nil _⟩ fun hc => ?_⟩
        · simp [exec, telegram, LongPoll.startLongPolling, LongPoll.act, hl]
        · rcases hc.one rfl with hfailed | ⟨i, hi⟩
          · exact hfailed
          · exact List.not_mem_nil ((hi i).mpr rfl).1
  act := by
    intro w s a s' hs hact
    refine .inl ⟨trivial, ?_⟩
    cases a with
    | started =>
      cases hs with
      | starting ab k h =>
        cases hact
        exact .begun h
      | polling _ _ _ _ _ _ | idle _ _ _ | ending _ _ _ _ _ => cases hact
    | turns m =>
      have hturn : m ∈ s.loops ∧ (if m ∈ s.aborted then { s with
          loops := s.loops.erase m
          longPollRunning := false } else s) = s' := by
        simpa [telegram, LongPoll.act] using hact
      obtain ⟨hm, rfl⟩ := hturn
      cases hs with
      | starting _ _ _ | idle _ _ _ => cases hm
      | polling n ab k h hn hl =>
        obtain rfl := List.mem_singleton.mp hm
        rw [if_neg hl]
        exact .polling m ab k h hn hl
      | ending n ab k h hl =>
        obtain rfl := List.mem_singleton.mp hm
        rw [if_pos hl]
        simpa using PollInv.idle ab k h

/-! ### Discord: a gateway -/

/-- The state of the gateways; each has one socket. -/
structure Gateways where
  /-- `doStart` awaits the bot's user and the registration of its commands. -/
  starting : Bool := true
  gateway : Option Nat := none
  created : Nat := 0
  connecting : List Nat := []
  opened : List Nat := []
  /-- The calls that wait for `gateway.close()`, before they drop the handle. -/
  closing : Nat := 0
  failed : Bool := false

inductive GatewayAct where
  | started
  | opens (n : Nat)
  | fails (n : Nat)
  /-- The connection of an open socket is lost, of which the instance only logs. -/
  | drops (n : Nat)
  | closed

namespace Gateways

/-- `createGatewayTransport`, and `connect`, which waits for nothing. -/
def connect (s : Gateways) : Gateways :=
  { s with
    gateway := some s.created
    created := s.created + 1
    connecting := s.created :: s.connecting
    failed := false }

def doPause (s : Gateways) : Gateways :=
  match s.gateway with
  | none => s
  | some n => { s with
      connecting := s.connecting.erase n
      opened := s.opened.erase n
      closing := s.closing + 1 }

def act (s : Gateways) : GatewayAct → Option Gateways
  | .started => if s.starting then some { s with starting := false }.connect else none
  | .opens n =>
    if n ∈ s.connecting then some { s with
      connecting := s.connecting.erase n
      opened := n :: s.opened }
    else none
  | .fails n =>
    if n ∈ s.connecting then some { s with
      connecting := s.connecting.erase n
      failed := s.failed || s.gateway = some n }
    else none
  | .drops n => if n ∈ s.opened then some { s with opened := s.opened.erase n } else none
  | .closed =>
    match s.closing with
    | 0 => none
    | closing + 1 => some { s with
        gateway := none
        closing := closing }

end Gateways

def discord : Transports Gateways GatewayAct where
  init := {}
  doPause := Gateways.doPause
  doResume := Gateways.connect
  act := Gateways.act
  Completes
    | .started | .opens _ | .closed => True
    | .fails _ | .drops _ => False
  Settled s := s.starting = false ∧ s.connecting = [] ∧ s.closing = 0
  Delivers s n := n ∈ s.opened
  Open s n := n ∈ s.opened
  reference s := s.gateway
  Failed s := s.failed = true

/-- No pause and no stop while `start` waits, no resumption of a stopped instance or while a call
waits for the gateway to close, and no lost connection. -/
def discordRules : Transports.Rules Gateways GatewayAct where
  pause s := s.starting = false
  resume stopped s := stopped = false ∧ s.closing = 0
  act _
    | .drops _ => False
    | _ => True

/-- A state under control. -/
inductive GatewayInv : Bool → Gateways → Prop where
  | starting (k : Nat) : GatewayInv true ⟨true, none, k, [], [], 0, false⟩
  | connecting (g k : Nat) : GatewayInv true ⟨false, some g, k, [g], [], 0, false⟩
  | opened (g k : Nat) : GatewayInv true ⟨false, some g, k, [], [g], 0, false⟩
  | failed (g k : Nat) : GatewayInv true ⟨false, some g, k, [], [], 0, true⟩
  | down (gateway : Option Nat) (k closing : Nat) (failed : Bool) :
      GatewayInv false ⟨false, gateway, k, [], [], closing, failed⟩

theorem GatewayInv.controlled {w : Bool} {s : Gateways} (hs : GatewayInv w s)
    (hsettled : discord.Settled s) : discord.Controlled w s := by
  cases hs with
  | starting k => cases hsettled.1
  | connecting g k => cases hsettled.2.1
  | opened g k =>
    exact ⟨fun _ => .inr ⟨g, fun j => List.mem_singleton⟩, nofun,
      fun j hj => congrArg some (List.mem_singleton.mp hj).symm⟩
  | failed g k => exact ⟨fun _ => .inl rfl, nofun, fun j hj => (List.not_mem_nil hj).elim⟩
  | down gateway k closing failed =>
    exact ⟨nofun, fun _ _ => List.not_mem_nil, fun j hj => (List.not_mem_nil hj).elim⟩

/-- The calls that wait go on, one after the other. -/
theorem run_closed (s : Gateways) : ∃ as, Run discord.act (fun _ a => discord.Completes a) s as
    { s with
      gateway := if s.closing = 0 then s.gateway else none
      closing := 0 } := by
  obtain ⟨starting, gateway, created, connecting, opened, closing, failed⟩ := s
  induction closing generalizing gateway with
  | zero => exact ⟨[], .nil⟩
  | succ closing ih =>
    obtain ⟨as, r⟩ := ih none
    refine ⟨.closed :: as, .cons trivial rfl ?_⟩
    simpa using r

/-- A gateway that is connected while none is wanted, or the handle is still to be dropped, stays
open. -/
theorem not_willControl_connect {stopped : Bool} {gateway : Option Nat} {k closing : Nat}
    {failed : Bool} (h : ¬ (stopped = false ∧ closing = 0)) :
    ¬ discord.WillControl (!stopped)
      (Gateways.connect ⟨false, gateway, k, [], [], closing, failed⟩) := by
  obtain ⟨as, r⟩ := run_closed (Gateways.connect ⟨false, gateway, k, [], [], closing, failed⟩)
  refine Transports.not_willControl
    (v := ⟨false, if closing = 0 then some k else none, k + 1, [], [k], 0, false⟩) r [.opens k]
    (by simp [discord]) ?_ ⟨rfl, rfl, rfl⟩ fun hc => ?_
  · by_cases hclosing : closing = 0 <;>
      simp [exec, discord, Gateways.act, Gateways.connect, hclosing]
  · cases stopped with
    | true => exact hc.none rfl k (List.mem_singleton_self k)
    | false =>
      have hclosing : closing ≠ 0 := fun he => h ⟨rfl, he⟩
      have href := hc.referred k (List.mem_singleton_self k)
      simp [discord, hclosing] at href

theorem discord_decides : Transports.Decides discord discordRules GatewayInv where
  start := .starting 0
  controlled := GatewayInv.controlled
  completes := by
    intro w s a _ ha
    cases a with
    | drops n => exact ha.elim
    | started | opens _ | fails _ | closed => exact trivial
  pause := by
    intro w s hs
    cases hs with
    | starting k =>
      -- the gateway is connected all the same
      refine .inr ⟨nofun, Transports.not_willControl
        (v := ⟨false, some k, k + 1, [], [k], 0, false⟩) .nil [.started, .opens k]
        (by simp [discord]) ?_ ⟨rfl, rfl, rfl⟩
        fun hc => hc.none rfl k (List.mem_singleton_self k)⟩
      simp [exec, discord, Gateways.act, Gateways.connect, Gateways.doPause]
    | connecting g k => exact .inl ⟨rfl, by simpa [discord, Gateways.doPause] using .down _ _ _ _⟩
    | opened g k => exact .inl ⟨rfl, by simpa [discord, Gateways.doPause] using .down _ _ _ _⟩
    | failed g k => exact .inl ⟨rfl, .down _ _ _ _⟩
    | down gateway k closing failed =>
      cases gateway with
      | none => exact .inl ⟨rfl, .down _ _ _ _⟩
      | some g => exact .inl ⟨rfl, .down _ _ _ _⟩
  resume := by
    intro s stopped hs
    cases hs with
    | down gateway k closing failed =>
      by_cases h : stopped = false ∧ closing = 0
      · obtain ⟨rfl, rfl⟩ := h
        exact .inl ⟨⟨rfl, rfl⟩, .connecting k (k + 1)⟩
      · exact .inr ⟨h, not_willControl_connect h⟩
  act := by
    intro w s a s' hs hact
    cases a with
    | started =>
      cases hs with
      | starting k =>
        cases hact
        exact .inl ⟨trivial, .connecting k (k + 1)⟩
      | connecting _ _ | opened _ _ | failed _ _ | down _ _ _ _ => cases hact
    | opens n =>
      cases hs with
      | connecting g k =>
        refine .inl ⟨trivial, ?_⟩
        obtain ⟨hn, rfl⟩ : n = g ∧ (⟨false, some g, k, [g].erase n, [n], 0, false⟩ : Gateways) =
            s' := by simpa [discord, Gateways.act] using hact
        subst hn
        simpa using GatewayInv.opened n k
      | starting _ | opened _ _ | failed _ _ | down _ _ _ _ => cases hact
    | fails n =>
      cases hs with
      | connecting g k =>
        refine .inl ⟨trivial, ?_⟩
        obtain ⟨hn, rfl⟩ : n = g ∧ (⟨false, some g, k, [g].erase n, [], 0,
            false || some g = some n⟩ : Gateways) = s' := by
          simpa [discord, Gateways.act] using hact
        subst hn
        simpa using GatewayInv.failed n k
      | starting _ | opened _ _ | failed _ _ | down _ _ _ _ => cases hact
    | drops n =>
      cases hs with
      | opened g k =>
        -- nothing connects again
        obtain ⟨hn, rfl⟩ : n = g ∧ (⟨false, some g, k, [], [g].erase n, 0, false⟩ : Gateways) =
            s' := by simpa [discord, Gateways.act] using hact
        subst hn
        refine .inr ⟨id, Transports.not_willControl
          (v := ⟨false, some n, k, [], [], 0, false⟩) .nil [] (List.forall_mem_nil _)
          (by simp [exec]) ⟨rfl, rfl, rfl⟩ fun hc => ?_⟩
        rcases hc.one rfl with hfailed | ⟨i, hi⟩
        · cases hfailed
        · exact List.not_mem_nil ((hi i).mpr rfl)
      | starting _ | connecting _ _ | failed _ _ | down _ _ _ _ => cases hact
    | closed =>
      cases hs with
      | down gateway k closing failed =>
        cases closing with
        | zero => cases hact
        | succ closing =>
          cases hact
          exact .inl ⟨trivial, .down _ _ _ _⟩
      | starting _ | connecting _ _ | opened _ _ | failed _ _ => cases hact

/-! ### Slack: a socket that reconnects -/

/-- Where `connect` is, the first time, or `reopen` after that: it fetches the URL, the socket is
opening, or it is open. -/
inductive Flow where
  | idle
  | fetching (first : Bool)
  | opening (first : Bool)
  | opened
  deriving DecidableEq

structure SocketModeTransport where
  closed : Bool := false
  reconnectTimer : Bool := false
  flow : Flow := .idle

namespace SocketModeTransport

def scheduleReconnect (t : SocketModeTransport) : SocketModeTransport :=
  if t.closed || t.reconnectTimer then t else { t with reconnectTimer := true }

/-- `closed` is looked at before the URL is fetched, and not after. -/
def reopen (t : SocketModeTransport) : SocketModeTransport :=
  if t.closed then t else { t with flow := .fetching false }

def close (t : SocketModeTransport) : SocketModeTransport where
  closed := true
  reconnectTimer := false
  flow := match t.flow with
    | .opening _ | .opened => .idle
    | flow => flow

/-- The socket is closed, or could not be opened. -/
def lose (t : SocketModeTransport) : SocketModeTransport :=
  { t with flow := .idle }.scheduleReconnect

/-- Nothing goes on. -/
def Quiet (t : SocketModeTransport) : Prop := t.flow = .idle ∧ t.reconnectTimer = false

/-- It has, or will have, a socket. -/
def Live (t : SocketModeTransport) : Prop :=
  t.closed = false ∧ (t.reconnectTimer = true ↔ t.flow = .idle)

end SocketModeTransport

structure SocketMode where
  /-- `doStart` awaits `auth.test`. -/
  starting : Bool := true
  socketTransport : Option Nat := none
  created : Nat := 0
  transports : Nat → SocketModeTransport := fun _ => {}
  /-- The calls that go on to drop the handle: after `close()`, and after a `connect()` whose socket
  was closed on it. -/
  nulling : Nat := 0
  failed : Bool := false

inductive SocketAct where
  | authTest
  | url (i : Nat) (ok : Bool)
  | socket (i : Nat) (ok : Bool)
  | drops (i : Nat)
  | timer (i : Nat)
  | nulls

namespace SocketMode

def set (s : SocketMode) (i : Nat) (t : SocketModeTransport) : SocketMode :=
  { s with transports := Function.update s.transports i t }

/-- Up to the await of the URL. -/
def startSocketMode (s : SocketMode) : SocketMode :=
  match s.socketTransport with
  | some i => { s.set i { s.transports i with flow := .fetching true } with failed := false }
  | none => { s.set s.created { flow := .fetching true } with
      socketTransport := some s.created
      created := s.created + 1
      failed := false }

/-- `connect()` has thrown. -/
def connectFailed (s : SocketMode) : SocketMode :=
  { s with
    socketTransport := none
    failed := true }

def doPause (s : SocketMode) : SocketMode :=
  match s.socketTransport with
  | none => s
  | some i => { s.set i (s.transports i).close with
      nulling := s.nulling + if (s.transports i).flow = .opening true then 2 else 1 }

def doResume (s : SocketMode) : SocketMode :=
  match s.socketTransport with
  | none => s.startSocketMode
  | some _ => s

def act (s : SocketMode) : SocketAct → Option SocketMode
  | .authTest => if s.starting then some { s with starting := false }.startSocketMode else none
  | .url i ok =>
    match (s.transports i).flow with
    | .fetching first =>
      some (if ok then s.set i { s.transports i with flow := .opening first }
        else if first then (s.set i { s.transports i with flow := .idle }).connectFailed
        else s.set i (s.transports i).lose)
    | _ => none
  | .socket i ok =>
    match (s.transports i).flow with
    | .opening first =>
      some (if ok then s.set i { s.transports i with flow := .opened }
        else if first then (s.set i (s.transports i).lose).connectFailed
        else s.set i (s.transports i).lose)
    | _ => none
  | .drops i =>
    if (s.transports i).flow = .opened then some (s.set i (s.transports i).lose) else none
  | .timer i =>
    if (s.transports i).reconnectTimer then
      some (s.set i { s.transports i with reconnectTimer := false }.reopen)
    else none
  | .nulls =>
    match s.nulling with
    | 0 => none
    | nulling + 1 => some { s with
        socketTransport := none
        nulling := nulling }

end SocketMode

/-- A transport that was closed delivers nothing, even if its socket is open. -/
def slack : Transports SocketMode SocketAct where
  init := {}
  doPause := SocketMode.doPause
  doResume := SocketMode.doResume
  act := SocketMode.act
  Completes
    | .url _ ok | .socket _ ok => ok = true
    | .drops _ => False
    | .authTest | .timer _ | .nulls => True
  Settled s := s.starting = false ∧ s.nulling = 0 ∧ ∀ i,
    (s.transports i).reconnectTimer = false ∧
      ((s.transports i).flow = .idle ∨ (s.transports i).flow = .opened)
  Delivers s i := (s.transports i).flow = .opened ∧ (s.transports i).closed = false
  Open s i := (s.transports i).flow = .opened
  reference s := s.socketTransport
  Failed s := s.failed = true

/-- No pause and no stop while `start` waits or a URL is fetched, no resumption before the handle
is dropped for good, and no first socket that fails to open; a stopped instance resumes nothing
only while it has the handle still. -/
def slackRules : Transports.Rules SocketMode SocketAct where
  pause s := s.starting = false ∧
    ∀ i first, s.socketTransport = some i → (s.transports i).flow ≠ .fetching first
  resume stopped s :=
    if stopped then s.socketTransport ≠ none else s.socketTransport = none ∧ s.nulling = 0
  act s
    | .socket i false => (s.transports i).flow ≠ .opening true
    | _ => True

/-- A state under control. -/
inductive SocketInv : Bool → SocketMode → Prop where
  | starting (k : Nat) (ts : Nat → SocketModeTransport) (hq : ∀ j, (ts j).Quiet) :
      SocketInv true ⟨true, none, k, ts, 0, false⟩
  | live (i k : Nat) (ts : Nat → SocketModeTransport) (hq : ∀ j, j ≠ i → (ts j).Quiet)
      (hi : (ts i).Live) : SocketInv true ⟨false, some i, k, ts, 0, false⟩
  | failed (k : Nat) (ts : Nat → SocketModeTransport) (hq : ∀ j, (ts j).Quiet) :
      SocketInv true ⟨false, none, k, ts, 0, true⟩
  | down (r : Option Nat) (k : Nat) (ts : Nat → SocketModeTransport) (nulling : Nat)
      (failed : Bool) (hq : ∀ j, (ts j).Quiet) (hf : r ≠ none → failed = false) :
      SocketInv false ⟨false, r, k, ts, nulling, failed⟩

section Slack

variable {ts : Nat → SocketModeTransport} {i k : Nat}

theorem SocketModeTransport.Quiet.not_opened {t : SocketModeTransport} (h : t.Quiet) :
    t.flow ≠ .opened := by
  rw [h.1]
  exact nofun

theorem SocketInv.controlled {w : Bool} {s : SocketMode} (hs : SocketInv w s)
    (hsettled : slack.Settled s) : slack.Controlled w s := by
  cases hs with
  | starting k ts hq => cases hsettled.1
  | live i k ts hq hi =>
    have hopened : (ts i).flow = .opened := by
      obtain ⟨htimer, hflow⟩ := hsettled.2.2 i
      refine hflow.resolve_left fun hidle => ?_
      have hon := hi.2.mpr hidle
      rw [htimer] at hon
      cases hon
    have honly : ∀ j, (ts j).flow = .opened → j = i := fun j hj =>
      Classical.byContradiction fun hne => (hq j hne).not_opened hj
    refine ⟨fun _ => .inr ⟨i, fun j => ⟨fun hj => honly j hj.1, ?_⟩⟩, nofun,
      fun j hj => congrArg some (honly j hj).symm⟩
    rintro rfl
    exact ⟨hopened, hi.1⟩
  | failed k ts hq =>
    exact ⟨fun _ => .inl rfl, nofun, fun j hj => absurd hj (hq j).not_opened⟩
  | down r k ts nulling failed hq hf =>
    exact ⟨nofun, fun _ j hj => (hq j).not_opened hj.1,
      fun j hj => absurd hj (hq j).not_opened⟩

/-- The calls that wait drop the handle, one after the other. -/
theorem run_nulls (s : SocketMode) : ∃ as, Run slack.act (fun _ a => slack.Completes a) s as
    { s with
      socketTransport := if s.nulling = 0 then s.socketTransport else none
      nulling := 0 } := by
  obtain ⟨starting, r, created, ts, nulling, failed⟩ := s
  induction nulling generalizing r with
  | zero => exact ⟨[], .nil⟩
  | succ nulling ih =>
    obtain ⟨as, run⟩ := ih none
    refine ⟨.nulls :: as, .cons trivial rfl ?_⟩
    simpa using run

/-- A URL that is fetched, and the socket to it. -/
theorem exec_connect {s : SocketMode} {first : Bool} (h : (s.transports i).flow = .fetching first) :
    exec slack.act s [.url i true, .socket i true] =
      some (s.set i { s.transports i with flow := .opened }) := by
  simp [exec, slack, SocketMode.act, h, SocketMode.set]

theorem quiet_update_of_ne (hq : ∀ j, j ≠ i → (ts j).Quiet) (t : SocketModeTransport) :
    ∀ j, j ≠ i → (Function.update ts i t j).Quiet := by
  intro j hj
  rw [Function.update_of_ne hj]
  exact hq j hj

theorem quiet_update {t : SocketModeTransport} (hq : ∀ j, j ≠ i → (ts j).Quiet) (ht : t.Quiet) :
    ∀ j, (Function.update ts i t j).Quiet := by
  intro j
  by_cases hj : j = i
  · rw [hj, Function.update_self]
    exact ht
  · rw [Function.update_of_ne hj]
    exact hq j hj

/-- With one open socket, nothing is awaited. -/
theorem settled_opened {r : Option Nat} {closed failed : Bool}
    (hq : ∀ j, j ≠ i → (ts j).Quiet) :
    slack.Settled ⟨false, r, k, Function.update ts i ⟨closed, false, .opened⟩, 0, failed⟩ := by
  refine ⟨rfl, rfl, fun j => ?_⟩
  dsimp only
  by_cases hj : j = i
  · rw [hj, Function.update_self]
    exact ⟨rfl, .inr rfl⟩
  · rw [Function.update_of_ne hj]
    exact ⟨(hq j hj).2, .inl (hq j hj).1⟩

/-- A socket for a URL that is fetched opens in any case; control is lost if it delivers while
none is wanted, or the handle is another. -/
theorem not_willControl_fetching {w first closed failed : Bool} {r : Option Nat} {nulling : Nat}
    (hq : ∀ j, j ≠ i → (ts j).Quiet) (hi : ts i = ⟨closed, false, .fetching first⟩)
    (hwrong : w = false ∧ closed = false ∨ (if nulling = 0 then r else none) ≠ some i) :
    ¬ slack.WillControl w ⟨false, r, k, ts, nulling, failed⟩ := by
  obtain ⟨as, run⟩ := run_nulls ⟨false, r, k, ts, nulling, failed⟩
  refine Transports.not_willControl run _ (by simp [slack])
    (exec_connect (congrArg SocketModeTransport.flow hi)) ?_ fun hc => ?_
  · dsimp only
    rw [hi]
    exact settled_opened hq
  · have hopened : (Function.update ts i { ts i with flow := .opened } i).flow = .opened := by
      rw [Function.update_self]
    rcases hwrong with ⟨rfl, rfl⟩ | hne
    · refine hc.none rfl i ⟨hopened, ?_⟩
      dsimp only [SocketMode.set]
      rw [Function.update_self, hi]
    · exact hne (hc.referred i hopened)

theorem startSocketMode_none (ts : Nat → SocketModeTransport) (k nulling : Nat) (failed : Bool) :
    SocketMode.startSocketMode ⟨false, none, k, ts, nulling, failed⟩ =
      ⟨false, some k, k + 1, Function.update ts k ⟨false, false, .fetching true⟩, nulling,
        false⟩ := rfl

/-- A transport that is made while none is wanted, or the handle is still to be dropped. -/
theorem not_willControl_start {stopped failed : Bool} {nulling : Nat} (hq : ∀ j, (ts j).Quiet)
    (h : ¬ (stopped = false ∧ nulling = 0)) :
    ¬ slack.WillControl (!stopped)
      (SocketMode.startSocketMode ⟨false, none, k, ts, nulling, failed⟩) := by
  rw [startSocketMode_none]
  refine not_willControl_fetching (quiet_update_of_ne (fun j _ => hq j) _)
    (Function.update_self ..) ?_
  cases stopped with
  | true => exact .inl ⟨rfl, rfl⟩
  | false =>
    have hnulling : nulling ≠ 0 := fun he => h ⟨rfl, he⟩
    refine .inr ?_
    rw [if_neg hnulling]
    exact nofun

/-- A transport that is made when one is wanted. -/
theorem live_start {nulling : Nat} {failed : Bool} (hnulling : nulling = 0)
    (hq : ∀ j, (ts j).Quiet) :
    SocketInv true (SocketMode.startSocketMode ⟨false, none, k, ts, nulling, failed⟩) := by
  subst hnulling
  rw [startSocketMode_none]
  refine .live k (k + 1) _ (quiet_update_of_ne (fun j _ => hq j) _) ?_
  rw [Function.update_self]
  exact ⟨rfl, by simp⟩

theorem SocketModeTransport.quiet_close {t : SocketModeTransport}
    (h : ∀ first, t.flow ≠ .fetching first) : t.close.Quiet := by
  unfold close Quiet
  cases hflow : t.flow with
  | fetching first => exact absurd hflow (h first)
  | idle | opening _ | opened => exact ⟨rfl, rfl⟩

theorem slack_pause {w : Bool} {s : SocketMode} (hs : SocketInv w s) :
    slackRules.pause s ∧ SocketInv false s.doPause ∨
      ¬ slackRules.pause s ∧ ¬ slack.WillControl false s.doPause := by
  cases hs with
  | starting k ts hq =>
    -- the transport is made all the same
    have hmade : ¬ slack.WillControl (!true)
        (SocketMode.startSocketMode ⟨false, none, k, ts, 0, false⟩) :=
      not_willControl_start hq fun h => Bool.false_ne_true h.1.symm
    exact .inr ⟨fun h => Bool.false_ne_true h.1.symm,
      Transports.not_willControl_of_act (a := .authTest) trivial rfl hmade⟩
  | failed k ts hq => exact .inl ⟨⟨rfl, nofun⟩, .down none k ts 0 true hq nofun⟩
  | down r k ts nulling failed hq hf =>
    refine .inl ⟨⟨rfl, fun i first _ hflow => ?_⟩, ?_⟩
    · have hidle := (hq i).1
      dsimp only at hflow
      rw [hflow] at hidle
      cases hidle
    · cases r with
      | none => exact .down none k ts nulling failed hq hf
      | some i =>
        refine .down _ _ _ _ _ (quiet_update (fun j _ => hq j) ?_) hf
        refine SocketModeTransport.quiet_close fun first hflow => ?_
        have hidle := (hq i).1
        dsimp only at hflow
        rw [hflow] at hidle
        cases hidle
  | live i k ts hq hi =>
    by_cases hfetching : ∃ first, (ts i).flow = .fetching first
    · obtain ⟨first, hflow⟩ := hfetching
      refine .inr ⟨fun h => h.2 i first rfl hflow, ?_⟩
      -- the socket opens after the transport was closed
      have hclosed : (ts i).close = ⟨true, false, .fetching first⟩ := by
        simp [SocketModeTransport.close, hflow]
      refine not_willControl_fetching (quiet_update_of_ne hq _)
        ((Function.update_self ..).trans hclosed) (.inr ?_)
      simp [hflow]
    · refine .inl ⟨⟨rfl, fun j first hj hflow => ?_⟩, ?_⟩
      · cases hj
        exact hfetching ⟨first, hflow⟩
      · exact .down _ _ _ _ _ (quiet_update hq (SocketModeTransport.quiet_close
          fun first hflow => hfetching ⟨first, hflow⟩)) fun _ => rfl

theorem slack_resume {s : SocketMode} (stopped : Bool) (hs : SocketInv false s) :
    slackRules.resume stopped s ∧ SocketInv (!stopped) s.doResume ∨
      ¬ slackRules.resume stopped s ∧ ¬ slack.WillControl (!stopped) s.doResume := by
  cases hs with
  | down r k ts nulling failed hq hf =>
    cases r with
    | none =>
      by_cases h : stopped = false ∧ nulling = 0
      · obtain ⟨rfl, hnulling⟩ := h
        exact .inl ⟨⟨rfl, hnulling⟩, live_start hnulling hq⟩
      · refine .inr ⟨fun hr => h ?_, not_willControl_start hq h⟩
        cases stopped with
        | true => exact absurd rfl hr
        | false => exact ⟨rfl, hr.2⟩
    | some i =>
      cases stopped with
      | true => exact .inl ⟨nofun, .down (some i) k ts nulling failed hq hf⟩
      | false =>
        -- the handle is dropped, and no transport is made
        refine .inr ⟨fun hr => Option.some_ne_none i hr.1, ?_⟩
        obtain ⟨as, run⟩ := run_nulls ⟨false, some i, k, ts, nulling, failed⟩
        refine Transports.not_willControl run [] (List.forall_mem_nil _) rfl
          ⟨rfl, rfl, fun j => ⟨(hq j).2, .inl (hq j).1⟩⟩ fun hc => ?_
        rcases hc.one rfl with hfailed | ⟨j, hj⟩
        · have hf' : failed = false := hf nofun
          rw [hf'] at hfailed
          cases hfailed
        · exact (hq j).not_opened ((hj j).mpr rfl).1

/-- A step of the live transport that keeps it live. -/
theorem live_set {t : SocketModeTransport} (hq : ∀ j, j ≠ i → (ts j).Quiet) (ht : t.Live) :
    SocketInv true (SocketMode.set ⟨false, some i, k, ts, 0, false⟩ i t) := by
  refine .live i k _ (quiet_update_of_ne hq t) ?_
  rw [Function.update_self]
  exact ht

theorem SocketModeTransport.Live.timer_off {t : SocketModeTransport} (h : t.Live)
    (hflow : t.flow ≠ .idle) : t.reconnectTimer = false :=
  Bool.eq_false_iff.mpr fun ht => hflow (h.2.mp ht)

/-- A socket that is lost is opened again. -/
theorem SocketModeTransport.Live.lose {t : SocketModeTransport} (h : t.Live)
    (hflow : t.flow ≠ .idle) : t.lose.Live := by
  simp [SocketModeTransport.lose, scheduleReconnect, Live, h.1, h.timer_off hflow]

/-- What a step of a transport finds: it is the live one, and not where nothing goes on. -/
theorem SocketInv.live_of {w : Bool} {s : SocketMode} {j : Nat} (hs : SocketInv w s)
    (hj : ¬ (s.transports j).Quiet) :
    ∃ k ts, (∀ j', j' ≠ j → (ts j').Quiet) ∧ (ts j).Live ∧ w = true ∧
      s = ⟨false, some j, k, ts, 0, false⟩ := by
  cases hs with
  | starting k ts hq => exact absurd (hq j) hj
  | failed k ts hq => exact absurd (hq j) hj
  | down r k ts nulling failed hq hf => exact absurd (hq j) hj
  | live i k ts hq hi =>
    obtain rfl : j = i := Classical.byContradiction fun hne => hj (hq j hne)
    exact ⟨k, ts, hq, hi, rfl, rfl⟩

/-- The transport that the instance has given up reconnects. -/
theorem not_willControl_given_up {w : Bool} (hq : ∀ j, j ≠ i → (ts j).Quiet) (hi : (ts i).Live)
    (htimer : (ts i).reconnectTimer = false) :
    ¬ slack.WillControl w
      (SocketMode.set ⟨false, some i, k, ts, 0, false⟩ i (ts i).lose).connectFailed := by
  have hlost : (ts i).lose = ⟨false, true, .idle⟩ := by
    simp [SocketModeTransport.lose, SocketModeTransport.scheduleReconnect, hi.1, htimer]
  rw [hlost]
  refine Transports.not_willControl_of_act (a := .timer i)
    (u := ⟨false, none, k, Function.update ts i ⟨false, false, .fetching false⟩, 0, true⟩)
    trivial ?_ ?_
  · simp [slack, SocketMode.act, SocketMode.connectFailed, SocketMode.set,
      SocketModeTransport.reopen]
  · exact not_willControl_fetching (quiet_update_of_ne hq _) (Function.update_self ..)
      (.inr nofun)

theorem SocketModeTransport.not_quiet_of_flow {t : SocketModeTransport} (h : t.flow ≠ .idle) :
    ¬ t.Quiet := fun hq => h hq.1

theorem slack_act {w : Bool} {s s' : SocketMode} {a : SocketAct} (hs : SocketInv w s)
    (hact : s.act a = some s') :
    slackRules.act s a ∧ SocketInv w s' ∨ ¬ slackRules.act s a ∧ ¬ slack.WillControl w s' := by
  cases a with
  | authTest =>
    cases hs with
    | starting k ts hq =>
      cases hact
      exact .inl ⟨trivial, live_start rfl hq⟩
    | live _ _ _ _ _ | failed _ _ _ | down _ _ _ _ _ _ _ => cases hact
  | nulls =>
    cases hs with
    | starting _ _ _ | live _ _ _ _ _ | failed _ _ _ => cases hact
    | down r k ts nulling failed hq hf =>
      cases nulling with
      | zero => cases hact
      | succ nulling =>
        cases hact
        exact .inl ⟨trivial, .down none k ts nulling failed hq fun h => absurd rfl h⟩
  | url j ok =>
    simp only [SocketMode.act] at hact
    split at hact
    · rename_i first hflow
      have hne : (s.transports j).flow ≠ .idle := by rw [hflow]; exact nofun
      obtain ⟨k, ts, hq, hj, rfl, rfl⟩ :=
        hs.live_of (SocketModeTransport.not_quiet_of_flow hne)
      cases hact
      refine .inl ⟨trivial, ?_⟩
      cases ok with
      | true => exact live_set hq ⟨hj.1, by simp [hj.timer_off hne]⟩
      | false =>
        cases first with
        | false => exact live_set hq (hj.lose hne)
        | true => exact .failed k _ (quiet_update hq ⟨rfl, hj.timer_off hne⟩)
    · cases hact
  | socket j ok =>
    simp only [SocketMode.act] at hact
    split at hact
    · rename_i first hflow
      have hne : (s.transports j).flow ≠ .idle := by rw [hflow]; exact nofun
      obtain ⟨k, ts, hq, hj, rfl, rfl⟩ :=
        hs.live_of (SocketModeTransport.not_quiet_of_flow hne)
      cases hact
      cases ok with
      | true => exact .inl ⟨trivial, live_set hq ⟨hj.1, by simp [hj.timer_off hne]⟩⟩
      | false =>
        cases first with
        | false =>
          refine .inl ⟨fun h => ?_, live_set hq (hj.lose hne)⟩
          rw [hflow] at h
          cases h
        | true =>
          exact .inr ⟨fun h => h hflow, not_willControl_given_up hq hj (hj.timer_off hne)⟩
    · cases hact
  | drops j =>
    simp only [SocketMode.act] at hact
    split at hact
    · rename_i hflow
      have hne : (s.transports j).flow ≠ .idle := by rw [hflow]; exact nofun
      obtain ⟨k, ts, hq, hj, rfl, rfl⟩ :=
        hs.live_of (SocketModeTransport.not_quiet_of_flow hne)
      cases hact
      exact .inl ⟨trivial, live_set hq (hj.lose hne)⟩
    · cases hact
  | timer j =>
    simp only [SocketMode.act] at hact
    split at hact
    · rename_i htimer
      have hnq : ¬ (s.transports j).Quiet := fun hq => Bool.false_ne_true (hq.2.symm.trans htimer)
      obtain ⟨k, ts, hq, hj, rfl, rfl⟩ := hs.live_of hnq
      cases hact
      refine .inl ⟨trivial, live_set hq ?_⟩
      simp [SocketModeTransport.reopen, SocketModeTransport.Live, hj.1]
    · cases hact

theorem slack_decides : Transports.Decides slack slackRules SocketInv where
  start := .starting 0 _ fun _ => ⟨rfl, rfl⟩
  controlled := SocketInv.controlled
  completes := by
    intro w s a _ ha
    cases a with
    | authTest | url _ _ | drops _ | timer _ | nulls => exact trivial
    | socket i ok =>
      obtain rfl : ok = true := ha
      exact trivial
  pause := slack_pause
  resume := slack_resume
  act := slack_act

end Slack

/-! ### All three -/

/-- **One live transport.**  The runs in which, after each step and once all that is awaited has
gone well, exactly the transport that is wanted is live. -/
theorem oneLive_iff (as : List (InstanceLabel PollAct)) (s : Instance LongPoll)
    (bs : List (InstanceLabel SocketAct)) (t : Instance SocketMode)
    (cs : List (InstanceLabel GatewayAct)) (u : Instance Gateways) :
    (telegram.Obeyed as s ↔ Run telegram.step telegramRules.Meets telegram.start as s) ∧
    (slack.Obeyed bs t ↔ Run slack.step slackRules.Meets slack.start bs t) ∧
    (discord.Obeyed cs u ↔ Run discord.step discordRules.Meets discord.start cs u) :=
  ⟨telegram_decides.kept_under_control_iff as s, slack_decides.kept_under_control_iff bs t,
    discord_decides.kept_under_control_iff cs u⟩

/-- Telegram is paused and resumed while a poll is in flight; the first socket of Slack fails to
open; the gateway of Discord is disconnected. -/
theorem transport_lost :
    (¬ ∀ as s, Run telegram.step Any telegram.start as s →
      telegram.WillControl s.wanted s.transport) ∧
    (¬ ∀ as s, Run slack.step Any slack.start as s → slack.WillControl s.wanted s.transport) ∧
    ¬ ∀ as s, Run discord.step Any discord.start as s →
      discord.WillControl s.wanted s.transport := by
  refine ⟨fun h => ?_, fun h => ?_, fun h => ?_⟩
  · have hw := h [.act .started, .pauseFor .manual, .resumeFrom .manual] _ (Run.any_of_exec rfl)
    refine telegram_decides.lost (s := ⟨{.manual}, false, ⟨false, none, true, [0], [0], 1⟩⟩)
      (.resumeFrom .manual) false rfl (.ending 0 [0] 1 (by decide) (by decide)) rfl
      (fun hmeets => ?_) hw
    exact Bool.false_ne_true (hmeets (by decide)).symm
  · have hw := h [.act .authTest, .act (.url 0 true), .act (.socket 0 false)] _
      (Run.any_of_exec rfl)
    have hstarted := slack_decides.kept slack_decides.start (a := .authTest) rfl trivial
    have hopening := slack_decides.kept hstarted (a := .url 0 true) rfl trivial
    exact slack_decides.lost (s := ⟨∅, false, _⟩) (.act (.socket 0 false)) true rfl hopening rfl
      (fun hmeets => hmeets rfl) hw
  · have hw := h [.act .started, .act (.opens 0), .act (.drops 0)] _ (Run.any_of_exec rfl)
    exact discord_decides.lost (s := ⟨∅, false, _⟩) (.act (.drops 0)) true rfl (.opened 0 1) rfl id
      hw

end Declaragent.Channels
