import Declaragent.Sources.Pausing

/-!
# Sources — what the pause reasons make of the transport

The set of pause reasons changes at once, while the consumer on the broker is stopped and started
by calls that are awaited.  AMQP and NATS hold the consumer in a nullable handle, which `doPause`
and `doResume` look at before they await; MQTT sends commands that take effect in the order in
which they are sent; SQS has one poll loop, which looks at a flag.

* `controls_iff`: where the steps that leave a source under control are known, the runs that stay
  under control are those of such steps.
* `obeyed_iff`: the runs in which the reasons control the transport, for each of the adapters.
-/

namespace Declaragent.Sources
open Transition

/-- What an adapter's `doPause` and `doResume` do up to their first await, and what its own steps
do.  A step `Completes` if an awaited call settles in it without an error. -/
structure Transport (τ α : Type) where
  init : τ
  doPause : τ → τ
  doResume : τ → τ
  act : τ → α → Option τ
  Completes : α → Prop
  /-- Nothing is awaited. -/
  Settled : τ → Prop
  consumers : τ → Nat

/-- A source and its transport. -/
structure Adapter (τ : Type) where
  source : Source := {}
  transport : τ

inductive AdapterLabel (α : Type) where
  | pauseFor (reason : PauseReason)
  | resumeFrom (reason : PauseReason)
  | act (a : α)

namespace Transport

variable {τ α : Type} (T : Transport τ α)

def start : Adapter τ := { transport := T.init }

/-- The first reason pauses the transport, and the removal of the last one resumes it. -/
def step (s : Adapter τ) : AdapterLabel α → Option (Adapter τ)
  | .pauseFor reason => some {
      source := s.source.pauseFor reason
      transport :=
        if s.source.pauseReasons = ∅ then T.doPause s.transport else s.transport }
  | .resumeFrom reason => some {
      source := s.source.resumeFrom reason
      transport :=
        if reason ∈ s.source.pauseReasons ∧ s.source.pauseReasons.erase reason = ∅ then
          T.doResume s.transport
        else s.transport }
  | .act a => (T.act s.transport a).map fun transport => { s with transport := transport }

/-- One consumer if there is no reason to pause, and none otherwise. -/
def Controlled (s : Adapter τ) : Prop :=
  (0 < T.consumers s.transport ↔ s.source.pauseReasons = ∅) ∧ T.consumers s.transport ≤ 1

/-- The labels with which the awaited calls go on and succeed. -/
def Completing : AdapterLabel α → Prop
  | .act a => T.Completes a
  | .pauseFor _ | .resumeFrom _ => False

/-- Once the awaited calls have settled, the reasons have their way. -/
def WillControl (s : Adapter τ) : Prop :=
  ∀ as t, Run T.step (fun _ a => T.Completing a) s as t → T.Settled t.transport → T.Controlled t

/-- A run in which the reasons control the transport after every step. -/
def Obeyed (as : List (AdapterLabel α)) (t : Adapter τ) : Prop :=
  Run T.step (Leads T.step fun _ u => T.WillControl u) T.start as t

variable {T} {s t : Adapter τ}

theorem not_willControl {as : List (AdapterLabel α)}
    (r : Run T.step (fun _ a => T.Completing a) s as t) (hsettled : T.Settled t.transport)
    (ht : ¬ T.Controlled t) : ¬ T.WillControl s :=
  fun h => ht (h as t r hsettled)

/-- What the calls that succeed keep, and gives control once nothing is awaited, gives it. -/
theorem willControl_of {P : Adapter τ → Prop}
    (hkept : ∀ t a u, P t → T.Completing a → T.step t a = some u → P u)
    (hsettled : ∀ t, P t → T.Settled t.transport → T.Controlled t) (hs : P s) :
    T.WillControl s :=
  fun _ t r ht => hsettled t (Run.invariant hs hkept r) ht

/-- **The rule for an adapter.**  If a step from a state of the invariant either meets the
condition and keeps the invariant, or does not and loses control, the runs under control are those
that meet the condition. -/
theorem controls_iff {P : Adapter τ → Prop} {C : Adapter τ → AdapterLabel α → Prop}
    (hstart : P T.start) (hP : ∀ s, P s → T.WillControl s)
    (hstep : ∀ s a t, P s → T.step s a = some t → C s a ∧ P t ∨ ¬ C s a ∧ ¬ T.WillControl t)
    (as : List (AdapterLabel α)) (t : Adapter τ) :
    T.Obeyed as t ↔ Run T.step C T.start as t := by
  refine Run.leads_iff hstart fun s a t hs hst => ?_
  rcases hstep s a t hs hst with ⟨hC, ht⟩ | ⟨hC, ht⟩
  · exact ⟨iff_of_true (hP t ht) hC, fun _ => ht⟩
  · exact ⟨iff_of_false ht hC, fun h => absurd h ht⟩

end Transport

theorem pauseFor_ne_empty (s : Source) (reason : PauseReason) :
    (s.pauseFor reason).pauseReasons ≠ ∅ :=
  Finset.insert_ne_empty reason s.pauseReasons

/-! ### AMQP and NATS: a handle to the consumer -/

/-- A call that waits: `doPause` for the consumer `c` to stop, `doResume` for a new one, or `seek`
for `c` to stop. -/
inductive HandleTask where
  | stopping (c : Nat)
  | consuming
  | seeking (c : Nat)

/-- The handle (AMQP's `consumerTag`, NATS' `consumer`), the consumers that live on the broker, the
number of those it has made, and the calls that wait. -/
structure HandleState where
  handle : Option Nat := some 0
  live : List Nat := [0]
  created : Nat := 1
  tasks : List HandleTask := []

inductive HandleAct where
  | settles (i : Nat) (ok : Bool)
  | seek

namespace HandleState

def doPause (s : HandleState) : HandleState :=
  match s.handle with
  | none => s
  | some c => { s with tasks := s.tasks ++ [.stopping c] }

def doResume (s : HandleState) : HandleState :=
  match s.handle with
  | some _ => s
  | none => { s with tasks := s.tasks ++ [.consuming] }

def seek (s : HandleState) : HandleState :=
  match s.handle with
  | none => s.doResume
  | some c => { s with tasks := s.tasks ++ [.seeking c] }

/-- What a call does when the one it awaits has settled.  `doPause` swallows an error; it ends
`doResume` and `seek`. -/
def settle (s : HandleState) : HandleTask → Bool → HandleState
  | .stopping c, true => { s with live := s.live.erase c, handle := none }
  | .stopping _, false => { s with handle := none }
  | .consuming, true => { s with
      live := s.live ++ [s.created]
      handle := some s.created
      created := s.created + 1 }
  | .seeking c, true => { s with live := s.live.erase c, handle := none }.doResume
  | .consuming, false | .seeking _, false => s

def act (canSeek : Bool) (s : HandleState) : HandleAct → Option HandleState
  | .settles i ok =>
    (s.tasks[i]?).map fun task => { s with tasks := s.tasks.eraseIdx i }.settle task ok
  | .seek => if canSeek then some s.seek else none

end HandleState

/-- The transport of an adapter with a handle; only NATS can seek. -/
def handleTransport (canSeek : Bool) : Transport HandleState HandleAct where
  init := {}
  doPause := HandleState.doPause
  doResume := HandleState.doResume
  act := HandleState.act canSeek
  Completes
    | .settles _ ok => ok = true
    | .seek => False
  Settled s := s.tasks = []
  consumers s := s.live.length

def amqp : Transport HandleState HandleAct := handleTransport false

def nats : Transport HandleState HandleAct := handleTransport true

/-- Nothing is awaited when the source pauses, resumes or seeks, it seeks only while it runs, and no
awaited call fails but the stop that a `seek` asks for. -/
def Calm (s : Adapter HandleState) : AdapterLabel HandleAct → Prop
  | .pauseFor _ => s.source.pauseReasons = ∅ → s.transport.tasks = []
  | .resumeFrom reason =>
    reason ∈ s.source.pauseReasons ∧ s.source.pauseReasons.erase reason = ∅ →
      s.transport.tasks = []
  | .act (.settles i ok) => ok = false → ∃ c, s.transport.tasks[i]? = some (.seeking c)
  | .act .seek => s.transport.tasks = [] ∧ s.source.pauseReasons = ∅

/-- A state under control.  At most one call waits, and it does what the reasons ask for. -/
inductive HandleInv (reasons : Finset PauseReason) : HandleState → Prop where
  | running (c n : Nat) (h : reasons = ∅) : HandleInv reasons ⟨some c, [c], n, []⟩
  | paused (n : Nat) (h : reasons ≠ ∅) : HandleInv reasons ⟨none, [], n, []⟩
  | stopping (c n : Nat) (h : reasons ≠ ∅) : HandleInv reasons ⟨some c, [c], n, [.stopping c]⟩
  | resuming (n : Nat) (h : reasons = ∅) : HandleInv reasons ⟨none, [], n, [.consuming]⟩
  | seeking (c n : Nat) (h : reasons = ∅) : HandleInv reasons ⟨some c, [c], n, [.seeking c]⟩

section Handle

variable {canSeek : Bool} {reasons : Finset PauseReason} {h h' : HandleState}

theorem HandleInv.controlled {s : Adapter HandleState}
    (hs : HandleInv s.source.pauseReasons s.transport)
    (hsettled : (handleTransport canSeek).Settled s.transport) :
    (handleTransport canSeek).Controlled s := by
  obtain ⟨source, transport⟩ := s
  cases hs with
  | running c n hr => exact ⟨iff_of_true Nat.zero_lt_one hr, le_refl 1⟩
  | paused n hr => exact ⟨iff_of_false (Nat.lt_irrefl 0) hr, Nat.zero_le 1⟩
  | stopping c n hr => cases hsettled
  | resuming n hr => cases hsettled
  | seeking c n hr => cases hsettled

/-- The only call that waits settles. -/
theorem settles_one {task : HandleTask} {i : Nat} {ok : Bool} (htasks : h.tasks = [task])
    (hact : h.act canSeek (.settles i ok) = some h') :
    i = 0 ∧ h' = { h with tasks := [] }.settle task ok := by
  rw [HandleState.act, htasks] at hact
  cases i with
  | zero => exact ⟨rfl, (Option.some.inj hact).symm⟩
  | succ i => cases hact

theorem settles_nil {i : Nat} {ok : Bool} (htasks : h.tasks = []) :
    h.act canSeek (.settles i ok) ≠ some h' := by
  rw [HandleState.act, htasks]
  exact nofun

/-- A call that settles without an error leaves the state under control. -/
theorem HandleInv.settles {i : Nat} (hs : HandleInv reasons h)
    (hact : h.act canSeek (.settles i true) = some h') : HandleInv reasons h' := by
  cases hs with
  | running c n hr => exact absurd hact (settles_nil rfl)
  | paused n hr => exact absurd hact (settles_nil rfl)
  | stopping c n hr =>
    obtain ⟨-, rfl⟩ := settles_one rfl hact
    simpa [HandleState.settle] using HandleInv.paused n hr
  | resuming n hr =>
    obtain ⟨-, rfl⟩ := settles_one rfl hact
    exact .running n (n + 1) hr
  | seeking c n hr =>
    obtain ⟨-, rfl⟩ := settles_one rfl hact
    simpa [HandleState.settle, HandleState.doResume] using HandleInv.resuming n hr

theorem HandleInv.willControl {s : Adapter HandleState}
    (hs : HandleInv s.source.pauseReasons s.transport) :
    (handleTransport canSeek).WillControl s := by
  refine Transport.willControl_of (P := fun s => HandleInv s.source.pauseReasons s.transport)
    (fun t a u ht ha hstep => ?_) (fun t ht => ht.controlled) hs
  cases a with
  | pauseFor reason => exact ha.elim
  | resumeFrom reason => exact ha.elim
  | act a =>
    obtain ⟨transport, hact, rfl⟩ := Option.map_eq_some_iff.mp hstep
    cases a with
    | seek => exact ha.elim
    | settles i ok =>
      obtain rfl : ok = true := ha
      have hsettles : t.transport.act canSeek (.settles i true) = some transport := hact
      exact ht.settles hsettles

/-- The calls settle without an error, in the given order. -/
theorem run_settles (source : Source) {is : List Nat}
    (hexec : exec (fun h i => h.act canSeek (.settles i true)) h is = some h') :
    ∃ as, Run (handleTransport canSeek).step (fun _ a => (handleTransport canSeek).Completing a)
      ⟨source, h⟩ as ⟨source, h'⟩ := by
  induction is generalizing h with
  | nil =>
    obtain rfl := Option.some.inj hexec
    exact ⟨[], .nil⟩
  | cons i is ih =>
    simp only [exec, Option.bind_eq_some_iff] at hexec
    obtain ⟨u, hact, hexec⟩ := hexec
    obtain ⟨as, r⟩ := ih hexec
    refine ⟨.act (.settles i true) :: as, .cons rfl ?_ r⟩
    exact Option.map_eq_some_iff.mpr ⟨u, hact, rfl⟩

/-- Control is lost where the calls can settle so that the number of consumers is wrong. -/
theorem lost {source : Source} (is : List Nat) (h' : HandleState)
    (hexec : exec (fun h i => h.act canSeek (.settles i true)) h is = some h')
    (hsettled : h'.tasks = [])
    (hwrong : (0 < h'.live.length ∧ source.pauseReasons ≠ ∅) ∨
      (h'.live.length = 0 ∧ source.pauseReasons = ∅) ∨ 1 < h'.live.length) :
    ¬ (handleTransport canSeek).WillControl ⟨source, h⟩ := by
  obtain ⟨as, r⟩ := run_settles source hexec
  refine Transport.not_willControl r hsettled ?_
  rintro ⟨hiff, hle⟩
  rcases hwrong with ⟨hlive, hr⟩ | ⟨hlive, hr⟩ | hlive
  · exact hr (hiff.mp hlive)
  · exact absurd (hiff.mpr hr) (by simp only [handleTransport, hlive]; exact Nat.lt_irrefl 0)
  · exact absurd hle (Nat.not_le.mpr hlive)

/-- The reasons after the removal of one that is not the only one are still some. -/
theorem resumeFrom_ne_empty {s : Source} {reason : PauseReason} (hs : s.pauseReasons ≠ ∅)
    (h : ¬ (reason ∈ s.pauseReasons ∧ s.pauseReasons.erase reason = ∅)) :
    (s.resumeFrom reason).pauseReasons ≠ ∅ := by
  rw [(resumeFrom_fields s reason).1]
  intro herase
  by_cases hmem : reason ∈ s.pauseReasons
  · exact h ⟨hmem, herase⟩
  · rw [Finset.erase_eq_of_notMem hmem] at herase
    exact hs herase

theorem resumeFrom_of_empty {s : Source} (reason : PauseReason) (hs : s.pauseReasons = ∅) :
    s.resumeFrom reason = s := by
  rw [Source.resumeFrom, if_neg (by rw [hs]; exact Finset.notMem_empty reason)]

theorem not_last_of_empty {s : Source} {reason : PauseReason} (hs : s.pauseReasons = ∅) :
    ¬ (reason ∈ s.pauseReasons ∧ s.pauseReasons.erase reason = ∅) :=
  fun h => Finset.notMem_empty reason (hs ▸ h.1)

/-- A step that is calm keeps control, and any other loses it. -/
def Decided (canSeek : Bool) (s : Adapter HandleState) (a : AdapterLabel HandleAct)
    (t : Adapter HandleState) : Prop :=
  Calm s a ∧ HandleInv t.source.pauseReasons t.transport ∨
    ¬ Calm s a ∧ ¬ (handleTransport canSeek).WillControl t

theorem decided_pauseFor {source : Source} (hs : HandleInv source.pauseReasons h)
    (reason : PauseReason) :
    Decided canSeek ⟨source, h⟩ (.pauseFor reason)
      ⟨source.pauseFor reason, if source.pauseReasons = ∅ then h.doPause else h⟩ := by
  have hne := pauseFor_ne_empty source reason
  cases hs with
  | running c n hr =>
    rw [if_pos hr]
    exact .inl ⟨fun _ => rfl, .stopping c n hne⟩
  | paused n hr =>
    rw [if_neg hr]
    exact .inl ⟨fun e => absurd e hr, .paused n hne⟩
  | stopping c n hr =>
    rw [if_neg hr]
    exact .inl ⟨fun e => absurd e hr, .stopping c n hne⟩
  | resuming n hr =>
    -- the handle is still null, so the pause does nothing and the consumer comes
    rw [if_pos hr]
    refine .inr ⟨fun hcalm => absurd (hcalm hr) (List.cons_ne_nil _ _), ?_⟩
    exact lost [0] ⟨some n, [n], n + 1, []⟩ rfl rfl (.inl ⟨Nat.zero_lt_one, hne⟩)
  | seeking c n hr =>
    -- the seek resumes after the pause
    rw [if_pos hr]
    refine .inr ⟨fun hcalm => absurd (hcalm hr) (List.cons_ne_nil _ _), ?_⟩
    refine lost [1, 0, 0] ⟨some n, [n], n + 1, []⟩ ?_ rfl (.inl ⟨Nat.zero_lt_one, hne⟩)
    simp [exec, HandleState.act, HandleState.settle, HandleState.doPause, HandleState.doResume]

theorem decided_resumeFrom {source : Source} (hs : HandleInv source.pauseReasons h)
    (reason : PauseReason) :
    Decided canSeek ⟨source, h⟩ (.resumeFrom reason)
      ⟨source.resumeFrom reason,
        if reason ∈ source.pauseReasons ∧ source.pauseReasons.erase reason = ∅ then h.doResume
        else h⟩ := by
  by_cases hr : source.pauseReasons = ∅
  · rw [if_neg (not_last_of_empty hr), resumeFrom_of_empty reason hr]
    exact .inl ⟨fun hlast => absurd hlast (not_last_of_empty hr), hs⟩
  by_cases hlast : reason ∈ source.pauseReasons ∧ source.pauseReasons.erase reason = ∅
  · have hempty : (source.resumeFrom reason).pauseReasons = ∅ := by
      rw [(resumeFrom_fields source reason).1, hlast.2]
    rw [if_pos hlast]
    cases hs with
    | running c n hr' => exact absurd hr' hr
    | resuming n hr' => exact absurd hr' hr
    | seeking c n hr' => exact absurd hr' hr
    | paused n hr' => exact .inl ⟨fun _ => rfl, .resuming n hempty⟩
    | stopping c n hr' =>
      -- the handle is still set, so the resume does nothing and the consumer goes
      refine .inr ⟨fun hcalm => absurd (hcalm hlast) (List.cons_ne_nil _ _), ?_⟩
      refine lost [0] ⟨none, [], n, []⟩ ?_ rfl (.inr (.inl ⟨rfl, hempty⟩))
      simp [exec, HandleState.act, HandleState.settle, HandleState.doResume]
  · have hne := resumeFrom_ne_empty hr hlast
    rw [if_neg hlast]
    cases hs with
    | running c n hr' => exact absurd hr' hr
    | resuming n hr' => exact absurd hr' hr
    | seeking c n hr' => exact absurd hr' hr
    | paused n hr' => exact .inl ⟨fun e => absurd e hlast, .paused n hne⟩
    | stopping c n hr' => exact .inl ⟨fun e => absurd e hlast, .stopping c n hne⟩

theorem decided_seek {source : Source} (hs : HandleInv source.pauseReasons h) :
    Decided canSeek ⟨source, h⟩ (.act .seek) ⟨source, h.seek⟩ := by
  cases hs with
  | running c n hr => exact .inl ⟨⟨rfl, hr⟩, .seeking c n hr⟩
  | paused n hr =>
    -- the seek resumes a source that is paused
    refine .inr ⟨fun hcalm => hr hcalm.2, ?_⟩
    exact lost [0] ⟨some n, [n], n + 1, []⟩ rfl rfl (.inl ⟨Nat.zero_lt_one, hr⟩)
  | stopping c n hr =>
    refine .inr ⟨fun hcalm => hr hcalm.2, ?_⟩
    refine lost [0, 0, 0] ⟨some n, [n], n + 1, []⟩ ?_ rfl (.inl ⟨Nat.zero_lt_one, hr⟩)
    simp [exec, HandleState.act, HandleState.settle, HandleState.seek, HandleState.doResume]
  | resuming n hr =>
    -- both calls find the handle null
    refine .inr ⟨fun hcalm => absurd hcalm.1 (List.cons_ne_nil _ _), ?_⟩
    exact lost [0, 0] ⟨some (n + 1), [n, n + 1], n + 1 + 1, []⟩ rfl rfl
      (.inr (.inr Nat.one_lt_two))
  | seeking c n hr =>
    refine .inr ⟨fun hcalm => absurd hcalm.1 (List.cons_ne_nil _ _), ?_⟩
    refine lost [0, 0, 0, 0] ⟨some (n + 1), [n, n + 1], n + 1 + 1, []⟩ ?_ rfl
      (.inr (.inr Nat.one_lt_two))
    simp [exec, HandleState.act, HandleState.settle, HandleState.seek, HandleState.doResume]

/-- A call that fails. -/
theorem decided_fails {source : Source} {i : Nat} (hs : HandleInv source.pauseReasons h)
    (hact : h.act canSeek (.settles i false) = some h') :
    Decided canSeek ⟨source, h⟩ (.act (.settles i false)) ⟨source, h'⟩ := by
  cases hs with
  | running c n hr => exact absurd hact (settles_nil rfl)
  | paused n hr => exact absurd hact (settles_nil rfl)
  | stopping c n hr =>
    obtain ⟨rfl, rfl⟩ := settles_one rfl hact
    refine .inr ⟨fun hcalm => ?_, ?_⟩
    · obtain ⟨c', hc'⟩ := hcalm rfl
      cases hc'
    · exact lost [] ⟨none, [c], n, []⟩ rfl rfl (.inl ⟨Nat.zero_lt_one, hr⟩)
  | resuming n hr =>
    obtain ⟨rfl, rfl⟩ := settles_one rfl hact
    refine .inr ⟨fun hcalm => ?_, ?_⟩
    · obtain ⟨c', hc'⟩ := hcalm rfl
      cases hc'
    · exact lost [] ⟨none, [], n, []⟩ rfl rfl (.inr (.inl ⟨rfl, hr⟩))
  | seeking c n hr =>
    obtain ⟨rfl, rfl⟩ := settles_one rfl hact
    exact .inl ⟨fun _ => ⟨c, rfl⟩, .running c n hr⟩

theorem decided_step {s t : Adapter HandleState} {a : AdapterLabel HandleAct}
    (hs : HandleInv s.source.pauseReasons s.transport)
    (hstep : (handleTransport canSeek).step s a = some t) : Decided canSeek s a t := by
  cases a with
  | pauseFor reason =>
    obtain rfl := Option.some.inj hstep
    exact decided_pauseFor hs reason
  | resumeFrom reason =>
    obtain rfl := Option.some.inj hstep
    exact decided_resumeFrom hs reason
  | act a =>
    obtain ⟨transport, hact, rfl⟩ := Option.map_eq_some_iff.mp hstep
    have hact : s.transport.act canSeek a = some transport := hact
    cases a with
    | seek =>
      simp only [HandleState.act, Option.ite_none_right_eq_some, Option.some.injEq] at hact
      obtain ⟨-, rfl⟩ := hact
      exact decided_seek hs
    | settles i ok =>
      cases ok with
      | true => exact .inl ⟨nofun, hs.settles hact⟩
      | false => exact decided_fails hs hact

theorem handle_obeyed_iff (as : List (AdapterLabel HandleAct)) (t : Adapter HandleState) :
    (handleTransport canSeek).Obeyed as t ↔
      Run (handleTransport canSeek).step Calm (handleTransport canSeek).start as t := by
  have hstart : HandleInv (handleTransport canSeek).start.source.pauseReasons
      (handleTransport canSeek).start.transport := .running 0 1 rfl
  exact Transport.controls_iff (P := fun s => HandleInv s.source.pauseReasons s.transport)
    hstart (fun _ hs => hs.willControl) (fun _ _ _ hs hstep => decided_step hs hstep) as t

end Handle

/-! ### MQTT: commands in order -/

/-- Whether the topics are subscribed to, and the commands that the broker has not answered: `true`
subscribes and `false` unsubscribes. -/
structure MqttState where
  subscribed : Bool := true
  commands : List Bool := []

/-- The oldest command is answered. -/
def MqttState.act (s : MqttState) (ok : Bool) : Option MqttState :=
  match s.commands with
  | [] => none
  | command :: rest => some {
      subscribed := if ok then command else s.subscribed
      commands := rest }

def mqtt : Transport MqttState Bool where
  init := {}
  doPause s := { s with commands := s.commands ++ [false] }
  doResume s := { s with commands := s.commands ++ [true] }
  act := MqttState.act
  Completes ok := ok = true
  Settled s := s.commands = []
  consumers s := s.subscribed.toNat

/-- No command fails, unless another one waits or there was nothing to do. -/
def Answered (s : Adapter MqttState) : AdapterLabel Bool → Prop
  | .act false => s.transport.commands ≠ [s.transport.subscribed.not]
  | .act true | .pauseFor _ | .resumeFrom _ => True

/-- What the topics will be once the commands have taken effect is what the reasons ask for. -/
def MqttInv (s : Adapter MqttState) : Prop :=
  s.transport.commands.getLastD s.transport.subscribed = true ↔ s.source.pauseReasons = ∅

section Mqtt

variable {s t : Adapter MqttState}

theorem controlled_mqtt_iff :
    mqtt.Controlled s ↔ (s.transport.subscribed = true ↔ s.source.pauseReasons = ∅) := by
  have hle : s.transport.subscribed.toNat ≤ 1 := Bool.toNat_le _
  have hpos : 0 < s.transport.subscribed.toNat ↔ s.transport.subscribed = true := by
    cases s.transport.subscribed <;> decide
  exact ⟨fun h => hpos.symm.trans h.1, fun h => ⟨hpos.trans h, hle⟩⟩

/-- The oldest command fails. -/
theorem MqttInv.fails {source : Source} {subscribed command : Bool} {rest : List Bool}
    (hs : MqttInv ⟨source, subscribed, command :: rest⟩) :
    Answered ⟨source, subscribed, command :: rest⟩ (.act false) ∧
        MqttInv ⟨source, subscribed, rest⟩ ∨
      ¬ Answered ⟨source, subscribed, command :: rest⟩ (.act false) ∧
        ¬ mqtt.WillControl ⟨source, subscribed, rest⟩ := by
  cases rest with
  | cons next rest =>
    -- the outcome is up to a later command
    refine .inl ⟨fun e => ?_, hs⟩
    exact absurd (List.cons.inj e).2 (List.cons_ne_nil _ _)
  | nil =>
    have hs : command = true ↔ source.pauseReasons = ∅ := hs
    by_cases hdone : command = subscribed
    · subst hdone
      refine .inl ⟨fun e => ?_, hs⟩
      exact (Bool.eq_not_self command).mp (List.cons.inj e).1
    · have hnot : command = subscribed.not := Bool.eq_not.mpr hdone
      refine .inr ⟨fun hanswered => hanswered (by rw [hnot]), ?_⟩
      refine Transport.not_willControl .nil rfl fun hcontrolled => ?_
      have hiff : subscribed = true ↔ source.pauseReasons = ∅ :=
        controlled_mqtt_iff.mp hcontrolled
      exact hdone (Bool.eq_iff_iff.mpr (hs.trans hiff.symm))

theorem MqttInv.step {a : AdapterLabel Bool} (hs : MqttInv s) (hstep : mqtt.step s a = some t) :
    Answered s a ∧ MqttInv t ∨ ¬ Answered s a ∧ ¬ mqtt.WillControl t := by
  cases a with
  | pauseFor reason =>
    obtain rfl := Option.some.inj hstep
    have hne := pauseFor_ne_empty s.source reason
    refine .inl ⟨trivial, ?_⟩
    by_cases hr : s.source.pauseReasons = ∅
    · simp only [MqttInv, if_pos hr, mqtt, List.getLastD_concat]
      exact iff_of_false Bool.false_ne_true hne
    · simp only [MqttInv, if_neg hr]
      exact iff_of_false (fun e => hr (hs.mp e)) hne
  | resumeFrom reason =>
    obtain rfl := Option.some.inj hstep
    refine .inl ⟨trivial, ?_⟩
    by_cases hlast :
        reason ∈ s.source.pauseReasons ∧ s.source.pauseReasons.erase reason = ∅
    · simp only [MqttInv, if_pos hlast, mqtt, List.getLastD_concat]
      exact iff_of_true trivial (by rw [(resumeFrom_fields s.source reason).1, hlast.2])
    · simp only [MqttInv, if_neg hlast]
      by_cases hr : s.source.pauseReasons = ∅
      · rw [resumeFrom_of_empty reason hr]
        exact hs
      · exact iff_of_false (fun e => hr (hs.mp e)) (resumeFrom_ne_empty hr hlast)
  | act ok =>
    obtain ⟨source, subscribed, commands⟩ := s
    obtain ⟨transport, hact, rfl⟩ := Option.map_eq_some_iff.mp hstep
    cases commands with
    | nil => cases hact
    | cons command rest =>
      obtain rfl := Option.some.inj hact
      cases ok with
      | true =>
        refine .inl ⟨trivial, ?_⟩
        have hlast := hs
        rw [MqttInv, List.getLastD_cons] at hlast
        exact hlast
      | false => exact hs.fails

/-- What a run without a failure keeps. -/
theorem MqttInv.willControl (hs : MqttInv s) : mqtt.WillControl s := by
  refine Transport.willControl_of (P := MqttInv) (fun t a u ht ha hstep => ?_)
    (fun t ht hsettled => ?_) hs
  · rcases ht.step hstep with ⟨-, hu⟩ | ⟨hfails, -⟩
    · exact hu
    · cases a with
      | pauseFor reason => exact ha.elim
      | resumeFrom reason => exact ha.elim
      | act ok =>
        obtain rfl : ok = true := ha
        exact absurd trivial hfails
  · have hsettled : t.transport.commands = [] := hsettled
    rw [MqttInv, hsettled] at ht
    exact controlled_mqtt_iff.mpr ht

theorem mqtt_obeyed_iff (as : List (AdapterLabel Bool)) (t : Adapter MqttState) :
    mqtt.Obeyed as t ↔ Run mqtt.step Answered mqtt.start as t :=
  Transport.controls_iff (P := MqttInv) (iff_of_true rfl rfl) (fun _ hs => hs.willControl)
    (fun _ _ _ hs hstep => hs.step hstep) as t

end Mqtt

/-! ### SQS: a loop that looks at a flag -/

/-- Where the poll loop is: before its look at the flag, in a receive, or asleep. -/
inductive PollPhase where
  | looking
  | receiving
  | sleeping

structure SqsState where
  paused : Bool := false
  phase : PollPhase := .looking

/-- The loop goes on.  After a receive that failed it sleeps. -/
def SqsState.runPollLoop (s : SqsState) (ok : Bool) : SqsState :=
  match s.phase with
  | .looking => { s with phase := if s.paused then .sleeping else .receiving }
  | .receiving => { s with phase := if ok then .looking else .sleeping }
  | .sleeping => { s with phase := .looking }

/-- The loop consumes if it receives or will do so when it looks at the flag.  A receive that was
in progress when the source paused is waited for. -/
def sqs : Transport SqsState Bool where
  init := {}
  doPause s := { s with paused := true }
  doResume s := { s with paused := false }
  act s ok := some (s.runPollLoop ok)
  Completes ok := ok = true
  Settled s := s.paused = true → s.phase ≠ .receiving
  consumers s :=
    match s.paused, s.phase with
    | true, .looking | true, .sleeping => 0
    | true, .receiving | false, _ => 1

section Sqs

variable {s t : Adapter SqsState}

/-- The flag says whether there is a reason. -/
def SqsInv (s : Adapter SqsState) : Prop :=
  s.transport.paused = true ↔ s.source.pauseReasons ≠ ∅

theorem paused_runPollLoop (s : SqsState) (ok : Bool) : (s.runPollLoop ok).paused = s.paused := by
  unfold SqsState.runPollLoop
  split <;> rfl

theorem SqsInv.step {a : AdapterLabel Bool} (hs : SqsInv s) (hstep : sqs.step s a = some t) :
    SqsInv t := by
  cases a with
  | pauseFor reason =>
    obtain rfl := Option.some.inj hstep
    have hne := pauseFor_ne_empty s.source reason
    by_cases hr : s.source.pauseReasons = ∅
    · simp only [SqsInv, if_pos hr]
      exact iff_of_true rfl hne
    · simp only [SqsInv, if_neg hr]
      exact iff_of_true (hs.mpr hr) hne
  | resumeFrom reason =>
    obtain rfl := Option.some.inj hstep
    by_cases hlast :
        reason ∈ s.source.pauseReasons ∧ s.source.pauseReasons.erase reason = ∅
    · have hempty : (s.source.resumeFrom reason).pauseReasons = ∅ := by
        rw [(resumeFrom_fields s.source reason).1, hlast.2]
      simp only [SqsInv, if_pos hlast]
      exact iff_of_false Bool.false_ne_true (fun hne => hne hempty)
    · simp only [SqsInv, if_neg hlast]
      by_cases hr : s.source.pauseReasons = ∅
      · rw [resumeFrom_of_empty reason hr]
        exact hs
      · exact iff_of_true (hs.mpr hr) (resumeFrom_ne_empty hr hlast)
  | act ok =>
    obtain rfl := Option.some.inj hstep
    have hflag := hs
    rw [SqsInv, ← paused_runPollLoop s.transport ok] at hflag
    exact hflag

theorem SqsInv.controlled (hs : SqsInv s) (hsettled : sqs.Settled s.transport) :
    sqs.Controlled s := by
  obtain ⟨source, paused, phase⟩ := s
  cases paused with
  | false =>
    have hr : source.pauseReasons = ∅ := by
      by_contra hne
      exact Bool.false_ne_true (hs.mpr hne)
    exact ⟨iff_of_true Nat.zero_lt_one hr, le_refl 1⟩
  | true =>
    have hr : source.pauseReasons ≠ ∅ := hs.mp rfl
    cases phase with
    | looking => exact ⟨iff_of_false (Nat.lt_irrefl 0) hr, Nat.zero_le 1⟩
    | receiving => exact absurd rfl (hsettled rfl)
    | sleeping => exact ⟨iff_of_false (Nat.lt_irrefl 0) hr, Nat.zero_le 1⟩

theorem sqs_obeyed_iff (as : List (AdapterLabel Bool)) (t : Adapter SqsState) :
    sqs.Obeyed as t ↔ Run sqs.step Any sqs.start as t := by
  have hstart : SqsInv sqs.start := iff_of_false Bool.false_ne_true (fun hne => hne rfl)
  exact Transport.controls_iff hstart
    (fun _ hs => Transport.willControl_of (fun _ _ _ ht _ hstep => ht.step hstep)
      (fun _ ht => ht.controlled) hs)
    (fun _ _ _ hs hstep => .inl ⟨trivial, hs.step hstep⟩) as t

end Sqs

/-! ### The adapters -/

/-- **The pause reasons control the transport** in every run on SQS, in the runs on MQTT in which
the last command does not fail with something to do, and in the calm runs on AMQP and NATS. -/
theorem obeyed_iff (as : List (AdapterLabel HandleAct)) (t : Adapter HandleState)
    (bs : List (AdapterLabel Bool)) (u : Adapter MqttState)
    (cs : List (AdapterLabel Bool)) (v : Adapter SqsState) :
    (amqp.Obeyed as t ↔ Run amqp.step Calm amqp.start as t) ∧
      (nats.Obeyed as t ↔ Run nats.step Calm nats.start as t) ∧
      (mqtt.Obeyed bs u ↔ Run mqtt.step Answered mqtt.start bs u) ∧
      (sqs.Obeyed cs v ↔ Run sqs.step Any sqs.start cs v) :=
  ⟨handle_obeyed_iff as t, handle_obeyed_iff as t, mqtt_obeyed_iff bs u, sqs_obeyed_iff cs v⟩

/-- A source that is resumed before its consumer has stopped has no reason to pause, and no
consumer. -/
theorem resume_overtakes : ∃ t, Run amqp.step Any amqp.start
        [.pauseFor .breaker, .resumeFrom .breaker, .act (.settles 0 true)] t ∧
      t.source.pauseReasons = ∅ ∧ amqp.Settled t.transport ∧
      amqp.consumers t.transport = 0 := by
  have hreplay : (exec amqp.step amqp.start
      [.pauseFor .breaker, .resumeFrom .breaker, .act (.settles 0 true)]).any (fun t =>
        decide (t.source.pauseReasons = ∅) && t.transport.tasks.isEmpty &&
          t.transport.live.isEmpty) = true := by
    decide
  obtain ⟨t, r, h⟩ := Run.any_of_replay hreplay
  rw [Bool.and_eq_true, Bool.and_eq_true] at h
  obtain ⟨⟨hreasons, htasks⟩, hlive⟩ := h
  exact ⟨t, r, of_decide_eq_true hreasons, List.isEmpty_iff.mp htasks,
    List.length_eq_zero_iff.mpr (List.isEmpty_iff.mp hlive)⟩

end Declaragent.Sources
