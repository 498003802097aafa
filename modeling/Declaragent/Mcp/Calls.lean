import Declaragent.Mcp.Supervisor

/-!
# Mcp — the tool calls of a supervisor

The promise of a tool call is settled once, and a call is sent again only by a respawn whose drain
it missed, in a run that accepts no call while a respawn could take it for one of its own: none
while a drain is pending, where calls that overflow are rejected, and where they are sent again
none between a drain and the moment its respawn sends them.

* `Orderly`: the condition.
* `CallKept` is what such a run keeps of each call.
* `settledOnce_of_run`: every call of such a run is settled once.
-/

namespace Declaragent.Mcp
open Transition

variable {ι ρ : Type} {opts : SupervisorOptions ι} {s t : Supervisor ι ρ} {i : Nat}
  {id : Nat} {call : InFlightCall ι ρ}

/-- The calls that a drain is about, until its loop goes on. -/
def Phase.pendingDrain : Phase → Option (List Nat)
  | .draining active => some active
  | .drained overflow => some overflow
  | _ => none

/-- Whether the loop has drained and is still to send again what it has drained. -/
def RestartLoop.resubmits (loop : RestartLoop) : Bool :=
  loop.drains && decide (loop.phase ≠ .ended) && loop.phase.pendingDrain.isNone

/-- The restart loops that have sent the call again, each as often as it has. -/
def InFlightCall.resent (call : InFlightCall ι ρ) : List Nat := call.sends.filterMap (·.loop)

/-- The promise of a call is settled once, and at the latest when the supervisor stops or the call
has finished: its race is over and no drain has left it for a respawn, or a respawn has sent it
again and was answered. -/
structure SettledOnce (opts : SupervisorOptions ι) (s : Supervisor ι ρ) (call : InFlightCall ι ρ) :
    Prop where
  once : call.settlements.length ≤ 1
  stopped : s.stopped = true → call.settlements.length = 1
  finished : call.race = .done →
    call.settlements.length = 1 ∨ opts.resubmitOnRespawn = true ∧ call.missed ≠ []
  answered : ∀ i ∈ call.resent, i ∈ call.reissues ∨ call.settlements.length = 1
  single : opts.resubmitOnRespawn = false → call.sends.length = 1
  again : call.sends.length = call.resent.length + 1 ∧ call.resent.Nodup ∧
    ∀ i ∈ call.resent, i ∈ call.missed

def Orderly (opts : SupervisorOptions ι) (s : Supervisor ι ρ) : SupervisorLabel ι ρ → Prop
  | .callTool _ _ _ _ => s.state = .ready → ∀ i < s.nextLoop,
      if opts.resubmitOnRespawn then (s.loops i).resubmits = false
      else (s.loops i).phase.pendingDrain = none
  | _ => True

/-! ### What a run keeps -/

structure CallKept (opts : SupervisorOptions ι) (s : Supervisor ι ρ) (id : Nat)
    (call : InFlightCall ι ρ) : Prop where
  lt : id < s.nextCallId
  settlements : call.settlements.length = if call.settled then 1 else 0
  tracked : call.settled = false → call.tracked = true
  stopped : s.stopped = true → call.settled = true
  generation : call.generation ≤ s.generation
  finished : call.race = .crashed ∨ call.race = .done →
    call.settled = true ∨ call.generation < s.generation
  old : call.generation < s.generation →
    call.settled = true ∨ opts.resubmitOnRespawn = true ∧ call.missed ≠ []
  drain : opts.resubmitOnRespawn = false → call.settled = false →
    call.generation = s.generation →
      ∀ i active, (s.loops i).phase.pendingDrain = some active → id ∈ active
  waits : opts.resubmitOnRespawn = true → call.settled = false →
    ∀ i, (s.loops i).resubmits = true → i ∈ call.missed
  sends : call.sends.length = call.resent.length + 1
  single : opts.resubmitOnRespawn = false → call.resent = []
  nodup : call.resent.Nodup
  resent : ∀ i ∈ call.resent, i ∈ call.missed ∧ i < s.nextLoop ∧ (s.loops i).phase = .ended ∧
    (i ∈ call.reissues ∨ call.settled = true)

structure CallsKept (opts : SupervisorOptions ι) (s : Supervisor ι ρ) : Prop where
  call : ∀ id call, s.calls id = some call → CallKept opts s id call
  fresh : ∀ i, s.nextLoop ≤ i → (s.loops i).phase = .ended
  returned : ∀ i, (s.loops i).phase = .returned → (s.loops i).drains = true

theorem CallKept.settledOnce (h : CallKept opts s id call) : SettledOnce opts s call := by
  have hone : call.settled = true → call.settlements.length = 1 := by
    intro hsettled
    rw [h.settlements, hsettled]
    rfl
  refine ⟨?_, fun hstopped => hone (h.stopped hstopped), fun hdone => ?_, fun i hi => ?_,
    fun hoff => ?_, h.sends, h.nodup, fun i hi => (h.resent i hi).1⟩
  · rw [h.settlements]
    split <;> decide
  · rcases h.finished (.inr hdone) with hsettled | hold
    · exact .inl (hone hsettled)
    · exact (h.old hold).imp_left hone
  · exact (h.resent i hi).2.2.2.imp_right hone
  · rw [h.sends, h.single hoff]
    rfl

/-- What a call depends on. -/
theorem CallKept.congr (h : CallKept opts s id call) (hid : s.nextCallId ≤ t.nextCallId)
    (hgeneration : t.generation = s.generation) (hstopped : t.stopped = s.stopped)
    (hloops : t.loops = s.loops) (hnext : t.nextLoop = s.nextLoop) : CallKept opts t id call := by
  refine ⟨Nat.lt_of_lt_of_le h.lt hid, h.settlements, h.tracked, ?_, ?_, ?_, ?_, ?_, ?_, h.sends,
    h.single, h.nodup, ?_⟩
  · rw [hstopped]
    exact h.stopped
  · rw [hgeneration]
    exact h.generation
  · rw [hgeneration]
    exact h.finished
  · rw [hgeneration]
    exact h.old
  · rw [hgeneration, hloops]
    exact h.drain
  · rw [hloops]
    exact h.waits
  · rw [hloops, hnext]
    exact h.resent

/-! ### Steps of the loops -/

/-- How a step may change a loop, as far as the calls are concerned. -/
structure LoopStep (opts : SupervisorOptions ι) (s t : Supervisor ι ρ) (i : Nat) : Prop where
  drain : ∀ active, (t.loops i).phase.pendingDrain = some active →
    ∀ id call, s.calls id = some call → opts.resubmitOnRespawn = false → call.settled = false →
      call.generation = s.generation → id ∈ active
  waits : (t.loops i).resubmits = true → (s.loops i).resubmits = true
  ended : i < s.nextLoop → (s.loops i).phase = .ended → (t.loops i).phase = .ended
  fresh : t.nextLoop ≤ i → (t.loops i).phase = .ended
  returned : (t.loops i).phase = .returned → (t.loops i).drains = true

theorem CallsKept.loopStep (h : CallsKept opts s) (hloop : t.loops i = s.loops i)
    (hnext : s.nextLoop ≤ t.nextLoop) : LoopStep opts s t i := by
  refine ⟨fun active hactive id call hcall hoff hsettled hgeneration => ?_, fun hw => ?_,
    fun _ hended => ?_, fun hi => ?_, fun hreturned => ?_⟩
  · rw [hloop] at hactive
    exact (h.call id call hcall).drain hoff hsettled hgeneration i active hactive
  · rwa [hloop] at hw
  · rwa [hloop]
  · rw [hloop]
    exact h.fresh i (Nat.le_trans hnext hi)
  · rw [hloop] at hreturned ⊢
    exact h.returned i hreturned

/-- The calls are left alone. -/
theorem CallsKept.frame (h : CallsKept opts s) (hcalls : t.calls = s.calls)
    (hid : t.nextCallId = s.nextCallId) (hgeneration : t.generation = s.generation)
    (hstopped : t.stopped = s.stopped) (hnext : s.nextLoop ≤ t.nextLoop)
    (hloops : ∀ i, LoopStep opts s t i) : CallsKept opts t := by
  refine ⟨fun id call hcall => ?_, fun i => (hloops i).fresh, fun i => (hloops i).returned⟩
  rw [hcalls] at hcall
  have hkept := h.call id call hcall
  refine ⟨hid ▸ hkept.lt, hkept.settlements, hkept.tracked, hstopped ▸ hkept.stopped,
    hgeneration ▸ hkept.generation, hgeneration ▸ hkept.finished, hgeneration ▸ hkept.old, ?_, ?_,
    hkept.sends, hkept.single, hkept.nodup, fun i hi => ?_⟩
  · intro hoff hsettled hcurrent i active hactive
    exact (hloops i).drain active hactive id call hcall hoff hsettled (hgeneration ▸ hcurrent)
  · intro hon hsettled i hi
    exact hkept.waits hon hsettled i ((hloops i).waits hi)
  · obtain ⟨hmissed, hlt, hended, hanswered⟩ := hkept.resent i hi
    exact ⟨hmissed, Nat.lt_of_lt_of_le hlt hnext, (hloops i).ended hlt hended, hanswered⟩

/-- Neither the calls nor the loops change. -/
theorem CallsKept.same (h : CallsKept opts s) (hcalls : t.calls = s.calls)
    (hid : t.nextCallId = s.nextCallId) (hgeneration : t.generation = s.generation)
    (hstopped : t.stopped = s.stopped) (hloops : t.loops = s.loops)
    (hnext : t.nextLoop = s.nextLoop) : CallsKept opts t :=
  h.frame hcalls hid hgeneration hstopped (Nat.le_of_eq hnext.symm) fun i =>
    h.loopStep (congrFun hloops i) (Nat.le_of_eq hnext.symm)

/-- A loop goes on after its drain. -/
theorem CallsKept.setLoop (h : CallsKept opts s) {loop : RestartLoop}
    (hrun : (s.loops i).phase ≠ .ended) (hdrained : (s.loops i).phase.pendingDrain = none)
    (hpending : loop.phase.pendingDrain = none) (hdrains : loop.drains = (s.loops i).drains)
    (hreturned : loop.phase = .returned → loop.drains = true) :
    CallsKept opts (s.setLoop i loop) := by
  refine h.frame rfl rfl rfl rfl (Nat.le_refl _) fun j => ?_
  by_cases hj : j = i
  · subst hj
    have hself := Supervisor.setLoop_self s j loop
    refine ⟨fun active hactive => ?_, fun hw => ?_, fun _ hended => absurd hended hrun,
      fun hi => absurd (h.fresh j hi) hrun, fun hr => ?_⟩
    · rw [hself, hpending] at hactive
      cases hactive
    · rw [hself, RestartLoop.resubmits, hdrains] at hw
      simp only [Bool.and_eq_true] at hw
      simp [RestartLoop.resubmits, hw.1.1, hrun, hdrained]
    · rw [hself] at hr ⊢
      exact hreturned hr
  · exact h.loopStep (Supervisor.setLoop_of_ne s loop hj) (Nat.le_refl _)

theorem CallsKept.setPhase (h : CallsKept opts s) {phase : Phase}
    (hrun : (s.loops i).phase ≠ .ended) (hdrained : (s.loops i).phase.pendingDrain = none)
    (hpending : phase.pendingDrain = none)
    (hreturned : phase = .returned → (s.loops i).drains = true) :
    CallsKept opts (s.setPhase i phase) :=
  h.setLoop hrun hdrained hpending rfl hreturned

theorem CallsKept.returnLoop (h : CallsKept opts s) (hrun : (s.loops i).phase ≠ .ended)
    (hdrained : (s.loops i).phase.pendingDrain = none) : CallsKept opts (s.returnLoop i) := by
  refine h.setPhase hrun hdrained ?_ fun hr => ?_
  · split <;> rfl
  · by_contra hdrains
    rw [if_neg hdrains] at hr
    cases hr

theorem CallsKept.whileNotStopped (h : CallsKept opts s) (hrun : (s.loops i).phase ≠ .ended)
    (hdrained : (s.loops i).phase.pendingDrain = none) : CallsKept opts (s.whileNotStopped i) := by
  unfold Supervisor.whileNotStopped
  split
  · exact h.returnLoop hrun hdrained
  · exact h.setPhase hrun hdrained rfl nofun

theorem CallsKept.allow (h : CallsKept opts s) (now : Int) :
    CallsKept opts (s.allow opts now).1 := by
  obtain ⟨probes, hallow⟩ := Supervisor.allow_eq opts s now
  rw [hallow]
  exact h.same rfl rfl rfl rfl rfl rfl

theorem CallsKept.record (h : CallsKept opts s) (now : Int) (success : Bool) :
    CallsKept opts (s.record opts now success) ∧ (s.record opts now success).loops = s.loops := by
  obtain ⟨circuit, probes, state, hrecord⟩ := Supervisor.record_eq opts s now success
  rw [hrecord]
  exact ⟨h.same rfl rfl rfl rfl rfl rfl, rfl⟩

theorem CallsKept.wake (h : CallsKept opts s) (hphase : (s.loops i).phase = .sleeping)
    (created : Bool) : CallsKept opts (s.wake i created) := by
  have hrun : (s.loops i).phase ≠ .ended := by rw [hphase]; exact nofun
  have hdrained : (s.loops i).phase.pendingDrain = none := by rw [hphase]; rfl
  unfold Supervisor.wake
  split
  · exact h.returnLoop hrun hdrained
  · split
    · refine CallsKept.setPhase ?_ hrun hdrained rfl nofun
      exact h.same rfl rfl rfl rfl rfl rfl
    · refine CallsKept.setPhase ?_ hrun hdrained rfl nofun
      exact h.same rfl rfl rfl rfl rfl rfl

theorem CallsKept.install (h : CallsKept opts s) {fresh : Nat}
    (hphase : (s.loops i).phase = .listing fresh) : CallsKept opts (s.install i fresh) := by
  have hrun : (s.loops i).phase ≠ .ended := by rw [hphase]; exact nofun
  have hdrained : (s.loops i).phase.pendingDrain = none := by rw [hphase]; rfl
  unfold Supervisor.install
  split
  · have hbooted : CallsKept opts (s.setPhase i .booted) := h.setPhase hrun hdrained rfl nofun
    exact hbooted.same rfl rfl rfl rfl rfl rfl
  · refine CallsKept.setPhase ?_ hrun hdrained rfl nofun
    exact h.same rfl rfl rfl rfl rfl rfl

theorem CallsKept.catchBoot (h : CallsKept opts s) (hphase : (s.loops i).phase = .failed)
    (now : Int) : CallsKept opts (s.catchBoot opts i now) := by
  -- the loop is still at its `catch` when its next turn begins
  have hset : ∀ (u : Supervisor ι ρ) (loop : RestartLoop), CallsKept opts u → u.loops = s.loops →
      loop.phase = .failed → loop.drains = (s.loops i).drains →
      CallsKept opts (u.setLoop i loop) ∧ ((u.setLoop i loop).loops i).phase ≠ .ended ∧
        ((u.setLoop i loop).loops i).phase.pendingDrain = none := by
    intro u loop hu hloops hloop hdrains
    rw [Supervisor.setLoop_self, hloop]
    refine ⟨hu.setLoop ?_ ?_ ?_ ?_ ?_, nofun, rfl⟩
    · rw [hloops, hphase]
      exact nofun
    · rw [hloops, hphase]
      rfl
    · rw [hloop]
      rfl
    · rw [hloops, hdrains]
    · rw [hloop]
      exact nofun
  unfold Supervisor.catchBoot
  dsimp only
  split
  · have hgaveUp : CallsKept opts { s with consecutiveGiveUps := s.consecutiveGiveUps + 1 } :=
      h.same rfl rfl rfl rfl rfl rfl
    obtain ⟨hrecord, hloops⟩ := hgaveUp.record now false
    generalize Supervisor.record opts { s with consecutiveGiveUps := s.consecutiveGiveUps + 1 } now
      false = u at hrecord hloops
    have hasked := hrecord.allow now
    have hloops' : (u.allow opts now).1.loops = s.loops := by
      obtain ⟨probes, hallow⟩ := Supervisor.allow_eq opts u now
      rw [hallow]
      exact hloops
    generalize u.allow opts now = answer at hasked hloops'
    obtain ⟨v, ok⟩ := answer
    dsimp only
    split
    · obtain ⟨hnext, hrun, hdrained⟩ := hset v { s.loops i with
        attempt := 0
        reason := .initFailed } hasked hloops' hphase rfl
      exact hnext.whileNotStopped hrun hdrained
    · obtain ⟨hnext, hrun, hdrained⟩ := hset v { s.loops i with
        attempt := (s.loops i).attempt + 1
        reason := .initFailed } hasked hloops' hphase rfl
      exact CallsKept.returnLoop (hnext.same rfl rfl rfl rfl rfl rfl) hrun hdrained
  · obtain ⟨hnext, hrun, hdrained⟩ := hset s { s.loops i with
      attempt := (s.loops i).attempt + 1
      reason := .initFailed } h rfl hphase rfl
    exact hnext.whileNotStopped hrun hdrained

theorem CallsKept.continueLoop (h : CallsKept opts s) (hphase : (s.loops i).phase = .booted)
    (now : Int) : CallsKept opts (s.continueLoop opts i now) := by
  have hbooted : CallsKept opts { s with consecutiveGiveUps := 0 } := h.same rfl rfl rfl rfl rfl rfl
  obtain ⟨hrecord, hloops⟩ := hbooted.record now true
  have hphase' : (((({ s with consecutiveGiveUps := 0 } : Supervisor ι ρ).record opts now
      true).setState .ready).schedulePingLoop.loops i).phase = .booted :=
    (congrArg (fun loops : Nat → RestartLoop => (loops i).phase) hloops).trans hphase
  refine CallsKept.returnLoop (hrecord.same rfl rfl rfl rfl rfl rfl) ?_ ?_
  · rw [hphase']
    exact nofun
  · rw [hphase']
    rfl

/-! ### Drains -/

/-- The drain of a loop is over, with at least what it waits for and is not settled. -/
theorem CallsKept.drained (h : CallsKept opts s) {active overflow : List Nat}
    (hphase : (s.loops i).phase = .draining active)
    (hoverflow : ∀ id ∈ active, ∀ call, s.calls id = some call → call.settled = false →
      id ∈ overflow) :
    CallsKept opts { s.setPhase i (.drained overflow) with cancelActiveDrain := none } := by
  refine h.frame rfl rfl rfl rfl (Nat.le_refl _) fun j => ?_
  by_cases hj : j = i
  · subst hj
    have hself : ({ s.setPhase j (.drained overflow) with cancelActiveDrain := none } :
        Supervisor ι ρ).loops j = { s.loops j with phase := .drained overflow } :=
      Supervisor.setPhase_self s j _
    refine ⟨fun list hlist id call hcall hoff hsettled hcurrent => ?_, fun hw => ?_,
      fun _ hended => ?_, fun hi => ?_, fun hr => ?_⟩
    · rw [hself] at hlist
      obtain rfl := Option.some.inj hlist
      refine hoverflow id ?_ call hcall hsettled
      exact (h.call id call hcall).drain hoff hsettled hcurrent j active (by rw [hphase]; rfl)
    · simp [RestartLoop.resubmits, Phase.pendingDrain] at hw
    · cases hphase.symm.trans hended
    · cases hphase.symm.trans (h.fresh j hi)
    · rw [hself] at hr
      cases hr
  · exact h.loopStep (Supervisor.setPhase_of_ne s _ hj) (Nat.le_refl _)

theorem CallsKept.endDrain (h : CallsKept opts s) (i : Nat) : CallsKept opts (s.endDrain i) := by
  unfold Supervisor.endDrain
  split
  · rename_i active hphase
    refine h.drained hphase fun id hid call hcall hsettled => List.mem_filter.mpr ⟨hid, ?_⟩
    rw [hcall]
    simp [hsettled]
  · exact h

theorem CallsKept.cancelDrain (h : CallsKept opts s) : CallsKept opts s.cancelDrain := by
  unfold Supervisor.cancelDrain
  split
  · exact h.endDrain _
  · exact h

/-- A drain begins with every call of its generation that is not settled. -/
theorem CallsKept.beginDrain (h : CallsKept opts s) (reason : MCPRestartReason) :
    CallsKept opts (s.beginDrain opts reason) := by
  have hactive : ∀ id call, s.calls id = some call → call.settled = false →
      call.generation = s.generation → id ∈ s.unsettled.filter fun id =>
        (s.calls id).any fun call => decide (call.generation = s.generation) := by
    intro id call hcall hsettled hcurrent
    have hkept := h.call id call hcall
    have hunsettled : id ∈ s.unsettled := by
      refine List.mem_filter.mpr ⟨List.mem_range.mpr hkept.lt, ?_⟩
      rw [hcall]
      simp [hkept.tracked hsettled, hsettled]
    refine List.mem_filter.mpr ⟨hunsettled, ?_⟩
    rw [hcall]
    simp [hcurrent]
  have hnew : ∀ (phase : Phase) (t : Supervisor ι ρ), phase.pendingDrain =
      some (s.unsettled.filter fun id =>
        (s.calls id).any fun call => decide (call.generation = s.generation)) →
      t.loops = Function.update s.loops s.nextLoop { phase, reason, drains := true } →
      t.nextLoop = s.nextLoop + 1 → ∀ i, LoopStep opts s t i := by
    intro phase t hphase hloops hnext i
    by_cases hi : i = s.nextLoop
    · subst hi
      have hself : t.loops s.nextLoop = { phase, reason, drains := true } := by
        rw [hloops, Function.update_self]
      refine ⟨fun active ha id call hcall hoff hsettled hcurrent => ?_, fun hw => ?_,
        fun hlt => absurd hlt (Nat.lt_irrefl _), fun hle => ?_, fun _ => by rw [hself]⟩
      · rw [hself, hphase] at ha
        obtain rfl := Option.some.inj ha
        exact hactive id call hcall hsettled hcurrent
      · simp [hself, RestartLoop.resubmits, hphase] at hw
      · exact absurd hle (by rw [hnext]; exact Nat.not_succ_le_self _)
    · refine h.loopStep ?_ (by rw [hnext]; exact Nat.le_succ _)
      rw [hloops, Function.update_of_ne hi]
  unfold Supervisor.beginDrain
  dsimp only
  split
  · exact h.frame rfl rfl rfl rfl (Nat.le_succ _) (hnew (.drained _) _ rfl rfl rfl)
  · exact h.frame rfl rfl rfl rfl (Nat.le_succ _) (hnew (.draining _) _ rfl rfl rfl)

theorem CallsKept.triggerRestart (h : CallsKept opts s) (now : Int) (reason : MCPRestartReason) :
    CallsKept opts (s.triggerRestart opts now reason) := by
  have hasked : ∀ state, CallsKept opts ((s.allow opts now).1.setState state) := fun state =>
    (h.allow now).same rfl rfl rfl rfl rfl rfl
  unfold Supervisor.triggerRestart
  split
  · exact h
  · split
    · exact h
    · exact h.cancelDrain
    all_goals
      dsimp only
      split
      · exact (hasked .draining).beginDrain reason
      · exact hasked .circuitOpen

/-! ### Steps of the calls -/

theorem CallsKept.setCall (h : CallsKept opts s) (hkept : CallKept opts s id call) :
    CallsKept opts (s.setCall id call) := by
  refine ⟨fun other call' hother => CallKept.congr (s := s) ?_ (Nat.le_refl _) rfl rfl rfl rfl,
    h.fresh, h.returned⟩
  by_cases he : other = id
  · subst he
    rw [Supervisor.setCall_self] at hother
    exact Option.some.inj hother ▸ hkept
  · rw [Supervisor.setCall_of_ne s call he] at hother
    exact h.call other call' hother

/-- Once it is settled, little is asked of a call. -/
theorem CallKept.settled (h : CallKept opts s id call) {call' : InFlightCall ι ρ}
    (hlt : id < t.nextCallId) (hgeneration : call'.generation ≤ t.generation)
    (hloops : ∀ i, i < s.nextLoop → (s.loops i).phase = .ended →
      i < t.nextLoop ∧ (t.loops i).phase = .ended)
    (hsettled : call'.settled = true) (hsettlements : call'.settlements.length = 1)
    (hsends : call'.sends = call.sends) (hmissed : call'.missed = call.missed) :
    CallKept opts t id call' := by
  have hresent : call'.resent = call.resent := by
    rw [InFlightCall.resent, hsends, InFlightCall.resent]
  have hnot : ∀ {p : Prop}, call'.settled = false → p := fun hfalse =>
    absurd (hsettled.symm.trans hfalse) (by decide)
  refine ⟨hlt, by rw [hsettlements, hsettled, if_pos rfl], hnot, fun _ => hsettled, hgeneration,
    fun _ => .inl hsettled, fun _ => .inl hsettled, fun _ => hnot, fun _ => hnot, ?_, ?_, ?_, ?_⟩
  · rw [hsends, hresent]
    exact h.sends
  · rw [hresent]
    exact h.single
  · rw [hresent]
    exact h.nodup
  · intro i hi
    rw [hresent] at hi
    obtain ⟨hi, hlt, hended, -⟩ := h.resent i hi
    obtain ⟨hlt', hended'⟩ := hloops i hlt hended
    exact ⟨hmissed ▸ hi, hlt', hended', .inr hsettled⟩

theorem InFlightCall.finish_settlements (result : Except (CallError ι) ρ)
    (h : call.settlements.length = if call.settled then 1 else 0) :
    (call.finish result).settled = true ∧ (call.finish result).settlements.length = 1 := by
  unfold InFlightCall.finish InFlightCall.settle
  split
  · rename_i hsettled
    rw [if_pos hsettled] at h
    exact ⟨hsettled, h⟩
  · rename_i hsettled
    rw [if_neg hsettled] at h
    exact ⟨rfl, by simp [List.length_eq_zero_iff.mp h]⟩

theorem InFlightCall.finish_eq (call : InFlightCall ι ρ) (result : Except (CallError ι) ρ) :
    ∃ settled settlements, call.finish result = { call with
      settled
      settlements
      tracked := false } := by
  unfold InFlightCall.finish InFlightCall.settle
  split
  · exact ⟨_, _, rfl⟩
  · exact ⟨_, _, rfl⟩

/-- The race of a call, and what it waits for of the loops, may change as it is settled. -/
theorem CallKept.finish (h : CallKept opts s id call) (race : Race ρ) (reissues : List Nat)
    (result : Except (CallError ι) ρ) :
    CallKept opts s id ({ call with race, reissues }.finish result) := by
  have hfinished : ({ call with race, reissues }.finish result).settled = true ∧
      ({ call with race, reissues }.finish result).settlements.length = 1 :=
    InFlightCall.finish_settlements result h.settlements
  obtain ⟨settled, settlements, heq⟩ := InFlightCall.finish_eq { call with race, reissues } result
  rw [heq] at hfinished ⊢
  exact h.settled h.lt h.generation (fun i hlt hended => ⟨hlt, hended⟩) hfinished.1 hfinished.2 rfl
    rfl

/-- The race of a call is over. -/
theorem CallKept.race (h : CallKept opts s id call) (race : Race ρ)
    (hfinished : race = .crashed ∨ race = .done →
      call.settled = true ∨ call.generation < s.generation) :
    CallKept opts s id { call with race } :=
  ⟨h.lt, h.settlements, h.tracked, h.stopped, h.generation, hfinished, h.old, h.drain, h.waits,
    h.sends, h.single, h.nodup, h.resent⟩

theorem CallsKept.raceRuns (h : CallsKept opts s) (hcall : s.calls id = some call) {now : Int}
    (hstep : s.raceRuns opts id call now = some t) : CallsKept opts t := by
  have hkept := h.call id call hcall
  -- an unsettled call whose race has crashed is left to the respawn
  have hcrash : call.settled = false → call.generation < s.generation →
      CallsKept opts (s.surfaceCrash opts id { call with race := .done } now) := by
    intro hsettled hold
    rw [Supervisor.surfaceCrash, if_pos (hkept.tracked hsettled)]
    exact h.setCall (hkept.race .done fun _ => .inr hold)
  unfold Supervisor.raceRuns at hstep
  dsimp only at hstep
  split at hstep
  · cases hstep
  · cases hstep
  · rename_i hrace
    obtain rfl := Option.some.inj hstep
    have hfinished := hkept.finished (.inl hrace)
    split
    · rename_i hsettled
      exact h.setCall (hkept.race .done fun _ => .inl hsettled)
    · rename_i hsettled
      exact hcrash (Bool.eq_false_iff.mpr hsettled) (hfinished.resolve_left hsettled)
  · rename_i result hrace
    obtain rfl := Option.some.inj hstep
    split
    · rename_i hsettled
      exact h.setCall (hkept.race .done fun _ => .inl hsettled)
    · rename_i hsettled
      split
      · rename_i hended
        refine hcrash (Bool.eq_false_iff.mpr hsettled) ?_
        rcases hended with hne | hstopped
        · exact Nat.lt_of_le_of_ne hkept.generation hne
        · exact absurd (hkept.stopped hstopped) hsettled
      · exact h.setCall (hkept.finish .done call.reissues (clientResult result))

/-- A new call finds no respawn that could take it for one of its own. -/
theorem CallsKept.callTool (h : CallsKept opts s) {toolName : String} {input : ι} {taken : Bool}
    {now : Int} (horderly : s.state = .ready → ∀ i < s.nextLoop,
      if opts.resubmitOnRespawn then (s.loops i).resubmits = false
      else (s.loops i).phase.pendingDrain = none) :
    CallsKept opts (s.callTool opts toolName input taken now).1 := by
  obtain ⟨probes, hallow⟩ := Supervisor.allow_eq opts s now
  have hasked := h.allow now
  unfold Supervisor.callTool
  split
  · exact hasked
  · rename_i hopen
    split
    · exact h
    · dsimp only
      split
      · exact hasked
      · split
        · rename_i client hclient hready
          rw [hallow] at hready hclient hasked ⊢
          generalize hu : ({ s with
            circuit := (s.circuit.advance opts.circuit now).1
            probes } : Supervisor ι ρ) = u at hready hclient hasked ⊢
          have hloops : u.loops = s.loops := by rw [← hu]
          have hnext : u.nextLoop = s.nextLoop := by rw [← hu]
          have hquiet := horderly (by rw [← hready, ← hu])
          have hstopped : u.stopped = false := by
            rw [← hu]
            exact Bool.eq_false_iff.mpr hopen
          have hall : ∀ i, if opts.resubmitOnRespawn then (u.loops i).resubmits = false
              else (u.loops i).phase.pendingDrain = none := by
            intro i
            by_cases hi : i < s.nextLoop
            · rw [hloops]
              exact hquiet i hi
            · have hended := hasked.fresh i (by rw [hnext]; exact Nat.le_of_not_lt hi)
              rw [RestartLoop.resubmits, hended]
              split
              · simp
              · rfl
          have hgrown : CallsKept opts { u with nextCallId := u.nextCallId + 1 } :=
            ⟨fun id call hcall => (hasked.call id call hcall).congr (Nat.le_succ _) rfl rfl rfl rfl,
              hasked.fresh, hasked.returned⟩
          refine hgrown.setCall ⟨Nat.lt_succ_self _, rfl, fun _ => rfl, fun hs => ?_, Nat.le_refl _,
            fun hrace => ?_, fun hlt => absurd hlt (Nat.lt_irrefl _),
            fun hoff _ _ i active ha => ?_, fun hon _ i hi => ?_, rfl, fun _ => rfl,
            List.nodup_nil, nofun⟩
          · exact absurd (hstopped.symm.trans hs) (by decide)
          · rcases hrace with hrace | hrace <;> cases hrace
          · have hnone := hall i
            rw [hoff, if_neg (by decide)] at hnone
            cases hnone.symm.trans ha
          · have hnone := hall i
            rw [hon, if_pos rfl] at hnone
            exact absurd (hnone.symm.trans hi) (by decide)
        · exact hasked

/-! ### Respawns and the stop -/

/-- A respawn rejects the calls that missed its drain, or keeps them for the next client. -/
theorem CallsKept.respawn (h : CallsKept opts s) {overflow : List Nat}
    (hphase : (s.loops i).phase = .drained overflow) :
    CallsKept opts (s.respawn opts i overflow) := by
  have hloops : (s.respawn opts i overflow).loops =
      Function.update s.loops i { s.loops i with phase := .tearing } := rfl
  have hself : (s.respawn opts i overflow).loops i = { s.loops i with phase := .tearing } := by
    rw [hloops, Function.update_self]
  have hother : ∀ j, j ≠ i → (s.respawn opts i overflow).loops j = s.loops j := fun j hj => by
    rw [hloops, Function.update_of_ne hj]
  have hended : ∀ j, j < s.nextLoop → (s.loops j).phase = .ended →
      j < s.nextLoop ∧ ((s.respawn opts i overflow).loops j).phase = .ended := by
    intro j hlt hj
    have hne : j ≠ i := by
      rintro rfl
      cases hphase.symm.trans hj
    rw [hother j hne]
    exact ⟨hlt, hj⟩
  refine ⟨fun id call' hcall' => ?_, fun j hj => ?_, fun j hj => ?_⟩
  · simp only [Supervisor.respawn, Supervisor.setPhase, Supervisor.setLoop,
      Supervisor.teardownClient, Supervisor.setState, Supervisor.signalGenerationEnd,
      Supervisor.miss, Supervisor.rejectOverflow, Supervisor.mapCalls, Option.map_map,
      Option.map_eq_some_iff, Function.comp_apply] at hcall'
    obtain ⟨call, hcall, rfl⟩ := hcall'
    have hkept := h.call id call hcall
    have hle : call.generation ≤ s.generation + 1 := Nat.le_succ_of_le hkept.generation
    by_cases hreject : id ∈ overflow ∧ call.settled = false ∧ opts.resubmitOnRespawn = false
    · -- rejected here
      rw [if_pos hreject]
      generalize hr : (Except.error (CallError.drained call.toolName call.argSnapshot
        opts.drainTimeoutMs) : Except (CallError ι) ρ) = result
      obtain ⟨hsettled, hlength⟩ := InFlightCall.finish_settlements result hkept.settlements
      obtain ⟨settled, settlements, heq⟩ := call.finish_eq result
      rw [if_pos hsettled]
      obtain ⟨race, hrace⟩ := (call.finish result).ended_eq s.generation
      rw [hrace]
      rw [heq] at hsettled hlength ⊢
      exact hkept.settled hkept.lt hle hended hsettled hlength rfl rfl
    · rw [if_neg hreject]
      by_cases hsettled : call.settled = true
      · obtain ⟨race, hrace⟩ := call.ended_eq s.generation
        rw [if_pos hsettled, hrace]
        refine hkept.settled hkept.lt hle hended hsettled ?_ rfl rfl
        rw [hkept.settlements, if_pos hsettled]
      · have hunsettled := Bool.eq_false_iff.mpr hsettled
        obtain ⟨race, hrace⟩ :=
          ({ call with missed := i :: call.missed } : InFlightCall ι ρ).ended_eq s.generation
        rw [if_neg hsettled, hrace]
        refine ⟨hkept.lt, hkept.settlements, hkept.tracked, hkept.stopped, hle,
          fun _ => .inr (Nat.lt_succ_of_le hkept.generation),
          fun _ => .inr ⟨?_, List.cons_ne_nil _ _⟩, fun _ _ hnew => ?_, fun hon _ j hj => ?_,
          hkept.sends, hkept.single, hkept.nodup, fun j hj => ?_⟩
        · -- it overflowed, and was not rejected
          by_contra hoff
          have hoff := Bool.eq_false_iff.mpr hoff
          refine hreject ⟨?_, hunsettled, hoff⟩
          rcases Nat.lt_or_eq_of_le hkept.generation with hlt | heq
          · rcases hkept.old hlt with hs | hon
            · exact absurd hs hsettled
            · exact absurd (hoff.symm.trans hon.1) (by decide)
          · exact hkept.drain hoff hunsettled heq i overflow (by rw [hphase]; rfl)
        · have hnew : call.generation = s.generation + 1 := hnew
          exact absurd (hnew ▸ hkept.generation) (Nat.not_succ_le_self _)
        · by_cases he : j = i
          · exact List.mem_cons.mpr (.inl he)
          · rw [hother j he] at hj
            exact List.mem_cons_of_mem _ (hkept.waits hon hunsettled j hj)
        · obtain ⟨hmissed, hlt, hj, hanswered⟩ := hkept.resent j hj
          exact ⟨List.mem_cons_of_mem _ hmissed, hlt, (hended j hlt hj).2, hanswered⟩
  · have hne : j ≠ i := by
      rintro rfl
      cases hphase.symm.trans (h.fresh j hj)
    rw [hother j hne]
    exact h.fresh j hj
  · by_cases he : j = i
    · subst he
      rw [hself] at hj
      cases hj
    · rw [hother j he] at hj ⊢
      exact h.returned j hj

/-- The calls that missed the drain of a loop are sent again by it, and by it once. -/
theorem CallsKept.resume (h : CallsKept opts s) (hphase : (s.loops i).phase = .returned) :
    CallsKept opts (s.resume opts i) := by
  have hrun : (s.loops i).phase ≠ .ended := by rw [hphase]; exact nofun
  have hended : CallsKept opts (s.setPhase i .ended) :=
    h.setPhase hrun (by rw [hphase]; rfl) rfl nofun
  have hresubmits : (s.loops i).resubmits = true := by
    rw [RestartLoop.resubmits, h.returned i hphase, hphase]
    rfl
  unfold Supervisor.resume
  dsimp only
  split
  · rename_i client hon hready hclient
    refine ⟨fun id call' hcall' => ?_, hended.fresh, hended.returned⟩
    simp only [Supervisor.resubmitStashedCalls, Supervisor.mapCalls, Option.map_eq_some_iff]
      at hcall'
    obtain ⟨call, hcall, rfl⟩ := hcall'
    have hkept := hended.call id call hcall
    split
    · rename_i hunsettled
      have hsettled : call.settled = false := by
        have hany := (List.mem_filter.mp hunsettled).2
        rw [hcall] at hany
        simp only [Option.any_some, Bool.and_eq_true, Bool.not_eq_true'] at hany
        exact hany.2
      have hmissed : i ∈ call.missed := (h.call id call hcall).waits hon hsettled i hresubmits
      have hnot : i ∉ call.resent := fun hi => hrun ((h.call id call hcall).resent i hi).2.2.1
      have hlt : i < s.nextLoop := by
        by_contra hle
        exact hrun (h.fresh i (Nat.le_of_not_lt hle))
      have hresent : (call.resubmit client i).resent = call.resent ++ [i] :=
        List.filterMap_append
      refine ⟨hkept.lt, hkept.settlements, hkept.tracked, hkept.stopped, hkept.generation,
        hkept.finished, hkept.old, hkept.drain, hkept.waits, ?_, fun hoff => ?_, ?_, ?_⟩
      · rw [hresent, List.length_append, List.length_singleton, ← hkept.sends]
        exact List.length_append
      · exact absurd (hoff.symm.trans hon) (by decide)
      · rw [hresent]
        exact List.nodup_append.mpr ⟨hkept.nodup, List.pairwise_singleton _ i, fun j hj k hk he =>
          hnot (List.mem_singleton.mp hk ▸ he ▸ hj)⟩
      · intro j hj
        rw [hresent, List.mem_append] at hj
        rcases hj with hj | hj
        · obtain ⟨hm, hlt, hj, hanswered⟩ := hkept.resent j hj
          exact ⟨hm, hlt, hj, hanswered.imp_left (List.mem_cons_of_mem _)⟩
        · obtain rfl := List.mem_singleton.mp hj
          refine ⟨hmissed, hlt, ?_, .inl List.mem_cons_self⟩
          exact congrArg RestartLoop.phase (Supervisor.setPhase_self s j .ended)
    · exact hkept.congr (Nat.le_refl _) rfl rfl rfl rfl
  · exact hended

/-- `stop` settles every call. -/
theorem CallsKept.stop (h : CallsKept opts s) (now : Int) : CallsKept opts (s.stop opts now) := by
  unfold Supervisor.stop
  split
  · exact h.same rfl rfl rfl rfl rfl rfl
  · have hcancelled := h.cancelDrain
    rw [Supervisor.cancelDrain_stopped]
    generalize s.cancelDrain = u at hcancelled
    dsimp only
    generalize hv : ({ ({ u with stopped := true, pingArmed := false } : Supervisor ι ρ).setState
      .stopped with client := none }.signalGenerationEnd s.generation) = v
    obtain ⟨circuit, probes, calls, hrejected⟩ := Supervisor.rejectAll_eq opts v now
    obtain ⟨result, hcalls⟩ := Supervisor.rejectAll_calls opts v now
    have hloops : (v.rejectAll opts now).loops = u.loops ∧
        (v.rejectAll opts now).nextLoop = u.nextLoop ∧
          (v.rejectAll opts now).nextCallId = u.nextCallId ∧
            (v.rejectAll opts now).generation = u.generation := by
      rw [hrejected, ← hv]
      exact ⟨rfl, rfl, rfl, rfl⟩
    obtain ⟨hloops, hnext, hid, hgeneration⟩ := hloops
    have hv : ∀ id, v.calls id = (u.calls id).map fun call =>
        if call.generation = s.generation then call.crash else call := fun id => by
      rw [← hv]
      rfl
    refine ⟨fun id call' hcall' => ?_, fun i hi => ?_, fun i hi => ?_⟩
    · have hcall' : (v.rejectAll opts now).calls id = some call' := hcall'
      rw [hcalls, hv, Option.map_map, Option.map_eq_some_iff] at hcall'
      obtain ⟨call, hcall, rfl⟩ := hcall'
      have hkept := hcancelled.call id call hcall
      obtain ⟨race, hrace⟩ := call.ended_eq s.generation
      have hlt : id < (v.rejectAll opts now).nextCallId := hid ▸ hkept.lt
      have hle : call.generation ≤ (v.rejectAll opts now).generation :=
        hgeneration ▸ hkept.generation
      have hended : ∀ i, i < u.nextLoop → (u.loops i).phase = .ended →
          i < (v.rejectAll opts now).nextLoop ∧
            ((v.rejectAll opts now).loops i).phase = .ended := by
        rw [hloops, hnext]
        exact fun i hlt hi => ⟨hlt, hi⟩
      rw [Function.comp_apply, hrace]
      split
      · have hlength : ({ call with race } : InFlightCall ι ρ).settlements.length =
            if call.settled then 1 else 0 := hkept.settlements
        obtain ⟨hsettled, hlength⟩ := InFlightCall.finish_settlements result hlength
        obtain ⟨settled, settlements, heq⟩ := InFlightCall.finish_eq { call with race } result
        rw [heq] at hsettled hlength ⊢
        exact hkept.settled hlt hle hended hsettled hlength rfl rfl
      · rename_i huntracked
        have hsettled : call.settled = true := by
          by_contra hs
          exact huntracked (hkept.tracked (Bool.eq_false_iff.mpr hs))
        refine hkept.settled hlt hle hended hsettled ?_ rfl rfl
        rw [hkept.settlements, if_pos hsettled]
    · have hi : (v.rejectAll opts now).nextLoop ≤ i := hi
      have hloop : (v.rejectAll opts now).loops i = u.loops i := congrFun hloops i
      exact (congrArg RestartLoop.phase hloop).trans (hcancelled.fresh i (hnext ▸ hi))
    · have hloop : (v.rejectAll opts now).loops i = u.loops i := congrFun hloops i
      exact (congrArg RestartLoop.drains hloop).trans
        (hcancelled.returned i ((congrArg RestartLoop.phase hloop).symm.trans hi))

/-! ### Every step -/

theorem CallsKept.start (h : CallsKept opts s) : CallsKept opts s.start := by
  unfold Supervisor.start
  split
  · exact h
  · split
    · exact h
    · refine h.frame rfl rfl rfl rfl (Nat.le_succ _) fun i => ?_
      by_cases hi : i = s.nextLoop
      · subst hi
        refine ⟨fun active ha => ?_, fun hw => ?_, fun hlt => absurd hlt (Nat.lt_irrefl _),
          fun hle => absurd hle (Nat.not_succ_le_self _), fun hr => ?_⟩
        · rw [Supervisor.setLoop_self] at ha
          cases ha
        · rw [Supervisor.setLoop_self] at hw
          cases hw
        · rw [Supervisor.setLoop_self] at hr
          cases hr
      · exact h.loopStep (Supervisor.setLoop_of_ne _ _ hi) (Nat.le_succ _)

theorem CallsKept.step {label : SupervisorLabel ι ρ} (h : CallsKept opts s)
    (horderly : Orderly opts s label) (hstep : supervisorStep opts s label = some t) :
    CallsKept opts t := by
  cases taken_of_step hstep with
  | start => exact h.start
  | stop now => exact h.stop now
  | asks now => exact h.allow now
  | drainSettles hphase hall =>
    refine h.drained hphase fun id hid call hcall hsettled => ?_
    have hsettled' := List.all_eq_true.mp hall id hid
    rw [hcall] at hsettled'
    exact absurd (hsettled.symm.trans hsettled') (by decide)
  | drainTimesOut _ => exact h.endDrain _
  | respawns hphase => exact h.respawn hphase
  | tornDown hphase =>
    exact h.whileNotStopped (by rw [hphase]; exact nofun) (by rw [hphase]; rfl)
  | wakes hphase created => exact h.wake hphase created
  | initialized hphase ok =>
    refine h.setPhase (by rw [hphase]; exact nofun) (by rw [hphase]; rfl) ?_ ?_
    · cases ok <;> rfl
    · cases ok <;> exact nofun
  | listed hphase ok =>
    split
    · exact h.install hphase
    · exact h.setPhase (by rw [hphase]; exact nofun) (by rw [hphase]; rfl) rfl nofun
  | discarded hphase =>
    exact h.setPhase (by rw [hphase]; exact nofun) (by rw [hphase]; rfl) rfl nofun
  | catches hphase now => exact h.catchBoot hphase now
  | continues hphase now => exact h.continueLoop hphase now
  | resumes hphase => exact h.resume hphase
  | exits _ reason =>
    obtain ⟨exits, heq⟩ := s.onExit_eq _ reason
    rw [heq]
    exact h.same rfl rfl rfl rfl rfl rfl
  | @exitRuns myGen reason _ now =>
    have htaken : CallsKept opts { s with exits := s.exits.erase (myGen, reason) } :=
      h.same rfl rfl rfl rfl rfl rfl
    split
    · exact htaken.triggerRestart now reason
    · exact htaken
  | pingFails _ _ _ =>
    refine CallsKept.triggerRestart ?_ _ .pingFailed
    exact h.same rfl rfl rfl rfl rfl rfl
  | @probeRuns now _ =>
    have htaken : CallsKept opts { s with probes := s.probes - 1 } :=
      h.same rfl rfl rfl rfl rfl rfl
    dsimp only
    split
    · exact htaken.allow now
    · split
      · exact htaken.allow now
      · exact (htaken.allow now).triggerRestart now .probe
  | callTool toolName input taken now => exact h.callTool horderly
  | @answers id call hcall hrace result =>
    exact h.setCall ((h.call id call hcall).race _ fun hrace => by
      rcases hrace with hrace | hrace <;> cases hrace)
  | raceRuns hcall hruns => exact h.raceRuns hcall hruns
  | @reissueAnswers id i call hcall _ result =>
    exact h.setCall ((h.call id call hcall).finish call.race _ _)
  | stopTornDown _ | stopResolves _ _ | pingFires _ _ _ | pingAnswers _ _ _ | probeStops _ =>
    exact h.same rfl rfl rfl rfl rfl rfl

/-- **Every call is settled once**, and sent again by no more than the respawns it missed the drain
of, in a run that accepts no call while a respawn could take it for one of its own. -/
theorem settledOnce_of_run {labels : List (SupervisorLabel ι ρ)}
    (r : Run (supervisorStep opts) (Orderly opts) {} labels s) :
    ∀ id call, s.calls id = some call → SettledOnce opts s call := by
  have hstart : CallsKept opts ({} : Supervisor ι ρ) :=
    ⟨fun _ _ hcall => (nomatch hcall), fun _ _ => rfl, fun _ hr => (nomatch hr)⟩
  have hkept : CallsKept opts s :=
    Run.invariant hstart (fun _ _ _ hs horderly hstep => hs.step horderly hstep) r
  exact fun id call hcall => (hkept.call id call hcall).settledOnce

instance : ∀ (s : Supervisor ι ρ) (label : SupervisorLabel ι ρ),
    Decidable (Orderly opts s label)
  | s, .callTool _ _ _ _ => inferInstanceAs (Decidable (s.state = .ready → ∀ i < s.nextLoop,
      if opts.resubmitOnRespawn then (s.loops i).resubmits = false
      else (s.loops i).phase.pendingDrain = none))
  | _, .start | _, .stop _ | _, .stopTornDown | _, .stopResolves | _, .asks _
  | _, .drainSettles _ | _, .drainTimesOut _ | _, .respawns _ | _, .tornDown _ | _, .wakes _ _
  | _, .initialized _ _ | _, .listed _ _ | _, .discarded _ | _, .catches _ _ | _, .continues _ _
  | _, .resumes _ | _, .exits _ _ | _, .exitRuns _ _ _ | _, .pingFires | _, .pingAnswers _ _ _
  | _, .probeRuns _ | _, .answers _ _ | _, .raceRuns _ _ | _, .reissueAnswers _ _ _ =>
    .isTrue trivial

/-- A supervisor, with or without sending again. -/
def callOptions (resubmitOnRespawn : Bool) : SupervisorOptions Unit where
  serverId := "files"
  resubmitOnRespawn
  cloneArgs := fun input => input

/-- A call misses the drain, is sent again by the respawn and answered. -/
theorem settledOnce_of_run_resent :
    ∃ (s : Supervisor Unit Unit) (call : InFlightCall Unit Unit),
      Run (supervisorStep (callOptions true)) (Orderly (callOptions true)) {}
        [.start, .tornDown 0, .wakes 0 true, .initialized 0 true, .listed 0 true, .continues 0 0,
          .callTool "read" () true 0, .exits 0 .transportClosed, .exitRuns 0 .transportClosed 0,
          .drainTimesOut 1, .respawns 1, .raceRuns 0 0, .tornDown 1, .wakes 1 true,
          .initialized 1 true, .listed 1 true, .continues 1 0, .resumes 1,
          .reissueAnswers 0 1 (.ok ())] s ∧
      s.calls 0 = some call ∧ call.sends.length = 2 ∧ call.settled = true ∧
        SettledOnce (callOptions true) s call := by
  have hreplay : (exec (guarded (supervisorStep (callOptions true)) (Orderly (callOptions true)))
      ({} : Supervisor Unit Unit)
      [.start, .tornDown 0, .wakes 0 true, .initialized 0 true, .listed 0 true, .continues 0 0,
        .callTool "read" () true 0, .exits 0 .transportClosed, .exitRuns 0 .transportClosed 0,
        .drainTimesOut 1, .respawns 1, .raceRuns 0 0, .tornDown 1, .wakes 1 true,
        .initialized 1 true, .listed 1 true, .continues 1 0, .resumes 1,
        .reissueAnswers 0 1 (.ok ())]).any (fun s => (s.calls 0).any fun call =>
          decide (call.sends.length = 2) && call.settled) = true := by decide
  obtain ⟨s, r, hs⟩ := Run.of_replay hreplay
  cases hcall : s.calls 0 with
  | none =>
    rw [hcall] at hs
    cases hs
  | some call =>
    rw [hcall, Option.any_some, Bool.and_eq_true_iff] at hs
    exact ⟨s, call, r, hcall, of_decide_eq_true hs.1, hs.2, settledOnce_of_run r 0 call hcall⟩

/-- A call that is accepted once the supervisor is ready again is sent twice, and one that is
accepted while a drain is pending is never settled. -/
theorem taken_for_another :
    (∃ (s : Supervisor Unit Unit) (call : InFlightCall Unit Unit),
      Run (supervisorStep (callOptions true)) Any {}
        [.start, .tornDown 0, .wakes 0 true, .initialized 0 true, .listed 0 true, .continues 0 0,
          .exits 0 .transportClosed, .exitRuns 0 .transportClosed 0, .respawns 1, .tornDown 1,
          .wakes 1 true, .initialized 1 true, .listed 1 true, .continues 1 0,
          .callTool "pay" () true 0, .resumes 1] s ∧
      s.calls 0 = some call ∧ call.sends.length = 2 ∧ call.missed = [] ∧
        ¬ SettledOnce (callOptions true) s call) ∧
    ∃ (s : Supervisor Unit Unit) (call : InFlightCall Unit Unit),
      Run (supervisorStep (callOptions false)) Any {}
        [.start, .tornDown 0, .wakes 0 true, .initialized 0 true, .listed 0 true,
          .exits 0 .transportClosed, .exitRuns 0 .transportClosed 0, .continues 0 0,
          .callTool "pay" () true 0, .respawns 1, .raceRuns 0 0] s ∧
      s.calls 0 = some call ∧ call.race = .done ∧ call.settlements = [] ∧
        ¬ SettledOnce (callOptions false) s call := by
  refine ⟨⟨_, _, .any_of_exec rfl, rfl, rfl, rfl, fun h => ?_⟩,
    ⟨_, _, .any_of_exec rfl, rfl, rfl, rfl, fun h => ?_⟩⟩
  · cases h.again.2.2 1 List.mem_cons_self
  · rcases h.finished rfl with hone | hon
    · cases hone
    · cases hon.1

end Declaragent.Mcp
