import Declaragent.Events.Dedup
import Declaragent.Rpc.AgentInbox

/-!
# Rpc — redelivery

A transport that delivers at least once may hand one request envelope to the inbox any number of
times.  Each delivery that the inbox lets through becomes an event of its own, under a fresh id
and without an idempotency key, and is handled on its own; the handlings interleave as in
`Events.Dedup`.

* `starts_le_one`: where at most one delivery is handled, the target is started at most once.
* `exists_started`: an event nobody has seen, without a key and without a trigger, can be handled
  up to the start of its target, whatever else was handled before.
* `redelivery_once_iff`: so the target is started at most once, on every run, exactly when at most
  one delivery is handled.
-/

namespace Declaragent.Rpc
open Async Transition JsonText Events

/-- One delivery of an envelope: the inbox it reaches, the UUID drawn for its event, the time. -/
structure EnvelopeDelivery (π : Type) where
  opts : AgentInboxOptions
  inbox : AgentInbox π
  eventId : String
  receivedAt : Int

def InboxEffect.publishedEvent : InboxEffect → Option AgentEvent
  | .published event => some event
  | _ => none

section
variable {π : Type} [DecidableEq π] (config : DispatcherConfig) (envelope : AgentRpcEnvelope Json)

/-- The event that a delivery puts on the bus. -/
def EnvelopeDelivery.published (d : EnvelopeDelivery π) : Option AgentEvent :=
  (envelopeEffects d.opts d.inbox envelope d.eventId d.receivedAt).findSome?
    InboxEffect.publishedEvent

/-- The event that reaches the duplicate check, past the `event.before` hook. -/
def EnvelopeDelivery.handled (d : EnvelopeDelivery π) : Option AgentEvent :=
  (d.published envelope).bind fun event =>
    match config.before event with
    | .passes => some event
    | .rewrites event => some event
    | .drops | .throws _ => none

end

/-- Where a delivery stands. -/
inductive Receipt where
  | waiting
  | dropped
  | handled (phase : Phase)

inductive ReceiptAct where
  | receive
  | handle (a : HandleAct)

section
variable {ι : Type} (config : DispatcherConfig)

/-- One step of a delivery that puts `published` on the bus, of which the dispatcher handles
`handled`. -/
def receiveStep (published handled : Option AgentEvent) (i : ι) (sh : Handling ι) :
    Receipt → ReceiptAct → Option (Handling ι × Receipt)
  | .waiting, .receive =>
    match published with
    | none => some (sh, .dropped)
    | some event =>
      let sh := sh.put { sh.dispatcher with
        recent := pushRecent config.recentBufferSize sh.dispatcher.recent event }
      some (sh, if handled.isSome then .handled .arrived else .dropped)
  | .handled phase, .handle a =>
    handled.bind fun event =>
      (handleStep config event i sh phase a).map fun r => (r.1, .handled r.2)
  | _, _ => none

/-- Any number of deliveries of one envelope. -/
def redeliverySystem (published handled : ι → Option AgentEvent) :
    System ι (Handling ι) Receipt ReceiptAct HandleEnv where
  task i := receiveStep config (published i) (handled i) i
  env := handleEnvStep config

/-- Nothing was delivered yet, to a dispatcher that may have handled other events before. -/
def redeliveryInit (ι : Type) (d : Dispatcher) (now : Int) : State ι (Handling ι) Receipt :=
  ⟨⟨d, now, []⟩, fun _ => .waiting⟩

/-! ### At most one delivery is handled -/

def Receipt.stage : Receipt → Stage
  | .handled phase => phase.stage
  | _ => .out

/-- Each start is of a delivery of its own, which was handled and has started. -/
structure StartedOnce (handled : ι → Option AgentEvent) (s : State ι (Handling ι) Receipt) :
    Prop where
  distinct : s.shared.starts.Pairwise fun start start' => start.task ≠ start'.task
  started : ∀ start ∈ s.shared.starts,
    (handled start.task).isSome ∧ (s.loc start.task).stage = .started start.arrival

variable {config} [DecidableEq ι] {published handled : ι → Option AgentEvent}
  {s t : State ι (Handling ι) Receipt} {i : ι}

/-- A task moves and leaves the log of the starts. -/
theorem StartedOnce.move (h : StartedOnce handled s) {sh : Handling ι} {l : Receipt}
    (hstarts : sh.starts = s.shared.starts)
    (hl : ∀ arrival, (s.loc i).stage = .started arrival → l.stage = .started arrival) :
    StartedOnce handled (s.move i sh l) where
  distinct := by
    rw [State.move_shared, hstarts]
    exact h.distinct
  started start hmem := by
    rw [State.move_shared, hstarts] at hmem
    obtain ⟨hsome, hstage⟩ := h.started start hmem
    refine ⟨hsome, ?_⟩
    by_cases hi : start.task = i
    · rw [hi] at hstage ⊢
      rw [State.move_loc_self]
      exact hl _ hstage
    · rw [State.move_loc_of_ne _ hi]
      exact hstage

/-- A task starts its target, for the first time. -/
theorem StartedOnce.start (h : StartedOnce handled s) {sh : Handling ι} {l : Receipt}
    {arrival : Int} (hstarts : sh.starts = s.shared.starts ++ [⟨i, arrival⟩])
    (hbefore : ∀ arrival, (s.loc i).stage ≠ .started arrival)
    (hl : l.stage = .started arrival) (hsome : (handled i).isSome) :
    StartedOnce handled (s.move i sh l) := by
  have hother : ∀ start ∈ s.shared.starts, start.task ≠ i := by
    rintro start hmem rfl
    exact hbefore _ (h.started start hmem).2
  refine ⟨?_, fun start hmem => ?_⟩
  · rw [State.move_shared, hstarts, List.pairwise_append]
    refine ⟨h.distinct, List.pairwise_singleton _ _, fun start hmem start' hmem' => ?_⟩
    rw [List.mem_singleton.mp hmem']
    exact hother start hmem
  · rw [State.move_shared, hstarts, List.mem_append, List.mem_singleton] at hmem
    rcases hmem with hmem | rfl
    · rw [State.move_loc_of_ne _ (hother start hmem)]
      exact h.started start hmem
    · rw [State.move_loc_self]
      exact ⟨hsome, hl⟩

theorem StartedOnce.step {a : Label ι ReceiptAct HandleEnv} (h : StartedOnce handled s)
    (hstep : (redeliverySystem config published handled).step s a = some t) :
    StartedOnce handled t := by
  cases a with
  | env e =>
    obtain ⟨sh, he, rfl⟩ := System.step_env hstep
    cases e with
    | clock now => cases he; exact ⟨h.distinct, h.started⟩
    | published event => cases he; exact ⟨h.distinct, h.started⟩
  | task i a =>
    obtain ⟨sh, l, htask, rfl⟩ := System.step_task hstep
    simp only [redeliverySystem] at htask
    unfold receiveStep at htask
    split at htask
    · rename_i hloc
      have hout : ∀ arrival, (s.loc i).stage = .started arrival → l.stage = .started arrival :=
        fun arrival hs => by rw [hloc] at hs; cases hs
      split at htask
      · cases htask
        exact h.move rfl hout
      · cases htask
        exact h.move rfl hout
    · rename_i phase a hloc
      obtain ⟨event, hsome, htask⟩ := Option.bind_eq_some_iff.mp htask
      obtain ⟨⟨sh', phase'⟩, hhandle, heq⟩ := Option.map_eq_some_iff.mp htask
      cases heq
      cases handleStep_view hhandle with
      | check ha hl hl' _ _ _ hstarts =>
        exact h.move hstarts fun arrival hs => by
          rw [hloc] at hs
          exact absurd (hl.symm.trans hs) (by simp)
      | record arrival hl hl' _ hstarts =>
        exact h.move hstarts fun arrival hs => by
          rw [hloc] at hs
          exact absurd (hl.symm.trans hs) (by simp)
      | start arrival hl hl' _ hstarts =>
        refine h.start hstarts (fun arrival hs => ?_) hl' (by rw [hsome]; rfl)
        rw [hloc] at hs
        exact absurd (hl.symm.trans hs) (by simp)
      | quiet hl' _ hstarts =>
        refine h.move hstarts fun arrival hs => ?_
        rw [hloc] at hs
        rcases hl' with hsame | ⟨-, hnot⟩
        · exact hsame.trans hs
        · exact absurd hs (hnot arrival)
    · cases htask

/-- **Where at most one delivery is handled**, the target is started at most once. -/
theorem starts_le_one (honce : ∀ i j, (handled i).isSome → (handled j).isSome → i = j)
    {d : Dispatcher} {now : Int} {as : List (Label ι ReceiptAct HandleEnv)}
    (r : Run (redeliverySystem config published handled).step Any (redeliveryInit ι d now) as t) :
    t.shared.starts.length ≤ 1 := by
  have h : StartedOnce handled t :=
    Run.invariant ⟨List.Pairwise.nil, fun _ hmem => absurd hmem (List.not_mem_nil)⟩
      (fun _ _ _ hs _ hstep => StartedOnce.step hs hstep) r
  match hs : t.shared.starts with
  | [] => simp
  | [_] => simp
  | start :: start' :: rest =>
    have hd := h.distinct
    have hm := h.started
    rw [hs] at hd hm
    refine absurd (honce _ _ (hm start (by simp)).1 (hm start' (by simp)).1) ?_
    exact (List.pairwise_cons.mp hd).1 start' (by simp)

/-! ### Two deliveries are handled -/

/-- The dispatcher has not seen the event. -/
structure Unseen (d : Dispatcher) (event : AgentEvent) : Prop where
  cache : ¬ d.cache.Knows event.id
  store : ∀ prior ∈ d.store.logged, prior.id ≠ event.id

variable (config) in
omit [DecidableEq ι] in
/-- A handling by itself, up to the start of the target. -/
theorem solo_started {event : AgentEvent} {sh : Handling ι} (hunseen : Unseen sh.dispatcher event)
    (hkey : event.idempotencyKey = none) (htrigger : getTriggerId event.source = none) (i : ι) :
    ∃ acts sh', Run (soloStep config event i) Any (sh, .arrived) acts
        (sh', .executing sh.now) ∧
      sh'.starts = sh.starts ++ [⟨i, sh.now⟩] ∧
      ∀ other : AgentEvent, other.id ≠ event.id → Unseen sh.dispatcher other →
        Unseen sh'.dispatcher other := by
  let d := sh.dispatcher
  have hlookup : d.cache.lookup event sh.now = (none, d.cache) :=
    IdempotencyCache.lookup_of_unknown hunseen.cache hkey
  have hfind : d.store.findDuplicate event config.dedupWindowMs sh.now = none :=
    EventStore.findDuplicate_eq_none.mpr ⟨hunseen.store, fun key hk => by rw [hkey] at hk; cases hk⟩
  have hcheck : soloStep config event i (sh, .arrived) .check =
      some (sh, .checked sh.now none) := by
    simp only [soloStep, handleStep]
    rw [hlookup, hfind]
    rfl
  obtain ⟨acts, hwalk⟩ := solo_walk config event i (sh.put (d.remember event sh.now)) sh.now
    config.causedByDepthLimit.toNat event.causedBy []
  have hclear : walks (lookupAncestor config (sh.put (d.remember event sh.now)).dispatcher) event
      config.causedByDepthLimit.toNat event.causedBy [] = false := by
    simp [walks, htrigger]
  simp only [hclear, Bool.false_eq_true, if_false] at hwalk
  have hcleared := Run.cons (C := Any) trivial hcheck (.cons trivial (a := .record) rfl hwalk)
  refine ⟨_, _, hcleared.snoc trivial (a := .start none) rfl, rfl, fun other hid ho => ⟨?_, ?_⟩⟩
  · intro hknows
    rcases IdempotencyCache.knows_remember hkey hknows with he | hknows
    · exact hid he
    · exact ho.cache hknows
  · intro prior hprior
    have hlogged : prior ∈ (recordEvent d.store event sh.now).logged := hprior
    rw [logged_recordEvent hunseen.store, List.mem_append, List.mem_singleton] at hlogged
    rcases hlogged with hprior | rfl
    · exact ho.store prior hprior
    · exact hid.symm

variable (published) in
/-- A handling by itself is a run of its delivery. -/
theorem run_of_solo {event : AgentEvent} (hsome : handled i = some event)
    (s : State ι (Handling ι) Receipt) {p q : Handling ι × Phase} {acts : List HandleAct}
    (r : Run (soloStep config event i) Any p acts q) :
    ∃ as, Run (redeliverySystem config published handled).step Any
      (s.move i p.1 (.handled p.2)) as (s.move i q.1 (.handled q.2)) := by
  induction r with
  | nil => exact ⟨[], .nil⟩
  | @snoc acts q q' a _ _ h ih =>
    obtain ⟨as, r⟩ := ih
    have hstep : (redeliverySystem config published handled).step
        (s.move i q.1 (.handled q.2)) (.task i (.handle a)) =
          some (s.move i q'.1 (.handled q'.2)) := by
      have h' : handleStep config event i q.1 q.2 a = some q' := h
      simp [System.step, redeliverySystem, receiveStep, hsome, h']
    exact ⟨_, r.snoc trivial hstep⟩

variable (config published handled s) in
/-- **An event nobody has seen**, without a key and without a trigger, is handled up to the start
of its target; the dispatcher has seen it then, and no other. -/
theorem exists_started {event event₀ : AgentEvent} (hloc : s.loc i = .waiting)
    (hpublished : published i = some event₀) (hsome : handled i = some event)
    (hunseen : Unseen s.shared.dispatcher event) (hkey : event.idempotencyKey = none)
    (htrigger : getTriggerId event.source = none) :
    ∃ as sh l, Run (redeliverySystem config published handled).step Any s as (s.move i sh l) ∧
      sh.starts = s.shared.starts ++ [⟨i, s.shared.now⟩] ∧
      ∀ other : AgentEvent, other.id ≠ event.id → Unseen s.shared.dispatcher other →
        Unseen sh.dispatcher other := by
  let d : Dispatcher := { s.shared.dispatcher with
    recent := pushRecent config.recentBufferSize s.shared.dispatcher.recent event₀ }
  have hreceive : (redeliverySystem config published handled).step s (.task i .receive) =
      some (s.move i (s.shared.put d) (.handled .arrived)) := by
    simp [System.step, redeliverySystem, receiveStep, hloc, hpublished, hsome, d]
  have hunseen' : Unseen (s.shared.put d).dispatcher event := ⟨hunseen.cache, hunseen.store⟩
  obtain ⟨acts, sh, hsolo, hstarts, hothers⟩ := solo_started config hunseen' hkey htrigger i
  obtain ⟨as, r⟩ := run_of_solo published hsome s hsolo
  exact ⟨_, sh, _, .cons trivial hreceive r, hstarts, fun other hid ho =>
    hothers other hid ⟨ho.cache, ho.store⟩⟩

end

/-! ### The events of a request -/

section
variable {π ι : Type} [DecidableEq π] [DecidableEq ι] {config : DispatcherConfig}
  {envelope : AgentRpcEnvelope Json} {event : AgentEvent}

/-- A bus may give an event its tenant, and leaves the rest. -/
theorem enforceTenantScope_fields {scope : Option String} {event event' : AgentEvent}
    (h : enforceTenantScope scope event = .ok event') :
    event'.id = event.id ∧ event'.source = event.source ∧
      event'.idempotencyKey = event.idempotencyKey := by
  unfold enforceTenantScope at h
  split at h
  · cases h; exact ⟨rfl, rfl, rfl⟩
  · cases h; exact ⟨rfl, rfl, rfl⟩
  · split at h
    · cases h
      refine ⟨rfl, rfl, ?_⟩
      cases hinfo : event.info <;> simp [AgentEvent.idempotencyKey, hinfo]
    · split at h
      · cases h; exact ⟨rfl, rfl, rfl⟩
      · cases h

/-- The event a request puts on the bus has the fresh id, no key and no trigger. -/
theorem published_request {d : EnvelopeDelivery π} (hkind : envelope.kind = .request)
    (h : d.published envelope = some event) :
    event.id = d.eventId ∧ event.idempotencyKey = none ∧ getTriggerId event.source = none := by
  obtain ⟨effect, hmem, heffect⟩ := List.exists_of_findSome?_eq_some h
  cases effect with
  | published event' =>
    obtain rfl : event' = event := Option.some.inj heffect
    by_cases hmatch : tenantMismatch d.opts envelope = true
    · simp [envelopeEffects, handleEnvelope, hmatch] at hmem
    · obtain ⟨quiet, hquiet, hcases⟩ := handleEnvelope_effects d.opts
        { d.inbox with effects := [] } envelope d.eventId d.receivedAt (by simpa using hmatch)
      have hkind' : .published event' ∈
          kindEffects d.opts d.inbox.pending envelope d.eventId d.receivedAt := by
        rcases hcases with ⟨-, heff⟩ | ⟨-, heff⟩
        · rw [envelopeEffects, heff, List.nil_append, List.mem_append] at hmem
          exact hmem.resolve_left fun hq => hquiet _ hq
        · rw [envelopeEffects, heff, List.nil_append] at hmem
          exact (hquiet _ hmem).elim
      simp only [kindEffects, hkind, eventEffects] at hkind'
      cases hhook : d.opts.onRequest with
      | true => simp [hhook] at hkind'
      | false =>
        cases hscope : enforceTenantScope d.opts.tenantScope
            (requestEvent envelope d.eventId d.receivedAt) with
        | error err => simp [hhook, hscope] at hkind'
        | ok event'' =>
          simp only [hhook, hscope, Bool.false_eq_true, if_false, List.mem_singleton,
            InboxEffect.published.injEq] at hkind'
          subst hkind'
          obtain ⟨hid, hsource, hkey⟩ := enforceTenantScope_fields hscope
          exact ⟨hid, hkey, by rw [hsource]; rfl⟩
  | audit | authReject | hooked | settled => cases heffect

/-- Where the hook does not rewrite events, what is handled is what was published. -/
theorem handled_eq (hhook : ∀ event event', config.before event ≠ .rewrites event')
    {d : EnvelopeDelivery π} (h : d.handled config envelope = some event) :
    d.published envelope = some event := by
  obtain ⟨event', hpub, hbefore⟩ := Option.bind_eq_some_iff.mp h
  cases hb : config.before event' with
  | passes => rw [hb] at hbefore; cases hbefore; exact hpub
  | rewrites event'' => exact absurd hb (hhook _ _)
  | drops | throws _ => rw [hb] at hbefore; cases hbefore

/-- At most one of the deliveries is handled: it passes the tenant check and the authentication,
no hook takes the request, the bus takes its event, and the `event.before` hook lets it pass. -/
def OneHandled (config : DispatcherConfig) (envelope : AgentRpcEnvelope Json)
    (deliveries : ι → EnvelopeDelivery π) : Prop :=
  ∀ i j, ((deliveries i).handled config envelope).isSome →
    ((deliveries j).handled config envelope).isSome → i = j

/-- On every run the target of the request is started at most once. -/
def StartedAtMostOnce (config : DispatcherConfig) (envelope : AgentRpcEnvelope Json)
    (deliveries : ι → EnvelopeDelivery π) (d : Dispatcher) (now : Int) : Prop :=
  ∀ as t, Run (redeliverySystem config (fun i => (deliveries i).published envelope)
      fun i => (deliveries i).handled config envelope).step Any (redeliveryInit ι d now) as t →
    t.shared.starts.length ≤ 1

/-- **Redelivery.**  For every request envelope, any number of deliveries of it, and every
dispatcher: where at most one delivery is handled, the target is started at most once on every
run.  Where the `event.before` hook does not rewrite events, that is the only case: the ids drawn
for two deliveries are fresh, and the dispatcher has nothing else to know them by. -/
theorem redelivery_once_iff (config : DispatcherConfig) (envelope : AgentRpcEnvelope Json)
    (hkind : envelope.kind = .request) (deliveries : ι → EnvelopeDelivery π) (d : Dispatcher)
    (now : Int) (hinj : Function.Injective fun i => (deliveries i).eventId)
    (hcache : ∀ i, ¬ d.cache.Knows (deliveries i).eventId)
    (hstore : ∀ i, ∀ prior ∈ d.store.logged, prior.id ≠ (deliveries i).eventId) :
    (OneHandled config envelope deliveries →
      StartedAtMostOnce config envelope deliveries d now) ∧
    ((∀ event event', config.before event ≠ .rewrites event') →
      StartedAtMostOnce config envelope deliveries d now →
        OneHandled config envelope deliveries) := by
  refine ⟨fun honce as t r => starts_le_one honce r, fun hhook hall i j hi hj => ?_⟩
  by_contra hne
  obtain ⟨event, hi⟩ := Option.isSome_iff_exists.mp hi
  obtain ⟨event', hj⟩ := Option.isSome_iff_exists.mp hj
  have hpi := handled_eq hhook hi
  have hpj := handled_eq hhook hj
  obtain ⟨hid, hkey, htrigger⟩ := published_request hkind hpi
  obtain ⟨hid', hkey', htrigger'⟩ := published_request hkind hpj
  have hidne : event'.id ≠ event.id := by
    rw [hid, hid']
    exact fun he => hne (hinj he).symm
  -- the first delivery up to the start of its target
  obtain ⟨as, sh, l, r, hstarts, hothers⟩ := exists_started config
    (fun i => (deliveries i).published envelope)
    (fun i => (deliveries i).handled config envelope) (redeliveryInit ι d now) rfl hpi hi
    ⟨by rw [hid]; exact hcache i, by rw [hid]; exact hstore i⟩ hkey htrigger
  -- and then the second
  obtain ⟨as', sh', l', r', hstarts', -⟩ := exists_started config
    (fun i => (deliveries i).published envelope)
    (fun i => (deliveries i).handled config envelope) ((redeliveryInit ι d now).move i sh l)
    (by rw [State.move_loc_of_ne _ (Ne.symm hne)]; rfl) hpj hj
    (hothers event' hidne ⟨by rw [hid']; exact hcache j, by rw [hid']; exact hstore j⟩) hkey'
    htrigger'
  have hle := hall _ _ (r.trans r')
  rw [State.move_shared, hstarts', State.move_shared, hstarts] at hle
  simp at hle

end

/-! ### One request, delivered twice -/

/-- A request to an inbox that verifies its senders, and knows none; `strict` from the second
delivery on. -/
def twoDeliveries (strict j : Bool) : EnvelopeDelivery Nat where
  opts := { authRegistry := some fun _ => none, strictAuth := strict && j }
  inbox := {}
  eventId := if j then "e2" else "e1"
  receivedAt := 0

theorem twoDeliveries_injective (strict : Bool) :
    Function.Injective fun j => (twoDeliveries strict j).eventId := by
  intro j j' h
  cases j <;> cases j' <;> simp_all [twoDeliveries]

def idleDispatcher : Dispatcher where
  cache := .empty 10000 600000
  store := .empty
  recent := []
  executed := []

def skillConfig : DispatcherConfig where
  executeTarget _ := .ok (.dispatched "s1")

theorem idle_unseen (id : String) : ¬ idleDispatcher.cache.Knows id ∧
    ∀ prior ∈ idleDispatcher.store.logged, prior.id ≠ id := by
  constructor
  · simp [idleDispatcher, IdempotencyCache.empty, IdempotencyCache.Knows]
  · intro prior hprior
    cases hprior

/-- The transport delivers a request twice within the window, and its target is started twice. -/
theorem request_executed_twice : ¬ ∀ (config : DispatcherConfig)
    (envelope : AgentRpcEnvelope Json), envelope.kind = .request →
    ∀ (deliveries : Bool → EnvelopeDelivery Nat) (d : Dispatcher) (now : Int),
      Function.Injective (fun j => (deliveries j).eventId) →
      (∀ j, ¬ d.cache.Knows (deliveries j).eventId) →
      (∀ j, ∀ prior ∈ d.store.logged, prior.id ≠ (deliveries j).eventId) →
        StartedAtMostOnce config envelope deliveries d now := by
  intro h
  have hinj := twoDeliveries_injective false
  have honce := h skillConfig (summarizeRequest none) rfl (twoDeliveries false) idleDispatcher 0
    hinj (fun j => (idle_unseen _).1) (fun j => (idle_unseen _).2)
  let act (j : Bool) (a : HandleAct) : Label Bool ReceiptAct HandleEnv := .task j (.handle a)
  obtain ⟨t, r, ht⟩ := Run.any_of_replay
    (p := fun t : State Bool (Handling Bool) Receipt => t.shared.starts.length == 2)
    (show (exec (redeliverySystem skillConfig
        (fun j => (twoDeliveries false j).published (summarizeRequest none))
        fun j => (twoDeliveries false j).handled skillConfig (summarizeRequest none)).step
        (redeliveryInit Bool idleDispatcher 0)
      [.task false .receive, act false .check, act false .record, act false .walk,
        act false (.start none), .task true .receive, act true .check, act true .record,
        act true .walk, act true (.start none)]).any _ = true by decide)
  have hle := honce _ t r
  rw [beq_iff_eq.mp ht] at hle
  exact absurd hle (by decide)

/-- The second delivery is refused, and the target is started at most once. -/
theorem redelivery_once_iff_strict : StartedAtMostOnce skillConfig (summarizeRequest none)
    (twoDeliveries true) idleDispatcher 0 := by
  refine (redelivery_once_iff skillConfig (summarizeRequest none) rfl (twoDeliveries true)
    idleDispatcher 0 (twoDeliveries_injective true) (fun _ => (idle_unseen _).1)
    (fun _ => (idle_unseen _).2)).1 fun i j hi hj => ?_
  cases i with
  | true => cases hi
  | false =>
    cases j with
    | true => cases hj
    | false => rfl

end Declaragent.Rpc
