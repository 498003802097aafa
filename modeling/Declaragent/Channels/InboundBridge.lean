import Declaragent.Channels.ChatEvents
import Declaragent.Events.Dedup
import Mathlib.Data.Fintype.Option
import Mathlib.Data.Fintype.Prod
import Mathlib.Data.List.Indexes

/-!
# Channels — the bridge from inbound messages to skills

Every event of a channel that a route matches is published once more for the skill of the route,
with a new id.  A platform that delivers a message again makes new events of it, so the duplicate
check of the dispatcher knows none of them.

* `bridge_eq`: what the bridge publishes of a delivery.
* `Sound`: what holds of the handling of an event with a new id and without a key.
* `runsOnce_iff`: when each route runs its skill once.
-/

namespace Declaragent.Channels
open Events JsonText Transition Async

/-! ### The bridge -/

def kindName : EventKind → String
  | .userInput => "user.input"
  | .triggerFire => "trigger.fire"
  | .webhookReceived => "webhook.received"
  | .fileChanged => "file.changed"
  | .mcpNotification => "mcp.notification"
  | .mailboxMessage => "mailbox.message"
  | .selfWakeup => "self.wakeup"
  | .selfRetry => "self.retry"
  | .chatMessage => "chat.message"
  | .chatMention => "chat.mention"
  | .chatDm => "chat.dm"
  | .chatVoice => "chat.voice"
  | .chatFile => "chat.file"
  | .channelInteraction => "channel.interaction"
  | .channelCommand => "channel.command"
  | .channelReaction => "channel.reaction"
  | .channelPresence => "channel.presence"
  | .channelSendRequest => "channel.send.request"
  | .channelSendDelivered => "channel.send.delivered"
  | .channelSendFailed => "channel.send.failed"
  | .assistantMessage => "assistant.message"
  | .assistantFinal => "assistant.final"
  | .turnStarted => "turn.started"

structure InboundRoute where
  event : String
  skill : String
  sessionKey : Option String := none

/-- `routesByChannel`: the routes of each channel that has some. -/
abbrev RouteTable := String → Option (List InboundRoute)

/-- The routes of the channel for events of the kind. -/
def RouteTable.matching (table : RouteTable) (channelId : String) (kind : EventKind) :
    List InboundRoute :=
  ((table channelId).getD []).filter fun route => route.event = kindName kind

def skillEvent (route : InboundRoute) (id : String) (event : AgentEvent) : AgentEvent where
  id := id
  kind := event.kind
  source := event.source
  target := .skill route.skill (match event.payload with | .obj fields => fields | _ => [])
    route.sessionKey
  timestamp := event.timestamp
  payload := event.payload
  auth := event.auth
  info := some { event.info.getD {} with causedBy := some event.id }

/-- The key of the event, or its absence, is kept. -/
theorem idempotencyKey_skillEvent (route : InboundRoute) (id : String) (event : AgentEvent) :
    (skillEvent route id event).idempotencyKey = event.idempotencyKey := by
  unfold AgentEvent.idempotencyKey skillEvent
  cases event.info <;> rfl

/-- What the subscriber publishes; `newId n` is its `n`-th id. -/
def bridge (table : RouteTable) (newId : Nat → String) (event : AgentEvent) : List AgentEvent :=
  match event.target with
  | .session .. =>
    match channelIdOf event.source with
    | none => []
    | some channelId =>
      (table.matching channelId event.kind).mapIdx fun n route =>
        skillEvent route (newId n) event
  | _ => []

/-! ### A message that is delivered several times -/

/-- A message of a platform. -/
inductive ChatMessage where
  | slack (payload : Slack.Payload)
  | telegram (update : Telegram.Update)
  | whatsapp (phoneNumberId : String) (message : WhatsApp.InboundMessage)

def ChatMessage.parse (env : ParseEnv) (options : ParseOptions) :
    ChatMessage → Option ParsedUpdate
  | .slack payload => Slack.parseSlackEvent env options payload
  | .telegram update => Telegram.parseUpdate env options update
  | .whatsapp phoneNumberId message => WhatsApp.parseMessage env options phoneNumberId message

/-- The kind of the events it is parsed to. -/
def ChatMessage.kind (options : ParseOptions) (message : ChatMessage) : Option EventKind :=
  (message.parse ⟨"", 0, fun _ => none, fun _ => none⟩ options).map (·.event.kind)

theorem ChatMessage.isChat_of_parse {env : ParseEnv} {options : ParseOptions}
    {message : ChatMessage} {parsed : ParsedUpdate}
    (h : message.parse env options = some parsed) : parsed.IsChat env options.channelId := by
  cases message with
  | slack payload => exact Slack.isChat_of_parse h
  | telegram update => exact Telegram.isChat_of_parse h
  | whatsapp phoneNumberId message => exact WhatsApp.isChat_of_parse h

/-- A message is parsed alike at each delivery. -/
theorem ChatMessage.kind_parse (env : ParseEnv) (options : ParseOptions) (message : ChatMessage) :
    (message.parse env options).map (·.event.kind) = message.kind options := by
  unfold ChatMessage.kind
  cases message with
  | slack payload =>
    cases payload with
    | urlVerification _ | slashCommand _ | other => rfl
    | blockActions payload =>
      simp only [parse, Slack.parseSlackEvent, Slack.parseBlockActions]
      split <;> rfl
    | eventCallback teamId event =>
      cases event with
      | appMention _ | reaction _ | other _ => rfl
      | message event =>
        simp only [parse, Slack.parseSlackEvent, Slack.parseInnerEvent, Slack.parseMessage]
        repeat' split
        all_goals rfl
  | telegram update =>
    simp only [parse, Telegram.parseUpdate, Telegram.parseMessage, Telegram.parseCallback]
    split
    all_goals first | rfl | (split <;> rfl)
  | whatsapp phoneNumberId message =>
    simp only [parse, WhatsApp.parseMessage]
    split <;> rfl

/-- A message that the adapter takes, and its deliveries; the `n`-th is parsed with `env n`, and
the bridge has the ids `newId n` for it. -/
structure Redelivered where
  options : ParseOptions
  message : ChatMessage
  kind : EventKind
  taken : message.kind options = some kind
  times : Nat
  env : Fin times → ParseEnv
  newId : Fin times → Nat → String

namespace Redelivered

theorem parses (R : Redelivered) (n : Fin R.times) :
    ∃ parsed, R.message.parse (R.env n) R.options = some parsed ∧ parsed.event.kind = R.kind := by
  have h := R.message.kind_parse (R.env n) R.options
  rw [R.taken, Option.map_eq_some_iff] at h
  exact h

/-- The event of a delivery. -/
def delivered (R : Redelivered) (n : Fin R.times) : AgentEvent :=
  ((R.message.parse (R.env n) R.options).get (by
    obtain ⟨parsed, hparsed, -⟩ := R.parses n
    rw [hparsed]
    rfl)).event

variable (R : Redelivered) (table : RouteTable)

/-- The routes that match the message. -/
def routes : List InboundRoute := table.matching R.options.channelId R.kind

/-- The events on the bus: of a delivery itself, and for each route. -/
abbrev Task := Fin R.times × Option (Fin (R.routes table).length)

def event : R.Task table → AgentEvent
  | (n, none) => R.delivered n
  | (n, some k) => skillEvent (R.routes table)[k] (R.newId n k) (R.delivered n)

theorem delivered_spec (n : Fin R.times) :
    (R.delivered n).kind = R.kind ∧ (R.delivered n).id = (R.env n).randomUUID ∧
      (∃ sessionId, (R.delivered n).target = .session sessionId .inject) ∧
      channelIdOf (R.delivered n).source = some R.options.channelId ∧
      (R.delivered n).idempotencyKey = none := by
  obtain ⟨parsed, hparsed, hkind⟩ := R.parses n
  have hevent : R.delivered n = parsed.event := by
    unfold delivered
    simp [hparsed]
  have hchat := ChatMessage.isChat_of_parse hparsed
  rw [hevent]
  exact ⟨hkind, hchat.id, hchat.session, hchat.source, hchat.key⟩

/-- **What the bridge publishes** of a delivery: an event for each matching route. -/
theorem bridge_eq (n : Fin R.times) :
    bridge table (R.newId n) (R.event table (n, none)) =
      List.ofFn fun k => R.event table (n, some k) := by
  obtain ⟨hkind, -, ⟨sessionId, htarget⟩, hsource, -⟩ := R.delivered_spec n
  unfold bridge event
  rw [htarget, hsource, hkind]
  exact List.mapIdx_eq_ofFn _ _

/-- No event of the deliveries has a key, or a trigger. -/
theorem unkeyed (t : R.Task table) : (R.event table t).idempotencyKey = none := by
  obtain ⟨n, k⟩ := t
  obtain ⟨-, -, -, -, hkey⟩ := R.delivered_spec n
  cases k with
  | none => exact hkey
  | some k => exact (idempotencyKey_skillEvent ..).trans hkey

theorem untriggered (t : R.Task table) : getTriggerId (R.event table t).source = none := by
  obtain ⟨n, k⟩ := t
  obtain ⟨-, -, -, hsource, -⟩ := R.delivered_spec n
  have hnone : getTriggerId (R.delivered n).source = none := by
    cases h : (R.delivered n).source with
    | telegram | discord | slack | whatsapp => rfl
    | _ => rw [h] at hsource; cases hsource
  cases k <;> exact hnone

end Redelivered

/-! ### The handling of an event with a new id -/

section
variable {ι : Type}

/-- Neither the cache nor the store knows the id. -/
def Unknown (d : Dispatcher) (id : String) : Prop :=
  ¬ d.cache.Knows id ∧ ∀ prior ∈ d.store.logged, prior.id ≠ id

/-- Over, and not turned away by the rate limiter. -/
def Admitted : Events.Phase → Prop
  | .settled .. => True
  | .ended (.rejected .rateLimit _) => False
  | .ended _ => True
  | _ => False

/-- Where the handling of an event with a new id can be: it gets past the duplicate check, and is
started unless the limiter turns it away. -/
def Sound (event : AgentEvent) (i : ι) (sh : Handling ι) : Events.Phase → Prop
  | .arrived => Unknown sh.dispatcher event.id
  | .checked _ prior => prior = none
  | .walking .. | .cleared _ => True
  | .executing _ | .settled .. => ∃ start ∈ sh.starts, start.task = i
  | .ended outcome => ∃ details, outcome = .rejected .rateLimit details

/-- The starts so far stay, and other ids stay unknown. -/
structure Leaves (id : String) (sh sh' : Handling ι) : Prop where
  starts : sh.starts ⊆ sh'.starts
  unknown : ∀ other, other ≠ id → Unknown sh.dispatcher other → Unknown sh'.dispatcher other

theorem Sound.of_leaves {event event' : AgentEvent} {i : ι} {sh sh' : Handling ι} {l : Events.Phase}
    (h : Sound event i sh l) (hleaves : Leaves event'.id sh sh') (hid : event.id ≠ event'.id) :
    Sound event i sh' l := by
  cases l with
  | arrived => exact hleaves.unknown _ hid h
  | executing _ | settled _ _ =>
    obtain ⟨start, hstart, hi⟩ := h
    exact ⟨start, hleaves.starts hstart, hi⟩
  | checked _ _ | walking _ _ _ _ | cleared _ | ended _ => exact h

theorem Unknown.of_logged {d d' : Dispatcher} {id : String} (h : Unknown d id)
    (hcache : d'.cache = d.cache) (hlogged : d'.store.logged = d.store.logged) :
    Unknown d' id := by
  unfold Unknown at h ⊢
  rwa [hcache, hlogged]

/-- Remembering an event without a key makes its id known, and no other. -/
theorem Unknown.remember {d : Dispatcher} {event : AgentEvent} {now : Int} {id : String}
    (h : Unknown d id) (hkey : event.idempotencyKey = none) (hid : id ≠ event.id) :
    Unknown (d.remember event now) id := by
  refine ⟨fun hknows => ?_, fun prior hprior => ?_⟩
  · rcases IdempotencyCache.knows_remember hkey hknows with hsame | hbefore
    · exact hid hsame
    · exact h.1 hbefore
  · rcases EventStore.record_spec d.store event now with
      ⟨e, he, -⟩ | ⟨store', he, hlogged, -⟩
    · simp only [Dispatcher.remember, recordEvent, he] at hprior
      exact h.2 prior hprior
    · simp only [Dispatcher.remember, recordEvent, he, hlogged, List.mem_append,
        List.mem_singleton] at hprior
      rcases hprior with hprior | rfl
      · exact h.2 prior hprior
      · exact hid.symm

variable {config : DispatcherConfig} {event : AgentEvent} {i : ι} {sh sh' : Handling ι}
  {l l' : Events.Phase} {a : HandleAct}

theorem check_of_unknown (hunknown : Unknown sh.dispatcher event.id)
    (hkey : event.idempotencyKey = none) :
    handleStep config event i sh .arrived .check = some (sh, .checked sh.now none) := by
  have hnone : sh.dispatcher.store.findDuplicate event config.dedupWindowMs sh.now = none :=
    EventStore.findDuplicate_eq_none.mpr
      ⟨hunknown.2, fun key hk => by rw [hkey] at hk; cases hk⟩
  simp only [handleStep, IdempotencyCache.lookup_of_unknown hunknown.1 hkey, hnone]
  rfl

theorem walkStep_of_untriggered (htrigger : getTriggerId event.source = none)
    (lookup : String → Option AgentEvent) (fuel : Nat) (ancestorId : Option String)
    (visited : List String) : walkStep lookup event fuel ancestorId visited = .clear := by
  unfold walkStep
  rw [htrigger]

/-- **A step of the handling** of an event with a new id. -/
theorem handleStep_sound (hkey : event.idempotencyKey = none)
    (htrigger : getTriggerId event.source = none) (hsound : Sound event i sh l)
    (h : handleStep config event i sh l a = some (sh', l')) :
    Sound event i sh' l' ∧ Leaves event.id sh sh' := by
  cases l with
  | arrived =>
    cases a with
    | check =>
      rw [check_of_unknown hsound hkey] at h
      cases h
      exact ⟨rfl, List.Subset.refl _, fun _ _ h => h⟩
    | record | walk | start _ | finish _ => cases h
  | checked arrival prior =>
    obtain rfl : prior = none := hsound
    cases a with
    | record =>
      cases h
      exact ⟨trivial, List.Subset.refl _, fun _ hid h => h.remember hkey hid⟩
    | check | walk | start _ | finish _ => cases h
  | walking arrival fuel ancestorId visited =>
    cases a with
    | walk =>
      simp only [handleStep, walkStep_of_untriggered htrigger] at h
      cases h
      exact ⟨trivial, List.Subset.refl _, fun _ _ h => h⟩
    | check | record | start _ | finish _ => cases h
  | cleared arrival =>
    cases a with
    | start denied =>
      cases denied with
      | some details =>
        cases h
        exact ⟨⟨_, rfl⟩, List.Subset.refl _,
          fun _ _ h => h.of_logged rfl (logged_reject ..)⟩
      | none =>
        cases h
        exact ⟨⟨_, List.mem_append_right _ (List.mem_singleton_self _), rfl⟩,
          List.subset_append_left _ _, fun _ _ h => h⟩
    | check | record | walk | finish _ => cases h
  | executing arrival =>
    cases a with
    | finish outcome =>
      cases h
      exact ⟨hsound, List.Subset.refl _, fun _ _ h => h.of_logged rfl (logged_settle ..)⟩
    | check | record | walk | start _ => cases h
  | settled _ _ | ended _ => cases a <;> cases h

end

/-! ### Once per route -/

namespace Redelivered

variable (R : Redelivered) (table : RouteTable)

/-- The ids are new: they differ, and the dispatcher knows none of them. -/
structure NewIds (d : Dispatcher) : Prop where
  distinct : Function.Injective fun t => (R.event table t).id
  unknown : ∀ t, Unknown d (R.event table t).id

/-- The handling of the events, which no hook rewrites, by one dispatcher. -/
abbrev system (config : DispatcherConfig) :
    System (R.Task table) (Handling (R.Task table)) Events.Phase HandleAct HandleEnv :=
  handleSystem config (R.event table)

/-- The clock stays in the window of the duplicate check. -/
def InWindow (config : DispatcherConfig) (now : Int) :
    HandleState (R.Task table) → HandleLabel (R.Task table) → Prop
  | _, .env (.clock t) => t - now ≤ config.dedupWindowMs
  | _, _ => True

variable {R table}

/-- The starts of the skill of a route. -/
def startsOf (k : Fin (R.routes table).length) (starts : List (Start (R.Task table))) :
    List (Start (R.Task table)) :=
  starts.filter fun start => start.task.2 = some k

/-- Each matching route has started its skill at most once, and the skill was started once the
events for it are through. -/
structure OncePerRoute (s : HandleState (R.Task table)) : Prop where
  atMostOnce : ∀ k, (startsOf k s.shared.starts).length ≤ 1
  own : ∀ k, 0 < R.times → (∀ n, Admitted (s.loc (n, some k))) → startsOf k s.shared.starts ≠ []

variable (R table)

/-- So it is in every run. -/
def RunsOnce (config : DispatcherConfig) (d : Dispatcher) (now : Int) : Prop :=
  ∀ labels s, Run (R.system table config).step (R.InWindow table config now)
    (handleInit (R.Task table) d now) labels s → OncePerRoute s

variable {R table} {config : DispatcherConfig} {d : Dispatcher} {now : Int}

/-- What is asserted of the handling of each event. -/
def soundOutline : Outline (R.Task table) (Handling (R.Task table)) Events.Phase where
  shared _ := True
  own t sh l := Sound (R.event table t) t sh l
  pair _ _ _ _ _ := True

theorem soundOutline_kept (hdistinct : Function.Injective fun t => (R.event table t).id)
    (config : DispatcherConfig) (now : Int) :
    soundOutline.Kept (R.system table config) (R.InWindow table config now) where
  env := by
    intro s e sh h _ he
    cases e with
    | clock now =>
      cases he
      exact ⟨trivial, h.own, h.pair⟩
    | published event =>
      cases he
      exact ⟨trivial, h.own, h.pair⟩
  task := by
    intro s t a sh l h _ hstep
    obtain ⟨hsound, hleaves⟩ :=
      handleStep_sound (R.unkeyed table t) (R.untriggered table t) (h.own t) hstep
    refine ⟨trivial, hsound, fun t' ht' => ⟨?_, trivial, trivial⟩, fun _ _ _ _ _ => trivial⟩
    exact (h.own t').of_leaves hleaves fun hid => ht' (hdistinct hid)

/-- Without keys, the duplicate checks of different events are apart. -/
theorem apart (hdistinct : Function.Injective fun t => (R.event table t).id)
    (config : DispatcherConfig) (span : Int) (s : HandleState (R.Task table))
    (label : HandleLabel (R.Task table)) : Apart config (R.event table) span s label := by
  have hshares : ∀ t t', ¬ SharesKey (R.event table t) (R.event table t') := by
    rintro t t' ⟨hsome, -, -⟩
    rw [R.unkeyed table t] at hsome
    cases hsome
  unfold Apart
  split
  · rename_i t
    intro t' ht'
    unfold ApartFrom
    split
    · trivial
    · rintro (hid | ⟨hkey, -⟩)
      · exact ht' (hdistinct hid)
      · exact hshares _ _ hkey
    · exact fun hkey => absurd hkey (hshares _ _)
    · exact fun hkey => absurd hkey (hshares _ _)
  · trivial

/-- Each event starts its target at most once. -/
theorem starts_nodup (hnew : R.NewIds table d) {labels : List (HandleLabel (R.Task table))}
    {s : HandleState (R.Task table)}
    (r : Run (R.system table config).step (R.InWindow table config now)
      (handleInit (R.Task table) d now) labels s) :
    (s.shared.starts.map (·.task)).Nodup := by
  have h0 : (handleOutline (R.event table) 0).Holds (handleInit (R.Task table) d now) :=
    ⟨List.Pairwise.nil, fun _ => .out fun _ hmem => by (cases hmem), fun _ _ _ => .of_out⟩
  have hapart := Run.mono (P := fun _ => True) trivial
    (fun s label s' _ _ => ⟨trivial, fun _ => apart hnew.distinct config 0 s label⟩) r
  have hstarts : AtMostOnce (R.event table) 0 s.shared.starts :=
    ((handleOutline_kept config (R.event table) 0).holds_of_run h0 hapart).shared
  rw [List.Nodup, List.pairwise_map]
  refine hstarts.imp fun hdiffer hsame => hdiffer (Or.inl ?_)
  rw [hsame]

/-- A message that comes once starts each skill once. -/
theorem runsOnce_of_once (hnew : R.NewIds table d) (honce : R.times ≤ 1) :
    R.RunsOnce table config d now := by
  intro labels s r
  have h0 : soundOutline.Holds (handleInit (R.Task table) d now) :=
    ⟨trivial, hnew.unknown, fun _ _ _ => trivial⟩
  have hsound := (soundOutline_kept hnew.distinct config now).holds_of_run h0 r
  refine ⟨fun k => ?_, fun k htimes hadmitted hnone => ?_⟩
  · have hnodup : ((startsOf k s.shared.starts).map (·.task)).Nodup :=
      (List.filter_sublist.map _).nodup (starts_nodup hnew r)
    have hroute : ∀ start ∈ startsOf k s.shared.starts, start.task.2 = some k :=
      fun start hstart => by simpa using (List.mem_filter.mp hstart).2
    -- one delivery has one event for the route
    match hstarts : startsOf k s.shared.starts with
    | [] | [_] => simp
    | start :: start' :: rest =>
      rw [hstarts] at hnodup hroute
      have hsame : start.task = start'.task := by
        have hk := hroute start (by simp)
        have hk' := hroute start' (by simp)
        refine Prod.ext (Fin.ext ?_) (hk.trans hk'.symm)
        have hn := start.task.1.isLt
        have hn' := start'.task.1.isLt
        omega
      simp [hsame] at hnodup
  · obtain ⟨start, hstart, ht⟩ : ∃ start ∈ s.shared.starts, start.task = (⟨0, htimes⟩, some k) := by
      have hown : Sound _ _ s.shared (s.loc (⟨0, htimes⟩, some k)) := hsound.own _
      have hthrough := hadmitted ⟨0, htimes⟩
      cases hl : s.loc (⟨0, htimes⟩, some k) with
      | arrived | checked _ _ | walking _ _ _ _ | cleared _ | executing _ =>
        rw [hl] at hthrough
        cases hthrough
      | settled _ _ =>
        rw [hl] at hown
        exact hown
      | ended outcome =>
        rw [hl] at hown hthrough
        obtain ⟨details, rfl⟩ := hown
        cases hthrough
    have hmem : start ∈ startsOf k s.shared.starts :=
      List.mem_filter.mpr ⟨hstart, by simp [ht]⟩
    rw [hnone] at hmem
    cases hmem

/-- The handling of one event, up to the start of its target. -/
theorem exists_start (config : DispatcherConfig) (now : Int) (t : R.Task table)
    {s : HandleState (R.Task table)} (hloc : s.loc t = .arrived)
    (hunknown : Unknown s.shared.dispatcher (R.event table t).id) :
    ∃ labels s', Run (R.system table config).step (R.InWindow table config now) s labels s' ∧
      s'.shared.starts = s.shared.starts ++ [⟨t, s.shared.now⟩] ∧
      (∀ t', t' ≠ t → s'.loc t' = s.loc t') ∧
      ∀ id, id ≠ (R.event table t).id → Unknown s.shared.dispatcher id →
        Unknown s'.shared.dispatcher id := by
  have hkey := R.unkeyed table t
  have hcheck : (R.system table config).task t s.shared (s.loc t) .check =
      some (s.shared, .checked s.shared.now none) := by
    rw [hloc]
    exact check_of_unknown (i := t) hunknown hkey
  have hfirst : (R.system table config).step s (.task t .check) =
      some (s.move t s.shared (.checked s.shared.now none)) := by
    simp only [System.step, hcheck, Option.map_some]
  let sh := s.shared.put (s.shared.dispatcher.remember (R.event table t) s.shared.now)
  have hwalk : (R.system table config).task t sh (.walking s.shared.now
      config.causedByDepthLimit.toNat (R.event table t).causedBy []) .walk =
      some (sh, .cleared s.shared.now) := by
    simp only [system, handleSystem, handleStep, walkStep_of_untriggered (R.untriggered table t)]
  have hchecked := Run.snoc .nil
    (show R.InWindow table config now s (.task t .check) from trivial) hfirst
  have hrecorded := System.run_move_of hchecked trivial (a := .record) rfl
  have hcleared := System.run_move_of hrecorded trivial hwalk
  have hstarted := System.run_move_of hcleared trivial (a := .start none) rfl
  exact ⟨_, _, hstarted, rfl, fun t' ht' => State.move_loc_of_ne _ ht' _ _,
    fun id hid h => h.remember hkey hid⟩

/-- A message that comes twice starts a skill twice. -/
theorem not_runsOnce_of_twice (hnew : R.NewIds table d) (htwice : 2 ≤ R.times)
    (hroutes : R.routes table ≠ []) : ¬ R.RunsOnce table config d now := by
  intro hruns
  let k : Fin (R.routes table).length := ⟨0, List.length_pos_iff.mpr hroutes⟩
  let t : R.Task table := (⟨0, by omega⟩, some k)
  let t' : R.Task table := (⟨1, by omega⟩, some k)
  have hne : t' ≠ t := by
    intro h
    have hn := congrArg (fun t => t.1.val) h
    exact absurd hn Nat.one_ne_zero
  obtain ⟨labels, s, r, hstarts, hloc, hunknown⟩ := exists_start config now t
    (s := handleInit (R.Task table) d now) rfl (hnew.unknown t)
  obtain ⟨labels', s', r', hstarts', -, -⟩ := exists_start config now t'
    (s := s) ((hloc t' hne).trans rfl)
    (hunknown _ (fun hid => hne (hnew.distinct hid)) (hnew.unknown t'))
  have honce := (hruns _ _ (r.trans r')).atMostOnce k
  rw [hstarts', hstarts] at honce
  simp [startsOf, handleInit, t, t'] at honce

/-- **Each route runs its skill once** exactly when the message is delivered once, or has no
route. -/
theorem runsOnce_iff (R : Redelivered) (table : RouteTable) (config : DispatcherConfig)
    (d : Dispatcher) (now : Int) (hnew : R.NewIds table d) :
    R.RunsOnce table config d now ↔ R.times ≤ 1 ∨ R.routes table = [] := by
  constructor
  · intro h
    by_contra hcon
    rw [not_or, not_le] at hcon
    exact not_runsOnce_of_twice hnew hcon.1 hcon.2 h
  · rintro (honce | hnone)
    · exact runsOnce_of_once hnew honce
    · intro labels s r
      have hempty : ∀ k : Fin (R.routes table).length, False := fun k =>
        absurd k.isLt (by simp [hnone])
      exact ⟨fun k => (hempty k).elim, fun k => (hempty k).elim⟩

/-- A private message to the bot, delivered a number of times. -/
def greetings (times : Nat) : Redelivered where
  options := { channelId := "telegram-main" }
  message := .telegram
    { updateId := 7
      message := some
        { messageId := 1
          date := 0
          chatId := 5
          chatType := "private"
          text := some "hi"
          raw := .null } }
  kind := .chatDm
  taken := rfl
  times := times
  env n := ⟨String.ofList (List.replicate n 'e'), 0, fun _ => none, fun _ => none⟩
  newId n _ := String.ofList ('s' :: List.replicate n 'e')

/-- Private messages go to one skill. -/
def chatTable : RouteTable := fun channelId =>
  if channelId = "telegram-main" then some [{ event := "chat.dm", skill := "chat" }] else none

def bridgeConfig : DispatcherConfig where
  executeTarget _ := .ok (.dispatched "chat")

theorem unknown_emptyDispatcher (id : String) : Unknown emptyDispatcher id :=
  ⟨List.not_mem_nil, List.forall_mem_nil _⟩

theorem runsOnce_greeted :
    (greetings 1).NewIds chatTable emptyDispatcher ∧
      ((greetings 1).RunsOnce chatTable bridgeConfig emptyDispatcher 0 ↔
        (greetings 1).times ≤ 1 ∨ (greetings 1).routes chatTable = []) := by
  have hnew : (greetings 1).NewIds chatTable emptyDispatcher :=
    ⟨by decide, fun _ => unknown_emptyDispatcher _⟩
  exact ⟨hnew, runsOnce_iff _ _ _ _ _ hnew⟩

/-- The message is delivered again, and the skill runs again. -/
theorem skill_runs_again :
    ¬ ∀ (R : Redelivered) (table : RouteTable) (config : DispatcherConfig) (d : Dispatcher)
      (now : Int), R.NewIds table d → R.RunsOnce table config d now := by
  intro h
  have hnew : (greetings 2).NewIds chatTable emptyDispatcher :=
    ⟨by decide, fun _ => unknown_emptyDispatcher _⟩
  exact not_runsOnce_of_twice hnew (Nat.le_refl 2) (by decide)
    (h (greetings 2) chatTable bridgeConfig emptyDispatcher 0 hnew)

end Redelivered

end Declaragent.Channels
