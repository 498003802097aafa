import Declaragent.Events.Types
import Declaragent.Library.Async
import Declaragent.Session.Sqlite

/-!
# Events — pinned sessions

The branch of `executeTarget` for a skill with a session key, as the daemon wires it to the
session store: open the session that is pinned to the key, or create and pin one, then wait for
the session's lock and run the event as a new turn.  Any number of events with one key are
handled at once.  A run gives the processor away after the lookup, after the create, while it
waits for the lock, and between the messages of its turn; `runAgent` is any agent that appends
messages to the handle it was given.

The handle is opened before the lock is taken, so the lock protects a transcript that was read
outside of it: two runs may both find no session and both create one (`second_pin_rejected`),
and a run that waits for the lock holds a handle that falls behind with the first message of the
turn before it.

`Alone` is the condition on a create and on an append under which nothing goes wrong: no other
run stands between its lookup and its turn.  The proof outline is

* of the store: it is sound, and the transcript of the key is that of the turns so far, one
  after another;
* of a run before its turn: it has not had it, and what it knows of the session is up to date;
* of a run in its turn: it has the lock, its turn is the last one, and its handle is up to date,

and it is kept by every such step (`serialised_of_alone`).
-/

namespace Declaragent.Events
open Async Transition JsonText Engine Session

/-- An event for a skill, with a key to pin its session to. -/
structure PinnedEvent (sessionKey : String) where
  event : AgentEvent
  name : String
  inputs : List (String × Json)
  target : event.target = .skill name inputs (some sessionKey)
  nonempty : sessionKey ≠ ""

/-- What the dispatcher is wired to. -/
structure PinnedConfig where
  /-- The registry has the skill. -/
  lookupSkill : String → Bool
  /-- Without it, `createSessionForKey` is not provided. -/
  sessionSpecForKey : Option Json
  /-- What the agent may append next, given the event and the transcript of its handle. -/
  runAgent : AgentEvent → List Message → Message → Bool

/-- The control point of a run; `conflict` says that the session store threw. -/
inductive PinnedPhase where
  | arrived
  | missing
  | pinned (handle : SessionHandle)
  | queued (handle : SessionHandle)
  | running (handle : SessionHandle) (conflict : Bool)
  | ended (outcome : DispatchOutcome) (conflict : Bool)

inductive PinnedAct where
  /-- `resolveSessionByKey`, up to the await of its answer. -/
  | resolve
  /-- `createSessionForKey`, which draws the UUID `sessionId`. -/
  | create (sessionId : String)
  /-- The circuit breaker's answer (its state where it denies), and the place in the chain. -/
  | enter (breaker : Option String)
  /-- The run before this one in the chain is over. -/
  | start
  | append (m : Message)
  /-- `runAgent` returns, or throws `err`. -/
  | finish (err : Option String)

/-- The session store and the chain of each session, its head the run that has the lock.
`created` and `order` log the sessions created and the turns started. -/
structure Pinning (ι : Type) where
  db : SessionDb
  sessionChains : String → List ι
  created : List String
  order : List ι

section
variable {ι : Type} {key : String}

def Pinning.setChain (sh : Pinning ι) (sessionId : String) (chain : List ι) : Pinning ι :=
  { sh with sessionChains := Function.update sh.sessionChains sessionId chain }

/-- One step of the skill branch for `e` by run `i`. -/
def pinnedStep [DecidableEq ι] (config : PinnedConfig) (e : PinnedEvent key) (i : ι)
    (sh : Pinning ι) : PinnedPhase → PinnedAct → Option (Pinning ι × PinnedPhase)
  | .arrived, .resolve =>
    if config.lookupSkill e.name = false then
      some (sh, .ended (.rejected .noHandler
        (some ("skill \"" ++ e.name ++ "\" not registered"))) false)
    else
      -- the handle caches the transcript here, before the lock
      match sh.db.resolveByKey key defaultTenantId with
      | .error err => some (sh, .ended (.rejected .invalid (some err)) true)
      | .ok none => some (sh, .missing)
      | .ok (some handle) => some (sh, .pinned handle)
  | .missing, .create sessionId =>
    match config.sessionSpecForKey with
    | none => some (sh, .ended (.rejected .noHandler (some ("pinned session for key \"" ++ key ++
        "\" could not be resolved or created"))) false)
    | some spec =>
      -- a UUID is drawn once
      if (sh.db.selectSession sessionId).isSome then none
      else
        match sh.db.createForKey key spec defaultTenantId sessionId with
        | .error err => some (sh, .ended (.rejected .invalid (some err)) true)
        | .ok (db, handle) =>
          some ({ sh with db := db, created := sh.created ++ [sessionId] }, .pinned handle)
  | .pinned _, .enter (some state) =>
    some (sh, .ended (.rejected .circuitOpen (some ("skill \"" ++ e.name ++ "\" breaker is " ++
      state ++ "; cooldown in progress"))) false)
  | .pinned handle, .enter none =>
    some (sh.setChain handle.id (sh.sessionChains handle.id ++ [i]), .queued handle)
  | .queued handle, .start =>
    if (sh.sessionChains handle.id).head? = some i then
      some ({ sh with order := sh.order ++ [i] }, .running handle false)
    else none
  | .running handle conflict, .append m =>
    if config.runAgent e.event handle.messages m then
      -- what the agent makes of the error is its own affair
      match sh.db.appendMessage handle m with
      | .error _ => some (sh, .running handle true)
      | .ok (db, handle) => some ({ sh with db := db }, .running handle conflict)
    else none
  | .running handle conflict, .finish none =>
    some (sh.setChain handle.id (sh.sessionChains handle.id).tail,
      .ended (.dispatched handle.id) conflict)
  | .running handle conflict, .finish (some err) =>
    some (sh.setChain handle.id (sh.sessionChains handle.id).tail,
      .ended (.rejected .invalid (some err)) conflict)
  | _, _ => none

/-- The skill branch with one run for each member of `ι`. -/
def pinnedSystem [DecidableEq ι] (config : PinnedConfig) (events : ι → PinnedEvent key) :
    System ι (Pinning ι) PinnedPhase PinnedAct Empty where
  task i := pinnedStep config (events i) i
  env _ e := e.elim

abbrev PinnedState (ι : Type) := State ι (Pinning ι) PinnedPhase
abbrev PinnedLabel (ι : Type) := Label ι PinnedAct Empty

/-- No run has looked its session up yet, in a store that may hold sessions and pins. -/
def pinnedInit (ι : Type) (db : SessionDb) : PinnedState ι :=
  ⟨⟨db, fun _ => [], [], []⟩, fun _ => .arrived⟩

/-! ### One event after another -/

/-- The session that is pinned to the key. -/
def pinOf (key : String) (db : SessionDb) : Option String :=
  db.selectSessionKey defaultTenantId key

/-- The transcript of the key's session, empty where there is none. -/
def transcriptOf (key : String) (db : SessionDb) : List Message :=
  match pinOf key db with
  | none => []
  | some sessionId => db.selectMessages sessionId

/-- In its turn the agent of run `i` appends a message, having read the whole transcript. -/
def Appends (config : PinnedConfig) (events : ι → PinnedEvent key) (i : ι)
    (transcript transcript' : List Message) : Prop :=
  ∃ m, config.runAgent (events i).event transcript m = true ∧ transcript' = transcript ++ [m]

/-- The runs serialise: one session at most is created, the store never throws, and the
transcript is that of the turns one after another, each run having one and each that was
dispatched having had it, on the session of the key. -/
structure Serialised (config : PinnedConfig) (events : ι → PinnedEvent key) (db : SessionDb)
    (s : PinnedState ι) : Prop where
  created : s.shared.created.length ≤ 1
  unconflicted : ∀ i outcome conflict, s.loc i = .ended outcome conflict → conflict = false
  serial : Serial (Appends config events) (transcriptOf key db) s.shared.order
    (transcriptOf key s.shared.db)
  once : s.shared.order.Nodup
  dispatched : ∀ i sessionId conflict, s.loc i = .ended (.dispatched sessionId) conflict →
    i ∈ s.shared.order ∧ pinOf key s.shared.db = some sessionId

/-- The run stands between its lookup and its turn. -/
def PinnedPhase.Waiting : PinnedPhase → Prop
  | .missing | .pinned _ | .queued _ => True
  | _ => False

/-- A session is created, and a message appended, with no other run between its lookup and its
turn. -/
def Alone (s : PinnedState ι) : PinnedLabel ι → Prop
  | .task i (.create _) | .task i (.append _) => ∀ j, j ≠ i → ¬ (s.loc j).Waiting
  | _ => True

/-! ### The outline -/

/-- The handle is of the key's session and has what is stored. -/
structure UpToDate (key : String) (db : SessionDb) (handle : SessionHandle) : Prop where
  pin : pinOf key db = some handle.id
  messages : handle.messages = db.selectMessages handle.id

theorem UpToDate.current {db : SessionDb} {handle : SessionHandle} (hs : db.Sound)
    (h : UpToDate key db handle) : db.Current handle := by
  obtain ⟨session, hsession, -⟩ := hs.pinned _ (SessionDb.selectSessionKey_mem h.pin)
  have hsession : db.selectSession handle.id = some session := hsession
  exact ⟨by rw [hsession]; rfl, h.messages⟩

theorem UpToDate.transcript {db : SessionDb} {handle : SessionHandle}
    (h : UpToDate key db handle) : handle.messages = transcriptOf key db := by
  unfold transcriptOf
  rw [h.pin, h.messages]

/-- What is asserted of a run. -/
def PinnedOwn (key : String) (i : ι) (sh : Pinning ι) : PinnedPhase → Prop
  | .arrived => i ∉ sh.order
  | .missing => i ∉ sh.order ∧ pinOf key sh.db = none
  | .pinned handle | .queued handle => i ∉ sh.order ∧ UpToDate key sh.db handle
  | .running handle conflict => conflict = false ∧ UpToDate key sh.db handle ∧
      sh.order.getLast? = some i ∧ (sh.sessionChains handle.id).head? = some i
  | .ended outcome conflict => conflict = false ∧ ∀ sessionId, outcome = .dispatched sessionId →
      i ∈ sh.order ∧ pinOf key sh.db = some sessionId

/-- What is asserted of the store. -/
structure PinnedShared (config : PinnedConfig) (events : ι → PinnedEvent key) (db : SessionDb)
    (sh : Pinning ι) : Prop where
  sound : sh.db.Sound
  created : sh.created.length ≤ 1
  unpinned : pinOf key sh.db = none → sh.created = []
  serial : Serial (Appends config events) (transcriptOf key db) sh.order
    (transcriptOf key sh.db)
  once : sh.order.Nodup

def pinnedOutline (config : PinnedConfig) (events : ι → PinnedEvent key) (db : SessionDb) :
    Outline ι (Pinning ι) PinnedPhase where
  shared := PinnedShared config events db
  own := PinnedOwn key
  pair _ _ _ _ _ := True

/-! ### What a step leaves to the other runs -/

variable {i j : ι} {sh sh' : Pinning ι} {l : PinnedPhase}

/-- The chains changed, but for their heads. -/
theorem PinnedOwn.of_same (h : PinnedOwn key j sh l) (hdb : sh'.db = sh.db)
    (horder : sh'.order = sh.order)
    (hchain : ∀ handle conflict, l = .running handle conflict →
      (sh'.sessionChains handle.id).head? = some j) : PinnedOwn key j sh' l := by
  cases l with
  | arrived =>
    change j ∉ sh'.order
    rw [horder]
    exact h
  | missing => exact ⟨horder ▸ h.1, hdb ▸ h.2⟩
  | pinned handle => exact ⟨horder ▸ h.1, hdb ▸ h.2⟩
  | queued handle => exact ⟨horder ▸ h.1, hdb ▸ h.2⟩
  | running handle conflict =>
    obtain ⟨hconflict, hcurrent, hlast, -⟩ := h
    exact ⟨hconflict, hdb ▸ hcurrent, horder ▸ hlast, hchain handle conflict rfl⟩
  | ended outcome conflict =>
    obtain ⟨hconflict, hran⟩ := h
    refine ⟨hconflict, fun sessionId ho => ?_⟩
    rw [horder, hdb]
    exact hran sessionId ho

/-- The store changed, but no pin went, with the run outside of the branch. -/
theorem PinnedOwn.of_write (h : PinnedOwn key j sh l) (hidle : ¬ l.Waiting)
    (hturn : ∀ handle conflict, l ≠ .running handle conflict) (horder : sh'.order = sh.order)
    (hpin : ∀ sessionId, pinOf key sh.db = some sessionId → pinOf key sh'.db = some sessionId) :
    PinnedOwn key j sh' l := by
  cases l with
  | arrived =>
    change j ∉ sh'.order
    rw [horder]
    exact h
  | missing => exact absurd trivial hidle
  | pinned handle => exact absurd trivial hidle
  | queued handle => exact absurd trivial hidle
  | running handle conflict => exact absurd rfl (hturn handle conflict)
  | ended outcome conflict =>
    obtain ⟨hconflict, hran⟩ := h
    refine ⟨hconflict, fun sessionId ho => ?_⟩
    obtain ⟨hmem, hpinned⟩ := hran sessionId ho
    exact ⟨horder ▸ hmem, hpin sessionId hpinned⟩

/-- Another run started its turn. -/
theorem PinnedOwn.of_start (h : PinnedOwn key j sh l) (hji : j ≠ i)
    (hturn : ∀ handle conflict, l ≠ .running handle conflict) (hdb : sh'.db = sh.db)
    (horder : sh'.order = sh.order ++ [i]) : PinnedOwn key j sh' l := by
  have hout : j ∉ sh.order → j ∉ sh'.order := fun hj => by
    rw [horder, List.mem_append, List.mem_singleton]
    rintro (hmem | rfl)
    · exact hj hmem
    · exact hji rfl
  cases l with
  | arrived => exact hout h
  | missing => exact ⟨hout h.1, hdb ▸ h.2⟩
  | pinned handle => exact ⟨hout h.1, hdb ▸ h.2⟩
  | queued handle => exact ⟨hout h.1, hdb ▸ h.2⟩
  | running handle conflict => exact absurd rfl (hturn handle conflict)
  | ended outcome conflict =>
    obtain ⟨hconflict, hran⟩ := h
    refine ⟨hconflict, fun sessionId ho => ?_⟩
    obtain ⟨hmem, hpinned⟩ := hran sessionId ho
    rw [horder, hdb]
    exact ⟨List.mem_append_left _ hmem, hpinned⟩

/-- **Mutual exclusion**: while one run heads the chain of the key's session, no other is in its
turn. -/
theorem PinnedOwn.not_running (h : PinnedOwn key j sh l) (hji : j ≠ i) {sessionId : String}
    (hpin : pinOf key sh.db = some sessionId)
    (hhead : (sh.sessionChains sessionId).head? = some i) :
    ∀ handle conflict, l ≠ .running handle conflict := by
  rintro handle conflict rfl
  obtain ⟨-, hcurrent, -, hhead'⟩ := h
  obtain rfl : sessionId = handle.id := Option.some.inj (hpin.symm.trans hcurrent.pin)
  rw [hhead] at hhead'
  exact hji (Option.some.inj hhead').symm

/-! ### One step -/

variable {config : PinnedConfig} {events : ι → PinnedEvent key} {db : SessionDb}
  {s : PinnedState ι}

/-- What is left to show of a step of run `i`. -/
structure PinnedAdvanced (config : PinnedConfig) (events : ι → PinnedEvent key)
    (db : SessionDb) (s : PinnedState ι) (i : ι) (sh : Pinning ι) (l : PinnedPhase) : Prop where
  shared : PinnedShared config events db sh
  own : PinnedOwn key i sh l
  others : ∀ j, j ≠ i → PinnedOwn key j sh (s.loc j)

section
variable (h : (pinnedOutline config events db).Holds s)
include h

theorem pinned_own (j : ι) : PinnedOwn key j s.shared (s.loc j) := h.own j

/-- A step that only moves the run. -/
theorem pinned_still (hown : PinnedOwn key i s.shared l) :
    PinnedAdvanced config events db s i s.shared l :=
  ⟨h.shared, hown, fun j _ => pinned_own h j⟩

variable [DecidableEq ι]

/-- **The lookup** finds the key's session where it has one. -/
theorem pinned_resolve (hl : s.loc i = .arrived)
    (hstep : pinnedStep config (events i) i s.shared .arrived .resolve = some (sh, l)) :
    PinnedAdvanced config events db s i sh l := by
  have hout : PinnedOwn key i s.shared .arrived := hl ▸ pinned_own h i
  have hout : i ∉ s.shared.order := hout
  simp only [pinnedStep] at hstep
  split at hstep
  · cases hstep
    exact pinned_still h ⟨rfl, fun _ ho => by cases ho⟩
  · cases hpin : pinOf key s.shared.db with
    | none =>
      rw [SessionDb.resolveByKey_unpinned hpin] at hstep
      cases hstep
      exact pinned_still h ⟨hout, hpin⟩
    | some sessionId =>
      obtain ⟨spec, hresolve⟩ := h.shared.sound.resolveByKey_pinned hpin
      rw [hresolve] at hstep
      cases hstep
      exact pinned_still h ⟨hout, hpin, rfl⟩

/-- **The create**, with no other run between its lookup and its turn. -/
theorem pinned_create {sessionId : String} (hC : Alone s (.task i (.create sessionId)))
    (hl : s.loc i = .missing)
    (hstep : pinnedStep config (events i) i s.shared .missing (.create sessionId) =
      some (sh, l)) : PinnedAdvanced config events db s i sh l := by
  have hown : PinnedOwn key i s.shared .missing := hl ▸ pinned_own h i
  obtain ⟨hout, hpin⟩ := hown
  simp only [pinnedStep] at hstep
  split at hstep
  · cases hstep
    exact pinned_still h ⟨rfl, fun _ ho => by cases ho⟩
  · rename_i spec _
    split at hstep
    · cases hstep
    · rename_i hnew
      have hnew : s.shared.db.selectSession sessionId = none := by simpa using hnew
      obtain ⟨db', hcreate, hsound, hpin', hempty⟩ :=
        h.shared.sound.createForKey_unpinned spec hpin hnew
      have hpin' : pinOf key db' = some sessionId := hpin'
      have htranscript : transcriptOf key db' = transcriptOf key s.shared.db := by
        unfold transcriptOf
        rw [hpin', hpin]
        exact hempty
      rw [hcreate] at hstep
      cases hstep
      refine ⟨⟨hsound, ?_, fun hnone => ?_, ?_, h.shared.once⟩, ⟨hout, hpin', hempty.symm⟩,
        fun j hji => ?_⟩
      · rw [h.shared.unpinned hpin]
        exact le_refl 1
      · have hnone : pinOf key db' = none := hnone
        rw [hpin'] at hnone
        cases hnone
      · exact htranscript ▸ h.shared.serial
      · -- nobody else can be in a turn: there was no session to take one on
        refine (pinned_own h j).of_write (hC j hji) (fun handle conflict hrun => ?_) rfl
          fun _ hsome => ?_
        · have hrunning := pinned_own h j
          rw [hrun] at hrunning
          have hsome := hrunning.2.1.pin
          rw [hpin] at hsome
          cases hsome
        · rw [hpin] at hsome
          cases hsome

theorem pinned_enter {handle : SessionHandle} {breaker : Option String}
    (hl : s.loc i = .pinned handle)
    (hstep : pinnedStep config (events i) i s.shared (.pinned handle) (.enter breaker) =
      some (sh, l)) : PinnedAdvanced config events db s i sh l := by
  have hown : PinnedOwn key i s.shared (.pinned handle) := hl ▸ pinned_own h i
  obtain ⟨hout, hcurrent⟩ := hown
  cases breaker with
  | some state =>
    cases hstep
    exact pinned_still h ⟨rfl, fun _ ho => by cases ho⟩
  | none =>
    cases hstep
    refine ⟨⟨h.shared.sound, h.shared.created, h.shared.unpinned, h.shared.serial,
      h.shared.once⟩, ⟨hout, hcurrent⟩, fun j _ => (pinned_own h j).of_same rfl rfl ?_⟩
    -- the run goes to the end of the chain, so the head of the chain stays
    intro handle' conflict hrun
    have hrunning := pinned_own h j
    rw [hrun] at hrunning
    obtain ⟨-, -, -, hhead⟩ := hrunning
    by_cases he : handle'.id = handle.id
    · rw [he] at hhead ⊢
      simp [Pinning.setChain, List.head?_append, hhead]
    · simpa [Pinning.setChain, he] using hhead

/-- **The start of a turn** is the next in the order. -/
theorem pinned_start {handle : SessionHandle} (hl : s.loc i = .queued handle)
    (hstep : pinnedStep config (events i) i s.shared (.queued handle) .start = some (sh, l)) :
    PinnedAdvanced config events db s i sh l := by
  have hown : PinnedOwn key i s.shared (.queued handle) := hl ▸ pinned_own h i
  obtain ⟨hout, hcurrent⟩ := hown
  simp only [pinnedStep] at hstep
  split at hstep
  · rename_i hhead
    cases hstep
    refine ⟨⟨h.shared.sound, h.shared.created, h.shared.unpinned, h.shared.serial.start i, ?_⟩,
      ⟨rfl, hcurrent, List.getLast?_concat, hhead⟩, fun j hji => ?_⟩
    · exact h.shared.once.append (List.nodup_singleton i) (by simpa using hout)
    · exact (pinned_own h j).of_start hji ((pinned_own h j).not_running hji hcurrent.pin hhead)
        rfl rfl
  · cases hstep

/-- **A message of a turn** goes to the end of the transcript. -/
theorem pinned_append {handle : SessionHandle} {conflict : Bool} {m : Message}
    (hC : Alone s (.task i (.append m))) (hl : s.loc i = .running handle conflict)
    (hstep : pinnedStep config (events i) i s.shared (.running handle conflict) (.append m) =
      some (sh, l)) : PinnedAdvanced config events db s i sh l := by
  have hown : PinnedOwn key i s.shared (.running handle conflict) := hl ▸ pinned_own h i
  obtain ⟨hconflict, hcurrent, hlast, hhead⟩ := hown
  simp only [pinnedStep] at hstep
  split at hstep
  · rename_i hagent
    obtain ⟨db', happend, hsound, -, hkeys, hmessages⟩ :=
      h.shared.sound.appendMessage_current (hcurrent.current h.shared.sound) m
    have hpin : pinOf key db' = pinOf key s.shared.db := by
      unfold pinOf SessionDb.selectSessionKey
      rw [hkeys]
    have hpin' : pinOf key db' = some handle.id := hpin.trans hcurrent.pin
    have htranscript : transcriptOf key db' = transcriptOf key s.shared.db ++ [m] := by
      rw [← hcurrent.transcript, hcurrent.messages, ← hmessages]
      unfold transcriptOf
      rw [hpin']
    rw [happend] at hstep
    cases hstep
    refine ⟨⟨hsound, h.shared.created, fun hnone => ?_, ?_, h.shared.once⟩,
      ⟨hconflict, ⟨hpin', ?_⟩, hlast, hhead⟩, fun j hji => ?_⟩
    · have hnone : pinOf key db' = none := hnone
      rw [hpin'] at hnone
      cases hnone
    · -- the handle is the whole transcript, so this is one more move of the last turn
      refine h.shared.serial.move_last hlast ⟨m, ?_, htranscript⟩
      rw [← hcurrent.transcript]
      exact hagent
    · rw [hmessages, hcurrent.messages]
    · refine (pinned_own h j).of_write (hC j hji)
        ((pinned_own h j).not_running hji hcurrent.pin hhead) rfl fun sessionId hsome => ?_
      exact hpin.trans hsome
  · cases hstep

theorem pinned_finish {handle : SessionHandle} {conflict : Bool} {err : Option String}
    (hl : s.loc i = .running handle conflict)
    (hstep : pinnedStep config (events i) i s.shared (.running handle conflict) (.finish err) =
      some (sh, l)) : PinnedAdvanced config events db s i sh l := by
  have hown : PinnedOwn key i s.shared (.running handle conflict) := hl ▸ pinned_own h i
  obtain ⟨hconflict, hcurrent, hlast, hhead⟩ := hown
  have hshared : PinnedShared config events db
      (s.shared.setChain handle.id (s.shared.sessionChains handle.id).tail) :=
    ⟨h.shared.sound, h.shared.created, h.shared.unpinned, h.shared.serial, h.shared.once⟩
  have hothers : ∀ j, j ≠ i → PinnedOwn key j
      (s.shared.setChain handle.id (s.shared.sessionChains handle.id).tail) (s.loc j) :=
    fun j hji => (pinned_own h j).of_same rfl rfl fun handle' conflict' hrun =>
      absurd hrun ((pinned_own h j).not_running hji hcurrent.pin hhead handle' conflict')
  cases err with
  | none =>
    cases hstep
    refine ⟨hshared, ⟨hconflict, fun sessionId ho => ?_⟩, hothers⟩
    cases ho
    exact ⟨List.mem_of_getLast? hlast, hcurrent.pin⟩
  | some err =>
    cases hstep
    exact ⟨hshared, ⟨hconflict, fun _ ho => by cases ho⟩, hothers⟩

end

variable [DecidableEq ι]

/-- **One step** of a run that is alone at its creates and appends keeps the outline. -/
theorem pinnedOutline_kept (config : PinnedConfig) (events : ι → PinnedEvent key)
    (db : SessionDb) :
    (pinnedOutline config events db).Kept (pinnedSystem config events) Alone where
  env {_ e _} _ _ _ := e.elim
  task := by
    intro s i a sh l h hC hstep
    have hstep : pinnedStep config (events i) i s.shared (s.loc i) a = some (sh, l) := hstep
    have hadv : PinnedAdvanced config events db s i sh l := by
      cases hl : s.loc i with
      | arrived =>
        rw [hl] at hstep
        cases a with
        | resolve => exact pinned_resolve h hl hstep
        | _ => cases hstep
      | missing =>
        rw [hl] at hstep
        cases a with
        | create sessionId => exact pinned_create h hC hl hstep
        | _ => cases hstep
      | pinned handle =>
        rw [hl] at hstep
        cases a with
        | enter breaker => exact pinned_enter h hl hstep
        | _ => cases hstep
      | queued handle =>
        rw [hl] at hstep
        cases a with
        | start => exact pinned_start h hl hstep
        | _ => cases hstep
      | running handle conflict =>
        rw [hl] at hstep
        cases a with
        | append m => exact pinned_append h hC hl hstep
        | finish err => exact pinned_finish h hl hstep
        | _ => cases hstep
      | ended outcome conflict =>
        rw [hl] at hstep
        cases a <;> cases hstep
    exact ⟨hadv.shared, hadv.own, fun j hj => ⟨hadv.others j hj, trivial, trivial⟩,
      fun _ _ _ _ _ => trivial⟩

/-- **Pinned sessions serialise.**  For any number of events with one key, any sound store, any
agent, and any interleaving in which every create and every append is alone. -/
theorem serialised_of_alone (config : PinnedConfig) (events : ι → PinnedEvent key)
    (db : SessionDb) (hdb : db.Sound) {labels : List (PinnedLabel ι)}
    (r : Run (pinnedSystem config events).step Alone (pinnedInit ι db) labels s) :
    Serialised config events db s := by
  have h0 : (pinnedOutline config events db).Holds (pinnedInit ι db) :=
    ⟨⟨hdb, Nat.zero_le 1, fun _ => rfl, .nil, .nil⟩, fun _ => List.not_mem_nil,
      fun _ _ _ => trivial⟩
  have h := (pinnedOutline_kept config events db).holds_of_run h0 r
  refine ⟨h.shared.created, fun i outcome conflict hl => ?_, h.shared.serial, h.shared.once,
    fun i sessionId conflict hl => ?_⟩
  · have hown := pinned_own h i
    rw [hl] at hown
    exact hown.1
  · have hown := pinned_own h i
    rw [hl] at hown
    exact hown.2 sessionId rfl

end

/-! ### Two events of one key -/

instance (l : PinnedPhase) : Decidable l.Waiting := by
  unfold PinnedPhase.Waiting
  split <;> infer_instance

instance (s : PinnedState Bool) (label : PinnedLabel Bool) : Decidable (Alone s label) := by
  unfold Alone
  split <;> infer_instance

/-- A chat message, routed to a skill with the chat's id as the session key. -/
def chatEvent (id : String) : PinnedEvent "chat-1" where
  event := {
    id := id
    source := .telegram "support" "1" 7
    target := .skill "reply" [] (some "chat-1")
    kind := .chatMessage
    timestamp := 0
    payload := .null
    auth := .internal }
  name := "reply"
  inputs := []
  target := rfl
  nonempty := by decide

/-- An agent that takes the event as a user message. -/
def chatConfig : PinnedConfig where
  lookupSkill name := name == "reply"
  sessionSpecForKey := some .null
  runAgent _ _ m := m.role == .user
/-- The second run waits for the lock while the first is at the end of its turn. -/
theorem serialised_of_alone_chat :
    ∃ s, Run (pinnedSystem chatConfig fun i => chatEvent (if i then "e1" else "e2")).step Alone
        (pinnedInit Bool .empty)
        [.task true .resolve, .task true (.create "s1"), .task true (.enter none),
          .task true .start, .task true (.append (userText "one")), .task false .resolve,
          .task false (.enter none), .task true (.finish none), .task false .start,
          .task false (.append (userText "two")), .task false (.finish none)] s ∧
      Serialised chatConfig (fun i => chatEvent (if i then "e1" else "e2")) .empty s ∧
      s.shared.order = [true, false] := by
  obtain ⟨s, r, horder⟩ := Run.of_replay
    (p := fun s : PinnedState Bool => decide (s.shared.order = [true, false]))
    (show (exec (guarded (pinnedSystem chatConfig fun i =>
        chatEvent (if i then "e1" else "e2")).step Alone)
        (pinnedInit Bool .empty)
        [.task true .resolve, .task true (.create "s1"), .task true (.enter none),
          .task true .start, .task true (.append (userText "one")), .task false .resolve,
          .task false (.enter none), .task true (.finish none), .task false .start,
          .task false (.append (userText "two")), .task false (.finish none)]).any _ = true by
      decide)
  exact ⟨s, r, serialised_of_alone _ _ _ SessionDb.sound_empty r, by simpa using horder⟩

/-- Two runs that both find no session before either creates one: the second is rejected. -/
theorem second_pin_rejected : ¬ ∀ (ι : Type) (_ : DecidableEq ι) (key : String)
    (config : PinnedConfig) (events : ι → PinnedEvent key) (db : SessionDb)
    (labels : List (PinnedLabel ι)) (s : PinnedState ι), db.Sound →
      Run (pinnedSystem config events).step Any (pinnedInit ι db) labels s →
        Serialised config events db s := by
  intro h
  obtain ⟨s, r, hrejected⟩ := Run.any_of_replay
    (p := fun s : PinnedState Bool =>
      match s.loc false with
      | .ended _ conflict => conflict
      | _ => false)
    (show (exec (pinnedSystem chatConfig fun i => chatEvent (if i then "e1" else "e2")).step
      (pinnedInit Bool .empty)
      [.task true .resolve, .task false .resolve, .task true (.create "s1"),
        .task false (.create "s2")]).any _ = true by decide)
  have hs := h _ inferInstance _ _ _ _ _ s SessionDb.sound_empty r
  split at hrejected
  · rename_i outcome conflict hl
    rw [hs.unconflicted false outcome conflict hl] at hrejected
    cases hrejected
  · cases hrejected

end Declaragent.Events
