import Declaragent.Events.Normalizer
import Declaragent.Library.Transition

/-!
# Sources — the replay of a Kafka source

`replay` reads a range of every partition again, with a consumer of its own.  The consumer starts
at the beginning of the log and is then sought to the start of each range; what it delivers goes
into a queue from which the generator takes one message after the other.  `remainingByKey` counts
the messages of each partition down from the length of its range, and the generator ends when
nothing remains.

The messages are counted, their offsets not looked at: an offset that has no message, a message
from before the seek, and one from behind the range are each taken for one of the range.

* `toReplay` is the event that is yielded of a normalized one.
* `Inv` is what a run keeps whose steps are `Clean`: the messages of each partition that were
  taken, and those that wait in the queue, are the messages of its log from the start of its range.
* `replay_exact` says what such a run comes to, where the ranges have no gaps.
-/

namespace Declaragent.Sources.KafkaReplay
open Events Transition JsonText

/-! ### The source -/

structure KafkaIncomingMessage where
  topic : String
  partition : Nat
  offset : Nat
  timestamp : Option Int := none
  key : Option String := none
  value : RawValue
  headers : List (String × Option RawValue) := []

/-- The configuration of the source; an empty id is refused. -/
structure KafkaTriggerConfig where
  id : String
  topics : List String
  routing : RoutingConfig
  id_ne : id ≠ ""

/-- A header that is `undefined` is left out. -/
def decodeHeaders (N : NormalizerDeps) (headers : List (String × Option RawValue)) :
    List (String × Json) :=
  headers.filterMap fun (name, value) => value.map fun v => (name, .str (v.toText N))

def messageId (m : KafkaIncomingMessage) : String :=
  m.topic ++ ":" ++ toString m.partition ++ ":" ++ toString m.offset

/-- `raw`, of a message that was delivered `deliveryCount` times before. -/
def toRaw (N : NormalizerDeps) (m : KafkaIncomingMessage) (deliveryCount : Nat) :
    Events.RawMessage where
  value := m.value
  topic := some m.topic
  partition := some m.partition
  offset := some (toString m.offset)
  key := m.key
  timestamp := m.timestamp
  headers := decodeHeaders N m.headers
  info := [("messageId", .str (messageId m)), ("deliveryCount", .num (.ofInt deliveryCount))]

def buildNormalizeContext (config : KafkaTriggerConfig) (raw : Events.RawMessage) :
    NormalizeContext where
  source := .kafka config.id (raw.topic.getD (config.topics.head?.getD ""))
    (raw.partition.getD 0) (raw.offset.getD "")
  auth := .trigger config.id

/-- What the normalizer makes of a message. -/
def normalizeMessage (N : NormalizerDeps) (config : KafkaTriggerConfig) (m : KafkaIncomingMessage)
    (deliveryCount : Nat) (uuid : String) (now : Int) : Except String (Option AgentEvent) :=
  let raw := toRaw N m deliveryCount
  Normalizer.normalize N raw config.routing (buildNormalizeContext config raw) uuid now

/-! ### The ranges -/

structure PartitionRange where
  topic : String
  partition : Nat
  start : Nat
  «end» : Nat

namespace PartitionRange

def tp (r : PartitionRange) : String × Nat := (r.topic, r.partition)

def length (r : PartitionRange) : Nat := r.end - r.start

/-- The message is of the range's partition. -/
def Of (r : PartitionRange) (m : KafkaIncomingMessage) : Prop := (m.topic, m.partition) = r.tp

instance (r : PartitionRange) (m : KafkaIncomingMessage) : Decidable (r.Of m) := by
  unfold Of; infer_instance

end PartitionRange

/-- Ranges that have records, one for each partition at most. -/
structure ReplayPlan where
  ranges : List PartitionRange
  start_lt_end : ∀ r ∈ ranges, r.start < r.end
  distinct : (ranges.map PartitionRange.tp).Nodup

def partitionKey (topic : String) (partition : Nat) : String := topic ++ ":" ++ toString partition

/-! ### The generator -/

structure ReplayParams where
  toMs : Option Int := none
  limit : Option Nat := none
  filter : Option (AgentEvent → Bool) := none

/-- The rewrite of an event that is yielded as the `n`-th. -/
def toReplay (event : AgentEvent) (n : Nat) : AgentEvent :=
  { event with
    id := "replay:" ++ event.id ++ ":" ++ toString n
    info := some { event.info.getD {} with causedBy := some event.id } }

/-- What the generator does with a message. -/
inductive PullOutcome where
  /-- It is from after `toMs`. -/
  | late
  | dropped
  | filtered
  | yields (event : AgentEvent)

def PullOutcome.isYield : PullOutcome → Bool
  | .yields _ => true
  | _ => false

/-- The loop's body, from the time filter on. -/
def examine (N : NormalizerDeps) (config : KafkaTriggerConfig) (params : ReplayParams)
    (m : KafkaIncomingMessage) (yielded : Nat) (uuid : String) (now : Int) :
    Except String PullOutcome :=
  if (match m.timestamp, params.toMs with
      | some timestamp, some toMs => decide (toMs < timestamp)
      | _, _ => false) then .ok .late
  else
    match normalizeMessage N config m 0 uuid now with
    | .error err => .error err
    | .ok none => .ok .dropped
    | .ok (some event) =>
      if (params.filter.map fun filter => filter event).getD true then
        .ok (.yields (toReplay event yielded))
      else .ok .filtered

inductive EndReason where
  | finished
  | limit
  | threw (err : String)

inductive ReplayStatus where
  | seeking
  | looping
  | ended (reason : EndReason)

/-- A message in the queue; `fresh` says that its partition was sought before it was delivered. -/
structure QueueItem where
  msg : KafkaIncomingMessage
  fresh : Bool

/-- `position` is where the consumer stands in each partition, `sought` how many seeks have taken
effect; `pulled` logs what the generator took from the queue. -/
structure ReplayState where
  position : String × Nat → Nat := fun _ => 0
  sought : Nat := 0
  buffer : List QueueItem := []
  remainingByKey : List (String × Nat) := []
  pulled : List (KafkaIncomingMessage × PullOutcome) := []
  yielded : Nat := 0
  status : ReplayStatus := .seeking

/-- Nothing is read for a limit of nothing, or where no partition has records. -/
def replay (params : ReplayParams) (plan : ReplayPlan) : ReplayState :=
  { status :=
      if params.limit = some 0 then .ended .limit
      else if plan.ranges = [] then .ended .finished
      else .seeking }

/-- The entry of the key counts down; at its last it goes. -/
def countDown (key : String) (remaining : List (String × Nat)) : List (String × Nat) :=
  remaining.filterMap fun (k, n) =>
    if k = key then (if n ≤ 1 then none else some (k, n - 1)) else some (k, n)

/-- What each partition's log holds, under the offsets. -/
structure KafkaLog where
  read : String × Nat → Nat → Option KafkaIncomingMessage
  tagged : ∀ tp o m, read tp o = some m → (m.topic, m.partition) = tp ∧ m.offset = o

inductive ReplayLabel where
  /-- The consumer delivers the message at the offset of the partition. -/
  | deliver (tp : String × Nat) (offset : Nat)
  /-- The next seek takes effect. -/
  | seek
  /-- The generator takes a message; `uuid` and `now` are what its normalization draws. -/
  | pull (uuid : String) (now : Int)

/-- The offset is the next one from `position` on that has a message. -/
def IsNext (log : Nat → Option KafkaIncomingMessage) (position offset : Nat) : Prop :=
  position ≤ offset ∧ ∀ k, k < offset → position ≤ k → log k = none

instance (log : Nat → Option KafkaIncomingMessage) (position offset : Nat) :
    Decidable (IsNext log position offset) := by
  unfold IsNext; infer_instance

/-- The seek of the partition has taken effect. -/
def ReplayState.soughtFor (plan : ReplayPlan) (s : ReplayState) (tp : String × Nat) : Bool :=
  (plan.ranges.take s.sought).any fun r => r.tp = tp

/-- Whether the loop goes on. -/
def nextStatus (params : ReplayParams) (remaining : List (String × Nat)) (yielded : Nat) :
    ReplayStatus :=
  if remaining = [] then .ended .finished
  else if params.limit.any (· ≤ yielded) then .ended .limit
  else .looping

theorem nextStatus_cases (params : ReplayParams) (remaining : List (String × Nat))
    (yielded : Nat) :
    remaining = [] ∧ nextStatus params remaining yielded = .ended .finished ∨
      remaining ≠ [] ∧ (nextStatus params remaining yielded = .ended .limit ∨
        nextStatus params remaining yielded = .looping) := by
  unfold nextStatus
  split
  · exact Or.inl ⟨‹_›, rfl⟩
  · refine Or.inr ⟨‹_›, ?_⟩
    split
    · exact Or.inl rfl
    · exact Or.inr rfl

section
variable (N : NormalizerDeps) (config : KafkaTriggerConfig) (params : ReplayParams)

/-- The loop's body for the message at the head of the queue. -/
def takeItem (s : ReplayState) (item : QueueItem) (rest : List QueueItem) (uuid : String)
    (now : Int) : ReplayState :=
  let remaining := countDown (partitionKey item.msg.topic item.msg.partition) s.remainingByKey
  let s := { s with buffer := rest, remainingByKey := remaining }
  match examine N config params item.msg s.yielded uuid now with
  | .error err => { s with status := .ended (.threw err) }
  | .ok outcome =>
    let yielded := if outcome.isYield then s.yielded + 1 else s.yielded
    { s with
      pulled := s.pulled ++ [(item.msg, outcome)]
      yielded := yielded
      status := nextStatus params remaining yielded }

/-- A delivery that comes while the generator waits is taken as soon as it is in the queue. -/
def replayStep (log : KafkaLog) (plan : ReplayPlan) (s : ReplayState) :
    ReplayLabel → Option ReplayState
  | .deliver tp offset =>
    match s.status, log.read tp offset with
    | .ended _, _ => none
    | _, none => none
    | _, some m =>
      if IsNext (log.read tp) (s.position tp) offset then
        some { s with
          position := Function.update s.position tp (offset + 1)
          buffer := s.buffer ++ [⟨m, s.soughtFor plan tp⟩] }
      else none
  | .seek =>
    match s.status, plan.ranges[s.sought]? with
    | .seeking, some r =>
      let s := { s with
        position := Function.update s.position r.tp r.start
        sought := s.sought + 1 }
      if s.sought = plan.ranges.length then
        some { s with
          remainingByKey := plan.ranges.map fun r =>
            (partitionKey r.topic r.partition, r.length)
          status := .looping }
      else some s
    | _, _ => none
  | .pull uuid now =>
    match s.status, s.buffer with
    | .looping, item :: rest => some (takeItem N config params s item rest uuid now)
    | _, _ => none

end

/-! ### What a replay is for -/

/-- The messages of a log from `start` on, `n` offsets far. -/
def slice (log : Nat → Option KafkaIncomingMessage) (start n : Nat) : List KafkaIncomingMessage :=
  (List.range n).filterMap fun i => log (start + i)

/-- The messages of the range. -/
def KafkaLog.messages (log : KafkaLog) (r : PartitionRange) : List KafkaIncomingMessage :=
  slice (log.read r.tp) r.start r.length

/-- The messages of the range's partition that the generator took, in order. -/
def ReplayState.taken (s : ReplayState) (r : PartitionRange) : List KafkaIncomingMessage :=
  (s.pulled.map Prod.fst).filter fun m => r.Of m

/-- The replay takes the messages of the ranges, each once and in the order of the offsets, and
yields those that pass the time filter, the normalizer and the filter; it ends when it has taken
all of them, and waits only for a message of a range. -/
structure Exact (N : NormalizerDeps) (config : KafkaTriggerConfig) (params : ReplayParams)
    (log : KafkaLog) (plan : ReplayPlan) (s : ReplayState) : Prop where
  inRange : ∀ p ∈ s.pulled, ∃ r ∈ plan.ranges, r.Of p.1 ∧ r.start ≤ p.1.offset ∧ p.1.offset < r.end
  inOrder : ∀ r ∈ plan.ranges, s.taken r <+: log.messages r
  complete : s.status = .ended .finished → ∀ r ∈ plan.ranges, s.taken r = log.messages r
  examined : ∀ p ∈ s.pulled, ∃ n uuid now, examine N config params p.1 n uuid now = .ok p.2
  noThrow : ∀ err, s.status ≠ .ended (.threw err)
  ends : s.status = .looping → s.buffer = [] → ∃ r ∈ plan.ranges, ∃ o, s.position r.tp ≤ o ∧
    o < r.end ∧ (log.read r.tp o).isSome

/-- Every offset of the ranges has a message. -/
def Gapless (log : KafkaLog) (plan : ReplayPlan) : Prop :=
  ∀ r ∈ plan.ranges, ∀ o, r.start ≤ o → o < r.end → (log.read r.tp o).isSome

/-- What the generator takes was delivered after its partition was sought, is not from behind its
range, and can be normalized. -/
def Clean (N : NormalizerDeps) (config : KafkaTriggerConfig) (params : ReplayParams)
    (plan : ReplayPlan) (s : ReplayState) : ReplayLabel → Prop
  | .pull uuid now =>
    ∀ item ∈ s.buffer.head?, item.fresh = true ∧
      (∃ r ∈ plan.ranges, r.Of item.msg ∧ item.msg.offset < r.end) ∧
      ∃ outcome, examine N config params item.msg s.yielded uuid now = .ok outcome
  | _ => True

/-! ### Slices of a log -/

section
variable {read : Nat → Option KafkaIncomingMessage}

theorem slice_add (start n k : Nat) :
    slice read start (n + k) = slice read start n ++ slice read (start + n) k := by
  unfold slice
  rw [List.range_add, List.filterMap_append, List.filterMap_map]
  congr 2
  funext i
  simp [Nat.add_assoc]

/-- The next message comes after those before it. -/
theorem slice_next {start n o : Nat} {m : KafkaIncomingMessage} (hm : read o = some m)
    (hnext : IsNext read (start + n) o) :
    slice read start (o + 1 - start) = slice read start n ++ [m] := by
  obtain ⟨hle, hgap⟩ := hnext
  obtain ⟨k, rfl⟩ := Nat.exists_eq_add_of_le hle
  have hlen : start + n + k + 1 - start = n + (k + 1) := by omega
  have hempty : slice read (start + n) k = [] := by
    refine List.filterMap_eq_nil_iff.mpr fun i hi => ?_
    have hi := List.mem_range.mp hi
    exact hgap _ (by omega) (by omega)
  rw [hlen, slice_add, slice_add, hempty]
  simp [slice, hm]

theorem length_slice {start n : Nat} (h : ∀ o, start ≤ o → o < start + n → (read o).isSome) :
    (slice read start n).length = n := by
  induction n with
  | zero => rfl
  | succ n ih =>
    obtain ⟨m, hm⟩ := Option.isSome_iff_exists.mp (h (start + n) (by omega) (by omega))
    have ih := ih fun o h₁ h₂ => h o h₁ (by omega)
    rw [slice_add, List.length_append, ih]
    simp [slice, hm]

theorem slice_mono {start n k : Nat} (h : n ≤ k) :
    slice read start n <+: slice read start k := by
  obtain ⟨d, rfl⟩ := Nat.exists_eq_add_of_le h
  rw [slice_add]
  exact List.prefix_append _ _

end

theorem KafkaLog.offset_of_slice {log : KafkaLog} {tp : String × Nat} {start n : Nat}
    {m : KafkaIncomingMessage} (h : m ∈ slice (log.read tp) start n) :
    start ≤ m.offset ∧ m.offset < start + n := by
  obtain ⟨i, hi, hm⟩ := List.mem_filterMap.mp h
  have hi := List.mem_range.mp hi
  have := (log.tagged _ _ _ hm).2
  omega

/-- A prefix of a slice that has nothing from behind a point is one of the slice up to there. -/
theorem KafkaLog.slice_up_to {log : KafkaLog} {tp : String × Nat} {start n k : Nat}
    {ms : List KafkaIncomingMessage} (h : ms <+: slice (log.read tp) start n)
    (hbefore : ∀ m ∈ ms, m.offset < start + k) : ms <+: slice (log.read tp) start k := by
  rcases Nat.le_total n k with hnk | hkn
  · exact h.trans (slice_mono hnk)
  · obtain ⟨d, rfl⟩ := Nat.exists_eq_add_of_le hkn
    have hk : slice (log.read tp) start k <+: slice (log.read tp) start (k + d) :=
      slice_mono hkn
    rcases List.prefix_or_prefix_of_prefix h hk with hpre | ⟨tail, rfl⟩
    · exact hpre
    · -- what comes behind the point is none of `ms`
      rw [slice_add, List.prefix_append_right_inj] at h
      cases tail with
      | nil => simp
      | cons m tail =>
        have hm := hbefore m (by simp)
        have := (log.offset_of_slice (h.subset (List.mem_cons_self ..))).1
        omega

/-! ### What a run keeps -/

/-- The key of a partition is that of no other. -/
theorem partitionKey_inj {topic topic' : String} {partition partition' : Nat} :
    partitionKey topic partition = partitionKey topic' partition' ↔
      (topic, partition) = (topic', partition') := by
  constructor
  · intro h
    obtain ⟨rfl, hp⟩ := split_at_last (d := ':') (notMem_toString (by decide) partition)
      (notMem_toString (by decide) partition') h
    rw [toString_nat_injective hp]
  · intro h
    cases h
    rfl

namespace ReplayState

/-- The messages of the range's partition in the queue that came after the seek. -/
def queued (s : ReplayState) (r : PartitionRange) : List KafkaIncomingMessage :=
  (s.buffer.filter fun item => item.fresh && decide (r.Of item.msg)).map (·.msg)

/-- What remains to be taken, by the number of messages that were. -/
def counts (plan : ReplayPlan) (s : ReplayState) : List (String × Nat) :=
  plan.ranges.filterMap fun r =>
    if (s.taken r).length < r.length then
      some (partitionKey r.topic r.partition, r.length - (s.taken r).length)
    else none

end ReplayState

structure Inv (N : NormalizerDeps) (config : KafkaTriggerConfig) (params : ReplayParams)
    (log : KafkaLog) (plan : ReplayPlan) (s : ReplayState) : Prop where
  read : ∀ r ∈ plan.ranges.take s.sought, ∃ n, s.position r.tp = r.start + n ∧
    s.taken r ++ s.queued r = slice (log.read r.tp) r.start n
  unread : ∀ r ∈ plan.ranges.drop s.sought, s.taken r = [] ∧ s.queued r = []
  seeking : s.status = .seeking → s.pulled = []
  looping : s.status = .looping → s.sought = plan.ranges.length ∧
    s.remainingByKey = s.counts plan ∧ s.remainingByKey ≠ []
  finished : s.status = .ended .finished → ∀ r ∈ plan.ranges, r.length ≤ (s.taken r).length
  own : ∀ p ∈ s.pulled, ∃ r ∈ plan.ranges, r.Of p.1 ∧ r.start ≤ p.1.offset ∧ p.1.offset < r.end
  examined : ∀ p ∈ s.pulled, ∃ n uuid now, examine N config params p.1 n uuid now = .ok p.2
  noThrow : ∀ err, s.status ≠ .ended (.threw err)

section
variable {N : NormalizerDeps} {config : KafkaTriggerConfig} {params : ReplayParams}
  {log : KafkaLog} {plan : ReplayPlan} {s t : ReplayState}

theorem ReplayPlan.eq_of_tp {r r' : PartitionRange} (hr : r ∈ plan.ranges)
    (hr' : r' ∈ plan.ranges) (h : r.tp = r'.tp) : r = r' :=
  List.inj_on_of_nodup_map plan.distinct hr hr' h

/-- What is taken of a partition is from before the end of its range. -/
theorem Inv.taken_lt (h : Inv N config params log plan s) {r : PartitionRange}
    (hr : r ∈ plan.ranges) {m : KafkaIncomingMessage} (hm : m ∈ s.taken r) : m.offset < r.end := by
  obtain ⟨hmem, hof⟩ := List.mem_filter.mp hm
  obtain ⟨p, hp, rfl⟩ := List.mem_map.mp hmem
  obtain ⟨r', hr', hof', -, hlt⟩ := h.own p hp
  have hof : r.Of p.1 := by simpa using hof
  rwa [← ReplayPlan.eq_of_tp hr' hr (hof'.symm.trans hof)]

theorem Inv.inOrder (h : Inv N config params log plan s) {r : PartitionRange}
    (hr : r ∈ plan.ranges) : s.taken r <+: log.messages r := by
  have hlt := plan.start_lt_end r hr
  have hend : r.start + r.length = r.end := by unfold PartitionRange.length; omega
  rcases List.mem_append.mp (by rwa [List.take_append_drop s.sought plan.ranges] :
      r ∈ plan.ranges.take s.sought ++ plan.ranges.drop s.sought) with hread | hunread
  · obtain ⟨n, -, hn⟩ := h.read r hread
    refine KafkaLog.slice_up_to ⟨s.queued r, hn⟩ fun m hm => ?_
    rw [hend]
    exact h.taken_lt hr hm
  · rw [(h.unread r hunread).1]
    exact List.nil_prefix

theorem Inv.exact (h : Inv N config params log plan s) (hgap : Gapless log plan) :
    Exact N config params log plan s := by
  have hend : ∀ r ∈ plan.ranges, r.start + r.length = r.end := by
    intro r hr
    have hlt := plan.start_lt_end r hr
    unfold PartitionRange.length
    omega
  have hlen : ∀ r ∈ plan.ranges, (log.messages r).length = r.length := by
    intro r hr
    exact length_slice fun o h₁ h₂ => hgap r hr o h₁ (by rw [← hend r hr]; exact h₂)
  refine ⟨h.own, fun r hr => h.inOrder hr, fun hfin r hr => ?_, h.examined, h.noThrow,
    fun hloop hbuf => ?_⟩
  · exact (h.inOrder hr).eq_of_length_le (by rw [hlen r hr]; exact h.finished hfin r hr)
  · obtain ⟨hsought, hcounts, hne⟩ := h.looping hloop
    obtain ⟨entry, hentry⟩ := List.exists_mem_of_ne_nil _ hne
    rw [hcounts] at hentry
    obtain ⟨r, hr, hsome⟩ := List.mem_filterMap.mp hentry
    have hlt : (s.taken r).length < r.length := by
      by_contra hge
      rw [if_neg hge] at hsome
      cases hsome
    obtain ⟨n, hpos, hn⟩ := h.read r (by rw [hsought, List.take_length]; exact hr)
    have hqueued : s.queued r = [] := by simp [ReplayState.queued, hbuf]
    rw [hqueued, List.append_nil] at hn
    -- had the consumer come to the end, the whole range would be taken
    have hnlt : n < r.length := by
      by_contra hge
      have hpre : log.messages r <+: slice (log.read r.tp) r.start n :=
        slice_mono (Nat.le_of_not_lt hge)
      have hle := hpre.length_le
      rw [hlen r hr, ← hn] at hle
      omega
    have hpos' : s.position r.tp < r.end := by rw [hpos, ← hend r hr]; omega
    exact ⟨r, hr, s.position r.tp, le_refl _, hpos', hgap r hr _ (by rw [hpos]; omega) hpos'⟩

theorem replay_inv : Inv N config params log plan (replay params plan) := by
  refine ⟨fun r hr => ?_, fun r _ => ⟨rfl, rfl⟩, fun _ => rfl, fun h => ?_, fun h r hr => ?_,
    fun p hp => ?_, fun p hp => ?_, fun err h => ?_⟩
  · simp [replay] at hr
  · unfold replay at h
    dsimp only at h
    split at h
    · cases h
    · split at h <;> cases h
  · unfold replay at h
    dsimp only at h
    split at h
    · cases h
    · split at h
      · rename_i hnil
        rw [hnil] at hr
        cases hr
      · cases h
  · cases hp
  · cases hp
  · unfold replay at h
    dsimp only at h
    split at h
    · cases h
    · split at h <;> cases h

/-- What a delivery adds to the queue. -/
theorem queued_append (item : QueueItem) (r : PartitionRange) :
    ReplayState.queued { s with buffer := s.buffer ++ [item] } r =
      s.queued r ++ if item.fresh = true ∧ r.Of item.msg then [item.msg] else [] := by
  unfold ReplayState.queued
  rw [List.filter_append, List.map_append]
  congr 1
  by_cases h : item.fresh = true ∧ r.Of item.msg
  · simp [h]
  · rw [if_neg h]
    simpa using h

theorem soughtFor_of_mem {r : PartitionRange} (h : r ∈ plan.ranges.take s.sought) :
    s.soughtFor plan r.tp = true :=
  List.any_eq_true.mpr ⟨r, h, by simp⟩

theorem soughtFor_eq_true {tp : String × Nat} (h : s.soughtFor plan tp = true) :
    ∃ r ∈ plan.ranges.take s.sought, r.tp = tp := by
  obtain ⟨r, hr, htp⟩ := List.any_eq_true.mp h
  exact ⟨r, hr, by simpa using htp⟩

/-- The ranges that were sought are not among those that were not. -/
theorem ReplayPlan.not_mem_drop {n : Nat} {r r' : PartitionRange} (h : r ∈ plan.ranges.take n)
    (h' : r' ∈ plan.ranges.drop n) : r.tp ≠ r'.tp := by
  intro e
  have hnodup := plan.distinct
  rw [← List.take_append_drop n plan.ranges, List.map_append] at hnodup
  exact (List.nodup_append.mp hnodup).2.2 r.tp (List.mem_map_of_mem h) r'.tp
    (List.mem_map_of_mem h') e

theorem Inv.deliver (h : Inv N config params log plan s) {tp : String × Nat} {offset : Nat}
    {m : KafkaIncomingMessage} (hm : log.read tp offset = some m)
    (hnext : IsNext (log.read tp) (s.position tp) offset) :
    Inv N config params log plan { s with
      position := Function.update s.position tp (offset + 1)
      buffer := s.buffer ++ [⟨m, s.soughtFor plan tp⟩] } := by
  have htag := (log.tagged _ _ _ hm).1
  have hof : ∀ r : PartitionRange, r.Of m ↔ r.tp = tp := by
    intro r
    unfold PartitionRange.Of
    rw [htag, eq_comm]
  refine ⟨fun r hr => ?_, fun r hr => ?_, h.seeking, fun hl => ?_, h.finished, h.own,
    h.examined, h.noThrow⟩
  · obtain ⟨n, hpos, hn⟩ := h.read r hr
    refine if htp : r.tp = tp then ?_ else ⟨n, ?_, ?_⟩
    · subst htp
      refine ⟨offset + 1 - r.start, ?_, ?_⟩
      · have hle := hnext.1
        simp only [Function.update_self]
        omega
      · rw [hpos] at hnext
        rw [slice_next hm hnext, ← hn, List.append_assoc]
        congr 1
        have hq := queued_append (s := s) ⟨m, s.soughtFor plan r.tp⟩ r
        rw [if_pos ⟨soughtFor_of_mem hr, (hof r).mpr rfl⟩] at hq
        exact hq
    · simp only [Function.update_of_ne htp, hpos]
    · rw [← hn]
      congr 1
      have hq := queued_append (s := s) ⟨m, s.soughtFor plan tp⟩ r
      rw [if_neg fun hc => htp ((hof r).mp hc.2), List.append_nil] at hq
      exact hq
  · obtain ⟨htaken, hqueued⟩ := h.unread r hr
    refine ⟨htaken, ?_⟩
    have hq := queued_append (s := s) ⟨m, s.soughtFor plan tp⟩ r
    rw [if_neg, List.append_nil, hqueued] at hq
    · exact hq
    · rintro ⟨hfresh, hofr⟩
      obtain ⟨r', hr', htp'⟩ := soughtFor_eq_true hfresh
      exact ReplayPlan.not_mem_drop hr' hr (htp'.trans ((hof r).mp hofr).symm)
  · exact h.looping hl

/-- A seek starts the reading of its range. -/
theorem Inv.seek (h : Inv N config params log plan s) (hseeking : s.status = .seeking)
    {r₀ : PartitionRange} (hr₀ : plan.ranges[s.sought]? = some r₀) :
    Inv N config params log plan { s with
      position := Function.update s.position r₀.tp r₀.start
      sought := s.sought + 1 } := by
  have htake : plan.ranges.take (s.sought + 1) = plan.ranges.take s.sought ++ [r₀] := by
    rw [List.take_add_one, hr₀]
    rfl
  have hdrop : plan.ranges.drop s.sought = r₀ :: plan.ranges.drop (s.sought + 1) := by
    obtain ⟨hlt, rfl⟩ := List.getElem?_eq_some_iff.mp hr₀
    exact List.drop_eq_getElem_cons hlt
  refine ⟨fun r hr => ?_, fun r hr => ?_, h.seeking, fun hl => ?_, h.finished, h.own,
    h.examined, h.noThrow⟩
  · dsimp only at hr
    rw [htake, List.mem_append, List.mem_singleton] at hr
    rcases hr with hr | rfl
    · obtain ⟨n, hpos, hn⟩ := h.read r hr
      have htp : r.tp ≠ r₀.tp :=
        ReplayPlan.not_mem_drop hr (by rw [hdrop]; exact List.mem_cons_self)
      exact ⟨n, by simp only [Function.update_of_ne htp, hpos], hn⟩
    · obtain ⟨htaken, hqueued⟩ := h.unread r (by rw [hdrop]; exact List.mem_cons_self)
      refine ⟨0, by simp only [Function.update_self, Nat.add_zero], ?_⟩
      have hnil : s.taken r ++ s.queued r = slice (log.read r.tp) r.start 0 := by
        rw [htaken, hqueued]
        rfl
      exact hnil
  · exact h.unread r (by rw [hdrop]; exact List.mem_cons_of_mem _ hr)
  · rw [hseeking] at hl
    cases hl

/-- The last seek starts the loop. -/
theorem Inv.begin (h : Inv N config params log plan s) (hseeking : s.status = .seeking)
    (hall : s.sought = plan.ranges.length) (hne : plan.ranges ≠ []) :
    Inv N config params log plan { s with
      remainingByKey := plan.ranges.map fun r => (partitionKey r.topic r.partition, r.length)
      status := .looping } := by
  have hpulled := h.seeking hseeking
  refine ⟨h.read, h.unread, fun hc => (by cases hc), fun _ => ⟨hall, ?_, ?_⟩,
    fun hc => (by cases hc), h.own, h.examined, fun err hc => (by cases hc)⟩
  · -- nothing was taken yet
    unfold ReplayState.counts
    rw [← List.filterMap_eq_map]
    refine List.filterMap_congr fun r hr => ?_
    have hlt := plan.start_lt_end r hr
    have hpos : 0 < r.length := by unfold PartitionRange.length; omega
    simp [ReplayState.taken, hpulled, hpos]
  · simpa using hne

/-- The head of the queue is what is taken. -/
theorem queued_cons {item : QueueItem} {rest : List QueueItem} (hbuf : s.buffer = item :: rest)
    (hfresh : item.fresh = true) (r : PartitionRange) :
    s.queued r = (if r.Of item.msg then [item.msg] else []) ++
      ReplayState.queued { s with buffer := rest } r := by
  unfold ReplayState.queued
  rw [hbuf, List.filter_cons]
  by_cases h : r.Of item.msg <;> simp [h, hfresh]

theorem length_le_of_counts (h : s.counts plan = []) {r : PartitionRange} (hr : r ∈ plan.ranges) :
    r.length ≤ (s.taken r).length := by
  have hnone := List.filterMap_eq_nil_iff.mp h r hr
  by_contra hlt
  rw [if_pos (Nat.lt_of_not_le hlt)] at hnone
  cases hnone

/-- One message less remains of its partition. -/
theorem countDown_counts {item : QueueItem} {pulled : List (KafkaIncomingMessage × PullOutcome)}
    (htaken : ∀ r : PartitionRange, ReplayState.taken { s with pulled := pulled } r =
      s.taken r ++ if r.Of item.msg then [item.msg] else []) :
    countDown (partitionKey item.msg.topic item.msg.partition) (s.counts plan) =
      ReplayState.counts plan { s with pulled := pulled } := by
  unfold countDown ReplayState.counts
  rw [List.filterMap_filterMap]
  refine List.filterMap_congr fun r _ => ?_
  rw [htaken r]
  have hkey : partitionKey r.topic r.partition =
      partitionKey item.msg.topic item.msg.partition ↔ r.Of item.msg := by
    rw [partitionKey_inj, eq_comm]
    rfl
  by_cases hof : r.Of item.msg
  · rw [if_pos hof, List.length_append, List.length_singleton]
    by_cases hlt : (s.taken r).length < r.length
    · simp only [if_pos hlt, Option.bind_some, if_pos (hkey.mpr hof)]
      by_cases hlast : r.length - (s.taken r).length ≤ 1
      · rw [if_pos hlast, if_neg (by omega)]
      · rw [if_neg hlast, if_pos (by omega), Nat.sub_sub]
    · rw [if_neg hlt, if_neg (by omega)]
      rfl
  · rw [if_neg hof, List.append_nil]
    by_cases hlt : (s.taken r).length < r.length
    · simp only [if_pos hlt, Option.bind_some, if_neg fun e => hof (hkey.mp e)]
    · rw [if_neg hlt]
      rfl

/-- **What the loop's body keeps** where it takes a message of a range. -/
theorem Inv.takeItem (h : Inv N config params log plan s) (hloop : s.status = .looping)
    {item : QueueItem} {rest : List QueueItem} (hbuf : s.buffer = item :: rest) {uuid : String}
    {now : Int} (hfresh : item.fresh = true)
    (hrange : ∃ r ∈ plan.ranges, r.Of item.msg ∧ item.msg.offset < r.end) {outcome : PullOutcome}
    (hexamine : examine N config params item.msg s.yielded uuid now = .ok outcome) :
    Inv N config params log plan (KafkaReplay.takeItem N config params s item rest uuid now) := by
  obtain ⟨hsought, hcounts, -⟩ := h.looping hloop
  have hread : ∀ r ∈ plan.ranges, ∃ n, s.position r.tp = r.start + n ∧
      s.taken r ++ s.queued r = slice (log.read r.tp) r.start n := by
    intro r hr
    exact h.read r (by rw [hsought, List.take_length]; exact hr)
  have htaken : ∀ r : PartitionRange,
      ReplayState.taken { s with pulled := s.pulled ++ [(item.msg, outcome)] } r =
        s.taken r ++ if r.Of item.msg then [item.msg] else [] := by
    intro r
    unfold ReplayState.taken
    rw [List.map_append, List.filter_append]
    congr 1
    by_cases hof : r.Of item.msg <;> simp [hof]
  have hremaining : countDown (partitionKey item.msg.topic item.msg.partition) s.remainingByKey =
      ReplayState.counts plan { s with pulled := s.pulled ++ [(item.msg, outcome)] } := by
    rw [hcounts]
    exact countDown_counts htaken
  unfold KafkaReplay.takeItem
  simp only [hexamine]
  generalize countDown (partitionKey item.msg.topic item.msg.partition) s.remainingByKey =
    remaining at hremaining
  generalize (if outcome.isYield = true then s.yielded + 1 else s.yielded) = yielded
  have hread' : ∀ r ∈ plan.ranges.take s.sought, ∃ n, s.position r.tp = r.start + n ∧
      ReplayState.taken { s with pulled := s.pulled ++ [(item.msg, outcome)] } r ++
        ReplayState.queued { s with buffer := rest } r = slice (log.read r.tp) r.start n := by
    intro r hr
    obtain ⟨n, hpos, hn⟩ := hread r (List.mem_of_mem_take hr)
    rw [queued_cons hbuf hfresh r, ← List.append_assoc, ← htaken r] at hn
    exact ⟨n, hpos, hn⟩
  have hown : ∀ p ∈ s.pulled ++ [(item.msg, outcome)], ∃ r ∈ plan.ranges, r.Of p.1 ∧
      r.start ≤ p.1.offset ∧ p.1.offset < r.end := by
    intro p hp
    rcases List.mem_append.mp hp with hp | hp
    · exact h.own p hp
    · obtain rfl := List.mem_singleton.mp hp
      obtain ⟨r, hr, hof, hlt⟩ := hrange
      obtain ⟨n, -, hn⟩ := hread r hr
      have hmem : item.msg ∈ s.taken r ++ s.queued r := by
        rw [queued_cons hbuf hfresh r, if_pos hof]
        simp
      rw [hn] at hmem
      exact ⟨r, hr, hof, (log.offset_of_slice hmem).1, hlt⟩
  have hexamined : ∀ p ∈ s.pulled ++ [(item.msg, outcome)], ∃ n uuid now,
      examine N config params p.1 n uuid now = .ok p.2 := by
    intro p hp
    rcases List.mem_append.mp hp with hp | hp
    · exact h.examined p hp
    · obtain rfl := List.mem_singleton.mp hp
      exact ⟨s.yielded, uuid, now, hexamine⟩
  have hnone : ∀ r ∈ plan.ranges.drop s.sought, False := by
    intro r hr
    rw [hsought, List.drop_length] at hr
    cases hr
  rcases nextStatus_cases params remaining yielded with ⟨hnil, hst⟩ | ⟨hne, hst | hst⟩
  · refine ⟨hread', fun r hr => (hnone r hr).elim, ?_, ?_, fun _ r hr => ?_, hown,
      hexamined, ?_⟩
    · rw [hst]
      nofun
    · rw [hst]
      nofun
    · exact length_le_of_counts (hremaining.symm.trans hnil) hr
    · rw [hst]
      nofun
  · refine ⟨hread', fun r hr => (hnone r hr).elim, ?_, ?_, ?_, hown, hexamined, ?_⟩ <;>
      rw [hst] <;> nofun
  · refine ⟨hread', fun r hr => (hnone r hr).elim, ?_, fun _ => ⟨hsought, hremaining, hne⟩, ?_,
      hown, hexamined, ?_⟩ <;> rw [hst] <;> nofun

/-- **The step lemma.** -/
theorem Inv.step (h : Inv N config params log plan s) {a : ReplayLabel}
    (hclean : Clean N config params plan s a)
    (hstep : replayStep N config params log plan s a = some t) :
    Inv N config params log plan t := by
  cases a with
  | deliver tp offset =>
    simp only [replayStep] at hstep
    split at hstep
    · cases hstep
    · cases hstep
    · rename_i m hm _
      split at hstep
      · rename_i hnext
        cases hstep
        exact h.deliver hm hnext
      · cases hstep
  | seek =>
    simp only [replayStep] at hstep
    split at hstep
    · rename_i r hseeking hr
      have h' := h.seek hseeking hr
      split at hstep
      · rename_i hall
        cases hstep
        refine h'.begin hseeking hall fun hnil => ?_
        rw [hnil] at hr
        cases hr
      · cases hstep
        exact h'
    · cases hstep
  | pull uuid now =>
    simp only [replayStep] at hstep
    split at hstep
    · rename_i item rest hloop hbuf
      cases hstep
      obtain ⟨hfresh, hrange, outcome, hexamine⟩ := hclean item (by rw [hbuf]; rfl)
      exact h.takeItem hloop hbuf hfresh hrange hexamine
    · cases hstep

/-- **Replay.**  Where every offset of the ranges has a message, and each message that is taken from
the queue was delivered after its partition was sought, is from before the end of its range and can
be normalized, the replay takes exactly the messages of the ranges, each once and in order, and
ends once it was given all of them. -/
theorem replay_exact (hgap : Gapless log plan) {as : List ReplayLabel}
    (r : Run (replayStep N config params log plan) (Clean N config params plan)
      (replay params plan) as t) : Exact N config params log plan t :=
  (r.invariant (P := Inv N config params log plan) replay_inv
    fun _ _ _ h hclean hstep => h.step hclean hstep).exact hgap

end

/-! ### Two logs of one partition -/

/-- A log with messages at these offsets. -/
def logOf (offsets : List Nat) : KafkaLog where
  read tp o :=
    if tp = ("orders", 0) ∧ o ∈ offsets then
      some { topic := "orders", partition := 0, offset := o, value := .text "" }
    else none
  tagged := by
    intro tp o m h
    split at h
    · rename_i hc
      cases h
      exact ⟨hc.1.symm, rfl⟩
    · cases h

/-- The range of `n + 1` offsets from `start` on. -/
def planOf (start n : Nat) : ReplayPlan where
  ranges := [⟨"orders", 0, start, start + n + 1⟩]
  start_lt_end := by
    intro r hr
    rw [List.mem_singleton.mp hr]
    exact Nat.lt_succ_of_le (Nat.le_add_right start n)
  distinct := List.nodup_singleton _

def plainNormalizer : NormalizerDeps where
  textDecoder _ := ""
  decodePayload _ _ := .ok .null
  evaluateFilter _ _ := .ok true
  resolveSessionKey _ _ := none
  asKind _ := .webhookReceived

def ordersTrigger : KafkaTriggerConfig where
  id := "orders-in"
  topics := ["orders"]
  routing := { kindSelector := .const .webhookReceived, targetSelector := .broadcast }
  id_ne := by decide

/-- A range of one message in a log of two: the message is sought, delivered and taken. -/
theorem replay_exact_one : ∃ t,
    Exact plainNormalizer ordersTrigger {} (logOf [0, 1]) (planOf 1 0) t ∧ t.pulled.length = 1 := by
  have hgap : Gapless (logOf [0, 1]) (planOf 1 0) := by
    intro r hr o h₁ h₂
    obtain rfl := List.mem_singleton.mp hr
    obtain rfl : o = 1 := Nat.le_antisymm (Nat.le_of_lt_succ h₂) h₁
    rfl
  have hrun : ∃ t, Run (replayStep plainNormalizer ordersTrigger {} (logOf [0, 1]) (planOf 1 0))
      (Clean plainNormalizer ordersTrigger {} (planOf 1 0)) (replay {} (planOf 1 0))
      [.seek, .deliver ("orders", 0) 1, .pull "a" 0] t ∧ t.pulled.length = 1 := by
    refine ⟨_, .cons trivial rfl (.cons trivial rfl (.cons ?_ rfl .nil)), rfl⟩
    rintro item ⟨⟩
    exact ⟨rfl, ⟨_, List.mem_singleton_self _, rfl, Nat.lt_succ_self 1⟩, _, rfl⟩
  obtain ⟨t, hrun, hlen⟩ := hrun
  exact ⟨t, replay_exact hgap hrun, hlen⟩

/-- The message at offset 1 was compacted away: the replay takes the two messages there are, and
waits for a third. -/
theorem waits_at_gap : ∃ t,
    Run (replayStep plainNormalizer ordersTrigger {} (logOf [0, 2]) (planOf 0 2)) Any
      (replay {} (planOf 0 2))
      [.seek, .deliver ("orders", 0) 0, .deliver ("orders", 0) 2, .pull "a" 0, .pull "b" 0] t ∧
    t.status = .looping ∧ t.buffer = [] ∧
    ¬ Exact plainNormalizer ordersTrigger {} (logOf [0, 2]) (planOf 0 2) t := by
  refine ⟨_, .any_of_exec rfl, rfl, rfl, fun h => ?_⟩
  obtain ⟨r, hr, o, hpos, hlt, -⟩ := h.ends rfl rfl
  obtain rfl := List.mem_singleton.mp hr
  exact absurd hlt (Nat.not_lt.mpr hpos)

end Declaragent.Sources.KafkaReplay
