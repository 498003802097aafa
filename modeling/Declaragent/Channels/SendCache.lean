import Declaragent.Channels.SendIdempotency
import Declaragent.Library.Transition

/-!
# Channels — what the idempotency cache evicts

A put sweeps the expired entries from the old end of the map, up to the first that has not expired,
and then drops the oldest entry where there are too many.  A look-up moves its entry to the young
end but leaves its TTL, so an expired entry may stand behind one that has not expired.

The log has, newest first, the readings that entries were compared with, the puts, and the keys that
the capacity evicted.

* `keeps_iff`: in which runs a put evicts an entry that has not expired only where none has, and
  that an entry is found until its TTL is over or the capacity evicts it.
* `evicted_before_expired`: a put evicts a fresh entry and leaves an expired one.
-/

namespace Declaragent.Channels
open Transition

namespace SendIdempotencyCache

variable (opts : SendIdempotencyCacheOptions) (cache : SendIdempotencyCache)

/-- The entries after the sweep, with the new one. -/
def withEntry (key : String) (value : SentMessage) (swept stamped : Int) : SendIdempotencyCache :=
  (evictExpired cache swept).insert key ⟨value, stamped + opts.ttlMs⟩

/-- `put`, where the sweep reads the clock at `swept` and the new entry at `stamped`. -/
def putAt (key : String) (value : SentMessage) (swept stamped : Int) : SendIdempotencyCache :=
  evictLRU opts (withEntry opts cache key value swept stamped)

/-- The keys that the capacity evicts. -/
def crowdedOut (key : String) (value : SentMessage) (swept stamped : Int) : List String :=
  ((withEntry opts cache key value swept stamped).entries.drop opts.maxEntries).map Sigma.fst

/-- A put evicts an entry that has not expired only where none has, and the cache is full. -/
def Justified (key : String) (value : SentMessage) (swept stamped : Int) : Prop :=
  ∀ key' entry, key' ≠ key → cache.lookup key' = some entry → swept < entry.expiresAt →
    (cache.putAt opts key value swept stamped).lookup key' = none →
      (∀ e ∈ cache.entries, swept < e.2.expiresAt) ∧ opts.maxEntries ≤ cache.entries.length

/-- A put of a new key in a full cache finds the oldest entry expired, if any is. -/
def StaleFirst (key : String) (swept : Int) : Prop :=
  opts.maxEntries ≤ cache.entries.length → key ∉ cache →
    (∃ e ∈ cache.entries, e.2.expiresAt ≤ swept) →
      ∀ e ∈ cache.entries.getLast?, e.2.expiresAt ≤ swept

variable {opts cache} {key key' : String} {value : SentMessage} {swept stamped : Int}

/-- The sweep drops nothing where the oldest entry is fresh. -/
theorem evictExpired_of_fresh {e : (_ : String) × Entry} (hlast : cache.entries.getLast? = some e)
    (hfresh : swept < e.2.expiresAt) : evictExpired cache swept = cache := by
  refine AList.ext (List.rdropWhile_eq_self_iff.mpr fun hne hexpired => ?_)
  have he : cache.entries.getLast hne = e :=
    Option.some.inj ((List.getLast?_eq_getLast_of_ne_nil hne).symm.trans hlast)
  rw [he] at hexpired
  exact absurd hfresh (Int.not_lt.mpr (of_decide_eq_true hexpired))

theorem entries_putAt : (cache.putAt opts key value swept stamped).entries =
    (withEntry opts cache key value swept stamped).entries.take opts.maxEntries := rfl

/-- A put of a new key in a full cache whose oldest entry is fresh evicts that. -/
theorem lookup_putAt_oldest (hfull : cache.entries.length = opts.maxEntries) (hnew : key ∉ cache)
    {e : (_ : String) × Entry} (hlast : cache.entries.getLast? = some e)
    (hfresh : swept < e.2.expiresAt) :
    (cache.putAt opts key value swept stamped).lookup e.1 = none := by
  obtain ⟨younger, hentries⟩ := List.getLast?_eq_some_iff.mp hlast
  have hput : (cache.putAt opts key value swept stamped).entries =
      ⟨key, value, stamped + opts.ttlMs⟩ :: younger := by
    rw [entries_putAt, withEntry, evictExpired_of_fresh hlast hfresh,
      AList.entries_insert_of_notMem hnew, ← hfull, hentries]
    simp
  have hkeys : (younger ++ [e]).NodupKeys := hentries ▸ cache.nodupKeys
  have hold : e.1 ∉ younger.keys ∧ e.1 ≠ key := by
    have hnodup := (List.nodupKeys_cons.mp (List.nodupKeys_middle.mp hkeys)).1
    rw [List.append_nil] at hnodup
    refine ⟨hnodup, fun heq => hnew (heq ▸ ?_)⟩
    rw [AList.mem_keys, AList.keys, hentries]
    simp [List.keys]
  rw [AList.lookup_eq_none, AList.mem_keys, AList.keys, hput, List.keys_cons, List.mem_cons]
  exact fun hmem => hmem.elim hold.2 hold.1

/-- What is lost although it is fresh was dropped because the cache was full of other keys. -/
theorem full_of_lost (hle : cache.entries.length ≤ opts.maxEntries) {entry : Entry}
    (hne : key' ≠ key) (hlookup : cache.lookup key' = some entry) (hfresh : swept < entry.expiresAt)
    (hlost : (cache.putAt opts key value swept stamped).lookup key' = none) :
    cache.entries.length = opts.maxEntries ∧ key ∉ cache ∧ evictExpired cache swept = cache := by
  have hwithin : cache.WithinTtl key' swept := by
    intro entry' hentry'
    rw [Option.some.inj (hlookup.symm.trans hentry')] at hfresh
    exact hfresh
  have hkept : (withEntry opts cache key value swept stamped).lookup key' = some entry := by
    rw [withEntry, AList.lookup_insert_ne hne, lookup_evictExpired hwithin, hlookup]
  have hover : opts.maxEntries < (withEntry opts cache key value swept stamped).entries.length := by
    by_contra hfits
    rw [putAt, evictLRU_of_length_le (Nat.le_of_not_lt hfits), hkept] at hlost
    cases hlost
  have hswept : (evictExpired cache swept).entries <+: cache.entries := List.rdropWhile_prefix _ _
  have hsweptLength := hswept.length_le
  have herased := (List.kerase_sublist key (evictExpired cache swept).entries).length_le
  rw [withEntry, AList.entries_insert, List.length_cons] at hover
  have hsame : evictExpired cache swept = cache :=
    AList.ext (hswept.eq_of_length (by omega))
  refine ⟨by omega, fun hmem => ?_, hsame⟩
  rw [hsame] at hover
  obtain ⟨entry', l₁, l₂, -, hsplit, herase⟩ := List.exists_of_kerase (AList.mem_keys.mp hmem)
  rw [herase] at hover
  have hlength := congrArg List.length hsplit
  simp only [List.length_append, List.length_cons] at hlength hover
  omega

/-- **A put evicts no fresh entry beside an expired one** exactly where it finds the oldest entry
expired, if any is. -/
theorem justified_iff (hle : cache.entries.length ≤ opts.maxEntries) :
    Justified opts cache key value swept stamped ↔ StaleFirst opts cache key swept := by
  constructor
  · intro hjustified hfull hnew ⟨e, hmem, hexpired⟩ oldest hlast
    by_contra hfresh
    rw [Int.not_le] at hfresh
    have hlookup : cache.lookup oldest.1 = some oldest.2 :=
      AList.mem_lookup_iff.mpr (List.mem_of_getLast? hlast)
    have hne : oldest.1 ≠ key := fun heq =>
      hnew (heq ▸ AList.lookup_isSome.mp (by rw [hlookup]; rfl))
    have hlost : (cache.putAt opts key value swept stamped).lookup oldest.1 = none :=
      lookup_putAt_oldest (Nat.le_antisymm hle hfull) hnew hlast hfresh
    obtain ⟨hall, -⟩ := hjustified oldest.1 oldest.2 hne hlookup hfresh hlost
    exact absurd (hall e hmem) (Int.not_lt.mpr hexpired)
  · intro hstale key' entry hne hlookup hfresh hlost
    obtain ⟨hfull, hnew, hswept⟩ := full_of_lost hle hne hlookup hfresh hlost
    refine ⟨fun e hmem => ?_, hfull.ge⟩
    by_contra hexpired
    rw [Int.not_lt] at hexpired
    have hnonempty : cache.entries ≠ [] := List.ne_nil_of_mem hmem
    have hlast := hstale hfull.ge hnew ⟨e, hmem, hexpired⟩ (cache.entries.getLast hnonempty)
      (List.getLast?_eq_some_getLast hnonempty)
    have hkeep := List.rdropWhile_eq_self_iff.mp (congrArg AList.entries hswept) hnonempty
    exact hkeep (decide_eq_true hlast)

end SendIdempotencyCache

open SendIdempotencyCache

/-! ### Runs -/

inductive CacheNote where
  /-- The clock says `now`, and entries are compared with it. -/
  | reads (now : Int)
  | puts (key : String) (value : SentMessage) (now : Int)
  | crowdsOut (key : String)

/-- What was put under the key last, unless its TTL was over at a reading since or the capacity
evicted it. -/
def standing (ttlMs : Int) (key : String) : List CacheNote → Option Entry
  | [] => none
  | .reads now :: log => (standing ttlMs key log).filter fun entry => now < entry.expiresAt
  | .puts key' value now :: log =>
    if key = key' then some ⟨value, now + ttlMs⟩ else standing ttlMs key log
  | .crowdsOut key' :: log => if key = key' then none else standing ttlMs key log

inductive CacheOp where
  | get (key : String) (now : Int)
  | put (key : String) (value : SentMessage) (swept stamped : Int)

/-- A cache, and what was noted of it. -/
structure WatchedCache where
  cache : SendIdempotencyCache := ∅
  log : List CacheNote := []

namespace WatchedCache

variable (opts : SendIdempotencyCacheOptions) (s : WatchedCache)

/-- A look-up reads the clock where there is an entry. -/
def get (key : String) (now : Int) : WatchedCache where
  cache := (s.cache.get key now).1
  log := if key ∈ s.cache then .reads now :: s.log else s.log

def put (key : String) (value : SentMessage) (swept stamped : Int) : WatchedCache where
  cache := s.cache.putAt opts key value swept stamped
  log := (s.cache.crowdedOut opts key value swept stamped).map .crowdsOut ++
    .puts key value stamped :: .reads swept :: s.log

def step : CacheOp → Option WatchedCache
  | .get key now => some (s.get key now)
  | .put key value swept stamped => some (s.put opts key value swept stamped)

/-- The put evicts a fresh entry only where all are fresh and the cache is full. -/
def KeepsFresh (s : WatchedCache) : CacheOp → Prop
  | .get _ _ => True
  | .put key value swept stamped => s.cache.Justified opts key value swept stamped

/-- The put of a new key in a full cache finds the oldest entry expired, if any is. -/
def SweepsFirst (s : WatchedCache) : CacheOp → Prop
  | .get _ _ => True
  | .put key _ swept _ => s.cache.StaleFirst opts key swept

/-- There are no more entries than may be, and what stands is stored. -/
structure Kept (opts : SendIdempotencyCacheOptions) (s : WatchedCache) : Prop where
  capacity : s.cache.entries.length ≤ opts.maxEntries
  stored : ∀ key entry, standing opts.ttlMs key s.log = some entry →
    s.cache.lookup key = some entry

variable {opts s}

theorem kept_new (opts : SendIdempotencyCacheOptions) : Kept opts {} :=
  ⟨Nat.zero_le _, fun key entry h => (by cases h)⟩

theorem standing_reads {key : String} {now : Int} {log : List CacheNote} {entry : Entry}
    (h : standing opts.ttlMs key (.reads now :: log) = some entry) :
    standing opts.ttlMs key log = some entry ∧ now < entry.expiresAt := by
  obtain ⟨hstanding, hfresh⟩ := Option.filter_eq_some_iff.mp h
  exact ⟨hstanding, of_decide_eq_true hfresh⟩

theorem length_get_le (cache : SendIdempotencyCache) (key : String) (now : Int) :
    (cache.get key now).1.entries.length ≤ cache.entries.length := by
  rw [SendIdempotencyCache.get]
  cases hlookup : cache.lookup key with
  | none => exact Nat.le_refl _
  | some entry =>
    dsimp only
    split
    · exact (List.kerase_sublist key cache.entries).length_le
    · have hmem : key ∈ cache := AList.lookup_isSome.mp (by rw [hlookup]; rfl)
      obtain ⟨entry', older, younger, -, hsplit, herase⟩ :=
        List.exists_of_kerase (AList.mem_keys.mp hmem)
      rw [AList.entries_insert, herase, hsplit]
      simp only [List.length_cons, List.length_append]
      omega

theorem Kept.get (h : s.Kept opts) (key : String) (now : Int) : (s.get key now).Kept opts := by
  by_cases hmem : key ∈ s.cache
  · refine ⟨(length_get_le s.cache key now).trans h.capacity, fun key' entry hstanding => ?_⟩
    rw [WatchedCache.get, if_pos hmem] at hstanding
    obtain ⟨hstanding, hfresh⟩ := standing_reads hstanding
    have hlookup := h.stored key' entry hstanding
    have hwithin : s.cache.WithinTtl key' now := by
      intro entry' hentry'
      rw [Option.some.inj (hlookup.symm.trans hentry')] at hfresh
      exact hfresh
    exact (lookup_get hwithin).trans hlookup
  · have hnone : s.cache.get key now = (s.cache, none) := by
      rw [SendIdempotencyCache.get, AList.lookup_eq_none.mpr hmem]
    rw [WatchedCache.get, if_neg hmem, hnone]
    exact h

/-- What stands after a put was put, or stood before it and was not evicted. -/
theorem standing_crowdsOut {key : String} {keys : List String} {log : List CacheNote}
    {entry : Entry} (h : standing opts.ttlMs key (keys.map .crowdsOut ++ log) = some entry) :
    key ∉ keys ∧ standing opts.ttlMs key log = some entry := by
  induction keys with
  | nil => exact ⟨List.not_mem_nil, h⟩
  | cons key' keys ih =>
    simp only [List.map_cons, List.cons_append, standing] at h
    split at h
    · cases h
    · rename_i hne
      obtain ⟨hnotMem, hstanding⟩ := ih h
      exact ⟨fun hmem => (List.mem_cons.mp hmem).elim hne hnotMem, hstanding⟩

theorem Kept.put (h : s.Kept opts) (key : String) (value : SentMessage) (swept stamped : Int) :
    (s.put opts key value swept stamped).Kept opts := by
  refine ⟨?_, fun key' entry hstanding => ?_⟩
  · show ((withEntry opts s.cache key value swept stamped).entries.take opts.maxEntries).length ≤ _
    exact List.length_take_le _ _
  · obtain ⟨hkept, hstanding⟩ := standing_crowdsOut hstanding
    have hlookup : (withEntry opts s.cache key value swept stamped).lookup key' = some entry := by
      rw [withEntry]
      by_cases hkey : key' = key
      · subst hkey
        rw [standing, if_pos rfl] at hstanding
        rw [AList.lookup_insert]
        exact hstanding
      · rw [standing, if_neg hkey] at hstanding
        obtain ⟨hstood, hfresh⟩ := standing_reads hstanding
        have hstored := h.stored key' entry hstood
        have hwithin : s.cache.WithinTtl key' swept := by
          intro entry' hentry'
          rw [Option.some.inj (hstored.symm.trans hentry')] at hfresh
          exact hfresh
        rw [AList.lookup_insert_ne hkey, lookup_evictExpired hwithin, hstored]
    -- It is among the entries that the capacity leaves, for its key was not crowded out.
    have hmem := AList.mem_lookup_iff.mp hlookup
    rw [← List.take_append_drop opts.maxEntries
      (withEntry opts s.cache key value swept stamped).entries] at hmem
    rcases List.mem_append.mp hmem with htake | hdrop
    · exact AList.mem_lookup_iff.mpr htake
    · exact absurd (List.mem_map_of_mem hdrop) hkept

theorem Kept.step (h : s.Kept opts) {t : WatchedCache} {op : CacheOp}
    (hstep : s.step opts op = some t) : t.Kept opts := by
  cases op with
  | get key now =>
    rw [← Option.some.inj hstep]
    exact h.get key now
  | put key value swept stamped =>
    rw [← Option.some.inj hstep]
    exact h.put key value swept stamped

/-- **The cache keeps what it should** in the runs in which every put of a new key in a full cache
finds the oldest entry expired, if any is; an entry is found until its TTL is over in every run. -/
theorem keeps_iff (opts : SendIdempotencyCacheOptions) (ops : List CacheOp) (s : WatchedCache) :
    (Run (step opts) (KeepsFresh opts) {} ops s ↔ Run (step opts) (SweepsFirst opts) {} ops s) ∧
    (Run (step opts) Any {} ops s → ∀ key entry now,
      standing opts.ttlMs key s.log = some entry → now < entry.expiresAt →
        (s.cache.get key now).2 = some entry.value) := by
  constructor
  · refine Run.congr (P := Kept opts) (kept_new opts) fun t op t' ht hstep => ⟨ht.step hstep, ?_⟩
    cases op with
    | get key now => exact Iff.rfl
    | put key value swept stamped => exact justified_iff ht.capacity
  · intro r key entry now hstanding hfresh
    have hkept : s.Kept opts :=
      r.invariant (P := Kept opts) (kept_new opts) fun t op t' ht _ hstep => ht.step hstep
    have hlookup := hkept.stored key entry hstanding
    have hwithin : s.cache.WithinTtl key now := by
      intro entry' hentry'
      rw [Option.some.inj (hlookup.symm.trans hentry')] at hfresh
      exact hfresh
    rw [get_receipt hwithin, receipt, hlookup]
    rfl

/-- Room for two entries, each for ten milliseconds. -/
def twoEntries : SendIdempotencyCacheOptions := { ttlMs := 10, maxEntries := 2 }

def sentMessage : SentMessage := { id := "1", conversation := ⟨"slack", "C1", none⟩ }

/-- **A fresh entry is evicted beside an expired one**, which a look-up had moved to the young
end. -/
theorem evicted_before_expired :
    ¬ ∀ opts ops s, Run (step opts) Any {} ops s → ∀ op, KeepsFresh opts s op := by
  intro h
  have hreplay : (exec (step twoEntries) {}
      [.put "a" sentMessage 0 0, .put "b" sentMessage 5 5, .get "a" 6]).any
        (fun s => decide (s.cache.entries.map (fun e => (e.1, e.2.expiresAt)) =
          [("a", 10), ("b", 15)])) = true := by
    decide
  obtain ⟨s, r, hs⟩ := Run.any_of_replay hreplay
  have hmap := of_decide_eq_true hs
  have hlength : s.cache.entries.length = 2 := by
    rw [← List.length_map (fun e : (_ : String) × Entry => (e.1, e.2.expiresAt)), hmap]
    rfl
  obtain ⟨a, b, hentries⟩ := List.length_eq_two.mp hlength
  rw [hentries] at hmap
  simp only [List.map_cons, List.map_nil, List.cons.injEq, Prod.mk.injEq, and_true] at hmap
  obtain ⟨⟨ha, hexpired⟩, hb, hfresh⟩ := hmap
  have hnew : "c" ∉ s.cache := by
    rw [AList.mem_keys, AList.keys, hentries]
    simp [List.keys, ha, hb]
  have hjustified : s.cache.Justified twoEntries "c" sentMessage 12 12 :=
    h twoEntries _ s r (.put "c" sentMessage 12 12)
  have hstale := (justified_iff (Nat.le_of_eq hlength)).mp hjustified
  have hlast := hstale (Nat.le_of_eq hlength.symm) hnew
    ⟨a, by rw [hentries]; exact List.mem_cons_self, by rw [hexpired]; decide⟩ b
    (by rw [hentries]; rfl)
  rw [hfresh] at hlast
  exact absurd hlast (by decide)

end WatchedCache

end Declaragent.Channels
