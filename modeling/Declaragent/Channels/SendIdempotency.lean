import Mathlib.Data.List.AList
import Mathlib.Data.List.DropRight

/-!
# Channels — the idempotency cache of outbound sends

The cache keeps the receipt of each send under its idempotency key, for `ttlMs` and for the last
`maxEntries` keys put or looked up.

* `get_receipt`, `lookup_get`: a look-up within the TTL finds the receipt and loses none.
* `lookup_put`: a put within the TTL and below the capacity adds its receipt and loses none.
-/

namespace Declaragent.Channels

structure ConversationRef where
  channelId : String
  conversationId : String
  threadId : Option String := none
  deriving DecidableEq

structure SentMessage where
  id : String
  conversation : ConversationRef
  sentAt : Option Int := none
  deriving DecidableEq

structure Entry where
  value : SentMessage
  expiresAt : Int

structure SendIdempotencyCacheOptions where
  ttlMs : Int := 10 * 60 * 1000
  maxEntries : Nat := 4096

/-- The entries of the map, the last one put or looked up first. -/
abbrev SendIdempotencyCache := AList fun _ : String => Entry

namespace SendIdempotencyCache

variable (opts : SendIdempotencyCacheOptions) (cache : SendIdempotencyCache)
  {key key' : String} {now : Int}

/-- Drop the expired entries at the old end, up to the first that is not. -/
def evictExpired (now : Int) : SendIdempotencyCache where
  entries := cache.entries.rdropWhile fun entry => decide (entry.2.expiresAt ≤ now)
  nodupKeys := cache.nodupKeys.sublist (List.rdropWhile_prefix _ _).sublist

def evictLRU : SendIdempotencyCache where
  entries := cache.entries.take opts.maxEntries
  nodupKeys := cache.nodupKeys.sublist (List.take_sublist _ _)

/-- A look-up moves the entry to the young end, without a new TTL. -/
def get (key : String) (now : Int) : SendIdempotencyCache × Option SentMessage :=
  match cache.lookup key with
  | none => (cache, none)
  | some entry =>
    if entry.expiresAt ≤ now then (cache.erase key, none)
    else (cache.insert key entry, some entry.value)

def put (key : String) (value : SentMessage) (now : Int) : SendIdempotencyCache :=
  evictLRU opts ((evictExpired cache now).insert key ⟨value, now + opts.ttlMs⟩)

/-- The receipt under the key, if any. -/
def receipt (key : String) : Option SentMessage := (cache.lookup key).map Entry.value

/-- The entry under the key has not expired. -/
def WithinTtl (key : String) (now : Int) : Prop :=
  ∀ entry ∈ cache.lookup key, now < entry.expiresAt

variable {opts cache}

theorem get_receipt (h : cache.WithinTtl key now) : (cache.get key now).2 = cache.receipt key := by
  unfold get receipt
  cases hl : cache.lookup key with
  | none => rfl
  | some entry =>
    dsimp only
    rw [if_neg (Int.not_le.mpr (h entry hl))]
    rfl

/-- A look-up leaves the entry of every key that has not expired. -/
theorem lookup_get (h : cache.WithinTtl key now) :
    (cache.get key' now).1.lookup key = cache.lookup key := by
  unfold get
  cases hl : cache.lookup key' with
  | none => rfl
  | some entry =>
    by_cases hkey : key = key'
    · subst hkey
      rw [hl]
      dsimp only
      rw [if_neg (Int.not_le.mpr (h entry hl))]
      exact AList.lookup_insert _
    · dsimp only
      split
      · exact AList.lookup_erase_ne hkey
      · exact AList.lookup_insert_ne hkey

theorem lookup_evictExpired (h : cache.WithinTtl key now) :
    (cache.evictExpired now).lookup key = cache.lookup key := by
  have hsub : ∀ entry, entry ∈ (cache.evictExpired now).lookup key →
      entry ∈ cache.lookup key := fun entry he =>
    AList.mem_lookup_iff.mpr
      ((List.rdropWhile_prefix _ _).sublist.subset (AList.mem_lookup_iff.mp he))
  cases hl : cache.lookup key with
  | none =>
    refine Option.eq_none_iff_forall_not_mem.mpr fun entry he => ?_
    have hmem := hsub entry he
    rw [hl] at hmem
    cases hmem
  | some entry =>
    have hsplit : (cache.evictExpired now).entries ++ cache.entries.rtakeWhile
        (fun entry => decide (entry.2.expiresAt ≤ now)) = cache.entries :=
      List.rdropWhile_append_rtakeWhile
    have hmem := AList.mem_lookup_iff.mp hl
    rw [← hsplit] at hmem
    rcases List.mem_append.mp hmem with hkept | hdropped
    · exact AList.mem_lookup_iff.mpr hkept
    · -- a dropped entry has expired
      have hexpired := List.mem_rtakeWhile_imp hdropped
      exact absurd (h entry hl) (Int.not_lt.mpr (of_decide_eq_true hexpired))

theorem length_evictExpired (cache : SendIdempotencyCache) (now : Int) :
    (cache.evictExpired now).entries.length ≤ cache.entries.length :=
  (List.rdropWhile_prefix _ _).sublist.length_le

theorem evictLRU_of_length_le (h : cache.entries.length ≤ opts.maxEntries) :
    evictLRU opts cache = cache :=
  AList.ext (List.take_of_length_le h)

/-- A put below the capacity leaves the entry of every other key that has not expired. -/
theorem lookup_put (h : cache.WithinTtl key now) (hroom : cache.entries.length < opts.maxEntries)
    (key' : String) (value : SentMessage) :
    (cache.put opts key' value now).lookup key =
      if key = key' then some ⟨value, now + opts.ttlMs⟩ else cache.lookup key := by
  have hlength : ((cache.evictExpired now).insert key' ⟨value, now + opts.ttlMs⟩).entries.length ≤
      opts.maxEntries := by
    have hle := length_evictExpired cache now
    have herase : (((cache.evictExpired now).entries).kerase key').length ≤
        (cache.evictExpired now).entries.length := (List.kerase_sublist _ _).length_le
    rw [AList.entries_insert, List.length_cons]
    omega
  rw [put, evictLRU_of_length_le hlength]
  split
  · rename_i hkey
    subst hkey
    exact AList.lookup_insert _
  · rename_i hkey
    rw [AList.lookup_insert_ne hkey, lookup_evictExpired h]

end SendIdempotencyCache

end Declaragent.Channels
