import Declaragent.Library.HashChain
import Declaragent.Library.Json

/-!
# Audit — the chain verifier

`verifyEntries` walks stored audit entries in order, with the hash it expects next: an entry
must name the hash of the entry before it, and an entry that is not a tombstone must have the
hash of its own canonical text.  A tombstone keeps the hash of the record it replaced, so it is
checked for continuity alone.

The digest `sha256Hex` is a parameter.  Its input is the previous hash, a line break and the
canonical text; a canonical text is one line, so the two parts can be read back from the input.

`verifyEntries_ok` says what a clean report means: the entries are an intact hash chain.  What
such a chain commits to is the library's `HashChain.content_eq`, read here as
`canonical_eq_of_verified`: the last hash fixes the canonical record of every entry up to the
nearest tombstone after it, and past that tombstone as far as its `prevHash` is the same.
-/

namespace Declaragent.Audit
open JsonText

/-! ### Canonical records -/

/-- An audit record: an object tree, whose `kind` says which fields it has. -/
abbrev TenantAuditRecord := Json

/-- `record.kind`. -/
def kindOf (record : TenantAuditRecord) : String :=
  match record.field "kind" with
  | some (.str kind) => kind
  | _ => ""

mutual

/-- Sort the keys of every object in the tree.  The sorted keys are inserted into a fresh
object, which lists them in `keyOrder`. -/
def deepSortKeys : Json → Json
  | .arr items => .arr (deepSortItems items)
  | .obj fields => .obj (sortFields (deepSortFields fields))
  | value => value

def deepSortItems : List Json → List Json
  | [] => []
  | value :: items => deepSortKeys value :: deepSortItems items

def deepSortFields : List (String × Json) → List (String × Json)
  | [] => []
  | (key, value) :: fields => (key, deepSortKeys value) :: deepSortFields fields

end

/-- The canonical text of a record. -/
def canonicalizeRecord (record : TenantAuditRecord) : String :=
  stringify (deepSortKeys record)

theorem deepSortFields_eq_map (fields : List (String × Json)) :
    deepSortFields fields = fields.map fun p => (p.1, deepSortKeys p.2) := by
  induction fields with
  | nil => rfl
  | cons p fields ih => simp only [deepSortFields, List.map_cons, ih]

mutual

/-- Sorting the keys again changes nothing, so what is read back from a stored text has that
same canonical text. -/
theorem deepSortKeys_deepSortKeys : ∀ value : Json,
    deepSortKeys (deepSortKeys value) = deepSortKeys value
  | .null | .bool _ | .num _ | .str _ => rfl
  | .arr items => by simp only [deepSortKeys, deepSortItems_deepSortItems items]
  | .obj fields => by
      have ih := deepSortFields_deepSortFields fields
      rw [deepSortFields_eq_map (deepSortFields fields)] at ih
      simp only [deepSortKeys]
      rw [deepSortFields_eq_map, ← sortFields_map, sortFields_sortFields, ih]

theorem deepSortItems_deepSortItems : ∀ items : List Json,
    deepSortItems (deepSortItems items) = deepSortItems items
  | [] => rfl
  | value :: items => by
      simp only [deepSortItems, deepSortKeys_deepSortKeys value,
        deepSortItems_deepSortItems items]

theorem deepSortFields_deepSortFields : ∀ fields : List (String × Json),
    deepSortFields (deepSortFields fields) = deepSortFields fields
  | [] => rfl
  | (key, value) :: fields => by
      simp only [deepSortFields, deepSortKeys_deepSortKeys value,
        deepSortFields_deepSortFields fields]

end

theorem canonicalizeRecord_deepSortKeys (record : TenantAuditRecord) :
    canonicalizeRecord (deepSortKeys record) = canonicalizeRecord record := by
  rw [canonicalizeRecord, deepSortKeys_deepSortKeys]; rfl

theorem field_deepSortKeys (key : String) (record : Json) :
    (deepSortKeys record).field key = (record.field key).map deepSortKeys := by
  cases record with
  | obj fields =>
    simp only [deepSortKeys, Json.field, lookup_sortFields, deepSortFields_eq_map]
    induction fields with
    | nil => rfl
    | cons p fields ih =>
      obtain ⟨k, value⟩ := p
      simp only [List.map_cons, List.lookup_cons, ih]
      cases key == k <;> rfl
  | null | bool | num | str | arr => rfl

/-- Sorting the keys leaves the kind of a record as it is. -/
@[simp] theorem kindOf_deepSortKeys (record : TenantAuditRecord) :
    kindOf (deepSortKeys record) = kindOf record := by
  unfold kindOf
  rw [field_deepSortKeys]
  cases record.field "kind" with
  | none => rfl
  | some value => cases value <;> rfl

/-! ### The verifier -/

/-- One row as stored: the record and its place in the chain. -/
structure StoredAuditEntry where
  seq : Nat
  record : TenantAuditRecord
  prevHash : String
  recordHash : String

inductive ViolationKind where
  | hashMismatch
  | prevHashMismatch
  deriving DecidableEq

structure VerifyViolation where
  seq : Nat
  kind : ViolationKind
  expectedHash : String
  observedHash : String
  message : String

structure VerifyReport where
  ok : Bool
  totalEntries : Nat
  verifiedEntries : Nat
  violations : List VerifyViolation

/-- The hash of one entry given the previous entry's hash. -/
def computeRecordHash (sha256Hex : String → String) (prevHash : String)
    (record : TenantAuditRecord) : String :=
  sha256Hex (prevHash ++ "\n" ++ canonicalizeRecord record)

/-- The locals of the verifier's loop. -/
structure Walk where
  violations : List VerifyViolation
  verified : Nat
  total : Nat
  expectedPrev : String

/-- The body of the verifier's loop. -/
def verifyEntry (sha256Hex : String → String) (w : Walk) (entry : StoredAuditEntry) : Walk :=
  let w := { w with total := w.total + 1 }
  if entry.prevHash ≠ w.expectedPrev then
    { w with
      violations := w.violations ++
        [{ seq := entry.seq
           kind := .prevHashMismatch
           expectedHash := w.expectedPrev
           observedHash := entry.prevHash
           message := "prev_hash chain break at seq " ++ toString entry.seq }]
      expectedPrev := entry.recordHash }
  else
    let computed := computeRecordHash sha256Hex entry.prevHash entry.record
    if kindOf entry.record ≠ "erased" ∧ computed ≠ entry.recordHash then
      { w with
        violations := w.violations ++
          [{ seq := entry.seq
             kind := .hashMismatch
             expectedHash := entry.recordHash
             observedHash := computed
             message := "record hash mismatch at seq " ++ toString entry.seq }]
        expectedPrev := entry.recordHash }
    else { w with verified := w.verified + 1, expectedPrev := entry.recordHash }

/-- Verify a list of stored entries. -/
def verifyEntries (sha256Hex : String → String) (entries : List StoredAuditEntry) :
    VerifyReport :=
  let w := entries.foldl (verifyEntry sha256Hex) ⟨[], 0, 0, ""⟩
  { ok := w.violations.length == 0
    totalEntries := w.total
    verifiedEntries := w.verified
    violations := w.violations }

/-! ### Entries as links of a hash chain -/

/-- The texts a record can be canonicalized to. -/
def CanonicalText := { text : String // ∃ record, canonicalizeRecord record = text }

def canonicalText (record : TenantAuditRecord) : CanonicalText :=
  ⟨canonicalizeRecord record, record, rfl⟩

/-- The hash of a canonical text after a previous hash. -/
def chainHash (sha256Hex : String → String) (prevHash : String) (c : CanonicalText) : String :=
  sha256Hex (prevHash ++ "\n" ++ c.1)

def StoredAuditEntry.isErased (entry : StoredAuditEntry) : Bool :=
  kindOf entry.record == "erased"

/-- An entry as a link: a tombstone has no content. -/
def StoredAuditEntry.link (entry : StoredAuditEntry) : HashChain.Link String CanonicalText where
  prev := entry.prevHash
  content := if entry.isErased then none else some (canonicalText entry.record)
  hash := entry.recordHash

theorem StoredAuditEntry.link_faithful_iff {sha256Hex : String → String}
    {entry : StoredAuditEntry} : entry.link.Faithful (chainHash sha256Hex) ↔
      (kindOf entry.record ≠ "erased" →
        computeRecordHash sha256Hex entry.prevHash entry.record = entry.recordHash) := by
  unfold HashChain.Link.Faithful StoredAuditEntry.link StoredAuditEntry.isErased
  by_cases h : kindOf entry.record = "erased"
  · simp [h]
  · simp only [h, beq_iff_eq, if_false, Option.some.injEq, forall_eq', ne_eq, not_false_eq_true,
      forall_const]
    exact eq_comm

/-- **One step of the verifier**: it reports nothing exactly when nothing was reported before
and the entry extends the chain. -/
theorem verifyEntry_violations (sha256Hex : String → String) (w : Walk)
    (entry : StoredAuditEntry) :
    ((verifyEntry sha256Hex w entry).violations = [] ↔
      w.violations = [] ∧ entry.prevHash = w.expectedPrev ∧
        entry.link.Faithful (chainHash sha256Hex)) ∧
    (verifyEntry sha256Hex w entry).expectedPrev = entry.recordHash := by
  rw [StoredAuditEntry.link_faithful_iff]
  unfold verifyEntry
  dsimp only
  split
  · rename_i h
    exact ⟨by simp [h], rfl⟩
  · rename_i h
    split
    · rename_i h'
      exact ⟨by simpa using fun _ _ => h', rfl⟩
    · rename_i h'
      refine ⟨?_, rfl⟩
      simp only [not_not] at h
      simpa [h] using fun _ => h'

theorem foldl_verifyEntry_violations {sha256Hex : String → String} :
    ∀ {entries : List StoredAuditEntry} {w : Walk},
      (entries.foldl (verifyEntry sha256Hex) w).violations = [] ↔
        w.violations = [] ∧ HashChain.Intact (chainHash sha256Hex) w.expectedPrev
          (entries.map StoredAuditEntry.link)
  | [], w => by
      simp only [List.foldl_nil, List.map_nil, iff_self_and]
      exact fun _ => ⟨trivial, by simp⟩
  | entry :: entries, w => by
      obtain ⟨hv, he⟩ := verifyEntry_violations sha256Hex w entry
      rw [List.foldl_cons, foldl_verifyEntry_violations, hv, he]
      constructor
      · rintro ⟨⟨hw, hp, hf⟩, hi⟩
        exact ⟨hw, ⟨hp, hi.linked⟩, by simpa using ⟨hf, by simpa using hi.faithful⟩⟩
      · rintro ⟨hw, hi⟩
        exact ⟨⟨hw, hi.linked.1, hi.faithful _ (by simp)⟩, hi.linked.2,
          fun l hl => hi.faithful l (by simp [hl])⟩

/-- **A clean report.**  The verifier finds nothing exactly when the entries are an intact hash
chain from the empty hash. -/
theorem verifyEntries_ok {sha256Hex : String → String} {entries : List StoredAuditEntry} :
    (verifyEntries sha256Hex entries).ok = true ↔
      HashChain.Intact (chainHash sha256Hex) "" (entries.map StoredAuditEntry.link) := by
  simp [verifyEntries, foldl_verifyEntry_violations]

/-! ### Tamper evidence -/

/-- The record hash tells apart what it is computed from. -/
def InjectiveHash (sha256Hex : String → String) : Prop :=
  ∀ prevHash prevHash' record record',
    computeRecordHash sha256Hex prevHash record = computeRecordHash sha256Hex prevHash' record' →
      prevHash = prevHash' ∧ canonicalizeRecord record = canonicalizeRecord record'

/-- No record hash is the empty text a chain starts from. -/
def NonemptyHash (sha256Hex : String → String) : Prop :=
  ∀ prevHash record, computeRecordHash sha256Hex prevHash record ≠ ""

theorem chainHash_injective {sha256Hex : String → String} (h : InjectiveHash sha256Hex)
    (a : String) (c : CanonicalText) (a' : String) (c' : CanonicalText)
    (he : chainHash sha256Hex a c = chainHash sha256Hex a' c') : a = a' ∧ c = c' := by
  obtain ⟨text, record, rfl⟩ := c
  obtain ⟨text', record', rfl⟩ := c'
  obtain ⟨ha, hc⟩ := h a a' record record' he
  exact ⟨ha, Subtype.ext hc⟩

/-- A digest that is injective on texts gives an injective record hash: the canonical text is
the last line of the digest's input. -/
theorem InjectiveHash.of_injective {sha256Hex : String → String}
    (h : Function.Injective sha256Hex) : InjectiveHash sha256Hex := fun _ _ _ _ he =>
  split_at_line (newline_notMem_stringify _) (newline_notMem_stringify _) (h he)

/-- The first tombstone after place `i`. -/
def nextTombstone (entries : List StoredAuditEntry) (i : Nat) : Option StoredAuditEntry :=
  (entries.drop (i + 1)).find? StoredAuditEntry.isErased

theorem link_content_isNone (entry : StoredAuditEntry) :
    entry.link.content.isNone = entry.isErased := by
  unfold StoredAuditEntry.link
  cases entry.isErased <;> rfl

theorem gap_map_link (entries : List StoredAuditEntry) :
    (HashChain.gap (entries.map StoredAuditEntry.link)).map HashChain.Link.prev =
      (entries.find? StoredAuditEntry.isErased).map StoredAuditEntry.prevHash := by
  induction entries with
  | nil => rfl
  | cons entry entries ih =>
    simp only [HashChain.gap, List.map_cons, List.find?_cons] at ih ⊢
    cases h : entry.isErased with
    | true => simp [StoredAuditEntry.link, h]
    | false => simpa [StoredAuditEntry.link, h] using ih

theorem tip_map_link (entries : List StoredAuditEntry) (p : String) :
    HashChain.tip p (entries.map StoredAuditEntry.link) =
      (entries.getLast?.map StoredAuditEntry.recordHash).getD p := by
  induction entries generalizing p with
  | nil => rfl
  | cons entry entries ih =>
    rw [List.map_cons, HashChain.tip_cons, ih, List.getLast?_cons]
    cases entries.getLast? <;> rfl

/-- **Tamper evidence.**  Two lists of entries that both pass the verifier, with tombstones at
the same positions and the same hash on the last entry, have the same canonical record at each
place that is not a tombstone and whose next tombstone, if there is one, has the same
`prevHash` in both. -/
theorem canonical_eq_of_verified {sha256Hex : String → String} (hinj : InjectiveHash sha256Hex)
    {entries entries' : List StoredAuditEntry}
    (hv : (verifyEntries sha256Hex entries).ok = true)
    (hv' : (verifyEntries sha256Hex entries').ok = true)
    (htomb : entries.map StoredAuditEntry.isErased = entries'.map StoredAuditEntry.isErased)
    (hlast : entries.getLast?.map StoredAuditEntry.recordHash =
      entries'.getLast?.map StoredAuditEntry.recordHash)
    {i : Nat} {entry entry' : StoredAuditEntry} (hi : entries[i]? = some entry)
    (hi' : entries'[i]? = some entry') (hlive : entry.isErased = false)
    (hnext : (nextTombstone entries i).map StoredAuditEntry.prevHash =
      (nextTombstone entries' i).map StoredAuditEntry.prevHash) :
    canonicalizeRecord entry.record = canonicalizeRecord entry'.record := by
  -- both lists are cut at place `i`, and compared from their common last hash backwards
  have cut : ∀ {es : List StoredAuditEntry} {e : StoredAuditEntry}, es[i]? = some e →
      es = es.take i ++ e :: es.drop (i + 1) := by
    intro es e he
    obtain ⟨hlt, rfl⟩ := List.getElem?_eq_some_iff.mp he
    rw [← List.drop_eq_getElem_cons hlt, List.take_append_drop]
  have hlive' : entry'.isErased = false := by
    have := congrArg (·[i]?) htomb
    simpa [List.getElem?_map, hi, hi', hlive] using this.symm
  have hshape := congrArg (List.drop (i + 1)) htomb
  rw [← List.map_drop, ← List.map_drop] at hshape
  have hi₁ := verifyEntries_ok.mp hv
  have hi₂ := verifyEntries_ok.mp hv'
  have htip : HashChain.tip "" (entries.map StoredAuditEntry.link) =
      HashChain.tip "" (entries'.map StoredAuditEntry.link) := by
    rw [tip_map_link, tip_map_link, hlast]
  rw [cut hi, List.map_append, List.map_cons] at hi₁ htip
  rw [cut hi', List.map_append, List.map_cons] at hi₂ htip
  have hcontent : entry.link.content = some (canonicalText entry.record) := by
    simp [StoredAuditEntry.link, hlive]
  have hcontent' : entry'.link.content = some (canonicalText entry'.record) := by
    simp [StoredAuditEntry.link, hlive']
  have key := HashChain.content_eq (chainHash_injective hinj) hi₁ hi₂
    (by simpa [Function.comp_def, link_content_isNone] using hshape)
    (by rw [gap_map_link, gap_map_link]; exact hnext) htip hcontent hcontent'
  exact congrArg Subtype.val key

/-! ### Concrete chains -/

/-- An injective digest. -/
def tagDigest (text : String) : String := "#" ++ text

theorem tagDigest_injective : Function.Injective tagDigest := fun a b h => by
  have := congrArg String.toList h
  simpa [tagDigest, String.toList_inj] using this

theorem nonemptyHash_tagDigest : NonemptyHash tagDigest := fun _ _ h => by
  simpa [computeRecordHash, tagDigest] using congrArg String.toList h

/-- A record of the given kind. -/
def sampleRecord (kind : String) : TenantAuditRecord :=
  .obj [("tenantId", .str "acme"), ("kind", .str kind)]

/-- An honest first entry and a tombstone after it. -/
def sampleChain (kind tombstoneHash : String) : List StoredAuditEntry :=
  let hash := computeRecordHash tagDigest "" (sampleRecord kind)
  [⟨1, sampleRecord kind, "", hash⟩, ⟨2, sampleRecord "erased", hash, tombstoneHash⟩]

/-- A forged prefix: the tombstone keeps the last hash, so the record before it can be
replaced. -/
theorem verified_chains_differ : ¬ ∀ sha256Hex, InjectiveHash sha256Hex →
    NonemptyHash sha256Hex → ∀ entries entries' : List StoredAuditEntry,
      (verifyEntries sha256Hex entries).ok = true →
      (verifyEntries sha256Hex entries').ok = true → entries.length = entries'.length →
      entries.map StoredAuditEntry.isErased = entries'.map StoredAuditEntry.isErased →
      entries.getLast?.map StoredAuditEntry.recordHash =
        entries'.getLast?.map StoredAuditEntry.recordHash →
      ∀ (i : Nat) (entry entry' : StoredAuditEntry), entries[i]? = some entry →
        entries'[i]? = some entry' → entry.isErased = false →
        canonicalizeRecord entry.record = canonicalizeRecord entry'.record := by
  intro h
  have := h tagDigest (.of_injective tagDigest_injective) nonemptyHash_tagDigest
    (sampleChain "tool_call" "f0") (sampleChain "auth_check" "f0") (by decide) (by decide)
    (by decide) (by decide) (by decide) 0 _ _ rfl rfl (by decide)
  exact absurd this (by decide)

theorem canonical_eq_of_verified_sample :
    canonicalizeRecord (sampleRecord "tool_call") =
      canonicalizeRecord (sampleRecord "tool_call") := by
  have hv : (verifyEntries tagDigest (sampleChain "tool_call" "f0")).ok = true := by decide
  have hi : (sampleChain "tool_call" "f0")[0]? = some _ := rfl
  exact canonical_eq_of_verified (.of_injective tagDigest_injective) hv hv rfl rfl hi hi
    (by decide) rfl

end Declaragent.Audit
