import Declaragent.Library.JsonParse

/-!
# Library — plain JavaScript values and their JSON text

`JsValue` is what plain data is at run time: JSON values, and what JSON has no text for, which are
`undefined` and the numbers that are not finite.  A zero carries no sign.  An object lists its
properties in the order its keys are enumerated: array indices first, by value, then the other
keys as they were created.

`toJson` is what `JSON.stringify` writes: a property that is `undefined` is left out, an item that
is becomes `null`, and so does a number that is not finite.  `evaluate` is what `JSON.parse` makes
of what it reads: numbers are rounded to the format, and of properties of one name the last
counts.

* `toJson_evaluate`: written again, a value that was read has the text it was read from.
* `jsonParse_stringify` is what is read of a text that was written.
* `evaluate_proper`: what is read has its numbers in the format and its keys in order.
* `received_obj` is the object that is read where one was written, property by property.
* `reread_iff`: which values are read where they were written.
* `get_defined`, `propertiesJson_defined`: leaving out what is `undefined` changes no property and
  no text.
-/

namespace JsonText

/-- The number format of the language: which decimals are written for a number, and the number
that a decimal reads as, unless it is too large.  A number reads back from what is written for it,
and every integer below `2 ^ 53` is one. -/
structure NumberFormat where
  IsNumber : Number → Prop
  read : Number → Option Number
  read_number : ∀ n, IsNumber n → read n = some n
  isNumber_ofInt : ∀ d : Int, d.natAbs < 9007199254740992 → IsNumber (.ofInt d)

/-- Where every decimal is a number, each reads as itself. -/
theorem reads_itself (n : Number) (_ : True) : some n = some n := rfl

inductive NonFinite where
  | nan
  | infinity (negative : Bool)

/-- A plain value. -/
inductive JsValue where
  | undefined
  | null
  | bool (b : Bool)
  | num (n : Number)
  | nonFinite (kind : NonFinite)
  | str (s : String)
  | arr (items : List JsValue)
  | obj (properties : List (String × JsValue))

def JsValue.isUndefined : JsValue → Bool
  | .undefined => true
  | _ => false

/-- `value[key]`. -/
def JsValue.get (key : String) : JsValue → JsValue
  | .obj properties => (properties.lookup key).getD .undefined
  | _ => .undefined

/-! ### Properties in order -/

section
variable {V : Type}

/-- Create a property, or give it its value: an existing one keeps its place. -/
def put (key : String) (v : V) : List (String × V) → List (String × V)
  | [] => [(key, v)]
  | (k, w) :: ps => if k = key then (k, v) :: ps else (k, w) :: put key v ps

/-- The properties as they are created one by one. -/
def create (ps : List (String × V)) : List (String × V) :=
  ps.foldl (fun o p => put p.1 p.2 o) []

def IndexLe (p q : String × V) : Prop :=
  (arrayIndex? p.1).getD 0 ≤ (arrayIndex? q.1).getD 0

instance : DecidableRel (IndexLe (V := V)) := fun p q =>
  inferInstanceAs (Decidable ((arrayIndex? p.1).getD 0 ≤ (arrayIndex? q.1).getD 0))

/-- The properties in the order an object enumerates them. -/
def enumerate (ps : List (String × V)) : List (String × V) :=
  (ps.filter fun p => (arrayIndex? p.1).isSome).insertionSort IndexLe ++
    ps.filter fun p => (arrayIndex? p.1).isNone

/-- The first key is enumerated before the second. -/
def KeyBefore (k l : String) : Prop :=
  match arrayIndex? k, arrayIndex? l with
  | some m, some n => m < n
  | some _, none => True
  | none, some _ => False
  | none, none => k ≠ l

/-- The keys are those of an object: distinct, and in order. -/
def Listed (ps : List (String × V)) : Prop := (ps.map Prod.fst).Pairwise KeyBefore

theorem KeyBefore.ne {k l : String} (h : KeyBefore k l) : k ≠ l := by
  rintro rfl
  unfold KeyBefore at h
  split at h
  · rename_i hm hn
    rw [hm] at hn
    cases hn
    exact lt_irrefl _ h
  · rename_i hm hn
    rw [hm] at hn
    cases hn
  · exact h
  · exact h rfl

theorem Listed.sublist {ps qs : List (String × V)} (h : Listed qs) (hs : ps.Sublist qs) :
    Listed ps :=
  List.Pairwise.sublist (hs.map Prod.fst) h

theorem put_of_notMem {key : String} {ps : List (String × V)} (h : key ∉ ps.map Prod.fst) (v : V) :
    put key v ps = ps ++ [(key, v)] := by
  induction ps with
  | nil => rfl
  | cons p ps ih =>
    obtain ⟨k, w⟩ := p
    rw [List.map_cons, List.mem_cons, not_or] at h
    unfold put
    rw [if_neg (fun e => h.1 e.symm), ih h.2]
    rfl

/-- Properties of different names are created as they come. -/
theorem create_of_nodup {ps : List (String × V)} (h : (ps.map Prod.fst).Nodup) :
    create ps = ps := by
  have hfold : ∀ (qs os : List (String × V)), ((os ++ qs).map Prod.fst).Nodup →
      qs.foldl (fun o p => put p.1 p.2 o) os = os ++ qs := by
    intro qs
    induction qs with
    | nil => simp
    | cons q qs ih =>
      intro os hos
      have hnot : q.1 ∉ os.map Prod.fst := by
        rw [List.map_append, List.nodup_append] at hos
        exact fun hmem => hos.2.2 q.1 hmem q.1 (by simp) rfl
      rw [List.foldl_cons, put_of_notMem hnot, ih _ (by simpa using hos), List.append_assoc]
      rfl
  simpa [create] using hfold ps [] h

theorem Listed.indices {ps : List (String × V)} (h : Listed ps) :
    (ps.filter fun p => (arrayIndex? p.1).isSome).Pairwise IndexLe := by
  have hpairwise : ps.Pairwise fun p q => KeyBefore p.1 q.1 := List.pairwise_map.mp h
  refine (hpairwise.filter _).imp_of_mem fun {p q} hp hq hbefore => ?_
  obtain ⟨m, hm⟩ := Option.isSome_iff_exists.mp (List.mem_filter.mp hp).2
  obtain ⟨n, hn⟩ := Option.isSome_iff_exists.mp (List.mem_filter.mp hq).2
  unfold KeyBefore at hbefore
  unfold IndexLe
  rw [hm, hn] at hbefore ⊢
  exact le_of_lt hbefore

/-- The array indices come first. -/
theorem Listed.indices_first {ps : List (String × V)} (h : Listed ps) :
    (ps.filter fun p => (arrayIndex? p.1).isSome) ++
      (ps.filter fun p => (arrayIndex? p.1).isNone) = ps := by
  induction ps with
  | nil => rfl
  | cons p ps ih =>
    obtain ⟨hp, hps⟩ := List.pairwise_cons.mp h
    cases hi : arrayIndex? p.1 with
    | some m => simpa [hi] using ih hps
    | none =>
      -- no index comes after a key that is none
      have hnone : ∀ q ∈ ps, arrayIndex? q.1 = none := by
        intro q hq
        have hbefore := hp q.1 (List.mem_map_of_mem hq)
        unfold KeyBefore at hbefore
        rw [hi] at hbefore
        cases hj : arrayIndex? q.1 with
        | none => rfl
        | some n =>
          rw [hj] at hbefore
          cases hbefore
      have hfirst : (ps.filter fun p => (arrayIndex? p.1).isSome) = [] :=
        List.filter_eq_nil_iff.mpr fun q hq => by simp [hnone q hq]
      have hrest : (ps.filter fun p => (arrayIndex? p.1).isNone) = ps :=
        List.filter_eq_self.mpr fun q hq => by simp [hnone q hq]
      simp [hi, hfirst, hrest]

/-- An object that is in order already is enumerated as it is. -/
theorem enumerate_of_listed {ps : List (String × V)} (h : Listed ps) : enumerate ps = ps := by
  unfold enumerate
  rw [h.indices.insertionSort_eq, h.indices_first]

theorem Listed.nodup {ps : List (String × V)} (h : Listed ps) : (ps.map Prod.fst).Nodup :=
  List.Pairwise.imp (fun hbefore => hbefore.ne) h

instance : Std.Total (IndexLe (V := V)) := ⟨fun p q => le_total (α := Nat) _ _⟩

instance : IsTrans (String × V) IndexLe := ⟨fun _ _ _ => le_trans (α := Nat)⟩

theorem lookup_put_self (key : String) (v : V) (ps : List (String × V)) :
    (put key v ps).lookup key = some v := by
  induction ps with
  | nil => simp [put]
  | cons p ps ih =>
    obtain ⟨k, w⟩ := p
    unfold put
    by_cases hk : k = key
    · simp [hk]
    · rw [if_neg hk, List.lookup_cons, beq_eq_false_iff_ne.mpr (Ne.symm hk)]
      exact ih

theorem lookup_put_of_ne {key other : String} (h : other ≠ key) (v : V) (ps : List (String × V)) :
    (put key v ps).lookup other = ps.lookup other := by
  induction ps with
  | nil => simp [put, List.lookup_cons, beq_eq_false_iff_ne.mpr h]
  | cons p ps ih =>
    obtain ⟨k, w⟩ := p
    unfold put
    by_cases hk : k = key
    · subst hk
      simp [List.lookup_cons, beq_eq_false_iff_ne.mpr h]
    · rw [if_neg hk, List.lookup_cons, List.lookup_cons, ih]

/-- Giving a property the value that it has changes nothing. -/
theorem put_of_lookup {key : String} {v : V} {ps : List (String × V)}
    (h : ps.lookup key = some v) : put key v ps = ps := by
  induction ps with
  | nil => cases h
  | cons p ps ih =>
    obtain ⟨k, w⟩ := p
    unfold put
    rw [List.lookup_cons] at h
    by_cases hk : k = key
    · subst hk
      simp only [beq_self_eq_true] at h
      cases h
      exact if_pos rfl
    · rw [beq_eq_false_iff_ne.mpr (Ne.symm hk)] at h
      rw [if_neg hk, ih h]

theorem put_keys (key : String) (v : V) (ps : List (String × V)) :
    (put key v ps).map Prod.fst =
      if key ∈ ps.map Prod.fst then ps.map Prod.fst else ps.map Prod.fst ++ [key] := by
  induction ps with
  | nil => rfl
  | cons p ps ih =>
    obtain ⟨k, w⟩ := p
    unfold put
    by_cases hk : k = key
    · simp [hk]
    · have hk' : key ≠ k := Ne.symm hk
      simp only [if_neg hk, List.map_cons, ih, List.mem_cons, hk', false_or]
      split
      · rfl
      · rfl

theorem nodup_put {key : String} {ps : List (String × V)} (h : (ps.map Prod.fst).Nodup) (v : V) :
    ((put key v ps).map Prod.fst).Nodup := by
  rw [put_keys]
  split
  · exact h
  · rename_i hkey
    exact List.nodup_append'.mpr ⟨h, List.nodup_singleton key, List.disjoint_singleton.mpr hkey⟩

theorem nodup_create (ps : List (String × V)) : ((create ps).map Prod.fst).Nodup := by
  have hfold : ∀ qs os : List (String × V), (os.map Prod.fst).Nodup →
      ((qs.foldl (fun o p => put p.1 p.2 o) os).map Prod.fst).Nodup := by
    intro qs
    induction qs with
    | nil => exact fun _ hos => hos
    | cons q qs ih => exact fun os hos => ih _ (nodup_put hos q.2)
  exact hfold ps [] List.nodup_nil

/-- A name comes after all that are there. -/
theorem Listed.put {key : String} {ps : List (String × V)} (h : Listed ps)
    (hkey : arrayIndex? key = none) (v : V) : Listed (put key v ps) := by
  unfold Listed
  rw [put_keys]
  split
  · exact h
  · rename_i hnot
    refine List.pairwise_append.mpr ⟨h, List.pairwise_singleton _ _, fun k hk l hl => ?_⟩
    obtain rfl := List.mem_singleton.mp hl
    unfold KeyBefore
    rw [hkey]
    split
    · trivial
    · trivial
    · trivial
    · rintro rfl
      exact hnot hk

theorem arrayIndex?_toDigits {key : String} {n : Nat} (h : arrayIndex? key = some n) :
    Nat.toDigits 10 n = key.toList := by
  unfold arrayIndex? at h
  split at h
  · dsimp only at h
    split at h
    · rename_i hn
      cases h
      exact hn.2
    · cases h
  · cases h

theorem arrayIndex?_inj {k l : String} {n : Nat} (hk : arrayIndex? k = some n)
    (hl : arrayIndex? l = some n) : k = l :=
  String.toList_inj.mp ((arrayIndex?_toDigits hk).symm.trans (arrayIndex?_toDigits hl))

theorem enumerate_perm (ps : List (String × V)) : (enumerate ps).Perm ps := by
  have hnone : (ps.filter fun p => (arrayIndex? p.1).isNone) =
      ps.filter fun p => !(arrayIndex? p.1).isSome :=
    List.filter_congr fun p _ => by cases arrayIndex? p.1 <;> rfl
  unfold enumerate
  rw [hnone]
  exact ((List.perm_insertionSort _ _).append_right _).trans (List.filter_append_perm _ ps)

/-- The properties are enumerated in order. -/
theorem listed_enumerate {ps : List (String × V)} (h : (ps.map Prod.fst).Nodup) :
    Listed (enumerate ps) := by
  have hnodup : (enumerate ps).Pairwise fun p q => p.1 ≠ q.1 :=
    List.pairwise_map.mp (((enumerate_perm ps).map Prod.fst).nodup_iff.mpr h)
  have hindex : ∀ p ∈ (ps.filter fun p => (arrayIndex? p.1).isSome).insertionSort IndexLe,
      ∃ n, arrayIndex? p.1 = some n := fun p hp =>
    Option.isSome_iff_exists.mp (List.mem_filter.mp ((List.mem_insertionSort _).mp hp)).2
  have hname : ∀ p ∈ ps.filter fun p => (arrayIndex? p.1).isNone, arrayIndex? p.1 = none :=
    fun p hp => Option.isNone_iff_eq_none.mp (List.mem_filter.mp hp).2
  unfold enumerate at hnodup
  obtain ⟨hindices, hnames, -⟩ := List.pairwise_append.mp hnodup
  refine List.pairwise_map.mpr (List.pairwise_append.mpr ⟨?_, ?_, fun p hp q hq => ?_⟩)
  · refine (hindices.and (List.pairwise_insertionSort IndexLe _)).imp_of_mem
      fun {p q} hp hq hpq => ?_
    obtain ⟨m, hm⟩ := hindex p hp
    obtain ⟨n, hn⟩ := hindex q hq
    obtain ⟨hne, hle⟩ := hpq
    unfold IndexLe at hle
    unfold KeyBefore
    rw [hm, hn] at hle ⊢
    refine lt_of_le_of_ne hle fun he => hne ?_
    exact arrayIndex?_inj hm (he ▸ hn)
  · refine hnames.imp_of_mem fun {p q} hp hq hne => ?_
    unfold KeyBefore
    rw [hname p hp, hname q hq]
    exact hne
  · obtain ⟨m, hm⟩ := hindex p hp
    unfold KeyBefore
    rw [hm, hname q hq]
    trivial

theorem mem_put {key : String} {v : V} {ps : List (String × V)} {p : String × V}
    (h : p ∈ put key v ps) : p = (key, v) ∨ p ∈ ps := by
  induction ps with
  | nil => exact .inl (List.mem_singleton.mp h)
  | cons q ps ih =>
    obtain ⟨k, w⟩ := q
    unfold put at h
    split at h
    · rename_i hk
      subst hk
      rcases List.mem_cons.mp h with h | h
      · exact .inl h
      · exact .inr (List.mem_cons_of_mem _ h)
    · rcases List.mem_cons.mp h with h | h
      · exact .inr (h ▸ List.mem_cons_self)
      · exact (ih h).imp id (List.mem_cons_of_mem _)

theorem mem_create {ps : List (String × V)} {p : String × V} (h : p ∈ create ps) :
    p ∈ ps := by
  have hfold : ∀ qs os : List (String × V), p ∈ qs.foldl (fun o p => put p.1 p.2 o) os →
      p ∈ os ∨ p ∈ qs := by
    intro qs
    induction qs with
    | nil => exact fun _ hos => .inl hos
    | cons q qs ih =>
      intro os hos
      rcases ih _ hos with h | h
      · rcases mem_put h with rfl | h
        · exact .inr List.mem_cons_self
        · exact .inl h
      · exact .inr (List.mem_cons_of_mem _ h)
  simpa using hfold ps [] h

end

/-! ### Writing and reading -/

mutual

/-- `SerializeJSONProperty`: nothing is written for `undefined`. -/
def toJson : JsValue → Option Json
  | .undefined => none
  | .null => some .null
  | .bool b => some (.bool b)
  | .num n => some (.num n)
  | .nonFinite _ => some .null
  | .str s => some (.str s)
  | .arr items => some (.arr (itemsJson items))
  | .obj properties => some (.obj (propertiesJson properties))

def itemsJson : List JsValue → List Json
  | [] => []
  | v :: items => (toJson v).getD .null :: itemsJson items

def propertiesJson : List (String × JsValue) → List (String × Json)
  | [] => []
  | (key, v) :: properties =>
    match toJson v with
    | some j => (key, j) :: propertiesJson properties
    | none => propertiesJson properties

end

/-- `JSON.stringify(value)`. -/
def jsonText (v : JsValue) : Option String := (toJson v).map stringify

/-- `JSON.stringify` of an object, which always has a text. -/
def objectText (properties : List (String × JsValue)) : String :=
  stringify (.obj (propertiesJson properties))

section
variable (F : NumberFormat)

mutual

/-- What is read of a value that the text spells. -/
def evaluate : Json → JsValue
  | .null => .null
  | .bool b => .bool b
  | .num n =>
    match F.read n with
    | some n => .num n
    | none => .nonFinite (.infinity (decide (n.mantissa < 0)))
  | .str s => .str s
  | .arr items => .arr (evaluateItems items)
  | .obj fields => .obj (enumerate (create (evaluateFields fields)))

def evaluateItems : List Json → List JsValue
  | [] => []
  | j :: items => evaluate j :: evaluateItems items

def evaluateFields : List (String × Json) → List (String × JsValue)
  | [] => []
  | (key, j) :: fields => (key, evaluate j) :: evaluateFields fields

end

/-- `JSON.parse(text)`. -/
def jsonParse (text : String) : Option JsValue := (parse text).map (evaluate F)

mutual

/-- The numbers are of the format, and the objects list their keys in order. -/
def Json.Proper : Json → Prop
  | .num n => F.IsNumber n
  | .arr items => ProperItems items
  | .obj fields => ProperFields fields ∧ Listed fields
  | _ => True

def ProperItems : List Json → Prop
  | [] => True
  | j :: items => j.Proper ∧ ProperItems items

def ProperFields : List (String × Json) → Prop
  | [] => True
  | (_, j) :: fields => j.Proper ∧ ProperFields fields

end

mutual

/-- A value there is: its numbers are of the format, and its objects list their keys in order. -/
def JsValue.Proper : JsValue → Prop
  | .num n => F.IsNumber n
  | .arr items => ProperValues items
  | .obj properties => ProperProperties properties ∧ Listed properties
  | _ => True

def ProperValues : List JsValue → Prop
  | [] => True
  | v :: items => v.Proper ∧ ProperValues items

def ProperProperties : List (String × JsValue) → Prop
  | [] => True
  | (_, v) :: properties => v.Proper ∧ ProperProperties properties

end

end

variable {F : NumberFormat}

theorem propertiesJson_keys_sublist : ∀ properties : List (String × JsValue),
    ((propertiesJson properties).map Prod.fst).Sublist (properties.map Prod.fst)
  | [] => .slnil
  | (key, v) :: properties => by
      have ih := propertiesJson_keys_sublist properties
      unfold propertiesJson
      split
      · exact ih.cons_cons key
      · exact ih.cons key

mutual

/-- What is written of a value there is. -/
theorem JsValue.Proper.toJson : ∀ {v : JsValue} {j : Json}, v.Proper F →
    JsonText.toJson v = some j → j.Proper F
  | .undefined, _, _, hj => by cases hj
  | .null, _, _, hj => by cases hj; trivial
  | .bool _, _, _, hj => by cases hj; trivial
  | .num _, _, h, hj => by cases hj; exact h
  | .nonFinite _, _, _, hj => by cases hj; trivial
  | .str _, _, _, hj => by cases hj; trivial
  | .arr items, _, h, hj => by cases hj; exact properItems_of_values h
  | .obj properties, _, h, hj => by
      cases hj
      exact ⟨properFields_of_properties h.1,
        List.Pairwise.sublist (propertiesJson_keys_sublist properties) h.2⟩

theorem properItems_of_values : ∀ {items : List JsValue}, ProperValues F items →
    ProperItems F (itemsJson items)
  | [], _ => trivial
  | v :: items, h => by
      refine ⟨?_, properItems_of_values h.2⟩
      cases hv : JsonText.toJson v with
      | none => trivial
      | some j => exact h.1.toJson hv

theorem properFields_of_properties : ∀ {properties : List (String × JsValue)},
    ProperProperties F properties → ProperFields F (propertiesJson properties)
  | [], _ => trivial
  | (key, v) :: properties, h => by
      have ih := properFields_of_properties h.2
      unfold propertiesJson
      cases hv : JsonText.toJson v with
      | none => exact ih
      | some j => exact ⟨h.1.toJson hv, ih⟩

end

theorem evaluateFields_keys (F : NumberFormat) (fields : List (String × Json)) :
    (evaluateFields F fields).map Prod.fst = fields.map Prod.fst := by
  induction fields with
  | nil => rfl
  | cons p fields ih =>
    obtain ⟨key, j⟩ := p
    simp [evaluateFields, ih]

/-- The properties of an object that was written in order are read in that order. -/
theorem evaluate_obj {fields : List (String × Json)} (h : Listed fields) :
    evaluate F (.obj fields) = .obj (evaluateFields F fields) := by
  have hlisted : Listed (evaluateFields F fields) := by
    unfold Listed
    rw [evaluateFields_keys]
    exact h
  rw [evaluate, create_of_nodup hlisted.nodup, enumerate_of_listed hlisted]

mutual

/-- **Written again**, a value that was read has the text it was read from. -/
theorem toJson_evaluate : ∀ {j : Json}, j.Proper F → toJson (evaluate F j) = some j
  | .null, _ => rfl
  | .bool _, _ => rfl
  | .num n, h => by rw [evaluate, F.read_number n h]; rfl
  | .str _, _ => rfl
  | .arr items, h => by rw [evaluate, toJson, itemsJson_evaluate h]
  | .obj fields, h => by rw [evaluate_obj h.2, toJson, propertiesJson_evaluate h.1]

theorem itemsJson_evaluate : ∀ {items : List Json}, ProperItems F items →
    itemsJson (evaluateItems F items) = items
  | [], _ => rfl
  | j :: items, h => by
      rw [evaluateItems, itemsJson, toJson_evaluate h.1, itemsJson_evaluate h.2]
      rfl

theorem propertiesJson_evaluate : ∀ {fields : List (String × Json)}, ProperFields F fields →
    propertiesJson (evaluateFields F fields) = fields
  | [], _ => rfl
  | (key, j) :: fields, h => by
      rw [evaluateFields, propertiesJson, toJson_evaluate h.1, propertiesJson_evaluate h.2]

end

/-- **Reading back.**  What is read of a text that was written for a value. -/
theorem jsonParse_stringify (F : NumberFormat) (j : Json) :
    jsonParse F (stringify j) = some (evaluate F j) := by
  rw [jsonParse, parse_stringify, Option.map_some]

/-! ### What is read -/

/-- What is read is a number of the format. -/
structure RoundingFormat extends NumberFormat where
  isNumber_read : ∀ n m, read n = some m → IsNumber m

section
variable (F : RoundingFormat)

theorem properProperties_iff {G : NumberFormat} : ∀ {ps : List (String × JsValue)},
    ProperProperties G ps ↔ ∀ p ∈ ps, p.2.Proper G
  | [] => by simp [ProperProperties]
  | (key, v) :: ps => by
      rw [ProperProperties, properProperties_iff, List.forall_mem_cons]

mutual

/-- **What is read is a value there is.** -/
theorem evaluate_proper : ∀ j : Json, (evaluate F.toNumberFormat j).Proper F.toNumberFormat
  | .null | .bool _ | .str _ => by
      rw [evaluate]
      trivial
  | .num n => by
      rw [evaluate]
      cases hn : F.read n with
      | some m => exact F.isNumber_read n m hn
      | none => trivial
  | .arr items => by
      rw [evaluate]
      exact evaluateItems_proper items
  | .obj fields => by
      rw [evaluate]
      refine ⟨properProperties_iff.mpr fun p hp => ?_, listed_enumerate (nodup_create _)⟩
      exact evaluateFields_proper fields p (mem_create ((enumerate_perm _).mem_iff.mp hp))

theorem evaluateItems_proper : ∀ items : List Json,
    ProperValues F.toNumberFormat (evaluateItems F.toNumberFormat items)
  | [] => trivial
  | j :: items => ⟨evaluate_proper j, evaluateItems_proper items⟩

theorem evaluateFields_proper : ∀ fields : List (String × Json),
    ∀ p ∈ evaluateFields F.toNumberFormat fields, p.2.Proper F.toNumberFormat
  | [], _, hp => nomatch hp
  | (key, j) :: fields, p, hp => by
      rw [evaluateFields] at hp
      rcases List.mem_cons.mp hp with rfl | hp
      · exact evaluate_proper j
      · exact evaluateFields_proper fields p hp

end

end

/-! ### Properties that are defined -/

/-- The properties that are not `undefined`. -/
def defined (properties : List (String × JsValue)) : List (String × JsValue) :=
  properties.filter fun p => !p.2.isUndefined

theorem lookup_eq_none_of_notMem {V : Type} {key : String} {ps : List (String × V)}
    (h : key ∉ ps.map Prod.fst) : ps.lookup key = none := by
  rw [List.lookup_eq_none_iff]
  intro p hp
  have hne : key ≠ p.1 := fun e => h (e ▸ List.mem_map_of_mem hp)
  simpa using hne

theorem notMem_of_lookup_eq_none {V : Type} {key : String} {ps : List (String × V)}
    (h : ps.lookup key = none) : key ∉ ps.map Prod.fst := by
  intro hmem
  obtain ⟨p, hp, rfl⟩ := List.mem_map.mp hmem
  simpa using List.lookup_eq_none_iff.mp h p hp

theorem lookup_eq_some_iff_mem {V : Type} {key : String} {v : V} {ps : List (String × V)}
    (h : (ps.map Prod.fst).Nodup) : ps.lookup key = some v ↔ (key, v) ∈ ps := by
  constructor
  · intro hlookup
    obtain ⟨front, back, rfl, -⟩ := List.lookup_eq_some_iff.mp hlookup
    exact List.mem_append_right _ (List.mem_cons_self ..)
  · intro hmem
    obtain ⟨front, back, rfl⟩ := List.append_of_mem hmem
    refine List.lookup_eq_some_iff.mpr ⟨front, back, rfl, fun p hp => ?_⟩
    rw [List.map_append, List.nodup_append] at h
    have hne := h.2.2 p.1 (List.mem_map_of_mem hp) key (by simp)
    exact bne_iff_ne.mpr hne.symm

/-- Leaving out what is undefined changes no property. -/
theorem get_defined {properties : List (String × JsValue)}
    (h : (properties.map Prod.fst).Nodup) (key : String) :
    (JsValue.obj (defined properties)).get key =
      (properties.lookup key).getD .undefined := by
  induction properties with
  | nil => rfl
  | cons p properties ih =>
    obtain ⟨k, v⟩ := p
    obtain ⟨hk, h⟩ := List.nodup_cons.mp h
    have ih := ih h
    unfold JsValue.get defined at ih ⊢
    dsimp only at ih ⊢
    cases hv : v.isUndefined with
    | false =>
      rw [List.filter_cons_of_pos (by simp [hv]), List.lookup_cons, List.lookup_cons]
      split
      · rfl
      · exact ih
    | true =>
      rw [List.filter_cons_of_neg (by simp [hv]), ih, List.lookup_cons]
      split
      · rename_i heq
        have hkey : key = k := by simpa using heq
        subst hkey
        have hv' : v = .undefined := by
          cases v <;> first | rfl | cases hv
        rw [lookup_eq_none_of_notMem hk, hv']
        rfl
      · rfl

theorem toJson_eq_none {v : JsValue} : toJson v = none ↔ v.isUndefined = true := by
  cases v <;> simp [toJson, JsValue.isUndefined]

theorem evaluate_isUndefined (j : Json) : (evaluate F j).isUndefined = false := by
  cases j with
  | num n =>
    rw [evaluate]
    split <;> rfl
  | null | bool | str | arr | obj => simp [evaluate, JsValue.isUndefined]

/-- Leaving out what is undefined changes no text. -/
theorem propertiesJson_defined (properties : List (String × JsValue)) :
    propertiesJson (defined properties) = propertiesJson properties := by
  induction properties with
  | nil => rfl
  | cons p properties ih =>
    obtain ⟨key, v⟩ := p
    unfold defined at ih ⊢
    cases hv : v.isUndefined with
    | true =>
      rw [List.filter_cons_of_neg (by simp [hv]), ih, propertiesJson,
        toJson_eq_none.mpr hv]
    | false => rw [List.filter_cons_of_pos (by simp [hv]), propertiesJson, propertiesJson, ih]

/-! ### The value that is read -/

section
variable (F : NumberFormat)

/-- The value that is read where this one was written. -/
def received (v : JsValue) : JsValue := (toJson v).elim .undefined (evaluate F)

end

/-- The properties of an object are read one by one. -/
theorem evaluateFields_propertiesJson (properties : List (String × JsValue)) :
    evaluateFields F (propertiesJson properties) =
      defined (properties.map fun p => (p.1, received F p.2)) := by
  induction properties with
  | nil => rfl
  | cons p properties ih =>
    obtain ⟨key, v⟩ := p
    unfold defined at ih ⊢
    rw [List.map_cons, propertiesJson]
    cases hv : toJson v with
    | none =>
      rw [List.filter_cons_of_neg (by simp [received, hv, JsValue.isUndefined]), ih]
    | some j =>
      rw [List.filter_cons_of_pos (by simp [received, hv, evaluate_isUndefined]),
        evaluateFields, ih]
      simp [received, hv]

/-- Different names, none of which is an array index. -/
def Names (keys : List String) : Prop := (∀ k ∈ keys, arrayIndex? k = none) ∧ keys.Nodup

instance (keys : List String) : Decidable (Names keys) :=
  inferInstanceAs (Decidable (_ ∧ _))

/-- Names are listed as they come. -/
theorem Names.listed {V : Type} {ps : List (String × V)} {keys : List String} (h : Names keys)
    (hkeys : ps.map Prod.fst = keys) : Listed ps := by
  subst hkeys
  refine List.Pairwise.imp_of_mem (fun {k l} hk hl hne => ?_) h.2
  unfold KeyBefore
  rw [h.1 k hk, h.1 l hl]
  exact hne

/-- An object of listed properties is read property by property. -/
theorem received_obj {properties : List (String × JsValue)} (h : Listed properties) :
    received F (.obj properties) =
      .obj (defined (properties.map fun p => (p.1, received F p.2))) := by
  have hlisted : Listed (propertiesJson properties) :=
    List.Pairwise.sublist (propertiesJson_keys_sublist properties) h
  change evaluate F (.obj (propertiesJson properties)) = _
  rw [evaluate_obj hlisted, evaluateFields_propertiesJson]

theorem toJson_received {v : JsValue} (h : v.Proper F) : toJson (received F v) = toJson v := by
  unfold received
  cases hv : toJson v with
  | none => rfl
  | some j => exact toJson_evaluate (h.toJson hv)

theorem received_ofInt {d : Int} (h : d.natAbs < 9007199254740992) :
    received F (.num (.ofInt d)) = .num (.ofInt d) := by
  change evaluate F (.num (.ofInt d)) = _
  rw [evaluate, F.read_number _ (F.isNumber_ofInt d h)]

/-- An object whose values are read as they were written is, too. -/
theorem received_defined {properties : List (String × JsValue)} (h : Listed properties)
    (hv : ∀ p ∈ properties, received F p.2 = p.2) :
    received F (.obj (defined properties)) = .obj (defined properties) := by
  have hmap : (defined properties).map (fun p => (p.1, received F p.2)) = defined properties := by
    refine (List.map_congr_left fun p hp => ?_).trans (List.map_id _)
    rw [hv p (List.mem_of_mem_filter hp)]
    rfl
  have hlisted : Listed (defined properties) := h.sublist List.filter_sublist
  rw [received_obj hlisted, hmap]
  unfold defined
  simp only [List.filter_filter, Bool.and_self]

/-! ### What a text says -/

theorem lookup_propertiesJson {properties : List (String × JsValue)}
    (h : (properties.map Prod.fst).Nodup) (key : String) :
    (propertiesJson properties).lookup key = (properties.lookup key).bind toJson := by
  induction properties with
  | nil => rfl
  | cons p properties ih =>
    obtain ⟨k, v⟩ := p
    obtain ⟨hk, h⟩ := List.nodup_cons.mp h
    have ih := ih h
    rw [propertiesJson, List.lookup_cons]
    cases hv : toJson v with
    | some j =>
      dsimp only
      rw [List.lookup_cons]
      split
      · exact hv.symm
      · exact ih
    | none =>
      dsimp only
      rw [ih]
      split
      · rename_i heq
        have hkey : key = k := by simpa using heq
        subst hkey
        rw [lookup_eq_none_of_notMem hk]
        exact hv.symm
      · rfl

theorem toJson_str {s t : String} (h : toJson (.str s) = toJson (.str t)) : s = t := by
  simpa [toJson] using h

theorem toJson_ofInt {c d : Int}
    (h : toJson (.num (.ofInt c)) = toJson (.num (.ofInt d))) : c = d := by
  refine Number.ofInt_injective ?_
  simpa [toJson] using h

/-! ### Values that JSON can say -/

mutual

/-- There is a text for everything in the value. -/
def JsValue.Lossless : JsValue → Prop
  | .undefined | .nonFinite _ => False
  | .arr items => LosslessValues items
  | .obj properties => LosslessProperties properties
  | _ => True

def LosslessValues : List JsValue → Prop
  | [] => True
  | v :: items => v.Lossless ∧ LosslessValues items

def LosslessProperties : List (String × JsValue) → Prop
  | [] => True
  | (_, v) :: properties => v.Lossless ∧ LosslessProperties properties

end

/-- What is left out is missing. -/
theorem evaluateFields_propertiesJson_ne {key : String} {v : JsValue}
    {properties : List (String × JsValue)} :
    evaluateFields F (propertiesJson properties) ≠ (key, v) :: properties := by
  intro heq
  have hlength : (propertiesJson properties).length = properties.length + 1 := by
    have hkeys := congrArg (fun ps => (ps.map Prod.fst).length) heq
    simpa [evaluateFields_keys] using hkeys
  have hle := (propertiesJson_keys_sublist properties).length_le
  rw [List.length_map, List.length_map] at hle
  omega

mutual

/-- **What is read again** of a value that was written is this value, if JSON can say it. -/
theorem reread_iff : ∀ {v : JsValue}, v.Proper F →
    ((toJson v).map (evaluate F) = some v ↔ v.Lossless)
  | .undefined, _ => iff_of_false (fun h => by cases h) id
  | .null, _ => iff_of_true rfl trivial
  | .bool _, _ => iff_of_true rfl trivial
  | .num n, h => by
      refine iff_of_true ?_ trivial
      rw [toJson, Option.map_some, evaluate, F.read_number n h]
  | .nonFinite _, _ => iff_of_false (fun h => by cases Option.some.inj h) id
  | .str _, _ => iff_of_true rfl trivial
  | .arr items, h => by
      rw [toJson, Option.map_some, evaluate, Option.some_inj, JsValue.arr.injEq]
      exact rereadItems_iff h
  | .obj properties, h => by
      have hlisted : Listed (propertiesJson properties) :=
        List.Pairwise.sublist (propertiesJson_keys_sublist properties) h.2
      rw [toJson, Option.map_some, evaluate_obj hlisted, Option.some_inj, JsValue.obj.injEq]
      exact rereadProperties_iff h.1

theorem rereadItems_iff : ∀ {items : List JsValue}, ProperValues F items →
    (evaluateItems F (itemsJson items) = items ↔ LosslessValues items)
  | [], _ => iff_of_true rfl trivial
  | v :: items, h => by
      rw [itemsJson, evaluateItems, List.cons.injEq, rereadItems_iff h.2, LosslessValues,
        ← reread_iff h.1]
      refine and_congr_left' ?_
      cases hv : toJson v with
      | none =>
        refine iff_of_false (fun hnull => ?_) (fun h => by cases h)
        rw [← hnull] at hv
        cases hv
      | some j => rw [Option.getD_some, Option.map_some, Option.some_inj]

theorem rereadProperties_iff : ∀ {properties : List (String × JsValue)},
    ProperProperties F properties →
    (evaluateFields F (propertiesJson properties) = properties ↔ LosslessProperties properties)
  | [], _ => iff_of_true rfl trivial
  | (key, v) :: properties, h => by
      rw [LosslessProperties, ← reread_iff h.1, ← rereadProperties_iff h.2, propertiesJson]
      cases hv : toJson v with
      | none => exact iff_of_false evaluateFields_propertiesJson_ne (fun h => by cases h.1)
      | some j =>
        rw [evaluateFields, List.cons.injEq, Prod.mk.injEq, Option.map_some, Option.some_inj,
          and_iff_right rfl]

end

end JsonText
