import Mathlib.Data.List.Induction

/-!
# Library — hash chains

A hash chain over an arbitrary hash `hash : H → C → H` is a list of links; a link records the
hash before it, its own hash and its content, or no content where the content was scrubbed.

* `Linked p L`: each link names the hash of the link before it, the first one names `p`.
* `Intact hash p L`: `L` is linked from `p`, and each link that still has its content has the
  hash of that content.
* `Link.Made hash`: some content, kept or scrubbed, accounts for the link's hash.

`linked_filter_iff` says which subsequences of a chain are chains; `agree_of_gap` and
`content_eq` say how much of a chain its last hash commits to when `hash` is injective.
-/

namespace HashChain

universe u v
variable {H : Type u} {C : Type v}

structure Link (H : Type u) (C : Type v) where
  prev : H
  content : Option C
  hash : H

/-- Each link names the hash of the link before it. -/
def Linked : H → List (Link H C) → Prop
  | _, [] => True
  | p, l :: L => l.prev = p ∧ Linked l.hash L

/-- The hash the next link has to name. -/
def tip : H → List (Link H C) → H
  | p, [] => p
  | _, l :: L => tip l.hash L

/-- A link that has its content has the hash of it. -/
def Link.Faithful (hash : H → C → H) (l : Link H C) : Prop :=
  ∀ c, l.content = some c → l.hash = hash l.prev c

/-- Some content accounts for the link's hash. -/
def Link.Made (hash : H → C → H) (l : Link H C) : Prop :=
  ∃ c, l.hash = hash l.prev c

structure Intact (hash : H → C → H) (p : H) (L : List (Link H C)) : Prop where
  linked : Linked p L
  faithful : ∀ l ∈ L, l.Faithful hash

variable {hash : H → C → H} {p q : H} {L M : List (Link H C)}

@[simp] theorem linked_nil : Linked p ([] : List (Link H C)) := trivial

@[simp] theorem linked_cons {l : Link H C} : Linked p (l :: L) ↔ l.prev = p ∧ Linked l.hash L :=
  Iff.rfl

@[simp] theorem tip_nil : tip p ([] : List (Link H C)) = p := rfl

@[simp] theorem tip_cons {l : Link H C} : tip p (l :: L) = tip l.hash L := rfl

theorem tip_append : ∀ {p : H} {L : List (Link H C)}, tip p (L ++ M) = tip (tip p L) M
  | _, [] => rfl
  | _, l :: L => tip_append (p := l.hash) (L := L)

theorem linked_append :
    ∀ {p : H} {L : List (Link H C)}, Linked p (L ++ M) ↔ Linked p L ∧ Linked (tip p L) M
  | _, [] => by simp
  | _, l :: L => by
      simp only [List.cons_append, linked_cons, tip_cons, linked_append, and_assoc]

/-- The tip is the start or the hash of a link. -/
theorem tip_mem : ∀ {p : H} {L : List (Link H C)}, tip p L ∈ p :: L.map Link.hash
  | _, [] => by simp
  | p, l :: L => List.mem_cons_of_mem p (tip_mem (p := l.hash) (L := L))

theorem Linked.prev_mem :
    ∀ {p : H} {L : List (Link H C)}, Linked p L → ∀ l ∈ L, l.prev ∈ p :: L.map Link.hash
  | _, [], _, l, hl => by simp at hl
  | p, m :: L, h, l, hl => by
      rcases List.mem_cons.mp hl with rfl | hl
      · simp [h.1]
      · exact List.mem_cons_of_mem _ (Linked.prev_mem h.2 l hl)

/-- Links rewritten without touching their hashes. -/
def SameHashes (l m : Link H C) : Prop := m.prev = l.prev ∧ m.hash = l.hash

theorem Linked.rewrite : ∀ {p : H} {L M : List (Link H C)},
    List.Forall₂ SameHashes L M → Linked p L → Linked p M
  | _, _, _, .nil, _ => trivial
  | _, _, _, .cons h hs, hL => by
      refine ⟨h.1.trans hL.1, Linked.rewrite hs ?_⟩
      rw [h.2]; exact hL.2

theorem tip_rewrite : ∀ {p : H} {L M : List (Link H C)},
    List.Forall₂ SameHashes L M → tip p M = tip p L
  | _, _, _, .nil => rfl
  | _, _, _, .cons h hs => by rw [tip_cons, tip_cons, tip_rewrite hs, h.2]

/-! ### Distinct hashes -/

/-- The hashes of a chain are distinct, and none is its start, when the hash is injective in
the hash before and never the start. -/
theorem Linked.nodup (hinj : ∀ a c a' c', hash a c = hash a' c' → a = a')
    (hstart : ∀ a c, hash a c ≠ p) (hL : Linked p L) (hmade : ∀ l ∈ L, l.Made hash) :
    (p :: L.map Link.hash).Nodup := by
  induction L using List.reverseRecOn with
  | nil => simp
  | append_singleton L l ih =>
    obtain ⟨hL, hl, -⟩ := linked_append.mp hL
    have hnd := ih hL fun m hm => hmade m (by simp [hm])
    obtain ⟨c, hc⟩ := hmade l (by simp)
    have hfresh : l.hash ∉ p :: L.map Link.hash := by
      intro hmem
      rcases List.mem_cons.mp hmem with h | h
      · exact hstart _ _ (hc.symm.trans h)
      obtain ⟨m, hm, hmh⟩ := List.mem_map.mp h
      obtain ⟨c', hc'⟩ := hmade m (by simp [hm])
      have hprev : m.prev = tip p L :=
        (hinj _ _ _ _ (hc'.symm.trans (hmh.trans hc))).trans hl
      -- `m` sits strictly before the tip, so its `prev` is a hash from before `m`
      obtain ⟨A, B, rfl⟩ := List.append_of_mem hm
      obtain ⟨hA, hmp, -⟩ := linked_append.mp hL
      rw [tip_append, tip_cons, hmp] at hprev
      have h₁ : tip p A ∈ p :: A.map Link.hash := tip_mem
      have h₂ : tip p A ∈ (m :: B).map Link.hash := hprev ▸ tip_mem
      rw [List.map_append, ← List.cons_append] at hnd
      exact (List.nodup_append.mp hnd).2.2 _ h₁ _ h₂ rfl
    rw [List.map_append, ← List.cons_append]
    refine List.nodup_append.mpr ⟨hnd, by simp, fun a ha b hb hab => hfresh ?_⟩
    rw [List.map_singleton, List.mem_singleton] at hb
    exact hb ▸ hab ▸ ha

/-! ### Subsequences -/

/-- **The subsequences of a chain that are chains.**  Let a list be read as a chain with distinct
hashes.  The members selected by `b` form a chain from the same start exactly when no selected
member comes after one that is not selected. -/
theorem linked_filter_iff {α : Type*} {f : α → Link H C} {b : α → Bool} :
    ∀ {p : H} {xs : List α}, Linked p (xs.map f) → (p :: (xs.map f).map Link.hash).Nodup →
      (Linked p ((xs.filter b).map f) ↔ xs.Pairwise fun x y => b y = true → b x = true)
  | _, [], _, _ => by simp
  | p, x :: xs, hL, hnd => by
      have ih : Linked (f x).hash ((xs.filter b).map f) ↔ _ :=
        linked_filter_iff hL.2 (List.nodup_cons.mp hnd).2
      by_cases hx : b x = true
      · rw [List.filter_cons_of_pos hx, List.map_cons, linked_cons, ih, List.pairwise_cons]
        exact ⟨fun h => ⟨fun _ _ _ => hx, h.2⟩, fun h => ⟨hL.1, h.2⟩⟩
      rw [List.filter_cons_of_neg hx, List.pairwise_cons]
      -- with `x` left out, the first selected member names a hash that is not `p`
      have none_iff : Linked p ((xs.filter b).map f) ↔ ∀ y ∈ xs, ¬ b y = true := by
        refine ⟨fun h y hy hby => ?_, fun h => by simp [List.filter_eq_nil_iff.mpr h]⟩
        cases hf : xs.filter b with
        | nil => exact absurd hby (List.filter_eq_nil_iff.mp hf y hy)
        | cons k ks =>
          rw [hf] at h
          have hk : k ∈ xs := (List.mem_filter.mp (hf ▸ List.mem_cons_self)).1
          have hprev := hL.2.prev_mem (f k) (List.mem_map_of_mem hk)
          rw [h.1] at hprev
          exact (List.nodup_cons.mp hnd).1 (by simpa using hprev)
      refine none_iff.trans ⟨fun h => ⟨fun y hy hby => absurd hby (h y hy), ?_⟩,
        fun h y hy hby => hx (h.1 y hy hby)⟩
      exact List.pairwise_of_forall_mem_list fun _ _ y hy hby => absurd hby (h y hy)

/-! ### What the last hash commits to -/

/-- The first link of a list whose content is gone. -/
def gap (L : List (Link H C)) : Option (Link H C) :=
  L.find? fun l => l.content.isNone

/-- Two intact chains with their gaps at the same places, the same tip and the same hash before
their first gap start at the same hash. -/
theorem agree_of_gap (hinj : ∀ a c a' c', hash a c = hash a' c' → a = a' ∧ c = c') :
    ∀ {p p' : H} {L L' : List (Link H C)}, Intact hash p L → Intact hash p' L' →
      L.map (·.content.isNone) = L'.map (·.content.isNone) →
      (gap L).map Link.prev = (gap L').map Link.prev → tip p L = tip p' L' → p = p'
  | _, _, [], [], _, _, _, _, ht => ht
  | _, _, [], _ :: _, _, _, hs, _, _ => by simp at hs
  | _, _, _ :: _, [], _, _, hs, _, _ => by simp at hs
  | p, p', l :: L, l' :: L', hL, hL', hs, hg, ht => by
      rw [List.map_cons, List.map_cons, List.cons.injEq] at hs
      have hp := hL.linked.1
      have hp' := hL'.linked.1
      cases hc : l.content with
      | none =>
        -- the first gap: both chains carry the hash before it
        have hc' : l'.content.isNone := by rw [← hs.1, hc]; rfl
        simp only [gap, List.find?_cons, hc, hc', Option.isNone_none] at hg
        simpa [hp, hp'] using hg
      | some c =>
        have hn : l'.content.isNone = false := by rw [← hs.1, hc]; rfl
        obtain ⟨c', hc'⟩ := Option.isSome_iff_exists.mp (Option.isNone_eq_false_iff.mp hn)
        have hh : l.hash = l'.hash :=
          agree_of_gap hinj ⟨hL.linked.2, fun m hm => hL.faithful m (by simp [hm])⟩
            ⟨hL'.linked.2, fun m hm => hL'.faithful m (by simp [hm])⟩ hs.2
            (by simpa [gap, List.find?_cons, hc, hc'] using hg) ht
        rw [hL.faithful l (by simp) c hc, hL'.faithful l' (by simp) c' hc'] at hh
        exact hp.symm.trans ((hinj _ _ _ _ hh).1.trans hp')

theorem Intact.of_append {L M : List (Link H C)} (h : Intact hash p (L ++ M)) :
    Intact hash (tip p L) M :=
  ⟨(linked_append.mp h.linked).2, fun l hl => h.faithful l (by simp [hl])⟩

/-- **Commitment.**  In two intact chains with their gaps at the same places and the same last
hash, the link after `A` and the link after `A'`, at the same place, have the same content when
the first gap after them carries the same hash before it. -/
theorem content_eq (hinj : ∀ a c a' c', hash a c = hash a' c' → a = a' ∧ c = c') {p' : H}
    {A A' R R' : List (Link H C)} {l l' : Link H C} (hL : Intact hash p (A ++ l :: R))
    (hL' : Intact hash p' (A' ++ l' :: R'))
    (hs : R.map (·.content.isNone) = R'.map (·.content.isNone))
    (hg : (gap R).map Link.prev = (gap R').map Link.prev)
    (ht : tip p (A ++ l :: R) = tip p' (A' ++ l' :: R')) {c c' : C}
    (hc : l.content = some c) (hc' : l'.content = some c') : c = c' := by
  have hl := hL.of_append
  have hl' := hL'.of_append
  rw [tip_append, tip_append, tip_cons, tip_cons] at ht
  have hh : l.hash = l'.hash :=
    agree_of_gap hinj ⟨hl.linked.2, fun m hm => hl.faithful m (by simp [hm])⟩
      ⟨hl'.linked.2, fun m hm => hl'.faithful m (by simp [hm])⟩ hs hg ht
  rw [hl.faithful l (by simp) c hc, hl'.faithful l' (by simp) c' hc'] at hh
  exact (hinj _ _ _ _ hh).2

end HashChain
