import Mathlib.Data.List.Perm.Subperm
import Mathlib.Data.List.Sort

/-!
# Library — pages behind a cursor

A reader shows rows page by page.  The first page is cut off rows that are read without a cursor,
and every other one off a window of rows that is read again each time: the rows that are older than
the cursor, which is made of the last row of the page before.

* `Reader.Follows`: the pages that are had by following the cursors until there is none.
* `Reader.Covered`: the windows hold what is due, and no cut falls between rows that the cursor
  puts the other way.
* `Reader.follows_iff`: the pages together are the rows exactly if they are covered.
-/

namespace Paging

variable {α κ : Type}

/-- Sorting leaves what is left out of a list out of its place only. -/
theorem insertionSort_sublist (r : α → α → Prop) [DecidableRel r] [Std.Total r] [IsTrans α r]
    {as bs : List α} (h : as.Sublist bs) : (as.insertionSort r).Sublist (bs.insertionSort r) := by
  induction h with
  | slnil => exact List.Sublist.refl _
  | cons b _ ih => exact ih.trans (List.sublist_orderedInsert b _)
  | cons_cons b _ ih =>
    exact List.Sublist.orderedInsert_sublist b ih (List.pairwise_insertionSort r _)

structure Reader (α κ : Type) where
  /-- What is read without a cursor. -/
  first : List α
  /-- What is read with one. -/
  window : List α
  cursorOf : α → κ
  older : κ → α → Bool
  limit : Nat

namespace Reader
variable (r : Reader α κ)

/-- The rows that a page is cut off. -/
def found : Option κ → List α
  | none => r.first
  | some cursor => r.window.filter (r.older cursor)

/-- The rows of a page, and the cursor of the next one if more rows were found. -/
def page (cursor : Option κ) : List α × Option κ :=
  let rows := (r.found cursor).take r.limit
  (rows, if r.limit < (r.found cursor).length then rows.getLast?.map r.cursorOf else none)

/-- The pages from a cursor on, until there is no next one. -/
inductive Follows : Option κ → List (List α) → Prop
  | last {cursor : Option κ} {rows : List α} (h : r.page cursor = (rows, none)) :
      Follows cursor [rows]
  | next {cursor : Option κ} {next : κ} {rows : List α} {pages : List (List α)}
      (h : r.page cursor = (rows, some next)) (hnext : Follows (some next) pages) :
      Follows cursor (rows :: pages)

/-- The rows before a cut are not older than the last of them, and the rows after it are. -/
def Cut (rows : List α) (k : Nat) : Prop :=
  ∀ last, rows[k - 1]? = some last →
    (∀ a ∈ rows.take k, r.older (r.cursorOf last) a = false) ∧
      ∀ a ∈ rows.drop k, r.older (r.cursorOf last) a = true

/-- What the pages need to be the rows. -/
structure Covered (rows : List α) : Prop where
  first : r.first.take r.limit = rows.take r.limit
  more : r.limit < r.first.length ↔ r.limit < rows.length
  window : ∀ a ∈ rows.drop r.limit, a ∈ r.window
  cuts : ∀ k, 0 < k → k * r.limit < rows.length → r.Cut rows (k * r.limit)

/-- The cursors are in order, and the window is in the order of the rows. -/
structure Ordered (rows : List α) : Prop where
  positive : 0 < r.limit
  irrefl : ∀ a, r.older (r.cursorOf a) a = false
  trans : ∀ {c a b}, r.older c a = true → r.older (r.cursorOf a) b = true → r.older c b = true
  first : r.first.Sublist rows
  sublist : r.window.Sublist rows
  nodup : rows.Nodup
  /-- What is read first is read again, or the rows are in the order of the cursors. -/
  again : (∀ a ∈ r.first, a ∈ r.window) ∨
    rows.Pairwise fun a b => r.older (r.cursorOf b) a = false

/-! ### A page -/

section
variable {r} {rows found : List α} {cursor : Option κ} {c : κ} {pages : List (List α)}

/-- The last page, or a full one with the cursor of its last row. -/
theorem page_cases (hpos : 0 < r.limit) (cursor : Option κ) :
    ((r.found cursor).length ≤ r.limit ∧ r.page cursor = (r.found cursor, none)) ∨
      (r.limit < (r.found cursor).length ∧ ∃ last, (r.found cursor)[r.limit - 1]? = some last ∧
        r.page cursor = ((r.found cursor).take r.limit, some (r.cursorOf last))) := by
  by_cases hmore : r.limit < (r.found cursor).length
  · have hbound : r.limit - 1 < (r.found cursor).length := by omega
    refine Or.inr ⟨hmore, _, List.getElem?_eq_getElem hbound, ?_⟩
    have hlast : ((r.found cursor).take r.limit).getLast? = some (r.found cursor)[r.limit - 1] := by
      rw [List.getLast?_eq_getElem?, List.length_take_of_le hmore.le,
        List.getElem?_take_of_lt (by omega), List.getElem?_eq_getElem hbound]
    rw [page, hlast, if_pos hmore]
    rfl
  · refine Or.inl ⟨not_lt.mp hmore, ?_⟩
    rw [page, if_neg hmore, List.take_of_length_le (not_lt.mp hmore)]

/-- What is found after a row that was found is found with it. -/
theorem found_sublist (h : r.Ordered rows) {last : α} (hlast : last ∈ r.found (some c)) :
    (r.found (some (r.cursorOf last))).Sublist (r.found (some c)) := by
  have holder : r.older c last = true := (List.mem_filter.mp hlast).2
  have hfilter : r.found (some (r.cursorOf last)) =
      (r.found (some c)).filter (r.older (r.cursorOf last)) := by
    simp only [found, List.filter_filter]
    refine List.filter_congr fun b _ => ?_
    cases hb : r.older (r.cursorOf last) b with
    | false => rfl
    | true => rw [h.trans holder hb, Bool.and_self]
  rw [hfilter]
  exact List.filter_sublist

/-- The pages start with what is found. -/
theorem Follows.head (hpos : 0 < r.limit) (h : r.Follows cursor pages) {a : α}
    (ha : (r.found cursor).head? = some a) : a ∈ pages.flatten := by
  have hpage : a ∈ (r.page cursor).1 := by
    rw [page]
    refine List.mem_of_head? ?_
    rw [List.head?_take, if_neg (by omega)]
    exact ha
  cases h with
  | last h =>
    rw [h] at hpage
    simpa using hpage
  | next h =>
    rw [h] at hpage
    rw [List.flatten_cons]
    exact List.mem_append_left _ hpage

/-- Rows that are found among those of a page and of the pages that follow are among the latter. -/
theorem Follows.sublist_rest (hpos : 0 < r.limit) (h : r.Follows cursor pages)
    (hnodup : (rows ++ pages.flatten).Nodup)
    (hsub : (r.found cursor).Sublist (rows ++ pages.flatten)) :
    (r.found cursor).Sublist pages.flatten := by
  obtain ⟨before, after, hfound, hbefore, hafter⟩ := List.sublist_append_iff.mp hsub
  cases before with
  | nil => rwa [hfound]
  | cons a before =>
    have hhead : a ∈ pages.flatten := h.head hpos (by rw [hfound]; rfl)
    exact absurd hhead (List.disjoint_of_nodup_append hnodup (hbefore.subset List.mem_cons_self))

theorem succ_mul_pred {l j : Nat} (hpos : 0 < l) (hj : 0 < j) :
    (j + 1) * l - 1 = l + (j * l - 1) := by
  have hone : 0 < j * l := Nat.mul_pos hj hpos
  rw [Nat.succ_mul]
  omega

/-- The pages from a cursor on are what is found with it if they hold it, each once; and what is
found with the cursor of any page of them is what comes after it. -/
theorem Follows.exact (h : r.Ordered rows) (hfollows : r.Follows cursor pages) :
    ∀ c, cursor = some c → pages.flatten.Nodup → (r.found cursor).Sublist pages.flatten →
      pages.flatten = r.found cursor ∧
        ∀ k, 0 < k → k * r.limit < pages.flatten.length → ∀ last,
          pages.flatten[k * r.limit - 1]? = some last →
            r.found (some (r.cursorOf last)) = pages.flatten.drop (k * r.limit) := by
  induction hfollows with
  | @last cursor page hpage =>
    rintro c rfl hnodup hsub
    rcases page_cases h.positive (some c) with ⟨hshort, heq⟩ | ⟨-, last, -, heq⟩
    · obtain ⟨rfl, -⟩ := Prod.mk.inj (hpage.symm.trans heq)
      have hflat : [r.found (some c)].flatten = r.found (some c) := by simp
      rw [hflat]
      refine ⟨rfl, fun k hk hlt => ?_⟩
      have hle : r.limit ≤ k * r.limit := Nat.le_mul_of_pos_left _ hk
      omega
    · rw [hpage] at heq
      cases heq
  | @next cursor next page pages hpage hnext ih =>
    rintro c rfl hnodup hsub
    rcases page_cases h.positive (some c) with ⟨-, heq⟩ | ⟨hmore, last, hlast, heq⟩
    · rw [hpage] at heq
      cases heq
    · obtain ⟨rfl, hcursor⟩ := Prod.mk.inj (hpage.symm.trans heq)
      obtain rfl := Option.some.inj hcursor
      rw [List.flatten_cons] at hnodup hsub ⊢
      have hmem : last ∈ r.found (some c) := List.mem_of_getElem? hlast
      have hrest := hnext.sublist_rest h.positive hnodup ((found_sublist h hmem).trans hsub)
      obtain ⟨hflat, hcuts⟩ := ih _ rfl (List.nodup_append.mp hnodup).2.1 hrest
      have hall : (r.found (some c)).take r.limit ++ pages.flatten ⊆ r.found (some c) := by
        rw [hflat]
        exact List.append_subset.mpr ⟨List.take_subset _ _, (found_sublist h hmem).subset⟩
      have hfound := hsub.eq_of_length_le (hnodup.subperm hall).length_le
      have hdrop : pages.flatten = (r.found (some c)).drop r.limit :=
        List.append_cancel_left (hfound.symm.trans (List.take_append_drop _ _).symm)
      refine ⟨hfound.symm, fun k hk hlt last' hlast' => ?_⟩
      rw [← hfound] at hlt hlast' ⊢
      obtain ⟨j, rfl⟩ : ∃ j, k = j + 1 := ⟨k - 1, by omega⟩
      by_cases hj : j = 0
      · subst hj
        rw [Nat.zero_add, Nat.one_mul] at hlast' ⊢
        obtain rfl := Option.some.inj (hlast.symm.trans hlast')
        rw [← hflat, hdrop]
      · have hpred := succ_mul_pred h.positive (Nat.pos_of_ne_zero hj)
        have hdrop' := hcuts j (Nat.pos_of_ne_zero hj)
          (by rw [hdrop, List.length_drop]; rw [Nat.succ_mul] at hlt; omega) last'
          (by rw [hdrop, List.getElem?_drop, ← hpred]; exact hlast')
        rw [hdrop', hdrop, List.drop_drop, Nat.succ_mul, Nat.add_comm]

/-- Where the windows hold the rows and no cut is in the way, the rows after a cut are found with
the cursor of the last row before it. -/
theorem Covered.found_cut (h : r.Ordered rows) (hcovered : r.Covered rows) {k : Nat} (hk : 0 < k)
    (hlt : k * r.limit < rows.length) {last : α} (hlast : rows[k * r.limit - 1]? = some last) :
    r.found (some (r.cursorOf last)) = rows.drop (k * r.limit) := by
  obtain ⟨hbefore, hafter⟩ := hcovered.cuts k hk hlt last hlast
  have hrows : rows.filter (r.older (r.cursorOf last)) = rows.drop (k * r.limit) := by
    conv_lhs => rw [← List.take_append_drop (k * r.limit) rows]
    rw [List.filter_append, List.filter_eq_nil_iff.mpr fun a ha => by rw [hbefore a ha]; decide,
      List.filter_eq_self.mpr hafter, List.nil_append]
  have hsub : (r.found (some (r.cursorOf last))).Sublist (rows.drop (k * r.limit)) := by
    rw [← hrows]
    exact h.sublist.filter _
  have hle : r.limit ≤ k * r.limit := Nat.le_mul_of_pos_left _ hk
  have hall : rows.drop (k * r.limit) ⊆ r.found (some (r.cursorOf last)) := by
    intro a ha
    have hmem : a ∈ rows.drop r.limit := (List.drop_sublist_drop_left rows hle).subset ha
    exact List.mem_filter.mpr ⟨hcovered.window a hmem, hafter a ha⟩
  exact hsub.eq_of_length_le ((h.nodup.sublist (List.drop_sublist _ _)).subperm hall).length_le

/-- The pages after a cut are the rows after it. -/
theorem Covered.follows_cut (h : r.Ordered rows) (hcovered : r.Covered rows) :
    ∀ (n k : Nat), 0 < k → k * r.limit < rows.length → rows.length - k * r.limit ≤ n →
      ∀ last, rows[k * r.limit - 1]? = some last →
        ∃ pages, r.Follows (some (r.cursorOf last)) pages ∧
          pages.flatten = rows.drop (k * r.limit) := by
  intro n
  induction n with
  | zero =>
    intro k hk hlt hle
    omega
  | succ n ih =>
    intro k hk hlt hle last hlast
    have hfound := hcovered.found_cut h hk hlt hlast
    rcases page_cases h.positive (some (r.cursorOf last)) with
      ⟨hshort, heq⟩ | ⟨hmore, last', hlast', heq⟩
    · exact ⟨_, .last heq, by rw [hfound]; simp⟩
    · rw [hfound] at hmore hlast'
      rw [List.length_drop] at hmore
      have hpos := h.positive
      have hnext : (k + 1) * r.limit < rows.length := by
        rw [Nat.succ_mul]
        omega
      have hat : rows[(k + 1) * r.limit - 1]? = some last' := by
        have hone : 0 < k * r.limit := Nat.mul_pos hk hpos
        rw [List.getElem?_drop] at hlast'
        rw [← hlast', Nat.succ_mul]
        congr 1
        omega
      obtain ⟨pages, hfollows, hflat⟩ := ih (k + 1) k.succ_pos hnext
        (by rw [Nat.succ_mul]; omega) last' hat
      refine ⟨_, .next heq hfollows, ?_⟩
      rw [List.flatten_cons, hflat, hfound, Nat.succ_mul, ← List.drop_drop,
        List.take_append_drop]

/-- Where the rows after a cut are found with the cursor of the last row before it, the cut is in
order. -/
theorem cut_of_found (h : r.Ordered rows) (hread : ∀ a ∈ rows, a ∈ r.first ∨ a ∈ r.window) {k : Nat}
    (hfound : ∀ last, rows[k - 1]? = some last →
      r.found (some (r.cursorOf last)) = rows.drop k) : r.Cut rows k := by
  intro last hlast
  have hdrop := hfound last hlast
  refine ⟨fun a ha => ?_, fun a ha => ?_⟩
  · by_contra holder
    rw [Bool.not_eq_false] at holder
    have hwindow : a ∉ r.window := fun hmem => by
      have hafter : a ∈ rows.drop k := hdrop ▸ List.mem_filter.mpr ⟨hmem, holder⟩
      exact (List.disjoint_take_drop h.nodup le_rfl) ha hafter
    rcases h.again with hagain | hpairwise
    · exact (hread a (List.mem_of_mem_take ha)).elim (fun hfirst => hwindow (hagain a hfirst))
        hwindow
    · obtain ⟨i, hi, rfl⟩ := List.mem_iff_getElem.mp ha
      obtain ⟨hbound, rfl⟩ := List.getElem?_eq_some_iff.mp hlast
      rw [List.length_take] at hi
      rw [List.getElem_take] at holder
      have hle : i ≤ k - 1 := Nat.le_pred_of_lt (lt_of_lt_of_le hi (min_le_left _ _))
      rcases Nat.lt_or_eq_of_le hle with hlt | heq
      · rw [List.pairwise_iff_getElem.mp hpairwise i (k - 1) _ hbound hlt] at holder
        cases holder
      · have hirrefl := h.irrefl rows[k - 1]
        simp only [heq] at holder
        rw [hirrefl] at holder
        cases holder
  · rw [← hdrop] at ha
    exact (List.mem_filter.mp ha).2

/-- After a full first page. -/
theorem covered_of_next {last : α} (h : r.Ordered (r.first.take r.limit ++ pages.flatten))
    (hmore : r.limit < r.first.length) (hlast : r.first[r.limit - 1]? = some last)
    (hnext : r.Follows (some (r.cursorOf last)) pages) :
    r.Covered (r.first.take r.limit ++ pages.flatten) := by
  have hlen : (r.first.take r.limit).length = r.limit := List.length_take_of_le (le_of_lt hmore)
  have hwindow : (r.found (some (r.cursorOf last))).Sublist r.window := List.filter_sublist
  have hrest := hnext.sublist_rest h.positive h.nodup (hwindow.trans h.sublist)
  obtain ⟨hexact, hcuts⟩ := hnext.exact h _ rfl (List.nodup_append.mp h.nodup).2.1 hrest
  have hdrop : (r.first.take r.limit ++ pages.flatten).drop r.limit = pages.flatten :=
    List.drop_left' hlen
  have hread : ∀ a ∈ r.first.take r.limit ++ pages.flatten, a ∈ r.first ∨ a ∈ r.window := by
    intro a ha
    rcases List.mem_append.mp ha with ha | ha
    · exact Or.inl (List.mem_of_mem_take ha)
    · rw [hexact] at ha
      exact Or.inr (hwindow.subset ha)
  refine ⟨(List.take_left' hlen).symm, iff_of_true hmore (hmore.trans_le h.first.length_le),
    fun a ha => ?_, fun k hk hlt => cut_of_found h hread fun last' hlast' => ?_⟩
  · rw [hdrop, hexact] at ha
    exact hwindow.subset ha
  · obtain ⟨j, rfl⟩ : ∃ j, k = j + 1 := ⟨k - 1, by omega⟩
    by_cases hj : j = 0
    · subst hj
      rw [Nat.zero_add, Nat.one_mul] at hlast' ⊢
      have hbound : r.limit - 1 < r.limit := Nat.sub_lt h.positive Nat.one_pos
      have hat : (r.first.take r.limit ++ pages.flatten)[r.limit - 1]? = some last := by
        rw [List.getElem?_append_left (by rw [hlen]; exact hbound),
          List.getElem?_take_of_lt hbound]
        exact hlast
      obtain rfl := Option.some.inj (hat.symm.trans hlast')
      rw [hdrop, hexact]
    · have hpred := succ_mul_pred h.positive (Nat.pos_of_ne_zero hj)
      rw [List.length_append, hlen, Nat.succ_mul] at hlt
      have hat : pages.flatten[j * r.limit - 1]? = some last' := by
        rw [← hlast', hpred, List.getElem?_append_right (by rw [hlen]; omega), hlen]
        congr 1
        omega
      rw [hcuts j (Nat.pos_of_ne_zero hj) (by omega) last' hat, Nat.succ_mul,
        Nat.add_comm, ← List.drop_drop, hdrop]

theorem covered_of_follows (h : r.Ordered rows) (hfollows : r.Follows none pages)
    (hflat : pages.flatten = rows) : r.Covered rows := by
  subst hflat
  cases hfollows with
  | @last _ page hpage =>
    rcases page_cases h.positive none with ⟨hshort, heq⟩ | ⟨-, last, -, heq⟩
    · obtain ⟨rfl, -⟩ := Prod.mk.inj (hpage.symm.trans heq)
      have hflat : [r.found none].flatten = r.first := by simp [found]
      have hle : r.first.length ≤ r.limit := hshort
      rw [hflat]
      refine ⟨rfl, Iff.rfl, fun a ha => ?_, fun k hk hlt => ?_⟩
      · rw [List.drop_of_length_le hle] at ha
        cases ha
      · have hmul : r.limit ≤ k * r.limit := Nat.le_mul_of_pos_left _ hk
        omega
    · rw [hpage] at heq
      cases heq
  | @next _ next page pages hpage hnext =>
    rcases page_cases h.positive none with ⟨-, heq⟩ | ⟨hmore, last, hlast, heq⟩
    · rw [hpage] at heq
      cases heq
    · obtain ⟨rfl, hcursor⟩ := Prod.mk.inj (hpage.symm.trans heq)
      obtain rfl := Option.some.inj hcursor
      exact covered_of_next h hmore hlast hnext

/-- Rows in the strict order of the cursors are cut anywhere. -/
theorem cut_of_pairwise (hirrefl : ∀ a, r.older (r.cursorOf a) a = false)
    (h : rows.Pairwise fun a b =>
      r.older (r.cursorOf a) b = true ∧ r.older (r.cursorOf b) a = false) {k : Nat} (hk : 0 < k) :
    r.Cut rows k := by
  intro last hlast
  obtain ⟨hbound, rfl⟩ := List.getElem?_eq_some_iff.mp hlast
  have hat := List.pairwise_iff_getElem.mp h
  refine ⟨fun a ha => ?_, fun a ha => ?_⟩
  · obtain ⟨i, hi, rfl⟩ := List.mem_iff_getElem.mp ha
    rw [List.length_take] at hi
    rw [List.getElem_take]
    have hle : i ≤ k - 1 := by omega
    rcases Nat.lt_or_eq_of_le hle with hlt | heq
    · exact (hat i (k - 1) _ hbound hlt).2
    · simp only [heq]
      exact hirrefl _
  · obtain ⟨i, hi, rfl⟩ := List.mem_iff_getElem.mp ha
    rw [List.length_drop] at hi
    rw [List.getElem_drop]
    exact (hat (k - 1) (k + i) hbound (by omega) (by omega)).1

/-- **The pages together are the rows**, each once and in order, exactly if the windows hold them
and no cut is in the way. -/
theorem follows_iff (h : r.Ordered rows) :
    (∃ pages, r.Follows none pages ∧ pages.flatten = rows) ↔ r.Covered rows := by
  constructor
  · rintro ⟨pages, hfollows, hflat⟩
    exact covered_of_follows h hfollows hflat
  · intro hcovered
    rcases page_cases h.positive none with ⟨hshort, heq⟩ | ⟨hmore, last, hlast, heq⟩
    · have hrows : rows.length ≤ r.limit := not_lt.mp fun hlt => absurd (hcovered.more.mpr hlt)
        (not_lt.mpr hshort)
      refine ⟨_, .last heq, ?_⟩
      have hfirst := hcovered.first
      rw [List.take_of_length_le hrows] at hfirst
      rw [List.flatten_singleton, ← hfirst]
      exact (List.take_of_length_le hshort).symm
    · have hlt := hcovered.more.mp hmore
      have hat : rows[1 * r.limit - 1]? = some last := by
        have hbound : r.limit - 1 < r.limit := Nat.sub_lt h.positive Nat.one_pos
        rw [Nat.one_mul, ← List.getElem?_take_of_lt hbound, ← hcovered.first,
          List.getElem?_take_of_lt hbound]
        exact hlast
      obtain ⟨pages, hfollows, hflat⟩ := hcovered.follows_cut h _ 1 Nat.one_pos
        (by rwa [Nat.one_mul]) le_rfl last hat
      refine ⟨_, .next heq hfollows, ?_⟩
      rw [List.flatten_cons, hflat, Nat.one_mul]
      exact (congrArg (· ++ _) hcovered.first).trans (List.take_append_drop _ _)

end

end Reader

end Paging
