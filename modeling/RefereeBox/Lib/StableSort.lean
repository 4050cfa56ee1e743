import Mathlib.Data.List.Sort

/-! # Stable Sorting of an Almost Sorted List

  Comparisons with integer results, as in a `compareTo`, and what a stable
  sort makes of a sorted list after a small change: two neighbours exchanged,
  one element more at the end, one element less.
-/

namespace StableSort

variable {α β : Type}

/-! ### Comparisons -/

/-- Comparing the other way round changes the sign, and being at most is
    transitive. -/
structure Lawful (cmp : α → α → Int) : Prop where
  swap : ∀ a b, cmp a b = -cmp b a
  trans : ∀ {a b c}, cmp a b ≤ 0 → cmp b c ≤ 0 → cmp a c ≤ 0

namespace Lawful

variable {cmp cmp' : α → α → Int}

theorem total (h : Lawful cmp) (a b : α) : cmp a b ≤ 0 ∨ cmp b a ≤ 0 := by
  have := h.swap a b
  omega

theorem comap (h : Lawful cmp) (f : β → α) : Lawful fun a b => cmp (f a) (f b) where
  swap a b := h.swap (f a) (f b)
  trans := h.trans

/-- Descending. -/
theorem flip (h : Lawful cmp) : Lawful fun a b => cmp b a where
  swap a b := h.swap b a
  trans hab hbc := h.trans hbc hab

theorem neg_of_le_of_neg (h : Lawful cmp) {a b c : α} (hab : cmp a b ≤ 0) (hbc : cmp b c < 0) :
    cmp a c < 0 := by
  by_contra hac
  have hca : cmp c a ≤ 0 := by
    have := h.swap a c
    omega
  have hcb := h.trans hca hab
  have := h.swap b c
  omega

theorem neg_of_neg_of_le (h : Lawful cmp) {a b c : α} (hab : cmp a b < 0) (hbc : cmp b c ≤ 0) :
    cmp a c < 0 := by
  by_contra hac
  have hca : cmp c a ≤ 0 := by
    have := h.swap a c
    omega
  have hba := h.trans hbc hca
  have := h.swap a b
  omega

theorem thenBy_le_iff {i j : Int} : (if i ≠ 0 then i else j) ≤ 0 ↔ i < 0 ∨ (i = 0 ∧ j ≤ 0) := by
  split <;> omega

/-- A second comparison decides between what the first one finds equal. -/
theorem thenBy (h : Lawful cmp) (h' : Lawful cmp') :
    Lawful fun a b => if cmp a b ≠ 0 then cmp a b else cmp' a b where
  swap a b := by
    have := h.swap a b
    have := h'.swap a b
    split <;> split <;> omega
  trans {a b c} hab hbc := by
    rw [thenBy_le_iff] at hab hbc ⊢
    rcases hab with hab | ⟨hab, hab'⟩
    · left
      exact h.neg_of_neg_of_le hab (by omega)
    · rcases hbc with hbc | ⟨hbc, hbc'⟩
      · left
        exact h.neg_of_le_of_neg (by omega) hbc
      · -- equal twice in the first comparison
        have hac : cmp a c ≤ 0 := h.trans (by omega) (by omega : cmp b c ≤ 0)
        have hca : cmp c a ≤ 0 := by
          have hcb := h.swap c b
          have hba := h.swap b a
          exact h.trans (by omega) (by omega : cmp b a ≤ 0)
        have := h.swap a c
        right
        exact ⟨by omega, h'.trans hab' hbc'⟩

end Lawful

/-! ### Sorted lists -/

/-- No element is greater than the next one. -/
def Sorted (cmp : α → α → Int) (l : List α) : Prop := l.IsChain fun a b => cmp a b ≤ 0

/-- A stable sort. -/
def sort (cmp : α → α → Int) (l : List α) : List α :=
  l.insertionSort fun a b => cmp a b ≤ 0

variable {cmp : α → α → Int}

theorem sort_cons (a : α) (l : List α) :
    sort cmp (a :: l) = (sort cmp l).orderedInsert (fun a b => cmp a b ≤ 0) a := rfl

theorem Sorted.sort_eq {l : List α} (h : Sorted cmp l) : sort cmp l = l := by
  induction l with
  | nil => rfl
  | cons a l ih =>
    rw [sort_cons, ih h.of_cons]
    cases l with
    | nil => rfl
    | cons b l => exact List.orderedInsert_cons_of_le _ l (List.isChain_cons_cons.mp h).1

theorem Sorted.orderedInsert (htotal : ∀ a b, cmp a b ≤ 0 ∨ cmp b a ≤ 0) (a : α) {l : List α}
    (h : Sorted cmp l) : Sorted cmp (l.orderedInsert (fun a b => cmp a b ≤ 0) a) := by
  induction l with
  | nil => exact .singleton a
  | cons b l ih =>
    rw [List.orderedInsert_cons]
    by_cases hle : cmp a b ≤ 0
    · rw [if_pos hle]
      exact List.isChain_cons_cons.mpr ⟨hle, h⟩
    · rw [if_neg hle]
      have hba : cmp b a ≤ 0 := (htotal a b).resolve_left hle
      have hrest := ih h.of_cons
      -- what follows `b` is the inserted element, or the old head of the rest
      cases l with
      | nil => exact List.isChain_cons_cons.mpr ⟨hba, hrest⟩
      | cons c l =>
        have hbc := (List.isChain_cons_cons.mp h).1
        rw [List.orderedInsert_cons] at hrest ⊢
        by_cases hac : cmp a c ≤ 0
        · rw [if_pos hac] at hrest ⊢
          exact List.isChain_cons_cons.mpr ⟨hba, hrest⟩
        · rw [if_neg hac] at hrest ⊢
          exact List.isChain_cons_cons.mpr ⟨hbc, hrest⟩

theorem sorted_sort (htotal : ∀ a b, cmp a b ≤ 0 ∨ cmp b a ≤ 0) (l : List α) :
    Sorted cmp (sort cmp l) := by
  induction l with
  | nil => exact .nil
  | cons a l ih => exact ih.orderedInsert htotal a

/-- In a sorted list not only neighbours are in order. -/
theorem sorted_iff_pairwise (h : Lawful cmp) {l : List α} :
    Sorted cmp l ↔ l.Pairwise fun a b => cmp a b ≤ 0 := by
  have : Trans (fun a b => cmp a b ≤ 0) (fun a b => cmp a b ≤ 0) (fun a b => cmp a b ≤ 0) :=
    ⟨h.trans⟩
  exact List.isChain_iff_pairwise

/-- One element less. -/
theorem Sorted.eraseIdx (h : Lawful cmp) {l : List α} (hl : Sorted cmp l) (pos : Nat) :
    Sorted cmp (l.eraseIdx pos) := by
  rw [sorted_iff_pairwise h] at hl ⊢
  exact hl.sublist (List.eraseIdx_sublist l pos)

/-- Another element at a position keeps the order exactly when it is between its
    neighbours. -/
theorem isChain_set_iff {R : α → α → Prop} {l : List α} (hl : l.IsChain R) {pos : Nat}
    (hpos : pos < l.length) (t : α) :
    (l.set pos t).IsChain R ↔
      (∀ a, 0 < pos → l[pos - 1]? = some a → R a t) ∧ ∀ b, l[pos + 1]? = some b → R t b := by
  rw [List.isChain_iff_getElem] at hl ⊢
  constructor
  · intro hset
    constructor
    · intro a h0 ha
      obtain ⟨hlt, rfl⟩ := List.getElem?_eq_some_iff.mp ha
      have hpair := hset (pos - 1) (by rw [List.length_set]; omega)
      rw [List.getElem_set, List.getElem_set, if_neg (by omega), if_pos (by omega)] at hpair
      exact hpair
    · intro b hb
      obtain ⟨hlt, rfl⟩ := List.getElem?_eq_some_iff.mp hb
      have hpair := hset pos (by rw [List.length_set]; omega)
      simpa using hpair
  · rintro ⟨hleft, hright⟩ i hi
    rw [List.length_set] at hi
    rw [List.getElem_set, List.getElem_set]
    by_cases hi0 : pos = i
    · subst hi0
      rw [if_pos rfl, if_neg (by omega)]
      exact hright _ (List.getElem?_eq_getElem hi)
    · rw [if_neg hi0]
      by_cases hi1 : pos = i + 1
      · subst hi1
        rw [if_pos rfl]
        exact hleft _ (by omega) (List.getElem?_eq_getElem _)
      · rw [if_neg hi1]
        exact hl i hi

/-! ### Small changes -/

/-- An element that is not greater than the first one goes in front. -/
theorem orderedInsert_of_forall_le {a : α} {l : List α} (hle : ∀ b ∈ l, cmp a b ≤ 0) :
    l.orderedInsert (fun a b => cmp a b ≤ 0) a = a :: l := by
  cases l with
  | nil => rfl
  | cons b l => exact List.orderedInsert_cons_of_le _ l (hle b List.mem_cons_self)

/-- Behind an element that it is greater than. -/
theorem orderedInsert_of_gt {a b : α} (hgt : ¬ cmp a b ≤ 0) (l : List α) :
    (b :: l).orderedInsert (fun a b => cmp a b ≤ 0) a =
      b :: l.orderedInsert (fun a b => cmp a b ≤ 0) a := by
  rw [List.orderedInsert_cons, if_neg hgt]

/-- A common front part is sorted in last. -/
theorem sort_append_congr (pre : List α) {l l' : List α} (h : sort cmp l = sort cmp l') :
    sort cmp (pre ++ l) = sort cmp (pre ++ l') := by
  induction pre with
  | nil => exact h
  | cons a pre ih => rw [List.cons_append, List.cons_append, sort_cons, sort_cons, ih]

section small
variable (h : Lawful cmp)
include h

/-- **Exchanged neighbours** are put back, if they are not equal. -/
theorem sort_swap {pre post : List α} {a b : α} (hl : Sorted cmp (pre ++ a :: b :: post))
    (hlt : cmp a b < 0) : sort cmp (pre ++ b :: a :: post) = pre ++ a :: b :: post := by
  have hpair := (sorted_iff_pairwise h).mp hl
  rw [List.pairwise_append] at hpair
  obtain ⟨ha, hrest⟩ := List.pairwise_cons.mp hpair.2.1
  obtain ⟨hb, hpost⟩ := List.pairwise_cons.mp hrest
  have hsorted : sort cmp post = post := ((sorted_iff_pairwise h).mpr hpost).sort_eq
  have hgt : ¬ cmp b a ≤ 0 := by
    have := h.swap b a
    omega
  rw [← hl.sort_eq]
  refine sort_append_congr pre ?_
  -- the greater one is inserted last, and passes the smaller one
  rw [sort_cons, sort_cons, sort_cons, sort_cons, hsorted,
    orderedInsert_of_forall_le fun c hc => ha c (List.mem_cons_of_mem b hc),
    orderedInsert_of_gt hgt, orderedInsert_of_forall_le hb, orderedInsert_of_forall_le ha]

/-- Equal neighbours may stand in either order. -/
theorem Sorted.swap {pre post : List α} {a b : α} (hl : Sorted cmp (pre ++ a :: b :: post))
    (heq : cmp a b = 0) : Sorted cmp (pre ++ b :: a :: post) := by
  rw [sorted_iff_pairwise h] at hl ⊢
  have hba : cmp b a ≤ 0 := by
    have := h.swap b a
    omega
  rw [List.pairwise_append] at hl ⊢
  obtain ⟨hpre, hab, hcross⟩ := hl
  obtain ⟨ha, hrest⟩ := List.pairwise_cons.mp hab
  obtain ⟨hb, hpost⟩ := List.pairwise_cons.mp hrest
  refine ⟨hpre, ?_, fun c hc d hd => hcross c hc d ?_⟩
  · refine List.pairwise_cons.mpr ⟨?_, List.pairwise_cons.mpr ⟨?_, hpost⟩⟩
    · intro c hc
      rcases List.mem_cons.mp hc with rfl | hc
      · exact hba
      · exact hb c hc
    · exact fun c hc => ha c (List.mem_cons_of_mem b hc)
  · simp only [List.mem_cons] at hd ⊢
    tauto

/-- **One element more** at the end goes behind the last one that is not greater. -/
theorem sort_concat {l : List α} (hl : Sorted cmp l) (t : α) :
    ∃ before after, l = before ++ after ∧ sort cmp (l ++ [t]) = before ++ t :: after ∧
      (∀ a ∈ before, cmp a t ≤ 0) ∧ ∀ a ∈ after, 0 < cmp a t := by
  induction l with
  | nil => exact ⟨[], [], rfl, rfl, by simp, by simp⟩
  | cons a l ih =>
    obtain ⟨before, after, rfl, hsort, hbefore, hafter⟩ := ih hl.of_cons
    have hpair := (sorted_iff_pairwise h).mp hl
    obtain ⟨ha, -⟩ := List.pairwise_cons.mp hpair
    rw [List.cons_append, sort_cons, hsort]
    by_cases hat : cmp a t ≤ 0
    · -- `a` stays in front
      refine ⟨a :: before, after, rfl, ?_, List.forall_mem_cons.mpr ⟨hat, hbefore⟩, hafter⟩
      refine orderedInsert_of_forall_le fun b hb => ?_
      simp only [List.mem_append, List.mem_cons] at hb
      rcases hb with hb | rfl | hb
      · exact ha b (List.mem_append_left _ hb)
      · exact hat
      · exact ha b (List.mem_append_right _ hb)
    · -- so is everything behind it greater
      have hnil : before = [] := by
        rw [List.eq_nil_iff_forall_not_mem]
        intro b hb
        exact hat (h.trans (ha b (List.mem_append_left _ hb)) (hbefore b hb))
      subst hnil
      refine ⟨[], a :: after, rfl, ?_, by simp,
        List.forall_mem_cons.mpr ⟨by omega, hafter⟩⟩
      have hinsert : after.orderedInsert (fun a b => cmp a b ≤ 0) a = a :: after :=
        orderedInsert_of_forall_le ha
      rw [List.nil_append, orderedInsert_of_gt hat, hinsert]
      rfl

end small

end StableSort
