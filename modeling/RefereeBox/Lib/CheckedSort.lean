import RefereeBox.Lib.StableSort

/-! # Sorting by a Comparison That May Fail

  A comparison of elements that are not all comparable returns an integer or
  fails. A sort by comparisons compares two elements unless their order follows
  from other comparisons, so it fails exactly if some two elements cannot be
  compared. Where the comparison agrees with a total one (`Extends`), a sort that
  does not fail is the stable sort.
-/

namespace CheckedSort

variable {α β κ ε : Type}

/-! ### Comparisons -/

/-- The comparison returns. -/
def Comparable (cmp : α → α → Except ε Int) (a b : α) : Prop := (cmp a b).isOk = true

instance (cmp : α → α → Except ε Int) (a b : α) : Decidable (Comparable cmp a b) :=
  inferInstanceAs (Decidable (_ = true))

/-- It returns that `a` is at most `b`. -/
def Precedes (cmp : α → α → Except ε Int) (a b : α) : Prop :=
  (cmp a b).toOption.any (· ≤ 0) = true

instance (cmp : α → α → Except ε Int) (a b : α) : Decidable (Precedes cmp a b) :=
  inferInstanceAs (Decidable (_ = true))

theorem comparable_iff {cmp : α → α → Except ε Int} {a b : α} :
    Comparable cmp a b ↔ ∃ i, cmp a b = .ok i := by
  unfold Comparable
  cases cmp a b with
  | ok i => exact iff_of_true rfl ⟨i, rfl⟩
  | error e => exact iff_of_false Bool.false_ne_true fun ⟨i, h⟩ => nomatch h

theorem precedes_iff {cmp : α → α → Except ε Int} {a b : α} :
    Precedes cmp a b ↔ ∃ i, cmp a b = .ok i ∧ i ≤ 0 := by
  unfold Precedes
  cases cmp a b with
  | ok i =>
    show decide (i ≤ 0) = true ↔ _
    rw [decide_eq_true_iff]
    constructor
    · exact fun h => ⟨i, rfl, h⟩
    · rintro ⟨j, hj, h⟩
      rwa [Except.ok.inj hj]
  | error e => exact iff_of_false Bool.false_ne_true fun ⟨i, h, _⟩ => nomatch h

theorem Precedes.comparable {cmp : α → α → Except ε Int} {a b : α} (h : Precedes cmp a b) :
    Comparable cmp a b := by
  obtain ⟨i, hi, -⟩ := precedes_iff.mp h
  exact comparable_iff.mpr ⟨i, hi⟩

/-- A second comparison decides between what the first one finds equal. -/
def thenBy (cmp cmp' : α → α → Except ε Int) (a b : α) : Except ε Int := do
  let i ← cmp a b
  if i ≠ 0 then pure i else cmp' a b

theorem thenBy_ok {cmp cmp' : α → α → Except ε Int} {a b : α} {i j : Int} (h : cmp a b = .ok i)
    (h' : cmp' a b = .ok j) : thenBy cmp cmp' a b = .ok (if i ≠ 0 then i else j) := by
  unfold thenBy
  rw [h]
  change (if i ≠ 0 then pure i else cmp' a b) = _
  split
  · rfl
  · exact h'

/-- Compare keys that may be missing. -/
def byKey (e : ε) (compare : κ → κ → Int) (key : α → Option κ) (a b : α) : Except ε Int :=
  match key a, key b with
  | some x, some y => .ok (compare x y)
  | _, _ => .error e

/-- Where the comparison returns, it agrees with a total one, and whether it does so
    does not depend on the order of the two; elements with one between them can be
    compared. -/
structure Extends (cmp : α → α → Except ε Int) (total : α → α → Int) : Prop where
  lawful : StableSort.Lawful total
  eq : ∀ {a b i}, cmp a b = .ok i → total a b = i
  symm : ∀ {a b}, Comparable cmp a b → Comparable cmp b a
  between : ∀ {a b c}, Precedes cmp a b → Precedes cmp b c → Comparable cmp a c

namespace Extends

variable {cmp cmp' : α → α → Except ε Int} {total total' : α → α → Int}

theorem eq_ok (h : Extends cmp total) {a b : α} (hab : Comparable cmp a b) :
    cmp a b = .ok (total a b) := by
  obtain ⟨i, hi⟩ := comparable_iff.mp hab
  rw [hi, h.eq hi]

theorem precedes_iff (h : Extends cmp total) {a b : α} :
    Precedes cmp a b ↔ Comparable cmp a b ∧ total a b ≤ 0 := by
  constructor
  · intro hab
    obtain ⟨i, hi, hle⟩ := CheckedSort.precedes_iff.mp hab
    exact ⟨hab.comparable, h.eq hi ▸ hle⟩
  · rintro ⟨hab, hle⟩
    exact CheckedSort.precedes_iff.mpr ⟨_, h.eq_ok hab, hle⟩

theorem trans (h : Extends cmp total) {a b c : α} (hab : Precedes cmp a b)
    (hbc : Precedes cmp b c) : Precedes cmp a c :=
  h.precedes_iff.mpr ⟨h.between hab hbc,
    h.lawful.trans (h.precedes_iff.mp hab).2 (h.precedes_iff.mp hbc).2⟩

/-- Descending. -/
theorem flip (h : Extends cmp total) : Extends (fun a b => cmp b a) fun a b => total b a where
  lawful := h.lawful.flip
  eq hi := h.eq hi
  symm hab := h.symm hab
  between hab hbc := h.between hbc hab

theorem comparable_thenBy_iff (h : Extends cmp total) {a b : α} :
    Comparable (CheckedSort.thenBy cmp cmp') a b ↔
      Comparable cmp a b ∧ (total a b = 0 → Comparable cmp' a b) := by
  unfold Comparable CheckedSort.thenBy
  cases hcmp : cmp a b with
  | error e => exact iff_of_false Bool.false_ne_true fun hab => Bool.false_ne_true hab.1
  | ok i =>
    rw [h.eq hcmp]
    change (if i ≠ 0 then pure i else cmp' a b : Except ε Int).isOk = true ↔ _
    split
    · next hi => exact iff_of_true rfl ⟨rfl, fun h0 => absurd h0 hi⟩
    · next hi => exact ⟨fun hab => ⟨rfl, fun _ => hab⟩, fun hab => hab.2 (not_not.mp hi)⟩

theorem thenBy_eq (h : Extends cmp total) (h' : Extends cmp' total') {a b : α} {i : Int}
    (hi : CheckedSort.thenBy cmp cmp' a b = .ok i) :
    (if total a b ≠ 0 then total a b else total' a b) = i := by
  unfold CheckedSort.thenBy at hi
  cases hcmp : cmp a b with
  | error e =>
    rw [hcmp] at hi
    cases hi
  | ok j =>
    rw [hcmp] at hi
    rw [h.eq hcmp]
    change (if j ≠ 0 then pure j else cmp' a b) = _ at hi
    split
    · next hj =>
      rw [if_pos hj] at hi
      exact Except.ok.inj hi
    · next hj =>
      rw [if_neg hj] at hi
      exact h'.eq hi

theorem precedes_thenBy (h : Extends cmp total) (h' : Extends cmp' total') {a b : α}
    (hab : Precedes (CheckedSort.thenBy cmp cmp') a b) :
    Precedes cmp a b ∧ (total a b = 0 → Precedes cmp' a b) := by
  have hcomparable := h.comparable_thenBy_iff.mp hab.comparable
  obtain ⟨i, hi, hle⟩ := CheckedSort.precedes_iff.mp hab
  have htotal := h.thenBy_eq h' hi
  constructor
  · refine h.precedes_iff.mpr ⟨hcomparable.1, ?_⟩
    split at htotal
    · exact htotal ▸ hle
    · omega
  · intro hzero
    refine h'.precedes_iff.mpr ⟨hcomparable.2 hzero, ?_⟩
    rw [if_neg (not_not.mpr hzero)] at htotal
    exact htotal ▸ hle

theorem thenBy (h : Extends cmp total) (h' : Extends cmp' total') :
    Extends (CheckedSort.thenBy cmp cmp')
      fun a b => if total a b ≠ 0 then total a b else total' a b where
  lawful := h.lawful.thenBy h'.lawful
  eq hi := h.thenBy_eq h' hi
  symm {a b} hab := by
    rw [comparable_thenBy_iff h] at hab ⊢
    refine ⟨h.symm hab.1, fun hba => h'.symm (hab.2 ?_)⟩
    have := h.lawful.swap a b
    omega
  between {a b c} hab hbc := by
    obtain ⟨hab, hab'⟩ := h.precedes_thenBy h' hab
    obtain ⟨hbc, hbc'⟩ := h.precedes_thenBy h' hbc
    refine (comparable_thenBy_iff h).mpr ⟨h.between hab hbc, fun hac => ?_⟩
    have hle := (h.precedes_iff.mp hab).2
    have hle' := (h.precedes_iff.mp hbc).2
    -- all three are equal in the first comparison
    have hab0 : total a b = 0 := by
      by_contra hne
      have := h.lawful.neg_of_neg_of_le (by omega : total a b < 0) hle'
      omega
    have hbc0 : total b c = 0 := by
      by_contra hne
      have := h.lawful.neg_of_le_of_neg hle (by omega : total b c < 0)
      omega
    exact h'.between (hab' hab0) (hbc' hbc0)

end Extends

theorem comparable_byKey_iff {e : ε} {compare : κ → κ → Int} {key : α → Option κ} {a b : α} :
    Comparable (byKey e compare key) a b ↔ (key a).isSome = true ∧ (key b).isSome = true := by
  unfold Comparable byKey
  cases key a <;> cases key b <;> simp [Except.isOk, Except.toBool]

/-- A missing key is not compared; in the total comparison it counts as `d`. -/
theorem Extends.byKey {compare : κ → κ → Int} (hcompare : StableSort.Lawful compare) (e : ε)
    (key : α → Option κ) (d : κ) :
    Extends (CheckedSort.byKey e compare key)
      fun a b => compare ((key a).getD d) ((key b).getD d) where
  lawful := hcompare.comap fun a => (key a).getD d
  eq {a b i} hi := by
    unfold CheckedSort.byKey at hi
    split at hi
    · next x y hx hy =>
      rw [hx, hy]
      exact Except.ok.inj hi
    · cases hi
  symm {a b} hab := by
    rw [comparable_byKey_iff] at hab ⊢
    exact hab.symm
  between {a b c} hab hbc := by
    have ha := comparable_byKey_iff.mp hab.comparable
    have hc := comparable_byKey_iff.mp hbc.comparable
    exact comparable_byKey_iff.mpr ⟨ha.1, hc.2⟩

/-! ### The sort -/

/-- The comparison of `a` with each element of the list. -/
def checkFirst (cmp : α → α → Except ε Int) (a : α) : List α → Except ε Unit
  | [] => .ok ()
  | b :: l => do
    let _ ← cmp a b
    checkFirst cmp a l

/-- All comparisons of two elements of the list. -/
def check (cmp : α → α → Except ε Int) : List α → Except ε Unit
  | [] => .ok ()
  | a :: l => do
    checkFirst cmp a l
    check cmp l

/-- A stable sort. It fails if a comparison does. -/
def sort (cmp : α → α → Except ε Int) (l : List α) : Except ε (List α) := do
  check cmp l
  pure (l.insertionSort (Precedes cmp))

/-- A list that is sorted in a copy: a sort that fails leaves it as it is. -/
def settle (cmp : α → α → Except ε Int) (l : List α) : List α :=
  match sort cmp l with
  | .ok l' => l'
  | .error _ => l

/-- Every element comes before the next one. -/
def Sorted (cmp : α → α → Except ε Int) (l : List α) : Prop := l.IsChain (Precedes cmp)

variable {cmp : α → α → Except ε Int}

theorem checkFirst_ok_iff {a : α} {l : List α} :
    checkFirst cmp a l = .ok () ↔ ∀ b ∈ l, Comparable cmp a b := by
  induction l with
  | nil => simp [checkFirst]
  | cons b l ih =>
    rw [List.forall_mem_cons, ← ih, checkFirst, comparable_iff]
    cases cmp a b with
    | ok i => exact ⟨fun h => ⟨⟨i, rfl⟩, h⟩, fun h => h.2⟩
    | error e => exact iff_of_false (fun h => nomatch h) fun ⟨⟨i, h⟩, _⟩ => nomatch h

theorem check_ok_iff {l : List α} : check cmp l = .ok () ↔ l.Pairwise (Comparable cmp) := by
  induction l with
  | nil => simp [check]
  | cons a l ih =>
    rw [List.pairwise_cons, ← ih, ← checkFirst_ok_iff, check]
    cases checkFirst cmp a l with
    | ok u => exact ⟨fun h => ⟨rfl, h⟩, fun h => h.2⟩
    | error e => exact iff_of_false (fun h => nomatch h) fun h => nomatch h.1

theorem sort_error {l : List α} (h : ¬ l.Pairwise (Comparable cmp)) :
    ∃ e, sort cmp l = .error e := by
  unfold sort
  cases hcheck : check cmp l with
  | ok u => exact absurd (check_ok_iff.mp hcheck) h
  | error e => exact ⟨e, rfl⟩

theorem isOk_sort_iff {l : List α} : (sort cmp l).isOk = true ↔ l.Pairwise (Comparable cmp) := by
  rw [← check_ok_iff, sort]
  cases check cmp l with
  | ok u => exact iff_of_true rfl rfl
  | error e => exact iff_of_false Bool.false_ne_true fun h => nomatch h

theorem sort_perm {l l' : List α} (h : sort cmp l = .ok l') : l'.Perm l := by
  unfold sort at h
  cases hcheck : check cmp l with
  | ok u =>
    rw [hcheck] at h
    obtain rfl := Except.ok.inj h
    exact List.perm_insertionSort _ _
  | error e =>
    rw [hcheck] at h
    cases h

/-- Only the comparisons of an element with those of the list matter. -/
theorem orderedInsert_congr {r r' : α → α → Prop} [DecidableRel r] [DecidableRel r'] {a : α}
    {l : List α} (h : ∀ b ∈ l, (r a b ↔ r' a b)) : l.orderedInsert r a = l.orderedInsert r' a := by
  induction l with
  | nil => rfl
  | cons b l ih =>
    have hb := h b List.mem_cons_self
    rw [List.orderedInsert_cons, List.orderedInsert_cons,
      ih fun c hc => h c (List.mem_cons_of_mem b hc)]
    exact if_congr hb rfl rfl

theorem settle_of_not_comparable {l : List α} (hl : ¬ l.Pairwise (Comparable cmp)) :
    settle cmp l = l := by
  obtain ⟨e, he⟩ := sort_error hl
  unfold settle
  rw [he]

section total
variable {total : α → α → Int} (h : Extends cmp total)
include h

/-- Among comparable elements it is the stable sort. -/
theorem insertionSort_eq {l : List α} (hl : l.Pairwise (Comparable cmp)) :
    l.insertionSort (Precedes cmp) = StableSort.sort total l := by
  induction l with
  | nil => rfl
  | cons a l ih =>
    obtain ⟨ha, hl⟩ := List.pairwise_cons.mp hl
    rw [StableSort.sort_cons, ← ih hl, List.insertionSort_cons]
    apply orderedInsert_congr
    intro b hb
    have hab := ha b ((List.perm_insertionSort _ _).mem_iff.mp hb)
    exact h.precedes_iff.trans (and_iff_right hab)

theorem sort_ok {l : List α} (hl : l.Pairwise (Comparable cmp)) :
    sort cmp l = .ok (StableSort.sort total l) := by
  unfold sort
  rw [check_ok_iff.mpr hl, ← insertionSort_eq h hl]
  rfl

/-- The elements of a sorted list can be compared. -/
theorem sorted_iff {l : List α} :
    Sorted cmp l ↔ l.Pairwise (Comparable cmp) ∧ StableSort.Sorted total l := by
  have htrans : Trans (Precedes cmp) (Precedes cmp) (Precedes cmp) := ⟨h.trans⟩
  constructor
  · intro hl
    have hpair := (List.isChain_iff_pairwise (R := Precedes cmp)).mp hl
    exact ⟨hpair.imp Precedes.comparable, hl.imp fun a b hab => (h.precedes_iff.mp hab).2⟩
  · rintro ⟨hpair, hl⟩
    refine (List.isChain_iff_pairwise (R := Precedes cmp)).mpr ?_
    have hle := (StableSort.sorted_iff_pairwise h.lawful).mp hl
    exact (List.pairwise_and_iff.mpr ⟨hpair, hle⟩).imp fun hab => h.precedes_iff.mpr hab

theorem Sorted.sort_eq {l : List α} (hl : Sorted cmp l) : sort cmp l = .ok l := by
  obtain ⟨hpair, hl⟩ := (sorted_iff h).mp hl
  rw [sort_ok h hpair, hl.sort_eq]

theorem sorted_sort {l l' : List α} (hl : sort cmp l = .ok l') : Sorted cmp l' := by
  by_cases hpair : l.Pairwise (Comparable cmp)
  · rw [sort_ok h hpair] at hl
    obtain rfl := Except.ok.inj hl
    refine (sorted_iff h).mpr ⟨?_, StableSort.sorted_sort h.lawful.total l⟩
    exact hpair.perm (List.perm_insertionSort _ _).symm h.symm
  · obtain ⟨e, he⟩ := sort_error hpair
    rw [he] at hl
    cases hl

theorem settle_of_comparable {l : List α} (hl : l.Pairwise (Comparable cmp)) :
    settle cmp l = StableSort.sort total l := by
  unfold settle
  rw [sort_ok h hl]

theorem sorted_settle_iff {l : List α} :
    Sorted cmp (settle cmp l) ↔ l.Pairwise (Comparable cmp) := by
  by_cases hl : l.Pairwise (Comparable cmp)
  · refine iff_of_true ?_ hl
    rw [settle_of_comparable h hl]
    exact sorted_sort h (sort_ok h hl)
  · refine iff_of_false (fun hsorted => hl ?_) hl
    rw [settle_of_not_comparable hl] at hsorted
    exact ((sorted_iff h).mp hsorted).1

theorem Sorted.settle_eq {l : List α} (hl : Sorted cmp l) : settle cmp l = l := by
  unfold settle
  rw [Sorted.sort_eq h hl]

/-- **Exchanged neighbours** end up where they were exactly if they are equal, or in
    a sorted list if the comparison tells them apart. -/
theorem settle_exchange_iff {pre post : List α} {x y : α} :
    settle cmp (pre ++ y :: x :: post) = pre ++ x :: y :: post ↔
      if (pre ++ x :: y :: post).Pairwise (Comparable cmp) then
        Sorted cmp (pre ++ x :: y :: post) ∧ (x = y ∨ cmp x y ≠ .ok 0)
      else x = y := by
  have hperm : (pre ++ y :: x :: post).Perm (pre ++ x :: y :: post) :=
    (List.Perm.swap x y post).append_left pre
  have hexchange : pre ++ y :: x :: post = pre ++ x :: y :: post ↔ x = y := by
    simp only [List.append_cancel_left_eq, List.cons.injEq]
    exact ⟨fun heq => heq.2.1, fun heq => ⟨heq.symm, heq, trivial⟩⟩
  have hpair : (pre ++ y :: x :: post).Pairwise (Comparable cmp) ↔
      (pre ++ x :: y :: post).Pairwise (Comparable cmp) := hperm.pairwise_iff h.symm
  split
  · next hl =>
    rw [settle_of_comparable h (hpair.mpr hl)]
    have hxy : Comparable cmp x y :=
      List.rel_of_pairwise_cons (List.pairwise_append.mp hl).2.1 List.mem_cons_self
    constructor
    · intro heq
      have hsorted : StableSort.Sorted total (pre ++ x :: y :: post) :=
        heq ▸ StableSort.sorted_sort h.lawful.total _
      refine ⟨(sorted_iff h).mpr ⟨hl, hsorted⟩, ?_⟩
      by_cases hzero : total x y = 0
      · -- equal neighbours stay as they were put
        rw [(hsorted.swap h.lawful hzero).sort_eq] at heq
        exact .inl (hexchange.mp heq)
      · exact .inr fun hcmp => hzero (h.eq hcmp)
    · rintro ⟨hsorted, heq⟩
      have hsorted' := ((sorted_iff h).mp hsorted).2
      obtain rfl | hne := heq
      · exact hsorted'.sort_eq
      · have hpair := (StableSort.sorted_iff_pairwise h.lawful).mp hsorted'
        have hle : total x y ≤ 0 :=
          List.rel_of_pairwise_cons (List.pairwise_append.mp hpair).2.1 List.mem_cons_self
        apply StableSort.sort_swap h.lawful hsorted'
        have hzero : total x y ≠ 0 := fun hzero => hne (hzero ▸ h.eq_ok hxy)
        omega
  · next hl => rw [settle_of_not_comparable (mt hpair.mp hl), hexchange]

/-- Some elements less. -/
theorem Sorted.sublist {l l' : List α} (hl : Sorted cmp l) (hsub : l'.Sublist l) :
    Sorted cmp l' := by
  have htrans : Trans (Precedes cmp) (Precedes cmp) (Precedes cmp) := ⟨h.trans⟩
  have hpair := (List.isChain_iff_pairwise (R := Precedes cmp)).mp hl
  exact (List.isChain_iff_pairwise (R := Precedes cmp)).mpr (hpair.sublist hsub)

end total

end CheckedSort
