import Mathlib.Data.List.DropRight
import RefereeBox.Lib.StableSort

/-! # The Java Library Calls of the Referee Box

  The parts of `java.lang.String` and `java.util` that the task model uses,
  on texts represented as lists of characters.
-/

namespace RefereeBox

/-- A `java.lang.String`, as the list of its `char` values. A `char` is a
    16-bit code unit; `Char` leaves the surrogate units 0xD800 to 0xDFFF out,
    so the characters 0x10000 above stand for them. A reference that may be
    null is an `Option Text`. -/
abbrev Text := List Char

/-- What is said of all characters of a text is decided on the text, not on all
    characters there are. -/
instance (priority := high) Text.instDecidableForallMem (s : Text) (p : Char → Prop)
    [DecidablePred p] : Decidable (∀ c, c ∈ s → p c) :=
  List.decidableBAll p s

/-- The exceptions that the modelled code can end with. -/
inductive Exn where
  | nullPointer
  | indexOutOfBounds
  | classCast
  | noSuchElement
deriving DecidableEq, Repr

namespace Java

/-! ### `String.compareTo`

    The first difference of two code units decides, else the lengths do. -/

/-- The value of a code unit. -/
def unit (c : Char) : Nat := if c.toNat < 0x10000 then c.toNat else c.toNat - 0x10000

/-- `s.compareTo(t)`. -/
def compareTo : Text → Text → Int
  | [], t => -(t.length : Int)
  | s, [] => (s.length : Int)
  | a :: s, b :: t => if unit a = unit b then compareTo s t else (unit a : Int) - unit b

/-- The other way round the sign changes. -/
theorem compareTo_swap (s t : Text) : compareTo s t = -compareTo t s := by
  induction s, t using compareTo.induct with
  | case1 t => cases t <;> simp [compareTo]
  | case2 s hs =>
    obtain ⟨a, s, rfl⟩ := List.exists_cons_of_ne_nil hs
    simp [compareTo]
  | case3 a s b t hunit ih => simp [compareTo, hunit, ih]
  | case4 a s b t hunit =>
    unfold compareTo
    rw [if_neg hunit, if_neg (Ne.symm hunit)]
    omega

/-- The order of texts is transitive. -/
theorem compareTo_trans {s t u : Text} (hst : compareTo s t ≤ 0) (htu : compareTo t u ≤ 0) :
    compareTo s u ≤ 0 := by
  induction s generalizing t u with
  | nil =>
    unfold compareTo
    omega
  | cons a s ih =>
    cases t with
    | nil =>
      simp only [compareTo, List.length_cons] at hst
      omega
    | cons b t =>
      cases u with
      | nil =>
        simp only [compareTo, List.length_cons] at htu
        omega
      | cons c u =>
        unfold compareTo at hst htu ⊢
        by_cases hab : unit a = unit b
        · rw [if_pos hab] at hst
          rw [hab]
          by_cases hbc : unit b = unit c
          · rw [if_pos hbc] at htu ⊢
            exact ih hst htu
          · rw [if_neg hbc] at htu ⊢
            exact htu
        · -- the first difference is at the first unit
          rw [if_neg hab] at hst
          have hac : (unit a : Int) - unit c < 0 := by
            by_cases hbc : unit b = unit c
            · omega
            · rw [if_neg hbc] at htu
              omega
          rw [if_neg (by omega)]
          omega

theorem compareTo_lawful : StableSort.Lawful compareTo := ⟨compareTo_swap, compareTo_trans⟩

/-! ### `String.contains` and `String.substring` -/

/-- `s.contains(sub)`. -/
def contains (s sub : Text) : Bool := s.tails.any fun t => sub.isPrefixOf t

/-- `s.substring(b, e)`: `none` is the exception for indices out of range. -/
def substring (s : Text) (b e : Int) : Option Text :=
  if 0 ≤ b ∧ b ≤ e ∧ e ≤ s.length then some ((s.drop b.toNat).take (e - b).toNat) else none

/-! ### `String.split` with a character class

    A text without delimiters is its only piece; otherwise the empty pieces at
    the end are dropped (and only those). -/

/-- The character class `[cs]`. -/
def oneOf (cs : String) (c : Char) : Bool := cs.toList.contains c

theorem not_oneOf_of_notMem {cs : String} {s : Text} (h : ∀ d ∈ cs.toList, d ∉ s) :
    ∀ c ∈ s, oneOf cs c = false := by
  intro c hc
  by_contra hmem
  exact h c (by simpa [oneOf] using hmem) hc

/-- `s.split("[..]")`. -/
def split (isDelim : Char → Bool) (s : Text) : List Text :=
  if s.any isDelim then (s.splitOnP isDelim).rdropWhile List.isEmpty else [s]

theorem split_of_no_delim {isDelim : Char → Bool} {s : Text} (h : ∀ c ∈ s, isDelim c = false) :
    split isDelim s = [s] := by
  have : s.any isDelim = false := by
    rw [List.any_eq_false]
    intro c hc
    simp [h c hc]
  simp [split, this]

/-- Dropping empty pieces at the end stops at a non-empty one. -/
theorem rdropWhile_append_cons {α : Type} {p : α → Bool} (xs : List α) {b : α} (ys : List α)
    (hb : p b = false) :
    (xs ++ b :: ys).rdropWhile p = xs ++ b :: ys.rdropWhile p := by
  induction ys using List.reverseRecOn with
  | nil => rw [List.rdropWhile_concat, hb]; simp
  | append_singleton ys y ih =>
    rw [← List.cons_append, ← List.append_assoc, List.rdropWhile_concat, List.rdropWhile_concat]
    split
    · exact ih
    · simp

/-- A text cut at a delimiter whose first piece has none. -/
theorem split_cons {isDelim : Char → Bool} {x y : Text} {d : Char}
    (hx : ∀ c ∈ x, isDelim c = false) (hd : isDelim d = true) :
    split isDelim (x ++ d :: y) = (x :: y.splitOnP isDelim).rdropWhile List.isEmpty := by
  have : (x ++ d :: y).any isDelim = true := by simp [hd]
  rw [split, if_pos this, List.splitOnP_append_cons_of_forall_mem hx d hd]

/-- The first two pieces of a text, the second one not empty. -/
theorem split_cons_cons {isDelim : Char → Bool} {x y z : Text} {d d' : Char}
    (hx : ∀ c ∈ x, isDelim c = false) (hd : isDelim d = true)
    (hy : ∀ c ∈ y, isDelim c = false) (hd' : isDelim d' = true) (hne : y ≠ []) :
    split isDelim (x ++ d :: (y ++ d' :: z)) =
      x :: y :: (z.splitOnP isDelim).rdropWhile List.isEmpty := by
  rw [split_cons hx hd, List.splitOnP_append_cons_of_forall_mem hy d' hd']
  exact rdropWhile_append_cons [x] _ (by simpa using hne)

/-- The pieces between delimiters contain none. -/
theorem not_delim_of_mem_splitOnP {isDelim : Char → Bool} {s t : Text}
    (ht : t ∈ s.splitOnP isDelim) : ∀ c ∈ t, isDelim c = false := by
  induction s generalizing t with
  | nil =>
    rw [List.splitOnP_nil, List.mem_singleton] at ht
    rw [ht]
    exact fun c hc => absurd hc List.not_mem_nil
  | cons d s ih =>
    rw [List.splitOnP_cons_eq_if_modifyHead] at ht
    by_cases hd : isDelim d = true
    · rw [if_pos hd] at ht
      rcases List.mem_cons.mp ht with rfl | hmem
      · exact fun c hc => absurd hc List.not_mem_nil
      · exact ih hmem
    · rw [if_neg hd] at ht
      obtain ⟨x, xs, hxs⟩ := List.exists_cons_of_ne_nil (List.splitOnP_ne_nil isDelim s)
      rw [hxs, List.modifyHead_cons] at ht
      rcases List.mem_cons.mp ht with rfl | hmem
      · intro c hc
        rcases List.mem_cons.mp hc with rfl | hx
        · simpa using hd
        · exact ih (hxs ▸ List.mem_cons_self) c hx
      · exact ih (hxs ▸ List.mem_cons_of_mem x hmem)

theorem not_delim_of_mem_split {isDelim : Char → Bool} {s t : Text} (ht : t ∈ split isDelim s) :
    ∀ c ∈ t, isDelim c = false := by
  unfold split at ht
  by_cases hs : s.any isDelim = true
  · rw [if_pos hs] at ht
    exact not_delim_of_mem_splitOnP ((List.rdropWhile_prefix _ _).subset ht)
  · rw [if_neg hs, List.mem_singleton] at ht
    rw [ht]
    intro c hc
    have := List.any_eq_false.mp (by simpa using hs) c hc
    simpa using this

/-- Only empty pieces lie between delimiters. -/
theorem splitOnP_all_nil_iff {isDelim : Char → Bool} {s : Text} :
    (∀ t ∈ s.splitOnP isDelim, t = []) ↔ ∀ c ∈ s, isDelim c = true := by
  induction s with
  | nil => simp
  | cons d s ih =>
    obtain ⟨x, xs, hxs⟩ := List.exists_cons_of_ne_nil (List.splitOnP_ne_nil isDelim s)
    rw [List.splitOnP_cons_eq_if_modifyHead]
    by_cases hd : isDelim d = true
    · simp [hd, ih]
    · simp [hd, hxs]

/-- No piece is left exactly when the text consists of delimiters. -/
theorem split_eq_nil_iff {isDelim : Char → Bool} {s : Text} :
    split isDelim s = [] ↔ s ≠ [] ∧ ∀ c ∈ s, isDelim c = true := by
  unfold split
  by_cases hs : s.any isDelim = true
  · have hne : s ≠ [] := by
      rintro rfl
      simp at hs
    rw [if_pos hs, List.rdropWhile_eq_nil_iff, ← splitOnP_all_nil_iff]
    simp [hne]
  · rw [if_neg hs]
    refine iff_of_false (List.cons_ne_nil s []) ?_
    rintro ⟨hne, hall⟩
    obtain ⟨c, t, rfl⟩ := List.exists_cons_of_ne_nil hne
    exact hs (by simp [hall c List.mem_cons_self])

/-- The last of several pieces is not empty. -/
theorem getLast_split_ne_nil {isDelim : Char → Bool} {s : Text} (h1 : 1 < (split isDelim s).length)
    (hne : split isDelim s ≠ []) : (split isDelim s).getLast hne ≠ [] := by
  have hs : s.any isDelim = true := by
    by_contra hs
    rw [split, if_neg hs] at h1
    exact absurd h1 (by simp)
  have hsplit : split isDelim s = (s.splitOnP isDelim).rdropWhile List.isEmpty := by
    rw [split, if_pos hs]
  have hlast := List.rdropWhile_last_not List.isEmpty (s.splitOnP isDelim) (hsplit ▸ hne)
  simp only [hsplit]
  simpa using hlast

/-- The characters of a joined text, apart from the separator. -/
theorem mem_intercalate_iff {c sep : Char} (hsep : c ≠ sep) {xs : List Text} :
    c ∈ [sep].intercalate xs ↔ ∃ x ∈ xs, c ∈ x := by
  induction xs with
  | nil => simp [List.intercalate]
  | cons x xs ih =>
    cases xs with
    | nil => simp
    | cons y ys =>
      rw [List.intercalate_cons_cons, List.mem_append, List.mem_append, ih, List.mem_singleton,
        or_iff_left hsep]
      simp

/-- Pieces with a delimiter between them, up to another delimiter. -/
theorem splitOnP_intercalate_append {isDelim : Char → Bool} {sep d : Char}
    (hsep : isDelim sep = true) (hd : isDelim d = true) {x : Text} {xs : List Text}
    (hx : ∀ y ∈ x :: xs, ∀ c ∈ y, isDelim c = false) (rest : Text) :
    ([sep].intercalate (x :: xs) ++ d :: rest).splitOnP isDelim =
      x :: xs ++ rest.splitOnP isDelim := by
  induction xs generalizing x with
  | nil =>
    rw [List.intercalate_singleton,
      List.splitOnP_append_cons_of_forall_mem (hx x List.mem_cons_self) d hd]
    rfl
  | cons y ys ih =>
    have hcut : [sep].intercalate (x :: y :: ys) ++ d :: rest =
        x ++ sep :: ([sep].intercalate (y :: ys) ++ d :: rest) := by
      simp [List.intercalate]
    rw [hcut, List.splitOnP_append_cons_of_forall_mem (hx x List.mem_cons_self) sep hsep,
      ih fun z hz => hx z (List.mem_cons_of_mem x hz)]
    rfl

/-- Pieces with a delimiter between them. -/
theorem splitOnP_intercalate {isDelim : Char → Bool} {sep : Char} (hsep : isDelim sep = true)
    {x : Text} {xs : List Text} (hx : ∀ y ∈ x :: xs, ∀ c ∈ y, isDelim c = false) :
    ([sep].intercalate (x :: xs)).splitOnP isDelim = x :: xs := by
  induction xs generalizing x with
  | nil =>
    rw [List.intercalate_singleton]
    exact List.splitOnP_eq_singleton (hx x List.mem_cons_self)
  | cons y ys ih =>
    have hcut : [sep].intercalate (x :: y :: ys) = x ++ sep :: [sep].intercalate (y :: ys) := by
      simp [List.intercalate]
    rw [hcut, List.splitOnP_append_cons_of_forall_mem (hx x List.mem_cons_self) sep hsep,
      ih fun z hz => hx z (List.mem_cons_of_mem x hz)]

/-- Joined pieces are found again by `split`, unless the last one is empty. -/
theorem split_intercalate {isDelim : Char → Bool} {sep : Char} (hsep : isDelim sep = true)
    {x : Text} {xs : List Text} (hx : ∀ y ∈ x :: xs, ∀ c ∈ y, isDelim c = false)
    (hlast : (x :: xs).getLast (List.cons_ne_nil x xs) ≠ []) :
    split isDelim ([sep].intercalate (x :: xs)) = x :: xs := by
  cases xs with
  | nil =>
    rw [List.intercalate_singleton]
    exact split_of_no_delim (hx x List.mem_cons_self)
  | cons y ys =>
    have hany : ([sep].intercalate (x :: y :: ys)).any isDelim = true := by
      simp [List.intercalate, hsep]
    rw [split, if_pos hany, splitOnP_intercalate hsep hx, List.rdropWhile_eq_self_iff]
    intro _
    simpa using hlast

/-! ### `Collections.sort` -/

/-- `Collections.sort(l)`: a stable sort by the elements' `compareTo`. -/
def sort {α : Type} (compare : α → α → Int) (l : List α) : List α :=
  l.insertionSort fun a b => compare a b ≤ 0

theorem sort_perm {α : Type} (compare : α → α → Int) (l : List α) :
    (sort compare l).Perm l :=
  List.perm_insertionSort _ l

section sorted

variable {α : Type} {compare : α → α → Int}

/-- A sorted list is left as it is. -/
theorem sort_of_isChain {l : List α} (h : l.IsChain fun a b => compare a b ≤ 0) :
    sort compare l = l :=
  StableSort.Sorted.sort_eq h

theorem sort_isChain (htotal : ∀ a b, compare a b ≤ 0 ∨ compare b a ≤ 0) (l : List α) :
    (sort compare l).IsChain fun a b => compare a b ≤ 0 :=
  StableSort.sorted_sort htotal l

/-- `Collections.sort` leaves exactly the sorted lists as they are. -/
theorem sort_eq_self_iff (htotal : ∀ a b, compare a b ≤ 0 ∨ compare b a ≤ 0) (l : List α) :
    sort compare l = l ↔ l.IsChain fun a b => compare a b ≤ 0 := by
  refine ⟨fun h => ?_, sort_of_isChain⟩
  rw [← h]
  exact sort_isChain htotal l

end sorted

end Java

end RefereeBox
