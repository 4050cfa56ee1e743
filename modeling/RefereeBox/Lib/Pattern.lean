import Mathlib.Data.List.Basic
import RefereeBox.Lib.Loop

/-! # Backtracking Search for Simple Patterns

  Patterns made of literal characters and capturing groups of literal
  alternatives, matched the way a backtracking engine does: the alternatives
  of a group are tried in order, and a later failure comes back to the next
  alternative. Searching returns the leftmost match.

  The main facts are about patterns in which a group is followed by a
  character that none of its alternatives contains. There the match at a
  position is unique, so the order of the alternatives does not matter.
-/

namespace Pattern

variable {χ : Type} [DecidableEq χ]

/-! ### Matching at a position -/

/-- One element of a pattern. -/
inductive Atom (χ : Type) where
  /-- A literal character. -/
  | char (c : χ)
  /-- A capturing group of literal alternatives. -/
  | group (alts : List (List χ))
deriving DecidableEq, Repr

/-- Match a pattern at the start of a text: the captured groups and the rest
    of the text. -/
def matchHere : List (Atom χ) → List χ → Option (List (List χ) × List χ)
  | [], s => some ([], s)
  | .char _ :: _, [] => none
  | .char c :: r, d :: s => if c = d then matchHere r s else none
  | .group alts :: r, s => alts.findSome? fun a =>
      if a <+: s then (matchHere r (s.drop a.length)).map fun m => (a :: m.1, m.2) else none

/-- Search a pattern: the leftmost match. -/
def find (re : List (Atom χ)) : List χ → Option (List (List χ) × List χ)
  | [] => matchHere re []
  | c :: s =>
    match matchHere re (c :: s) with
    | some m => some m
    | none => find re s

@[simp] theorem matchHere_nil (s : List χ) : matchHere [] s = some ([], s) := rfl

@[simp] theorem matchHere_char_cons (c d : χ) (r : List (Atom χ)) (s : List χ) :
    matchHere (.char c :: r) (d :: s) = if c = d then matchHere r s else none := rfl

/-- A match begins with the pattern's first character. -/
theorem matchHere_char_iff {c : χ} {r : List (Atom χ)} {s : List χ}
    {m : List (List χ) × List χ} :
    matchHere (.char c :: r) s = some m ↔ ∃ s', s = c :: s' ∧ matchHere r s' = some m := by
  cases s with
  | nil => simp [matchHere]
  | cons d s =>
    rw [matchHere_char_cons]
    constructor
    · intro h
      split at h
      · next hcd => exact ⟨s, by rw [hcd], h⟩
      · exact absurd h (by simp)
    · rintro ⟨s', hs, h⟩
      obtain ⟨rfl, rfl⟩ := List.cons.inj hs
      rw [if_pos rfl, h]

omit [DecidableEq χ] in
/-- Two decompositions at the first `c` are the same. -/
theorem append_cons_inj {a b s t : List χ} {c : χ} (ha : c ∉ a) (hb : c ∉ b)
    (h : a ++ c :: s = b ++ c :: t) : a = b ∧ s = t := by
  induction a generalizing b with
  | nil =>
    cases b with
    | nil => exact ⟨rfl, (List.cons.inj h).2⟩
    | cons d b =>
      obtain ⟨rfl, -⟩ := List.cons.inj h
      exact absurd List.mem_cons_self hb
  | cons d a ih =>
    cases b with
    | nil =>
      obtain ⟨rfl, -⟩ := List.cons.inj h
      exact absurd List.mem_cons_self ha
    | cons e b =>
      obtain ⟨rfl, htail⟩ := List.cons.inj h
      obtain ⟨rfl, rfl⟩ := ih (fun hc => ha (List.mem_cons_of_mem _ hc))
        (fun hc => hb (List.mem_cons_of_mem _ hc)) htail
      exact ⟨rfl, rfl⟩

/-- What trying one alternative gives, when a character outside the
    alternative follows the group. -/
theorem tryAlt_iff {a : List χ} {c : χ} {r : List (Atom χ)} {s : List χ}
    {m : List (List χ) × List χ} :
    (if a <+: s then (matchHere (.char c :: r) (s.drop a.length)).map
        fun m => (a :: m.1, m.2) else none) = some m ↔
      ∃ s' m', s = a ++ c :: s' ∧ matchHere r s' = some m' ∧ m = (a :: m'.1, m'.2) := by
  constructor
  · intro h
    split at h
    · next hpre =>
      obtain ⟨t, rfl⟩ := hpre
      rw [List.drop_left, Option.map_eq_some_iff] at h
      obtain ⟨m', hm', rfl⟩ := h
      obtain ⟨s', rfl, hr⟩ := matchHere_char_iff.mp hm'
      exact ⟨s', m', rfl, hr, rfl⟩
    · exact absurd h (by simp)
  · rintro ⟨s', m', rfl, hr, rfl⟩
    rw [if_pos (List.prefix_append a (c :: s')), List.drop_left]
    simp [hr]

/-- **Separated group**: when a character that no alternative contains follows
    a group, the group captures the text up to that character. -/
theorem matchHere_group_iff {alts : List (List χ)} {c : χ} {r : List (Atom χ)} {s : List χ}
    {m : List (List χ) × List χ} (hsep : ∀ a ∈ alts, c ∉ a) :
    matchHere (.group alts :: .char c :: r) s = some m ↔
      ∃ a ∈ alts, ∃ s' m', s = a ++ c :: s' ∧ matchHere r s' = some m' ∧
        m = (a :: m'.1, m'.2) := by
  constructor
  · intro h
    obtain ⟨a, ha, htry⟩ := List.exists_of_findSome?_eq_some h
    exact ⟨a, ha, tryAlt_iff.mp htry⟩
  · rintro ⟨a, ha, s', m', rfl, hr, rfl⟩
    -- some alternative is found, and it can only be `a`
    cases hfind : matchHere (.group alts :: .char c :: r) (a ++ c :: s') with
    | none =>
      have hnone := List.findSome?_eq_none_iff.mp hfind a ha
      rw [tryAlt_iff.mpr ⟨s', m', rfl, hr, rfl⟩] at hnone
      exact absurd hnone (by simp)
    | some m =>
      obtain ⟨b, hb, htry⟩ := List.exists_of_findSome?_eq_some hfind
      obtain ⟨t, n, hs, hn, rfl⟩ := tryAlt_iff.mp htry
      obtain ⟨rfl, rfl⟩ := append_cons_inj (hsep a ha) (hsep b hb) hs
      rw [hr] at hn
      cases hn
      rfl

/-! ### Searching -/

/-- A match at the start of the text is the leftmost one. -/
theorem find_of_matchHere {re : List (Atom χ)} {s : List χ} {m : List (List χ) × List χ}
    (h : matchHere re s = some m) : find re s = some m := by
  cases s with
  | nil => exact h
  | cons c s => simp [find, h]

theorem find_cons_of_none {re : List (Atom χ)} {c : χ} {s : List χ}
    (h : matchHere re (c :: s) = none) : find re (c :: s) = find re s := by
  simp [find, h]

/-- Text in which no match starts is skipped. -/
theorem find_append_of_none {re : List (Atom χ)} {gap t : List χ}
    (h : ∀ u v, gap = u ++ v → v ≠ [] → matchHere re (v ++ t) = none) :
    find re (gap ++ t) = find re t := by
  induction gap with
  | nil => rfl
  | cons c gap ih =>
    have hc : matchHere re (c :: (gap ++ t)) = none := h [] (c :: gap) rfl (List.cons_ne_nil c gap)
    rw [List.cons_append, find_cons_of_none hc]
    apply ih
    intro u v huv hv
    exact h (c :: u) v (by rw [huv]; rfl) hv

/-- What is found is the leftmost match: none starts in the text before it. -/
theorem exists_of_find {re : List (Atom χ)} {s : List χ} {m : List (List χ) × List χ}
    (h : find re s = some m) : ∃ gap t, s = gap ++ t ∧ matchHere re t = some m ∧
      ∀ u v, gap = u ++ v → v ≠ [] → matchHere re (v ++ t) = none := by
  induction s with
  | nil =>
    refine ⟨[], [], rfl, h, ?_⟩
    intro u v huv hv
    exact absurd (List.append_eq_nil_iff.mp huv.symm).2 hv
  | cons c s ih =>
    cases hm : matchHere re (c :: s) with
    | some m' =>
      rw [find_of_matchHere hm] at h
      refine ⟨[], c :: s, rfl, hm.trans h, ?_⟩
      intro u v huv hv
      exact absurd (List.append_eq_nil_iff.mp huv.symm).2 hv
    | none =>
      rw [find_cons_of_none hm] at h
      obtain ⟨gap, t, rfl, ht, hgap⟩ := ih h
      refine ⟨c :: gap, t, rfl, ht, ?_⟩
      intro u v huv hv
      -- the match would start at `c`, or further right
      cases u with
      | nil =>
        have hv' : v = c :: gap := huv.symm
        rw [hv', List.cons_append]
        exact hm
      | cons d u => exact hgap u v (List.cons.inj huv).2 hv

/-- Nothing is found exactly when no position matches. -/
theorem find_none_iff {re : List (Atom χ)} {s : List χ} :
    find re s = none ↔ ∀ u t, s = u ++ t → matchHere re t = none := by
  induction s with
  | nil =>
    constructor
    · intro h u t hut
      obtain ⟨rfl, rfl⟩ := List.append_eq_nil_iff.mp hut.symm
      exact h
    · intro h
      exact h [] [] rfl
  | cons c s ih =>
    constructor
    · intro h u t hut
      cases hm : matchHere re (c :: s) with
      | some m => rw [find_of_matchHere hm] at h; exact absurd h (by simp)
      | none =>
        rw [find_cons_of_none hm] at h
        cases u with
        | nil => rw [← show c :: s = t from hut]; exact hm
        | cons d u => exact ih.mp h u t (List.cons.inj hut).2
    · intro h
      rw [find_cons_of_none (h [] (c :: s) rfl)]
      exact ih.mpr fun u t hut => h (c :: u) t (by rw [hut]; rfl)

/-! ### What a pattern matches -/

/-- The texts of a pattern: its characters, with some alternative for each group. -/
inductive Matches : List (Atom χ) → List χ → Prop where
  | nil : Matches [] []
  | char {c : χ} {r : List (Atom χ)} {s : List χ} : Matches r s → Matches (.char c :: r) (c :: s)
  | group {alts : List (List χ)} {a : List χ} {r : List (Atom χ)} {s : List χ} :
      a ∈ alts → Matches r s → Matches (.group alts :: r) (a ++ s)

/-- Coming back to the next alternative, the engine misses no match at a position. The
    induction is on the pattern. -/
theorem matchHere_isSome_iff (re : List (Atom χ)) (s : List χ) :
    (matchHere re s).isSome = true ↔ ∃ t rest, s = t ++ rest ∧ Matches re t := by
  induction re generalizing s with
  | nil => exact iff_of_true rfl ⟨[], s, rfl, .nil⟩
  | cons a r ih =>
    cases a with
    | char c =>
      constructor
      · intro h
        obtain ⟨m, hm⟩ := Option.isSome_iff_exists.mp h
        obtain ⟨s', rfl, hr⟩ := matchHere_char_iff.mp hm
        obtain ⟨t, rest, rfl, ht⟩ := (ih s').mp (Option.isSome_iff_exists.mpr ⟨m, hr⟩)
        exact ⟨c :: t, rest, rfl, ht.char⟩
      · rintro ⟨_, rest, rfl, ht⟩
        cases ht with
        | char ht =>
          rw [List.cons_append, matchHere_char_cons, if_pos rfl, ih]
          exact ⟨_, rest, rfl, ht⟩
    | group alts =>
      have hgroup : (matchHere (.group alts :: r) s).isSome = true ↔
          ∃ a ∈ alts, a <+: s ∧ (matchHere r (s.drop a.length)).isSome = true := by
        rw [matchHere, List.isSome_findSome?, List.any_eq_true]
        refine exists_congr fun a => and_congr_right fun _ => ?_
        split
        · next hpre => simp [hpre]
        · next hpre => simp [hpre]
      rw [hgroup]
      constructor
      · rintro ⟨a, ha, ⟨s', rfl⟩, hr⟩
        rw [List.drop_left] at hr
        obtain ⟨t, rest, rfl, ht⟩ := (ih s').mp hr
        exact ⟨a ++ t, rest, (List.append_assoc a t rest).symm, ht.group ha⟩
      · rintro ⟨_, rest, rfl, ht⟩
        cases ht with
        | @group _ a _ t ha ht =>
          rw [List.append_assoc]
          refine ⟨a, ha, List.prefix_append a _, ?_⟩
          rw [List.drop_left]
          exact (ih _).mpr ⟨t, rest, rfl, ht⟩

/-- So a search finds something if a match stands anywhere in the text. -/
theorem find_ne_none_iff {re : List (Atom χ)} {s : List χ} :
    find re s ≠ none ↔ ∃ u t rest, s = u ++ t ++ rest ∧ Matches re t := by
  rw [ne_eq, find_none_iff]
  push Not
  constructor
  · rintro ⟨u, v, rfl, hv⟩
    obtain ⟨t, rest, rfl, ht⟩ := (matchHere_isSome_iff re v).mp (Option.isSome_iff_ne_none.mpr hv)
    exact ⟨u, t, rest, (List.append_assoc u t rest).symm, ht⟩
  · rintro ⟨u, t, rest, rfl, ht⟩
    exact ⟨u, t ++ rest, List.append_assoc u t rest,
      Option.isSome_iff_ne_none.mp ((matchHere_isSome_iff re _).mpr ⟨t, rest, rfl, ht⟩)⟩

/-! ### All matches, from left to right -/

/-- `Scan re s ms`: the successive leftmost matches of `re` in `s` capture the
    groups `ms`. -/
inductive Scan (re : List (Atom χ)) : List χ → List (List (List χ)) → Prop where
  | stop {s : List χ} : find re s = none → Scan re s []
  | next {s rest : List χ} {caps : List (List χ)} {ms : List (List (List χ))} :
      find re s = some (caps, rest) → Scan re rest ms → Scan re s (caps :: ms)

/-- The matches of a text are determined by it. -/
theorem Scan.unique {re : List (Atom χ)} {s : List χ} {ms ms' : List (List (List χ))}
    (h : Scan re s ms) (h' : Scan re s ms') : ms = ms' := by
  induction h generalizing ms' with
  | stop hnone =>
    cases h' with
    | stop => rfl
    | next hsome => rw [hnone] at hsome; exact absurd hsome (by simp)
  | next hsome _ ih =>
    cases h' with
    | stop hnone => rw [hnone] at hsome; exact absurd hsome (by simp)
    | next hsome' hrest =>
      rw [hsome] at hsome'
      cases hsome'
      rw [ih hrest]

/-- There is one at all if a match stands in the text. -/
theorem Scan.ne_nil_iff {re : List (Atom χ)} {s : List χ} {ms : List (List (List χ))}
    (h : Scan re s ms) : ms ≠ [] ↔ ∃ u t rest, s = u ++ t ++ rest ∧ Matches re t := by
  rw [← find_ne_none_iff]
  cases h with
  | stop hnone => simp [hnone]
  | next hsome _ => simp [hsome]

/-- A pattern that starts with a literal character consumes text. -/
theorem matchHere_rest_le {re : List (Atom χ)} {s rest : List χ} {caps : List (List χ)}
    (h : matchHere re s = some (caps, rest)) : rest.length ≤ s.length := by
  induction re generalizing s caps with
  | nil => cases h; exact Nat.le_refl _
  | cons a re ih =>
    cases a with
    | char c =>
      obtain ⟨s', rfl, hr⟩ := matchHere_char_iff.mp h
      exact Nat.le_succ_of_le (ih hr)
    | group alts =>
      obtain ⟨b, _, htry⟩ := List.exists_of_findSome?_eq_some h
      split at htry
      · rw [Option.map_eq_some_iff] at htry
        obtain ⟨m, hm, heq⟩ := htry
        cases heq
        have hlen := ih hm
        rw [List.length_drop] at hlen
        omega
      · exact absurd htry (by simp)

theorem find_rest_lt {c : χ} {re : List (Atom χ)} {s rest : List χ} {caps : List (List χ)}
    (h : find (.char c :: re) s = some (caps, rest)) : rest.length < s.length := by
  obtain ⟨gap, t, rfl, hm, -⟩ := exists_of_find h
  obtain ⟨s', rfl, hr⟩ := matchHere_char_iff.mp hm
  have := matchHere_rest_le hr
  simp only [List.length_append, List.length_cons]
  omega

/-- A search that always consumes text comes to an end. -/
theorem Scan.exists (c : χ) (re : List (Atom χ)) (s : List χ) :
    ∃ ms, Scan (.char c :: re) s ms := by
  induction hn : s.length using Nat.strongRecOn generalizing s with
  | _ n ih =>
    cases hf : find (.char c :: re) s with
    | none => exact ⟨[], .stop hf⟩
    | some m =>
      obtain ⟨caps, rest⟩ := m
      have hlt := find_rest_lt hf
      obtain ⟨ms, hms⟩ := ih rest.length (by omega) rest rfl
      exact ⟨caps :: ms, .next hf hms⟩

end Pattern
