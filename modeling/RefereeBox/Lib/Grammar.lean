import Mathlib.Computability.Language

/-! # Grammars of Message Formats

  Formats are languages over their characters. Sequence, repetition and the
  empty text are those of `Language`; the module adds what formats need
  beside them: fixed texts, optional parts, repetition with at least one
  item, and items with a separator between them.
-/

namespace Grammar

open Computability

variable {α : Type}

/-- A fixed text. -/
def literal (s : List α) : Language α := {s}

/-- A part that may be left out. -/
def opt (l : Language α) : Language α := 1 + l

/-- One item or more. -/
def oneOrMore (l : Language α) : Language α := l * l∗

/-- One item or more, with separators between them. -/
def sepBy (sep : List α) (l : Language α) : Language α := l * (literal sep * l)∗

theorem mem_literal (s : List α) : s ∈ literal s := rfl

theorem nil_mem_opt (l : Language α) : [] ∈ opt l := Or.inl rfl

theorem mem_opt {l : Language α} {s : List α} (hs : s ∈ l) : s ∈ opt l := Or.inr hs

/-- A part that is written at most once. -/
theorem flatMap_mem_opt {β : Type} {l : Language α} {f : β → List α} {xs : List β}
    (hlength : xs.length ≤ 1) (hf : ∀ x ∈ xs, f x ∈ l) : xs.flatMap f ∈ opt l := by
  match xs, hlength with
  | [], _ => exact nil_mem_opt l
  | [x], _ =>
    rw [List.flatMap_cons, List.flatMap_nil, List.append_nil]
    exact mem_opt (hf x List.mem_cons_self)

theorem flatten_mem_oneOrMore {l : Language α} {xs : List (List α)} (hne : xs ≠ [])
    (hxs : ∀ x ∈ xs, x ∈ l) : xs.flatten ∈ oneOrMore l := by
  obtain ⟨x, xs, rfl⟩ := List.exists_cons_of_ne_nil hne
  rw [List.flatten_cons]
  exact Language.append_mem_mul (hxs x List.mem_cons_self)
    (Language.join_mem_kstar fun y hy => hxs y (List.mem_cons_of_mem x hy))

theorem intercalate_mem_sepBy {sep : List α} {l : Language α} {xs : List (List α)} (hne : xs ≠ [])
    (hxs : ∀ x ∈ xs, x ∈ l) : sep.intercalate xs ∈ sepBy sep l := by
  obtain ⟨x, xs, rfl⟩ := List.exists_cons_of_ne_nil hne
  -- the first item, then each of the others behind its separator
  have hcut : sep.intercalate (x :: xs) = x ++ (xs.map fun y => sep ++ y).flatten := by
    clear hne hxs
    induction xs generalizing x with
    | nil => simp
    | cons y ys ih =>
      rw [List.map_cons, List.flatten_cons, List.append_assoc, ← ih y]
      simp [List.intercalate]
  rw [hcut]
  refine Language.append_mem_mul (hxs x List.mem_cons_self) (Language.join_mem_kstar ?_)
  intro z hz
  obtain ⟨y, hy, rfl⟩ := List.mem_map.mp hz
  exact Language.append_mem_mul rfl (hxs y (List.mem_cons_of_mem x hy))

end Grammar
