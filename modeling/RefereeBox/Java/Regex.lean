import RefereeBox.Java
import RefereeBox.Lib.Pattern

/-! # `java.util.regex`

  The part of the pattern syntax that the referee box builds: literal
  characters, escaped characters, and groups of literal alternatives. Reading
  a pattern text gives `none` where the text goes beyond this part; for the
  texts of `ValidTaskElements` that happens for a sign without an operand,
  where Java raises a `PatternSyntaxException`.
-/

namespace RefereeBox

namespace Java

open Pattern

/-! ### Compiling -/

/-- The characters with a meaning of their own in a pattern. -/
def isMeta (c : Char) : Bool := oneOf "\\[](){}.*+?^$|" c

/-- Where the reader of a pattern text stands. -/
inductive PatternPart where
  /-- Between the elements. -/
  | outside
  /-- Behind a backslash. -/
  | escaped
  /-- In a group: the alternatives read so far, and the one being read. -/
  | group (alts : List Text) (alt : Text)
deriving DecidableEq, Repr

def compileFrom : PatternPart → Text → Option (List (Atom Char))
  | .outside, [] => some []
  | .escaped, [] => none
  | .group _ _, [] => none
  | .outside, c :: s =>
    if c = '\\' then compileFrom .escaped s
    else if c = '(' then compileFrom (.group [] []) s
    else if isMeta c then none
    else (compileFrom .outside s).map (.char c :: ·)
  | .escaped, c :: s =>
    -- an escaped letter or digit is a character class or a reference
    if c.isAlphanum then none
    else (compileFrom .outside s).map (.char c :: ·)
  | .group alts alt, c :: s =>
    if c = '|' then compileFrom (.group (alts ++ [alt]) []) s
    else if c = ')' then (compileFrom .outside s).map (.group (alts ++ [alt]) :: ·)
    else if isMeta c then none
    else compileFrom (.group alts (alt ++ [c])) s

/-- `Pattern.compile(s)`. -/
def compile (s : Text) : Option (List (Atom Char)) := compileFrom .outside s

/-- Literal characters of an alternative. -/
theorem compileFrom_group_append (alts : List Text) (alt x s : Text)
    (hx : ∀ c ∈ x, isMeta c = false) :
    compileFrom (.group alts alt) (x ++ s) = compileFrom (.group alts (alt ++ x)) s := by
  induction x generalizing alt with
  | nil => simp
  | cons c x ih =>
    have hc : isMeta c = false := hx c List.mem_cons_self
    have hbar : c ≠ '|' := by rintro rfl; exact absurd hc (by decide)
    have hclose : c ≠ ')' := by rintro rfl; exact absurd hc (by decide)
    rw [List.cons_append, compileFrom, if_neg hbar, if_neg hclose, hc]
    simp only [Bool.false_eq_true, if_false]
    rw [ih _ fun d hd => hx d (List.mem_cons_of_mem _ hd), List.append_assoc]
    rfl

/-- A group of alternatives with bars between them. -/
theorem compileFrom_group_intercalate (alts : List Text) (x : Text) (xs : List Text) (s : Text)
    (hx : ∀ y ∈ x :: xs, ∀ c ∈ y, isMeta c = false) :
    compileFrom (.group alts []) (['|'].intercalate (x :: xs) ++ ')' :: s) =
      (compileFrom .outside s).map (.group (alts ++ x :: xs) :: ·) := by
  induction xs generalizing alts x with
  | nil =>
    rw [List.intercalate_singleton, compileFrom_group_append _ _ _ _ (hx x List.mem_cons_self)]
    rfl
  | cons y ys ih =>
    have hcut : ['|'].intercalate (x :: y :: ys) ++ ')' :: s =
        x ++ '|' :: (['|'].intercalate (y :: ys) ++ ')' :: s) := by
      simp [List.intercalate]
    rw [hcut, compileFrom_group_append _ _ _ _ (hx x List.mem_cons_self)]
    show compileFrom (.group (alts ++ [x]) []) _ = _
    rw [ih (alts ++ [x]) y fun z hz => hx z (List.mem_cons_of_mem _ hz)]
    simp

/-- In a group that compiles stand bars, and characters without a meaning of their own. -/
theorem isMeta_of_compileFrom_group {alts : List Text} {alt x s : Text}
    (h : (compileFrom (.group alts alt) (x ++ ')' :: s)).isSome = true) (hclose : ')' ∉ x) :
    ∀ c ∈ x, c = '|' ∨ isMeta c = false := by
  induction x generalizing alts alt with
  | nil => exact fun c hc => absurd hc List.not_mem_nil
  | cons c x ih =>
    obtain ⟨hc, hx⟩ := List.ne_and_not_mem_of_not_mem_cons hclose
    rw [List.cons_append, compileFrom] at h
    by_cases hbar : c = '|'
    · rw [if_pos hbar] at h
      exact List.forall_mem_cons.mpr ⟨Or.inl hbar, ih h hx⟩
    · rw [if_neg hbar, if_neg (Ne.symm hc)] at h
      by_cases hmeta : isMeta c = true
      · rw [if_pos hmeta] at h
        exact absurd h (by decide)
      · rw [if_neg hmeta] at h
        exact List.forall_mem_cons.mpr ⟨Or.inr (by simpa using hmeta), ih h hx⟩

/-! ### Searching -/

/-- A `Matcher`: the input behind the last match, the groups of that match,
    and whether the last search hit the end of the input.

    A search that finds nothing hits the end. After a match `hitEnd` is false;
    if nothing stands behind the match it makes no difference, because the
    next search finds nothing and hits the end then. -/
structure Matcher where
  pattern : List (Atom Char)
  input : Text
  groups : List Text := []
  hitEnd : Bool := false
deriving DecidableEq, Repr

/-- `m.find()`. -/
def Matcher.find (m : Matcher) : Bool × Matcher :=
  match Pattern.find m.pattern m.input with
  | some (groups, rest) => (true, { m with input := rest, groups := groups, hitEnd := false })
  | none => (false, { m with hitEnd := true })

/-- `m.group(i)`. -/
def Matcher.group (m : Matcher) (i : Nat) : Option Text := m.groups[i - 1]?

end Java

end RefereeBox
