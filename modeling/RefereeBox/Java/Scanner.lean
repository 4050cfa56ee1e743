import RefereeBox.Java
import Mathlib.Algebra.Group.Int.Defs

/-! # `java.util.Scanner`

  Tokens between delimiters of the form `\s*[..]\s*`, and the numbers that are
  read from them.

  What is a letter or a digit beyond ASCII is a matter of the Unicode tables
  of the virtual machine. They are a parameter here, fixed on ASCII only.
-/

namespace RefereeBox

namespace Java

/-! ### Characters -/

/-- The methods of `Character` and `String` that look at the Unicode tables. -/
structure Unicode where
  isLetter : Char → Bool
  isUpperCase : Char → Bool
  /-- `Character.digit(c, 10)`, with `none` for -1. -/
  digit : Char → Option Nat
  toLowerCase : Text → Text
  isLetter_ascii : ∀ c, c.toNat < 128 → isLetter c = c.isAlpha
  isUpperCase_ascii : ∀ c, c.toNat < 128 → isUpperCase c = c.isUpper
  digit_ascii : ∀ c, c.toNat < 128 →
    digit c = if c.isDigit = true then some (c.toNat - '0'.toNat) else none
  /-- Of the small letters only `i` and `k` are also those of characters beyond
      ASCII, or in some languages not those of `I` and `K`. -/
  toLowerCase_eq_iff : ∀ s t : Text, (∀ c ∈ t, c.isLower = true ∧ c ≠ 'i' ∧ c ≠ 'k') →
    (toLowerCase s = t ↔ s.map Char.toLower = t)

/-- The tables of a machine that knows ASCII only. -/
def ascii : Unicode where
  isLetter := Char.isAlpha
  isUpperCase := Char.isUpper
  digit c := if c.isDigit = true then some (c.toNat - '0'.toNat) else none
  toLowerCase s := s.map Char.toLower
  isLetter_ascii _ _ := rfl
  isUpperCase_ascii _ _ := rfl
  digit_ascii _ _ := rfl
  toLowerCase_eq_iff _ _ _ := Iff.rfl

namespace Unicode

variable (u : Unicode)

/-- `Character.isDigit(c)`. -/
def isDigit (c : Char) : Bool := (u.digit c).isSome

/-! ### Numbers -/

/-- The value of a non-empty string of digits. -/
def decimal (s : Text) : Option Nat :=
  if s = [] then none else s.foldlM (fun n c => (u.digit c).map fun d => 10 * n + d) 0

/-- Digits with an optional sign in front. -/
def integer (s : Text) : Option Int :=
  match s with
  | '-' :: t => (u.decimal t).map fun n : Nat => -(n : Int)
  | '+' :: t => (u.decimal t).map Int.ofNat
  | _ => (u.decimal s).map Int.ofNat

/-- `Integer.parseInt(s)`; `none` is the `NumberFormatException`. -/
def parseInt (s : Text) : Option Int :=
  (u.integer s).filter fun n => -2 ^ 31 ≤ n ∧ n < 2 ^ 31

/-- `Short.parseShort(s)`, and what `hasNextShort` asks of a token. Locales whose group
    separator is not the comma are left out: their scanner reads 1.000 as a number, too. -/
def parseShort (s : Text) : Option Int :=
  (u.integer s).filter fun n => -2 ^ 15 ≤ n ∧ n < 2 ^ 15

/-! ### Characters of numbers -/

/-- The characters of labels and numbers. -/
def IsWordChar (c : Char) : Prop :=
  u.isLetter c = true ∨ u.isDigit c = true ∨ c = '+' ∨ c = '-'

/-- In ASCII they are letters, digits and signs. -/
theorem IsWordChar.of_ascii {c : Char} (h : u.IsWordChar c) (hc : c.toNat < 128) :
    c.isAlphanum = true ∨ c = '+' ∨ c = '-' := by
  rcases h with h | h | h
  · rw [u.isLetter_ascii c hc] at h
    exact Or.inl (Bool.or_eq_true_iff.mpr (Or.inl h))
  · left
    unfold isDigit at h
    rw [u.digit_ascii c hc] at h
    split at h
    · next hdigit => exact Bool.or_eq_true_iff.mpr (Or.inr hdigit)
    · exact absurd h (by decide)
  · exact Or.inr h

variable {u}

theorem isDigit_of_decimal {s : Text} {n : Nat} (h : u.decimal s = some n) :
    s ≠ [] ∧ ∀ c ∈ s, u.isDigit c = true := by
  unfold decimal at h
  split at h
  · exact absurd h (by simp)
  · next hne =>
    refine ⟨hne, ?_⟩
    clear hne
    generalize 0 = k at h
    induction s generalizing k with
    | nil => exact fun c hc => absurd hc List.not_mem_nil
    | cons d s ih =>
      rw [List.foldlM_cons] at h
      obtain ⟨m, hm, hrest⟩ := Option.bind_eq_some_iff.mp h
      obtain ⟨v, hv, -⟩ := Option.map_eq_some_iff.mp hm
      intro c hc
      rcases List.mem_cons.mp hc with rfl | hc
      · exact Option.isSome_iff_exists.mpr ⟨v, hv⟩
      · exact ih m hrest c hc

theorem isWordChar_of_integer {s : Text} {n : Int} (h : u.integer s = some n) :
    s ≠ [] ∧ ∀ c ∈ s, u.IsWordChar c := by
  have hdecimal : ∀ {t : Text} {f : Nat → Int}, (u.decimal t).map f = some n →
      t ≠ [] ∧ ∀ c ∈ t, u.IsWordChar c := by
    intro t f ht
    obtain ⟨m, hm, -⟩ := Option.map_eq_some_iff.mp ht
    obtain ⟨hne, hdigits⟩ := isDigit_of_decimal hm
    exact ⟨hne, fun c hc => Or.inr (Or.inl (hdigits c hc))⟩
  unfold integer at h
  split at h
  · refine ⟨List.cons_ne_nil _ _, fun c hc => ?_⟩
    rcases List.mem_cons.mp hc with rfl | hc
    · exact Or.inr (Or.inr (Or.inr rfl))
    · exact (hdecimal h).2 c hc
  · refine ⟨List.cons_ne_nil _ _, fun c hc => ?_⟩
    rcases List.mem_cons.mp hc with rfl | hc
    · exact Or.inr (Or.inr (Or.inl rfl))
    · exact (hdecimal h).2 c hc
  · exact hdecimal h

theorem isWordChar_of_parseInt {s : Text} {n : Int} (h : u.parseInt s = some n) :
    s ≠ [] ∧ ∀ c ∈ s, u.IsWordChar c :=
  isWordChar_of_integer (Option.filter_eq_some_iff.mp h).1

end Unicode

/-! ### Tokens -/

/-- The class `\s`. -/
def isSpace (c : Char) : Bool := oneOf " \t\n\x0b\x0c\r" c

namespace Scanner

variable (isSep : Char → Bool)

/-- The text behind the delimiter that the text starts with, if it does. -/
def lookingAt (s : Text) : Option Text :=
  match s.dropWhile isSpace with
  | [] => none
  | c :: rest => if isSep c = true then some (rest.dropWhile isSpace) else none

/-- The text up to the next delimiter, and the text from there on. -/
def untilDelimiter : Text → Text × Text
  | [] => ([], [])
  | c :: s =>
    if (lookingAt isSep (c :: s)).isSome = true then ([], c :: s)
    else (c :: (untilDelimiter s).1, (untilDelimiter s).2)

/-- Skip one delimiter. -/
def skip (s : Text) : Text := (lookingAt isSep s).getD s

/-- `next()`: the token and the text behind it, or no token at the end of the
    text. Two delimiters in a row have an empty token between them. -/
def next (s : Text) : Option (Text × Text) :=
  if skip isSep s = [] then none else some (untilDelimiter isSep (skip isSep s))

/-- The next `n` tokens. -/
def take : Nat → Text → List Text
  | 0, _ => []
  | n + 1, s =>
    match next isSep s with
    | none => []
    | some (token, rest) => token :: take n rest

/-- All tokens. -/
def tokens (s : Text) : List Text := take isSep s.length s

/-! ### Every token is read -/

variable {isSep} {s rest token : Text}

theorem length_lookingAt_lt (h : lookingAt isSep s = some rest) : rest.length < s.length := by
  unfold lookingAt at h
  have hdrop := List.length_dropWhile_le isSpace s
  split at h
  · exact absurd h (by simp)
  · next c t hs =>
    rw [hs, List.length_cons] at hdrop
    split at h
    · have hrest := List.length_dropWhile_le isSpace t
      rw [Option.some.inj h] at hrest
      omega
    · exact absurd h (by simp)

theorem untilDelimiter_append : (untilDelimiter isSep s).1 ++ (untilDelimiter isSep s).2 = s := by
  induction s with
  | nil => rfl
  | cons c s ih =>
    unfold untilDelimiter
    split
    · rfl
    · rw [List.cons_append, ih]

theorem length_untilDelimiter_le : (untilDelimiter isSep s).2.length ≤ s.length := by
  have happend : (untilDelimiter isSep s).1 ++ (untilDelimiter isSep s).2 = s :=
    untilDelimiter_append
  have hlen := congrArg List.length happend
  rw [List.length_append] at hlen
  omega

/-- Where no delimiter starts, the token is not empty. -/
theorem length_untilDelimiter_lt (hne : s ≠ []) (h : lookingAt isSep s = none) :
    (untilDelimiter isSep s).2.length < s.length := by
  obtain ⟨c, t, rfl⟩ := List.exists_cons_of_ne_nil hne
  rw [untilDelimiter, h, Option.isSome_none, if_neg Bool.false_ne_true, List.length_cons]
  exact Nat.lt_succ_of_le length_untilDelimiter_le

theorem length_next_lt (h : next isSep s = some (token, rest)) : rest.length < s.length := by
  unfold next skip at h
  split at h
  · exact absurd h (by simp)
  · next hne =>
    cases hlook : lookingAt isSep s with
    | none =>
      rw [hlook, Option.getD_none] at h hne
      have hlt := length_untilDelimiter_lt hne hlook
      rwa [Option.some.inj h] at hlt
    | some t =>
      -- the delimiter itself has been consumed
      rw [hlook, Option.getD_some] at h
      have hle : (untilDelimiter isSep t).2.length ≤ t.length := length_untilDelimiter_le
      rw [Option.some.inj h] at hle
      exact Nat.lt_of_le_of_lt hle (length_lookingAt_lt hlook)

/-- A text does not have more tokens than characters. -/
theorem take_eq {n m : Nat} (hn : s.length ≤ n) (hm : s.length ≤ m) :
    take isSep n s = take isSep m s := by
  have hempty : ∀ k, take isSep k [] = [] := by
    intro k
    cases k <;> rfl
  induction n generalizing m s with
  | zero =>
    rw [List.length_eq_zero_iff.mp (Nat.le_zero.mp hn), hempty, hempty]
  | succ n ih =>
    cases m with
    | zero => rw [List.length_eq_zero_iff.mp (Nat.le_zero.mp hm), hempty, hempty]
    | succ m =>
      unfold take
      cases hnext : next isSep s with
      | none => rfl
      | some p =>
        have hlt : p.2.length < s.length := length_next_lt hnext
        exact congrArg (p.1 :: ·) (ih (by omega) (by omega))

/-- **The loop over the tokens**: it ends where `next` finds none. -/
theorem tokens_eq (isSep : Char → Bool) (s : Text) :
    tokens isSep s =
      match next isSep s with
      | none => []
      | some (token, rest) => token :: tokens isSep rest := by
  unfold tokens
  cases hnext : next isSep s with
  | none =>
    cases s with
    | nil => rfl
    | cons c s =>
      show take isSep (s.length + 1) (c :: s) = []
      unfold take
      rw [hnext]
  | some p =>
    -- one round more than there are characters behind the token is enough
    have hlt : p.2.length < s.length := length_next_lt hnext
    rw [take_eq (Nat.le_refl _) (Nat.le_succ _), take, hnext]
    exact congrArg (p.1 :: ·) (take_eq hlt.le (Nat.le_refl _))

/-! ### Texts between delimiters -/

/-- A text without blanks and separators. -/
def Solid (isSep : Char → Bool) (a : Text) : Prop := ∀ c ∈ a, isSpace c = false ∧ isSep c = false

/-- Labels and numbers have no blanks and no separators in them. -/
theorem solid_of_isWordChar {u : Unicode} {seps : String}
    (hseps : ∀ c ∈ seps.toList, c.toNat < 128 ∧ c.isAlphanum = false ∧ c ≠ '+' ∧ c ≠ '-') {a : Text}
    (ha : ∀ c ∈ a, u.IsWordChar c) : Solid (oneOf seps) a := by
  have hblanks : ∀ c ∈ " \t\n\x0b\x0c\r".toList,
      c.toNat < 128 ∧ c.isAlphanum = false ∧ c ≠ '+' ∧ c ≠ '-' := by decide
  have hout : ∀ c, c.toNat < 128 ∧ c.isAlphanum = false ∧ c ≠ '+' ∧ c ≠ '-' → c ∉ a := by
    rintro c ⟨hascii, halnum, hplus, hminus⟩ hc
    rcases (ha c hc).of_ascii u hascii with h | h | h
    · exact absurd (h.symm.trans halnum) (by decide)
    · exact hplus h
    · exact hminus h
  intro c hc
  exact ⟨not_oneOf_of_notMem (fun d hd => hout d (hblanks d hd)) c hc,
    not_oneOf_of_notMem (fun d hd => hout d (hseps d hd)) c hc⟩

/-- A text of blanks. -/
def Blank (b : Text) : Prop := ∀ c ∈ b, isSpace c = true

theorem dropWhile_blank {b : Text} (hb : Blank b) (s : Text) :
    (b ++ s).dropWhile isSpace = s.dropWhile isSpace :=
  List.dropWhile_append_of_pos hb

theorem dropWhile_solid {a : Text} (ha : Solid isSep a) (hne : a ≠ []) (s : Text) :
    (a ++ s).dropWhile isSpace = a ++ s := by
  obtain ⟨c, t, rfl⟩ := List.exists_cons_of_ne_nil hne
  rw [List.cons_append, List.dropWhile_cons_of_neg]
  simp [(ha c List.mem_cons_self).1]

/-- A separator, with blanks around it. -/
theorem lookingAt_separator {b : Text} (hb : Blank b) {c : Char} (hc : isSep c = true)
    (hspace : isSpace c = false) (s : Text) :
    lookingAt isSep (b ++ c :: s) = some (s.dropWhile isSpace) := by
  have hdrop : (b ++ c :: s).dropWhile isSpace = c :: s := by
    rw [dropWhile_blank hb, List.dropWhile_cons_of_neg (by simp [hspace])]
  unfold lookingAt
  rw [hdrop]
  exact if_pos hc

theorem lookingAt_solid {a : Text} (ha : Solid isSep a) (hne : a ≠ []) (s : Text) :
    lookingAt isSep (a ++ s) = none := by
  obtain ⟨c, t, rfl⟩ := List.exists_cons_of_ne_nil hne
  unfold lookingAt
  rw [dropWhile_solid ha hne, List.cons_append]
  exact if_neg (by simp [(ha c List.mem_cons_self).2])

/-- A token ends at the blanks in front of the next separator. -/
theorem untilDelimiter_solid {a : Text} (ha : Solid isSep a) {s : Text}
    (hs : (lookingAt isSep s).isSome = true) : untilDelimiter isSep (a ++ s) = (a, s) := by
  induction a with
  | nil =>
    cases s with
    | nil => rfl
    | cons c s => exact if_pos hs
  | cons c a ih =>
    have hnone := lookingAt_solid ha (List.cons_ne_nil c a) s
    have hrest := ih fun d hd => ha d (List.mem_cons_of_mem c hd)
    rw [List.cons_append] at hnone ⊢
    rw [untilDelimiter, hnone, hrest]
    rfl

/-- **A solid text in front of a separator is the first token.** -/
theorem tokens_solid {a b : Text} (ha : Solid isSep a) (hne : a ≠ []) (hb : Blank b) {c : Char}
    (hc : isSep c = true) (hspace : isSpace c = false) (s : Text) :
    tokens isSep (a ++ (b ++ c :: s)) = a :: tokens isSep (b ++ c :: s) := by
  have hlook := lookingAt_separator hb hc hspace s
  have hskip : skip isSep (a ++ (b ++ c :: s)) = a ++ (b ++ c :: s) := by
    unfold skip
    rw [lookingAt_solid ha hne]
    rfl
  rw [tokens_eq, next, hskip, if_neg (by simp [hne]),
    untilDelimiter_solid ha (by rw [hlook]; rfl)]

/-- The delimiter behind it is skipped, with the blanks around it. -/
theorem tokens_separator {b b' : Text} (hb : Blank b) (hb' : Blank b') {c : Char}
    (hc : isSep c = true) (hspace : isSpace c = false) {a : Text} (ha : Solid isSep a)
    (hne : a ≠ []) (s : Text) :
    tokens isSep (b ++ c :: (b' ++ (a ++ s))) = tokens isSep (a ++ s) := by
  have hlook := lookingAt_separator hb hc hspace (b' ++ (a ++ s))
  rw [dropWhile_blank hb', dropWhile_solid ha hne] at hlook
  have hskip : skip isSep (b ++ c :: (b' ++ (a ++ s))) = skip isSep (a ++ s) := by
    unfold skip
    rw [hlook, lookingAt_solid ha hne]
    rfl
  rw [tokens_eq, tokens_eq isSep (a ++ s), next, next, hskip]

/-- Nothing but blanks behind the last separator. -/
theorem tokens_end {b b' : Text} (hb : Blank b) (hb' : Blank b') {c : Char}
    (hc : isSep c = true) (hspace : isSpace c = false) :
    tokens isSep (b ++ c :: b') = [] := by
  have hlook := lookingAt_separator hb hc hspace b'
  have hdrop : b'.dropWhile isSpace = [] := List.dropWhile_eq_nil_iff.mpr hb'
  rw [hdrop] at hlook
  have hskip : skip isSep (b ++ c :: b') = [] := by
    unfold skip
    rw [hlook]
    rfl
  rw [tokens_eq, next, if_pos hskip]

end Scanner

end Java

end RefereeBox
