import RefereeBox.Java.Regex

/-! # Valid Task Elements

  The tables of valid BNT elements, read from the configuration file, and the
  pattern of valid triplets built from them.
-/

namespace RefereeBox

/-! ### The tables -/

/-- A `java.awt.Point`. -/
structure Point where
  x : Int
  y : Int
deriving DecidableEq, Repr

/-- Beyond ASCII letters and digits are a matter of the Unicode tables, and no
    character is one of the pattern's own. -/
def beyondAscii (c : Char) : Bool := 128 ≤ c.toNat

/-- A place label has the format `[A-Z][0-9]`. -/
def isPlaceLabel (s : Text) : Bool :=
  match s with
  | [c, d] => (c.isUpper || beyondAscii c) && (d.isDigit || beyondAscii d)
  | _ => false

def getCompassDirectionStrings : List Text :=
  ["N", "E", "S", "W", "NE", "SE", "SW", "NW", "NNE", "ENE", "ESE", "SSE", "SSW", "WSW", "WNW",
    "NNW", "NbE", "EbN", "EbS", "SbE", "SbW", "WbS", "WbN", "NbW", "NEbN", "NEbE", "SEbE", "SEbS",
    "SWbS", "SWbW", "NWbW", "NWbN"].map String.toList

/-- A non-empty string of digits. -/
def isDigits (s : Text) : Bool := !s.isEmpty && s.all fun c => c.isDigit || beyondAscii c

/-- What `hasNextShort` lets into the table of pauses: digits with an optional
    sign in front. -/
def isShort (s : Text) : Bool :=
  match s with
  | c :: t => isDigits s || ((c = '+' || c = '-') && isDigits t)
  | [] => false

/-- The BNT tables. The checks made while they are populated are fields; the
    keys of the map of positions are distinct. -/
structure ValidTaskElements where
  validBNTPositions : List (Text × Point)
  validBNTOrientations : List Text
  validBNTPauses : List Text
  keys_nodup : (validBNTPositions.map Prod.fst).Nodup := by decide
  places_valid : ∀ p ∈ validBNTPositions, isPlaceLabel p.1 = true := by decide
  orientations_valid : ∀ o ∈ validBNTOrientations, o ∈ getCompassDirectionStrings := by decide
  pauses_valid : ∀ p ∈ validBNTPauses, isShort p = true := by decide

namespace ValidTaskElements

variable (vte : ValidTaskElements)

/-! ### The pattern of valid triplets -/

/-- A group whose alternatives are the entries of a table. -/
def constructPattern (table : List Text) : Text :=
  "(".toList ++ ['|'].intercalate table ++ ")".toList

def constructPlacePattern : Text := constructPattern (vte.validBNTPositions.map Prod.fst)
def constructOrientationPattern : Text := constructPattern vte.validBNTOrientations
def constructPausePattern : Text := constructPattern vte.validBNTPauses

def getValidBNTPattern : Text :=
  "\\(".toList ++ vte.constructPlacePattern ++ "\\,".toList ++ vte.constructOrientationPattern ++
    "\\,".toList ++ vte.constructPausePattern ++ "\\)".toList

/-! ### Characters of the entries -/

/-- An entry that can stand in a group of the pattern as it is, and in a
    triplet as it is. -/
def IsPlain (s : Text) : Prop := ∀ c ∈ s, Java.isMeta c = false ∧ c ≠ ',' ∧ c ≠ ' '

/-- Letters and digits have no meaning of their own. -/
theorem isPlain_of_alphanum {s : Text}
    (h : ∀ c ∈ s, c.isAlphanum = true ∨ beyondAscii c = true) : IsPlain s := by
  intro c hc
  have hnone : ∀ d ∈ "\\[](){}.*+?^$|, ".toList,
      ¬ (d.isAlphanum = true ∨ beyondAscii d = true) := by decide
  have hout : c ∉ "\\[](){}.*+?^$|, ".toList := fun hmem => hnone c hmem (h c hc)
  refine ⟨?_, ?_, ?_⟩
  · have : c ∉ "\\[](){}.*+?^$|".toList := fun hmem => hout (List.mem_append_left [',', ' '] hmem)
    simpa [Java.isMeta, Java.oneOf] using this
  · rintro rfl
    exact hout (by decide)
  · rintro rfl
    exact hout (by decide)

theorem isPlain_of_isPlaceLabel {s : Text} (h : isPlaceLabel s = true) : IsPlain s := by
  unfold isPlaceLabel at h
  split at h
  · next c d =>
    rw [Bool.and_eq_true, Bool.or_eq_true, Bool.or_eq_true] at h
    apply isPlain_of_alphanum
    intro x hx
    rcases List.mem_pair.mp hx with rfl | rfl
    · refine h.1.imp_left fun hupper => ?_
      have halpha : x.isAlpha = true := Bool.or_eq_true_iff.mpr (Or.inl hupper)
      exact Bool.or_eq_true_iff.mpr (Or.inl halpha)
    · exact h.2.imp_left fun hdigit => Bool.or_eq_true_iff.mpr (Or.inr hdigit)
  · exact absurd h (by decide)

theorem isPlain_of_compass {s : Text} (h : s ∈ getCompassDirectionStrings) : IsPlain s := by
  have hall : ∀ o ∈ getCompassDirectionStrings, ∀ c ∈ o, c.isAlphanum = true := by decide
  exact isPlain_of_alphanum fun c hc => Or.inl (hall s h c hc)

theorem isPlain_of_isDigits {s : Text} (h : isDigits s = true) : IsPlain s := by
  unfold isDigits at h
  rw [Bool.and_eq_true, List.all_eq_true] at h
  apply isPlain_of_alphanum
  intro c hc
  exact (Bool.or_eq_true_iff.mp (h.2 c hc)).imp_left fun hdigit => by simp [Char.isAlphanum, hdigit]

/-! ### The compiled pattern -/

/-- The alternatives that the text of a group lists: an empty table lists the
    empty text. -/
def alternatives (table : List Text) : List Text := if table = [] then [[]] else table

/-- Every pause is a plain digit string. -/
def PlainPauses : Prop := ∀ p ∈ vte.validBNTPauses, isDigits p = true

def places : List Text := alternatives (vte.validBNTPositions.map Prod.fst)
def orientations : List Text := alternatives vte.validBNTOrientations
def pauses : List Text := alternatives vte.validBNTPauses

/-- The elements of the pattern. -/
def tripletPattern : List (Pattern.Atom Char) :=
  [.char '(', .group vte.places, .char ',', .group vte.orientations, .char ',', .group vte.pauses,
    .char ')']

theorem isPlain_of_mem_alternatives {table : List Text} (h : ∀ s ∈ table, IsPlain s) :
    ∀ s ∈ alternatives table, IsPlain s := by
  unfold alternatives
  split
  · intro s hs c hc
    rw [List.mem_singleton.mp hs] at hc
    exact absurd hc List.not_mem_nil
  · exact h

theorem isPlain_of_mem_places : ∀ s ∈ vte.places, IsPlain s := by
  apply isPlain_of_mem_alternatives
  intro s hs
  obtain ⟨p, hp, rfl⟩ := List.mem_map.mp hs
  exact isPlain_of_isPlaceLabel (vte.places_valid p hp)

theorem isPlain_of_mem_orientations : ∀ s ∈ vte.orientations, IsPlain s :=
  isPlain_of_mem_alternatives fun s hs => isPlain_of_compass (vte.orientations_valid s hs)

theorem isPlain_of_mem_pauses (hp : ∀ p ∈ vte.validBNTPauses, IsPlain p) :
    ∀ s ∈ vte.pauses, IsPlain s :=
  isPlain_of_mem_alternatives hp

variable {vte} in
theorem PlainPauses.isPlain (hp : vte.PlainPauses) : ∀ p ∈ vte.validBNTPauses, IsPlain p :=
  fun p h => isPlain_of_isDigits (hp p h)

/-- An escaped character that is no letter or digit stands for itself. -/
theorem compileFrom_escaped (c : Char) (s : Text) (hc : c.isAlphanum = false) :
    Java.compileFrom .outside ('\\' :: c :: s) =
      (Java.compileFrom .outside s).map (.char c :: ·) := by
  show Java.compileFrom .escaped (c :: s) = _
  rw [Java.compileFrom, hc]
  simp

/-- The text of a group is read back as its alternatives. -/
theorem compile_constructPattern {table : List Text} (h : ∀ s ∈ alternatives table, IsPlain s)
    (rest : Text) :
    Java.compileFrom .outside (constructPattern table ++ rest) =
      (Java.compileFrom .outside rest).map (.group (alternatives table) :: ·) := by
  obtain ⟨x, xs, hx, htext⟩ : ∃ x xs, alternatives table = x :: xs ∧
      ['|'].intercalate table = ['|'].intercalate (x :: xs) := by
    cases table with
    | nil => exact ⟨[], [], rfl, rfl⟩
    | cons x xs => exact ⟨x, xs, rfl, rfl⟩
  rw [hx] at h ⊢
  have hgroup := Java.compileFrom_group_intercalate [] x xs rest fun y hy c hc => (h y hy c hc).1
  rw [List.nil_append] at hgroup
  rw [← hgroup, ← htext]
  simp only [constructPattern, List.append_assoc]
  rfl

/-- The text of the pattern, up to the group of the pauses. -/
theorem compile_eq :
    Java.compile vte.getValidBNTPattern =
      (Java.compileFrom .outside (vte.constructPausePattern ++ ['\\', ')'])).map fun re =>
        .char '(' :: .group vte.places :: .char ',' :: .group vte.orientations :: .char ',' :: re := by
  have hplace := compile_constructPattern vte.isPlain_of_mem_places
  have horient := compile_constructPattern vte.isPlain_of_mem_orientations
  have htext : vte.getValidBNTPattern =
      '\\' :: '(' :: (vte.constructPlacePattern ++ '\\' :: ',' ::
        (vte.constructOrientationPattern ++ '\\' :: ',' ::
          (vte.constructPausePattern ++ ['\\', ')']))) := by
    unfold getValidBNTPattern
    simp only [List.append_assoc]
    rfl
  unfold Java.compile
  rw [htext, compileFrom_escaped '(' _ (by decide), constructPlacePattern, hplace,
    compileFrom_escaped ',' _ (by decide), constructOrientationPattern, horient,
    compileFrom_escaped ',' _ (by decide)]
  simp only [Option.map_map]
  rfl

/-- **The pattern compiles** when the pauses are plain. -/
theorem compile_getValidBNTPattern (hp : ∀ p ∈ vte.validBNTPauses, IsPlain p) :
    Java.compile vte.getValidBNTPattern = some vte.tripletPattern := by
  rw [compile_eq, constructPausePattern, compile_constructPattern (vte.isPlain_of_mem_pauses hp),
    compileFrom_escaped ')' _ (by decide)]
  rfl

/-- The characters of a pause. -/
theorem char_of_isShort {p : Text} (h : isShort p = true) :
    ∀ c ∈ p, c = '+' ∨ c = '-' ∨ IsPlain [c] := by
  have hdigits : ∀ {s : Text}, isDigits s = true → ∀ c ∈ s, c = '+' ∨ c = '-' ∨ IsPlain [c] := by
    intro s hs c hc
    exact Or.inr (Or.inr fun d hd => List.mem_singleton.mp hd ▸ isPlain_of_isDigits hs c hc)
  unfold isShort at h
  split at h
  · next c t =>
    rw [Bool.or_eq_true, Bool.and_eq_true, Bool.or_eq_true, decide_eq_true_iff,
      decide_eq_true_iff] at h
    rcases h with hall | ⟨hsign, htail⟩
    · exact hdigits hall
    · exact List.forall_mem_cons.mpr ⟨by tauto, hdigits htail⟩
  · exact absurd h (by decide)

/-- The pattern compiles only then: the sign `+` has a meaning of its own. -/
theorem isPlain_of_compile (h : (Java.compile vte.getValidBNTPattern).isSome = true) :
    ∀ p ∈ vte.validBNTPauses, IsPlain p := by
  rw [compile_eq, Option.isSome_map] at h
  have hgroup : (Java.compileFrom (.group [] [])
      (['|'].intercalate vte.validBNTPauses ++ ')' :: ['\\', ')'])).isSome = true := by
    simpa [constructPausePattern, constructPattern, Java.compileFrom] using h
  have hclose : ')' ∉ ['|'].intercalate vte.validBNTPauses := by
    rw [Java.mem_intercalate_iff (by decide)]
    intro hmem
    obtain ⟨p, hp, hc⟩ := hmem
    rcases char_of_isShort (vte.pauses_valid p hp) _ hc with heq | heq | hplain
    · exact absurd heq (by decide)
    · exact absurd heq (by decide)
    · exact absurd (hplain _ List.mem_cons_self).1 (by decide)
  intro p hp c hc
  rcases char_of_isShort (vte.pauses_valid p hp) c hc with rfl | rfl | hplain
  · -- a pause with this sign does not get through
    have hmem : '+' ∈ ['|'].intercalate vte.validBNTPauses :=
      (Java.mem_intercalate_iff (by decide)).mpr ⟨p, hp, hc⟩
    have := Java.isMeta_of_compileFrom_group hgroup hclose '+' hmem
    exact absurd this (by decide)
  · decide
  · exact hplain c List.mem_cons_self

end ValidTaskElements

end RefereeBox
