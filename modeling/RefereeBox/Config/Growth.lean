import RefereeBox.Config.Verdict

/-! # The Tables Grow

  What a load can do to the BNT tables, whether it accepts the file or not: it
  adds entries, and takes none out (`Grows`). New entries have passed the checks
  of the method that adds them, also when the method ends with an exception
  later, so the tables always are tables with checks (`HasBnt`).
-/

namespace RefereeBox

open Java

/-! ### Checks -/

section

variable {u : Unicode}

theorem isDigit_or_beyondAscii {c : Char} (h : u.isDigit c = true) :
    c.isDigit = true ∨ beyondAscii c = true := by
  by_cases hc : c.toNat < 128
  · unfold Unicode.isDigit at h
    rw [u.digit_ascii c hc] at h
    split at h
    · next hdigit => exact Or.inl hdigit
    · exact absurd h (by decide)
  · exact Or.inr (decide_eq_true (by omega))

/-- What `isLabel` lets through is a place label. -/
theorem isPlaceLabel_of_isLabel {s : Text} (h : isLabel u s = true) : isPlaceLabel s = true := by
  unfold isLabel at h
  split at h
  · next c d =>
    rw [Bool.and_eq_true, Bool.and_eq_true] at h
    obtain ⟨⟨-, hupper⟩, hdigit⟩ := h
    unfold isPlaceLabel
    rw [Bool.and_eq_true, Bool.or_eq_true, Bool.or_eq_true]
    refine ⟨?_, isDigit_or_beyondAscii hdigit⟩
    by_cases hc : c.toNat < 128
    · exact Or.inl (u.isUpperCase_ascii c hc ▸ hupper)
    · exact Or.inr (decide_eq_true (by omega))
  · exact absurd h (by decide)

theorem isDigits_of_decimal {s : Text} {n : Nat} (h : u.decimal s = some n) :
    isDigits s = true := by
  obtain ⟨hne, hdigits⟩ := Unicode.isDigit_of_decimal h
  unfold isDigits
  rw [Bool.and_eq_true, List.all_eq_true]
  refine ⟨by simpa using hne, fun c hc => ?_⟩
  exact Bool.or_eq_true_iff.mpr (isDigit_or_beyondAscii (hdigits c hc))

/-- What `hasNextShort` lets through is a short integer. -/
theorem isShort_of_parseShort {s : Text} (h : (u.parseShort s).isSome = true) :
    isShort s = true := by
  obtain ⟨n, hn⟩ := Option.isSome_iff_exists.mp h
  have hint := (Option.filter_eq_some_iff.mp hn).1
  unfold Unicode.integer at hint
  split at hint
  · obtain ⟨m, hm, -⟩ := Option.map_eq_some_iff.mp hint
    simp [isShort, isDigits_of_decimal hm]
  · obtain ⟨m, hm, -⟩ := Option.map_eq_some_iff.mp hint
    simp [isShort, isDigits_of_decimal hm]
  · obtain ⟨m, hm, -⟩ := Option.map_eq_some_iff.mp hint
    have hdigits := isDigits_of_decimal hm
    cases s with
    | nil => exact absurd hdigits (by decide)
    | cons c t => simp [isShort, hdigits]

end

/-! ### Growing tables -/

namespace TaskElements

variable {vte vte' vte'' : TaskElements} {bnt : ValidTaskElements}

/-- The entries of the BNT tables have passed the checks. -/
structure Checked (vte : TaskElements) : Prop where
  places : ∀ k ∈ vte.validBNTPositions.keys, isPlaceLabel k = true
  orientations : ∀ o ∈ vte.validBNTOrientations, o ∈ getCompassDirectionStrings
  pauses : ∀ p ∈ vte.validBNTPauses, isShort p = true

theorem HasBnt.checked (h : vte.HasBnt bnt) : vte.Checked := by
  obtain ⟨hpositions, horientations, hpauses⟩ := h
  refine ⟨fun k hk => ?_, ?_, ?_⟩
  · unfold LinkedMap.keys at hk
    rw [← hpositions] at hk
    obtain ⟨p, hp, rfl⟩ := List.mem_map.mp hk
    exact bnt.places_valid p hp
  · rw [← horientations]
    exact bnt.orientations_valid
  · rw [← hpauses]
    exact bnt.pauses_valid

theorem Checked.exists_hasBnt (h : vte.Checked) : ∃ bnt, vte.HasBnt bnt :=
  ⟨{ validBNTPositions := vte.validBNTPositions.entries
     validBNTOrientations := vte.validBNTOrientations
     validBNTPauses := vte.validBNTPauses
     keys_nodup := vte.validBNTPositions.nodup
     places_valid := fun p hp => h.places p.1 (List.mem_map_of_mem hp)
     orientations_valid := h.orientations
     pauses_valid := h.pauses }, rfl, rfl, rfl⟩

/-- `vte'` has the BNT entries of `vte`, and its further ones have passed the checks. -/
structure Grows (vte vte' : TaskElements) : Prop where
  places : ∀ k ∈ vte.validBNTPositions.keys, k ∈ vte'.validBNTPositions.keys
  orientations : ∀ o ∈ vte.validBNTOrientations, o ∈ vte'.validBNTOrientations
  pauses : ∀ p ∈ vte.validBNTPauses, p ∈ vte'.validBNTPauses
  checked : vte.Checked → vte'.Checked

/-- The BNT tables are the same. -/
theorem Grows.of_eq (hpositions : vte'.validBNTPositions = vte.validBNTPositions)
    (horientations : vte'.validBNTOrientations = vte.validBNTOrientations)
    (hpauses : vte'.validBNTPauses = vte.validBNTPauses) : vte.Grows vte' := by
  refine ⟨?_, ?_, ?_, fun h => ⟨?_, ?_, ?_⟩⟩
  · rw [hpositions]; exact fun _ => id
  · rw [horientations]; exact fun _ => id
  · rw [hpauses]; exact fun _ => id
  · rw [hpositions]; exact h.places
  · rw [horientations]; exact h.orientations
  · rw [hpauses]; exact h.pauses

theorem Grows.refl (vte : TaskElements) : vte.Grows vte := .of_eq rfl rfl rfl

theorem Grows.trans (h : vte.Grows vte') (h' : vte'.Grows vte'') : vte.Grows vte'' where
  places k hk := h'.places k (h.places k hk)
  orientations o ho := h'.orientations o (h.orientations o ho)
  pauses p hp := h'.pauses p (h.pauses p hp)
  checked hc := h'.checked (h.checked hc)

end TaskElements

/-! ### Methods -/

namespace Populating

variable {α β : Type}

/-- The method only adds to the BNT tables, whatever comes of it. -/
def Adds (m : Populating α) : Prop := ∀ vte : TaskElements, vte.Grows (m.call vte).2

theorem Adds.pure (a : α) : Adds (pure a : Populating α) := fun vte => .refl vte

theorem Adds.throw (e : Exn) : Adds (throw e : Populating α) := fun vte => .refl vte

theorem Adds.bind {m : Populating α} {f : α → Populating β} (hm : Adds m)
    (hf : ∀ a, Adds (f a)) : Adds (m >>= f) := by
  intro vte
  have hfirst := hm vte
  unfold call at hfirst ⊢
  rw [ExceptT.run_bind, StateT.run_bind]
  -- an exception ends the sequence
  cases hcall : m.run.run vte with
  | mk result vte' =>
    rw [hcall] at hfirst
    cases result with
    | error e => exact hfirst
    | ok a => exact hfirst.trans (hf a vte')

/-- A method that reads the tables does not change them. -/
theorem Adds.get_bind {f : TaskElements → Populating β} (hf : ∀ vte, Adds (f vte)) :
    Adds (get >>= f) := fun vte => hf vte vte

theorem Adds.modify {f : TaskElements → TaskElements}
    (hf : ∀ vte : TaskElements, vte.Grows (f vte)) :
    Adds (modify f : Populating PUnit) := hf

end Populating

open Populating

theorem adds_scan (str : Option Text) : Adds (scan str) := by
  cases str with
  | none => exact .throw _
  | some str => exact .pure _

/-! ### The tables of BNT -/

theorem adds_parsePositions (u : Unicode) (str : Option Text) (c : CompetitionIdentifier) :
    Adds (parsePositions u str c) := by
  cases str with
  | none => exact fun vte => .refl vte
  | some str =>
    intro vte
    rw [call_parsePositions_eq]
    cases c with
    | bnt =>
      obtain ⟨hashMap, hparse, hkept, hnew⟩ :=
        parseEntries_some u (entriesOf str) true vte.validBNTPositions
      have hmap : (parseEntries u (entriesOf str) true (vte.positions .bnt)).2 = some hashMap := hparse
      rw [hmap]
      refine ⟨hkept, fun _ => id, fun _ => id, fun h => ⟨fun k hk => ?_, h.orientations, h.pauses⟩⟩
      exact (hnew k hk).elim (h.places k) isPlaceLabel_of_isLabel
    | bmt | btt | ctt | cbt | ppt =>
      cases (parseEntries u (entriesOf str) true (vte.positions _)).2 <;> exact .of_eq rfl rfl rfl

theorem adds_populateValidOrientations (props : Properties) :
    Adds (populateValidOrientations props) := by
  intro vte
  cases hstr : props.getProperty "bnt.orientations" with
  | none =>
    unfold populateValidOrientations
    rw [hstr]
    exact .refl vte
  | some str =>
    rw [call_populateValidOrientations hstr]
    refine ⟨fun _ => id, fun _ => List.mem_append_left _, fun _ => id, fun h => ?_⟩
    refine ⟨h.places, fun o ho => ?_, h.pauses⟩
    rcases List.mem_append.mp ho with hold | hnew
    · exact h.orientations o hold
    · simpa using List.of_mem_filter hnew

theorem adds_populateValidPauses (u : Unicode) (props : Properties) :
    Adds (populateValidPauses u props) := by
  intro vte
  cases hstr : props.getProperty "bnt.pauses" with
  | none =>
    unfold populateValidPauses
    rw [hstr]
    exact .refl vte
  | some str =>
    rw [call_populateValidPauses u hstr]
    refine ⟨fun _ => id, fun _ => id, fun _ => List.mem_append_left _, fun h => ?_⟩
    refine ⟨h.places, h.orientations, fun p hp => ?_⟩
    rcases List.mem_append.mp hp with hold | hnew
    · exact h.pauses p hold
    · exact isShort_of_parseShort (List.mem_takeWhile_imp (p := fun i => (u.parseShort i).isSome) hnew)

theorem adds_readFromConfigFile (u : Unicode) (cfg : Properties) :
    Adds (readFromConfigFile u cfg) :=
  .bind (adds_parsePositions u _ _) fun _ => .bind (adds_populateValidOrientations cfg) fun _ =>
    .bind (adds_populateValidPauses u cfg) fun _ => .pure _

/-! ### The tables of the other competitions -/

theorem adds_addEntries (cfg : Properties) (key : String) (list : TaskElements → List Text)
    {setList : TaskElements → List Text → TaskElements}
    (hset : ∀ (vte : TaskElements) (l : List Text), vte.Grows (setList vte l)) (initial : List Text) :
    Adds (addEntries cfg key list setList initial) :=
  .bind (adds_scan _) fun _ => .bind (.modify fun vte => hset vte _) fun _ =>
    .get_bind fun _ => .pure _

/-- A getter of positions. -/
theorem adds_positions (u : Unicode) (str : Option Text) (c : CompetitionIdentifier)
    (positions : TaskElements → Positions) :
    Adds (do
      let _ ← parsePositions u str c
      return positions (← get)) :=
  .bind (adds_parsePositions u str c) fun _ => .get_bind fun _ => .pure _

theorem adds_populatePanels (u : Unicode) (cfg : Properties) : Adds (populatePanels u cfg) := by
  unfold populatePanels getValidBMTPositions getValidBMTConfigurations getValidBMTObjects
    getValidBTTPositions getValidBTTConfigurations getValidBTTObjects getValidBTTSituations
    getValidCTTPositions getValidCTTConfigurations getValidCTTObjects getValidCTTSituations
  refine
    .bind (adds_positions u _ .bmt _) fun _ =>
    .bind (adds_addEntries cfg _ _ ?_ _) fun _ =>
    .bind (adds_addEntries cfg _ _ ?_ _) fun _ =>
    .bind (adds_positions u _ .btt _) fun _ =>
    .bind (adds_addEntries cfg _ _ ?_ _) fun _ =>
    .bind (adds_addEntries cfg _ _ ?_ _) fun _ =>
    .bind (adds_addEntries cfg _ _ ?_ _) fun _ =>
    .bind (adds_positions u _ .ctt _) fun _ =>
    .bind (adds_addEntries cfg _ _ ?_ _) fun _ =>
    .bind (adds_addEntries cfg _ _ ?_ _) fun _ =>
    .bind (adds_addEntries cfg _ _ ?_ _) fun _ => .pure ()
  -- the setters write lists of other competitions
  all_goals exact fun vte l => .of_eq rfl rfl rfl

/-! ### Loading a file -/

/-- **A load only adds to the BNT tables**, whatever its file holds. -/
theorem grows_loadConfigurationFile (u : Unicode) (s : Configuration)
    (file : Option (List (Text × Text))) : s.vte.Grows (s.loadConfigurationFile u file).2.vte := by
  cases file with
  | none => exact .refl s.vte
  | some file =>
    have hread := adds_readFromConfigFile u (s.properties.load file) s.vte
    have hpanels := adds_populatePanels u (s.properties.load file)
    show s.vte.Grows (populateValidItems u (s.properties.load file) s.vte).2
    unfold populateValidItems
    split
    · next vte' hcall =>
      rw [hcall] at hread
      exact hread.trans (hpanels vte')
    · next vte' _ hcall =>
      rw [hcall] at hread
      exact hread

end RefereeBox
