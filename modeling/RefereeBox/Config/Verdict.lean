import RefereeBox.Config.Positions

/-! # The Verdict on a Configuration

  What the methods behind `readFromConfigFile` do with well-formed positions.
  The loop over the orientations reports what is no compass direction and
  goes on; the loop over the pauses ends at the first entry that is no short
  integer, and reports nothing. So the result tells whether all entries are
  valid exactly when every pause is, or some orientation is not.
-/

namespace RefereeBox

open Java

/-! ### Methods in sequence -/

theorem Populating.call_bind {α β : Type} {m : Populating α} {f : α → Populating β} {a : α}
    {vte vte' : TaskElements} (h : m.call vte = (.ok a, vte')) :
    (m >>= f).call vte = (f a).call vte' := by
  unfold Populating.call at h ⊢
  rw [ExceptT.run_bind, StateT.run_bind, h]
  rfl

/-! ### Orientations and pauses -/

/-- Every entry is looked at. -/
theorem addOrientations_eq (es : List Text) (allValid : Bool) (list : List Text) :
    addOrientations es allValid list =
      (allValid && es.all (· ∈ getCompassDirectionStrings),
        list ++ es.filter (· ∈ getCompassDirectionStrings)) := by
  induction es generalizing allValid list with
  | nil => simp [addOrientations]
  | cons s es ih =>
    unfold addOrientations
    by_cases hs : s ∈ getCompassDirectionStrings <;> simp [hs, ih]

/-- The entries are looked at up to the first one that is no short integer. -/
theorem addPauses_eq (u : Unicode) (es list : List Text) :
    addPauses u es list = list ++ es.takeWhile fun i => (u.parseShort i).isSome := by
  induction es generalizing list with
  | nil => simp [addPauses]
  | cons i es ih =>
    unfold addPauses
    by_cases hi : (u.parseShort i).isSome = true <;> simp [hi, ih]

theorem call_populateValidOrientations {props : Properties} {str : Text}
    (h : props.getProperty "bnt.orientations" = some str) (vte : TaskElements) :
    (populateValidOrientations props).call vte =
      (.ok ((entriesOf str).all (· ∈ getCompassDirectionStrings)),
        { vte with
          validBNTOrientations := vte.validBNTOrientations ++
            (entriesOf str).filter (· ∈ getCompassDirectionStrings) }) := by
  unfold populateValidOrientations
  rw [h]
  show (Except.ok (addOrientations (entriesOf str) true vte.validBNTOrientations).1,
    { vte with validBNTOrientations :=
        (addOrientations (entriesOf str) true vte.validBNTOrientations).2 }) = _
  rw [addOrientations_eq, Bool.true_and]

theorem call_populateValidPauses (u : Unicode) {props : Properties} {str : Text}
    (h : props.getProperty "bnt.pauses" = some str) (vte : TaskElements) :
    (populateValidPauses u props).call vte =
      (.ok true, { vte with
        validBNTPauses := vte.validBNTPauses ++
          (entriesOf str).takeWhile fun i => (u.parseShort i).isSome }) := by
  unfold populateValidPauses
  rw [h]
  show (Except.ok true, { vte with
    validBNTPauses := addPauses u (entriesOf str) vte.validBNTPauses }) = _
  rw [addPauses_eq]

/-! ### Well-formed positions -/

/-- All entries have the form `label(x/y)`. -/
def PositionsWellFormed (u : Unicode) (str : Text) : Prop :=
  ∀ e ∈ entriesOf str, ∃ label p, IsPosition u e label p

theorem IsPosition.complete {u : Unicode} {e label : Text} {p : Point} (h : IsPosition u e label p) :
    Complete u e := by
  obtain ⟨sx, sy, hpieces, -, -⟩ := h.pieces
  exact ⟨label, [sx, sy], hpieces, fun _ => Nat.le_refl 2⟩

theorem PositionsWellFormed.complete {u : Unicode} {str : Text} (h : PositionsWellFormed u str) :
    ∀ e ∈ entriesOf str, Complete u e := by
  intro e he
  obtain ⟨label, p, hform⟩ := h e he
  exact hform.complete

/-- The map behind the loop over the entries. -/
def mapAfter (u : Unicode) (es : List Text) (old : Positions) : Positions :=
  (parseEntries u es true (some old)).2.getD old

/-- Well-formed positions are all put, and nothing is reported. -/
theorem call_parsePositions_of_wellFormed {u : Unicode} {str : Text}
    (h : PositionsWellFormed u str) {c : CompetitionIdentifier} {vte : TaskElements}
    {old : Positions} (hc : vte.positions c = some old) :
    (parsePositions u (some str) c).call vte =
      (.ok true, vte.setPositions c (mapAfter u (entriesOf str) old)) := by
  obtain ⟨result, hashMap, hparse, hresult, -⟩ := parseEntries_ok h.complete true old
  have htrue : result = true := by
    refine hresult.mpr ⟨rfl, fun e he => ?_⟩
    obtain ⟨label, p, hform⟩ := h e he
    exact hform.passes
  rw [call_parsePositions u str hc hparse, htrue, mapAfter, hparse]
  rfl

/-! ### The verdict -/

/-- On the first load the result tells whether all orientations and pauses are
    valid; and if it is true, then the tables hold all of them, in order. -/
def VerdictCovers (u : Unicode) (cfg : Properties) (orientations pauses : Text) : Prop :=
  ∃ allValid vte, (readFromConfigFile u cfg).call .empty = (.ok allValid, vte) ∧
    (allValid = true ↔
      (∀ e ∈ entriesOf orientations, e ∈ getCompassDirectionStrings) ∧
        ∀ e ∈ entriesOf pauses, (u.parseShort e).isSome = true) ∧
    (allValid = true →
      vte.validBNTOrientations = entriesOf orientations ∧ vte.validBNTPauses = entriesOf pauses)

/-- What `readFromConfigFile` does when the positions are well-formed. -/
theorem call_readFromConfigFile {u : Unicode} {cfg : Properties} {places orientations pauses : Text}
    (hplaces : cfg.getProperty "bnt.places" = some places)
    (horientations : cfg.getProperty "bnt.orientations" = some orientations)
    (hpauses : cfg.getProperty "bnt.pauses" = some pauses) (hform : PositionsWellFormed u places)
    (vte : TaskElements) :
    (readFromConfigFile u cfg).call vte =
      (.ok ((entriesOf orientations).all (· ∈ getCompassDirectionStrings)),
        { vte with
          validBNTPositions := mapAfter u (entriesOf places) vte.validBNTPositions
          validBNTOrientations := vte.validBNTOrientations ++
            (entriesOf orientations).filter (· ∈ getCompassDirectionStrings)
          validBNTPauses := vte.validBNTPauses ++
            (entriesOf pauses).takeWhile fun i => (u.parseShort i).isSome }) := by
  have hbnt : vte.positions .bnt = some vte.validBNTPositions := rfl
  have hcall := call_parsePositions_of_wellFormed hform hbnt
  rw [← hplaces] at hcall
  unfold readFromConfigFile populateLists populateValidPlaces
  rw [Populating.call_bind hcall,
    Populating.call_bind (call_populateValidOrientations horientations _),
    Populating.call_bind (call_populateValidPauses u hpauses _), Bool.true_and, Bool.and_true]
  rfl

/-- **The verdict.** With well-formed positions the result covers every orientation
    and every pause exactly if every pause is a short integer or some orientation
    is none. -/
theorem verdict_covers_iff (u : Unicode) (cfg : Properties) {places orientations pauses : Text}
    (hplaces : cfg.getProperty "bnt.places" = some places)
    (horientations : cfg.getProperty "bnt.orientations" = some orientations)
    (hpauses : cfg.getProperty "bnt.pauses" = some pauses)
    (hform : PositionsWellFormed u places) :
    VerdictCovers u cfg orientations pauses ↔
      (∀ e ∈ entriesOf pauses, (u.parseShort e).isSome = true) ∨
        ∃ e ∈ entriesOf orientations, e ∉ getCompassDirectionStrings := by
  have hcall := call_readFromConfigFile hplaces horientations hpauses hform .empty
  have hall : (entriesOf orientations).all (· ∈ getCompassDirectionStrings) = true ↔
      ∀ e ∈ entriesOf orientations, e ∈ getCompassDirectionStrings := by
    simp [List.all_eq_true]
  constructor
  · rintro ⟨allValid, vte, hcall', hverdict, -⟩
    rw [hcall] at hcall'
    cases (Prod.mk.inj hcall').1
    rw [hall] at hverdict
    by_cases hcompass : ∀ e ∈ entriesOf orientations, e ∈ getCompassDirectionStrings
    · exact Or.inl (hverdict.mp hcompass).2
    · simp only [not_forall, exists_prop] at hcompass
      exact Or.inr hcompass
  · intro hcond
    refine ⟨_, _, hcall, ?_, fun htrue => ?_⟩
    · rw [hall]
      constructor
      · intro hcompass
        refine ⟨hcompass, hcond.resolve_right ?_⟩
        rintro ⟨e, he, hnot⟩
        exact hnot (hcompass e he)
      · exact And.left
    · rw [hall] at htrue
      have hshort := hcond.resolve_right fun ⟨e, he, hnot⟩ => hnot (htrue e he)
      constructor
      · show [] ++ _ = _
        rw [List.nil_append, List.filter_eq_self]
        simpa using htrue
      · show [] ++ _ = _
        rw [List.nil_append, List.takeWhile_eq_self_iff]
        exact hshort

/-- The BNT part of a configuration file. -/
def bntProperties (orientations pauses : String) : Properties :=
  LinkedMap.empty.putAll [("bnt.places".toList, "S1(438/550)".toList),
    ("bnt.orientations".toList, orientations.toList), ("bnt.pauses".toList, pauses.toList)]

theorem positionsWellFormed_one : PositionsWellFormed ascii "S1(438/550)".toList := by
  have hentries : entriesOf "S1(438/550)".toList = ["S1(438/550)".toList] := by decide
  intro e he
  rw [hentries] at he
  rw [List.mem_singleton.mp he]
  exact ⟨"S1".toList, ⟨438, 550⟩, by decide, "438".toList, "550".toList, [], [], [], [], [], [],
    by decide, by decide, by simp [Scanner.Blank], rfl⟩

theorem verdict_covers_valid :
    VerdictCovers ascii (bntProperties "N, S" "3") "N, S".toList "3".toList ↔
      (∀ e ∈ entriesOf "3".toList, (ascii.parseShort e).isSome = true) ∨
        ∃ e ∈ entriesOf "N, S".toList, e ∉ getCompassDirectionStrings :=
  verdict_covers_iff ascii (bntProperties "N, S" "3") (by decide) (by decide) (by decide)
    positionsWellFormed_one

/-- A pause that is no number is not reported, and hides the one behind it. -/
theorem verdict_misses_pause :
    ¬ VerdictCovers ascii (bntProperties "N, S" "3, x, 5") "N, S".toList "3, x, 5".toList := by
  rintro ⟨allValid, vte, hcall, hverdict, -⟩
  have hcode : ((readFromConfigFile ascii (bntProperties "N, S" "3, x, 5")).call .empty).1 =
      .ok true := by decide
  have htrue := Except.ok.inj ((congrArg Prod.fst hcall).symm.trans hcode)
  have hshort := (hverdict.mp htrue).2 "x".toList (by decide)
  exact absurd hshort (by decide)

end RefereeBox
