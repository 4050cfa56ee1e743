import RefereeBox.Model.Configuration

/-! # The Positions of a Configuration

  What `parsePositions` makes of the entries of a places property, compared
  with the entries of the form `label(x/y)`. An entry with a label in front
  and two pieces behind it is put into the map whatever the pieces are, one
  with fewer pieces ends the method with an exception, and brackets and the
  slash stand for each other. So the map and the result are those of the
  well-formed entries exactly when the others go unheard (`NoStrayEntries`).
-/

namespace RefereeBox

open Java

/-! ### Entries -/

/-- An entry `label(x/y)`, with blanks where the delimiters take them. -/
def IsPosition (u : Unicode) (e label : Text) (p : Point) : Prop :=
  isLabel u label = true ∧ ∃ sx sy b₁ b₂ b₃ b₄ b₅ b₆ : Text,
    u.parseInt sx = some p.x ∧ u.parseInt sy = some p.y ∧
    (∀ b ∈ [b₁, b₂, b₃, b₄, b₅, b₆], Scanner.Blank b) ∧
    e = label ++ (b₁ ++ '(' :: (b₂ ++ (sx ++ (b₃ ++ '/' :: (b₄ ++ (sy ++ (b₅ ++ ')' :: b₆)))))))

/-- An entry with a label and two more pieces, with the point that it gives. -/
def Names (u : Unicode) (e label : Text) (p : Point) : Prop :=
  isLabel u label = true ∧ ∃ sx sy rest, piecesOf e = label :: sx :: sy :: rest ∧
    p = ⟨(u.parseInt sx).getD 0, (u.parseInt sy).getD 0⟩

/-- An entry that passes the checks: a label and two numbers in front. -/
def Passes (u : Unicode) (e : Text) : Prop :=
  ∃ label sx sy rest, piecesOf e = label :: sx :: sy :: rest ∧ isLabel u label = true ∧
    (u.parseInt sx).isSome = true ∧ (u.parseInt sy).isSome = true

/-- An entry that has a piece, and behind a label two more. -/
def Complete (u : Unicode) (e : Text) : Prop :=
  ∃ s scnr1, piecesOf e = s :: scnr1 ∧ (isLabel u s = true → 2 ≤ scnr1.length)

/-- `Gives R old es label p`: when the entries `es` are taken over a map, and `R`
    says which point an entry gives to which label, then `p` is the point of the
    label. The last entry for the label wins. -/
inductive Gives (R : Text → Text → Point → Prop) (old : Positions) :
    List Text → Text → Point → Prop where
  | old {label : Text} {p : Point} : old.get? label = some p → Gives R old [] label p
  | last {es : List Text} {e label : Text} {p : Point} :
      R e label p → Gives R old (es ++ [e]) label p
  | skip {es : List Text} {e label : Text} {p : Point} :
      (∀ p', ¬ R e label p') → Gives R old es label p → Gives R old (es ++ [e]) label p

theorem gives_nil_iff {R : Text → Text → Point → Prop} {old : Positions} {label : Text} {p : Point} :
    Gives R old [] label p ↔ old.get? label = some p := by
  constructor
  · intro h
    generalize hes : ([] : List Text) = es at h
    cases h with
    | old h => exact h
    | last _ => exact absurd hes.symm (by simp)
    | skip _ _ => exact absurd hes.symm (by simp)
  · exact .old

theorem gives_concat_iff {R : Text → Text → Point → Prop} {old : Positions} {es : List Text}
    {e label : Text} {p : Point} :
    Gives R old (es ++ [e]) label p ↔
      R e label p ∨ ((∀ p', ¬ R e label p') ∧ Gives R old es label p) := by
  constructor
  · intro h
    generalize hes : es ++ [e] = es' at h
    cases h with
    | old _ => exact absurd hes (by simp)
    | last h =>
      obtain ⟨-, rfl⟩ := List.append_singleton_inj.mp hes
      exact Or.inl h
    | skip hnone h =>
      obtain ⟨rfl, rfl⟩ := List.append_singleton_inj.mp hes
      exact Or.inr ⟨hnone, h⟩
  · rintro (h | ⟨hnone, h⟩)
    · exact .last h
    · exact .skip hnone h

/-- Entries behind others are taken over what those have left. -/
theorem gives_append_iff {R : Text → Text → Point → Prop} {old old' : Positions}
    (es : List Text) {es' : List Text} (hold : ∀ label p, old'.get? label = some p ↔ Gives R old es label p)
    {label : Text} {p : Point} :
    Gives R old (es ++ es') label p ↔ Gives R old' es' label p := by
  induction es' using List.reverseRecOn generalizing label p with
  | nil => rw [List.append_nil, gives_nil_iff, hold]
  | append_singleton es' e ih => rw [← List.append_assoc, gives_concat_iff, gives_concat_iff, ih]

/-- Entries that give the label nothing do not count. -/
theorem gives_append_of_none {R : Text → Text → Point → Prop} {old : Positions}
    (es : List Text) {es' : List Text} {label : Text} (hnone : ∀ e ∈ es', ∀ p, ¬ R e label p)
    {p : Point} : Gives R old (es ++ es') label p ↔ Gives R old es label p := by
  induction es' using List.reverseRecOn with
  | nil => rw [List.append_nil]
  | append_singleton es' e ih =>
    have he := hnone e (List.mem_append_right es' (List.mem_singleton_self e))
    rw [← List.append_assoc, gives_concat_iff, ih fun e' he' => hnone e' (List.mem_append_left [e] he')]
    exact ⟨fun h => h.elim (fun h => absurd h (he p)) And.right, fun h => Or.inr ⟨he, h⟩⟩

/-- A label has one point at most. -/
theorem Gives.unique {R : Text → Text → Point → Prop} {old : Positions} {es : List Text}
    {label : Text} (hR : ∀ e p p', R e label p → R e label p' → p = p') {p p' : Point}
    (h : Gives R old es label p) (h' : Gives R old es label p') : p = p' := by
  induction es using List.reverseRecOn with
  | nil =>
    rw [gives_nil_iff] at h h'
    exact Option.some.inj (h.symm.trans h')
  | append_singleton es e ih =>
    rw [gives_concat_iff] at h h'
    rcases h with h | ⟨hnone, h⟩
    · exact h'.elim (hR e p p' h) fun h' => absurd h (h'.1 p)
    · exact h'.elim (fun h' => absurd h' (hnone p')) fun h' => ih h h'.2

/-! ### One entry -/

section entry

variable {u : Unicode} {e label : Text} {p p' : Point}

theorem isWordChar_of_isLabel (h : isLabel u label = true) :
    label ≠ [] ∧ ∀ c ∈ label, u.IsWordChar c := by
  unfold isLabel at h
  split at h
  · next c d =>
    rw [Bool.and_eq_true, Bool.and_eq_true] at h
    refine ⟨List.cons_ne_nil c [d], fun x hx => ?_⟩
    rcases List.mem_pair.mp hx with rfl | rfl
    · exact Or.inl h.1.1
    · exact Or.inr (Or.inl h.2)
  · exact absurd h (by decide)

/-- The separators of the pieces are neither letters nor digits nor signs. -/
theorem pieceSeparators : ∀ c ∈ "/|()".toList,
    c.toNat < 128 ∧ c.isAlphanum = false ∧ c ≠ '+' ∧ c ≠ '-' := by decide

/-- The pieces of an entry of the form are its label and its numbers. -/
theorem IsPosition.pieces (h : IsPosition u e label p) :
    ∃ sx sy, piecesOf e = [label, sx, sy] ∧ u.parseInt sx = some p.x ∧ u.parseInt sy = some p.y := by
  obtain ⟨hlabel, sx, sy, b₁, b₂, b₃, b₄, b₅, b₆, hx, hy, hblank, rfl⟩ := h
  simp only [List.forall_mem_cons] at hblank
  obtain ⟨h₁, h₂, h₃, h₄, h₅, h₆, -⟩ := hblank
  obtain ⟨hne, hword⟩ := isWordChar_of_isLabel hlabel
  obtain ⟨hxne, hxword⟩ := Unicode.isWordChar_of_parseInt hx
  obtain ⟨hyne, hyword⟩ := Unicode.isWordChar_of_parseInt hy
  have hsolid : ∀ {a : Text}, (∀ c ∈ a, u.IsWordChar c) → Scanner.Solid (oneOf "/|()") a :=
    fun ha => Scanner.solid_of_isWordChar pieceSeparators ha
  refine ⟨sx, sy, ?_, hx, hy⟩
  -- from left to right, a piece and the delimiter behind it
  unfold piecesOf
  rw [Scanner.tokens_solid (hsolid hword) hne h₁ (by decide) (by decide),
    Scanner.tokens_separator h₁ h₂ (by decide) (by decide) (hsolid hxword) hxne,
    Scanner.tokens_solid (hsolid hxword) hxne h₃ (by decide) (by decide),
    Scanner.tokens_separator h₃ h₄ (by decide) (by decide) (hsolid hyword) hyne,
    Scanner.tokens_solid (hsolid hyword) hyne h₅ (by decide) (by decide),
    Scanner.tokens_end h₅ h₆ (by decide) (by decide)]

theorem IsPosition.names (h : IsPosition u e label p) : Names u e label p := by
  obtain ⟨sx, sy, hpieces, hx, hy⟩ := h.pieces
  exact ⟨h.1, sx, sy, [], hpieces, by rw [hx, hy]; rfl⟩

theorem IsPosition.passes (h : IsPosition u e label p) : Passes u e := by
  obtain ⟨sx, sy, hpieces, hx, hy⟩ := h.pieces
  exact ⟨label, sx, sy, [], hpieces, h.1, by rw [hx]; rfl, by rw [hy]; rfl⟩

theorem Names.unique (h : Names u e label p) (h' : Names u e label p') : p = p' := by
  obtain ⟨-, sx, sy, rest, hpieces, rfl⟩ := h
  obtain ⟨-, sx', sy', rest', hpieces', rfl⟩ := h'
  rw [hpieces] at hpieces'
  cases hpieces'
  rfl

theorem IsPosition.unique (h : IsPosition u e label p) (h' : IsPosition u e label p') : p = p' :=
  h.names.unique h'.names

/-- What one entry is to the loop: an exception, an entry without a label, or an
    entry that is put. -/
theorem readEntry_cases (u : Unicode) (e : Text) :
    (¬ Complete u e ∧ readEntry u e = .error .noSuchElement) ∨
      (Complete u e ∧ readEntry u e = .ok none ∧ (∀ label p, ¬ Names u e label p) ∧ ¬ Passes u e) ∨
      ∃ s x y, Complete u e ∧ readEntry u e = .ok (some (s, x, y)) ∧
        (∀ label p, Names u e label p ↔ label = s ∧ p = ⟨x.getD 0, y.getD 0⟩) ∧
        (Passes u e ↔ x.isSome = true ∧ y.isSome = true) := by
  unfold readEntry Complete Names Passes
  cases hpieces : piecesOf e with
  | nil => exact Or.inl ⟨by simp, rfl⟩
  | cons s scnr1 =>
    by_cases hlabel : isLabel u s = true
    · match scnr1 with
      | [] => exact Or.inl ⟨by simp [hlabel], if_pos hlabel⟩
      | [sx] => exact Or.inl ⟨by simp [hlabel], if_pos hlabel⟩
      | sx :: sy :: rest =>
        refine Or.inr (Or.inr ⟨s, u.parseInt sx, u.parseInt sy, ?_, if_pos hlabel, ?_, ?_⟩)
        · exact ⟨s, _, rfl, fun _ => Nat.le_add_left 2 rest.length⟩
        · intro label p
          constructor
          · rintro ⟨-, sx', sy', rest', hcons, rfl⟩
            cases hcons
            exact ⟨rfl, rfl⟩
          · rintro ⟨rfl, rfl⟩
            exact ⟨hlabel, sx, sy, rest, rfl, rfl⟩
        · constructor
          · rintro ⟨label, sx', sy', rest', hcons, -, hx, hy⟩
            cases hcons
            exact ⟨hx, hy⟩
          · rintro ⟨hx, hy⟩
            exact ⟨s, sx, sy, rest, rfl, hlabel, hx, hy⟩
    · refine Or.inr (Or.inl ⟨⟨s, scnr1, rfl, fun h => absurd h hlabel⟩, if_neg hlabel, ?_, ?_⟩)
      · rintro label p ⟨h, sx, sy, rest, hcons, -⟩
        cases hcons
        exact hlabel h
      · rintro ⟨label, sx, sy, rest, hcons, h, -⟩
        cases hcons
        exact hlabel h

end entry

/-! ### The loop -/

/-- An entry that is not complete ends the loop. -/
theorem parseEntries_error {u : Unicode} {es : List Text} (h : ∃ e ∈ es, ¬ Complete u e)
    (allValid : Bool) (hashMap : Positions) :
    ∃ ex, (parseEntries u es allValid (some hashMap)).1 = .error ex := by
  induction es generalizing allValid hashMap with
  | nil =>
    obtain ⟨e, he, -⟩ := h
    exact absurd he List.not_mem_nil
  | cons tri scnr ih =>
    have hrest : Complete u tri → ∃ e ∈ scnr, ¬ Complete u e := by
      intro hcomplete
      obtain ⟨e, he, hnot⟩ := h
      rcases List.mem_cons.mp he with rfl | he
      · exact absurd hcomplete hnot
      · exact ⟨e, he, hnot⟩
    rcases readEntry_cases u tri with ⟨-, hread⟩ | ⟨hcomplete, hread, -⟩ | ⟨s, x, y, hcomplete, hread, -⟩
    · exact ⟨.noSuchElement, by rw [parseEntries, hread]⟩
    · obtain ⟨ex, hex⟩ := ih (hrest hcomplete) false hashMap
      exact ⟨ex, by rw [parseEntries, hread]; exact hex⟩
    · obtain ⟨ex, hex⟩ := ih (hrest hcomplete) (allValid && x.isSome && y.isSome)
        (hashMap.put s ⟨x.getD 0, y.getD 0⟩)
      exact ⟨ex, by rw [parseEntries, hread]; exact hex⟩

/-- **Complete entries**: the map is what the entries with a label and two pieces
    give, and the result is whether all entries pass the checks. -/
theorem parseEntries_ok {u : Unicode} {es : List Text} (h : ∀ e ∈ es, Complete u e)
    (allValid : Bool) (hashMap : Positions) :
    ∃ result hashMap', parseEntries u es allValid (some hashMap) = (.ok result, some hashMap') ∧
      (result = true ↔ allValid = true ∧ ∀ e ∈ es, Passes u e) ∧
      ∀ label p, hashMap'.get? label = some p ↔ Gives (Names u) hashMap es label p := by
  induction es generalizing allValid hashMap with
  | nil => exact ⟨allValid, hashMap, rfl, by simp, fun label p => gives_nil_iff.symm⟩
  | cons tri scnr ih =>
    have hscnr : ∀ e ∈ scnr, Complete u e := fun e he => h e (List.mem_cons_of_mem tri he)
    rcases readEntry_cases u tri with ⟨hnot, -⟩ | ⟨-, hread, hnames, hpasses⟩ |
      ⟨s, x, y, -, hread, hnames, hpasses⟩
    · exact absurd (h tri List.mem_cons_self) hnot
    · -- the entry has no label: it is reported, and skipped
      obtain ⟨result, hashMap', hparse, hresult, hmap⟩ := ih hscnr false hashMap
      refine ⟨result, hashMap', by rw [parseEntries, hread]; exact hparse, ?_, fun label p => ?_⟩
      · rw [hresult, List.forall_mem_cons]
        exact iff_of_false (fun h => absurd h.1 Bool.false_ne_true) fun h => hpasses h.2.1
      · refine (hmap label p).trans (gives_append_iff [tri] fun label p => ?_).symm
        exact gives_nil_iff.symm.trans (gives_append_of_none [] fun e he p => by
          rw [List.mem_singleton.mp he]
          exact hnames label p).symm
    · obtain ⟨result, hashMap', hparse, hresult, hmap⟩ := ih hscnr
        (allValid && x.isSome && y.isSome) (hashMap.put s ⟨x.getD 0, y.getD 0⟩)
      refine ⟨result, hashMap', by rw [parseEntries, hread]; exact hparse, ?_, fun label p => ?_⟩
      · rw [hresult, List.forall_mem_cons, hpasses, Bool.and_eq_true, Bool.and_eq_true]
        tauto
      · refine (hmap label p).trans (gives_append_iff [tri] fun label p => ?_).symm
        rw [← List.nil_append [tri], gives_concat_iff, gives_nil_iff, LinkedMap.get?_put]
        simp only [hnames]
        by_cases hs : s = label
        · simp [hs, eq_comm]
        · simp [hs, Ne.symm hs]

/-! ### The map and the result -/

namespace TaskElements

variable {vte : TaskElements} {c : CompetitionIdentifier} {old : Positions}

theorem positions_setPositions (hc : vte.positions c = some old) (hashMap : Positions) :
    (vte.setPositions c hashMap).positions c = some hashMap := by
  cases c with
  | bnt | bmt | btt | ctt => rfl
  | cbt | ppt => exact absurd hc (by simp [positions])

end TaskElements

/-- The map is written back behind the loop, also if the loop ends with an exception. -/
theorem call_parsePositions_eq (u : Unicode) (str : Text) (c : CompetitionIdentifier)
    (vte : TaskElements) :
    (parsePositions u (some str) c).call vte =
      ((parseEntries u (entriesOf str) true (vte.positions c)).1,
        ((parseEntries u (entriesOf str) true (vte.positions c)).2.map
          (vte.setPositions c)).getD vte) := by
  show Populating.call (do
    modify fun vte' => ((parseEntries u (entriesOf str) true (vte.positions c)).2.map
      (vte'.setPositions c)).getD vte'
    parsePositions.liftExcept (parseEntries u (entriesOf str) true (vte.positions c)).1) vte = _
  cases (parseEntries u (entriesOf str) true (vte.positions c)).1 <;> rfl

theorem call_parsePositions (u : Unicode) (str : Text) {c : CompetitionIdentifier}
    {vte : TaskElements} {old hashMap : Positions} {result : Except Exn Bool}
    (hc : vte.positions c = some old)
    (h : parseEntries u (entriesOf str) true (some old) = (result, some hashMap)) :
    (parsePositions u (some str) c).call vte = (result, vte.setPositions c hashMap) := by
  rw [call_parsePositions_eq, hc, h]
  rfl

theorem isLabel_of_readEntry {u : Unicode} {tri s : Text} {x y : Option Int}
    (h : readEntry u tri = .ok (some (s, x, y))) : isLabel u s = true := by
  rcases readEntry_cases u tri with ⟨-, hread⟩ | ⟨-, hread, -⟩ | ⟨s', x', y', -, hread, hnames, -⟩
  · exact absurd (hread.symm.trans h) (by simp)
  · exact absurd (hread.symm.trans h) (by simp)
  · obtain ⟨rfl, -⟩ := Prod.mk.inj (Option.some.inj (Except.ok.inj (hread.symm.trans h)))
    exact ((hnames s' _).mpr ⟨rfl, rfl⟩).1

/-- The map is never null behind the loop if it was not before. It keeps its keys, and
    the new ones are labels. -/
theorem parseEntries_some (u : Unicode) (es : List Text) (allValid : Bool) (hashMap : Positions) :
    ∃ hashMap', (parseEntries u es allValid (some hashMap)).2 = some hashMap' ∧
      (∀ k ∈ hashMap.keys, k ∈ hashMap'.keys) ∧
      ∀ k ∈ hashMap'.keys, k ∈ hashMap.keys ∨ isLabel u k = true := by
  induction es generalizing allValid hashMap with
  | nil => exact ⟨hashMap, rfl, fun _ => id, fun _ => Or.inl⟩
  | cons tri scnr ih =>
    unfold parseEntries
    split
    · exact ⟨hashMap, rfl, fun _ => id, fun _ => Or.inl⟩
    · exact ih false hashMap
    · next s x y hread =>
      obtain ⟨hashMap', hparse, hkept, hnew⟩ := ih (allValid && x.isSome && y.isSome)
        (hashMap.put s ⟨x.getD 0, y.getD 0⟩)
      refine ⟨hashMap', hparse, fun k hk => hkept k ((LinkedMap.mem_keys_put _).mpr (Or.inr hk)),
        fun k hk => ?_⟩
      rcases hnew k hk with hput | hlabel
      · rcases (LinkedMap.mem_keys_put _).mp hput with rfl | hold
        · exact Or.inr (isLabel_of_readEntry hread)
        · exact Or.inl hold
      · exact Or.inr hlabel

/-- The method adds the entries of the form `label(x/y)` to the map of the
    competition, the last one for a label, and nothing else, and says whether
    all entries are of the form. -/
def AddsPositions (u : Unicode) (str : Text) (c : CompetitionIdentifier) (vte : TaskElements)
    (old : Positions) : Prop :=
  ∃ allValid hashMap,
    (parsePositions u (some str) c).call vte = (.ok allValid, vte.setPositions c hashMap) ∧
      (∀ label p, hashMap.get? label = some p ↔
        Gives (IsPosition u) old (entriesOf str) label p) ∧
      (allValid = true ↔ ∀ e ∈ entriesOf str, ∃ label p, IsPosition u e label p)

/-- Entries that are not of the form do no harm. -/
structure NoStrayEntries (u : Unicode) (old : Positions) (es : List Text) : Prop where
  /-- Every entry has a piece, and behind a label two more. -/
  complete : ∀ e ∈ es, Complete u e
  /-- An entry that is put although it is not of the form is followed by another
      one for its label, or gives the label the point that it has anyway. -/
  overruled : ∀ pre e post label p, es = pre ++ e :: post → Names u e label p →
    (∀ p', ¬ IsPosition u e label p') →
      (∃ e' ∈ post, ∃ p', Names u e' label p') ∨ Gives (IsPosition u) old pre label p
  /-- If an entry is not of the form, then the checks object to some entry. -/
  noticed : (∀ e ∈ es, Passes u e) → ∀ e ∈ es, ∃ label p, IsPosition u e label p

/-- The last entry that gives a label something, if there is one. -/
theorem exists_last (R : Text → Text → Point → Prop) (es : List Text) (label : Text) :
    (∀ e ∈ es, ∀ p, ¬ R e label p) ∨
      ∃ pre e post p, es = pre ++ e :: post ∧ R e label p ∧ ∀ e' ∈ post, ∀ p', ¬ R e' label p' := by
  induction es with
  | nil => exact Or.inl fun e he => absurd he List.not_mem_nil
  | cons e es ih =>
    rcases ih with hnone | ⟨pre, e', post, p, rfl, he', hpost⟩
    · by_cases he : ∃ p, R e label p
      · obtain ⟨p, hp⟩ := he
        exact Or.inr ⟨[], e, es, p, rfl, hp, hnone⟩
      · left
        rw [List.forall_mem_cons]
        exact ⟨fun p hp => he ⟨p, hp⟩, hnone⟩
    · exact Or.inr ⟨e :: pre, e', post, p, rfl, he', hpost⟩

section gives

variable {u : Unicode} {old : Positions} {pre post : List Text} {e label : Text} {p : Point}

/-- Behind the last named entry nothing is of the form either. -/
theorem gives_position_iff (hpost : ∀ e' ∈ post, ∀ p', ¬ Names u e' label p') {q : Point} :
    Gives (IsPosition u) old (pre ++ e :: post) label q ↔
      IsPosition u e label q ∨
        ((∀ p', ¬ IsPosition u e label p') ∧ Gives (IsPosition u) old pre label q) := by
  rw [List.append_cons, gives_append_of_none _, gives_concat_iff]
  exact fun e' he' p' h => hpost e' he' p' h.names

theorem gives_names_iff (hpost : ∀ e' ∈ post, ∀ p', ¬ Names u e' label p')
    (he : Names u e label p) {q : Point} :
    Gives (Names u) old (pre ++ e :: post) label q ↔ q = p := by
  rw [List.append_cons, gives_append_of_none _ hpost, gives_concat_iff]
  constructor
  · rintro (h | ⟨hnone, -⟩)
    · exact h.unique he
    · exact absurd he (hnone p)
  · rintro rfl
    exact Or.inl he

end gives

/-- The two readings give every label the same point exactly if the stray entries
    are overruled. -/
theorem gives_names_iff_gives_position {u : Unicode} {old : Positions} {es : List Text} :
    (∀ label p, Gives (Names u) old es label p ↔ Gives (IsPosition u) old es label p) ↔
      ∀ pre e post label p, es = pre ++ e :: post → Names u e label p →
        (∀ p', ¬ IsPosition u e label p') →
          (∃ e' ∈ post, ∃ p', Names u e' label p') ∨ Gives (IsPosition u) old pre label p := by
  constructor
  · rintro h pre e post label p rfl he hstray
    by_cases hpost : ∃ e' ∈ post, ∃ p', Names u e' label p'
    · exact Or.inl hpost
    · -- the entry is the last one for its label
      have hpost : ∀ e' ∈ post, ∀ p', ¬ Names u e' label p' :=
        fun e' he' p' h => hpost ⟨e', he', p', h⟩
      have hgives := (h label p).mp ((gives_names_iff hpost he).mpr rfl)
      exact Or.inr (((gives_position_iff hpost).mp hgives).resolve_left (hstray p)).2
  · intro h label q
    rcases exists_last (Names u) es label with hnone | ⟨pre, e, post, p, rfl, he, hpost⟩
    · -- no entry gives the label a point in either reading
      rw [← List.nil_append es, gives_append_of_none _ hnone,
        gives_append_of_none _ fun e he p h => hnone e he p h.names, gives_nil_iff, gives_nil_iff]
    · rw [gives_names_iff hpost he, gives_position_iff hpost]
      by_cases hform : ∃ p', IsPosition u e label p'
      · obtain ⟨p', hp'⟩ := hform
        obtain rfl := he.unique hp'.names
        constructor
        · rintro rfl
          exact Or.inl hp'
        · rintro (h | ⟨hnone, -⟩)
          · exact h.unique hp'
          · exact absurd hp' (hnone p)
      · have hform : ∀ p', ¬ IsPosition u e label p' := fun p' h => hform ⟨p', h⟩
        have hold := (h pre e post label p rfl he hform).resolve_left
          fun ⟨e', he', p', h'⟩ => hpost e' he' p' h'
        constructor
        · rintro rfl
          exact Or.inr ⟨hform, hold⟩
        · rintro (h | ⟨-, h⟩)
          · exact absurd h (hform q)
          · exact h.unique (fun _ _ _ => IsPosition.unique) hold

/-- **Positions.** On a competition with a map, the method does with the value of a
    places property what it is to do exactly if the value has no stray entries. -/
theorem parsePositions_iff (u : Unicode) (str : Text) {c : CompetitionIdentifier}
    {vte : TaskElements} {old : Positions} (hc : vte.positions c = some old) :
    AddsPositions u str c vte old ↔ NoStrayEntries u old (entriesOf str) := by
  by_cases hcomplete : ∀ e ∈ entriesOf str, Complete u e
  · obtain ⟨result, hashMap', hparse, hresult, hmap⟩ := parseEntries_ok hcomplete true old
    have hcall := call_parsePositions u str hc hparse
    simp only [true_and] at hresult
    -- the map and the result are compared one after the other
    have hverdict : (result = true ↔ ∀ e ∈ entriesOf str, ∃ label p, IsPosition u e label p) ↔
        ((∀ e ∈ entriesOf str, Passes u e) → ∀ e ∈ entriesOf str, ∃ label p, IsPosition u e label p) := by
      rw [hresult]
      refine ⟨Iff.mp, fun h => ⟨h, fun h' e he => ?_⟩⟩
      obtain ⟨label, p, hform⟩ := h' e he
      exact hform.passes
    constructor
    · rintro ⟨allValid, hashMap, hcall', hmap', hverdict'⟩
      rw [hcall] at hcall'
      obtain ⟨hres, hvte⟩ := Prod.mk.inj hcall'
      cases hres
      have hsame : hashMap' = hashMap := by
        have hpos := congrArg (fun vte => vte.positions c) hvte
        rw [TaskElements.positions_setPositions hc, TaskElements.positions_setPositions hc] at hpos
        exact Option.some.inj hpos
      exact ⟨hcomplete, gives_names_iff_gives_position.mp fun label p =>
        (hmap label p).symm.trans (hsame ▸ hmap' label p), hverdict.mp hverdict'⟩
    · rintro ⟨-, hoverruled, hnoticed⟩
      refine ⟨result, hashMap', hcall, fun label p => ?_, hverdict.mpr hnoticed⟩
      exact (hmap label p).trans (gives_names_iff_gives_position.mpr hoverruled label p)
  · -- the method ends with an exception
    have hcomplete' : ∃ e ∈ entriesOf str, ¬ Complete u e := by
      simpa only [not_forall, exists_prop] using hcomplete
    obtain ⟨ex, hex⟩ := parseEntries_error hcomplete' true old
    obtain ⟨hashMap', hmap', -⟩ := parseEntries_some u (entriesOf str) true old
    refine iff_of_false ?_ fun h => hcomplete h.complete
    rintro ⟨allValid, hashMap, hcall, -⟩
    rw [call_parsePositions u str hc (Prod.ext hex hmap')] at hcall
    exact absurd (Prod.mk.inj hcall).1 (by simp)

/-- A value without stray entries. -/
theorem parsePositions_two :
    TaskElements.empty.positions .btt = some .empty ∧
      (AddsPositions ascii "S1(438/550), S2(95/500)".toList .btt .empty .empty ↔
        NoStrayEntries ascii .empty (entriesOf "S1(438/550), S2(95/500)".toList)) :=
  ⟨rfl, parsePositions_iff ascii _ rfl⟩

/-- A position without a number is reported, and put. One without brackets is put
    and not even reported, and one without a second piece is an exception. -/
theorem parsePositions_strays :
    ¬ AddsPositions ascii "S1(12/x)".toList .bnt .empty .empty ∧
      ¬ AddsPositions ascii "S1/12/34".toList .bnt .empty .empty ∧
      ¬ AddsPositions ascii "S1(12)".toList .bnt .empty .empty := by
  refine ⟨?_, ?_, ?_⟩
  · rintro ⟨allValid, hashMap, hcall, hmap, -⟩
    have hentries : entriesOf "S1(12/x)".toList = [] ++ ["S1(12/x)".toList] := by decide
    have hput := congrArg (fun r => (r.2.positions .bnt).bind fun m => m.get? "S1".toList) hcall
    have hpoint : hashMap.get? "S1".toList = some ⟨12, 0⟩ := hput.symm.trans (by decide)
    have hgives := (hmap "S1".toList ⟨12, 0⟩).mp hpoint
    rw [hentries, gives_concat_iff, gives_nil_iff] at hgives
    rcases hgives with hform | ⟨-, hold⟩
    · obtain ⟨sx, sy, hpieces, -, hy⟩ := hform.pieces
      have hpieces' : piecesOf "S1(12/x)".toList = ["S1".toList, "12".toList, "x".toList] := by decide
      rw [hpieces'] at hpieces
      cases hpieces
      exact absurd hy (by decide)
    · exact absurd hold (by simp)
  · rintro ⟨allValid, hashMap, hcall, -, hverdict⟩
    have hcode : ((parsePositions ascii (some "S1/12/34".toList) .bnt).call .empty).1 = .ok true := by
      decide
    have htrue := Except.ok.inj ((congrArg Prod.fst hcall).symm.trans hcode)
    obtain ⟨label, p, -, sx, sy, b₁, b₂, b₃, b₄, b₅, b₆, -, -, -, he⟩ :=
      hverdict.mp htrue "S1/12/34".toList (by decide)
    have hmem : '(' ∈ "S1/12/34".toList := by
      rw [he]
      simp
    exact absurd hmem (by decide)
  · rintro ⟨allValid, hashMap, hcall, -⟩
    have hcode : ((parsePositions ascii (some "S1(12)".toList) .bnt).call .empty).1 =
        .error .noSuchElement := by decide
    exact absurd ((congrArg Prod.fst hcall).symm.trans hcode) (by simp)

end RefereeBox
