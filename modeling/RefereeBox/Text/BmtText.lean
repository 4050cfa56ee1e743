import RefereeBox.Text.BntText

/-! # The BMT Text

  What the BMT branch of `parseTaskSpecString` loads from a line. It counts
  tokens from both ends of the line and never rejects anything. A complete
  line (`BmtForm`) is read and printed back as it is; from any other line
  the branch loads what stands at the counted positions.
-/

namespace RefereeBox

open Loop

/-! ### Complete lines -/

/-- The delimiters of a BMT line. -/
def isBmtDelim : Char → Bool := Java.oneOf "<>,()"

/-- The contents of a complete BMT line: no text contains a delimiter, there
    is an object, and the final place is not empty. -/
structure BmtForm where
  placeInitial : Text
  placeSource : Text
  placeDestination : Text
  configuration : Text
  object : Text
  objects : List Text
  placeFinal : Text
  places_plain : ∀ x ∈ [placeInitial, placeSource, placeDestination, configuration, placeFinal],
    ∀ c ∈ x, isBmtDelim c = false
  objects_plain : ∀ x ∈ object :: objects, ∀ c ∈ x, isBmtDelim c = false
  placeFinal_ne : placeFinal ≠ []

/-- The line. -/
def BmtForm.text (f : BmtForm) : Text :=
  "BMT<".toList ++ (f.placeInitial ++ ",".toList ++ f.placeSource ++ ",".toList ++
    f.placeDestination ++ ",".toList ++ f.configuration ++ "(".toList ++
    [','].intercalate (f.object :: f.objects) ++ ")".toList ++ ",".toList ++ f.placeFinal) ++
    ">".toList

/-- The static fields that the line sets. -/
def BmtForm.statics (f : BmtForm) : BmtStatics where
  placeInitial := some f.placeInitial
  placeSource := some f.placeSource
  placeDestination := some f.placeDestination
  placeFinal := some f.placeFinal
  configuration := some f.configuration

/-- A task for each object. -/
def bmtTasks (objects : List Text) : List BmtTask := objects.map fun object => { object := object }

/-! ### Printing -/

/-- The loop over the objects puts a comma in front of each further one. -/
theorem foldl_objects (x : Text) (xs : List Text) :
    (bmtTasks xs).foldl (fun s t => s ++ ",".toList ++ t.object) x = [','].intercalate (x :: xs) := by
  induction xs generalizing x with
  | nil => rw [List.intercalate_singleton]; rfl
  | cons y ys ih =>
    have hstep : (bmtTasks (y :: ys)).foldl (fun s t => s ++ ",".toList ++ t.object) x =
        (bmtTasks ys).foldl (fun s t => s ++ ",".toList ++ t.object) (x ++ ",".toList ++ y) := rfl
    rw [hstep, ih]
    cases ys <;> simp [List.intercalate]

/-- A complete line is what its contents print. -/
theorem bmtString_form (f : BmtForm) :
    (bmtString f.statics (bmtTasks (f.object :: f.objects))).map
      (fun x => CompetitionIdentifier.bmt.name ++ "<".toList ++ x ++ ">".toList) = .ok f.text := by
  have hobjects := foldl_objects f.object f.objects
  unfold BmtForm.text
  rw [← hobjects]
  simp [bmtString, bmtTasks, BmtForm.statics, nonNull, CompetitionIdentifier.name, Except.map,
    Except.bind, bind, pure, Except.pure]

/-! ### Reading -/

/-- The tokens of a complete line. -/
theorem bmtTokens_form (f : BmtForm) :
    bmtTokens f.text = ["BMT".toList, f.placeInitial, f.placeSource, f.placeDestination,
      f.configuration] ++ (f.object :: f.objects) ++ [[], f.placeFinal] := by
  have hplain := f.places_plain
  simp only [List.mem_cons, List.not_mem_nil, or_false, forall_eq_or_imp, forall_eq] at hplain
  obtain ⟨h1, h2, h3, h4, h5⟩ := hplain
  have htext : f.text = "BMT".toList ++ '<' :: (f.placeInitial ++ ',' :: (f.placeSource ++ ',' ::
      (f.placeDestination ++ ',' :: (f.configuration ++ '(' ::
        ([','].intercalate (f.object :: f.objects) ++ ')' :: ([] ++ ',' ::
          (f.placeFinal ++ '>' :: []))))))) := by
    unfold BmtForm.text
    simp
  -- every delimiter of the line ends a token
  have hsplit : f.text.splitOnP isBmtDelim =
      ["BMT".toList, f.placeInitial, f.placeSource, f.placeDestination, f.configuration] ++
        (f.object :: f.objects) ++ [[], f.placeFinal] ++ [[]] := by
    rw [htext, List.splitOnP_append_cons_of_forall_mem (by decide) '<' (by decide),
      List.splitOnP_append_cons_of_forall_mem h1 ',' (by decide),
      List.splitOnP_append_cons_of_forall_mem h2 ',' (by decide),
      List.splitOnP_append_cons_of_forall_mem h3 ',' (by decide),
      List.splitOnP_append_cons_of_forall_mem h4 '(' (by decide),
      Java.splitOnP_intercalate_append (by decide) (by decide) f.objects_plain,
      List.splitOnP_append_cons_of_forall_mem (by simp) ',' (by decide),
      List.splitOnP_append_cons_of_forall_mem h5 '>' (by decide)]
    simp
  have hany : f.text.any isBmtDelim = true := by
    rw [htext]
    simp [isBmtDelim, Java.oneOf]
  show Java.split isBmtDelim f.text = _
  -- the token behind the last bracket is empty, and is dropped
  rw [Java.split, if_pos hany, hsplit, List.rdropWhile_concat, if_pos (by rfl)]
  have hlast : List.isEmpty f.placeFinal = false := by simpa using f.placeFinal_ne
  have hdrop := List.rdropWhile_concat_neg List.isEmpty (["BMT".toList, f.placeInitial,
    f.placeSource, f.placeDestination, f.configuration] ++ (f.object :: f.objects) ++ [[]])
    f.placeFinal (by simp [hlast])
  simpa using hdrop

/-- The tokens that make a complete line. -/
theorem exists_form_of_tokens {line : Text} (hne : bmtObjects (bmtTokens line) ≠ []) :
    ∃ f : BmtForm, f.object :: f.objects = bmtObjects (bmtTokens line) ∧
      ∀ statics, bmtStaticsAfter (bmtTokens line) statics = f.statics := by
  -- an object stands behind five tokens and in front of two
  have hlen : 7 < (bmtTokens line).length := by
    have : 0 < (bmtObjects (bmtTokens line)).length := List.length_pos_iff.mpr hne
    simp only [bmtObjects, List.length_drop, List.length_take] at this
    omega
  have hplain : ∀ x ∈ bmtTokens line, ∀ c ∈ x, isBmtDelim c = false := fun x hx =>
    Java.not_delim_of_mem_split hx
  have hget : ∀ i (hi : i < (bmtTokens line).length), ∀ c ∈ (bmtTokens line)[i],
      isBmtDelim c = false := fun i hi => hplain _ (List.getElem_mem hi)
  have hlast : (bmtTokens line)[(bmtTokens line).length - 1] ≠ [] := by
    have hnil : bmtTokens line ≠ [] := by
      intro h
      rw [h] at hlen
      exact absurd hlen (by decide)
    have hlast : (bmtTokens line).getLast hnil ≠ [] :=
      Java.getLast_split_ne_nil (show 1 < (bmtTokens line).length by omega) hnil
    rwa [List.getLast_eq_getElem] at hlast
  obtain ⟨x, xs, hobjects⟩ := List.exists_cons_of_ne_nil hne
  have hobjectsPlain : ∀ y ∈ x :: xs, ∀ c ∈ y, isBmtDelim c = false := by
    rw [← hobjects]
    intro y hy
    exact hplain y (List.mem_of_mem_take (List.mem_of_mem_drop hy))
  refine ⟨{
    placeInitial := (bmtTokens line)[1]
    placeSource := (bmtTokens line)[2]
    placeDestination := (bmtTokens line)[3]
    configuration := (bmtTokens line)[4]
    object := x
    objects := xs
    placeFinal := (bmtTokens line)[(bmtTokens line).length - 1]
    places_plain := ?_
    objects_plain := hobjectsPlain
    placeFinal_ne := hlast }, hobjects.symm, ?_⟩
  · simp only [List.mem_cons, List.not_mem_nil, or_false, forall_eq_or_imp, forall_eq]
    exact ⟨hget 1 (by omega), hget 2 (by omega), hget 3 (by omega), hget 4 (by omega),
      hget _ (by omega)⟩
  · intro statics
    have hcond : (bmtObjects (bmtTokens line)).isEmpty = false := by simpa using hne
    simp [bmtStaticsAfter, hcond, BmtForm.statics]

theorem bmtObjects_form (f : BmtForm) : bmtObjects (bmtTokens f.text) = f.object :: f.objects := by
  rw [bmtTokens_form]
  have hlen : (["BMT".toList, f.placeInitial, f.placeSource, f.placeDestination, f.configuration] ++
      (f.object :: f.objects) ++ [[], f.placeFinal]).length - 2 =
      (["BMT".toList, f.placeInitial, f.placeSource, f.placeDestination, f.configuration] ++
        (f.object :: f.objects)).length := by simp
  rw [bmtObjects, hlen, List.take_left']
  · rfl
  · rfl

theorem bmtStaticsAfter_form (f : BmtForm) (statics : BmtStatics) :
    bmtStaticsAfter (bmtTokens f.text) statics = f.statics := by
  have hcond : (bmtObjects (bmtTokens f.text)).isEmpty = false := by rw [bmtObjects_form]; rfl
  have hlast : (bmtTokens f.text)[(bmtTokens f.text).length - 1]? = some f.placeFinal := by
    rw [← List.getLast?_eq_getElem?, bmtTokens_form, List.getLast?_append]
    rfl
  unfold bmtStaticsAfter
  rw [hcond, hlast, bmtTokens_form]
  rfl

/-! ### Any line -/

/-- The state that a BMT line leaves. -/
def TaskSpec.loadBmt (tS : TaskSpec) (tokens : List Text) : TaskSpec :=
  { tS with
    bmtTaskList := bmtTasks (bmtObjects tokens)
    bmtStatics := bmtStaticsAfter tokens tS.bmtStatics }

@[simp] theorem TaskSpec.loadBmt_bmtTaskList (tS : TaskSpec) (tokens : List Text) :
    (tS.loadBmt tokens).bmtTaskList = bmtTasks (bmtObjects tokens) := rfl

@[simp] theorem TaskSpec.loadBmt_bmtStatics (tS : TaskSpec) (tokens : List Text) :
    (tS.loadBmt tokens).bmtStatics = bmtStaticsAfter tokens tS.bmtStatics := rfl

/-- The state of a complete line prints it. -/
theorem getTaskSpecString_bmt_form {tS : TaskSpec} {f : BmtForm}
    (hlist : tS.bmtTaskList = bmtTasks (f.object :: f.objects)) (hstatics : tS.bmtStatics = f.statics) :
    Converges (tS.getTaskSpecString .bmt) (.ok f.text) := by
  have h := bmtString_form f
  rw [← hlist, ← hstatics] at h
  rw [← h]
  exact converges_pure _

/-- So does the state that it leaves. -/
theorem TaskSpec.loadBmt_form (tS : TaskSpec) (f : BmtForm) :
    Converges ((tS.loadBmt (bmtTokens f.text)).getTaskSpecString .bmt) (.ok f.text) := by
  apply getTaskSpecString_bmt_form
  · rw [TaskSpec.loadBmt_bmtTaskList, bmtObjects_form]
  · rw [TaskSpec.loadBmt_bmtStatics, bmtStaticsAfter_form]

/-- A state without objects prints an empty list. -/
theorem TaskSpec.loadBmt_empty (tS : TaskSpec) {tokens : List Text} (hobjects : bmtObjects tokens = []) :
    Converges ((tS.loadBmt tokens).getTaskSpecString .bmt) (.ok "BMT<>".toList) := by
  have hlist : (tS.loadBmt tokens).bmtTaskList = [] := by
    simp [TaskSpec.loadBmt, hobjects, bmtTasks]
  unfold TaskSpec.getTaskSpecString
  simp only [hlist]
  exact converges_pure _

/-- **What a BMT line loads**: the tokens at the counted positions. Printing
    gives the line back only if it is complete or lists nothing. -/
theorem bmt_line_loaded (vte : ValidTaskElements) (tS : TaskSpec) {line rest : Text}
    (hline : removeSpaces line = CompetitionIdentifier.bmt.name ++ rest) :
    ∃ text, Converges (tS.parseTaskSpecString vte line)
        (.ok true, tS.loadBmt (bmtTokens (removeSpaces line))) ∧
      Converges ((tS.loadBmt (bmtTokens (removeSpaces line))).getTaskSpecString .bmt) (.ok text) ∧
      (text = removeSpaces line ↔
        removeSpaces line = "BMT<>".toList ∨ ∃ f : BmtForm, removeSpaces line = f.text) := by
  have hparse : Converges (tS.parseTaskSpecString vte line)
      (.ok true, tS.loadBmt (bmtTokens (removeSpaces line))) := by
    rw [tS.parse_of_name vte hline]
    exact converges_map _ (converges_pure _)
  -- either nothing is loaded, or the tokens make a complete line
  by_cases hobjects : bmtObjects (bmtTokens (removeSpaces line)) = []
  · refine ⟨_, hparse, tS.loadBmt_empty hobjects, ?_⟩
    constructor
    · intro h
      exact Or.inl h.symm
    · intro h
      rcases h with h | ⟨f, h⟩
      · exact h.symm
      · rw [h, bmtObjects_form] at hobjects
        exact absurd hobjects (List.cons_ne_nil _ _)
  · obtain ⟨f, hf, hstatics⟩ := exists_form_of_tokens hobjects
    have hprint : Converges ((tS.loadBmt (bmtTokens (removeSpaces line))).getTaskSpecString .bmt)
        (.ok f.text) :=
      getTaskSpecString_bmt_form (by rw [TaskSpec.loadBmt_bmtTaskList, hf]) (hstatics _)
    refine ⟨f.text, hparse, hprint, ?_⟩
    constructor
    · intro h
      exact Or.inr ⟨f, h.symm⟩
    · intro h
      rcases h with h | ⟨g, h⟩
      · rw [h] at hobjects
        have hnil : bmtObjects (bmtTokens "BMT<>".toList) = [] := by decide
        exact absurd hnil hobjects
      · -- the same tokens give the same state, which prints the line
        rw [h] at hprint ⊢
        exact Except.ok.inj (hprint.unique (tS.loadBmt_form g))

/-! ### Accepted lines -/

/-- **What acceptance means.** A line that starts with BNT or BMT is always
    accepted. From a BNT line exactly the valid triplets that occur in it are
    loaded; from a BMT line the tokens between the configuration and the last
    two. The loaded list prints the line, blanks removed, exactly when the
    line is a list of valid triplets, or a complete or empty BMT line. -/
theorem accepted_line_loaded (vte : ValidTaskElements) (hne : vte.Nonempty)
    (hp : vte.PlainPauses) (tS : TaskSpec) (line rest : Text) :
    (removeSpaces line = CompetitionIdentifier.bnt.name ++ rest →
      ∃ ts text, Occurrences vte (removeSpaces line) ts ∧
        Converges (tS.parseTaskSpecString vte line) (.ok true, { tS with bntTaskList := ts }) ∧
        Converges (({ tS with bntTaskList := ts } : TaskSpec).getTaskSpecString .bnt) (.ok text) ∧
        (text = removeSpaces line ↔ ∃ L, (∀ t ∈ L, BntTask.IsValid vte t) ∧
          removeSpaces line = "BNT<".toList ++ bntString L ++ ">".toList)) ∧
    (removeSpaces line = CompetitionIdentifier.bmt.name ++ rest →
      ∃ text, Converges (tS.parseTaskSpecString vte line)
          (.ok true, tS.loadBmt (bmtTokens (removeSpaces line))) ∧
        Converges ((tS.loadBmt (bmtTokens (removeSpaces line))).getTaskSpecString .bmt) (.ok text) ∧
        (text = removeSpaces line ↔
          removeSpaces line = "BMT<>".toList ∨ ∃ f : BmtForm, removeSpaces line = f.text)) :=
  ⟨bnt_line_loaded hp hne tS, bmt_line_loaded vte tS⟩

theorem smallTables_nonempty : smallTables.Nonempty :=
  ⟨by decide, by decide, by decide⟩

theorem smallTables_plainPauses : smallTables.PlainPauses := by
  unfold ValidTaskElements.PlainPauses
  decide

theorem accepted_line_loaded_small :
    ∃ ts text, Occurrences smallTables "BNT<(S1,N,1);(D2,NE,10)>".toList ts ∧
      Converges (({} : TaskSpec).parseTaskSpecString smallTables
        "BNT<(S1, N, 1); (D2, NE, 10)>".toList) (.ok true, { bntTaskList := ts }) ∧
      Converges (({ bntTaskList := ts } : TaskSpec).getTaskSpecString .bnt) (.ok text) ∧
      (text = "BNT<(S1,N,1);(D2,NE,10)>".toList ↔ ∃ L, (∀ t ∈ L, BntTask.IsValid smallTables t) ∧
        "BNT<(S1,N,1);(D2,NE,10)>".toList = "BNT<".toList ++ bntString L ++ ">".toList) :=
  (accepted_line_loaded smallTables smallTables_nonempty smallTables_plainPauses {}
    "BNT<(S1, N, 1); (D2, NE, 10)>".toList "<(S1,N,1);(D2,NE,10)>".toList).1 (by decide)

/-- A triplet whose place is not in the tables is dropped from a line that is
    accepted: the loaded list prints a shorter line. -/
theorem accepted_line_drops_triplet :
    smallTables.Nonempty ∧ smallTables.PlainPauses ∧
      Converges (({} : TaskSpec).parseTaskSpecString smallTables "BNT<(S1,N,1)(S3,N,1)>".toList)
        (.ok true, { bntTaskList := [⟨some "S1".toList, some "N".toList, some "1".toList, .init⟩] }) ∧
      Converges (({ bntTaskList := [⟨some "S1".toList, some "N".toList, some "1".toList, .init⟩] } :
        TaskSpec).getTaskSpecString .bnt) (.ok "BNT<(S1,N,1)>".toList) ∧
      "BNT<(S1,N,1)>".toList ≠ removeSpaces "BNT<(S1,N,1)(S3,N,1)>".toList := by
  refine ⟨smallTables_nonempty, smallTables_plainPauses, ?_, converges_pure _, by decide⟩
  have hscan : Pattern.Scan smallTables.tripletPattern "BNT<(S1,N,1)(S3,N,1)>".toList
      [["S1".toList, "N".toList, "1".toList]] := by
    have hfind : Pattern.find smallTables.tripletPattern "BNT<(S1,N,1)(S3,N,1)>".toList =
        some (["S1".toList, "N".toList, "1".toList], "(S3,N,1)>".toList) := by decide
    exact .next hfind (.stop (by decide))
  have hname : removeSpaces "BNT<(S1,N,1)(S3,N,1)>".toList =
      CompetitionIdentifier.bnt.name ++ "<(S1,N,1)(S3,N,1)>".toList := by decide
  have hline : removeSpaces "BNT<(S1,N,1)(S3,N,1)>".toList = "BNT<(S1,N,1)(S3,N,1)>".toList := by
    decide
  rw [← hline] at hscan
  exact parse_bnt_line smallTables_plainPauses.isPlain {} hname hscan

end RefereeBox
