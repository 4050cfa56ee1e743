import RefereeBox.Model.Encoder
import RefereeBox.Text.BmtText
import RefereeBox.Text.Document

/-! # Lines That Restore Their List

  What is left of a BMT, CBT or PPT list after its printed line has been
  read again. The BMT and CBT lines restore their list. A PPT line has one
  source and one destination: the loop that prints it stops at the first task
  with another source, and the destination is that of the first task. So it
  restores the list exactly when all tasks share source and destination.
-/

namespace RefereeBox

open Loop ControlBreak Filling

/-- A text that a line can hold: no blank and no delimiter. -/
def Savable (s : Text) : Prop := NoDelimiter s ∧ ' ' ∉ s

instance (s : Text) : Decidable (Savable s) := inferInstanceAs (Decidable (_ ∧ _))

theorem Savable.not_oneOf {s : Text} (h : Savable s) {cs : String}
    (hcs : ∀ c, Java.oneOf cs c = true → isDelimiter c = true) :
    ∀ c ∈ s, Java.oneOf cs c = false :=
  Java.not_oneOf_of_notMem fun d hd => h.1.notMem (hcs d (List.contains_iff_mem.mpr hd))

/-! ### BMT -/

/-- Each of the shared fields is set, to a text with `P`. -/
structure BmtStatics.AllSet (P : Text → Prop) (statics : BmtStatics) : Prop where
  placeInitial : ∃ x, statics.placeInitial = some x ∧ P x
  placeSource : ∃ x, statics.placeSource = some x ∧ P x
  placeDestination : ∃ x, statics.placeDestination = some x ∧ P x
  placeFinal : ∃ x, statics.placeFinal = some x ∧ P x
  configuration : ∃ x, statics.configuration = some x ∧ P x

/-- A list of storable tasks with storable shared fields prints a complete
    line. -/
theorem exists_bmtForm {statics : BmtStatics} {t : BmtTask} {l : List BmtTask}
    (hstatics : statics.AllSet fun x => x ≠ [] ∧ Savable x)
    (hobjects : ∀ u ∈ t :: l, Savable u.object) :
    ∃ f : BmtForm, f.object :: f.objects = (t :: l).map BmtTask.object ∧ f.statics = statics ∧
      ' ' ∉ f.text := by
  -- the reader splits at delimiters of the format only
  have hplain : ∀ x, Savable x → ∀ c ∈ x, isBmtDelim c = false := fun x hx =>
    hx.not_oneOf fun c hc => by
      simp only [Java.oneOf, isDelimiter, List.contains_iff_mem] at hc ⊢
      revert c
      decide
  obtain ⟨a, ha, -, hsa⟩ := hstatics.placeInitial
  obtain ⟨b, hb, -, hsb⟩ := hstatics.placeSource
  obtain ⟨c, hc, -, hsc⟩ := hstatics.placeDestination
  obtain ⟨d, hd, hne, hsd⟩ := hstatics.placeFinal
  obtain ⟨e, he, -, hse⟩ := hstatics.configuration
  refine ⟨{
    placeInitial := a
    placeSource := b
    placeDestination := c
    configuration := e
    object := t.object
    objects := l.map BmtTask.object
    placeFinal := d
    places_plain := ?_
    objects_plain := ?_
    placeFinal_ne := hne }, rfl, ?_, ?_⟩
  · simp only [List.mem_cons, List.not_mem_nil, or_false, forall_eq_or_imp, forall_eq]
    exact ⟨hplain a hsa, hplain b hsb, hplain c hsc, hplain e hse, hplain d hsd⟩
  · intro x hx
    rw [← List.map_cons, List.mem_map] at hx
    obtain ⟨u, hu, rfl⟩ := hx
    exact hplain u.object (hobjects u hu)
  · rw [BmtForm.statics, ← ha, ← hb, ← hc, ← hd, ← he]
  · have hlist : ' ' ∉ [','].intercalate ((t :: l).map BmtTask.object) := by
      apply notMem_intercalate (by decide)
      intro x hx
      obtain ⟨u, hu, rfl⟩ := List.mem_map.mp hx
      exact (hobjects u hu).2
    rw [List.map_cons] at hlist
    simp [BmtForm.text, hsa.2, hsb.2, hsc.2, hsd.2, hse.2, hlist]

/-- The printed line does not depend on the states of the tasks. -/
theorem bmtString_map_object (statics : BmtStatics) (l : List BmtTask) :
    bmtString statics (bmtTasks (l.map BmtTask.object)) = bmtString statics l := by
  cases l with
  | nil => rfl
  | cons t l => simp [bmtString, bmtTasks, List.foldl_map]

/-- What is left of a BMT list after its line has been read again. -/
theorem bmt_restored (vte : ValidTaskElements) (tS tS' : TaskSpec)
    (hstatics : tS.bmtTaskList ≠ [] → tS.bmtStatics.AllSet fun x => x ≠ [] ∧ Savable x)
    (hobjects : ∀ t ∈ tS.bmtTaskList, Savable t.object) :
    ∃ text tS'', Converges (tS.getTaskSpecString .bmt) (.ok text) ∧
      Converges (tS'.parseTaskSpecString vte text) (.ok true, tS'') ∧
      tS''.bmtTaskList.map BmtTask.object = tS.bmtTaskList.map BmtTask.object ∧
      (tS.bmtTaskList ≠ [] → tS''.bmtStatics = tS.bmtStatics) := by
  cases hlist : tS.bmtTaskList with
  | nil =>
    have hprint : Converges (tS.getTaskSpecString .bmt) (.ok "BMT<>".toList) := by
      unfold TaskSpec.getTaskSpecString
      simp only [hlist]
      exact converges_pure _
    obtain ⟨_, hparse, -⟩ := bmt_line_loaded vte tS' (show removeSpaces "BMT<>".toList =
      CompetitionIdentifier.bmt.name ++ "<>".toList by decide)
    refine ⟨_, _, hprint, hparse, ?_, fun h => absurd rfl h⟩
    -- between the brackets there is no token
    have hnone : bmtObjects (bmtTokens (removeSpaces "BMT<>".toList)) = [] := by decide
    rw [TaskSpec.loadBmt_bmtTaskList, hnone]
    rfl
  | cons t l =>
    rw [hlist] at hstatics hobjects
    obtain ⟨f, hf, hset, hblank⟩ := exists_bmtForm (hstatics (List.cons_ne_nil t l)) hobjects
    have hprint : Converges (tS.getTaskSpecString .bmt) (.ok f.text) := by
      have h : Converges (({ tS with bmtTaskList := bmtTasks (f.object :: f.objects) } :
          TaskSpec).getTaskSpecString .bmt) (.ok f.text) :=
        getTaskSpecString_bmt_form rfl hset.symm
      unfold TaskSpec.getTaskSpecString at h ⊢
      rw [hf, bmtString_map_object, ← hlist] at h
      exact h
    have hspaces := removeSpaces_of_no_blank hblank
    obtain ⟨_, hparse, -⟩ := bmt_line_loaded vte tS' (show removeSpaces f.text =
      CompetitionIdentifier.bmt.name ++ f.text.drop 3 by
        rw [hspaces]
        simp [BmtForm.text, CompetitionIdentifier.name])
    rw [hspaces] at hparse
    refine ⟨_, _, hprint, hparse, ?_, fun _ => ?_⟩
    · rw [TaskSpec.loadBmt_bmtTaskList, bmtObjects_form, hf]
      simp [bmtTasks]
    · rw [TaskSpec.loadBmt_bmtStatics, bmtStaticsAfter_form, hset]

/-! ### CBT -/

/-- A message whose angle brackets enclose a text without such brackets. -/
theorem split_angle (name body : Text) (hname : ∀ d ∈ "<>".toList, d ∉ name)
    (hbody : ∀ d ∈ "<>".toList, d ∉ body) (hne : body ≠ []) :
    Java.split (Java.oneOf "<>") (name ++ '<' :: (body ++ '>' :: [])) = [name, body] := by
  rw [Java.split_cons_cons (Java.not_oneOf_of_notMem hname) (by decide)
    (Java.not_oneOf_of_notMem hbody) (by decide) hne, List.splitOnP_nil]
  rfl

/-- The places, with commas between them; the comma behind the last one is cut
    off. -/
theorem cbtString_cons (s : Text) (t : CbtTask) (l : List CbtTask) :
    cbtString s (t :: l) = s ++ [','].intercalate ((t :: l).map CbtTask.place) := by
  have hfold : ∀ (l : List CbtTask) (s : Text),
      l.foldl (fun s t => s ++ (t.place ++ ",".toList)) s =
        s ++ (l.map fun t => t.place ++ [',']).flatten := by
    intro l
    induction l with
    | nil => simp
    | cons u l ih =>
      intro s
      rw [List.foldl_cons, ih]
      simp
  show ((t :: l).foldl (fun s t => s ++ (t.place ++ ",".toList)) s).dropLast = _
  rw [hfold]
  exact dropLast_items (⟨fun _ => [], CbtTask.place, ',', []⟩ : Layout CbtTask Char) s t l

/-- No place of the list brings a delimiter into the joined text. -/
theorem notMem_places {l : List CbtTask} (hplaces : ∀ t ∈ l, t.place ≠ [] ∧ Savable t.place) :
    ∀ d ∈ "<>(); ".toList, d ∉ [','].intercalate (l.map CbtTask.place) := by
  intro d hd
  apply notMem_intercalate
  · rintro rfl
    exact absurd hd (by decide)
  · intro x hx
    obtain ⟨t, ht, rfl⟩ := List.mem_map.mp hx
    obtain ⟨-, hplain, hblank⟩ := hplaces t ht
    have hcases : ∀ d ∈ "<>(); ".toList, isDelimiter d = true ∨ d = ' ' := by decide
    rcases hcases d hd with h | rfl
    · exact hplain.notMem h
    · exact hblank

theorem intercalate_ne_nil (sep : Char) {x : Text} (hx : x ≠ []) (xs : List Text) :
    [sep].intercalate (x :: xs) ≠ [] := by
  cases xs with
  | nil => simpa using hx
  | cons y ys => simp [List.intercalate_cons_cons]

/-- Texts that are not empty and hold no comma are found again between the
    commas. -/
theorem split_commas {x : Text} {xs : List Text} (hxs : ∀ y ∈ x :: xs, y ≠ [] ∧ ',' ∉ y) :
    Java.split (Java.oneOf ",") ([','].intercalate (x :: xs)) = x :: xs := by
  apply Java.split_intercalate (by decide)
  · intro y hy
    apply Java.not_oneOf_of_notMem
    simpa using (hxs y hy).2
  · exact (hxs _ (List.getLast_mem _)).1

/-- The reader finds the places of a printed line. -/
theorem parseCbt_text {t : CbtTask} {l : List CbtTask}
    (hplaces : ∀ u ∈ t :: l, u.place ≠ [] ∧ Savable u.place) :
    parseCbt ("CBT<".toList ++ [','].intercalate ((t :: l).map CbtTask.place) ++ ">".toList) =
      ⟨(t :: l).map fun u => { place := u.place }, false⟩ := by
  have hbody := notMem_places hplaces
  -- no place holds a character that the reader splits at
  have hangle := split_angle "CBT".toList _ (by decide)
    (fun d hd => hbody d ((by decide : ∀ d ∈ "<>".toList, d ∈ "<>(); ".toList) d hd))
    (intercalate_ne_nil ',' (hplaces t List.mem_cons_self).1 (l.map CbtTask.place))
  have hsemicolons : Java.split (Java.oneOf ";") ([','].intercalate ((t :: l).map CbtTask.place)) =
      [[','].intercalate ((t :: l).map CbtTask.place)] :=
    Java.split_of_no_delim (Java.not_oneOf_of_notMem fun d hd =>
      hbody d ((by decide : ∀ d ∈ ";".toList, d ∈ "<>(); ".toList) d hd))
  have hcommas : Java.split (Java.oneOf ",") ([','].intercalate ((t :: l).map CbtTask.place)) =
      (t :: l).map CbtTask.place := by
    apply split_commas
    intro x hx
    obtain ⟨u, hu, rfl⟩ := List.mem_map.mp ((List.map_cons ..).symm ▸ hx)
    exact ⟨(hplaces u hu).1, (hplaces u hu).2.1.notMem (by decide)⟩
  have htext : "CBT<".toList ++ [','].intercalate ((t :: l).map CbtTask.place) ++ ">".toList =
      "CBT".toList ++ '<' :: ([','].intercalate ((t :: l).map CbtTask.place) ++ '>' :: []) := by
    simp
  unfold parseCbt
  rw [htext, hangle]
  simp only [hsemicolons, forEach_cons, forEach_nil, hcommas, forEach_one]
  simp [andThen, done]

/-- A line whose list the CBT reader gets through. -/
theorem parse_cbt_line (vte : ValidTaskElements) (tS : TaskSpec) {line : Text} {l : List CbtTask}
    (hblank : ' ' ∉ line) (hname : CompetitionIdentifier.cbt.name <+: line)
    (hparse : parseCbt line = ⟨l, false⟩) :
    Converges (tS.parseTaskSpecString vte line) (.ok true, { tS with cbtTaskList := l }) := by
  rw [tS.parse_of_prefix vte hblank hname]
  unfold TaskSpec.parseBranch
  simp only [hparse]
  exact converges_map _ (converges_pure _)

/-- What is left of a CBT list after its line has been read again. -/
theorem cbt_restored (vte : ValidTaskElements) (tS tS' : TaskSpec)
    (hplaces : ∀ t ∈ tS.cbtTaskList, t.place ≠ [] ∧ Savable t.place) :
    ∃ text tS'', Converges (tS.getTaskSpecString .cbt) (.ok text) ∧
      Converges (tS'.parseTaskSpecString vte text) (.ok true, tS'') ∧
      tS''.cbtTaskList.map CbtTask.place = tS.cbtTaskList.map CbtTask.place := by
  have hprint : Converges (tS.getTaskSpecString .cbt)
      (.ok (cbtString "CBT<".toList tS.cbtTaskList ++ ">".toList)) := converges_pure _
  cases hlist : tS.cbtTaskList with
  | nil =>
    rw [hlist] at hprint
    exact ⟨_, _, hprint, parse_cbt_line vte tS' (by decide) (by decide) (l := []) (by decide), rfl⟩
  | cons t l =>
    rw [hlist] at hprint hplaces
    rw [cbtString_cons] at hprint
    have hblank : ' ' ∉ [','].intercalate ((t :: l).map CbtTask.place) :=
      notMem_places hplaces ' ' (by decide)
    rw [List.map_cons] at hblank
    refine ⟨_, _, hprint, parse_cbt_line vte tS' ?_ ?_ (parseCbt_text hplaces), ?_⟩
    · simp [hblank]
    · rw [List.append_assoc]
      exact ⟨'<' :: _, rfl⟩
    · simp

/-- **BMT and CBT lines restore their list**, in the order it had, and the BMT
    line the shared fields as well. -/
theorem bmt_cbt_round_trip (vte : ValidTaskElements) (tS tS' : TaskSpec)
    (hstatics : tS.bmtTaskList ≠ [] → tS.bmtStatics.AllSet fun x => x ≠ [] ∧ Savable x)
    (hobjects : ∀ t ∈ tS.bmtTaskList, Savable t.object)
    (hplaces : ∀ t ∈ tS.cbtTaskList, t.place ≠ [] ∧ Savable t.place) :
    (∃ text tS'', Converges (tS.getTaskSpecString .bmt) (.ok text) ∧
      Converges (tS'.parseTaskSpecString vte text) (.ok true, tS'') ∧
      tS''.bmtTaskList.map BmtTask.object = tS.bmtTaskList.map BmtTask.object ∧
      (tS.bmtTaskList ≠ [] → tS''.bmtStatics = tS.bmtStatics)) ∧
    ∃ text tS'', Converges (tS.getTaskSpecString .cbt) (.ok text) ∧
      Converges (tS'.parseTaskSpecString vte text) (.ok true, tS'') ∧
      tS''.cbtTaskList.map CbtTask.place = tS.cbtTaskList.map CbtTask.place :=
  ⟨bmt_restored vte tS tS' hstatics hobjects, cbt_restored vte tS tS' hplaces⟩

/-- Two BMT objects to be moved from S1 to D1, and two places of CBT. -/
def transports : TaskSpec where
  bmtTaskList := [⟨"M20".toList, .passed⟩, ⟨"R20".toList, .init⟩]
  cbtTaskList := [⟨"S1".toList, .init⟩, ⟨"D2".toList, .failed⟩]
  bmtStatics :=
    ⟨some "T1".toList, some "S1".toList, some "D1".toList, some "T2".toList, some "line".toList⟩

theorem bmt_cbt_round_trip_transports :
    (∃ text tS'', Converges (transports.getTaskSpecString .bmt) (.ok text) ∧
      Converges (({} : TaskSpec).parseTaskSpecString smallTables text) (.ok true, tS'') ∧
      tS''.bmtTaskList.map BmtTask.object = transports.bmtTaskList.map BmtTask.object ∧
      (transports.bmtTaskList ≠ [] → tS''.bmtStatics = transports.bmtStatics)) ∧
    ∃ text tS'', Converges (transports.getTaskSpecString .cbt) (.ok text) ∧
      Converges (({} : TaskSpec).parseTaskSpecString smallTables text) (.ok true, tS'') ∧
      tS''.cbtTaskList.map CbtTask.place = transports.cbtTaskList.map CbtTask.place := by
  refine bmt_cbt_round_trip smallTables transports {} (fun _ => ?_) (by decide) (by decide)
  exact ⟨⟨_, rfl, by decide⟩, ⟨_, rfl, by decide⟩, ⟨_, rfl, by decide⟩, ⟨_, rfl, by decide⟩,
    ⟨_, rfl, by decide⟩⟩

/-! ### PPT -/

/-- What a PPT task asks for. -/
def PptTask.entry (t : PptTask) : Text × Text × Text := (t.source, t.object, t.destination)

/-- A field of a PPT task that a line can hold. -/
def PptField (s : Text) : Prop := s ≠ [] ∧ ∀ d ∈ "<>(), ".toList, d ∉ s

instance (s : Text) : Decidable (PptField s) := inferInstanceAs (Decidable (_ ∧ _))

def PptTask.Storable (t : PptTask) : Prop :=
  PptField t.source ∧ PptField t.object ∧ PptField t.destination

instance (t : PptTask) : Decidable t.Storable := inferInstanceAs (Decidable (_ ∧ _))

/-- The tasks that the line prints: those in front of the first one with
    another source. -/
def pptRun (ppt : PptTask) (l : List PptTask) : List PptTask :=
  ppt :: l.takeWhile fun t => t.source = ppt.source

/-- The printed line. -/
def pptText (ppt : PptTask) (l : List PptTask) : Text :=
  "PPT".toList ++ '<' :: ((ppt.source ++ [',']) ++ '(' ::
    ([','].intercalate ((pptRun ppt l).map PptTask.object) ++ ')' ::
      (',' :: ppt.destination)) ++ '>' :: [])

theorem source_of_mem_pptRun {ppt : PptTask} {l : List PptTask} :
    ∀ t ∈ pptRun ppt l, t.source = ppt.source := by
  intro t ht
  rcases List.mem_cons.mp ht with rfl | ht
  · rfl
  · simpa using List.mem_takeWhile_imp ht

theorem isChain_pptRun (ppt : PptTask) (l : List PptTask) :
    (pptRun ppt l).IsChain fun a b => pptReport.sameGroup b a = true := by
  apply List.Pairwise.isChain
  apply List.pairwise_of_forall_mem_list
  intro a ha b hb
  show decide (b.source = a.source) = true
  rw [source_of_mem_pptRun a ha, source_of_mem_pptRun b hb]
  exact decide_eq_true rfl

/-- The end marker has no source, so it ends the run too. -/
theorem pptRun_stops (ppt : PptTask) (l : List PptTask) (hsource : ppt.source ≠ [])
    (hne : pptRun ppt l ≠ []) :
    pptReport.sameGroup ((l.dropWhile fun t => t.source = ppt.source).headD {})
      ((pptRun ppt l).getLast hne) = false := by
  show decide (_ = _) = false
  rw [source_of_mem_pptRun _ (List.getLast_mem hne), decide_eq_false_iff_not]
  cases hrest : l.dropWhile fun t => t.source = ppt.source with
  | nil => exact fun h => hsource h.symm
  | cons u rest =>
    have hu := List.head?_dropWhile_not (fun t : PptTask => decide (t.source = ppt.source)) l
    rw [hrest] at hu
    simpa using hu

/-- The loop prints the objects of the run. -/
theorem pptString_cons (ppt : PptTask) (l : List PptTask) (hsource : ppt.source ≠ []) (s : Text) :
    Converges (pptString s (ppt :: l))
      (s ++ ppt.source ++ ",(".toList ++ [','].intercalate ((pptRun ppt l).map PptTask.object) ++
        "),".toList ++ ppt.destination) := by
  have hcut : ppt :: l = pptRun ppt l ++ l.dropWhile fun t => t.source = ppt.source := by
    simp [pptRun]
  have hne : pptRun ppt l ≠ [] := List.cons_ne_nil _ _
  have hloop := runLoop_converges (r := pptReport) (pptRun ppt l) _ hne (isChain_pptRun ppt l)
    (pptRun_stops ppt l hsource hne) (s ++ ppt.source ++ ",(".toList) {}
  rw [← hcut] at hloop
  have hitems : (pptRun ppt l).foldl (fun o t => pptReport.putItem t o)
      (s ++ ppt.source ++ ",(".toList) = s ++ ppt.source ++ ",(".toList ++
        ((pptRun ppt l).map fun t => t.object ++ [',']).flatten :=
    foldl_putItem pptLayout {} PptTask.sameSource (fun _ _ => false) (fun _ _ _ => rfl)
      (pptRun ppt l) id _
  -- the comma behind the last object is cut off
  have hlast : ((pptRun ppt l).foldl (fun o t => pptReport.putItem t o)
      (s ++ ppt.source ++ ",(".toList)).dropLast = s ++ ppt.source ++ ",(".toList ++
        [','].intercalate ((pptRun ppt l).map PptTask.object) := by
    rw [hitems]
    exact dropLast_items pptLayout _ ppt _
  have hout := converges_map (fun c : Cursor PptTask Text =>
    c.out.dropLast ++ "),".toList ++ ppt.destination) hloop
  have hbefore : (Cursor.before pptReport.sentinel ((pptRun ppt l).foldl
      (fun o t => pptReport.putItem t o) (s ++ ppt.source ++ ",(".toList))
      ((pptRun ppt l).getLast hne) (l.dropWhile fun t => t.source = ppt.source)).out.dropLast =
      s ++ ppt.source ++ ",(".toList ++ [','].intercalate ((pptRun ppt l).map PptTask.object) := hlast
  rw [hbefore] at hout
  exact hout

/-- The objects of the run are not empty and hold no delimiter. -/
theorem notMem_pptObjects {ppt : PptTask} {l : List PptTask} (hL : ∀ t ∈ ppt :: l, t.Storable) :
    (∀ y ∈ (pptRun ppt l).map PptTask.object, PptField y) ∧
      ∀ d ∈ "<>() ".toList, d ∉ [','].intercalate ((pptRun ppt l).map PptTask.object) := by
  have hobjects : ∀ y ∈ (pptRun ppt l).map PptTask.object, PptField y := by
    intro y hy
    obtain ⟨t, ht, rfl⟩ := List.mem_map.mp hy
    have hmem : t ∈ ppt :: l := by
      rcases List.mem_cons.mp ht with rfl | ht
      · exact List.mem_cons_self
      · exact List.mem_cons_of_mem ppt ((List.takeWhile_sublist _).subset ht)
    exact (hL t hmem).2.1
  refine ⟨hobjects, ?_⟩
  intro d hd
  apply notMem_intercalate
  · rintro rfl
    exact absurd hd (by decide)
  · exact fun y hy => (hobjects y hy).2 d
      ((by decide : ∀ d ∈ "<>() ".toList, d ∈ "<>(), ".toList) d hd)

/-- Split at the brackets, the line is the source, the objects and the
    destination. -/
theorem split_pptBody {ppt : PptTask} {l : List PptTask} (hL : ∀ t ∈ ppt :: l, t.Storable) :
    Java.split (Java.oneOf "()") ((ppt.source ++ [',']) ++ '(' ::
      ([','].intercalate ((pptRun ppt l).map PptTask.object) ++ ')' :: (',' :: ppt.destination))) =
      [ppt.source ++ [','], [','].intercalate ((pptRun ppt l).map PptTask.object),
        ',' :: ppt.destination] := by
  obtain ⟨⟨-, hsource⟩, -, -, hdestination⟩ := hL ppt List.mem_cons_self
  obtain ⟨hobjects, hjoined⟩ := notMem_pptObjects hL
  have hne : [','].intercalate ((pptRun ppt l).map PptTask.object) ≠ [] :=
    intercalate_ne_nil ',' (hobjects ppt.object List.mem_cons_self).1 _
  have hbracket : ∀ {x : Text}, (∀ d ∈ "<>(), ".toList, d ∉ x) →
      ∀ c ∈ x, Java.oneOf "()" c = false := fun hx => Java.not_oneOf_of_notMem fun d hd =>
    hx d ((by decide : ∀ d ∈ "()".toList, d ∈ "<>(), ".toList) d hd)
  -- two brackets make three pieces
  rw [Java.split_cons_cons _ (by decide) _ (by decide) hne, List.splitOnP_eq_singleton]
  · rfl
  · intro c hc
    rcases List.mem_cons.mp hc with rfl | hc
    · decide
    · exact hbracket hdestination c hc
  · intro c hc
    rcases List.mem_append.mp hc with hc | hc
    · exact hbracket hsource c hc
    · rw [List.mem_singleton.mp hc]
      decide
  · exact Java.not_oneOf_of_notMem fun d hd =>
      hjoined d ((by decide : ∀ d ∈ "()".toList, d ∈ "<>() ".toList) d hd)

/-- The reader cuts a comma off the end, and off the front. -/
theorem substring_init (x : Text) (c : Char) :
    Java.substring (x ++ [c]) 0 (((x ++ [c]).length : Int) - 1) = some x := by
  have hlen : ((x ++ [c]).length : Int) = x.length + 1 := by simp
  have hcount : ((x.length : Int) + 1 - 1 - 0).toNat = x.length := by omega
  rw [hlen, Java.substring, if_pos (by omega), hcount]
  exact congrArg some List.take_left

theorem substring_tail (c : Char) (x : Text) :
    Java.substring (c :: x) 1 ((c :: x).length : Int) = some x := by
  have hlen : ((c :: x).length : Int) = x.length + 1 := by simp
  have hcount : ((x.length : Int) + 1 - 1).toNat = x.length := by omega
  rw [hlen, Java.substring, if_pos (by omega), hcount]
  exact congrArg some (List.take_length ..)

/-- The reader takes the line apart: one source, the objects, one destination. -/
theorem parsePpt_text {ppt : PptTask} {l : List PptTask} (hL : ∀ t ∈ ppt :: l, t.Storable) :
    parsePpt (pptText ppt l) =
      ⟨(pptRun ppt l).map fun t =>
        { source := ppt.source, object := t.object, destination := ppt.destination }, false⟩ := by
  obtain ⟨⟨-, hsource⟩, -, -, hdestination⟩ := hL ppt List.mem_cons_self
  obtain ⟨hobjects, hjoined⟩ := notMem_pptObjects hL
  -- between the angle brackets stands the body of the line
  have hangle := split_angle "PPT".toList ((ppt.source ++ [',']) ++ '(' ::
      ([','].intercalate ((pptRun ppt l).map PptTask.object) ++ ')' :: (',' :: ppt.destination)))
    (by decide)
    (by
      have hsub : ∀ d ∈ "<>".toList, d ∈ "<>(), ".toList ∧ d ∈ "<>() ".toList ∧ d ∉ ",()".toList := by
        decide
      intro d hd
      obtain ⟨h1, h2, h3⟩ := hsub d hd
      have h4 := hsource d h1
      have h5 := hdestination d h1
      have h6 := hjoined d h2
      simp at h3
      simp [h3, h4, h5, h6])
    (by simp)
  have hcommas := split_commas fun y (hy : y ∈ ppt.object :: (pptRun ppt l).tail.map PptTask.object) =>
     ⟨(hobjects y hy).1, (hobjects y hy).2 ',' (by decide)⟩
  unfold parsePpt pptText
  rw [hangle]
  simp only [split_pptBody hL, substring_init, substring_tail, need_some]
  have hsplit : Java.split (Java.oneOf ",")
      ([','].intercalate ((pptRun ppt l).map PptTask.object)) =
        (pptRun ppt l).map PptTask.object := hcommas
  rw [hsplit, forEach_one, List.map_map]
  rfl

theorem getTaskSpecString_ppt (tS : TaskSpec) {ppt : PptTask} {l : List PptTask}
    (hlist : tS.pptTaskList = ppt :: l) (hsource : ppt.source ≠ []) :
    Converges (tS.getTaskSpecString .ppt) (.ok (pptText ppt l)) := by
  have h := converges_map (fun s => (Except.ok (s ++ ">".toList) : Except Exn Text))
    (pptString_cons ppt l hsource "PPT<".toList)
  have htext : "PPT<".toList ++ ppt.source ++ ",(".toList ++
      [','].intercalate ((pptRun ppt l).map PptTask.object) ++ "),".toList ++ ppt.destination ++
      ">".toList = pptText ppt l := by
    simp [pptText]
  rw [htext] at h
  unfold TaskSpec.getTaskSpecString
  simp only [hlist]
  exact h

theorem blank_notMem_pptText {ppt : PptTask} {l : List PptTask}
    (hL : ∀ t ∈ ppt :: l, t.Storable) : ' ' ∉ pptText ppt l := by
  obtain ⟨⟨-, hsource⟩, -, -, hdestination⟩ := hL ppt List.mem_cons_self
  have h1 := hsource ' ' (by decide)
  have h2 := hdestination ' ' (by decide)
  have h3 := (notMem_pptObjects hL).2 ' ' (by decide)
  simp [pptText, h1, h2, h3]

/-- A line whose list the PPT reader gets through. -/
theorem parse_ppt_line (vte : ValidTaskElements) (tS : TaskSpec) {line : Text} {l : List PptTask}
    (hblank : ' ' ∉ line) (hname : CompetitionIdentifier.ppt.name <+: line)
    (hparse : parsePpt line = ⟨l, false⟩) :
    Converges (tS.parseTaskSpecString vte line) (.ok true, { tS with pptTaskList := l }) := by
  rw [tS.parse_of_prefix vte hblank hname]
  unfold TaskSpec.parseBranch
  simp only [hparse]
  exact converges_map _ (converges_pure _)

/-- The run with the first source and destination is the list exactly when all
    its tasks have them. -/
theorem pptRun_entries_iff (ppt : PptTask) (l : List PptTask) :
    (pptRun ppt l).map (fun t => (ppt.source, t.object, ppt.destination)) =
        (ppt :: l).map PptTask.entry ↔
      ∀ t ∈ ppt :: l, ∀ u ∈ ppt :: l, t.source = u.source ∧ t.destination = u.destination := by
  constructor
  · intro h
    -- every restored task has the source and the destination of the first one
    have hfirst : ∀ t ∈ ppt :: l, t.source = ppt.source ∧ t.destination = ppt.destination := by
      intro t ht
      have hmem := List.mem_map_of_mem (f := PptTask.entry) ht
      rw [← h, List.mem_map] at hmem
      obtain ⟨u, -, hu⟩ := hmem
      simp only [PptTask.entry, Prod.mk.injEq] at hu
      exact ⟨hu.1.symm, hu.2.2.symm⟩
    intro t ht u hu
    exact ⟨(hfirst t ht).1.trans (hfirst u hu).1.symm, (hfirst t ht).2.trans (hfirst u hu).2.symm⟩
  · intro h
    have hfirst := fun t ht => h t ht ppt List.mem_cons_self
    -- with one source the run is the whole list
    have hrun : pptRun ppt l = ppt :: l := by
      rw [pptRun, List.takeWhile_eq_self_iff.mpr]
      intro t ht
      exact decide_eq_true (hfirst t (List.mem_cons_of_mem ppt ht)).1
    rw [hrun]
    apply List.map_congr_left
    intro t ht
    obtain ⟨h1, h2⟩ := hfirst t ht
    simp [PptTask.entry, h1, h2]

/-- **What a PPT line restores**: the list, exactly when all its tasks have the
    same source and the same destination. -/
theorem ppt_reload_iff (vte : ValidTaskElements) (tS tS' : TaskSpec)
    (hL : ∀ t ∈ tS.pptTaskList, t.Storable) :
    ∃ text tS'', Converges (tS.getTaskSpecString .ppt) (.ok text) ∧
      Converges (tS'.parseTaskSpecString vte text) (.ok true, tS'') ∧
      (tS''.pptTaskList.map PptTask.entry = tS.pptTaskList.map PptTask.entry ↔
        ∀ t ∈ tS.pptTaskList, ∀ u ∈ tS.pptTaskList,
          t.source = u.source ∧ t.destination = u.destination) := by
  cases hlist : tS.pptTaskList with
  | nil =>
    have hprint : Converges (tS.getTaskSpecString .ppt) (.ok "PPT<>".toList) := by
      unfold TaskSpec.getTaskSpecString
      simp only [hlist]
      exact converges_map _ (converges_pure _)
    exact ⟨_, _, hprint, parse_ppt_line vte tS' (by decide) (by decide) (l := []) (by decide),
      by simp⟩
  | cons ppt l =>
    rw [hlist] at hL
    have hsource := (hL ppt List.mem_cons_self).1.1
    refine ⟨_, _, getTaskSpecString_ppt tS hlist hsource,
      parse_ppt_line vte tS' (blank_notMem_pptText hL) ⟨_, rfl⟩ (parsePpt_text hL), ?_⟩
    rw [List.map_map]
    exact pptRun_entries_iff ppt l

/-- Two transports with a source of their own each. -/
def fromSources (source source' : String) : List PptTask :=
  [⟨source.toList, "M20".toList, "D1".toList, .init⟩,
    ⟨source'.toList, "M30".toList, "D1".toList, .init⟩]

theorem ppt_reload_one_source :
    ∃ text tS'',
      Converges (({ pptTaskList := fromSources "S1" "S1" } : TaskSpec).getTaskSpecString .ppt)
        (.ok text) ∧
      Converges (({} : TaskSpec).parseTaskSpecString smallTables text) (.ok true, tS'') ∧
      (tS''.pptTaskList.map PptTask.entry = (fromSources "S1" "S1").map PptTask.entry ↔
        ∀ t ∈ fromSources "S1" "S1", ∀ u ∈ fromSources "S1" "S1",
          t.source = u.source ∧ t.destination = u.destination) :=
  ppt_reload_iff smallTables { pptTaskList := fromSources "S1" "S1" } {} (by decide)

/-- The task with the second source is not printed, and gone after the line
    has been read. -/
theorem ppt_reload_loses_task :
    (∀ t ∈ fromSources "S1" "S2", t.Storable) ∧
      Converges (({ pptTaskList := fromSources "S1" "S2" } : TaskSpec).getTaskSpecString .ppt)
        (.ok "PPT<S1,(M20),D1>".toList) ∧
      Converges (({} : TaskSpec).parseTaskSpecString smallTables "PPT<S1,(M20),D1>".toList)
        (.ok true, { pptTaskList := [⟨"S1".toList, "M20".toList, "D1".toList, .init⟩] }) := by
  refine ⟨by decide, ?_, ?_⟩
  · have h := pptString_cons ⟨"S1".toList, "M20".toList, "D1".toList, .init⟩
      [⟨"S2".toList, "M30".toList, "D1".toList, .init⟩] (by decide) "PPT<".toList
    exact converges_map (fun s => (Except.ok (s ++ ">".toList) : Except Exn Text)) h
  · have hparse : parsePpt "PPT<S1,(M20),D1>".toList =
        ⟨[⟨"S1".toList, "M20".toList, "D1".toList, .init⟩], false⟩ := by decide
    exact parse_ppt_line smallTables {} (by decide) (by decide) hparse

end RefereeBox
