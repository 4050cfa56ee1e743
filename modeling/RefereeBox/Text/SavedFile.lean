import RefereeBox.Text.Rejection
import RefereeBox.Text.Reload
import RefereeBox.Text.Restore

/-! # Saving and Opening a Whole File

  `saveTaskSpec` writes the six texts one below the other, and `openTaskSpec`
  reads them line by line. The lines of BTT and CTT give no task back, and a
  CTT line in which one team has no message is rejected: the lines of CBT and
  PPT behind it are then not read.
-/

namespace RefereeBox

open Loop ControlBreak Filling

/-! ### What a file can hold -/

/-- The texts of the tasks. -/
def TaskSpec.fields (tS : TaskSpec) : List Text :=
  (tS.bntTaskList.flatMap fun t => [printed t.place, printed t.orientation, printed t.pause]) ++
    ([tS.bmtStatics.placeInitial, tS.bmtStatics.placeSource, tS.bmtStatics.placeDestination,
      tS.bmtStatics.placeFinal, tS.bmtStatics.configuration].map printed) ++
    tS.bmtTaskList.map BmtTask.object ++
    (tS.bttTaskList.flatMap fun t => [t.situation, t.place, t.getConfiguration, t.object]) ++
    (tS.cttTaskList.flatMap fun t => [t.place, t.getConfiguration, t.object]) ++
    tS.cbtTaskList.map CbtTask.place ++
    tS.pptTaskList.flatMap fun t => [t.source, t.object, t.destination]

/-- A specification that a file can hold. -/
structure TaskSpec.Storable (vte : ValidTaskElements) (tS : TaskSpec) : Prop where
  bnt : ∀ t ∈ tS.bntTaskList, t.IsValid vte
  bmtStatics : tS.bmtTaskList ≠ [] → tS.bmtStatics.AllSet fun x => x ≠ [] ∧ Savable x
  bmt : ∀ t ∈ tS.bmtTaskList, Savable t.object
  btt : ∀ t ∈ tS.bttTaskList, t.Storable
  ctt : ∀ t ∈ tS.cttTaskList, t.Storable
  cbt : ∀ t ∈ tS.cbtTaskList, t.place ≠ [] ∧ Savable t.place
  ppt : ∀ t ∈ tS.pptTaskList, t.Storable
  oneLine : ∀ x ∈ tS.fields, Java.OneLine x

/-! ### What is left of it -/

/-- The CTT line has a message for each team. -/
def TaskSpec.CttReadable (tS : TaskSpec) : Prop :=
  tS.cttTaskList = [] ∨
    cttMessage .team1 tS.cttTaskList ≠ [] ∧ cttMessage .team2 tS.cttTaskList ≠ []

instance (tS : TaskSpec) : Decidable tS.CttReadable := inferInstanceAs (Decidable (_ ∨ _))

/-- The tasks that a PPT line gives back. -/
def pptRestored : List PptTask → List PptTask
  | [] => []
  | ppt :: l => (pptRun ppt l).map fun t =>
      { source := ppt.source, object := t.object, destination := ppt.destination }

/-- The state `tS'` after the file of `tS` has been opened in it. -/
def TaskSpec.reopened (tS tS' : TaskSpec) : TaskSpec where
  bntTaskList := tS.bntTaskList.map BntTask.fresh
  bmtTaskList := bmtTasks (tS.bmtTaskList.map BmtTask.object)
  bmtStatics := if tS.bmtTaskList = [] then tS'.bmtStatics else tS.bmtStatics
  bttTaskList := []
  cttTaskList := []
  cbtTaskList :=
    if tS.CttReadable then tS.cbtTaskList.map fun t => { place := t.place } else tS'.cbtTaskList
  pptTaskList := if tS.CttReadable then pptRestored tS.pptTaskList else tS'.pptTaskList

/-- The lists of two specifications ask for the same, whatever is marked. -/
structure TaskSpec.SameTasks (tS tS' : TaskSpec) : Prop where
  bnt : tS'.bntTaskList.map BntTask.fresh = tS.bntTaskList.map BntTask.fresh
  bmt : tS'.bmtTaskList.map BmtTask.object = tS.bmtTaskList.map BmtTask.object
  bmtStatics : tS.bmtTaskList ≠ [] → tS'.bmtStatics = tS.bmtStatics
  btt : tS'.bttTaskList.map BttTask.entry = tS.bttTaskList.map BttTask.entry
  ctt : tS'.cttTaskList.map CttTask.entry = tS.cttTaskList.map CttTask.entry
  cbt : tS'.cbtTaskList.map CbtTask.place = tS.cbtTaskList.map CbtTask.place
  ppt : tS'.pptTaskList.map PptTask.entry = tS.pptTaskList.map PptTask.entry

/-! ### The lines -/

/-- A text that is printed for one competition, is one line, and has the effect
    `f` when it is read. -/
structure SavedLine (vte : ValidTaskElements) (tS : TaskSpec) (c : CompetitionIdentifier)
    (text : Text) (result : Bool) (f : TaskSpec → TaskSpec) : Prop where
  printed : Converges (tS.getTaskSpecString c) (.ok text)
  oneLine : Java.OneLine text
  read : ∀ tS', Converges (tS'.parseTaskSpecString vte text) (.ok result, f tS')

/-- A text has no line end if none of its characters is one. -/
theorem oneLine_of {s : Text} (h : ∀ c ∈ "\n\r".toList, c ∉ s) : Java.OneLine s :=
  ⟨h '\n' (by decide), h '\r' (by decide)⟩

theorem Java.OneLine.notMem {s : Text} (h : Java.OneLine s) {c : Char} (hc : c ∈ "\n\r".toList) :
    c ∉ s := by
  have hcases : c = '\n' ∨ c = '\r' := by simpa using hc
  rcases hcases with rfl | rfl
  · exact h.1
  · exact h.2

/-! ### The CTT line -/

theorem name_prefix_cttText (L : List CttTask) :
    CompetitionIdentifier.ctt.name <+: cttText L := by
  unfold cttText
  split
  · exact ⟨"<>".toList, rfl⟩
  · exact ⟨'<' :: (cttMessage .team1 L ++ (">#CTT<".toList ++ (cttMessage .team2 L ++ ">".toList))), by
      simp only [List.append_assoc]
      rfl⟩

/-- The part of a team without a message has no second piece, and any other part
    has the header of its first section there. -/
theorem split_team_of_ne_nil {team : Team} {L : List CttTask} (hne : cttMessage team L ≠ []) :
    ∃ name, NoDelimiter name ∧
      (Java.split (Java.oneOf "<>") ("CTT<".toList ++ cttMessage team L ++ ">".toList))[1]? =
        some (name ++ "situation(".toList) := by
  rcases cttMessage_eq team L with h | ⟨name, z, hname, h⟩
  · exact absurd h hne
  · have htext : "CTT<".toList ++ cttMessage team L ++ ">".toList =
        "CTT".toList ++ '<' :: ((name ++ "situation(".toList) ++ '<' :: (z ++ ['>'])) := by
      rw [h]
      simp
    obtain ⟨pieces, hpieces⟩ := split_message "CTT".toList (z ++ ['>']) (by decide)
      (angle_header hname) (by simp)
    exact ⟨name, hname, by rw [htext, hpieces]; rfl⟩

/-- The CTT line is rejected exactly when a team has no message. -/
theorem parseCtt_text_ok_iff {tS : TaskSpec} (hL : ∀ t ∈ tS.cttTaskList, t.Sendable) :
    (parseCtt (cttText tS.cttTaskList)).failed = false ↔ tS.CttReadable := by
  unfold TaskSpec.CttReadable
  by_cases hne : tS.cttTaskList = []
  · rw [hne]
    decide
  · have hsplit : ∀ team, cttMessage team tS.cttTaskList = [] →
        (Java.split (Java.oneOf "<>")
          ("CTT<".toList ++ cttMessage team tS.cttTaskList ++ ">".toList))[1]? = none := by
      intro team h
      rw [h]
      decide
    unfold parseCtt
    rw [split_cttText hL hne, or_iff_right hne]
    by_cases h1 : cttMessage .team1 tS.cttTaskList = []
    · simp only [hsplit .team1 h1]
      simp [need, fail, h1]
    · by_cases h2 : cttMessage .team2 tS.cttTaskList = []
      · obtain ⟨name1, hname1, hpiece1⟩ := split_team_of_ne_nil h1
        simp only [hpiece1, hsplit .team2 h2]
        simp [need, fail, h2]
      · obtain ⟨name1, hname1, hpiece1⟩ := split_team_of_ne_nil h1
        obtain ⟨name2, hname2, hpiece2⟩ := split_team_of_ne_nil h2
        simp only [hpiece1, hpiece2, need_some, parseCttMessage_header hname1, forEach_cons,
          parseCttMessage_header hname2, forEach_nil]
        simp [andThen, done, h1, h2]

section lines
variable {vte : ValidTaskElements} {tS : TaskSpec} (h : tS.Storable vte)
include h

theorem TaskSpec.Storable.notMem {c : Char} (hc : c ∈ "\n\r".toList) : ∀ x ∈ tS.fields, c ∉ x :=
  fun x hx => (h.oneLine x hx).notMem hc

theorem saved_bnt (hp : vte.PlainPauses) : ∃ text, SavedLine vte tS .bnt text true fun tS' =>
    { tS' with bntTaskList := tS.bntTaskList.map BntTask.fresh } := by
  have hblank : ' ' ∉ "BNT<".toList ++ bntString tS.bntTaskList ++ ">".toList := by
    have := blank_notMem_bntString hp.isPlain (fits_of_mem_map_fresh h.bnt)
    rw [bntString_map_fresh] at this
    simp [this]
  have hspaces := removeSpaces_of_no_blank hblank
  have hname : removeSpaces ("BNT<".toList ++ bntString tS.bntTaskList ++ ">".toList) =
      CompetitionIdentifier.bnt.name ++ ("<".toList ++ (bntString tS.bntTaskList ++ ">".toList)) := by
    rw [hspaces]
    simp [CompetitionIdentifier.name]
  obtain ⟨ms, hscan, hms⟩ := scan_printed hp.isPlain h.bnt
  rw [← hspaces] at hscan
  refine ⟨_, getTaskSpecString_bnt tS, oneLine_of fun c hc => ?_, fun tS' => ?_⟩
  · have hstring : c ∉ bntString tS.bntTaskList := by
      unfold bntString
      rw [List.mem_flatMap]
      intro hmem
      obtain ⟨t, ht, hmem⟩ := hmem
      have hfield : ∀ x ∈ [RefereeBox.printed t.place, RefereeBox.printed t.orientation,
          RefereeBox.printed t.pause], c ∉ x := by
        intro x hx
        apply h.notMem hc
        unfold TaskSpec.fields
        simp only [List.append_assoc]
        exact List.mem_append_left _ (List.mem_flatMap.mpr ⟨t, ht, hx⟩)
      have hformat : ∀ c ∈ "\n\r".toList, c ∉ "(,)".toList := by decide
      have hc' := hformat c hc
      simp at hfield hc'
      simp [BntTask.getString, hfield, hc'] at hmem
    have hformat : ∀ c ∈ "\n\r".toList, c ∉ "BNT<>".toList := by decide
    have hc' := hformat c hc
    simp at hc'
    simp [hstring, hc']
  · rw [← hms]
    exact parse_bnt_line hp.isPlain tS' hname hscan

theorem saved_bmt : ∃ text, SavedLine vte tS .bmt text true fun tS' =>
    { tS' with
      bmtTaskList := bmtTasks (tS.bmtTaskList.map BmtTask.object)
      bmtStatics := if tS.bmtTaskList = [] then tS'.bmtStatics else tS.bmtStatics } := by
  by_cases hnil : tS.bmtTaskList = []
  · have hprint : Converges (tS.getTaskSpecString .bmt) (.ok "BMT<>".toList) := by
      unfold TaskSpec.getTaskSpecString
      simp only [hnil]
      exact converges_pure _
    have hspaces : removeSpaces "BMT<>".toList = "BMT<>".toList := by decide
    have hnone : bmtObjects (bmtTokens "BMT<>".toList) = [] := by decide
    refine ⟨_, hprint, by decide, fun tS' => ?_⟩
    obtain ⟨_, hparse, -⟩ := bmt_line_loaded vte tS' (show removeSpaces "BMT<>".toList =
      CompetitionIdentifier.bmt.name ++ "<>".toList by decide)
    rw [hspaces] at hparse
    have hload : tS'.loadBmt (bmtTokens "BMT<>".toList) = { tS' with bmtTaskList := [] } := by
      unfold TaskSpec.loadBmt bmtStaticsAfter
      rw [hnone]
      rfl
    rw [hload] at hparse
    simp only [hnil, if_true]
    exact hparse
  · obtain ⟨t, l, hlist⟩ := List.exists_cons_of_ne_nil hnil
    have hobjects := h.bmt
    rw [hlist] at hobjects
    obtain ⟨f, hf, hset, hblank⟩ := exists_bmtForm (h.bmtStatics hnil) hobjects
    have hprint : Converges (tS.getTaskSpecString .bmt) (.ok f.text) := by
      have hform : Converges (({ tS with bmtTaskList := bmtTasks (f.object :: f.objects) } :
          TaskSpec).getTaskSpecString .bmt) (.ok f.text) :=
        getTaskSpecString_bmt_form rfl hset.symm
      unfold TaskSpec.getTaskSpecString at hform ⊢
      rw [hf, bmtString_map_object, ← hlist] at hform
      exact hform
    have hspaces := removeSpaces_of_no_blank hblank
    refine ⟨_, hprint, oneLine_of fun c hc => ?_, fun tS' => ?_⟩
    · have hformat : ∀ c ∈ "\n\r".toList, c ∉ "BMT<,()>".toList := by decide
      have hc' := hformat c hc
      have hstatics : ∀ x ∈ [f.placeInitial, f.placeSource, f.placeDestination, f.placeFinal,
          f.configuration], c ∉ x := by
        intro x hx
        apply h.notMem hc
        unfold TaskSpec.fields
        rw [← hset]
        simp only [List.append_assoc]
        exact List.mem_append_right _ (List.mem_append_left _ hx)
      have hobject : c ∉ [','].intercalate (f.object :: f.objects) := by
        apply notMem_intercalate
        · intro hcomma
          exact hc' (hcomma ▸ by decide)
        · intro x hx
          rw [hf, ← hlist] at hx
          apply h.notMem hc
          unfold TaskSpec.fields
          simp only [List.mem_append, hx, true_or, or_true]
      simp at hc' hstatics
      simp [BmtForm.text, hc', hstatics, hobject]
    · obtain ⟨_, hparse, -⟩ := bmt_line_loaded vte tS' (show removeSpaces f.text =
        CompetitionIdentifier.bmt.name ++ f.text.drop 3 by
          rw [hspaces]
          simp [BmtForm.text, CompetitionIdentifier.name])
      rw [hspaces] at hparse
      have hload : tS'.loadBmt (bmtTokens f.text) =
          { tS' with
            bmtTaskList := bmtTasks (tS.bmtTaskList.map BmtTask.object)
            bmtStatics := tS.bmtStatics } := by
        unfold TaskSpec.loadBmt
        rw [bmtObjects_form, bmtStaticsAfter_form, hf, hset, hlist]
      rw [hload] at hparse
      simp only [hnil, if_false]
      exact hparse

theorem saved_btt : ∃ text, SavedLine vte tS .btt text true fun tS' =>
    { tS' with bttTaskList := [] } := by
  have hproper : ∀ t ∈ tS.bttTaskList, t.Proper := fun t ht => (h.btt t ht).toProper
  -- what is in no field is not in the text
  have hnot : ∀ c ∈ " \n\r".toList,
      (∀ t ∈ tS.bttTaskList, c ∉ t.place ∧ c ∉ t.getConfiguration ∧ c ∉ t.object) →
      c ∉ "BTT<".toList ++ documentText (bttDocument tS.bttTaskList) ++ ">".toList := by
    intro c hc hfields
    have hwritten : ∀ c ∈ " \n\r".toList, c ∉ formatChars ∧ c ∉ "initial".toList ∧
        c ∉ "goal".toList ∧ c ∉ "BTT<".toList ∧ c ∉ ">".toList := by decide
    obtain ⟨hformat, hinitial, hgoal, hopen, hclose⟩ := hwritten c hc
    have hsituation : ∀ t ∈ tS.bttTaskList, c ∉ t.situation := by
      intro t ht
      rcases (h.btt t ht).situation with hs | hs
      · exact hs ▸ hinitial
      · exact hs ▸ hgoal
    have hdocument := notMem_documentText hformat
      (bttDocument_fields (P := fun x => c ∉ x) fun t ht => ⟨hsituation t ht, hfields t ht⟩)
    simp only [List.mem_append, hopen, hdocument, hclose, or_self, not_false_eq_true]
  have hblank := hnot ' ' (by decide) fun t ht =>
    ⟨(h.btt t ht).place_blank, (h.btt t ht).configuration_blank, (h.btt t ht).object_blank⟩
  have hname : CompetitionIdentifier.btt.name <+:
      "BTT<".toList ++ documentText (bttDocument tS.bttTaskList) ++ ">".toList :=
    ⟨'<' :: (documentText (bttDocument tS.bttTaskList) ++ ">".toList), rfl⟩
  refine ⟨_, getTaskSpecString_btt tS fun t ht =>
    ⟨(hproper t ht).situation_ne, (hproper t ht).place_ne⟩, oneLine_of fun c hc => ?_, fun tS' => ?_⟩
  · apply hnot c (List.mem_cons_of_mem ' ' hc)
    intro t ht
    have hfield : ∀ x ∈ [t.situation, t.place, t.getConfiguration, t.object], c ∉ x := by
      intro x hx
      apply h.notMem hc
      unfold TaskSpec.fields
      simp only [List.mem_append, List.mem_flatMap]
      exact Or.inl (Or.inl (Or.inl (Or.inr ⟨t, ht, hx⟩)))
    simp only [List.forall_mem_cons] at hfield
    exact ⟨hfield.2.1, hfield.2.2.1, hfield.2.2.2.1⟩
  · rw [tS'.parse_of_prefix vte hblank hname]
    unfold TaskSpec.parseBranch
    simp only [parseBtt_text hproper]
    exact converges_map _ (converges_pure _)

theorem saved_ctt : ∃ text, SavedLine vte tS .ctt text tS.CttReadable fun tS' =>
    { tS' with cttTaskList := [] } := by
  have hsend : ∀ t ∈ tS.cttTaskList, t.Sendable := fun t ht => (h.ctt t ht).toSendable
  -- what is in no field is not in the text
  have hnot : ∀ c ∈ " \n\r".toList,
      (∀ t ∈ tS.cttTaskList, c ∉ t.place ∧ c ∉ t.getConfiguration ∧ c ∉ t.object) →
      c ∉ cttText tS.cttTaskList := by
    intro c hc hfields
    have hwritten : ∀ c ∈ " \n\r".toList, c ∉ formatChars ∧ c ∉ "initial".toList ∧
        c ∉ "goal".toList ∧ c ∉ "CTT<".toList ∧ c ∉ ">#CTT<".toList ∧ c ∉ ">".toList ∧
        c ∉ "CTT<>".toList := by decide
    obtain ⟨hformat, hinitial, hgoal, hopen, hbetween, hclose, hempty⟩ := hwritten c hc
    have hmessage := fun team => notMem_cttMessage hformat hinitial hgoal hfields team
    unfold cttText
    split
    · exact hempty
    · simp only [List.mem_append, hopen, hmessage, hbetween, hclose, or_self, not_false_eq_true]
  have hblank := hnot ' ' (by decide) fun t ht =>
    ⟨(h.ctt t ht).place_blank, (h.ctt t ht).configuration_blank, (h.ctt t ht).object_blank⟩
  refine ⟨_, getTaskSpecString_ctt tS fun t ht => ⟨(hsend t ht).situation, (hsend t ht).place_ne⟩,
    oneLine_of fun c hc => ?_, fun tS' => ?_⟩
  · apply hnot c (List.mem_cons_of_mem ' ' hc)
    intro t ht
    have hfield : ∀ x ∈ [t.place, t.getConfiguration, t.object], c ∉ x := by
      intro x hx
      apply h.notMem hc
      unfold TaskSpec.fields
      simp only [List.mem_append, List.mem_flatMap]
      exact Or.inl (Or.inl (Or.inr ⟨t, ht, hx⟩))
    simp only [List.forall_mem_cons] at hfield
    exact ⟨hfield.1, hfield.2.1, hfield.2.2.1⟩
  · rw [tS'.parse_of_prefix vte hblank (name_prefix_cttText tS.cttTaskList)]
    unfold TaskSpec.parseBranch
    simp only [parseCtt_text_added hsend]
    have hresult : (!(parseCtt (cttText tS.cttTaskList)).failed) = decide tS.CttReadable := by
      rw [Bool.eq_iff_iff, Bool.not_eq_true', decide_eq_true_iff]
      exact parseCtt_text_ok_iff hsend
    rw [hresult]
    exact converges_map _ (converges_pure _)

theorem saved_cbt : ∃ text, SavedLine vte tS .cbt text true fun tS' =>
    { tS' with cbtTaskList := tS.cbtTaskList.map fun t => { place := t.place } } := by
  cases hlist : tS.cbtTaskList with
  | nil =>
    have hprint : Converges (tS.getTaskSpecString .cbt) (.ok "CBT<>".toList) := by
      unfold TaskSpec.getTaskSpecString
      simp only [hlist]
      exact converges_pure _
    exact ⟨_, hprint, by decide, fun tS' =>
      parse_cbt_line vte tS' (by decide) (by decide) (l := []) (by decide)⟩
  | cons t l =>
    have hplaces := h.cbt
    have hprint : Converges (tS.getTaskSpecString .cbt)
        (.ok (cbtString "CBT<".toList tS.cbtTaskList ++ ">".toList)) := converges_pure _
    rw [hlist] at hplaces hprint
    rw [cbtString_cons] at hprint
    have hblank : ' ' ∉ [','].intercalate ((t :: l).map CbtTask.place) :=
      notMem_places hplaces ' ' (by decide)
    rw [List.map_cons] at hblank
    refine ⟨_, hprint, oneLine_of fun c hc => ?_, fun tS' =>
      parse_cbt_line vte tS' (by simp [hblank]) ?_ (parseCbt_text hplaces)⟩
    · have hwritten : ∀ c ∈ "\n\r".toList, c ≠ ',' ∧ c ∉ "CBT<".toList ∧ c ∉ ">".toList := by
        decide
      obtain ⟨hcomma, hopen, hclose⟩ := hwritten c hc
      have hjoined : c ∉ [','].intercalate ((t :: l).map CbtTask.place) := by
        apply notMem_intercalate hcomma
        intro x hx
        apply h.notMem hc
        unfold TaskSpec.fields
        rw [hlist]
        simp only [List.mem_append, hx, true_or, or_true]
      simp only [List.mem_append, hopen, hjoined, hclose, or_self, not_false_eq_true]
    · rw [List.append_assoc]
      exact ⟨'<' :: _, rfl⟩

theorem saved_ppt : ∃ text, SavedLine vte tS .ppt text true fun tS' =>
    { tS' with pptTaskList := pptRestored tS.pptTaskList } := by
  cases hlist : tS.pptTaskList with
  | nil =>
    have hprint : Converges (tS.getTaskSpecString .ppt) (.ok "PPT<>".toList) := by
      unfold TaskSpec.getTaskSpecString
      simp only [hlist]
      exact converges_map _ (converges_pure _)
    exact ⟨_, hprint, by decide, fun tS' =>
      parse_ppt_line vte tS' (by decide) (by decide) (l := []) (by decide)⟩
  | cons ppt l =>
    have hL := h.ppt
    rw [hlist] at hL
    refine ⟨_, getTaskSpecString_ppt tS hlist (hL ppt List.mem_cons_self).1.1,
      oneLine_of fun c hc => ?_, fun tS' =>
        parse_ppt_line vte tS' (blank_notMem_pptText hL) ⟨_, rfl⟩ (parsePpt_text hL)⟩
    have hwritten : ∀ c ∈ "\n\r".toList, c ≠ ',' ∧ c ∉ "PPT<,(),>".toList := by decide
    obtain ⟨hcomma, hformat⟩ := hwritten c hc
    have hfield : ∀ t ∈ ppt :: l, ∀ x ∈ [t.source, t.object, t.destination], c ∉ x := by
      intro t ht x hx
      apply h.notMem hc
      unfold TaskSpec.fields
      rw [hlist]
      exact List.mem_append_right _ (List.mem_flatMap.mpr ⟨t, ht, hx⟩)
    have hjoined : c ∉ [','].intercalate ((pptRun ppt l).map PptTask.object) := by
      apply notMem_intercalate hcomma
      intro x hx
      obtain ⟨t, ht, rfl⟩ := List.mem_map.mp hx
      have hmem : t ∈ ppt :: l := by
        rcases List.mem_cons.mp ht with rfl | ht
        · exact List.mem_cons_self
        · exact List.mem_cons_of_mem ppt ((List.takeWhile_sublist _).subset ht)
      exact hfield t hmem _ (by simp)
    have hfirst := hfield ppt List.mem_cons_self
    simp at hformat hfirst
    simp [pptText, hformat, hjoined, hfirst]

end lines

/-! ### The file -/

theorem writeLines_cons {tS : TaskSpec} {c : CompetitionIdentifier} {cs : List CompetitionIdentifier}
    {line lines : Text} (hline : Converges (tS.getTaskSpecString c) (.ok line))
    (hlines : Converges (tS.writeLines cs) (.ok lines)) :
    Converges (tS.writeLines (c :: cs)) (.ok (line ++ "\n".toList ++ lines)) := by
  unfold TaskSpec.writeLines
  refine converges_bind hline ?_
  exact converges_map (Except.map fun s => line ++ "\n".toList ++ s) hlines

/-- The lines are read one after the other, and a rejected CTT line ends the
    open. -/
theorem saved_file_restores {vte : ValidTaskElements} (hp : vte.PlainPauses) {tS : TaskSpec}
    (h : tS.Storable vte) (tS' : TaskSpec) :
    ∃ content, Converges tS.saveTaskSpec (.ok content) ∧
      Converges (tS'.openFile vte content) (decide tS.CttReadable, tS.reopened tS') := by
  obtain ⟨bnt, hbnt⟩ := saved_bnt h hp
  obtain ⟨bmt, hbmt⟩ := saved_bmt h
  obtain ⟨btt, hbtt⟩ := saved_btt h
  obtain ⟨ctt, hctt⟩ := saved_ctt h
  obtain ⟨cbt, hcbt⟩ := saved_cbt h
  obtain ⟨ppt, hppt⟩ := saved_ppt h
  refine ⟨[bnt, bmt, btt, ctt, cbt, ppt].flatMap fun line => line ++ ['\n'], ?_, ?_⟩
  · exact writeLines_cons hbnt.printed <| writeLines_cons hbmt.printed <|
      writeLines_cons hbtt.printed <| writeLines_cons hctt.printed <|
      writeLines_cons hcbt.printed <| writeLines_cons hppt.printed <| converges_pure _
  · unfold TaskSpec.openFile
    rw [Java.readLines_lines (by
      simp only [List.forall_mem_cons]
      exact ⟨hbnt.oneLine, hbmt.oneLine, hbtt.oneLine, hctt.oneLine, hcbt.oneLine, hppt.oneLine,
        fun _ hl => absurd hl List.not_mem_nil⟩)]
    refine openTaskSpec_next (hbnt.read _) <| openTaskSpec_next (hbmt.read _) <|
      openTaskSpec_next (hbtt.read _) ?_
    by_cases hreadable : tS.CttReadable
    · have hline := hctt.read
      simp only [hreadable, decide_true] at hline ⊢
      have hreopened : tS.reopened tS' =
          { tS.reopened tS' with
            cbtTaskList := tS.cbtTaskList.map fun t => { place := t.place }
            pptTaskList := pptRestored tS.pptTaskList } := by
        simp [TaskSpec.reopened, hreadable]
      rw [hreopened]
      exact openTaskSpec_next (hline _) <| openTaskSpec_next (hcbt.read _) <|
        openTaskSpec_next (hppt.read _) <| converges_pure _
    · have hline := hctt.read
      simp only [hreadable, decide_false] at hline ⊢
      have hreopened : tS.reopened tS' =
          { tS.reopened tS' with cbtTaskList := tS'.cbtTaskList, pptTaskList := tS'.pptTaskList } := by
        simp [TaskSpec.reopened, hreadable]
      rw [hreopened]
      exact openTaskSpec_stop [cbt, ppt] (hline _) (by simp)

theorem pptRestored_entries_iff (l : List PptTask) :
    (pptRestored l).map PptTask.entry = l.map PptTask.entry ↔
      ∀ t ∈ l, ∀ u ∈ l, t.source = u.source ∧ t.destination = u.destination := by
  cases l with
  | nil => simp [pptRestored]
  | cons ppt l =>
    rw [← pptRun_entries_iff, pptRestored, List.map_map]
    rfl

theorem TaskSpec.CttReadable.reopened_pptTaskList {tS : TaskSpec} (h : tS.CttReadable)
    (tS' : TaskSpec) : (tS.reopened tS').pptTaskList = pptRestored tS.pptTaskList := if_pos h

/-- All lists come back only if two of them are empty and the third is
    uniform. -/
theorem reopened_sameTasks_iff (tS tS' : TaskSpec) :
    tS.SameTasks (tS.reopened tS') ↔ tS.bttTaskList = [] ∧ tS.cttTaskList = [] ∧
      ∀ t ∈ tS.pptTaskList, ∀ u ∈ tS.pptTaskList,
        t.source = u.source ∧ t.destination = u.destination := by
  constructor
  · intro h
    have hbtt : tS.bttTaskList = [] := List.map_eq_nil_iff.mp h.btt.symm
    have hctt : tS.cttTaskList = [] := List.map_eq_nil_iff.mp h.ctt.symm
    have hreadable : tS.CttReadable := Or.inl hctt
    have hppt := h.ppt
    rw [hreadable.reopened_pptTaskList] at hppt
    exact ⟨hbtt, hctt, (pptRestored_entries_iff _).mp hppt⟩
  · intro h
    obtain ⟨hbtt, hctt, hppt⟩ := h
    have hreadable : tS.CttReadable := Or.inl hctt
    exact {
      bnt := by simp [TaskSpec.reopened, BntTask.fresh]
      bmt := by simp [TaskSpec.reopened, bmtTasks]
      bmtStatics := fun hne => by simp [TaskSpec.reopened, hne]
      btt := by rw [hbtt]; rfl
      ctt := by rw [hctt]; rfl
      cbt := by simp [TaskSpec.reopened, hreadable]
      ppt := by
        rw [hreadable.reopened_pptTaskList]
        exact (pptRestored_entries_iff _).mpr hppt }

/-- **Saving and opening a file.** What `openTaskSpec` makes of the file that
    `saveTaskSpec` writes, in any state: the lists of BNT and BMT are there
    again, those of BTT and CTT are empty, and those of CBT and PPT are read
    unless the CTT line is rejected. So the file keeps the whole specification
    only if BTT and CTT have no task, and PPT has one source and one
    destination. -/
theorem saved_file_opened (vte : ValidTaskElements) (hp : vte.PlainPauses) (tS tS' : TaskSpec)
    (h : tS.Storable vte) :
    ∃ content, Converges tS.saveTaskSpec (.ok content) ∧
      Converges (tS'.openFile vte content) (decide tS.CttReadable, tS.reopened tS') ∧
      (tS.SameTasks (tS.reopened tS') ↔ tS.bttTaskList = [] ∧ tS.cttTaskList = [] ∧
        ∀ t ∈ tS.pptTaskList, ∀ u ∈ tS.pptTaskList,
          t.source = u.source ∧ t.destination = u.destination) := by
  obtain ⟨content, hsave, hopen⟩ := saved_file_restores hp h tS'
  exact ⟨content, hsave, hopen, reopened_sameTasks_iff tS tS'⟩

/-- Two places of CBT, and a goal of CTT for team 1 only. -/
def goalOfTeam1 : TaskSpec :=
  { transports with
    bntTaskList := [⟨some "S1".toList, some "N".toList, some "10".toList, .passed⟩]
    cttTaskList := [⟨"team1Goal".toList, "line".toList, "D1".toList, "M20".toList, .init⟩] }

/-- The CTT line has nothing for team 2, and CBT keeps its old list. -/
theorem saved_file_opened_goalOfTeam1 :
    (∃ content, Converges goalOfTeam1.saveTaskSpec (.ok content) ∧
      Converges (({} : TaskSpec).openFile smallTables content)
        (decide goalOfTeam1.CttReadable, goalOfTeam1.reopened {}) ∧
      (goalOfTeam1.SameTasks (goalOfTeam1.reopened {}) ↔ goalOfTeam1.bttTaskList = [] ∧
        goalOfTeam1.cttTaskList = [] ∧
        ∀ t ∈ goalOfTeam1.pptTaskList, ∀ u ∈ goalOfTeam1.pptTaskList,
          t.source = u.source ∧ t.destination = u.destination)) ∧
      ¬ goalOfTeam1.CttReadable ∧ (goalOfTeam1.reopened {}).cbtTaskList = [] := by
  refine ⟨saved_file_opened smallTables smallTables_plainPauses goalOfTeam1 {} ?_, by decide, by decide⟩
  have hctt : ∀ t ∈ goalOfTeam1.cttTaskList, t.Sendable ∧
      (NoDelimiter t.place ∧ NoDelimiter t.configuration ∧ NoDelimiter t.object) ∧
      ' ' ∉ t.place ∧ ' ' ∉ t.getConfiguration ∧ ' ' ∉ t.object := by decide
  exact {
    bnt := by
      intro t ht
      rw [List.mem_singleton.mp ht]
      unfold BntTask.IsValid
      decide
    bmtStatics := fun _ =>
      ⟨⟨_, rfl, by decide⟩, ⟨_, rfl, by decide⟩, ⟨_, rfl, by decide⟩, ⟨_, rfl, by decide⟩,
        ⟨_, rfl, by decide⟩⟩
    bmt := by decide
    btt := fun t ht => absurd ht List.not_mem_nil
    ctt := by
      intro t ht
      obtain ⟨hsend, ⟨h1, h2, h3⟩, h4, h5, h6⟩ := hctt t ht
      exact ⟨hsend, h1, h2, h3, h4, h5, h6⟩
    cbt := by decide
    ppt := fun t ht => absurd ht List.not_mem_nil
    oneLine := by decide }

end RefereeBox
