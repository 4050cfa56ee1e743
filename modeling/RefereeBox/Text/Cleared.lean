import RefereeBox.Model.XmlEncoder
import RefereeBox.Model.TaskStates
import RefereeBox.Editing.Branches
import RefereeBox.Text.Restore

/-! # Texts and Marks

  No text shows the marks of the tasks: a specification prints what it prints
  without them, in both formats and for every competition, also where the
  printing does not come to an end.
-/

namespace RefereeBox

open Loop ControlBreak Grouping

/-! ### Taking the marks off -/

/-- The specification without marks. -/
def TaskSpec.cleared (tS : TaskSpec) : TaskSpec where
  bntTaskList := tS.bntTaskList.map (BntTask.changeState fun _ => .init)
  bmtTaskList := tS.bmtTaskList.map (BmtTask.changeState fun _ => .init)
  bttTaskList := tS.bttTaskList.map (BttTask.changeState fun _ => .init)
  cttTaskList := tS.cttTaskList.map (CttTask.changeState fun _ => .init)
  cbtTaskList := tS.cbtTaskList.map (CbtTask.changeState fun _ => .init)
  pptTaskList := tS.pptTaskList.map (PptTask.changeState fun _ => .init)
  bmtStatics := tS.bmtStatics

variable (f : StateOfTask → StateOfTask)

/-! ### The standard texts -/

theorem bntString_changeState (L : List BntTask) :
    bntString (L.map (BntTask.changeState f)) = bntString L := by
  unfold bntString
  rw [List.flatMap_map]
  rfl

theorem bmtString_changeState (statics : BmtStatics) (L : List BmtTask) :
    bmtString statics (L.map (BmtTask.changeState f)) = bmtString statics L := by
  rw [← bmtString_map_object, ← bmtString_map_object statics L, List.map_map]
  rfl

theorem cbtString_changeState (s : Text) (L : List CbtTask) :
    cbtString s (L.map (CbtTask.changeState f)) = cbtString s L := by
  cases L with
  | nil => rfl
  | cons t L =>
    rw [List.map_cons, cbtString_cons, cbtString_cons, List.map_cons, List.map_cons, List.map_map]
    rfl

/-! The loops start in front of the list. -/

theorem bttString_cons (s : Text) (t : BttTask) (L : List BttTask) :
    bttString s (t :: L) = doWhile bttSection (fun c => c.current.situation.length ≠ 0)
      (Cursor.before {} s {} (t :: L)) >>= fun c => pure c.out := rfl

theorem cttString_cons (s : Text) (t : CttTask) (L : List CttTask) :
    cttString s (t :: L) = doWhile cttSection (fun c => c.current.situation.length ≠ 0)
      (Cursor.before {} ([], []) {} (t :: L)) >>= fun c =>
        pure (s ++ c.out.1 ++ ">#CTT<".toList ++ c.out.2) := rfl

theorem pptString_before (s : Text) (t : PptTask) (L : List PptTask) :
    pptString s (t :: L) = runLoop pptReport
      (Cursor.before {} (s ++ t.source ++ ",(".toList) {} (t :: L)) >>= fun c =>
        pure (c.out.dropLast ++ "),".toList ++ t.destination) := rfl

theorem bttFooter_map (c : Cursor BttTask Text) :
    bttFooter (c.map (BttTask.changeState f)) = (bttFooter c).map (BttTask.changeState f) := by
  unfold bttFooter Cursor.map BttTask.changeState
  by_cases hmore : c.current.situation.length ≠ 0 <;> simp [hmore]

section reports
variable (hf : f .init = .init)
include hf

theorem bttReport_blind : bttReport.Blind (BttTask.changeState f) where
  sentinel := congrArg (fun state => ({ state := state } : BttTask)) hf
  sameGroup _ _ := rfl
  sameSection _ _ := rfl
  openGroup _ := rfl
  putItem _ := rfl

theorem cttReport_blind (write : (Text → Text) → TeamStrings → TeamStrings)
    {y : Layout CttTask Char} (hopening : ∀ t, y.opening (t.changeState f) = y.opening t)
    (hitem : ∀ t, y.item (t.changeState f) = y.item t) :
    (cttReport write y).Blind (CttTask.changeState f) where
  sentinel := congrArg (fun state => ({ state := state } : CttTask)) hf
  sameGroup _ _ := rfl
  sameSection _ _ := rfl
  openGroup t := by
    unfold cttReport Layout.report
    simp only [hopening]
  putItem t := by
    unfold cttReport Layout.report
    simp only [hitem]

theorem pptReport_blind : pptReport.Blind (PptTask.changeState f) where
  sentinel := congrArg (fun state => ({ state := state } : PptTask)) hf
  sameGroup _ _ := rfl
  sameSection _ _ := rfl
  openGroup _ := rfl
  putItem _ := rfl

theorem bttSection_map (c : Cursor BttTask Text) (n : Nat) :
    bttSection (c.map (BttTask.changeState f)) n =
      (bttSection c n).map (Cursor.map (BttTask.changeState f)) := by
  have hout : { c.map (BttTask.changeState f) with
      out := (c.map (BttTask.changeState f)).out ++
        (c.map (BttTask.changeState f)).current.situation ++ "situation(".toList } =
      ({ c with out := c.out ++ c.current.situation ++ "situation(".toList } :
        Cursor BttTask Text).map (BttTask.changeState f) := rfl
  show (sectionLoop bttReport _ n).bind _ = ((sectionLoop bttReport _ n).bind _).map _
  rw [hout, sectionLoop_map (bttReport_blind f hf)]
  cases sectionLoop bttReport
      { c with out := c.out ++ c.current.situation ++ "situation(".toList } n with
  | none => rfl
  | some c' => exact congrArg some (bttFooter_map f c')

theorem bttString_changeState (s : Text) (L : List BttTask) :
    bttString s (L.map (BttTask.changeState f)) = bttString s L := by
  cases L with
  | nil => rfl
  | cons t L =>
    have hsentinel : BttTask.changeState f {} = {} := (bttReport_blind f hf).sentinel
    rw [List.map_cons, bttString_cons, bttString_cons, ← List.map_cons]
    have hbefore := Cursor.before_map hsentinel s (t :: L)
    rw [hbefore]
    funext n
    show (doWhile bttSection _ _ n).bind _ = _
    rw [doWhile_map (Cursor.map (BttTask.changeState f)) (bttSection_map f hf) fun _ => rfl,
      Option.bind_map]
    rfl

theorem cttSectionPart_map (write : (Text → Text) → TeamStrings → TeamStrings)
    {y : Layout CttTask Char} (hopening : ∀ t, y.opening (t.changeState f) = y.opening t)
    (hitem : ∀ t, y.item (t.changeState f) = y.item t) (header footer : Text)
    (c : Cursor CttTask TeamStrings) (n : Nat) :
    cttSectionPart write y header footer (c.map (CttTask.changeState f)) n =
      (cttSectionPart write y header footer c n).map (Cursor.map (CttTask.changeState f)) := by
  have hout : { c.map (CttTask.changeState f) with
      out := write (· ++ header) (c.map (CttTask.changeState f)).out } =
      ({ c with out := write (· ++ header) c.out } : Cursor CttTask TeamStrings).map
        (CttTask.changeState f) := rfl
  show (sectionLoop (cttReport write y) _ n).bind _ =
    ((sectionLoop (cttReport write y) _ n).bind _).map _
  rw [hout, sectionLoop_map (cttReport_blind f hf write hopening hitem)]
  cases sectionLoop (cttReport write y) { c with out := write (· ++ header) c.out } n <;> rfl

theorem cttSection_map (c : Cursor CttTask TeamStrings) (n : Nat) :
    cttSection (c.map (CttTask.changeState f)) n =
      (cttSection c n).map (Cursor.map (CttTask.changeState f)) := by
  have hsituation : (c.map (CttTask.changeState f)).current.situation = c.current.situation := rfl
  -- the branch depends on the situation only
  unfold cttSection
  rw [hsituation]
  split
  · exact cttSectionPart_map f hf onBoth (fun _ => rfl) (fun _ => rfl) _ _ c n
  · split
    · exact cttSectionPart_map f hf onTeam1 (fun _ => rfl) (fun _ => rfl) _ _ c n
    · split
      · exact cttSectionPart_map f hf onTeam2 (fun _ => rfl) (fun _ => rfl) _ _ c n
      · rfl

theorem cttString_changeState (s : Text) (L : List CttTask) :
    cttString s (L.map (CttTask.changeState f)) = cttString s L := by
  cases L with
  | nil => rfl
  | cons t L =>
    have hsentinel : CttTask.changeState f {} = {} :=
      (cttReport_blind f hf onBoth (y := cttGoalLayout) (fun _ => rfl) fun _ => rfl).sentinel
    rw [List.map_cons, cttString_cons, cttString_cons, ← List.map_cons]
    have hbefore := Cursor.before_map hsentinel (([], []) : TeamStrings) (t :: L)
    rw [hbefore]
    funext n
    show (doWhile cttSection _ _ n).bind _ = _
    rw [doWhile_map (Cursor.map (CttTask.changeState f)) (cttSection_map f hf) fun _ => rfl,
      Option.bind_map]
    rfl

theorem pptString_changeState (s : Text) (L : List PptTask) :
    pptString s (L.map (PptTask.changeState f)) = pptString s L := by
  cases L with
  | nil => rfl
  | cons t L =>
    have hsentinel : PptTask.changeState f {} = {} := (pptReport_blind f hf).sentinel
    rw [List.map_cons, pptString_before, pptString_before, ← List.map_cons]
    have hbefore := Cursor.before_map hsentinel (s ++ t.source ++ ",(".toList) (t :: L)
    have hsource : (t.changeState f).source = t.source := rfl
    rw [hsource, hbefore]
    funext n
    show (runLoop pptReport _ n).bind _ = _
    rw [runLoop_map (pptReport_blind f hf), Option.bind_map]
    rfl

end reports

/-! ### The XML texts -/

theorem bntXml_changeState (s : Text) (L : List BntTask) :
    bntXml s (L.map (BntTask.changeState f)) = bntXml s L := by
  cases L with
  | nil => rfl
  | cons t L =>
    unfold bntXml
    rw [List.map_cons]
    dsimp only
    rw [← List.map_cons, List.mapM_map]
    rfl

theorem bmtXml_changeState (s : Text) (statics : BmtStatics) (L : List BmtTask) :
    bmtXml s statics (L.map (BmtTask.changeState f)) = bmtXml s statics L := by
  cases L with
  | nil => rfl
  | cons t L =>
    have hdocument : bmtDocument statics ((t :: L).map (BmtTask.changeState f)) =
        bmtDocument statics (t :: L) := by
      unfold bmtDocument
      simp only [collect_map]
      rfl
    unfold bmtXml
    rw [List.map_cons] at hdocument ⊢
    dsimp only
    rw [hdocument]

theorem bttXml_changeState (s : Text) (L : List BttTask) :
    bttXml s (L.map (BttTask.changeState f)) = bttXml s L := by
  have hsource : ∀ startSit, bttAreas (bttSource startSit (L.map (BttTask.changeState f))) =
      bttAreas (bttSource startSit L) := by
    intro startSit
    unfold bttAreas bttSource
    rw [List.filter_map, collect_map]
    rfl
  have hdestination : ∀ startSit endSit,
      bttAreas (bttDestination startSit endSit (L.map (BttTask.changeState f))) =
        bttAreas (bttDestination startSit endSit L) := by
    intro startSit endSit
    unfold bttAreas bttDestination
    rw [List.filter_map, collect_map]
    rfl
  cases L with
  | nil => rfl
  | cons t L =>
    have hlast : (((t :: L).map (BttTask.changeState f)).getLast (by simp)).situation =
        ((t :: L).getLast (List.cons_ne_nil t L)).situation := by
      rw [List.getLast_map]
      rfl
    have hfirst : (t.changeState f).situation = t.situation := rfl
    unfold bttXml
    simp only [List.map_cons] at hlast hsource hdestination ⊢
    rw [hfirst, hlast, hsource, hdestination]

theorem cbtXml_changeState (s : Text) (L : List CbtTask) :
    cbtXml s (L.map (CbtTask.changeState f)) = cbtXml s L := by
  cases L with
  | nil => rfl
  | cons t L =>
    unfold cbtXml
    rw [List.map_cons]
    dsimp only
    rw [← List.map_cons, List.flatMap_map]
    rfl

theorem pptXml_changeState (s : Text) (L : List PptTask) :
    pptXml s (L.map (PptTask.changeState f)) = pptXml s L := by
  cases L with
  | nil => rfl
  | cons t L =>
    unfold pptXml
    rw [List.map_cons]
    dsimp only
    rw [← List.map_cons, collect_map, collect_map]
    rfl

/-! ### The whole texts -/

theorem getTaskSpecString_cleared (tS : TaskSpec) (c : CompetitionIdentifier) :
    tS.cleared.getTaskSpecString c = tS.getTaskSpecString c := by
  unfold TaskSpec.getTaskSpecString TaskSpec.cleared
  cases c with
  | bnt => simp only [bntString_changeState]
  | bmt => simp only [bmtString_changeState]
  | btt => simp only [bttString_changeState (fun _ => StateOfTask.init) rfl]
  | ctt => simp only [cttString_changeState (fun _ => StateOfTask.init) rfl]
  | cbt => simp only [cbtString_changeState]
  | ppt => simp only [pptString_changeState (fun _ => StateOfTask.init) rfl]

theorem getTaskSpecXml_cleared (tS : TaskSpec) (c : CompetitionIdentifier) :
    tS.cleared.getTaskSpecXml c = tS.getTaskSpecXml c := by
  unfold TaskSpec.getTaskSpecXml TaskSpec.cleared
  cases c with
  | bnt => simp only [bntXml_changeState]
  | bmt => simp only [bmtXml_changeState]
  | btt => simp only [bttXml_changeState]
  | ctt => simp only [cttString_changeState (fun _ => StateOfTask.init) rfl]
  | cbt => simp only [cbtXml_changeState]
  | ppt => simp only [pptXml_changeState]

/-! ### What makes and takes marks -/

/-- Setting the state of one task does not show in the list without marks. -/
theorem map_set_of_eq {τ σ : Type} {g : τ → σ} {l : List τ} {i : Nat} {t t' : τ}
    (ht : l[i]? = some t) (heq : g t' = g t) : (l.set i t').map g = l.map g := by
  obtain ⟨hi, rfl⟩ := List.getElem?_eq_some_iff.mp ht
  have hi' : i < (l.map g).length := by simpa using hi
  have hset := List.set_getElem_self hi'
  rw [List.getElem_map] at hset
  rw [List.map_set, heq, hset]

variable (orders : TaskOrders)

theorem cleared_setTaskState (tripletIndex column : Nat) (c : CompetitionIdentifier)
    (tS : TaskSpec) : (tS.setTaskState orders tripletIndex column c).2.cleared = tS.cleared := by
  unfold TaskSpec.setTaskState TaskBranch.setTaskState
  cases c with
  | bnt | bmt | btt | ctt | cbt | ppt =>
    dsimp only
    split
    · rfl
    · next ht =>
      unfold TaskSpec.cleared
      congr 1
      exact map_set_of_eq ht rfl

theorem cleared_resetCase (c : CompetitionIdentifier) (tS : TaskSpec) :
    (tS.resetCase orders c).cleared = tS.cleared := by
  unfold TaskSpec.resetCase TaskBranch.resetStates
  cases c with
  | bnt | bmt | btt | ctt | cbt | ppt =>
    unfold TaskSpec.cleared
    congr 1
    exact List.map_map

theorem cleared_resetStates (c : CompetitionIdentifier) (tS : TaskSpec) :
    (tS.resetStates orders c).cleared = tS.cleared := by
  unfold TaskSpec.resetStates
  generalize TaskSpec.casesFrom c = cs
  induction cs generalizing tS with
  | nil => rfl
  | cons c cs ih => rw [List.foldl_cons, ih, cleared_resetCase]

end RefereeBox
