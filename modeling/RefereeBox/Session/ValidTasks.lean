import RefereeBox.Config.Growth
import RefereeBox.Config.Reload
import RefereeBox.Model.ConfiguredSession
import RefereeBox.Session.Actions
import RefereeBox.Session.Marks
import RefereeBox.Text.Rejection

/-! # The Elements of the BNT Tasks

  A BNT task can be drawn when its place, its orientation and its pause are
  entries of the tables, and the map has got the positions (`Drawable`). Editing
  moves tasks about, and a load only adds entries to the tables. New tasks come
  from the boxes, which select null as long as they are empty, and from a file,
  where the pattern of an empty table matches the empty text. Apart from that
  every task can be drawn in every state of a session (`Sound`).
-/

namespace RefereeBox

open Loop Transition

/-! ### The positions of the map -/

namespace MapArea

variable (mapArea : MapArea)

@[simp] theorem taskSpecChanged_validPositions (c : CompetitionIdentifier) :
    (mapArea.taskSpecChanged c).validPositions = mapArea.validPositions := rfl

@[simp] theorem lineRead_validPositions (line : Text) (tS tS' : TaskSpec) :
    (mapArea.lineRead line tS tS').validPositions = mapArea.validPositions := by
  unfold lineRead
  split
  · rfl
  · split
    · rfl
    · split <;> rfl

@[simp] theorem operated_validPositions (c : CompetitionIdentifier) (outcome : Option Outcome) :
    (mapArea.operated c outcome).validPositions = mapArea.validPositions := by
  unfold operated
  split <;> rfl

@[simp] theorem tabChanged_validPositions (mC : MainController) :
    (mapArea.tabChanged mC).validPositions = mapArea.validPositions := by
  unfold tabChanged
  split <;> rfl

end MapArea

/-! ### What a file gives -/

/-- The BNT branch reads a line of the file with this triplet. -/
def TripletRead (vte : ValidTaskElements) (lines : List Text) (t : BntTask) : Prop :=
  ∃ accepted line rest, lines = accepted ++ line :: rest ∧
    (∀ l ∈ accepted ++ [line], Accepted vte l) ∧ competitionIn line = some .bnt ∧
    t.Fits vte ∧ ∃ u v, removeSpaces line = u ++ t.getString ++ v

/-- A line behind an accepted one. -/
theorem TripletRead.cons {vte : ValidTaskElements} {line : Text} {lines : List Text} {t : BntTask}
    (hline : Accepted vte line) (h : TripletRead vte lines t) :
    TripletRead vte (line :: lines) t := by
  obtain ⟨accepted, l, rest, rfl, haccepted, hrest⟩ := h
  exact ⟨line :: accepted, l, rest, rfl, List.forall_mem_cons.mpr ⟨hline, haccepted⟩, hrest⟩

/-- What is read from the first line alone. -/
theorem TripletRead.of_head {vte : ValidTaskElements} {line : Text} {t : BntTask}
    (h : TripletRead vte [line] t) (lines : List Text) : TripletRead vte (line :: lines) t := by
  obtain ⟨accepted, l, rest, hlines, haccepted, hrest⟩ := h
  cases accepted with
  | nil =>
    obtain ⟨rfl, -⟩ := List.cons.inj hlines
    exact ⟨[], line, lines, rfl, haccepted, hrest⟩
  | cons x xs => simp at hlines

theorem exists_rest_of_competitionIn {line : Text} {c : CompetitionIdentifier}
    (h : competitionIn line = some c) : ∃ rest, removeSpaces line = c.name ++ rest := by
  have hname : c.name = (removeSpaces line).take 3 := by
    unfold competitionIn competitionOf at h
    simpa using List.find?_some h
  exact ⟨(removeSpaces line).drop 3, by rw [hname, List.take_append_drop]⟩

section

variable {P : BntTask → Prop} {vte : ValidTaskElements}

/-- What a line does to the BNT list: a BNT line that is accepted leaves triplets that
    are in it, any other BNT line leaves nothing, and the rest leave the list alone. -/
theorem exists_parse_bnt (line : Text)
    (hP : ∀ t, TripletRead vte [line] t → P t) :
    ∃ (outcome : Except Exn Bool) (f : TaskSpec → TaskSpec),
      (∀ tS : TaskSpec, Converges (tS.parseTaskSpecString vte line) (outcome, f tS)) ∧
      (outcome = .ok true ↔ Accepted vte line) ∧
      ∀ tS : TaskSpec, (∀ t ∈ tS.bntTaskList, P t) → ∀ t ∈ (f tS).bntTaskList, P t := by
  obtain ⟨outcome, f, hconv, hok, hnone, hsome⟩ := exists_parse vte line
  refine ⟨outcome, f, hconv, hok, fun tS h => ?_⟩
  cases hcomp : competitionIn line with
  | none =>
    rw [hnone hcomp]
    exact h
  | some c =>
    by_cases hc : c = .bnt
    · subst hc
      obtain ⟨rest, hrest⟩ := exists_rest_of_competitionIn hcomp
      cases hcompile : Java.compile vte.getValidBNTPattern with
      | none =>
        -- the list is empty by the time of the exception
        have hfail : Converges (tS.parseTaskSpecString vte line)
            (.ok false, { tS with bntTaskList := [] }) := by
          rw [tS.parse_of_name vte hrest]
          show Converges ((parseBnt vte (removeSpaces line) >>= _) >>= _) _
          unfold parseBnt
          rw [hcompile]
          exact converges_pure _
        obtain ⟨-, hf⟩ := Prod.mk.inj ((hconv tS).unique hfail)
        rw [hf]
        exact fun t ht => absurd ht List.not_mem_nil
      | some pat =>
        have hplain := vte.isPlain_of_compile (hcompile ▸ rfl)
        obtain ⟨ms, hscan⟩ := Pattern.Scan.exists '(' vte.tripletPattern.tail (removeSpaces line)
        have hocc := occurrences_of_scan hplain hscan
        obtain ⟨hout, hf⟩ := Prod.mk.inj ((hconv tS).unique (parse_bnt_line hplain tS hrest hscan))
        rw [hf]
        intro t ht
        refine hP t ⟨[], line, [], rfl, ?_, hcomp, hocc.fits t ht, hocc.occurs t ht⟩
        exact fun l hl => List.mem_singleton.mp hl ▸ hok.mp hout
    · have hkeeps := (hsome c hcomp).2.1 .bnt (Ne.symm hc) tS
      have hlist : (f tS).bntTaskList = tS.bntTaskList :=
        List.map_injective_iff.mpr (fun _ _ h => Task.bnt.inj h) hkeeps
      rw [hlist]
      exact h

/-- The BNT tasks that are in the list, or that the map may still draw. -/
structure Carries (P : BntTask → Prop) (tS : TaskSpec) (mapArea : MapArea) : Prop where
  tasks : ∀ t ∈ tS.bntTaskList, P t
  route : ∀ l ∈ mapArea.taskList, ∀ t ∈ l, P t

section

variable {tS tS' : TaskSpec} {mapArea : MapArea}

theorem Carries.imp {Q : BntTask → Prop} (hPQ : ∀ t, P t → Q t) (h : Carries P tS mapArea) :
    Carries Q tS mapArea :=
  ⟨fun t ht => hPQ t (h.tasks t ht), fun l hl t ht => hPQ t (h.route l hl t ht)⟩

theorem Carries.of_mem_tasks (h : Carries P tS mapArea) : ∀ t ∈ mapArea.tasks tS, P t := by
  unfold MapArea.tasks
  cases hlist : mapArea.taskList with
  | none => exact h.tasks
  | some l => exact h.route l hlist

/-- A notification gives the map the list of the specification. -/
theorem Carries.taskSpecChanged (h : Carries P tS mapArea) (hP : ∀ t ∈ tS'.bntTaskList, P t)
    (c : CompetitionIdentifier) : Carries P tS' (mapArea.taskSpecChanged c) := by
  refine ⟨hP, fun l hl => ?_⟩
  unfold MapArea.taskSpecChanged at hl
  dsimp only at hl
  split at hl
  · exact absurd hl (Option.not_mem_none l)
  · exact h.route l hl

theorem Carries.lineRead (h : Carries P tS mapArea) (hP : ∀ t ∈ tS'.bntTaskList, P t)
    (line : Text) : Carries P tS' (mapArea.lineRead line tS tS') := by
  unfold MapArea.lineRead
  split
  · exact ⟨hP, h.route⟩
  · split
    · exact h.taskSpecChanged hP _
    · split
      · -- the map keeps the list from before the line
        exact ⟨hP, fun l hl => Option.mem_some.mp hl ▸ h.of_mem_tasks⟩
      · exact ⟨hP, h.route⟩

theorem Carries.operated (h : Carries P tS mapArea) (hP : ∀ t ∈ tS'.bntTaskList, P t)
    (c : CompetitionIdentifier) (outcome : Option Outcome) :
    Carries P tS' (mapArea.operated c outcome) := by
  unfold MapArea.operated
  split
  · exact h.taskSpecChanged hP c
  · exact h.taskSpecChanged hP c
  · exact ⟨hP, h.route⟩
  · exact ⟨hP, h.route⟩
  · exact ⟨hP, h.route⟩

theorem Carries.tabChanged (h : Carries P tS mapArea) (mC : MainController) :
    Carries P tS (mapArea.tabChanged mC) := by
  unfold MapArea.tabChanged
  split
  · exact h
  · exact h.taskSpecChanged h.tasks _

end

/-- **What an open does**: it ends, and the triplets it reads are all that it adds. The
    induction is on the lines that are left. -/
theorem exists_openMap (lines : List Text) (hP : ∀ t, TripletRead vte lines t → P t)
    {tS : TaskSpec} {mapArea : MapArea} (h : Carries P tS mapArea) :
    ∃ result tS' mapArea', Converges (tS.openTaskSpec vte lines) (result, tS') ∧
      Converges (tS.openMap vte mapArea lines) (result, tS', mapArea') ∧
      Carries P tS' mapArea' ∧ mapArea'.validPositions = mapArea.validPositions := by
  induction lines generalizing tS mapArea with
  | nil => exact ⟨true, tS, mapArea, converges_pure _, converges_pure _, h, rfl⟩
  | cons line lines ih =>
    obtain ⟨outcome, f, hconv, hok, hlist⟩ :=
      exists_parse_bnt line fun t ht => hP t (ht.of_head lines)
    have hread := h.lineRead (hlist tS h.tasks) line
    have hpositions := mapArea.lineRead_validPositions line tS (f tS)
    by_cases haccepted : Accepted vte line
    · obtain rfl := hok.mpr haccepted
      obtain ⟨result, tS', mapArea', hspec, hmap, hcarries, hkept⟩ :=
        ih (fun t ht => hP t (ht.cons haccepted)) hread
      refine ⟨result, tS', mapArea', openTaskSpec_next (hconv tS) hspec, ?_, hcarries,
        hkept.trans hpositions⟩
      unfold TaskSpec.openMap
      exact converges_bind (hconv tS) hmap
    · -- the open ends here
      have hne : outcome ≠ .ok true := fun heq => haccepted (hok.mp heq)
      refine ⟨false, f tS, mapArea.lineRead line tS (f tS), openTaskSpec_stop lines (hconv tS) hne,
        ?_, hread, hpositions⟩
      unfold TaskSpec.openMap
      refine converges_bind (hconv tS) ?_
      rcases outcome with e | ok
      · exact converges_pure _
      · cases ok with
        | false => exact converges_pure _
        | true => exact absurd rfl hne

end

/-! ### What an action does to the list -/

section

variable {P : BntTask → Prop} {orders : TaskOrders} {s s' : Session} {l : SessionAction}

/-- The task that an action puts into the BNT list: an update needs a row to put it. -/
def NewTask (s : Session) : SessionAction → BntTask → Prop
  | .add sel, t => (sel.getSelectedTask s.tS).1 = .bnt t
  | .update pos sel, t => pos < s.tS.bntTaskList.length ∧ (sel.getSelectedTask s.tS).1 = .bnt t
  | _, _ => False

theorem bnt_mem_tasks {tS : TaskSpec} {t : BntTask} : .bnt t ∈ tS.tasks .bnt ↔ t ∈ tS.bntTaskList :=
  List.mem_map_of_injective fun _ _ h => Task.bnt.inj h

/-- An edit leaves old tasks in the BNT list, and the one that it is given. -/
theorem bntTaskList_edit {tS : TaskSpec} {compIdent : CompetitionIdentifier} (op : EditOp)
    (h : ∀ t ∈ tS.bntTaskList, P t) (hgiven : ∀ t, .bnt t ∈ op.given → P t) :
    ∀ t ∈ (tS.edit orders compIdent op).2.bntTaskList, P t := by
  intro t ht
  rw [← bnt_mem_tasks] at ht
  by_cases hc : .bnt = compIdent
  · subst hc
    rcases mem_edit orders tS .bnt op ht with hold | hnew
    · exact h t (bnt_mem_tasks.mp hold)
    · exact hgiven t hnew
  · exact h t (bnt_mem_tasks.mp ((edit_frame orders tS hc op).mem_iff.mp ht))

theorem bntTaskList_selected (sel : Selection) (tS : TaskSpec) :
    (sel.getSelectedTask tS).2.bntTaskList = tS.bntTaskList := by
  cases sel <;> rfl

/-- A mark changes no element of a task. -/
theorem bntTaskList_setTaskState {tS : TaskSpec} (hP : ∀ f t, P t → P (t.changeState f))
    (h : ∀ t ∈ tS.bntTaskList, P t) (tripletIndex column : Nat) (compIdent : CompetitionIdentifier) :
    ∀ t ∈ (tS.setTaskState orders tripletIndex column compIdent).2.bntTaskList, P t := by
  by_cases hc : .bnt = compIdent
  · subst hc
    show ∀ t ∈ (bntBranch.setTaskState BntTask.changeState tripletIndex column tS).2.bntTaskList, P t
    unfold TaskBranch.setTaskState
    split
    · exact h
    · next tT hget =>
      intro t ht
      rcases List.mem_or_eq_of_mem_set ht with hold | rfl
      · exact h t hold
      · exact hP _ tT (h tT (List.mem_of_getElem? hget))
  · intro t ht
    rw [← bnt_mem_tasks, setTaskState_tasks_other hc, bnt_mem_tasks] at ht
    exact h t ht

theorem bntTaskList_resetStates {tS : TaskSpec} (hP : ∀ f t, P t → P (t.changeState f))
    (h : ∀ t ∈ tS.bntTaskList, P t) (compIdent : CompetitionIdentifier) :
    ∀ t ∈ (tS.resetStates orders compIdent).bntTaskList, P t := by
  intro t ht
  rw [← bnt_mem_tasks] at ht
  unfold TaskSpec.resetStates at ht
  rw [TaskSpec.resetCases_tasks] at ht
  split at ht
  · obtain ⟨old, hold, hreset⟩ := List.mem_map.mp ht
    obtain ⟨old, hmem, rfl⟩ := List.mem_map.mp hold
    obtain rfl := Task.bnt.inj hreset
    exact hP _ old (h old hmem)
  · exact h t (bnt_mem_tasks.mp ht)

/-- Apart from an open an action leaves old tasks in the BNT list, and its new one. -/
theorem bntTaskList_step (hP : ∀ f t, P t → P (t.changeState f))
    (h : ∀ t ∈ s.tS.bntTaskList, P t) (hstep : (session orders).step s l s')
    (hnew : ∀ t, NewTask s l t → P t) (hopen : ∀ proceed lines, l ≠ .openFile proceed lines) :
    ∀ t ∈ s'.tS.bntTaskList, P t := by
  cases l with
  | loadConfig proceed loaded vte =>
    rcases Session.loadConfig_cases hstep with rfl | ⟨-, -, rfl⟩
    · exact h
    · exact h
  | save written =>
    rcases Session.save_cases hstep with rfl | ⟨-, -, -, rfl⟩
    · exact h
    · exact h
  | openFile proceed lines => exact absurd rfl (hopen proceed lines)
  | add sel =>
    obtain ⟨-, -, rfl⟩ := hstep
    rw [Session.add_tS]
    refine bntTaskList_edit (.add _) (by rwa [bntTaskList_selected]) fun t ht => hnew t ?_
    exact (List.mem_singleton.mp ht).symm
  | update pos sel =>
    obtain ⟨-, hsel, rfl⟩ := hstep
    rcases s.update_cases orders pos hsel with ⟨hpos, -⟩ | ⟨-, heq⟩
    · unfold Session.update
      rw [Session.edited_tS]
      refine bntTaskList_edit (.update pos _) (by rwa [bntTaskList_selected]) fun t ht => ?_
      have hgiven : (sel.getSelectedTask s.tS).1 = .bnt t := (List.mem_singleton.mp ht).symm
      -- the task is one of the actual competition
      have hbnt : s.mC.compIdent = .bnt := by
        rw [← hsel, ← sel.getSelectedTask_competition s.tS, hgiven]
        rfl
      rw [hbnt] at hpos
      exact hnew t ⟨by simpa [TaskSpec.tasks] using hpos, hgiven⟩
    · rw [heq]
      show ∀ t ∈ (sel.getSelectedTask s.tS).2.bntTaskList, P t
      rwa [bntTaskList_selected]
  | delete pos sel confirmed =>
    obtain ⟨-, -, rfl⟩ := hstep
    unfold Session.delete
    dsimp only
    split
    · rw [Session.edited_tS]
      exact bntTaskList_edit (.delete pos) (by rwa [bntTaskList_selected])
        fun t ht => absurd ht List.not_mem_nil
    · show ∀ t ∈ (sel.getSelectedTask s.tS).2.bntTaskList, P t
      rwa [bntTaskList_selected]
  | up pos =>
    obtain ⟨-, rfl⟩ := hstep
    unfold Session.up
    rw [Session.moved_tS]
    exact bntTaskList_edit (.moveUp pos) h fun t ht => absurd ht List.not_mem_nil
  | down pos =>
    obtain ⟨-, rfl⟩ := hstep
    unfold Session.down
    rw [Session.moved_tS]
    exact bntTaskList_edit (.moveDown pos) h fun t ht => absurd ht List.not_mem_nil
  | mark tripletIndex column =>
    obtain ⟨-, -, -, rfl⟩ := hstep
    exact bntTaskList_setTaskState hP h tripletIndex column _
  | competitionFinished =>
    rcases Session.competitionFinished_cases hstep with rfl | ⟨-, -, -, rfl⟩
    · exact h
    · exact bntTaskList_resetStates hP h _
  | controller a =>
    obtain ⟨-, mC', -, rfl⟩ := hstep
    exact h

end

/-! ### Valid elements -/

/-- The entries that a box can select. -/
def ValidTaskElements.entries (vte : ValidTaskElements) : BntBox → List Text
  | .placeBox => vte.validBNTPositions.map Prod.fst
  | .orientationBox => vte.validBNTOrientations
  | .pauseBox => vte.validBNTPauses

theorem BntTask.isValid_iff {vte : ValidTaskElements} {t : BntTask} :
    t.IsValid vte ↔ ∀ box, ∃ e ∈ vte.entries box, t.element box = some e := by
  constructor
  · rintro ⟨place, hplace, orientation, horientation, pause, hpause, h1, h2, h3⟩ box
    cases box with
    | placeBox => exact ⟨place, hplace, h1⟩
    | orientationBox => exact ⟨orientation, horientation, h2⟩
    | pauseBox => exact ⟨pause, hpause, h3⟩
  · intro h
    obtain ⟨place, hplace, h1⟩ := h .placeBox
    obtain ⟨orientation, horientation, h2⟩ := h .orientationBox
    obtain ⟨pause, hpause, h3⟩ := h .pauseBox
    exact ⟨place, hplace, orientation, horientation, pause, hpause, h1, h2, h3⟩

/-- A task can be drawn: its elements are valid, and the map has the positions. -/
def BntTask.Drawable (vte : ValidTaskElements) (validPositions : Bool) (t : BntTask) : Prop :=
  t.IsValid vte ∧ validPositions = true

/-- It still can when the tables have grown. -/
theorem BntTask.Drawable.mono {vte vte' : ValidTaskElements} {validPositions validPositions' : Bool}
    {t : BntTask} (hentries : ∀ box, ∀ e ∈ vte.entries box, e ∈ vte'.entries box)
    (hpositions : validPositions = true → validPositions' = true)
    (h : Drawable vte validPositions t) : Drawable vte' validPositions' t := by
  obtain ⟨hvalid, hset⟩ := h
  refine ⟨isValid_iff.mpr fun box => ?_, hpositions hset⟩
  obtain ⟨e, he, helement⟩ := isValid_iff.mp hvalid box
  exact ⟨e, hentries box e he, helement⟩

/-- What a box can select is an entry of its table. -/
structure ComboBoxModel.Within (entries : List Text) (cbm : ComboBoxModel) : Prop where
  items : ∀ item ∈ cbm.items, item ∈ entries
  selectedItem : ∀ item ∈ cbm.selectedItem, item ∈ entries

theorem ComboBoxModel.Within.ofItems (entries : List Text) :
    (ComboBoxModel.ofItems entries).Within entries :=
  ⟨fun _ => id, fun _ h => List.mem_of_mem_head? h⟩

/-- The entries of growing tables. -/
theorem TaskElements.Grows.entries {vte vte' : TaskElements} {bnt bnt' : ValidTaskElements}
    (h : vte.Grows vte') (hbnt : vte.HasBnt bnt) (hbnt' : vte'.HasBnt bnt') :
    ∀ box, ∀ e ∈ bnt.entries box, e ∈ bnt'.entries box := by
  intro box e he
  cases box with
  | placeBox =>
    unfold ValidTaskElements.entries at he ⊢
    rw [hbnt'.positions]
    rw [hbnt.positions] at he
    exact h.places e he
  | orientationBox =>
    unfold ValidTaskElements.entries at he ⊢
    rw [hbnt'.orientations]
    rw [hbnt.orientations] at he
    exact h.orientations e he
  | pauseBox =>
    unfold ValidTaskElements.entries at he ⊢
    rw [hbnt'.pauses]
    rw [hbnt.pauses] at he
    exact h.pauses e he

/-- The boxes offer the tables that they are populated from. -/
theorem BntPanel.populate_eq (panel : BntPanel) {vte : TaskElements} {bnt : ValidTaskElements}
    (h : vte.HasBnt bnt) (box : BntBox) :
    panel.populate vte box = some (.ofItems (bnt.entries box)) := by
  cases box with
  | placeBox =>
    unfold ValidTaskElements.entries
    rw [h.positions]
    rfl
  | orientationBox =>
    unfold ValidTaskElements.entries
    rw [h.orientations]
    rfl
  | pauseBox =>
    unfold ValidTaskElements.entries
    rw [h.pauses]
    rfl

/-! ### The invariant -/

/-- All three boxes of the panel select an item. -/
def BntPanel.Selected (panel : BntPanel) : Prop :=
  ∀ box, (panel.getSelectedItem box).isSome = true

namespace ConfiguredSession

/-- The tasks can be drawn, and so can those that the boxes select. -/
structure Sound (s : ConfiguredSession) : Prop where
  tables : s.cfg.vte.HasBnt s.vte
  tasks : Carries (BntTask.Drawable s.vte s.mapArea.validPositions) s.tS s.mapArea
  boxes : ∀ box, ∀ cbm ∈ s.panel box,
    s.mapArea.validPositions = true ∧ cbm.Within (s.vte.entries box)

/-- A file has been accepted, and all three tables have entries. -/
structure Configured (s : ConfiguredSession) : Prop where
  positions : s.mapArea.validPositions = true
  nonempty : s.vte.Nonempty

/-- When an action keeps all tasks valid: Add and Update do not read an empty box, and a
    file with triplets is not opened without the tables that they are made from. -/
def KeepsValid (s : ConfiguredSession) : ConfiguredAction → Prop
  | .session (.add sel) => sel.competition = .bnt → s.panel.Selected
  | .session (.update pos sel) =>
    sel.competition = .bnt → pos < s.tS.bntTaskList.length → s.panel.Selected
  | .session (.openFile proceed lines) =>
    s.Declines proceed ∨ s.Configured ∨ ∀ t, ¬ TripletRead s.vte lines t
  | _ => True

variable {u : Java.Unicode} {orders : TaskOrders} {s s' : ConfiguredSession}

/-- What three selected items make up can be drawn. -/
theorem Sound.selected (h : s.Sound) (hsel : s.panel.Selected) (state : StateOfTask) :
    BntTask.Drawable s.vte s.mapArea.validPositions
      ⟨s.panel.getSelectedItem .placeBox, s.panel.getSelectedItem .orientationBox,
        s.panel.getSelectedItem .pauseBox, state⟩ := by
  have hbox : ∀ box, s.mapArea.validPositions = true ∧
      ∃ e ∈ s.vte.entries box, s.panel.getSelectedItem box = some e := by
    intro box
    obtain ⟨e, he⟩ := Option.isSome_iff_exists.mp (hsel box)
    obtain ⟨cbm, hcbm, hitem⟩ := Option.bind_eq_some_iff.mp he
    obtain ⟨hpositions, hwithin⟩ := h.boxes box cbm hcbm
    exact ⟨hpositions, e, hwithin.selectedItem e hitem, he⟩
  refine ⟨BntTask.isValid_iff.mpr fun box => ?_, (hbox .placeBox).1⟩
  cases box with
  | placeBox => exact (hbox .placeBox).2
  | orientationBox => exact (hbox .orientationBox).2
  | pauseBox => exact (hbox .pauseBox).2

/-- A point for every task of the route. -/
theorem Sound.routeLookups (h : s.Sound) : ∀ p ∈ s.routeLookups, p ≠ none := by
  unfold ConfiguredSession.routeLookups MapArea.routeLookups
  split
  · intro p hp
    obtain ⟨tT, htT, rfl⟩ := List.mem_map.mp hp
    obtain ⟨hvalid, hpositions⟩ := h.tasks.of_mem_tasks tT htT
    obtain ⟨place, hplace, helement⟩ := BntTask.isValid_iff.mp hvalid .placeBox
    have hplace' : tT.place = some place := helement
    rw [if_pos hpositions, hplace', Option.bind_some, ← Option.isSome_iff_ne_none,
      LinkedMap.get?_isSome_iff]
    unfold LinkedMap.keys
    rw [← h.tables.positions]
    exact hplace
  · exact fun p hp => absurd hp List.not_mem_nil

/-! ### One action -/

/-- Without a load the tables stay. -/
theorem vte_kept {s s' : Session} {l : SessionAction} (hstep : (RefereeBox.session orders).step s l s')
    (hload : ∀ proceed loaded vte, l ≠ .loadConfig proceed loaded vte) : s'.vte = s.vte := by
  have hedited : ∀ r, (s.edited r).vte = s.vte := by
    intro r
    unfold Session.edited
    split <;> rfl
  have hmoved : ∀ r, (s.moved r).vte = s.vte := by
    intro r
    unfold Session.moved
    split <;> rfl
  cases l with
  | loadConfig proceed loaded vte => exact absurd rfl (hload proceed loaded vte)
  | save written =>
    rcases Session.save_cases hstep with rfl | ⟨-, -, -, rfl⟩ <;> rfl
  | openFile proceed lines =>
    rcases Session.openFile_cases hstep with rfl | ⟨tS', -, rfl⟩ | ⟨-, -, tS', rfl⟩ <;> rfl
  | add sel =>
    obtain ⟨-, hsel, rfl⟩ := hstep
    obtain ⟨tS', heq⟩ := s.add_eq orders hsel
    rw [heq]
  | update pos sel =>
    obtain ⟨-, -, rfl⟩ := hstep
    exact hedited _
  | delete pos sel confirmed =>
    obtain ⟨-, -, rfl⟩ := hstep
    unfold Session.delete
    dsimp only
    split
    · exact hedited _
    · rfl
  | up pos =>
    obtain ⟨-, rfl⟩ := hstep
    exact hmoved _
  | down pos =>
    obtain ⟨-, rfl⟩ := hstep
    exact hmoved _
  | mark tripletIndex column =>
    obtain ⟨-, -, -, rfl⟩ := hstep
    rfl
  | competitionFinished =>
    rcases Session.competitionFinished_cases hstep with rfl | ⟨-, -, -, rfl⟩ <;> rfl
  | controller a =>
    obtain ⟨-, mC', -, rfl⟩ := hstep
    rfl

/-- A load adds to the tables, and may give them to the boxes and the map. -/
theorem Sound.loadConfig {proceed mapFound : Bool} {file : Option (List (Text × Text))}
    (h : s.Sound)
    (hstep : (configuredSession u orders).step s (.loadConfig proceed file mapFound) s') :
    s'.Sound := by
  have hgrows := grows_loadConfigurationFile u s.cfg file
  unfold configuredSession at hstep
  dsimp only at hstep
  generalize s.cfg.loadConfigurationFile u file = loaded at hgrows hstep
  obtain ⟨populated, cfg⟩ := loaded
  obtain ⟨⟨-, -, hsession⟩, hconfigured⟩ := hstep
  have htS : s'.tS = s.tS := by
    rw [hsession]
    split <;> rfl
  by_cases hdeclines : s.Declines proceed
  · rw [if_pos hdeclines] at hsession hconfigured
    obtain ⟨hcfg, hpanel, hmap⟩ := hconfigured
    have hvte : s'.vte = s.vte := congrArg Session.vte hsession
    refine ⟨?_, ?_, ?_⟩
    · rw [hcfg, hvte]
      exact h.tables
    · rw [hvte, hmap, htS]
      exact h.tasks
    · rw [hvte, hmap, hpanel]
      exact h.boxes
  · rw [if_neg hdeclines] at hconfigured
    obtain ⟨hcfg, hbnt, hpanel, hmap⟩ := hconfigured
    have hentries := hgrows.entries h.tables hbnt
    have hpositions : s.mapArea.validPositions = true → s'.mapArea.validPositions = true := by
      rw [hmap]
      exact fun hset => Bool.or_eq_true_iff.mpr (Or.inl hset)
    have htasks := h.tasks.imp fun t ht => ht.mono hentries hpositions
    refine ⟨hcfg ▸ hbnt, ⟨?_, ?_⟩, fun box cbm hcbm => ?_⟩
    · rw [htS]
      exact htasks.tasks
    · have hroute : s'.mapArea.taskList = s.mapArea.taskList := by rw [hmap]
      rw [hroute]
      exact htasks.route
    · rw [hpanel] at hcbm
      split at hcbm
      · next hpopulated =>
        rw [BntPanel.populate_eq _ hbnt] at hcbm
        obtain rfl := Option.some.inj hcbm
        refine ⟨?_, .ofItems _⟩
        rw [hmap]
        exact Bool.or_eq_true_iff.mpr (Or.inr hpopulated)
      · obtain ⟨hset, hwithin⟩ := h.boxes box cbm hcbm
        exact ⟨hpositions hset, fun item hitem => hentries box item (hwithin.items item hitem),
          fun item hitem => hentries box item (hwithin.selectedItem item hitem)⟩

/-- Selecting another entry of the tables. -/
theorem Sound.select {panel : BntPanel} (h : s.Sound)
    (hpanel : ∀ box, ∀ cbm ∈ panel box, ∃ old ∈ s.panel box, cbm.items = old.items ∧
      ∀ item ∈ cbm.selectedItem, item ∈ s.vte.entries box) : { s with panel := panel }.Sound := by
  refine ⟨h.tables, h.tasks, fun box cbm hcbm => ?_⟩
  obtain ⟨old, hold, hitems, hselected⟩ := hpanel box cbm hcbm
  obtain ⟨hset, hwithin⟩ := h.boxes box old hold
  exact ⟨hset, by rw [hitems]; exact hwithin.items, hselected⟩

theorem Sound.selectItem {box : BntBox} {item : Text} (h : s.Sound)
    (hstep : (configuredSession u orders).step s (.selectItem box item) s') : s'.Sound := by
  obtain ⟨-, cbm, hcbm, hitem, rfl⟩ := hstep
  refine h.select fun other cbm' hcbm' => ?_
  by_cases hbox : other = box
  · subst hbox
    rw [Function.update_self] at hcbm'
    obtain rfl := Option.some.inj hcbm'
    refine ⟨cbm, hcbm, rfl, fun e he => ?_⟩
    obtain rfl := Option.some.inj he
    exact (h.boxes other cbm hcbm).2.items item hitem
  · rw [Function.update_of_ne hbox] at hcbm'
    exact ⟨cbm', hcbm', rfl, (h.boxes other cbm' hcbm').2.selectedItem⟩

/-- A click on a row selects the elements of a task in the list, or nothing. -/
theorem rowSelected_cases (selectedRow : Nat) :
    s.rowSelected selectedRow = s.panel ∨
      ∃ tT ∈ s.tS.bntTaskList, s.rowSelected selectedRow = s.panel.setTaskBoxSected tT := by
  unfold rowSelected
  split
  · split
    · next tT hget => exact Or.inr ⟨tT, List.mem_of_getElem? hget, rfl⟩
    · exact Or.inl rfl
  · exact Or.inl rfl

theorem Sound.mouseClicked {selectedRow : Nat} (h : s.Sound)
    (hstep : (configuredSession u orders).step s (.mouseClicked selectedRow) s') : s'.Sound := by
  obtain ⟨-, rfl⟩ := hstep
  refine h.select fun box cbm hcbm => ?_
  rcases s.rowSelected_cases selectedRow with heq | ⟨tT, htT, heq⟩
  · rw [heq] at hcbm
    exact ⟨cbm, hcbm, rfl, (h.boxes box cbm hcbm).2.selectedItem⟩
  · rw [heq] at hcbm
    obtain ⟨old, hold, rfl⟩ := Option.map_eq_some_iff.mp hcbm
    refine ⟨old, hold, rfl, fun item hitem => ?_⟩
    obtain ⟨e, he, helement⟩ := BntTask.isValid_iff.mp (h.tasks.tasks tT htT).1 box
    obtain rfl := Option.some.inj (helement.symm.trans hitem)
    exact he

/-- A task that comes from the boxes can be drawn. -/
theorem Sound.newTask {a : SessionAction} (h : s.Sound) (hoffers : s.Offers a)
    (hkeeps : s.KeepsValid (.session a)) :
    ∀ t, NewTask s.toSession a t → BntTask.Drawable s.vte s.mapArea.validPositions t := by
  have hselected : ∀ (sel : Selection) (t : BntTask),
      (sel.competition = .bnt → sel = s.panel.selection) →
      (sel.competition = .bnt → s.panel.Selected) → (sel.getSelectedTask s.tS).1 = .bnt t →
      BntTask.Drawable s.vte s.mapArea.validPositions t := by
    intro sel t hpanel hsel ht
    have hbnt : sel.competition = .bnt := by
      rw [← sel.getSelectedTask_competition s.tS, ht]
      rfl
    rw [hpanel hbnt] at ht
    obtain rfl := Task.bnt.inj ht
    exact h.selected (hsel hbnt) .init
  intro t ht
  cases a with
  | add sel => exact hselected sel t hoffers hkeeps ht
  | update pos sel => exact hselected sel t hoffers (fun hbnt => hkeeps hbnt ht.1) ht.2
  | loadConfig _ _ _ | save _ | openFile _ _ | delete _ _ _ | up _ | down _ | mark _ _
  | competitionFinished | controller _ => exact ht.elim

/-- What an open reads can be drawn. -/
theorem drawable_of_tripletRead {proceed : Bool} {lines : List Text}
    (hkeeps : s.KeepsValid (.session (.openFile proceed lines))) (hproceed : ¬ s.Declines proceed) :
    ∀ t, TripletRead s.vte lines t → BntTask.Drawable s.vte s.mapArea.validPositions t := by
  intro t ht
  rcases hkeeps with hdeclines | hconfigured | hnone
  · exact absurd hdeclines hproceed
  · obtain ⟨accepted, line, rest, -, -, -, hfits, -⟩ := ht
    exact ⟨hfits.isValid hconfigured.nonempty, hconfigured.positions⟩
  · exact absurd ht (hnone t)

/-- The tasks behind an open. The two reads of the file are one and the same. -/
theorem Sound.carries_openFile {proceed : Bool} {lines : List Text} (h : s.Sound)
    (hkeeps : s.KeepsValid (.session (.openFile proceed lines)))
    (hstep : (configuredSession u orders).step s (.session (.openFile proceed lines)) s') :
    Carries (BntTask.Drawable s.vte s.mapArea.validPositions) s'.tS s'.mapArea ∧
      s'.mapArea.validPositions = s.mapArea.validPositions := by
  obtain ⟨-, ⟨-, -, hopened⟩, -, -, hmap⟩ := hstep
  by_cases hdeclines : s.Declines proceed
  · rw [if_pos hdeclines] at hopened
    simp only [if_pos hdeclines] at hmap
    rw [hmap, hopened]
    exact ⟨h.tasks, rfl⟩
  · rw [if_neg hdeclines] at hopened
    simp only [if_neg hdeclines] at hmap
    obtain ⟨result₁, tS₁, hspec₁, hopened⟩ := hopened
    obtain ⟨result₂, tS₂, mapArea₂, hmap₂, hmap⟩ := hmap
    obtain ⟨result, tS', mapArea', hspec, hread, hcarries, hpositions⟩ :=
      exists_openMap lines (drawable_of_tripletRead hkeeps hdeclines) h.tasks
    obtain ⟨rfl, rfl⟩ := Prod.mk.inj (hspec₁.unique hspec)
    obtain ⟨rfl, hpair⟩ := Prod.mk.inj (hmap₂.unique hread)
    obtain ⟨rfl, rfl⟩ := Prod.mk.inj hpair
    have htS : s'.tS = tS₂ := by
      rw [hopened]
      unfold Session.opened
      split <;> rfl
    rw [hmap, htS]
    split
    · exact ⟨hcarries.tabChanged _, by simpa using hpositions⟩
    · exact ⟨hcarries, hpositions⟩

/-- The tasks behind an action of the session, and those of the map. -/
theorem Sound.carries {a : SessionAction} (h : s.Sound) (hkeeps : s.KeepsValid (.session a))
    (hstep : (configuredSession u orders).step s (.session a) s') :
    Carries (BntTask.Drawable s.vte s.mapArea.validPositions) s'.tS s'.mapArea ∧
      s'.mapArea.validPositions = s.mapArea.validPositions := by
  have ⟨hoffers, hsession, _, _, hmap⟩ := hstep
  have hlist : (∀ proceed lines, a ≠ .openFile proceed lines) →
      ∀ t ∈ s'.tS.bntTaskList, BntTask.Drawable s.vte s.mapArea.validPositions t :=
    bntTaskList_step (fun f t ht => ht) h.tasks.tasks hsession (h.newTask hoffers hkeeps)
  -- a notification behind the action, or none
  have hoperated : (∀ proceed lines, a ≠ .openFile proceed lines) →
      s'.mapArea = s.mapArea.operated s.mC.compIdent (s.outcome orders a) →
      Carries (BntTask.Drawable s.vte s.mapArea.validPositions) s'.tS s'.mapArea ∧
        s'.mapArea.validPositions = s.mapArea.validPositions := by
    intro hne hmap
    rw [hmap]
    exact ⟨h.tasks.operated (hlist hne) _ _, by simp⟩
  have htab : (∀ proceed lines, a ≠ .openFile proceed lines) →
      Carries (BntTask.Drawable s.vte s.mapArea.validPositions) s'.tS
          (s.mapArea.tabChanged s'.mC) ∧
        (s.mapArea.tabChanged s'.mC).validPositions = s.mapArea.validPositions :=
    fun hne => ⟨Carries.tabChanged ⟨hlist hne, h.tasks.route⟩ _, by simp⟩
  cases a with
  | openFile proceed lines => exact h.carries_openFile hkeeps hstep
  | controller a =>
    have hne : ∀ proceed lines, SessionAction.controller a ≠ .openFile proceed lines :=
      fun _ _ heq => by cases heq
    cases a with
    | tab tab =>
      dsimp only at hmap
      rw [hmap]
      split
      · exact ⟨⟨hlist hne, h.tasks.route⟩, rfl⟩
      · exact htab hne
    | joined =>
      dsimp only at hmap
      rw [hmap]
      exact htab hne
    | loadConfig _ | saveFile | openFile | edit | timerStart | timerStop | timerOverrun
    | sendSpec _ | acknowledge _ | timeout | disconnect | competitionFinished | connect _ _ =>
      exact hoperated hne hmap
  | loadConfig _ _ _ | save _ | add _ | update _ _ | delete _ _ _ | up _ | down _ | mark _ _
  | competitionFinished => exact hoperated (fun _ _ heq => by cases heq) hmap

theorem Sound.session {a : SessionAction} (h : s.Sound) (hkeeps : s.KeepsValid (.session a))
    (hstep : (configuredSession u orders).step s (.session a) s') : s'.Sound := by
  obtain ⟨hcarries, hpositions⟩ := h.carries hkeeps hstep
  obtain ⟨hoffers, hsession, hcfg, hpanel, -⟩ := hstep
  have hvte : s'.vte = s.vte := by
    refine vte_kept hsession fun proceed loaded vte heq => ?_
    rw [heq] at hoffers
    exact hoffers
  refine ⟨?_, ?_, ?_⟩
  · rw [hcfg, hvte]
    exact h.tables
  · rw [hvte, hpositions]
    exact hcarries
  · rw [hvte, hpositions, hpanel]
    exact h.boxes

/-! ### Runs -/

theorem Sound.init (h : (configuredSession u orders).init s) : s.Sound := by
  obtain ⟨hsession, hcfg, hpanel, hmap⟩ := h
  have hvte := congrArg Session.vte (show s.toSession = {} from hsession)
  have htS := congrArg Session.tS (show s.toSession = {} from hsession)
  refine ⟨?_, ⟨?_, ?_⟩, ?_⟩
  · rw [hcfg, hvte]
    exact ⟨rfl, rfl, rfl⟩
  · rw [htS]
    exact fun t ht => absurd ht List.not_mem_nil
  · rw [hmap]
    intro l hl t ht
    obtain rfl := Option.some.inj hl
    exact absurd ht List.not_mem_nil
  · rw [hpanel]
    exact fun box cbm hcbm => absurd hcbm (Option.not_mem_none cbm)

theorem Sound.step {l : ConfiguredAction} (h : s.Sound) (hkeeps : s.KeepsValid l)
    (hstep : (configuredSession u orders).step s l s') : s'.Sound := by
  cases l with
  | loadConfig proceed file mapFound => exact h.loadConfig hstep
  | selectItem box item => exact h.selectItem hstep
  | mouseClicked selectedRow => exact h.mouseClicked hstep
  | session a => exact h.session hkeeps hstep

/-- **Every BNT task refers to valid elements**, in every state of a session that never
    adds or updates a task while a box is empty, and opens a file with triplets only
    after a configuration with elements of all kinds: the place, the orientation and the
    pause are entries of the tables, and painting the route finds every point. -/
theorem bnt_tasks_valid (u : Java.Unicode) (orders : TaskOrders) (s : ConfiguredSession)
    (hr : Reachable ((configuredSession u orders).restrict KeepsValid) s) :
    s.cfg.vte.HasBnt s.vte ∧ (∀ t ∈ s.tS.bntTaskList, t.IsValid s.vte) ∧
      (s.mapArea.backgroundMap = true → ∀ p ∈ s.routeLookups, p ≠ none) := by
  have hall : ∀ s, Reachable ((configuredSession u orders).restrict KeepsValid) s → s.Sound :=
    invariant (fun s (hs : (configuredSession u orders).init s) => .init hs)
      fun s l s' h hstep => h.step hstep.1 hstep.2
  have hsound := hall s hr
  exact ⟨hsound.tables, fun t ht => (hsound.tasks.tasks t ht).1, fun _ => hsound.routeLookups⟩

/-- A load always is possible: whatever the file holds, there are tables behind it. -/
theorem exists_loadConfig (u : Java.Unicode) (orders : TaskOrders) (h : s.cfg.vte.HasBnt s.vte)
    (hidle : s.mC.call = .idle) (hbutton : s.mC.mG.loadConfigButton = true)
    (file : Option (List (Text × Text))) (mapFound : Bool) :
    ∃ s', (configuredSession u orders).step s (.loadConfig true file mapFound) s' ∧
      s'.tS = s.tS ∧ s'.mC = s.mC.loadConfig (file.isSome && mapFound) ∧
      s'.cfg = (s.cfg.loadConfigurationFile u file).2 ∧
      s'.panel = (if (s.cfg.loadConfigurationFile u file).1 = true then
        s.panel.populate (s.cfg.loadConfigurationFile u file).2.vte else s.panel) ∧
      s'.mapArea = { s.mapArea with
        backgroundMap := s.mapArea.backgroundMap || (file.isSome && mapFound)
        validPositions := s.mapArea.validPositions || (s.cfg.loadConfigurationFile u file).1 } := by
  have hgrows := grows_loadConfigurationFile u s.cfg file
  obtain ⟨bnt, hbnt⟩ := (hgrows.checked h.checked).exists_hasBnt
  have hproceeds : ¬ s.Declines true := fun h => absurd h.2 (by decide)
  refine ⟨⟨{ s.toSession with mC := s.mC.loadConfig (file.isSome && mapFound), vte := bnt },
    (s.cfg.loadConfigurationFile u file).2, _, _⟩, ?_, rfl, rfl, rfl, rfl, rfl⟩
  unfold configuredSession
  dsimp only
  generalize s.cfg.loadConfigurationFile u file = loaded at hbnt
  obtain ⟨populated, cfg⟩ := loaded
  dsimp only
  rw [if_neg hproceeds]
  exact ⟨⟨hidle, hbutton, (if_neg hproceeds).symm⟩, rfl, hbnt, rfl, rfl⟩

/-- So is Add, on the BNT tab. -/
theorem exists_add (u : Java.Unicode) (orders : TaskOrders) (hidle : s.mC.call = .idle)
    (hbnt : s.mC.compIdent = .bnt) :
    ∃ s', (configuredSession u orders).step s (.session (.add s.panel.selection)) s' ∧
      s'.tS.bntTaskList = s.tS.bntTaskList ++
        [⟨s.panel.getSelectedItem .placeBox, s.panel.getSelectedItem .orientationBox,
          s.panel.getSelectedItem .pauseBox, .init⟩] ∧
      s'.mC = s.mC ∧ s'.vte = s.vte ∧ s'.cfg = s.cfg ∧
      s'.mapArea = s.mapArea.taskSpecChanged .bnt := by
  have hadd : s.toSession.add orders s.panel.selection = { s.toSession with
      tS := { s.tS with bntTaskList := s.tS.bntTaskList ++
        [⟨s.panel.getSelectedItem .placeBox, s.panel.getSelectedItem .orientationBox,
          s.panel.getSelectedItem .pauseBox, .init⟩] }
      unsavedChanges := true } := by
    unfold Session.add
    rw [hbnt]
    rfl
  refine ⟨⟨_, s.cfg, s.panel, s.mapArea.taskSpecChanged .bnt⟩,
    ⟨fun _ => rfl, ⟨hidle, hbnt.symm, hadd.symm⟩, rfl, rfl, ?_⟩, rfl, rfl, rfl, rfl, rfl⟩
  show _ = s.mapArea.operated s.mC.compIdent (s.outcome orders (.add s.panel.selection))
  unfold outcome
  rw [hbnt]
  rfl

/-- The session starts without tasks and without tables, on the BNT tab. -/
theorem exists_init (u : Java.Unicode) (orders : TaskOrders) :
    ∃ s, (configuredSession u orders).init s ∧ s.Sound ∧ s.mC = {} ∧ s.tS.bntTaskList = [] ∧
      s.cfg = .initial ∧ s.panel = (fun _ => none) ∧ s.mapArea = {} := by
  have hinit : (configuredSession u orders).init ⟨_, _, _, _⟩ := ⟨rfl, rfl, rfl, rfl⟩
  exact ⟨_, hinit, .init hinit, rfl, rfl, rfl, rfl, rfl⟩

section

variable (u : Java.Unicode) (orders : TaskOrders) (file : List (Text × Text))

/-- A file is loaded, and then a task is added: it has got the first entries. -/
theorem exists_load_add {place orientation pause : Text}
    (hpopulated : (Configuration.initial.loadConfigurationFile u (some file)).1 = true)
    (hplace : (Configuration.initial.loadConfigurationFile u
      (some file)).2.vte.validBNTPositions.keys.head? = some place)
    (horientation : (Configuration.initial.loadConfigurationFile u
      (some file)).2.vte.validBNTOrientations.head? = some orientation)
    (hpause : (Configuration.initial.loadConfigurationFile u
      (some file)).2.vte.validBNTPauses.head? = some pause) :
    ∃ s, Reachable ((configuredSession u orders).restrict KeepsValid) s ∧
      s.mapArea.backgroundMap = true ∧
      s.tS.bntTaskList = [⟨some place, some orientation, some pause, .init⟩] := by
  obtain ⟨s, hinit, hsound, hmC, hempty, hcfg, hpanel, hmap⟩ := exists_init u orders
  obtain ⟨s₁, hload, htS₁, hmC₁, -, hpanel₁, hmap₁⟩ := exists_loadConfig u orders
    hsound.tables (by rw [hmC]) (by rw [hmC]) (some file) true
  obtain ⟨s₂, hadd, hlist, -, -, -, hmap₂⟩ := exists_add (s := s₁) u orders
    (by rw [hmC₁, hmC]; rfl) (by rw [hmC₁, hmC]; rfl)
  rw [hcfg, if_pos hpopulated] at hpanel₁
  -- the first entries of the tables are selected
  have hplaceBox : s₁.panel.getSelectedItem .placeBox = some place := by
    rw [hpanel₁, ← hplace]
    rfl
  have horientationBox : s₁.panel.getSelectedItem .orientationBox = some orientation := by
    rw [hpanel₁, ← horientation]
    rfl
  have hpauseBox : s₁.panel.getSelectedItem .pauseBox = some pause := by
    rw [hpanel₁, ← hpause]
    rfl
  have hselected : s₁.panel.Selected
    | .placeBox => by rw [hplaceBox]; rfl
    | .orientationBox => by rw [horientationBox]; rfl
    | .pauseBox => by rw [hpauseBox]; rfl
  have hr : Reachable ((configuredSession u orders).restrict KeepsValid) s₂ :=
    .step (.session (.add s₁.panel.selection))
      (.step (.loadConfig true (some file) true) (.init hinit) ⟨trivial, hload⟩)
      ⟨fun _ => hselected, hadd⟩
  refine ⟨s₂, hr, ?_, ?_⟩
  · rw [hmap₂, hmap₁, hmap]
    rfl
  · rw [hlist, htS₁, hempty, hplaceBox, horientationBox, hpauseBox]
    rfl

/-- A task is added while the boxes are empty, and then a file is loaded. -/
theorem exists_add_load
    (hpopulated : (Configuration.initial.loadConfigurationFile u (some file)).1 = true) :
    ∃ s, Reachable (configuredSession u orders) s ∧
      s.tS.bntTaskList = [⟨none, none, none, .init⟩] ∧ s.mapArea.backgroundMap = true ∧
      s.mapArea.validPositions = true ∧ s.routeLookups = [none] := by
  obtain ⟨s, hinit, hsound, hmC, hempty, hcfg, hpanel, hmap⟩ := exists_init u orders
  obtain ⟨s₁, hadd, hlist, hmC₁, hvte, hcfg₁, hmap₁⟩ := exists_add (s := s) u orders
    (by rw [hmC]) (by rw [hmC])
  obtain ⟨s₂, hload, htS₂, -, -, -, hmap₂⟩ := exists_loadConfig (s := s₁) u orders
    (by rw [hcfg₁, hvte]; exact hsound.tables) (by rw [hmC₁, hmC]) (by rw [hmC₁, hmC])
    (some file) true
  have htasks : s₂.tS.bntTaskList = [⟨none, none, none, .init⟩] := by
    rw [htS₂, hlist, hempty, hpanel]
    rfl
  rw [hcfg₁, hcfg, hpopulated] at hmap₂
  refine ⟨s₂, .step _ (.step _ (.init hinit) hadd) hload, htasks, ?_, ?_, ?_⟩
  · rw [hmap₂]
    simp
  · rw [hmap₂]
    simp
  · unfold routeLookups MapArea.routeLookups MapArea.tasks
    rw [hmap₂, hmap₁, hmap, htasks]
    rfl

end

/-- The small file is loaded, and its elements are added. -/
theorem bnt_tasks_valid_once : ∃ s : ConfiguredSession, s.mapArea.backgroundMap = true ∧
    s.tS.bntTaskList = [⟨some "S1".toList, some "N".toList, some "3".toList, .init⟩] ∧
    (∀ t ∈ s.tS.bntTaskList, t.IsValid s.vte) ∧ ∀ p ∈ s.routeLookups, p ≠ none := by
  have hplace : (Configuration.initial.loadConfigurationFile Java.ascii
    (some smallFile)).2.vte.validBNTPositions.keys.head? = some "S1".toList := by decide
  have horientation : (Configuration.initial.loadConfigurationFile Java.ascii
    (some smallFile)).2.vte.validBNTOrientations.head? = some "N".toList := by decide
  have hpause : (Configuration.initial.loadConfigurationFile Java.ascii
    (some smallFile)).2.vte.validBNTPauses.head? = some "3".toList := by decide
  obtain ⟨s, hr, hshown, hlist⟩ := exists_load_add Java.ascii someOrders smallFile (by decide)
    hplace horientation hpause
  obtain ⟨-, hvalid, hlookups⟩ := bnt_tasks_valid Java.ascii someOrders s hr
  exact ⟨s, hshown, hlist, hvalid, hlookups hshown⟩

/-- A task is added while the boxes are empty, and then the same file is loaded. -/
theorem bnt_task_without_elements : ∃ s : ConfiguredSession,
    Reachable (configuredSession Java.ascii someOrders) s ∧
      s.tS.bntTaskList = [⟨none, none, none, .init⟩] ∧
      (¬ ∀ t ∈ s.tS.bntTaskList, t.IsValid s.vte) ∧
      s.mapArea.backgroundMap = true ∧ s.mapArea.validPositions = true ∧
      s.routeLookups = [none] := by
  obtain ⟨s, hr, hlist, hshown, hpositions, hlookups⟩ :=
    exists_add_load Java.ascii someOrders smallFile (by decide)
  refine ⟨s, hr, hlist, ?_, hshown, hpositions, hlookups⟩
  rw [hlist]
  intro h
  obtain ⟨e, -, helement⟩ := BntTask.isValid_iff.mp (h _ List.mem_cons_self) .placeBox
  exact absurd helement (by simp [BntTask.element])

end ConfiguredSession

end RefereeBox
