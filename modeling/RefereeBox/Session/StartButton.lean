import RefereeBox.Session.Timing
import RefereeBox.Text.BntText

/-! # Starting a Run

  A run may be started on a saved specification only: while there are unsaved
  changes the timer button is to be disabled. Update and Delete disable it;
  Add, Up and Down do not, so they must come while it is disabled already. The
  end of a competition enables it, whatever has been edited meanwhile, so there
  must be no unsaved changes then (`SavesFirst`). The other actions keep the two
  flags together, given how the timer, the competition mode and the button
  behind it move (`TimerView.Coherent`).
-/

namespace RefereeBox

open Loop Transition

/-! ### Unsaved changes and the timer button -/

/-- Outside of competition mode the timer button is disabled while there are
    unsaved changes. -/
def StartsSaved (s : Session) : Prop :=
  s.mC.competitionMode = false → s.unsavedChanges = true → s.mC.mG.timerStartStopButton = false

/-- Outside of competition mode Add, and Up and Down where they move a task, come
    while the timer button is disabled; and a competition is finished only when
    there are no unsaved changes. -/
def SavesFirst (s : Session) : SessionAction → Prop
  | .add _ => s.mC.competitionMode = false → s.mC.mG.timerStartStopButton = false
  | .up pos => EditOp.Applies s.mC.compIdent s.tS (.moveUp pos) →
      s.mC.mG.timerStartStopButton = false
  | .down pos => EditOp.Applies s.mC.compIdent s.tS (.moveDown pos) →
      s.mC.mG.timerStartStopButton = false
  | .competitionFinished => s.tS.checkAllSubgoals s.mC.compIdent = true →
      s.unsavedChanges = false
  | _ => True

/-- The invariant: the timer is coherent, and no run starts with unsaved
    changes. -/
structure Guarded (s : Session) : Prop where
  timer : s.mC.timerView.Coherent
  starts : StartsSaved s

namespace Guarded

variable {orders : TaskOrders} {s s' : Session}

theorem init : Guarded {} where
  timer := .init
  starts _ h := absurd h (by decide)

/-- With unsaved changes no other action enables the button outside of competition
    mode: no run is started there, since the button is disabled, and none is under
    way that could be stopped. -/
theorem controller (h : Guarded s) {a : Action} (hsave : a ≠ .saveFile) (hopen : a ≠ .openFile)
    (hfinish : a ≠ .competitionFinished) {mC' : MainController}
    (hstep : refereeing.step s.mC a mC') (hflag : s.unsavedChanges = true)
    (hmode' : mC'.competitionMode = false) : mC'.mG.timerStartStopButton = false := by
  have hview := MainController.timer_step hstep
  have hkeep : mC'.timerView.competitionMode = s.mC.timerView.competitionMode →
      mC'.timerView.timerStartStopButton = s.mC.timerView.timerStartStopButton →
      mC'.mG.timerStartStopButton = false := by
    intro hmode hbutton
    exact hbutton.trans (h.starts (hmode.symm.trans hmode') hflag)
  -- a run that is stopped here leaves competition mode on
  have hselected : s.mC.timerView.timerSelected = true →
      mC'.timerView.competitionMode = s.mC.timerView.competitionMode → False := by
    intro hselected heq
    have hmode : mC'.competitionMode = true := heq.trans (h.timer.selected hselected)
    exact Bool.false_ne_true (hmode'.symm.trans hmode)
  cases a with
  | saveFile => exact absurd rfl hsave
  | openFile => exact absurd rfl hopen
  | competitionFinished => exact absurd rfl hfinish
  | edit =>
    have heq : mC'.timerView = _ := hview
    exact congrArg TimerView.timerStartStopButton heq
  | timerStart =>
    have hmode : mC'.timerView.competitionMode = true := by rw [hview.2.2]
    exact absurd (hmode'.symm.trans hmode) Bool.false_ne_true
  | timerStop => exact (hselected hview.2.1 (by rw [hview.2.2])).elim
  | timerOverrun =>
    have hsel := h.timer.running hview.1
    exact (hselected hsel (by rw [hview.2, if_pos hsel])).elim
  | tab tab =>
    have heq : mC'.timerView = _ := hview
    rw [heq] at hkeep
    exact hkeep (by split <;> rfl) (by split <;> rfl)
  | loadConfig _ | sendSpec _ | acknowledge _ | timeout | disconnect | joined | connect _ _ =>
    have heq : mC'.timerView = s.mC.timerView := hview
    exact hkeep (by rw [heq]) (by rw [heq])

/-- An action keeps the invariant under the condition. -/
theorem step (h : Guarded s) {l : SessionAction} (hcond : SavesFirst s l)
    (hstep : (session orders).step s l s') : Guarded s' := by
  refine ⟨Session.coherent_step hstep h.timer, ?_⟩
  -- an action sets the flag, clears it, or is one of the controller's
  cases l with
  | loadConfig proceed loaded vte =>
    rcases Session.loadConfig_cases hstep with rfl | ⟨hidle, hbutton, rfl⟩
    · exact h.starts
    · exact fun hmode hflag => h.controller (a := .loadConfig loaded) (by simp) (by simp) (by simp)
        ⟨hidle, hbutton, rfl⟩ hflag hmode
  | save written =>
    rcases Session.save_cases hstep with rfl | ⟨-, -, -, rfl⟩
    · exact h.starts
    · exact fun _ hflag => absurd hflag (by simp [Session.setSavedChanges])
  | openFile proceed lines =>
    rcases Session.openFile_cases hstep with rfl | ⟨tS', -, rfl⟩ | ⟨-, -, tS', rfl⟩
    · exact h.starts
    · exact h.starts
    · exact fun _ hflag => absurd hflag (by simp [Session.opened, Session.setSavedChanges])
  | add sel =>
    obtain ⟨-, hsel, rfl⟩ := hstep
    obtain ⟨tS', heq⟩ := s.add_eq orders hsel
    rw [heq]
    exact fun hmode _ => hcond hmode
  | update pos sel =>
    obtain ⟨-, hsel, rfl⟩ := hstep
    rcases s.update_cases orders pos hsel with ⟨-, tS', heq⟩ | ⟨-, heq⟩
    · rw [heq]
      exact fun _ _ => rfl
    · rw [heq]
      exact h.starts
  | delete pos sel confirmed =>
    obtain ⟨-, -, rfl⟩ := hstep
    rcases s.delete_cases orders pos sel confirmed with ⟨-, -, tS', heq⟩ | ⟨-, heq⟩
    · rw [heq]
      exact fun _ _ => rfl
    · rw [heq]
      exact h.starts
  | up pos =>
    obtain ⟨-, rfl⟩ := hstep
    rcases s.up_cases orders pos with ⟨happlies, tS', heq⟩ | ⟨-, heq⟩
    · rw [heq]
      exact fun _ _ => hcond happlies
    · rw [heq]
      exact h.starts
  | down pos =>
    obtain ⟨-, rfl⟩ := hstep
    rcases s.down_cases orders pos with ⟨happlies, tS', heq⟩ | ⟨-, tS', heq, -⟩
    · rw [heq]
      exact fun _ _ => hcond happlies
    · rw [heq]
      exact h.starts
  | mark tripletIndex column =>
    obtain ⟨-, -, -, rfl⟩ := hstep
    exact h.starts
  | competitionFinished =>
    rcases Session.competitionFinished_cases hstep with rfl | ⟨-, -, hchecked, rfl⟩
    · exact h.starts
    · -- the button is enabled here, so there must be no unsaved changes
      exact fun _ hflag => absurd ((hcond hchecked).symm.trans hflag) Bool.false_ne_true
  | controller a =>
    obtain ⟨hoffers, mC', hcontroller, rfl⟩ := hstep
    have hsave : a ≠ .saveFile := fun heq => by rw [heq] at hoffers; exact hoffers
    have hopen : a ≠ .openFile := fun heq => by rw [heq] at hoffers; exact hoffers
    have hfinish : a ≠ .competitionFinished := fun heq => by rw [heq] at hoffers; exact hoffers
    exact fun hmode hflag => h.controller hsave hopen hfinish hcontroller hflag hmode

end Guarded

/-! ### Runs -/

/-- A step that does not meet the condition leaves unsaved changes with the
    button enabled. -/
theorem not_startsSaved {orders : TaskOrders} {s s' : Session} {l : SessionAction}
    (hstep : (session orders).step s l s') (hcond : ¬ SavesFirst s l) : ¬ StartsSaved s' := by
  -- only Add, Up, Down and the end of a competition can fail the condition
  cases l with
  | add sel =>
    obtain ⟨-, hsel, rfl⟩ := hstep
    obtain ⟨tS', heq⟩ := s.add_eq orders hsel
    rw [heq]
    exact fun hstarts => hcond fun hmode => hstarts hmode rfl
  | up pos =>
    obtain ⟨⟨-, hmode⟩, rfl⟩ := hstep
    rcases s.up_cases orders pos with ⟨-, tS', heq⟩ | ⟨hnot, -⟩
    · rw [heq]
      exact fun hstarts => hcond fun _ => hstarts hmode rfl
    · exact absurd (fun happlies => absurd happlies hnot) hcond
  | down pos =>
    obtain ⟨⟨-, hmode⟩, rfl⟩ := hstep
    rcases s.down_cases orders pos with ⟨-, tS', heq⟩ | ⟨hnot, -⟩
    · rw [heq]
      exact fun hstarts => hcond fun _ => hstarts hmode rfl
    · exact absurd (fun happlies => absurd happlies hnot) hcond
  | competitionFinished =>
    obtain ⟨hchecked, hflag⟩ := Classical.not_imp.mp hcond
    obtain ⟨-, -, rfl⟩ := hstep
    have hview := MainController.competitionFinished_timerView (s := s.mC)
    rw [Session.competitionFinished, if_pos hchecked]
    intro hstarts
    -- the competition is over, and the button is enabled
    have hbutton : s.mC.competitionFinished.mG.timerStartStopButton = true :=
      congrArg TimerView.timerStartStopButton hview
    have hdisabled := hstarts (congrArg TimerView.competitionMode hview) (by simpa using hflag)
    exact Bool.false_ne_true (hdisabled.symm.trans hbutton)
  | loadConfig _ _ _ | save _ | openFile _ _ | update _ _ | delete _ _ _ | mark _ _
  | controller _ => exact absurd trivial hcond

/-- **Starting saved.** In every run in which, outside of competition mode, Add,
    and Up and Down where they move a task, come while the timer button is
    disabled, and in which competitions are finished with no unsaved changes, the
    button is disabled whenever there are unsaved changes outside of competition
    mode. A step of another kind always ends with the button enabled there. -/
theorem starts_saved (orders : TaskOrders) :
    (∀ s, Reachable ((session orders).restrict SavesFirst) s → StartsSaved s) ∧
      ∀ s l s', (session orders).step s l s' → ¬ SavesFirst s l → ¬ StartsSaved s' := by
  have hguarded : ∀ s, Reachable ((session orders).restrict SavesFirst) s → Guarded s := by
    apply invariant
    · intro s hs
      rw [show s = {} from hs]
      exact Guarded.init
    · intro s l s' h hstep
      exact h.step hstep.1 hstep.2
  refine ⟨fun s hs => (hguarded s hs).starts, ?_⟩
  intro s l s' hstep hcond
  exact not_startsSaved hstep hcond

/-- The texts of a specification with BNT tasks only. -/
theorem prints_bnt (bntTaskList : List BntTask) (c : CompetitionIdentifier) :
    ∃ text, Converges (({ bntTaskList := bntTaskList } : TaskSpec).getTaskSpecString c)
      (.ok text) := by
  cases c with
  | bnt | bmt | btt | ctt | cbt | ppt => exact ⟨_, converges_pure _⟩

/-- The selection of a BNT panel. -/
def someSelection : Selection := .bnt (some "S1".toList) (some "N".toList) (some "1".toList)

/-- A task added before the first save. -/
theorem starts_saved_once : ∃ s, Reachable ((session someOrders).restrict SavesFirst) s ∧
    s.mC.competitionMode = false ∧ s.unsavedChanges = true ∧
    s.mC.mG.timerStartStopButton = false := by
  have hadded : Reachable ((session someOrders).restrict SavesFirst) _ :=
    .step (SessionAction.add someSelection) (.init rfl)
      ⟨fun _ => rfl, And.intro rfl (And.intro rfl rfl)⟩
  exact ⟨_, hadded, rfl, rfl, (starts_saved someOrders).1 _ hadded rfl rfl⟩

/-- After Load Config and Save, Add leaves the button enabled, and a run starts on
    a specification that is not saved. -/
theorem add_leaves_button_enabled :
    (∃ s, Run (session someOrders) {}
        [.loadConfig true true smallTables, .save true, .add someSelection] s ∧
      s.mC.competitionMode = false ∧ s.unsavedChanges = true ∧
      s.mC.mG.timerStartStopButton = true ∧ ¬ StartsSaved s) ∧
    ∃ s, Run (session someOrders) {}
        [.loadConfig true true smallTables, .save true, .add someSelection,
          .controller .timerStart] s ∧
      s.mC.competitionMode = true ∧ s.unsavedChanges = true := by
  refine ⟨⟨_,
    .cons (SessionAction.loadConfig _ _ _) (And.intro rfl (And.intro rfl rfl)) <|
    .cons (SessionAction.save _) (And.intro rfl (And.intro rfl (And.intro (prints_bnt []) rfl))) <|
    .cons (SessionAction.add _) (And.intro rfl (And.intro rfl rfl)) <| .nil _,
    rfl, rfl, rfl, fun h => absurd (h rfl rfl) (by decide)⟩, ⟨_,
    .cons (SessionAction.loadConfig _ _ _) (And.intro rfl (And.intro rfl rfl)) <|
    .cons (SessionAction.save _) (And.intro rfl (And.intro rfl (And.intro (prints_bnt []) rfl))) <|
    .cons (SessionAction.add _) (And.intro rfl (And.intro rfl rfl)) <|
    .cons (SessionAction.controller _) (And.intro trivial
      (Exists.intro _ (And.intro (And.intro rfl (And.intro rfl (And.intro rfl rfl))) rfl))) <|
    .nil _, rfl, rfl⟩⟩

end RefereeBox
