import RefereeBox.Model.Application
import RefereeBox.Session.StartButton
import RefereeBox.Timer.Finality

/-! # The Flags of a Run

  The timer, its button, the button for the end of the competition, the mode and
  the log of the competition each have a flag of their own. They say the same
  (`FlagsAgree`) because every callback comes back to its caller with the flags
  together again: the application refines its session, the timer of the session is
  coherent, and what the session knows of the timer and the log is what they are
  (`InStep`).
-/

namespace RefereeBox

open Loop Transition

/-- What the flags have to do with each other. -/
structure FlagsAgree (s : Application) : Prop where
  selected : s.mC.mG.timerSelected = true ↔ s.taskTimer.timerStop = false
  finished : s.mC.mG.competitionFinishedButton = true →
    s.mC.competitionMode = true ∧ s.taskTimer.timerStop = true
  logging : s.logg.competitionLoggingIsActivated = true ↔ s.mC.competitionMode = true
  /-- `renameCompetitionFile` runs behind the button only. -/
  logFile : s.mC.mG.competitionFinishedButton = true →
    ∃ file, s.logg.competitionLogFile = some file

/-- The invariant: the session is in step with the timer and the log. -/
structure InStep (s : Application) : Prop where
  timerStop : s.mC.timerStop = s.taskTimer.timerStop
  coherent : s.mC.timerView.Coherent
  logging : s.logg.competitionLoggingIsActivated = s.mC.competitionMode
  logFile : s.logg.competitionLoggingIsActivated = true →
    ∃ file, s.logg.competitionLogFile = some file

/-! ### The timer and the log -/

theorem TaskTimer.startNewTimer_timerStop (t : TaskTimer) (configTime runTime now : Int64) :
    (t.startNewTimer configTime runTime now).1.timerStop = false := by
  unfold TaskTimer.startNewTimer
  split
  · rfl
  · next h => simpa using h

namespace Logging

variable {logg logg' : Logging} {file : Text}

/-- Behind the switch the log is as it has been told. -/
theorem setCompetitionLogging_activated {b : Bool}
    (h : logg.setCompetitionLogging b file = .ok logg') :
    logg'.competitionLoggingIsActivated = b := by
  unfold setCompetitionLogging at h
  by_cases hactivated : logg.competitionLoggingIsActivated = b
  · rw [if_neg (not_not.mpr hactivated)] at h
    cases h
    exact hactivated
  · rw [if_pos hactivated] at h
    cases b with
    | true =>
      cases h
      rfl
    | false =>
      cases hfile : logg.competitionLogFile with
      | none =>
        rw [hfile] at h
        cases h
      | some file' =>
        rw [hfile] at h
        cases h
        rfl

/-- A log that is switched on has a file, as one that was on before has. -/
theorem setCompetitionLogging_logFile
    (hfile : logg.competitionLoggingIsActivated = true → ∃ f, logg.competitionLogFile = some f)
    (h : logg.setCompetitionLogging true file = .ok logg') :
    ∃ f, logg'.competitionLogFile = some f := by
  unfold setCompetitionLogging at h
  by_cases hactivated : logg.competitionLoggingIsActivated = true
  · rw [if_neg (not_not.mpr hactivated)] at h
    cases h
    exact hfile hactivated
  · rw [if_pos hactivated] at h
    cases h
    exact ⟨file, rfl⟩

end Logging

/-! ### One step -/

variable {orders : TaskOrders} {s s' : Application}

theorem InStep.init (h : (application orders).init s) : InStep s := by
  obtain ⟨session, taskTimer, logg⟩ := s
  obtain ⟨hsession, htimer, hlogg⟩ := h
  obtain rfl : session = {} := hsession
  obtain rfl : taskTimer = {} := htimer
  obtain rfl : logg = {} := hlogg
  exact ⟨rfl, .init, rfl, fun h => absurd h (by decide)⟩

theorem Application.tick_session (task : Nat) (checked stopped ran : Int64) :
    (s.tick task checked stopped ran).session = s.session ∨
      (.timerOverrun ∈ (s.taskTimer.run task checked stopped ran).2 ∧
        (s.tick task checked stopped ran).session =
          { s.session with mC := s.mC.timerOverrun }) := by
  unfold Application.tick
  dsimp only
  split
  · next h => exact Or.inr ⟨h, rfl⟩
  · exact Or.inl rfl

/-- Only a timer that runs has an overrun. -/
theorem InStep.running_of_overrun (h : InStep s) {task : Nat} {checked stopped ran : Int64}
    (hoverrun : .timerOverrun ∈ (s.taskTimer.run task checked stopped ran).2) :
    s.mC.timerStop = false := by
  rw [h.timerStop]
  by_contra hne
  have hnil := s.taskTimer.run_silent task checked stopped ran (by simpa using hne)
  rw [hnil] at hoverrun
  exact absurd hoverrun List.not_mem_nil

/-- **Refinement**: a step of the application is none or one of its session. -/
theorem InStep.session_step (h : InStep s) {l : ApplicationAction}
    (hstep : (application orders).step s l s') :
    s'.session = s.session ∨ ∃ l', (session orders).step s.session l' s'.session := by
  cases l with
  | timerStart configTime runTime now file =>
    obtain ⟨session', logg', hsession, -, rfl⟩ := hstep
    exact Or.inr ⟨_, hsession⟩
  | timerStop =>
    obtain ⟨session', hsession, rfl⟩ := hstep
    exact Or.inr ⟨_, hsession⟩
  | tick task checked stopped ran =>
    obtain ⟨-, rfl⟩ := hstep
    rcases s.tick_session task checked stopped ran with heq | ⟨hoverrun, heq⟩
    · exact Or.inl heq
    · exact Or.inr ⟨.controller .timerOverrun, trivial, _, ⟨h.running_of_overrun hoverrun, rfl⟩, heq⟩
  | acknowledge m now =>
    obtain ⟨session', hsession, rfl⟩ := hstep
    exact Or.inr ⟨_, hsession⟩
  | competitionFinished =>
    obtain ⟨hidle, hbutton, rfl⟩ := hstep
    -- without the marks, or with an exception of the log, nothing happens
    unfold Application.competitionFinished
    split
    · exact Or.inl rfl
    · split
      · exact Or.inr ⟨.competitionFinished, hidle, hbutton, rfl⟩
      · exact Or.inl rfl
  | session l =>
    obtain ⟨-, session', hsession, rfl⟩ := hstep
    exact Or.inr ⟨l, hsession⟩

theorem InStep.coherent_step (h : InStep s) {l : ApplicationAction}
    (hstep : (application orders).step s l s') : s'.mC.timerView.Coherent := by
  rcases h.session_step hstep with heq | ⟨l', hsession⟩
  · have hmC : s'.mC = s.mC := congrArg Session.mC heq
    rw [hmC]
    exact h.coherent
  · exact Session.coherent_step hsession h.coherent

/-- A plain action of the session moves neither the timer nor the mode. -/
theorem SessionAction.Plain.still {l : SessionAction} (hplain : l.Plain) {t t' : Session}
    (hstep : (session orders).step t l t') :
    t'.mC.timerStop = t.mC.timerStop ∧ t'.mC.competitionMode = t.mC.competitionMode := by
  rcases Session.timing_step hstep with heq | ⟨a, haction, ha⟩
  · exact ⟨congrArg TimerView.timerStop heq, congrArg TimerView.competitionMode heq⟩
  · -- those that do have labels of their own
    cases l with
    | competitionFinished => exact hplain.elim
    | controller b =>
      obtain rfl := Option.some.inj haction
      refine TimerView.still ha ?_ ?_ ?_ ?_
      · rintro rfl
        exact hplain
      · rintro rfl
        exact hplain
      · rintro rfl
        exact hplain
      · rintro rfl
        exact hstep.1
    | loadConfig _ _ _ | save _ | openFile _ _ | update _ _ | delete _ _ _ =>
      obtain rfl := Option.some.inj haction
      exact TimerView.still ha (by simp) (by simp) (by simp) (by simp)
    | add _ | up _ | down _ | mark _ _ => cases haction

/-- An overrun finds the button selected, so that its callback stops the timer. -/
theorem InStep.tick (h : InStep s) {task : Nat} {checked stopped ran : Int64}
    (hcoherent : (s.tick task checked stopped ran).mC.timerView.Coherent) :
    InStep (s.tick task checked stopped ran) := by
  unfold Application.tick at hcoherent ⊢
  dsimp only at hcoherent ⊢
  by_cases hoverrun : .timerOverrun ∈ (s.taskTimer.run task checked stopped ran).2
  · rw [if_pos hoverrun] at hcoherent ⊢
    have hselected : s.mC.mG.timerSelected = true :=
      h.coherent.running (h.running_of_overrun hoverrun)
    have hview := MainController.timerOverrun_timerView (s := s.mC)
    rw [if_pos (show s.mC.timerView.timerSelected = true from hselected)] at hview
    have hstopped : TaskTimer.timerStop (if s.mC.mG.timerSelected = true then
        (s.taskTimer.run task checked stopped ran).1.stopTimer
        else (s.taskTimer.run task checked stopped ran).1) = true := by
      rw [if_pos hselected]
      rfl
    refine ⟨?_, hcoherent, ?_, h.logFile⟩
    · exact (congrArg TimerView.timerStop hview).trans hstopped.symm
    · exact h.logging.trans (congrArg TimerView.competitionMode hview).symm
  · rw [if_neg hoverrun] at hcoherent ⊢
    have hrun := (s.taskTimer.run_schedule task checked stopped ran).1
    exact ⟨h.timerStop.trans hrun.symm, hcoherent, h.logging, h.logFile⟩

/-- The end of a competition switches the log off, or changes nothing. -/
theorem InStep.competitionFinished (h : InStep s)
    (hcoherent : (s.competitionFinished orders).mC.timerView.Coherent) :
    InStep (s.competitionFinished orders) := by
  unfold Application.competitionFinished at hcoherent ⊢
  by_cases hchecked : s.session.tS.checkAllSubgoals s.mC.compIdent = false
  · rw [if_pos hchecked]
    exact h
  · rw [if_neg hchecked] at hcoherent ⊢
    split at hcoherent
    · next logg' hrename hlogg =>
      have hactivated := Logging.setCompetitionLogging_activated hlogg
      have hsession : s.session.competitionFinished orders = { s.session with
          mC := s.mC.competitionFinished
          tS := s.session.tS.resetStates orders s.mC.compIdent } :=
        if_pos (Bool.eq_true_of_not_eq_false hchecked)
      have hview := MainController.competitionFinished_timerView (s := s.mC)
      have hmC : (s.session.competitionFinished orders).mC = s.mC.competitionFinished := by
        rw [hsession]
      refine ⟨?_, hcoherent, ?_, fun hon => ?_⟩
      · show (s.session.competitionFinished orders).mC.timerStop = true
        rw [hmC]
        exact congrArg TimerView.timerStop hview
      · show _ = (s.session.competitionFinished orders).mC.competitionMode
        rw [hmC]
        exact hactivated.trans (congrArg TimerView.competitionMode hview).symm
      · exact absurd (hactivated.symm.trans hon) Bool.false_ne_true
    · exact h

theorem InStep.step (h : InStep s) {l : ApplicationAction}
    (hstep : (application orders).step s l s') : InStep s' := by
  have hcoherent := h.coherent_step hstep
  cases l with
  | timerStart configTime runTime now file =>
    -- the log is on from here, and the timer runs
    obtain ⟨session', logg', ⟨-, mC', ⟨-, -, -, rfl⟩, rfl⟩, hlogg, rfl⟩ := hstep
    have hactivated := Logging.setCompetitionLogging_activated hlogg
    refine ⟨?_, hcoherent, hactivated, fun _ => ?_⟩
    · exact (s.taskTimer.startNewTimer_timerStop configTime runTime now).symm
    · exact Logging.setCompetitionLogging_logFile h.logFile hlogg
  | timerStop =>
    obtain ⟨session', ⟨-, mC', ⟨-, -, -, rfl⟩, rfl⟩, rfl⟩ := hstep
    have hview := MainController.timerStopped_timerView (s := s.mC)
    refine ⟨congrArg TimerView.timerStop hview, hcoherent, ?_, h.logFile⟩
    exact h.logging.trans (congrArg TimerView.competitionMode hview).symm
  | tick task checked stopped ran =>
    obtain ⟨-, rfl⟩ := hstep
    exact h.tick hcoherent
  | acknowledge m now =>
    obtain ⟨session', ⟨-, mC', ⟨team, rest, -, -, -, rfl⟩, rfl⟩, rfl⟩ := hstep
    have hview := MainController.receiveAck_timerView (s := s.mC) team rest (some m)
    refine ⟨?_, hcoherent, h.logging.trans (congrArg TimerView.competitionMode hview).symm,
      h.logFile⟩
    -- the end of the setup time does not touch the flag
    have htimer : (s.mC.receiveAck team rest (some m)).timerStop = s.taskTimer.timerStop :=
      (congrArg TimerView.timerStop hview).trans h.timerStop
    show (s.mC.receiveAck team rest (some m)).timerStop = TaskTimer.timerStop (if _ then _ else _)
    split
    · rw [(s.taskTimer.taskSpecSent_schedule now).1]
      exact htimer
    · exact htimer
  | competitionFinished =>
    obtain ⟨-, -, rfl⟩ := hstep
    exact h.competitionFinished hcoherent
  | session l =>
    obtain ⟨hplain, session', hsession, rfl⟩ := hstep
    obtain ⟨hstop, hmode⟩ := hplain.still hsession
    exact ⟨hstop.trans h.timerStop, hcoherent, h.logging.trans hmode.symm, h.logFile⟩

/-! ### Runs -/

theorem InStep.flagsAgree (h : InStep s) : FlagsAgree s := by
  have hmode : s.mC.mG.competitionFinishedButton = true → s.mC.competitionMode = true :=
    fun hbutton => (h.coherent.finished hbutton).1
  refine ⟨⟨fun hselected => ?_, fun hstop => ?_⟩, fun hbutton => ⟨hmode hbutton, ?_⟩, ?_, ?_⟩
  · exact h.timerStop.symm.trans (h.coherent.started hselected)
  · exact h.coherent.running (h.timerStop.trans hstop)
  · -- a timer that ran would have its button selected
    by_contra hne
    have hselected := h.coherent.running (h.timerStop.trans (by simpa using hne))
    have hnot := (h.coherent.finished hbutton).2
    exact Bool.false_ne_true (hnot.symm.trans hselected)
  · rw [h.logging]
  · exact fun hbutton => h.logFile (h.logging.trans (hmode hbutton))

theorem inStep_of_reachable (h : Reachable (application orders) s) : InStep s := by
  exact invariant (fun s hs => .init hs) (fun s l s' h hstep => h.step hstep) s h

/-- What holds of all sessions holds of the session of the application. -/
theorem session_of_application (h : Reachable (application orders) s) :
    Reachable (session orders) s.session := by
  induction h with
  | init h =>
    exact .init h.1
  | step l hr hstep ih =>
    rcases (inStep_of_reachable hr).session_step hstep with heq | ⟨l', hsession⟩
    · rw [heq]
      exact ih
    · exact .step l' ih hsession

/-- **The flags agree.** In every state the timer button is selected exactly while the
    timer runs, the competition can be finished only in competition mode with the
    timer stopped, and the log of the competition is on exactly in competition mode,
    so that it has a file when that is renamed. In competition mode no action changes
    the competition. -/
theorem flags_agree (orders : TaskOrders) :
    (∀ s, Reachable (application orders) s → FlagsAgree s) ∧
      ∀ s l s', Reachable (application orders) s → (application orders).step s l s' →
        s.mC.competitionMode = true → s'.mC.compIdent = s.mC.compIdent := by
  refine ⟨fun s hs => (inStep_of_reachable hs).flagsAgree, fun s l s' hs hstep hmode => ?_⟩
  rcases (inStep_of_reachable hs).session_step hstep with heq | ⟨l', hsession⟩
  · exact congrArg (fun t : Session => t.mC.compIdent) heq
  · exact Session.compIdent_kept hsession hmode

/-- A run that is over as soon as it has begun. -/
theorem flags_agree_overrun : ∃ s s' : Application,
    (application someOrders).step s (.tick 0 5 5 5) s' ∧ s.taskTimer.timerStop = false ∧
      s'.taskTimer.timerStop = true ∧ FlagsAgree s' ∧
      s'.mC.mG.competitionFinishedButton = true ∧ s'.mC.compIdent = s.mC.compIdent := by
  have hinit : Reachable (application someOrders) {} := .init ⟨rfl, rfl, rfl⟩
  have hloaded : Reachable (application someOrders) _ :=
    .step (ApplicationAction.session (.loadConfig true true smallTables)) hinit
      (And.intro trivial (Exists.intro _ (And.intro (And.intro rfl (And.intro rfl rfl)) rfl)))
  have hsaved : Reachable (application someOrders) _ :=
    .step (ApplicationAction.session (.save true)) hloaded
      (And.intro trivial (Exists.intro _ (And.intro
        (And.intro rfl (And.intro rfl (And.intro (prints_bnt []) rfl))) rfl)))
  have hstarted : Reachable (application someOrders) _ :=
    .step (ApplicationAction.timerStart 0 0 5 []) hsaved
      (Exists.intro _ (Exists.intro _ (And.intro (And.intro trivial (Exists.intro _ (And.intro
        (And.intro rfl (And.intro rfl (And.intro rfl rfl))) rfl))) (And.intro rfl rfl))))
  have htick : ∀ s : Application, s.taskTimer.cancelled[0]? = some false →
      (application someOrders).step s (.tick 0 5 5 5) (s.tick 0 5 5 5) := fun s h => ⟨h, rfl⟩
  have hover := Reachable.step _ hstarted (htick _ rfl)
  obtain ⟨hagree, hkept⟩ := flags_agree someOrders
  exact ⟨_, _, htick _ rfl, rfl, rfl, hagree _ hover, rfl, hkept _ _ _ hstarted (htick _ rfl) rfl⟩

end RefereeBox
