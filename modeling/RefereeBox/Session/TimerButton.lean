import RefereeBox.Session.StartButton

/-! # The Timer Button During a Run

  While the timer runs its button says `Timer Stop` and is to be enabled; from
  the end of the run to the end of the competition it is to be disabled, so that
  no second run starts before the first one is finished. But the button is moved
  for the sake of unsaved changes as well, whatever the run is doing: Update and
  Delete, which stay enabled in the Edit menu, disable it while the timer runs,
  and Save enables it when the run has ended. Without these two
  (`KeepsButton`) the button follows the run.
-/

namespace RefereeBox

open Loop Transition

/-! ### The button and the run -/

/-- What the timer button is to be while a run is on, and from its end until the
    competition is finished. -/
structure FollowsRun (s : Session) : Prop where
  running : s.mC.timerStop = false →
    s.mC.mG.timerStartStopButton = true ∧ s.mC.mG.timerTextStop = true
  stopped : s.mC.competitionMode = true → s.mC.timerStop = true →
    s.mC.mG.timerStartStopButton = false

/-- Nothing is saved between the end of a run and the end of the competition, and
    no task is updated or deleted while a run is on. -/
def KeepsButton (s : Session) : SessionAction → Prop
  | .save written => written = true → s.mC.competitionMode = true → s.mC.timerStop = false
  | .update pos _ => pos < (s.tS.tasks s.mC.compIdent).length → s.mC.timerStop = true
  | .delete pos _ confirmed =>
      confirmed = true ∧ pos < (s.tS.tasks s.mC.compIdent).length → s.mC.timerStop = true
  | _ => True

/-- The same of the timer alone. -/
structure TimerView.Follows (v : TimerView) : Prop where
  coherent : v.Coherent
  running : v.timerStop = false → v.timerStartStopButton = true
  stopped : v.competitionMode = true → v.timerStop = true → v.timerStartStopButton = false

namespace TimerView.Follows

variable {v v' : TimerView}

theorem init : TimerView.Follows {} where
  coherent := .init
  running h := absurd h (by decide)
  stopped h := absurd h (by decide)

theorem step (h : v.Follows) {l : Action}
    (hsave : l = .saveFile → v.competitionMode = true → v.timerStop = false)
    (hedit : l = .edit → v.timerStop = true) (hstep : timing.step v l v') : v'.Follows := by
  have hcoherent := h.coherent.step hstep
  cases l with
  | saveFile =>
    obtain rfl : v' = _ := hstep
    -- between a run and its end the condition excludes it
    exact ⟨hcoherent, fun _ => rfl, fun hmode hstopped =>
      absurd ((hsave rfl hmode).symm.trans hstopped) Bool.false_ne_true⟩
  | openFile =>
    obtain ⟨hnot, rfl⟩ := hstep
    exact ⟨hcoherent, fun _ => rfl, fun hmode _ =>
      absurd (hnot.symm.trans hmode) Bool.false_ne_true⟩
  | edit =>
    obtain rfl : v' = _ := hstep
    -- and during a run this one
    exact ⟨hcoherent, fun hrun => absurd (hrun.symm.trans (hedit rfl)) Bool.false_ne_true,
      fun _ _ => rfl⟩
  | tab tab =>
    obtain rfl : v' = _ := hstep
    split at hcoherent
    · next hmode =>
      rw [if_pos hmode]
      exact h
    · next hmode =>
      rw [if_neg hmode]
      exact ⟨hcoherent, h.running, h.stopped⟩
  | timerStart =>
    obtain ⟨hbutton, -, rfl⟩ := hstep
    exact ⟨hcoherent, fun _ => hbutton, fun _ hstopped => absurd hstopped Bool.false_ne_true⟩
  | timerStop =>
    obtain ⟨-, -, rfl⟩ := hstep
    exact ⟨hcoherent, fun hrun => absurd hrun.symm Bool.false_ne_true, fun _ _ => rfl⟩
  | timerOverrun =>
    obtain ⟨hstop, rfl⟩ := hstep
    -- the button is selected, so the overrun ends the run
    rw [if_pos (h.coherent.running hstop)] at hcoherent ⊢
    exact ⟨hcoherent, fun hrun => absurd hrun.symm Bool.false_ne_true, fun _ _ => rfl⟩
  | competitionFinished =>
    obtain ⟨-, rfl⟩ := hstep
    exact ⟨hcoherent, fun _ => rfl, fun hmode => absurd hmode Bool.false_ne_true⟩
  | loadConfig _ | sendSpec _ | acknowledge _ | timeout | disconnect | joined | connect _ _ =>
    obtain rfl : v' = v := hstep
    exact h

/-- No run starts before the competition is finished. -/
theorem not_start (h : v.Follows) (hmode : v.competitionMode = true) :
    ¬ ∃ v', timing.step v .timerStart v' := by
  rintro ⟨v', hbutton, hselected, -⟩
  have hstop : v.timerStop = true := by
    by_contra hrun
    have hsel := h.coherent.running (by simpa using hrun)
    exact Bool.false_ne_true (hselected.symm.trans hsel)
  exact Bool.false_ne_true ((h.stopped hmode hstop).symm.trans hbutton)

end TimerView.Follows

/-! ### One step -/

variable {orders : TaskOrders} {s s' : Session} {l : SessionAction}

theorem TimerView.Follows.followsRun (h : s.mC.timerView.Follows) : FollowsRun s where
  running hrun := ⟨h.running hrun, h.coherent.text hrun⟩
  stopped := h.stopped

/-- An action keeps the button with the run under the condition. -/
theorem KeepsButton.step (hcond : KeepsButton s l) (h : s.mC.timerView.Follows)
    (hstep : (session orders).step s l s') : s'.mC.timerView.Follows := by
  -- Save and the edits apart, an action is one of the controller's
  have hother : ∀ {a : Action} {mC' : MainController}, a ≠ .saveFile → a ≠ .edit →
      refereeing.step s.mC a mC' → mC'.timerView.Follows := fun hsave hedit ha =>
    h.step (fun heq => absurd heq hsave) (fun heq => absurd heq hedit)
      (MainController.timer_step ha)
  have hedited : s.mC.timerStop = true → s.mC.setUnsavedChanges.timerView.Follows := fun hstop =>
    h.step (l := .edit) (fun heq => by cases heq) (fun _ => hstop) rfl
  cases l with
  | loadConfig proceed loaded vte =>
    rcases Session.loadConfig_cases hstep with rfl | ⟨hidle, hbutton, rfl⟩
    · exact h
    · exact hother (a := .loadConfig loaded) (by simp) (by simp) ⟨hidle, hbutton, rfl⟩
  | save written =>
    rcases Session.save_cases hstep with rfl | ⟨hwritten, -, -, rfl⟩
    · exact h
    · exact h.step (l := .saveFile) (fun _ => hcond hwritten) (fun heq => by cases heq) rfl
  | openFile proceed lines =>
    rcases Session.openFile_cases hstep with rfl | ⟨tS', -, rfl⟩ | ⟨⟨hidle, hmode⟩, hbutton, tS', rfl⟩
    · exact h
    · exact h
    · exact hother (a := .openFile) (by simp) (by simp) ⟨hidle, hbutton, hmode, rfl⟩
  | add sel =>
    obtain ⟨-, -, rfl⟩ := hstep
    rw [Session.add_mC sel]
    exact h
  | update pos sel =>
    obtain ⟨-, hsel, rfl⟩ := hstep
    rcases s.update_cases orders pos hsel with ⟨hpos, tS', heq⟩ | ⟨-, heq⟩
    · rw [heq]
      exact hedited (hcond hpos)
    · rw [heq]
      exact h
  | delete pos sel confirmed =>
    obtain ⟨-, -, rfl⟩ := hstep
    rcases s.delete_cases orders pos sel confirmed with ⟨hconfirmed, hpos, tS', heq⟩ | ⟨-, heq⟩
    · rw [heq]
      exact hedited (hcond ⟨hconfirmed, hpos⟩)
    · rw [heq]
      exact h
  | up pos =>
    obtain ⟨-, rfl⟩ := hstep
    rw [Session.up, Session.moved_mC]
    exact h
  | down pos =>
    obtain ⟨-, rfl⟩ := hstep
    rw [Session.down, Session.moved_mC]
    exact h
  | mark tripletIndex column =>
    obtain ⟨-, -, -, rfl⟩ := hstep
    exact h
  | competitionFinished =>
    rcases Session.competitionFinished_cases hstep with rfl | ⟨hidle, hbutton, -, rfl⟩
    · exact h
    · exact hother (a := .competitionFinished) (by simp) (by simp) ⟨hidle, hbutton, rfl⟩
  | controller a =>
    obtain ⟨hoffers, mC', hcontroller, rfl⟩ := hstep
    have hsave : a ≠ .saveFile := fun heq => by rw [heq] at hoffers; exact hoffers
    have hedit : a ≠ .edit := fun heq => by rw [heq] at hoffers; exact hoffers
    exact hother hsave hedit hcontroller

/-- An action that does not meet the condition leaves the button disabled during a
    run, or enabled behind one. -/
theorem not_followsRun (hstep : (session orders).step s l s') (hcond : ¬ KeepsButton s l) :
    ¬ FollowsRun s' := by
  have hrunning : ∀ {tS' : TaskSpec}, s.mC.timerStop ≠ true →
      ¬ FollowsRun ({ s with tS := tS' } : Session).setUnsavedChanges := by
    intro tS' hrun hfollows
    have hstop : s.mC.timerStop = false := by simpa using hrun
    exact Bool.false_ne_true (hfollows.running hstop).1
  cases l with
  | save written =>
    obtain ⟨hwritten, hrest⟩ := Classical.not_imp.mp hcond
    obtain ⟨hmode, hstop⟩ := Classical.not_imp.mp hrest
    obtain ⟨-, -, hsaved⟩ := hstep
    rw [if_pos hwritten] at hsaved
    obtain ⟨-, rfl⟩ := hsaved
    have hstopped : s.mC.timerStop = true := by simpa using hstop
    intro hfollows
    exact Bool.false_ne_true (hfollows.stopped hmode hstopped).symm
  | update pos sel =>
    obtain ⟨hpos, hstop⟩ := Classical.not_imp.mp hcond
    obtain ⟨-, hsel, rfl⟩ := hstep
    rcases s.update_cases orders pos hsel with ⟨-, tS', heq⟩ | ⟨hnot, -⟩
    · rw [heq]
      exact hrunning hstop
    · exact absurd hpos hnot
  | delete pos sel confirmed =>
    obtain ⟨hpos, hstop⟩ := Classical.not_imp.mp hcond
    obtain ⟨-, -, rfl⟩ := hstep
    rcases s.delete_cases orders pos sel confirmed with ⟨-, -, tS', heq⟩ | ⟨hnot, -⟩
    · rw [heq]
      exact hrunning hstop
    · exact absurd hpos hnot
  | loadConfig _ _ _ | openFile _ _ | add _ | up _ | down _ | mark _ _ | competitionFinished
  | controller _ => exact absurd trivial hcond

/-! ### Runs -/

/-- **The button follows the run.** In every run in which nothing is saved between
    the end of a run of the timer and the end of the competition, and no task is
    updated or deleted while the timer runs, the button is enabled while the timer
    runs and disabled from its end until the competition is finished, and no second
    run starts before that. A step of another kind always breaks this. -/
theorem button_follows_run (orders : TaskOrders) :
    (∀ s, Reachable ((session orders).restrict KeepsButton) s →
      FollowsRun s ∧ (s.mC.competitionMode = true →
        ¬ ∃ s', (session orders).step s (.controller .timerStart) s')) ∧
      ∀ s l s', (session orders).step s l s' → ¬ KeepsButton s l → ¬ FollowsRun s' := by
  have hfollows : ∀ s, Reachable ((session orders).restrict KeepsButton) s →
      s.mC.timerView.Follows := by
    apply invariant
    · intro s hs
      rw [show s = {} from hs]
      exact .init
    · intro s l s' h hstep
      exact hstep.1.step h hstep.2
  refine ⟨fun s hs => ⟨(hfollows s hs).followsRun, ?_⟩, fun s l s' => not_followsRun⟩
  intro hmode ⟨s', _, mC', hstart, _⟩
  exact (hfollows s hs).not_start hmode ⟨_, MainController.timer_step hstart⟩

/-- A run of the timer that is stopped. -/
theorem button_follows_run_once : ∃ s, Reachable ((session someOrders).restrict KeepsButton) s ∧
    s.mC.competitionMode = true ∧ s.mC.timerStop = true ∧
    s.mC.mG.timerStartStopButton = false := by
  have hloaded : Reachable ((session someOrders).restrict KeepsButton) _ :=
    .step (SessionAction.loadConfig true true smallTables) (.init rfl)
      ⟨trivial, And.intro rfl (And.intro rfl rfl)⟩
  have hsaved : Reachable ((session someOrders).restrict KeepsButton) _ :=
    .step (SessionAction.save true) hloaded
      ⟨fun _ hmode => absurd hmode (by decide),
        And.intro rfl (And.intro rfl (And.intro (prints_bnt []) rfl))⟩
  have hstarted : Reachable ((session someOrders).restrict KeepsButton) _ :=
    .step (SessionAction.controller .timerStart) hsaved
      ⟨trivial, And.intro trivial
        (Exists.intro _ (And.intro (And.intro rfl (And.intro rfl (And.intro rfl rfl))) rfl))⟩
  have hstopped : Reachable ((session someOrders).restrict KeepsButton) _ :=
    .step (SessionAction.controller .timerStop) hstarted
      ⟨trivial, And.intro trivial
        (Exists.intro _ (And.intro (And.intro rfl (And.intro rfl (And.intro rfl rfl))) rfl))⟩
  exact ⟨_, hstopped, rfl, rfl, ((button_follows_run someOrders).1 _ hstopped).1.stopped rfl rfl⟩

/-- A task is deleted while the timer runs, and the run cannot be stopped. The
    specification is saved after a run, and a second one starts. -/
theorem button_leaves_run :
    (∃ s, Run (session someOrders) {}
        [.loadConfig true true smallTables, .add someSelection, .save true,
          .controller .timerStart, .delete 0 someSelection true] s ∧
      s.mC.timerStop = false ∧ s.mC.mG.timerStartStopButton = false ∧ ¬ FollowsRun s) ∧
    ∃ s s', Run (session someOrders) {}
        [.loadConfig true true smallTables, .save true, .controller .timerStart,
          .controller .timerStop, .save true] s ∧
      s.mC.competitionMode = true ∧ s.mC.timerStop = true ∧ ¬ FollowsRun s ∧
      (session someOrders).step s (.controller .timerStart) s' := by
  refine ⟨⟨_,
    .cons (SessionAction.loadConfig _ _ _) (And.intro rfl (And.intro rfl rfl)) <|
    .cons (SessionAction.add _) (And.intro rfl (And.intro rfl rfl)) <|
    .cons (SessionAction.save _) (And.intro rfl (And.intro rfl (And.intro (prints_bnt _) rfl))) <|
    .cons (SessionAction.controller _) (And.intro trivial
      (Exists.intro _ (And.intro (And.intro rfl (And.intro rfl (And.intro rfl rfl))) rfl))) <|
    .cons (SessionAction.delete _ _ _) (And.intro rfl (And.intro rfl rfl)) <| .nil _,
    rfl, rfl, fun h => Bool.false_ne_true (h.running rfl).1⟩, ⟨_, _,
    .cons (SessionAction.loadConfig _ _ _) (And.intro rfl (And.intro rfl rfl)) <|
    .cons (SessionAction.save _) (And.intro rfl (And.intro rfl (And.intro (prints_bnt []) rfl))) <|
    .cons (SessionAction.controller _) (And.intro trivial
      (Exists.intro _ (And.intro (And.intro rfl (And.intro rfl (And.intro rfl rfl))) rfl))) <|
    .cons (SessionAction.controller _) (And.intro trivial
      (Exists.intro _ (And.intro (And.intro rfl (And.intro rfl (And.intro rfl rfl))) rfl))) <|
    .cons (SessionAction.save _) (And.intro rfl (And.intro rfl (And.intro (prints_bnt []) rfl))) <|
    .nil _, rfl, rfl, fun h => Bool.false_ne_true (h.stopped rfl rfl).symm, And.intro trivial
      (Exists.intro _ (And.intro (And.intro rfl (And.intro rfl (And.intro rfl rfl))) rfl))⟩⟩

end RefereeBox
