import RefereeBox.Session.Actions

/-! # The Timer of a Session

  The timer, the competition and its mode, and the buttons around them, on their
  own (`timing`): which of the actions of the controller move them, and how. The
  controller of a session refines them, so what holds of the timer holds in
  every session.
-/

namespace RefereeBox

open Loop Transition

/-! ### The session and its controller -/

/-- The action of the controller that an action of a session is, or may be. -/
def SessionAction.action : SessionAction → Option Action
  | .loadConfig _ loaded _ => some (.loadConfig loaded)
  | .save _ => some .saveFile
  | .openFile _ _ => some .openFile
  | .update _ _ | .delete _ _ _ => some .edit
  | .competitionFinished => some .competitionFinished
  | .controller a => some a
  | .add _ | .up _ | .down _ | .mark _ _ => none

namespace Session

variable {orders : TaskOrders} {s s' : Session}

theorem edited_mC (r : Outcome × TaskSpec) :
    (s.edited r).mC = s.mC ∨ (s.edited r).mC = s.mC.setUnsavedChanges := by
  unfold Session.edited
  split
  · exact Or.inr rfl
  · exact Or.inl rfl

theorem moved_mC (r : Outcome × TaskSpec) : (s.moved r).mC = s.mC := by
  unfold Session.moved
  split <;> rfl

theorem edited_tS (r : Outcome × TaskSpec) : (s.edited r).tS = r.2 := by
  unfold Session.edited
  split <;> rfl

theorem moved_tS (r : Outcome × TaskSpec) : (s.moved r).tS = r.2 := by
  unfold Session.moved
  split <;> rfl

theorem add_tS (sel : Selection) :
    (s.add orders sel).tS = ((sel.getSelectedTask s.tS).2.edit orders s.mC.compIdent
      (.add (sel.getSelectedTask s.tS).1)).2 := by
  unfold Session.add
  dsimp only [TaskSpec.edit]
  split
  · next heq => rw [heq]
  · next heq => rw [heq]

theorem add_mC (sel : Selection) : (s.add orders sel).mC = s.mC := by
  unfold Session.add
  dsimp only
  split <;> rfl

/-- An action of a session leaves the controller alone, or is one of its actions. -/
theorem controller_step {l : SessionAction} (hstep : (session orders).step s l s') :
    s'.mC = s.mC ∨ ∃ a, l.action = some a ∧ refereeing.step s.mC a s'.mC := by
  -- Update and Delete are edits of the controller where they apply
  have hedit : ∀ r : Outcome × TaskSpec, l.action = some .edit → s.mC.call = .idle →
      s' = s.edited r → s'.mC = s.mC ∨ ∃ a, l.action = some a ∧ refereeing.step s.mC a s'.mC := by
    rintro r haction hidle rfl
    rcases s.edited_mC r with h | h
    · exact Or.inl h
    · exact Or.inr ⟨.edit, haction, hidle, h⟩
  cases l with
  | loadConfig proceed loaded vte =>
    rcases loadConfig_cases hstep with rfl | ⟨hidle, hbutton, rfl⟩
    · exact Or.inl rfl
    · exact Or.inr ⟨.loadConfig loaded, rfl, hidle, hbutton, rfl⟩
  | save written =>
    rcases save_cases hstep with rfl | ⟨-, hidle, hbutton, rfl⟩
    · exact Or.inl rfl
    · exact Or.inr ⟨.saveFile, rfl, hidle, hbutton, rfl⟩
  | openFile proceed lines =>
    rcases openFile_cases hstep with rfl | ⟨tS', -, rfl⟩ | ⟨⟨hidle, hmode⟩, hbutton, tS', rfl⟩
    · exact Or.inl rfl
    · exact Or.inl rfl
    · exact Or.inr ⟨.openFile, rfl, hidle, hbutton, hmode, rfl⟩
  | add sel =>
    obtain ⟨-, -, rfl⟩ := hstep
    exact Or.inl (add_mC sel)
  | update pos sel =>
    obtain ⟨hidle, -, h⟩ := hstep
    exact hedit _ rfl hidle h
  | delete pos sel confirmed =>
    obtain ⟨hidle, -, h⟩ := hstep
    unfold Session.delete at h
    dsimp only at h
    by_cases hconfirmed : confirmed = true
    · rw [if_pos hconfirmed] at h
      exact hedit _ rfl hidle h
    · rw [if_neg hconfirmed] at h
      exact Or.inl (by rw [h])
  | up pos =>
    obtain ⟨-, rfl⟩ := hstep
    exact Or.inl (moved_mC _)
  | down pos =>
    obtain ⟨-, rfl⟩ := hstep
    exact Or.inl (moved_mC _)
  | mark tripletIndex column =>
    obtain ⟨-, -, -, rfl⟩ := hstep
    exact Or.inl rfl
  | competitionFinished =>
    rcases competitionFinished_cases hstep with rfl | ⟨hidle, hbutton, -, rfl⟩
    · exact Or.inl rfl
    · exact Or.inr ⟨.competitionFinished, rfl, hidle, hbutton, rfl⟩
  | controller a =>
    obtain ⟨-, mC', hcontroller, rfl⟩ := hstep
    exact Or.inr ⟨a, rfl, hcontroller⟩

/-- The controller finishes a competition in the action that is named so. -/
theorem finished_of_action {l : SessionAction} (hstep : (session orders).step s l s')
    (h : l.action = some .competitionFinished) : l = .competitionFinished := by
  cases l with
  | competitionFinished => rfl
  | controller a =>
    obtain rfl := Option.some.inj h
    exact hstep.1.elim
  | loadConfig _ _ _ | save _ | openFile _ _ | add _ | update _ _ | delete _ _ _ | up _ | down _
  | mark _ _ => cases h

/-- **Refinement**: the controller of a session is one that `refereeing` reaches. -/
theorem controller_reachable (h : Reachable (session orders) s) : Reachable refereeing s.mC := by
  -- every step of the session is none or one of the controller
  induction h with
  | init h =>
    rw [show _ = _ from h]
    exact .init rfl
  | step l _ hstep ih =>
    rcases controller_step hstep with heq | ⟨a, -, ha⟩
    · rw [heq]
      exact ih
    · exact .step a ih ha

end Session

/-! ### The timer -/

/-- What the timer and the buttons around it say, and in which competition. -/
structure TimerView where
  compIdent : CompetitionIdentifier := .bnt
  competitionMode : Bool := false
  timerStop : Bool := true
  timerStartStopButton : Bool := false
  timerSelected : Bool := false
  timerTextStop : Bool := false
  competitionFinishedButton : Bool := false

/-- The timer on its own: which of the actions move it, and how. -/
def timing : System TimerView Action where
  init v := v = {}
  step v l v' :=
    match l with
    | .saveFile => v' = { v with timerStartStopButton := true }
    | .openFile => v.competitionMode = false ∧ v' = { v with timerStartStopButton := true }
    | .edit => v' = { v with timerStartStopButton := false }
    | .tab tab => v' = if v.competitionMode = true then v else { v with compIdent := tab }
    | .timerStart =>
      v.timerStartStopButton = true ∧ v.timerSelected = false ∧
        v' = { v with
          competitionMode := true
          timerStop := false
          timerSelected := true
          timerTextStop := true
          competitionFinishedButton := false }
    | .timerStop =>
      v.timerStartStopButton = true ∧ v.timerSelected = true ∧
        v' = { v with
          timerStop := true
          timerStartStopButton := false
          timerSelected := false
          timerTextStop := false
          competitionFinishedButton := true }
    | .timerOverrun =>
      v.timerStop = false ∧
        v' = if v.timerSelected = true then
            { v with
              timerStop := true
              timerStartStopButton := false
              timerSelected := false
              timerTextStop := false
              competitionFinishedButton := true }
          else { v with timerTextStop := false, competitionFinishedButton := true }
    | .competitionFinished =>
      v.competitionFinishedButton = true ∧
        v' = { v with
          competitionMode := false
          timerStop := true
          timerStartStopButton := true
          competitionFinishedButton := false }
    | _ => v' = v

/-- The timer runs as long as its button is selected, which is in competition mode,
    and the competition can be finished only when it has stopped there. -/
structure TimerView.Coherent (v : TimerView) : Prop where
  selected : v.timerSelected = true → v.competitionMode = true
  running : v.timerStop = false → v.timerSelected = true
  started : v.timerSelected = true → v.timerStop = false
  text : v.timerStop = false → v.timerTextStop = true
  finished : v.competitionFinishedButton = true →
    v.competitionMode = true ∧ v.timerSelected = false

theorem TimerView.Coherent.init : TimerView.Coherent {} where
  selected h := absurd h (by decide)
  running h := absurd h (by decide)
  started h := absurd h (by decide)
  text h := absurd h (by decide)
  finished h := absurd h (by decide)

/-- A timer that is stopped while it is selected. -/
theorem TimerView.Coherent.stopped {v : TimerView} (h : v.Coherent)
    (hselected : v.timerSelected = true) :
    TimerView.Coherent { v with
      timerStop := true
      timerStartStopButton := false
      timerSelected := false
      timerTextStop := false
      competitionFinishedButton := true } where
  selected hsel := absurd hsel Bool.false_ne_true
  running hstop := absurd hstop.symm Bool.false_ne_true
  started hsel := absurd hsel Bool.false_ne_true
  text hstop := absurd hstop.symm Bool.false_ne_true
  finished _ := ⟨h.selected hselected, rfl⟩

theorem TimerView.Coherent.step {v v' : TimerView} {l : Action} (h : v.Coherent)
    (hstep : timing.step v l v') : v'.Coherent := by
  cases l with
  | saveFile =>
    obtain rfl : v' = _ := hstep
    exact ⟨h.selected, h.running, h.started, h.text, h.finished⟩
  | openFile =>
    obtain ⟨-, rfl⟩ := hstep
    exact ⟨h.selected, h.running, h.started, h.text, h.finished⟩
  | edit =>
    obtain rfl : v' = _ := hstep
    exact ⟨h.selected, h.running, h.started, h.text, h.finished⟩
  | tab tab =>
    obtain rfl : v' = _ := hstep
    split
    · exact h
    · exact ⟨h.selected, h.running, h.started, h.text, h.finished⟩
  | timerStart =>
    obtain ⟨-, -, rfl⟩ := hstep
    exact ⟨fun _ => rfl, fun _ => rfl, fun _ => rfl, fun _ => rfl,
      fun hfinished => absurd hfinished Bool.false_ne_true⟩
  | timerStop =>
    obtain ⟨-, hselected, rfl⟩ := hstep
    exact h.stopped hselected
  | timerOverrun =>
    obtain ⟨hstop, rfl⟩ := hstep
    -- a timer that runs is selected
    have hselected := h.running hstop
    rw [if_pos hselected]
    exact h.stopped hselected
  | competitionFinished =>
    obtain ⟨hbutton, rfl⟩ := hstep
    have hselected := (h.finished hbutton).2
    exact ⟨fun hsel => absurd (hselected.symm.trans hsel) Bool.false_ne_true,
      fun hstop => absurd hstop.symm Bool.false_ne_true,
      fun hsel => absurd (hselected.symm.trans hsel) Bool.false_ne_true,
      fun hstop => absurd hstop.symm Bool.false_ne_true,
      fun hfinished => absurd hfinished Bool.false_ne_true⟩
  | loadConfig _ | sendSpec _ | acknowledge _ | timeout | disconnect | joined | connect _ _ =>
    obtain rfl : v' = v := hstep
    exact h

/-- The competition is changed with the tab only. -/
theorem TimerView.compIdent_of_ne_tab {v v' : TimerView} {l : Action} (hstep : timing.step v l v')
    (hne : ∀ tab, l ≠ .tab tab) : v'.compIdent = v.compIdent := by
  cases l with
  | tab tab => exact absurd rfl (hne tab)
  | saveFile | edit =>
    obtain rfl : v' = _ := hstep
    rfl
  | openFile | competitionFinished =>
    obtain ⟨-, rfl⟩ := hstep
    rfl
  | timerStart | timerStop =>
    obtain ⟨-, -, rfl⟩ := hstep
    rfl
  | timerOverrun =>
    obtain ⟨-, rfl⟩ := hstep
    split <;> rfl
  | loadConfig _ | sendSpec _ | acknowledge _ | timeout | disconnect | joined | connect _ _ =>
    obtain rfl : v' = v := hstep
    rfl

/-- In competition mode it stays the same. -/
theorem TimerView.compIdent_kept {v v' : TimerView} {l : Action} (hstep : timing.step v l v')
    (hmode : v.competitionMode = true) : v'.compIdent = v.compIdent := by
  by_cases htab : ∃ tab, l = .tab tab
  · obtain ⟨tab, rfl⟩ := htab
    obtain rfl : v' = _ := hstep
    rw [if_pos hmode]
  · exact TimerView.compIdent_of_ne_tab hstep fun tab heq => htab ⟨tab, heq⟩

/-- The actions that start or end a run or a competition are the only ones that move
    the timer or the mode. -/
theorem TimerView.still {v v' : TimerView} {l : Action} (hstep : timing.step v l v')
    (hstart : l ≠ .timerStart) (hstop : l ≠ .timerStop) (hoverrun : l ≠ .timerOverrun)
    (hfinished : l ≠ .competitionFinished) :
    v'.timerStop = v.timerStop ∧ v'.competitionMode = v.competitionMode := by
  cases l with
  | saveFile | edit =>
    obtain rfl : v' = _ := hstep
    exact ⟨rfl, rfl⟩
  | openFile =>
    obtain ⟨-, rfl⟩ := hstep
    exact ⟨rfl, rfl⟩
  | tab tab =>
    obtain rfl : v' = _ := hstep
    split <;> exact ⟨rfl, rfl⟩
  | timerStart => exact absurd rfl hstart
  | timerStop => exact absurd rfl hstop
  | timerOverrun => exact absurd rfl hoverrun
  | competitionFinished => exact absurd rfl hfinished
  | loadConfig _ | sendSpec _ | acknowledge _ | timeout | disconnect | joined | connect _ _ =>
    obtain rfl : v' = v := hstep
    exact ⟨rfl, rfl⟩

/-- Competition mode lasts until the competition is finished. -/
theorem TimerView.mode_kept {v v' : TimerView} {l : Action} (hstep : timing.step v l v')
    (hne : l ≠ .competitionFinished) (hmode : v.competitionMode = true) :
    v'.competitionMode = true := by
  cases l with
  | timerStart =>
    obtain ⟨-, -, rfl⟩ := hstep
    rfl
  | timerStop =>
    obtain ⟨-, -, rfl⟩ := hstep
    exact hmode
  | timerOverrun =>
    obtain ⟨-, rfl⟩ := hstep
    split <;> exact hmode
  | competitionFinished => exact absurd rfl hne
  | saveFile | edit | openFile | tab _ | loadConfig _ | sendSpec _ | acknowledge _ | timeout
  | disconnect | joined | connect _ _ =>
    exact (TimerView.still hstep (by simp) (by simp) (by simp) (by simp)).2.trans hmode

namespace MainController

variable {s s' : MainController}

def timerView (s : MainController) : TimerView where
  compIdent := s.compIdent
  competitionMode := s.competitionMode
  timerStop := s.timerStop
  timerStartStopButton := s.mG.timerStartStopButton
  timerSelected := s.mG.timerSelected
  timerTextStop := s.mG.timerTextStop
  competitionFinishedButton := s.mG.competitionFinishedButton

/-! Connections and messages do not touch the timer. -/

@[simp] theorem setChannel_timerView (team : Team) (ch : Channel) :
    (s.setChannel team ch).timerView = s.timerView := by
  cases team <;> rfl

@[simp] theorem listen_timerView (team : Team) : (s.listen team).timerView = s.timerView :=
  setChannel_timerView team _

@[simp] theorem createServers_timerView : s.createServers.timerView = s.timerView := by
  unfold createServers
  dsimp only
  split <;> simp

@[simp] theorem disconnectClient_timerView : s.disconnectClient.timerView = s.timerView := by
  unfold disconnectClient timerView
  dsimp only
  split <;> rfl

theorem teamConnected_timerView (team : Team) (m : Request) :
    (s.teamConnected team m).timerView = s.timerView := by
  have hset : (s.setChannel team ((s.channel team).run m)).timerView = s.timerView :=
    setChannel_timerView team _
  unfold teamConnected
  dsimp only
  split
  · exact hset
  · exact hset

theorem issue_timerView {team : Team} {tSpec : Text} {rest : Option Text}
    (h : s.issue team tSpec rest = some s') : s'.timerView = s.timerView := by
  obtain ⟨ch, -, rfl⟩ := Option.map_eq_some_iff.mp h
  have hset : (s.setChannel team ch).timerView = s.timerView := setChannel_timerView team ch
  exact hset

theorem sendRest_timerView (rest : Option Text) : (s.sendRest rest).timerView = s.timerView := by
  unfold sendRest
  cases rest with
  | none => rfl
  | some tSpec =>
    dsimp only
    cases hissue : s.issue .team2 tSpec none with
    | none => rfl
    | some s' => exact issue_timerView hissue

theorem sendSpec_timerView (taskSpec : Text) : (s.sendSpec taskSpec).timerView = s.timerView := by
  unfold sendSpec
  cases (s.parts taskSpec).1 with
  | none => exact sendRest_timerView _
  | some tSpec =>
    dsimp only
    cases hissue : s.issue .team1 tSpec (s.parts taskSpec).2 with
    | none => exact sendRest_timerView _
    | some s' => exact issue_timerView hissue

theorem receiveAck_timerView (team : Team) (rest : Option Text) (answer : Option Request) :
    (s.receiveAck team rest answer).timerView = s.timerView := by
  rw [receiveAck_eq, sendRest_timerView]
  have hset : (s.setChannel team ((s.channel team).receiveAck answer).2).timerView =
      s.timerView := setChannel_timerView team _
  unfold answered
  dsimp only
  split
  · exact hset
  · exact hset

theorem shutdownSocket_timerView : s.shutdownSocket.timerView = s.timerView := by
  unfold shutdownSocket
  split <;> rfl

theorem tabbChange_timerView (tab : CompetitionIdentifier) :
    (s.tabbChange tab).timerView =
      if s.competitionMode = true then s.timerView else { s.timerView with compIdent := tab } := by
  have htab : ({ s with compIdent := tab } : MainController).timerView =
      { s.timerView with compIdent := tab } := rfl
  unfold tabbChange
  dsimp only
  split
  · rfl
  · split
    · exact createServers_timerView.trans htab
    · exact shutdownSocket_timerView.trans htab

theorem loadConfig_timerView (loaded : Bool) : (s.loadConfig loaded).timerView = s.timerView := by
  unfold loadConfig
  rw [createServers_timerView]
  cases loaded <;> rfl

theorem disconnect_timerView : s.disconnect.timerView = s.timerView := by
  unfold disconnect
  simp

theorem timerStopped_timerView : s.timerStopped.timerView =
    { s.timerView with
      timerStop := true
      timerSelected := false
      timerTextStop := false
      timerStartStopButton := false
      competitionFinishedButton := true } := by
  unfold timerStopped disconnectClient timerView
  dsimp only
  split <;> rfl

theorem competitionFinished_timerView : s.competitionFinished.timerView =
    { s.timerView with
      competitionMode := false
      timerStop := true
      timerStartStopButton := true
      competitionFinishedButton := false } := by
  unfold competitionFinished
  rw [disconnect_timerView]
  rfl

theorem timerOverrun_timerView : s.timerOverrun.timerView =
    if s.timerView.timerSelected = true then
      { s.timerView with
        timerStop := true
        timerStartStopButton := false
        timerSelected := false
        timerTextStop := false
        competitionFinishedButton := true }
    else { s.timerView with timerTextStop := false, competitionFinishedButton := true } := by
  have hselected : s.timerView.timerSelected = s.mG.timerSelected := rfl
  unfold timerOverrun
  rw [disconnectClient_timerView, hselected]
  dsimp only
  -- with the button selected the timer is stopped first
  by_cases h : s.mG.timerSelected = true
  · simp only [if_pos h]
    have hstopped := timerStopped_timerView
      (s := { s with mG := { s.mG with timerTextStop := false } })
    exact congrArg (fun v : TimerView => { v with competitionFinishedButton := true }) hstopped
  · simp only [if_neg h]
    rfl

/-- **The controller refines the timer.** -/
theorem timer_step {l : Action} (hstep : refereeing.step s l s') :
    timing.step s.timerView l s'.timerView := by
  cases l with
  | loadConfig loaded =>
    obtain ⟨-, -, rfl⟩ := hstep
    exact loadConfig_timerView loaded
  | saveFile =>
    obtain ⟨-, -, rfl⟩ := hstep
    rfl
  | openFile =>
    obtain ⟨-, -, hmode, rfl⟩ := hstep
    -- the tab that is selected again is the old one
    have hview := tabbChange_timerView (s := s.setSavedChanges) s.compIdent
    exact ⟨hmode, by rw [hview]; split <;> rfl⟩
  | edit =>
    obtain ⟨-, rfl⟩ := hstep
    rfl
  | tab tab =>
    obtain ⟨-, rfl⟩ := hstep
    exact tabbChange_timerView tab
  | timerStart =>
    obtain ⟨-, hbutton, hselected, rfl⟩ := hstep
    exact ⟨hbutton, hselected, rfl⟩
  | timerStop =>
    obtain ⟨-, hbutton, hselected, rfl⟩ := hstep
    exact ⟨hbutton, hselected, timerStopped_timerView⟩
  | timerOverrun =>
    obtain ⟨hstop, rfl⟩ := hstep
    exact ⟨hstop, timerOverrun_timerView⟩
  | sendSpec taskSpec =>
    obtain ⟨-, -, rfl⟩ := hstep
    exact sendSpec_timerView taskSpec
  | acknowledge m =>
    obtain ⟨team, rest, -, -, -, rfl⟩ := hstep
    exact receiveAck_timerView team rest (some m)
  | timeout =>
    obtain ⟨team, rest, -, rfl⟩ := hstep
    exact receiveAck_timerView team rest none
  | disconnect =>
    obtain ⟨-, -, rfl⟩ := hstep
    exact disconnect_timerView
  | competitionFinished =>
    obtain ⟨-, hbutton, rfl⟩ := hstep
    exact ⟨hbutton, competitionFinished_timerView⟩
  | joined =>
    obtain ⟨-, -, rfl⟩ := hstep
    rfl
  | connect team m =>
    obtain ⟨-, -, rfl⟩ := hstep
    exact teamConnected_timerView team m

end MainController

/-! ### The timer of a session -/

namespace Session

variable {orders : TaskOrders} {s s' : Session} {l : SessionAction}

/-- An action of a session leaves the timer alone, or is one of its actions. -/
theorem timing_step (hstep : (session orders).step s l s') :
    s'.mC.timerView = s.mC.timerView ∨
      ∃ a, l.action = some a ∧ timing.step s.mC.timerView a s'.mC.timerView := by
  rcases controller_step hstep with heq | ⟨a, haction, ha⟩
  · exact Or.inl (congrArg MainController.timerView heq)
  · exact Or.inr ⟨a, haction, MainController.timer_step ha⟩

theorem coherent_step (hstep : (session orders).step s l s') (h : s.mC.timerView.Coherent) :
    s'.mC.timerView.Coherent := by
  rcases timing_step hstep with heq | ⟨a, -, ha⟩
  · rw [heq]
    exact h
  · exact h.step ha

theorem mode_kept (hstep : (session orders).step s l s') (hne : l ≠ .competitionFinished)
    (hmode : s.mC.competitionMode = true) : s'.mC.competitionMode = true := by
  rcases timing_step hstep with heq | ⟨a, haction, ha⟩
  · exact (congrArg TimerView.competitionMode heq).trans hmode
  · refine TimerView.mode_kept ha (fun h => hne ?_) hmode
    exact finished_of_action hstep (h ▸ haction)

theorem compIdent_of_ne_tab (hstep : (session orders).step s l s')
    (hne : ∀ tab, l ≠ .controller (.tab tab)) : s'.mC.compIdent = s.mC.compIdent := by
  rcases timing_step hstep with heq | ⟨a, haction, ha⟩
  · exact congrArg TimerView.compIdent heq
  · refine TimerView.compIdent_of_ne_tab ha fun tab htab => ?_
    subst htab
    -- no other action of a session is a change of the tab
    cases l with
    | controller a => exact hne tab (congrArg _ (Option.some.inj haction))
    | loadConfig _ _ _ | save _ | openFile _ _ | add _ | update _ _ | delete _ _ _ | up _ | down _
    | mark _ _ | competitionFinished => cases haction

theorem compIdent_kept (hstep : (session orders).step s l s')
    (hmode : s.mC.competitionMode = true) : s'.mC.compIdent = s.mC.compIdent := by
  rcases timing_step hstep with heq | ⟨a, -, ha⟩
  · exact congrArg TimerView.compIdent heq
  · exact TimerView.compIdent_kept ha hmode

end Session

end RefereeBox
