import RefereeBox.Session.StartButton
import RefereeBox.Session.UnsavedChanges
import RefereeBox.Text.Cleared

/-! # The Specification That Is Sent

  What a team gets is to be what has been saved. Send Spec can be used only
  while the timer runs, so nothing is edited between the start of a run and the
  send if the Edit menu is left alone in competition mode. The marks of the
  referee do not show in a text. So when every run is started with no unsaved
  changes, and the flag of unsaved changes is sound, what is sent is a text of
  the specification that was saved or opened last.
-/

namespace RefereeBox

open Loop Transition

/-! ### Send Spec -/

/-- Send Spec is enabled only while the timer runs, and so is the text of the timer
    button that enables it when a team connects. -/
structure SendsInRun (s : MainController) : Prop where
  text : s.mG.timerTextStop = true → s.timerStop = false
  sends : s.mG.sendTripletsButton = true → s.timerStop = false

/-- The text of the timer button changes with the run only. -/
theorem TimerView.text_kept {v v' : TimerView} {l : Action} (hstep : timing.step v l v')
    (hstart : l ≠ .timerStart) (hstop : l ≠ .timerStop) (hoverrun : l ≠ .timerOverrun) :
    v'.timerTextStop = v.timerTextStop := by
  cases l with
  | saveFile | edit =>
    obtain rfl : v' = _ := hstep
    rfl
  | openFile | competitionFinished =>
    obtain ⟨-, rfl⟩ := hstep
    rfl
  | tab tab =>
    obtain rfl : v' = _ := hstep
    split <;> rfl
  | timerStart => exact absurd rfl hstart
  | timerStop => exact absurd rfl hstop
  | timerOverrun => exact absurd rfl hoverrun
  | loadConfig _ | sendSpec _ | acknowledge _ | timeout | disconnect | joined | connect _ _ =>
    obtain rfl : v' = v := hstep
    rfl

/-- Competition mode starts with a run. -/
theorem TimerView.mode_started {v v' : TimerView} {l : Action} (hstep : timing.step v l v')
    (hstart : l ≠ .timerStart) (hmode : v'.competitionMode = true) : v.competitionMode = true := by
  cases l with
  | timerStart => exact absurd rfl hstart
  | timerStop =>
    obtain ⟨-, -, rfl⟩ := hstep
    exact hmode
  | timerOverrun =>
    obtain ⟨-, rfl⟩ := hstep
    split at hmode
    · exact hmode
    · exact hmode
  | competitionFinished =>
    obtain ⟨-, rfl⟩ := hstep
    exact absurd hmode Bool.false_ne_true
  | saveFile | edit | openFile | tab _ | loadConfig _ | sendSpec _ | acknowledge _ | timeout
  | disconnect | joined | connect _ _ =>
    exact (TimerView.still hstep (by simp) (by simp) (by simp) (by simp)).2.symm.trans hmode

namespace MainController

variable {s s' : MainController}

/-! Of what happens outside of the timer only a new team enables the button. -/

theorem setChannel_mG (team : Team) (ch : Channel) :
    (s.setChannel team ch).mG = s.mG := by
  cases team <;> rfl

theorem listen_mG (team : Team) : (s.listen team).mG = s.mG := setChannel_mG team _

theorem createServers_mG : s.createServers.mG = s.mG := by
  unfold createServers
  dsimp only
  split
  · rw [listen_mG, listen_mG]
  · rw [listen_mG]

theorem disconnectClient_sends :
    s.disconnectClient.mG.sendTripletsButton = s.mG.sendTripletsButton := by
  unfold disconnectClient
  dsimp only
  split <;> rfl

theorem issue_mG {team : Team} {tSpec : Text} {rest : Option Text}
    (h : s.issue team tSpec rest = some s') : s'.mG = s.mG := by
  obtain ⟨ch, -, rfl⟩ := Option.map_eq_some_iff.mp h
  have hset : (s.setChannel team ch).mG = s.mG := setChannel_mG team ch
  exact hset

theorem sendRest_mG (rest : Option Text) : (s.sendRest rest).mG = s.mG := by
  unfold sendRest
  cases rest with
  | none => rfl
  | some tSpec =>
    dsimp only
    cases hissue : s.issue .team2 tSpec none with
    | none => rfl
    | some s' => exact issue_mG hissue

theorem sendSpec_mG (taskSpec : Text) : (s.sendSpec taskSpec).mG = s.mG := by
  unfold sendSpec
  cases (s.parts taskSpec).1 with
  | none => exact sendRest_mG _
  | some tSpec =>
    dsimp only
    cases hissue : s.issue .team1 tSpec (s.parts taskSpec).2 with
    | none => exact sendRest_mG _
    | some s' => exact issue_mG hissue

/-- An acknowledgement disables it. -/
theorem receiveAck_sends (team : Team) (rest : Option Text) (answer : Option Request) :
    (s.receiveAck team rest answer).mG.sendTripletsButton = true →
      s.mG.sendTripletsButton = true := by
  rw [receiveAck_eq, sendRest_mG]
  have hset : ∀ ch, (s.setChannel team ch).mG = s.mG := setChannel_mG team
  unfold answered
  dsimp only
  rw [hset]
  split
  · exact fun h => absurd h Bool.false_ne_true
  · exact id

theorem tabbChange_mG (tab : CompetitionIdentifier) : (s.tabbChange tab).mG = s.mG := by
  unfold tabbChange
  dsimp only
  split
  · rfl
  · split
    · exact createServers_mG
    · unfold shutdownSocket
      split <;> rfl

/-- What enables the button. -/
theorem sends_step {l : Action} (hstep : refereeing.step s l s')
    (hsends : s'.mG.sendTripletsButton = true) :
    (s.mG.sendTripletsButton = true ∨ s.mG.timerTextStop = true ∨ l = .timerStart) ∧
      l ≠ .timerStop ∧ (l = .timerOverrun → s.mG.timerSelected = false) := by
  -- most of the actions do not touch the button
  have hkeep : s'.mG.sendTripletsButton = s.mG.sendTripletsButton → l ≠ .timerStop →
      l ≠ .timerOverrun → (s.mG.sendTripletsButton = true ∨ s.mG.timerTextStop = true ∨
        l = .timerStart) ∧ l ≠ .timerStop ∧ (l = .timerOverrun → s.mG.timerSelected = false) :=
    fun heq hstop hoverrun => ⟨Or.inl (heq.symm.trans hsends), hstop, fun h => absurd h hoverrun⟩
  cases l with
  | loadConfig loaded =>
    obtain ⟨-, -, rfl⟩ := hstep
    refine hkeep ?_ (by simp) (by simp)
    unfold loadConfig
    rw [createServers_mG]
    cases loaded <;> rfl
  | saveFile =>
    obtain ⟨-, -, rfl⟩ := hstep
    exact hkeep rfl (by simp) (by simp)
  | openFile =>
    obtain ⟨-, -, -, rfl⟩ := hstep
    exact hkeep (by rw [tabbChange_mG]; rfl) (by simp) (by simp)
  | edit =>
    obtain ⟨-, rfl⟩ := hstep
    exact hkeep rfl (by simp) (by simp)
  | tab tab =>
    obtain ⟨-, rfl⟩ := hstep
    exact hkeep (by rw [tabbChange_mG]) (by simp) (by simp)
  | timerStart => exact ⟨Or.inr (Or.inr rfl), by simp, by simp⟩
  | timerStop =>
    obtain ⟨-, -, -, rfl⟩ := hstep
    exact absurd hsends Bool.false_ne_true
  | timerOverrun =>
    obtain ⟨-, rfl⟩ := hstep
    unfold timerOverrun at hsends
    rw [disconnectClient_sends] at hsends
    dsimp only at hsends
    -- a selected button stops the timer, which disables this one
    by_cases hselected : s.mG.timerSelected = true
    · rw [if_pos hselected] at hsends
      exact absurd hsends Bool.false_ne_true
    · rw [if_neg hselected] at hsends
      exact ⟨Or.inl hsends, by simp, fun _ => by simpa using hselected⟩
  | sendSpec taskSpec =>
    obtain ⟨-, -, rfl⟩ := hstep
    exact hkeep (by rw [sendSpec_mG]) (by simp) (by simp)
  | acknowledge m =>
    obtain ⟨team, rest, -, -, -, rfl⟩ := hstep
    exact ⟨Or.inl (receiveAck_sends team rest (some m) hsends), by simp, by simp⟩
  | timeout =>
    obtain ⟨team, rest, -, rfl⟩ := hstep
    exact ⟨Or.inl (receiveAck_sends team rest none hsends), by simp, by simp⟩
  | disconnect =>
    obtain ⟨-, -, rfl⟩ := hstep
    refine hkeep ?_ (by simp) (by simp)
    unfold disconnect
    rw [listen_mG, disconnectClient_sends]
  | competitionFinished =>
    obtain ⟨-, -, rfl⟩ := hstep
    refine hkeep ?_ (by simp) (by simp)
    unfold competitionFinished disconnect
    rw [listen_mG, disconnectClient_sends]
    rfl
  | joined =>
    obtain ⟨-, -, rfl⟩ := hstep
    exact hkeep rfl (by simp) (by simp)
  | connect team m =>
    obtain ⟨-, -, rfl⟩ := hstep
    refine ⟨?_, by simp, by simp⟩
    have hset : (s.setChannel team ((s.channel team).run m)).mG = s.mG := setChannel_mG team _
    unfold teamConnected at hsends
    dsimp only at hsends
    split at hsends
    · exact Or.inl (by rw [← hset]; exact hsends)
    · rw [MainGUI.teamConnected, hset, Bool.or_eq_true] at hsends
      exact hsends.imp id Or.inl

/-- The button follows the timer. -/
theorem sendsInRun_step {l : Action} (h : SendsInRun s) (hcoherent : s.timerView.Coherent)
    (hstep : refereeing.step s l s') : SendsInRun s' := by
  have hview := timer_step hstep
  cases l with
  | timerStart =>
    have hstop : s'.timerStop = false := congrArg TimerView.timerStop hview.2.2
    exact ⟨fun _ => hstop, fun _ => hstop⟩
  | timerStop =>
    have htext : s'.mG.timerTextStop = false := congrArg TimerView.timerTextStop hview.2.2
    exact ⟨fun h' => absurd (htext.symm.trans h') Bool.false_ne_true,
      fun h' => absurd rfl (sends_step hstep h').2.1⟩
  | timerOverrun =>
    -- a timer that runs is selected
    have hselected : s.timerView.timerSelected = true := hcoherent.running hview.1
    have htext : s'.mG.timerTextStop = false := by
      have heq := hview.2
      rw [if_pos hselected] at heq
      exact congrArg TimerView.timerTextStop heq
    refine ⟨fun h' => absurd (htext.symm.trans h') Bool.false_ne_true, fun h' => ?_⟩
    have hnot := (sends_step hstep h').2.2 rfl
    exact absurd (hnot.symm.trans hselected) Bool.false_ne_true
  | competitionFinished =>
    -- the competition is finished behind the run
    have hnot := (hcoherent.finished hview.1).2
    have hstopped : s.timerStop = true := by
      by_contra hrun
      have hrunning : s.timerView.timerStop = false := Bool.eq_false_iff.mpr hrun
      exact Bool.false_ne_true (hnot.symm.trans (hcoherent.running hrunning))
    have htext : s'.mG.timerTextStop = s.mG.timerTextStop :=
      congrArg TimerView.timerTextStop hview.2
    have hoff : ¬ s.mG.timerTextStop = true := fun h' =>
      Bool.false_ne_true ((h.text h').symm.trans hstopped)
    refine ⟨fun h' => absurd (htext.symm.trans h') hoff, fun h' => ?_⟩
    rcases (sends_step hstep h').1 with hold | hold | hstart
    · exact absurd ((h.sends hold).symm.trans hstopped) Bool.false_ne_true
    · exact absurd hold hoff
    · cases hstart
  | saveFile | openFile | edit | tab _ | loadConfig _ | sendSpec _ | acknowledge _ | timeout
  | disconnect | joined | connect _ _ =>
    have hstill : s'.timerStop = s.timerStop :=
      (TimerView.still hview (by simp) (by simp) (by simp) (by simp)).1
    have htext : s'.mG.timerTextStop = s.mG.timerTextStop :=
      TimerView.text_kept hview (by simp) (by simp) (by simp)
    refine ⟨fun h' => hstill.trans (h.text (htext.symm.trans h')), fun h' => hstill.trans ?_⟩
    rcases (sends_step hstep h').1 with hold | hold | hstart
    · exact h.sends hold
    · exact h.text hold
    · cases hstart

end MainController

/-! ### The same texts -/

/-- The two specifications print the same, in both formats. -/
def TaskSpec.SameTexts (tS saved : TaskSpec) : Prop :=
  ∀ c, tS.getTaskSpecString c = saved.getTaskSpecString c ∧
    tS.getTaskSpecXml c = saved.getTaskSpecXml c

namespace TaskSpec.SameTexts

variable {tS tS' saved : TaskSpec}

theorem refl (tS : TaskSpec) : tS.SameTexts tS := fun _ => ⟨rfl, rfl⟩

theorem of_cleared (heq : tS'.cleared = tS.cleared) (h : tS.SameTexts saved) :
    tS'.SameTexts saved := by
  intro c
  have hstring := getTaskSpecString_cleared tS' c
  have hxml := getTaskSpecXml_cleared tS' c
  rw [heq] at hstring hxml
  rw [← hstring, ← hxml, getTaskSpecString_cleared, getTaskSpecXml_cleared]
  exact h c

/-- Static fields that no task shows. -/
theorem of_statics (hempty : tS.bmtTaskList = []) (statics : BmtStatics)
    (h : tS.SameTexts saved) : ({ tS with bmtStatics := statics } : TaskSpec).SameTexts saved := by
  intro c
  obtain ⟨hstring, hxml⟩ := h c
  rw [← hstring, ← hxml]
  cases c with
  | bmt =>
    unfold TaskSpec.getTaskSpecString TaskSpec.getTaskSpecXml
    simp only [hempty]
    exact ⟨rfl, rfl⟩
  | bnt | btt | ctt | cbt | ppt => exact ⟨rfl, rfl⟩

end TaskSpec.SameTexts

/-- Reading the boxes keeps the texts. -/
theorem Session.KeepsPlaces.sameTexts {s : Session} {sel : Selection} (h : s.KeepsPlaces sel)
    (hsaved : s.tS.SameTexts s.savedSpec) :
    (sel.getSelectedTask s.tS).2.SameTexts s.savedSpec := by
  cases sel with
  | bmt places object =>
    rcases h with heq | hempty
    · have hsame : ({ s.tS with bmtStatics := places } : TaskSpec) = s.tS := by rw [heq]
      exact hsame ▸ hsaved
    · exact hsaved.of_statics hempty places
  | bnt _ _ _ | btt _ _ _ _ | ctt _ _ _ _ | cbt _ | ppt _ => exact hsaved

/-! ### The condition -/

/-- The actions of the Edit menu. -/
def SessionAction.Edits : SessionAction → Prop
  | .add _ | .update _ _ | .delete _ _ _ => True
  | _ => False

/-- The flag of unsaved changes is kept sound, a run is started with no unsaved
    changes, and the Edit menu is not used in competition mode. -/
structure KeepsSaved (s : Session) (l : SessionAction) : Prop where
  text : KeepsText s l
  start : l = .controller .timerStart → s.unsavedChanges = false
  edit : l.Edits → s.mC.competitionMode = false

/-! ### One step -/

/-- The invariant: the texts are those of the saved specification unless there are
    unsaved changes, and there are none in competition mode. -/
structure SentSaved (s : Session) : Prop where
  texts : s.unsavedChanges = false → s.tS.SameTexts s.savedSpec
  mode : s.mC.competitionMode = true → s.unsavedChanges = false
  timer : s.mC.timerView.Coherent
  sends : SendsInRun s.mC

namespace SentSaved

variable {orders : TaskOrders} {s s' : Session} {l : SessionAction}

theorem init : SentSaved {} where
  texts _ := .refl _
  mode h := absurd h (by decide)
  timer := .init
  sends := ⟨fun h => absurd h (by decide), fun h => absurd h (by decide)⟩

/-- The texts. What changes one sets the flag, or the condition excludes it. -/
theorem texts_step (h : SentSaved s) (hcond : KeepsSaved s l)
    (hstep : (session orders).step s l s') :
    s'.unsavedChanges = false → s'.tS.SameTexts s'.savedSpec := by
  cases l with
  | loadConfig proceed loaded vte =>
    rcases Session.loadConfig_cases hstep with rfl | ⟨-, -, rfl⟩
    · exact h.texts
    · exact h.texts
  | save written =>
    rcases Session.save_cases hstep with rfl | ⟨-, -, -, rfl⟩
    · exact h.texts
    · exact fun _ => .refl s.tS
  | openFile proceed lines =>
    rcases Session.openFile_cases hstep with rfl | ⟨tS', hconv, rfl⟩ | ⟨-, -, tS', rfl⟩
    · exact h.texts
    · -- the condition leaves only an open that has stopped early
      intro hflag
      have hclean : s.unsavedChanges = false := hflag
      show tS'.SameTexts s.savedSpec
      rw [Saved.openTaskSpec (hcond.text hclean) hconv]
      exact h.texts hclean
    · exact fun _ => .refl tS'
  | add sel =>
    obtain ⟨-, hsel, rfl⟩ := hstep
    obtain ⟨tS', heq⟩ := s.add_eq orders hsel
    rw [heq]
    exact fun hflag => absurd hflag.symm Bool.false_ne_true
  | update pos sel =>
    obtain ⟨-, hsel, rfl⟩ := hstep
    rcases s.update_cases orders pos hsel with ⟨-, tS', heq⟩ | ⟨hnot, heq⟩
    · rw [heq]
      exact fun hflag => absurd hflag.symm Bool.false_ne_true
    · rw [heq]
      exact fun hflag => (hcond.text hflag hnot).sameTexts (h.texts hflag)
  | delete pos sel confirmed =>
    obtain ⟨-, -, rfl⟩ := hstep
    rcases s.delete_cases orders pos sel confirmed with ⟨-, -, tS', heq⟩ | ⟨hnot, heq⟩
    · rw [heq]
      exact fun hflag => absurd hflag.symm Bool.false_ne_true
    · rw [heq]
      exact fun hflag => (hcond.text hflag hnot).sameTexts (h.texts hflag)
  | up pos =>
    obtain ⟨-, rfl⟩ := hstep
    rcases s.up_cases orders pos with ⟨-, tS', heq⟩ | ⟨-, heq⟩
    · rw [heq]
      exact fun hflag => absurd hflag.symm Bool.false_ne_true
    · rw [heq]
      exact h.texts
  | down pos =>
    obtain ⟨-, rfl⟩ := hstep
    rcases s.down_cases orders pos with ⟨-, tS', heq⟩ | ⟨-, tS', heq, hsame⟩
    · rw [heq]
      exact fun hflag => absurd hflag.symm Bool.false_ne_true
    · rw [heq]
      intro hflag
      have hclean : s.unsavedChanges = false := hflag
      show tS'.SameTexts s.savedSpec
      rw [hsame (hcond.text hclean)]
      exact h.texts hclean
  | mark tripletIndex column =>
    obtain ⟨-, -, -, rfl⟩ := hstep
    exact fun hflag => (h.texts hflag).of_cleared (cleared_setTaskState orders _ _ _ _)
  | competitionFinished =>
    rcases Session.competitionFinished_cases hstep with rfl | ⟨-, -, -, rfl⟩
    · exact h.texts
    · exact fun hflag => (h.texts hflag).of_cleared (cleared_resetStates orders _ _)
  | controller a =>
    obtain ⟨-, mC', -, rfl⟩ := hstep
    exact h.texts

/-- No action of competition mode but an edit sets the flag. -/
theorem unsavedChanges_kept (hstep : (session orders).step s l s') (hedits : ¬ l.Edits)
    (hmode : s.mC.competitionMode = true) (hflag : s.unsavedChanges = false) :
    s'.unsavedChanges = false := by
  cases l with
  | loadConfig proceed loaded vte =>
    rcases Session.loadConfig_cases hstep with rfl | ⟨-, -, rfl⟩
    · exact hflag
    · exact hflag
  | save written =>
    rcases Session.save_cases hstep with rfl | ⟨-, -, -, rfl⟩
    · exact hflag
    · rfl
  | openFile _ _ => exact absurd (hstep.1.2.symm.trans hmode) Bool.false_ne_true
  | add _ | update _ _ | delete _ _ _ => exact absurd trivial hedits
  | up _ | down _ => exact absurd (hstep.1.2.symm.trans hmode) Bool.false_ne_true
  | mark tripletIndex column =>
    obtain ⟨-, -, -, rfl⟩ := hstep
    exact hflag
  | competitionFinished =>
    rcases Session.competitionFinished_cases hstep with rfl | ⟨-, -, -, rfl⟩
    · exact hflag
    · exact hflag
  | controller a =>
    obtain ⟨-, mC', -, rfl⟩ := hstep
    exact hflag

/-- Competition mode starts with the run, and the flag is not set then. -/
theorem mode_step (h : SentSaved s) (hcond : KeepsSaved s l)
    (hstep : (session orders).step s l s') :
    s'.mC.competitionMode = true → s'.unsavedChanges = false := by
  intro hmode'
  by_cases hmode : s.mC.competitionMode = true
  · have hedits : ¬ l.Edits := fun hl => Bool.false_ne_true ((hcond.edit hl).symm.trans hmode)
    exact unsavedChanges_kept hstep hedits hmode (h.mode hmode)
  · rcases Session.timing_step hstep with heq | ⟨a, haction, ha⟩
    · exact absurd ((congrArg TimerView.competitionMode heq).symm.trans hmode') hmode
    · by_cases hstart : a = .timerStart
      · subst hstart
        obtain rfl : l = .controller .timerStart := by
          cases l with
          | controller a => rw [Option.some.inj haction]
          | loadConfig _ _ _ | save _ | openFile _ _ | update _ _ | delete _ _ _
          | competitionFinished => cases haction
          | add _ | up _ | down _ | mark _ _ => cases haction
        have hflag := hcond.start rfl
        obtain ⟨-, mC', -, rfl⟩ := hstep
        exact hflag
      · exact absurd (TimerView.mode_started ha hstart hmode') hmode

theorem step (h : SentSaved s) (hcond : KeepsSaved s l) (hstep : (session orders).step s l s') :
    SentSaved s' where
  texts := h.texts_step hcond hstep
  mode := h.mode_step hcond hstep
  timer := Session.coherent_step hstep h.timer
  sends := by
    rcases Session.controller_step hstep with heq | ⟨a, -, ha⟩
    · rw [heq]
      exact h.sends
    · exact MainController.sendsInRun_step h.sends h.timer ha

end SentSaved

/-! ### Runs -/

end RefereeBox
