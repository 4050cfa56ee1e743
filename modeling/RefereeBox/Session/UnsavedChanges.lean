import RefereeBox.Session.Actions
import RefereeBox.Session.SharedPlaces
import RefereeBox.Text.Rejection

/-! # The Flag of Unsaved Changes

  As long as the flag `unsavedChanges` is not set, every text of the
  specification is to be the one that was saved or opened last. Three kinds of
  actions change a text without setting the flag: an open that fails behind
  its first lines, a deletion that is declined or an update without a row once
  the boxes of the BMT panel have been read, and Down when it loses a CTT task.
  Without them the flag is sound (`KeepsText`).
-/

namespace RefereeBox

open Loop Transition

/-! ### Specifications with the same texts -/

/-- The specifications differ at most in static fields that no BMT task shows. -/
def TaskSpec.Agrees (tS saved : TaskSpec) : Prop :=
  ∃ statics, tS = { saved with bmtStatics := statics } ∧
    (statics = saved.bmtStatics ∨ saved.bmtTaskList = [])

theorem TaskSpec.Agrees.refl (tS : TaskSpec) : tS.Agrees tS :=
  ⟨tS.bmtStatics, rfl, Or.inl rfl⟩

theorem TaskSpec.Agrees.text {tS saved : TaskSpec} (h : tS.Agrees saved)
    (c : CompetitionIdentifier) : tS.getTaskSpecString c = saved.getTaskSpecString c := by
  obtain ⟨statics, rfl, hstatics⟩ := h
  rcases hstatics with rfl | hempty
  · rfl
  · cases c with
    | bmt =>
      -- the static fields are printed with the first task
      show pure ((bmtString statics saved.bmtTaskList).map _) =
        pure ((bmtString saved.bmtStatics saved.bmtTaskList).map _)
      rw [hempty]
      rfl
    | bnt | btt | ctt | cbt | ppt => rfl

/-! ### The condition -/

/-- The boxes select what the static fields hold, or there is no BMT task. -/
def Session.KeepsPlaces (s : Session) : Selection → Prop
  | .bmt places _ => places = s.tS.bmtStatics ∨ s.tS.bmtTaskList = []
  | _ => True

/-- The actions that prepare a specification: all but the marks of the referee and
    the end of a competition. -/
def SessionAction.Prepares : SessionAction → Prop
  | .mark _ _ | .competitionFinished => False
  | _ => True

/-- With no unsaved changes, a file is opened only if all its lines are accepted
    or it stops early; Update and Delete leave the places alone where they change
    no task; and Down does not lose the last CTT task. -/
def KeepsText (s : Session) : SessionAction → Prop
  | .openFile _ lines => s.unsavedChanges = false →
      (∀ line ∈ lines, Accepted s.vte line) ∨ StopsEarly lines
  | .update pos sel => s.unsavedChanges = false →
      ¬ pos < (s.tS.tasks s.mC.compIdent).length → s.KeepsPlaces sel
  | .delete pos sel confirmed => s.unsavedChanges = false →
      ¬ (confirmed = true ∧ pos < (s.tS.tasks s.mC.compIdent).length) → s.KeepsPlaces sel
  | .down pos => s.unsavedChanges = false → ¬ LosesLast s.tS s.mC.compIdent (.moveDown pos)
  | _ => True

/-- The invariant: without unsaved changes the specification agrees with the saved
    one. -/
def Saved (s : Session) : Prop := s.unsavedChanges = false → s.tS.Agrees s.savedSpec

/-- Reading the boxes keeps the agreement. -/
theorem Session.KeepsPlaces.agrees {s : Session} {sel : Selection} (h : s.KeepsPlaces sel)
    (hsaved : s.tS.Agrees s.savedSpec) : (sel.getSelectedTask s.tS).2.Agrees s.savedSpec := by
  cases sel with
  | bmt places object =>
    -- only the static fields may differ from the saved ones
    obtain ⟨statics, heq, hstatics⟩ := hsaved
    have hlist : s.tS.bmtTaskList = s.savedSpec.bmtTaskList := by rw [heq]
    have hold : s.tS.bmtStatics = statics := by rw [heq]
    refine ⟨places, ?_, ?_⟩
    · show { s.tS with bmtStatics := places } = _
      rw [heq]
    · rcases h with rfl | hempty
      · rw [hold]
        exact hstatics
      · exact Or.inr (hlist.symm.trans hempty)
  | bnt _ _ _ | btt _ _ _ _ | ctt _ _ _ _ | cbt _ | ppt _ => exact hsaved

namespace Saved

variable {orders : TaskOrders} {s s' : Session}

/-- An open that fails in spite of the condition has stopped early. -/
theorem openTaskSpec {vte : ValidTaskElements} {tS tS' : TaskSpec} {lines : List Text}
    (hcond : (∀ line ∈ lines, Accepted vte line) ∨ StopsEarly lines)
    (hconv : Converges (tS.openTaskSpec vte lines) (false, tS')) : tS' = tS := by
  -- an open gives the same result in every state
  obtain ⟨result, f, hopens, hresult, -, hearly⟩ := exists_openTaskSpec vte lines
  obtain ⟨rfl, rfl⟩ := Prod.mk.inj (hconv.unique (hopens tS))
  rcases hcond with haccepted | hstops
  · exact absurd (hresult.mpr haccepted) Bool.false_ne_true
  · exact (hearly rfl).mpr hstops tS

theorem step (h : Saved s) {l : SessionAction} (hprepares : l.Prepares) (hcond : KeepsText s l)
    (hstep : (session orders).step s l s') : Saved s' := by
  -- what changes a text sets the flag, or the condition excludes it
  cases l with
  | loadConfig proceed loaded vte =>
    rcases Session.loadConfig_cases hstep with rfl | ⟨-, -, rfl⟩
    · exact h
    · exact h
  | save written =>
    rcases Session.save_cases hstep with rfl | ⟨-, -, -, rfl⟩
    · exact h
    · exact fun _ => TaskSpec.Agrees.refl s.tS
  | openFile proceed lines =>
    rcases Session.openFile_cases hstep with rfl | ⟨tS', hconv, rfl⟩ | ⟨-, -, tS', rfl⟩
    · exact h
    · -- the condition leaves only an open that has stopped early
      intro hflag
      have hclean : s.unsavedChanges = false := hflag
      show tS'.Agrees s.savedSpec
      rw [openTaskSpec (hcond hclean) hconv]
      exact h hclean
    · exact fun _ => TaskSpec.Agrees.refl tS'
  | add sel =>
    obtain ⟨-, hsel, rfl⟩ := hstep
    obtain ⟨tS', heq⟩ := s.add_eq orders hsel
    rw [heq]
    exact fun hflag => absurd hflag.symm Bool.false_ne_true
  | update pos sel =>
    obtain ⟨-, hsel, rfl⟩ := hstep
    rcases s.update_cases orders pos hsel with ⟨-, tS', heq⟩ | ⟨hnot, heq⟩
    · rw [heq]
      exact fun hflag => absurd hflag.symm Bool.false_ne_true
    · rw [heq]
      exact fun hflag => (hcond hflag hnot).agrees (h hflag)
  | delete pos sel confirmed =>
    obtain ⟨-, -, rfl⟩ := hstep
    rcases s.delete_cases orders pos sel confirmed with ⟨-, -, tS', heq⟩ | ⟨hnot, heq⟩
    · rw [heq]
      exact fun hflag => absurd hflag.symm Bool.false_ne_true
    · rw [heq]
      exact fun hflag => (hcond hflag hnot).agrees (h hflag)
  | up pos =>
    obtain ⟨-, rfl⟩ := hstep
    rcases s.up_cases orders pos with ⟨-, tS', heq⟩ | ⟨-, heq⟩
    · rw [heq]
      exact fun hflag => absurd hflag.symm Bool.false_ne_true
    · rw [heq]
      exact h
  | down pos =>
    obtain ⟨-, rfl⟩ := hstep
    rcases s.down_cases orders pos with ⟨-, tS', heq⟩ | ⟨-, tS', heq, hsame⟩
    · rw [heq]
      exact fun hflag => absurd hflag.symm Bool.false_ne_true
    · rw [heq]
      intro hflag
      have hclean : s.unsavedChanges = false := hflag
      show tS'.Agrees s.savedSpec
      rw [hsame (hcond hclean)]
      exact h hclean
  | mark tripletIndex column => exact hprepares.elim
  | competitionFinished => exact hprepares.elim
  | controller a =>
    obtain ⟨-, mC', -, rfl⟩ := hstep
    exact h

end Saved

/-! ### Runs -/

end RefereeBox
