import RefereeBox.Editing.Outcomes
import RefereeBox.Model.Session

/-! # What the Actions of a Session Do

  One lemma for each action on the specification: when it counts as a change,
  and what it leaves of the session. Add always does; Up, Down, Update and
  Delete do where the operation behind them applies. An action that does not
  count leaves the session alone, except that Update and Delete have written
  the static fields of BMT by then, and that Down may lose a CTT task. The
  files and the end of a competition come last.
-/

namespace RefereeBox

open Loop Transition

/-! ### The selection -/

namespace Selection

variable (sel : Selection) (tS : TaskSpec)

@[simp] theorem getSelectedTask_competition :
    (sel.getSelectedTask tS).1.competition = sel.competition := by
  cases sel <;> rfl

/-- Reading the boxes leaves the lists alone. -/
@[simp] theorem getSelectedTask_tasks (c : CompetitionIdentifier) :
    (sel.getSelectedTask tS).2.tasks c = tS.tasks c := by
  cases sel <;> cases c <;> rfl

end Selection

/-! ### The actions -/

namespace Session

variable (s : Session)

/-- What `f` makes of the result of an operation: `changed` if a task has been
    returned, and else nothing but the specification behind the operation. -/
structure Counts (f : Outcome × TaskSpec → Session) (changed : TaskSpec → Session) : Prop where
  returned_some : ∀ t tS', f (.returned (some t), tS') = changed tS'
  returned_none : ∀ tS', f (.returned none, tS') = { s with tS := tS' }
  threw : ∀ e tS', f (.threw e, tS') = { s with tS := tS' }

theorem moved_counts : s.Counts s.moved fun tS' => { s with tS := tS', unsavedChanges := true } :=
  ⟨fun _ _ => rfl, fun _ => rfl, fun _ _ => rfl⟩

theorem edited_counts : s.Counts s.edited fun tS' => { s with tS := tS' }.setUnsavedChanges :=
  ⟨fun _ _ => rfl, fun _ => rfl, fun _ _ => rfl⟩

section

variable {s} {f : Outcome × TaskSpec → Session} {changed : TaskSpec → Session}

theorem Counts.result (h : s.Counts f changed) {r : Outcome × TaskSpec} (hdone : r.1 ≠ .done) :
    (r.1.succeeds = true ∧ f r = changed r.2) ∨
      (r.1.succeeds = false ∧ f r = { s with tS := r.2 }) := by
  -- only a returned task counts
  obtain ⟨outcome, tS'⟩ := r
  cases outcome with
  | done => exact absurd rfl hdone
  | returned t =>
    cases t with
    | none => exact Or.inr ⟨rfl, h.returned_none tS'⟩
    | some t => exact Or.inl ⟨rfl, h.returned_some t tS'⟩
  | threw e => exact Or.inr ⟨rfl, h.threw e tS'⟩

/-- What an action makes of an operation on a state `tS`. -/
theorem Counts.edit (h : s.Counts f changed) (orders : TaskOrders) (tS : TaskSpec) {op : EditOp}
    (hop : ∀ task, op ≠ .add task) :
    (op.Applies s.mC.compIdent tS ∧
        ∃ tS', f (tS.edit orders s.mC.compIdent op) = changed tS') ∨
      (¬ op.Applies s.mC.compIdent tS ∧
        ∃ tS', f (tS.edit orders s.mC.compIdent op) = { s with tS := tS' } ∧
          (¬ LosesLast tS s.mC.compIdent op → tS' = tS)) := by
  -- the operation succeeds exactly where it applies, and then the action counts
  have hresult := h.result (edit_ne_done orders tS s.mC.compIdent hop)
  rcases edit_cases orders tS s.mC.compIdent op with ⟨happlies, hsucceeds⟩ | ⟨hnot, hfails, hsame⟩
  · rcases hresult with ⟨-, heq⟩ | ⟨hfails, -⟩
    · exact Or.inl ⟨happlies, _, heq⟩
    · exact absurd (hsucceeds.symm.trans hfails) (by decide)
  · rcases hresult with ⟨hsucceeds, -⟩ | ⟨-, heq⟩
    · exact absurd (hsucceeds.symm.trans hfails) (by decide)
    · exact Or.inr ⟨hnot, _, heq, hsame⟩

end

/-- Add changes the specification and sets the flag. -/
theorem add_eq (orders : TaskOrders) {sel : Selection} (hsel : sel.competition = s.mC.compIdent) :
    ∃ tS', s.add orders sel = { s with tS := tS', unsavedChanges := true } := by
  have hlast : ¬ LosesLast (sel.getSelectedTask s.tS).2 s.mC.compIdent
      (.add (sel.getSelectedTask s.tS).1) := EditOp.not_losesLast _ (by simp)
  have happlies : EditOp.Applies s.mC.compIdent (sel.getSelectedTask s.tS).2
      (.add (sel.getSelectedTask s.tS).1) := (sel.getSelectedTask_competition s.tS).trans hsel
  have hsucceeds := (edit_allOrNothing orders hlast).1 happlies
  unfold Session.add
  dsimp only [TaskSpec.edit] at hsucceeds ⊢
  split
  · next e tS' heq =>
    -- a throwing operation does not succeed
    rw [heq] at hsucceeds
    exact absurd hsucceeds Bool.false_ne_true
  · exact ⟨_, rfl⟩

/-- Up sets the flag where it applies, and does nothing elsewhere. -/
theorem up_cases (orders : TaskOrders) (pos : Nat) :
    (EditOp.Applies s.mC.compIdent s.tS (.moveUp pos) ∧
        ∃ tS', s.up orders pos = { s with tS := tS', unsavedChanges := true }) ∨
      (¬ EditOp.Applies s.mC.compIdent s.tS (.moveUp pos) ∧ s.up orders pos = s) := by
  have hop : ∀ task, EditOp.moveUp pos ≠ .add task := fun task h => by cases h
  have hlast : ¬ LosesLast s.tS s.mC.compIdent (.moveUp pos) := EditOp.not_losesLast _ (by simp)
  rcases s.moved_counts.edit orders s.tS hop with hchanged | ⟨hnot, tS', heq, hsame⟩
  · exact Or.inl hchanged
  · rw [hsame hlast] at heq
    exact Or.inr ⟨hnot, heq⟩

/-- So does Down, unless it loses a CTT task. -/
theorem down_cases (orders : TaskOrders) (pos : Nat) :
    (EditOp.Applies s.mC.compIdent s.tS (.moveDown pos) ∧
        ∃ tS', s.down orders pos = { s with tS := tS', unsavedChanges := true }) ∨
      (¬ EditOp.Applies s.mC.compIdent s.tS (.moveDown pos) ∧
        ∃ tS', s.down orders pos = { s with tS := tS' } ∧
          (¬ LosesLast s.tS s.mC.compIdent (.moveDown pos) → tS' = s.tS)) :=
  s.moved_counts.edit orders s.tS fun task h => by cases h

/-- Update sets the flag and disables the timer button where there is a row.
    Elsewhere only the boxes have been read. -/
theorem update_cases (orders : TaskOrders) (pos : Nat) {sel : Selection}
    (hsel : sel.competition = s.mC.compIdent) :
    (pos < (s.tS.tasks s.mC.compIdent).length ∧
        ∃ tS', s.update orders pos sel = { s with tS := tS' }.setUnsavedChanges) ∨
      (¬ pos < (s.tS.tasks s.mC.compIdent).length ∧
        s.update orders pos sel = { s with tS := (sel.getSelectedTask s.tS).2 }) := by
  have hop : ∀ task, EditOp.update pos (sel.getSelectedTask s.tS).1 ≠ .add task :=
    fun task h => by cases h
  have hlast : ¬ LosesLast (sel.getSelectedTask s.tS).2 s.mC.compIdent
      (.update pos (sel.getSelectedTask s.tS).1) := EditOp.not_losesLast _ (by simp)
  have happlies : EditOp.Applies s.mC.compIdent (sel.getSelectedTask s.tS).2
      (.update pos (sel.getSelectedTask s.tS).1) ↔ pos < (s.tS.tasks s.mC.compIdent).length := by
    show (sel.getSelectedTask s.tS).1.competition = _ ∧ _ ↔ _
    rw [sel.getSelectedTask_competition, sel.getSelectedTask_tasks, and_iff_right hsel]
  -- reading the boxes has not changed the list
  rw [← happlies]
  rcases s.edited_counts.edit orders (sel.getSelectedTask s.tS).2 hop with
    hchanged | ⟨hnot, tS', heq, hsame⟩
  · exact Or.inl hchanged
  · rw [hsame hlast] at heq
    exact Or.inr ⟨hnot, heq⟩

/-- So does Delete, if it is confirmed. -/
theorem delete_cases (orders : TaskOrders) (pos : Nat) (sel : Selection) (confirmed : Bool) :
    (confirmed = true ∧ pos < (s.tS.tasks s.mC.compIdent).length ∧
        ∃ tS', s.delete orders pos sel confirmed = { s with tS := tS' }.setUnsavedChanges) ∨
      (¬ (confirmed = true ∧ pos < (s.tS.tasks s.mC.compIdent).length) ∧
        s.delete orders pos sel confirmed = { s with tS := (sel.getSelectedTask s.tS).2 }) := by
  have hop : ∀ task, EditOp.delete pos ≠ .add task := fun task h => by cases h
  have hlast : ¬ LosesLast (sel.getSelectedTask s.tS).2 s.mC.compIdent (.delete pos) :=
    EditOp.not_losesLast _ (by simp)
  -- the boxes are read before the question is asked
  unfold Session.delete
  dsimp only
  by_cases hconfirmed : confirmed = true
  · rw [if_pos hconfirmed]
    rcases s.edited_counts.edit orders (sel.getSelectedTask s.tS).2 hop with
      ⟨happlies, hchanged⟩ | ⟨hnot, tS', heq, hsame⟩
    · have hpos : pos < ((sel.getSelectedTask s.tS).2.tasks s.mC.compIdent).length := happlies
      rw [sel.getSelectedTask_tasks] at hpos
      exact Or.inl ⟨hconfirmed, hpos, hchanged⟩
    · rw [hsame hlast] at heq
      refine Or.inr ⟨fun h => hnot ?_, heq⟩
      show pos < ((sel.getSelectedTask s.tS).2.tasks s.mC.compIdent).length
      rw [sel.getSelectedTask_tasks]
      exact h.2
  · rw [if_neg hconfirmed]
    exact Or.inr ⟨fun h => hconfirmed h.1, rfl⟩

/-! ### Files and the end of a competition -/

section

variable {s s' : Session} {orders : TaskOrders}

theorem loadConfig_cases {proceed loaded : Bool} {vte : ValidTaskElements}
    (hstep : (session orders).step s (.loadConfig proceed loaded vte) s') :
    s' = s ∨ (s.mC.call = .idle ∧ s.mC.mG.loadConfigButton = true ∧
      s' = { s with mC := s.mC.loadConfig loaded, vte := vte }) := by
  obtain ⟨hidle, hbutton, rfl⟩ := hstep
  by_cases hdeclines : s.Declines proceed
  · exact Or.inl (if_pos hdeclines)
  · exact Or.inr ⟨hidle, hbutton, if_neg hdeclines⟩

theorem save_cases {written : Bool} (hstep : (session orders).step s (.save written) s') :
    s' = s ∨ (written = true ∧ s.mC.call = .idle ∧ s.mC.mG.saveButton = true ∧
      s' = s.setSavedChanges) := by
  obtain ⟨hidle, hbutton, hsaved⟩ := hstep
  cases written with
  | false => exact Or.inl hsaved
  | true => exact Or.inr ⟨rfl, hidle, hbutton, hsaved.2⟩

/-- An open is declined, fails with what the first lines have loaded, or is
    complete. -/
theorem openFile_cases {proceed : Bool} {lines : List Text}
    (hstep : (session orders).step s (.openFile proceed lines) s') :
    s' = s ∨
      (∃ tS', Converges (s.tS.openTaskSpec s.vte lines) (false, tS') ∧
        s' = { s with tS := tS' }) ∨
      (s.Editable ∧ s.mC.mG.saveButton = true ∧ ∃ tS', s' = s.opened true tS') := by
  obtain ⟨heditable, hbutton, hopened⟩ := hstep
  by_cases hdeclines : s.Declines proceed
  · rw [if_pos hdeclines] at hopened
    exact Or.inl hopened
  · rw [if_neg hdeclines] at hopened
    obtain ⟨result, tS', hconv, rfl⟩ := hopened
    cases result with
    | false => exact Or.inr (Or.inl ⟨tS', hconv, rfl⟩)
    | true => exact Or.inr (Or.inr ⟨heditable, hbutton, tS', rfl⟩)

theorem competitionFinished_cases (hstep : (session orders).step s .competitionFinished s') :
    s' = s ∨ (s.mC.call = .idle ∧ s.mC.mG.competitionFinishedButton = true ∧
      s.tS.checkAllSubgoals s.mC.compIdent = true ∧
      s' = { s with
        mC := s.mC.competitionFinished
        tS := s.tS.resetStates orders s.mC.compIdent }) := by
  obtain ⟨hidle, hbutton, rfl⟩ := hstep
  by_cases hchecked : s.tS.checkAllSubgoals s.mC.compIdent = true
  · exact Or.inr ⟨hidle, hbutton, hchecked, if_pos hchecked⟩
  · exact Or.inl (if_neg hchecked)

end

end Session

end RefereeBox
