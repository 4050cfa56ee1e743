import RefereeBox.Model.Editing

/-! # The States of Tasks

  `setTaskState`, `resetStates` and `checkAllSubgoals` of `TaskSpec`: the marks
  of the referee during a run. The six cases of each switch are alike, up to
  one thing. No case of `resetStates` ends with a break, so the case of a
  competition falls through into those of all later ones.
-/

namespace RefereeBox

/-! ### One task -/

/-- `t.setState(f(t.getState()))`, for the six classes. -/
def BntTask.changeState (f : StateOfTask → StateOfTask) (t : BntTask) : BntTask :=
  { t with state := f t.state }

def BmtTask.changeState (f : StateOfTask → StateOfTask) (t : BmtTask) : BmtTask :=
  { t with state := f t.state }

def BttTask.changeState (f : StateOfTask → StateOfTask) (t : BttTask) : BttTask :=
  { t with state := f t.state }

def CttTask.changeState (f : StateOfTask → StateOfTask) (t : CttTask) : CttTask :=
  { t with state := f t.state }

def CbtTask.changeState (f : StateOfTask → StateOfTask) (t : CbtTask) : CbtTask :=
  { t with state := f t.state }

def PptTask.changeState (f : StateOfTask → StateOfTask) (t : PptTask) : PptTask :=
  { t with state := f t.state }

/-- `getState`. -/
def Task.getState : Task → StateOfTask
  | .bnt t => t.state
  | .bmt t => t.state
  | .btt t => t.state
  | .ctt t => t.state
  | .cbt t => t.state
  | .ppt t => t.state

/-- The same on a task of any class. -/
def Task.changeState (f : StateOfTask → StateOfTask) : Task → Task
  | .bnt t => .bnt (t.changeState f)
  | .bmt t => .bmt (t.changeState f)
  | .btt t => .btt (t.changeState f)
  | .ctt t => .ctt (t.changeState f)
  | .cbt t => .cbt (t.changeState f)
  | .ppt t => .ppt (t.changeState f)

/-- Setting a state changes a task that has another one, and no other task. -/
theorem Task.changeState_const_iff (state : StateOfTask) (t : Task) :
    t.changeState (fun _ => state) = t ↔ t.getState = state := by
  constructor
  · intro h
    rw [← h]
    cases t <;> rfl
  · rintro rfl
    cases t <;> rfl

/-- The state after a click into a column of the table: column 1 is `Passed`, the
    other one `Failed`. A second click takes the mark back. -/
def StateOfTask.click (column : Nat) (state : StateOfTask) : StateOfTask :=
  let newState := if column = 1 then StateOfTask.passed else .failed
  if state = newState then .init else newState

/-! ### The cases of the switches -/

namespace TaskBranch

variable {τ : Type} (b : TaskBranch τ) (changeState : (StateOfTask → StateOfTask) → τ → τ)

def setTaskState (tripletIndex column : Nat) (tS : TaskSpec) : Outcome × TaskSpec :=
  match (b.list tS)[tripletIndex]? with
  | none => (.threw .indexOutOfBounds, tS)
  | some tT =>
    (.done, b.setList tS ((b.list tS).set tripletIndex (changeState (·.click column) tT)))

def resetStates (tS : TaskSpec) : TaskSpec :=
  b.setList tS ((b.list tS).map (changeState fun _ => .init))

end TaskBranch

/-! ### The operations -/

namespace TaskSpec

variable (orders : TaskOrders)

def setTaskState (tripletIndex column : Nat) (compIdent : CompetitionIdentifier) (tS : TaskSpec) :
    Outcome × TaskSpec :=
  match compIdent with
  | .bnt => bntBranch.setTaskState BntTask.changeState tripletIndex column tS
  | .bmt => bmtBranch.setTaskState BmtTask.changeState tripletIndex column tS
  | .btt => bttBranch.setTaskState BttTask.changeState tripletIndex column tS
  | .ctt => cttBranch.setTaskState CttTask.changeState tripletIndex column tS
  | .cbt => (cbtBranch orders).setTaskState CbtTask.changeState tripletIndex column tS
  | .ppt => (pptBranch orders).setTaskState PptTask.changeState tripletIndex column tS

/-- The case of one competition. -/
def resetCase (compIdent : CompetitionIdentifier) (tS : TaskSpec) : TaskSpec :=
  match compIdent with
  | .bnt => bntBranch.resetStates BntTask.changeState tS
  | .bmt => bmtBranch.resetStates BmtTask.changeState tS
  | .btt => bttBranch.resetStates BttTask.changeState tS
  | .ctt => cttBranch.resetStates CttTask.changeState tS
  | .cbt => (cbtBranch orders).resetStates CbtTask.changeState tS
  | .ppt => (pptBranch orders).resetStates PptTask.changeState tS

/-- The cases from that of the competition on, in the order of the switch. -/
def casesFrom : CompetitionIdentifier → List CompetitionIdentifier
  | .bnt => [.bnt, .bmt, .btt, .ctt, .cbt, .ppt]
  | .bmt => [.bmt, .btt, .ctt, .cbt, .ppt]
  | .btt => [.btt, .ctt, .cbt, .ppt]
  | .ctt => [.ctt, .cbt, .ppt]
  | .cbt => [.cbt, .ppt]
  | .ppt => [.ppt]

def resetStates (compIdent : CompetitionIdentifier) (tS : TaskSpec) : TaskSpec :=
  (casesFrom compIdent).foldl (fun tS c => tS.resetCase orders c) tS

/-- No task of the competition is still without a mark. -/
def checkAllSubgoals (compIdent : CompetitionIdentifier) (tS : TaskSpec) : Bool :=
  (tS.tasks compIdent).all fun tT => tT.getState ≠ .init

end TaskSpec

end RefereeBox
