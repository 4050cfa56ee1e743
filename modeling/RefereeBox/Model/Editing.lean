import RefereeBox.Model.Tasks

/-! # Editing a Task Specification

  `addTask`, `deleteTask`, `moveUp`, `moveDown` and `updateTask` of
  `TaskSpec`. Each is a switch over the competitions whose cases are alike:
  they work on the list of their competition, cast the given task to its
  class, and sort afterwards (BNT and BMT do not). `TaskBranch` holds what
  differs. Two cases of CTT use the BTT list: the bound test of `moveDown`,
  and the sort of `updateTask`.

  An operation changes the list as it goes on, so an exception leaves what
  has been done so far.
-/

namespace RefereeBox

/-! ### Tasks of all classes -/

/-- The interface `Task` and its six classes. -/
inductive Task where
  | bnt (t : BntTask)
  | bmt (t : BmtTask)
  | btt (t : BttTask)
  | ctt (t : CttTask)
  | cbt (t : CbtTask)
  | ppt (t : PptTask)
deriving DecidableEq, Repr

/-- The competition of the task's class. -/
def Task.competition : Task → CompetitionIdentifier
  | .bnt _ => .bnt
  | .bmt _ => .bmt
  | .btt _ => .btt
  | .ctt _ => .ctt
  | .cbt _ => .cbt
  | .ppt _ => .ppt

/-- The tasks of a competition, in the order of its list. -/
def TaskSpec.tasks (tS : TaskSpec) : CompetitionIdentifier → List Task
  | .bnt => tS.bntTaskList.map .bnt
  | .bmt => tS.bmtTaskList.map .bmt
  | .btt => tS.bttTaskList.map .btt
  | .ctt => tS.cttTaskList.map .ctt
  | .cbt => tS.cbtTaskList.map .cbt
  | .ppt => tS.pptTaskList.map .ppt

/-- The `compareTo` methods of the two classes that are not part of the
    repository. -/
structure TaskOrders where
  cbt : CbtTask → CbtTask → Int
  ppt : PptTask → PptTask → Int

/-! ### The cases of the switches -/

/-- What the cases of one competition work on: its list in the state, the
    cast to its class, and the sort behind a change. -/
structure TaskBranch (τ : Type) where
  list : TaskSpec → List τ
  setList : TaskSpec → List τ → TaskSpec
  cast : Task → Option τ
  task : τ → Task
  sort : List τ → List τ

def bntBranch : TaskBranch BntTask where
  list tS := tS.bntTaskList
  setList tS l := { tS with bntTaskList := l }
  cast task := match task with | .bnt t => some t | _ => none
  task := .bnt
  sort := id

def bmtBranch : TaskBranch BmtTask where
  list tS := tS.bmtTaskList
  setList tS l := { tS with bmtTaskList := l }
  cast task := match task with | .bmt t => some t | _ => none
  task := .bmt
  sort := id

def bttBranch : TaskBranch BttTask where
  list tS := tS.bttTaskList
  setList tS l := { tS with bttTaskList := l }
  cast task := match task with | .btt t => some t | _ => none
  task := .btt
  sort := Java.sort BttTask.compareTo

def cttBranch : TaskBranch CttTask where
  list tS := tS.cttTaskList
  setList tS l := { tS with cttTaskList := l }
  cast task := match task with | .ctt t => some t | _ => none
  task := .ctt
  sort := Java.sort CttTask.compareTo

def cbtBranch (orders : TaskOrders) : TaskBranch CbtTask where
  list tS := tS.cbtTaskList
  setList tS l := { tS with cbtTaskList := l }
  cast task := match task with | .cbt t => some t | _ => none
  task := .cbt
  sort := Java.sort orders.cbt

def pptBranch (orders : TaskOrders) : TaskBranch PptTask where
  list tS := tS.pptTaskList
  setList tS l := { tS with pptTaskList := l }
  cast task := match task with | .ppt t => some t | _ => none
  task := .ppt
  sort := Java.sort orders.ppt

/-- How an operation ends. -/
inductive Outcome where
  /-- A void method returns. -/
  | done
  /-- A task is returned, or null. -/
  | returned (t : Option Task)
  | threw (e : Exn)
deriving DecidableEq, Repr

namespace TaskBranch

variable {τ : Type} (b : TaskBranch τ)

def addTask (task : Task) (tS : TaskSpec) : Outcome × TaskSpec :=
  match b.cast task with
  | none => (.threw .classCast, tS)
  | some t => (.done, b.setList tS (b.sort (b.list tS ++ [t])))

def deleteTask (pos : Nat) (tS : TaskSpec) : Outcome × TaskSpec :=
  match (b.list tS)[pos]? with
  | none => (.threw .indexOutOfBounds, tS)
  | some t => (.returned (some (b.task t)), b.setList tS (b.sort ((b.list tS).eraseIdx pos)))

/-- `add(pos, t)` behind `remove`, which left `removed`. -/
def insert (pos : Nat) (t : τ) (removed : List τ) (tS : TaskSpec) : Outcome × TaskSpec :=
  if pos ≤ removed.length then
    (.returned (some (b.task t)), b.setList tS (b.sort (removed.insertIdx pos t)))
  else (.threw .indexOutOfBounds, b.setList tS removed) -- the task is lost

def moveUp (pos : Nat) (tS : TaskSpec) : Outcome × TaskSpec :=
  if pos = 0 then (.returned none, tS)
  else
    match (b.list tS)[pos]? with
    | none => (.threw .indexOutOfBounds, tS)
    | some t => b.insert (pos - 1) t ((b.list tS).eraseIdx pos) tS

/-- `size` is the size that the bound test reads. -/
def moveDown (size : Nat) (pos : Nat) (tS : TaskSpec) : Outcome × TaskSpec :=
  if size = pos + 1 then (.returned none, tS)
  else
    match (b.list tS)[pos]? with
    | none => (.threw .indexOutOfBounds, tS)
    | some t => b.insert (pos + 1) t ((b.list tS).eraseIdx pos) tS

/-- `resort` is the sort behind `set`. -/
def updateTask (resort : TaskSpec → TaskSpec) (pos : Nat) (task : Task) (tS : TaskSpec) :
    Outcome × TaskSpec :=
  match b.cast task with
  | none => (.threw .classCast, tS)
  | some t =>
    match (b.list tS)[pos]? with
    | none => (.threw .indexOutOfBounds, tS)
    | some old =>
      (.returned (some (b.task old)), resort (b.setList tS ((b.list tS).set pos t)))

/-- Sort the branch's own list. -/
def resort (tS : TaskSpec) : TaskSpec := b.setList tS (b.sort (b.list tS))

end TaskBranch

/-! ### The operations -/

namespace TaskSpec

variable (orders : TaskOrders)

def addTask (compIdent : CompetitionIdentifier) (task : Task) (tS : TaskSpec) :
    Outcome × TaskSpec :=
  match compIdent with
  | .bnt => bntBranch.addTask task tS
  | .bmt => bmtBranch.addTask task tS
  | .btt => bttBranch.addTask task tS
  | .ctt => cttBranch.addTask task tS
  | .cbt => (cbtBranch orders).addTask task tS
  | .ppt => (pptBranch orders).addTask task tS

def deleteTask (pos : Nat) (compIdent : CompetitionIdentifier) (tS : TaskSpec) :
    Outcome × TaskSpec :=
  match compIdent with
  | .bnt => bntBranch.deleteTask pos tS
  | .bmt => bmtBranch.deleteTask pos tS
  | .btt => bttBranch.deleteTask pos tS
  | .ctt => cttBranch.deleteTask pos tS
  | .cbt => (cbtBranch orders).deleteTask pos tS
  | .ppt => (pptBranch orders).deleteTask pos tS

def moveUp (pos : Nat) (compIdent : CompetitionIdentifier) (tS : TaskSpec) :
    Outcome × TaskSpec :=
  match compIdent with
  | .bnt => bntBranch.moveUp pos tS
  | .bmt => bmtBranch.moveUp pos tS
  | .btt => bttBranch.moveUp pos tS
  | .ctt => cttBranch.moveUp pos tS
  | .cbt => (cbtBranch orders).moveUp pos tS
  | .ppt => (pptBranch orders).moveUp pos tS

def moveDown (pos : Nat) (compIdent : CompetitionIdentifier) (tS : TaskSpec) :
    Outcome × TaskSpec :=
  match compIdent with
  | .bnt => bntBranch.moveDown tS.bntTaskList.length pos tS
  | .bmt => bmtBranch.moveDown tS.bmtTaskList.length pos tS
  | .btt => bttBranch.moveDown tS.bttTaskList.length pos tS
  | .ctt => cttBranch.moveDown tS.bttTaskList.length pos tS -- the size of the BTT list
  | .cbt => (cbtBranch orders).moveDown tS.cbtTaskList.length pos tS
  | .ppt => (pptBranch orders).moveDown tS.pptTaskList.length pos tS

def updateTask (pos : Nat) (task : Task) (compIdent : CompetitionIdentifier) (tS : TaskSpec) :
    Outcome × TaskSpec :=
  match compIdent with
  | .bnt => bntBranch.updateTask id pos task tS
  | .bmt => bmtBranch.updateTask id pos task tS
  | .btt => bttBranch.updateTask bttBranch.resort pos task tS
  | .ctt => cttBranch.updateTask bttBranch.resort pos task tS -- the BTT list is sorted
  | .cbt => (cbtBranch orders).updateTask (cbtBranch orders).resort pos task tS
  | .ppt => (pptBranch orders).updateTask (pptBranch orders).resort pos task tS

end TaskSpec

end RefereeBox
