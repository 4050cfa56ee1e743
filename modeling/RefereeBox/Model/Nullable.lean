import RefereeBox.Lib.CheckedSort
import RefereeBox.Model.Encoder

/-! # Editing With Null Fields

  The box of a panel selects null while it is empty, as all boxes are before a
  configuration is loaded, so the fields of the tasks that Add and Update pass to
  `TaskSpec` are nullable. BNT and BMT print a null; BTT and CTT compare their
  situations, configurations and places in `compareTo` and look into the
  configuration in `getString`, and a null raises there. Both come behind the change
  of the list: `Collections.sort` (of Java 7, which sorts a copy) leaves it as it is
  when a comparison raises, and `getString` is called for the log and then, by the
  listeners, for each row of the table.

  This is the editing part of `TaskSpec`, on these classes. `CbtTask` and `PptTask` are
  the compiled ones of `RefereeBoxXML.jar`. The other modules speak of tasks whose
  fields are set; on those the operations are the same.
-/

namespace RefereeBox.Nullable

/-! ### Tasks -/

structure BmtTask where
  object : Option Text := some []
  state : StateOfTask := .init
deriving DecidableEq, Repr

/-- `compareTo` of two strings. -/
def compareTo {α : Type} (key : α → Option Text) (t u : α) : Except Exn Int :=
  CheckedSort.byKey .nullPointer Java.compareTo key t u

structure BttTask where
  situation : Option Text := some []
  configuration : Option Text := some []
  place : Option Text := some []
  object : Option Text := some []
  state : StateOfTask := .init
deriving DecidableEq, Repr

/-- Situations in descending order, then configuration, then place. -/
def BttTask.compareTo (t btt : BttTask) : Except Exn Int := do
  let i ← Nullable.compareTo BttTask.situation btt t
  if i ≠ 0 then pure i
  else
    let i ← Nullable.compareTo BttTask.configuration t btt
    if i ≠ 0 then pure i
    else Nullable.compareTo BttTask.place t btt

/-- The configuration is compared with a blank; the other fields are printed. -/
def BttTask.getString (t : BttTask) : Except Exn Text := do
  let configuration ← nonNull t.configuration
  if configuration = " ".toList then
    pure ("(".toList ++ printed t.situation ++ ",".toList ++ printed t.place ++ ",".toList ++
      printed t.object ++ ")".toList)
  else
    pure ("(".toList ++ printed t.situation ++ ",".toList ++ printed t.place ++ ",".toList ++
      configuration ++ ",".toList ++ printed t.object ++ ")".toList)

structure CttTask where
  situation : Option Text := some []
  configuration : Option Text := some []
  place : Option Text := some []
  object : Option Text := some []
  state : StateOfTask := .init
deriving DecidableEq, Repr

/-- Situations in ascending order, then configuration, then place. -/
def CttTask.compareTo (t ctt : CttTask) : Except Exn Int := do
  let i ← Nullable.compareTo CttTask.situation t ctt
  if i ≠ 0 then pure i
  else
    let i ← Nullable.compareTo CttTask.configuration t ctt
    if i ≠ 0 then pure i
    else Nullable.compareTo CttTask.place t ctt

def CttTask.getString (t : CttTask) : Except Exn Text := do
  let configuration ← nonNull t.configuration
  if configuration = " ".toList ∨ configuration = [] then
    pure ("(".toList ++ printed t.situation ++ ",".toList ++ printed t.place ++ ",".toList ++
      printed t.object ++ ")".toList)
  else
    pure ("(".toList ++ printed t.situation ++ ",".toList ++ printed t.place ++ ",".toList ++
      configuration ++ ",".toList ++ printed t.object ++ ")".toList)

structure CbtTask where
  place : Option Text := some []
  state : StateOfTask := .init
deriving DecidableEq, Repr

def CbtTask.compareTo : CbtTask → CbtTask → Except Exn Int := Nullable.compareTo CbtTask.place

def CbtTask.getString (t : CbtTask) : Text :=
  "(".toList ++ printed t.place ++ ")".toList

structure PptTask where
  source : Option Text := some []
  object : Option Text := some []
  destination : Option Text := some []
  state : StateOfTask := .init
deriving DecidableEq, Repr

def PptTask.compareTo : PptTask → PptTask → Except Exn Int := Nullable.compareTo PptTask.source

def PptTask.getString (t : PptTask) : Text :=
  "(".toList ++ printed t.source ++ ",".toList ++ printed t.object ++ ",".toList ++
    printed t.destination ++ ")".toList

/-- The interface `Task` and its six classes. -/
inductive Task where
  | bnt (t : BntTask)
  | bmt (t : BmtTask)
  | btt (t : BttTask)
  | ctt (t : CttTask)
  | cbt (t : CbtTask)
  | ppt (t : PptTask)
deriving DecidableEq, Repr

/-- The competition of the task's class. -/
def Task.competition : Task → CompetitionIdentifier
  | .bnt _ => .bnt
  | .bmt _ => .bmt
  | .btt _ => .btt
  | .ctt _ => .ctt
  | .cbt _ => .cbt
  | .ppt _ => .ppt

/-! ### The state -/

structure TaskSpec where
  bntTaskList : List BntTask := []
  bmtTaskList : List BmtTask := []
  bttTaskList : List BttTask := []
  cttTaskList : List CttTask := []
  cbtTaskList : List CbtTask := []
  pptTaskList : List PptTask := []
deriving DecidableEq, Repr

/-- The tasks of a competition, in the order of its list. -/
def TaskSpec.tasks (tS : TaskSpec) : CompetitionIdentifier → List Task
  | .bnt => tS.bntTaskList.map .bnt
  | .bmt => tS.bmtTaskList.map .bmt
  | .btt => tS.bttTaskList.map .btt
  | .ctt => tS.cttTaskList.map .ctt
  | .cbt => tS.cbtTaskList.map .cbt
  | .ppt => tS.pptTaskList.map .ppt

/-- How an operation ends. -/
inductive Outcome where
  /-- A void method returns. -/
  | done
  /-- A task is returned, or null. -/
  | returned (t : Option Task)
  | threw (e : Exn)
deriving DecidableEq, Repr

/-! ### The cases of the switches -/

/-- What the cases of one competition work with: the cast to its class, the sort
    behind a change, and the class's `getString`. -/
structure TaskBranch (τ : Type) where
  cast : Task → Option τ
  task : τ → Task
  sort : List τ → Except Exn (List τ)
  getString : τ → Except Exn Text

def bntBranch : TaskBranch BntTask where
  cast task := match task with | .bnt t => some t | _ => none
  task := .bnt
  sort := .ok
  getString t := .ok t.getString

def bmtBranch : TaskBranch BmtTask where
  cast task := match task with | .bmt t => some t | _ => none
  task := .bmt
  sort := .ok
  getString t := .ok (printed t.object)

def bttBranch : TaskBranch BttTask where
  cast task := match task with | .btt t => some t | _ => none
  task := .btt
  sort := CheckedSort.sort BttTask.compareTo
  getString := BttTask.getString

def cttBranch : TaskBranch CttTask where
  cast task := match task with | .ctt t => some t | _ => none
  task := .ctt
  sort := CheckedSort.sort CttTask.compareTo
  getString := CttTask.getString

def cbtBranch : TaskBranch CbtTask where
  cast task := match task with | .cbt t => some t | _ => none
  task := .cbt
  sort := CheckedSort.sort CbtTask.compareTo
  getString t := .ok t.getString

def pptBranch : TaskBranch PptTask where
  cast task := match task with | .ppt t => some t | _ => none
  task := .ppt
  sort := CheckedSort.sort PptTask.compareTo
  getString t := .ok t.getString

namespace TaskBranch

variable {τ : Type} (b : TaskBranch τ)

/-- `getString` of each task, with the first exception. -/
def print : List τ → Except Exn Unit
  | [] => .ok ()
  | t :: l => do
    let _ ← b.getString t
    print l

/-- What follows the sort: some tasks are printed into the log, and all of them into
    the table. -/
def report (outcome : Outcome) (logged l : List τ) : Outcome :=
  match b.print (logged ++ l) with
  | .ok () => outcome
  | .error e => .threw e

/-- What follows a change. -/
def finish (outcome : Outcome) (logged changed : List τ) : Outcome × List τ :=
  match b.sort changed with
  | .ok l => (b.report outcome logged l, l)
  | .error e => (.threw e, changed)

def addTask (task : Task) (l : List τ) : Outcome × List τ :=
  match b.cast task with
  | none => (.threw .classCast, l)
  | some t => b.finish .done [t] (l ++ [t])

def deleteTask (pos : Nat) (l : List τ) : Outcome × List τ :=
  match l[pos]? with
  | none => (.threw .indexOutOfBounds, l)
  | some t => b.finish (.returned (some (b.task t))) [t] (l.eraseIdx pos)

/-- `add(pos, t)` behind `remove`, which left `removed`. -/
def insert (pos : Nat) (t : τ) (removed : List τ) : Outcome × List τ :=
  if pos ≤ removed.length then
    b.finish (.returned (some (b.task t))) [t] (removed.insertIdx pos t)
  else (.threw .indexOutOfBounds, removed) -- the task is lost

def moveUp (pos : Nat) (l : List τ) : Outcome × List τ :=
  if pos = 0 then (.returned none, l)
  else
    match l[pos]? with
    | none => (.threw .indexOutOfBounds, l)
    | some t => b.insert (pos - 1) t (l.eraseIdx pos)

/-- `size` is the size that the bound test reads. -/
def moveDown (size : Nat) (pos : Nat) (l : List τ) : Outcome × List τ :=
  if size = pos + 1 then (.returned none, l)
  else
    match l[pos]? with
    | none => (.threw .indexOutOfBounds, l)
    | some t => b.insert (pos + 1) t (l.eraseIdx pos)

def updateTask (pos : Nat) (task : Task) (l : List τ) : Outcome × List τ :=
  match b.cast task with
  | none => (.threw .classCast, l)
  | some t =>
    match l[pos]? with
    | none => (.threw .indexOutOfBounds, l)
    | some old => b.finish (.returned (some (b.task old))) [old, t] (l.set pos t)

end TaskBranch

/-! ### The operations -/

namespace TaskSpec

/-- Put a list into the state. -/
def setBnt (tS : TaskSpec) (r : Outcome × List BntTask) : Outcome × TaskSpec :=
  (r.1, { tS with bntTaskList := r.2 })

def setBmt (tS : TaskSpec) (r : Outcome × List BmtTask) : Outcome × TaskSpec :=
  (r.1, { tS with bmtTaskList := r.2 })

def setBtt (tS : TaskSpec) (r : Outcome × List BttTask) : Outcome × TaskSpec :=
  (r.1, { tS with bttTaskList := r.2 })

def setCtt (tS : TaskSpec) (r : Outcome × List CttTask) : Outcome × TaskSpec :=
  (r.1, { tS with cttTaskList := r.2 })

def setCbt (tS : TaskSpec) (r : Outcome × List CbtTask) : Outcome × TaskSpec :=
  (r.1, { tS with cbtTaskList := r.2 })

def setPpt (tS : TaskSpec) (r : Outcome × List PptTask) : Outcome × TaskSpec :=
  (r.1, { tS with pptTaskList := r.2 })

def addTask (compIdent : CompetitionIdentifier) (task : Task) (tS : TaskSpec) :
    Outcome × TaskSpec :=
  match compIdent with
  | .bnt => tS.setBnt (bntBranch.addTask task tS.bntTaskList)
  | .bmt => tS.setBmt (bmtBranch.addTask task tS.bmtTaskList)
  | .btt => tS.setBtt (bttBranch.addTask task tS.bttTaskList)
  | .ctt => tS.setCtt (cttBranch.addTask task tS.cttTaskList)
  | .cbt => tS.setCbt (cbtBranch.addTask task tS.cbtTaskList)
  | .ppt => tS.setPpt (pptBranch.addTask task tS.pptTaskList)

def deleteTask (pos : Nat) (compIdent : CompetitionIdentifier) (tS : TaskSpec) :
    Outcome × TaskSpec :=
  match compIdent with
  | .bnt => tS.setBnt (bntBranch.deleteTask pos tS.bntTaskList)
  | .bmt => tS.setBmt (bmtBranch.deleteTask pos tS.bmtTaskList)
  | .btt => tS.setBtt (bttBranch.deleteTask pos tS.bttTaskList)
  | .ctt => tS.setCtt (cttBranch.deleteTask pos tS.cttTaskList)
  | .cbt => tS.setCbt (cbtBranch.deleteTask pos tS.cbtTaskList)
  | .ppt => tS.setPpt (pptBranch.deleteTask pos tS.pptTaskList)

def moveUp (pos : Nat) (compIdent : CompetitionIdentifier) (tS : TaskSpec) :
    Outcome × TaskSpec :=
  match compIdent with
  | .bnt => tS.setBnt (bntBranch.moveUp pos tS.bntTaskList)
  | .bmt => tS.setBmt (bmtBranch.moveUp pos tS.bmtTaskList)
  | .btt => tS.setBtt (bttBranch.moveUp pos tS.bttTaskList)
  | .ctt => tS.setCtt (cttBranch.moveUp pos tS.cttTaskList)
  | .cbt => tS.setCbt (cbtBranch.moveUp pos tS.cbtTaskList)
  | .ppt => tS.setPpt (pptBranch.moveUp pos tS.pptTaskList)

def moveDown (pos : Nat) (compIdent : CompetitionIdentifier) (tS : TaskSpec) :
    Outcome × TaskSpec :=
  match compIdent with
  | .bnt => tS.setBnt (bntBranch.moveDown tS.bntTaskList.length pos tS.bntTaskList)
  | .bmt => tS.setBmt (bmtBranch.moveDown tS.bmtTaskList.length pos tS.bmtTaskList)
  | .btt => tS.setBtt (bttBranch.moveDown tS.bttTaskList.length pos tS.bttTaskList)
  -- the size of the BTT list
  | .ctt => tS.setCtt (cttBranch.moveDown tS.bttTaskList.length pos tS.cttTaskList)
  | .cbt => tS.setCbt (cbtBranch.moveDown tS.cbtTaskList.length pos tS.cbtTaskList)
  | .ppt => tS.setPpt (pptBranch.moveDown tS.pptTaskList.length pos tS.pptTaskList)

/-- The CTT case of `updateTask`: the BTT list is sorted behind the change. -/
def updateCtt (pos : Nat) (task : Task) (tS : TaskSpec) : Outcome × TaskSpec :=
  match cttBranch.cast task with
  | none => (.threw .classCast, tS)
  | some t =>
    match tS.cttTaskList[pos]? with
    | none => (.threw .indexOutOfBounds, tS)
    | some old =>
      let changed := tS.cttTaskList.set pos t
      match bttBranch.sort tS.bttTaskList with
      | .ok l =>
        (cttBranch.report (.returned (some (.ctt old))) [old, t] changed,
          { tS with bttTaskList := l, cttTaskList := changed })
      | .error e => (.threw e, { tS with cttTaskList := changed })

def updateTask (pos : Nat) (task : Task) (compIdent : CompetitionIdentifier) (tS : TaskSpec) :
    Outcome × TaskSpec :=
  match compIdent with
  | .bnt => tS.setBnt (bntBranch.updateTask pos task tS.bntTaskList)
  | .bmt => tS.setBmt (bmtBranch.updateTask pos task tS.bmtTaskList)
  | .btt => tS.setBtt (bttBranch.updateTask pos task tS.bttTaskList)
  | .ctt => tS.updateCtt pos task
  | .cbt => tS.setCbt (cbtBranch.updateTask pos task tS.cbtTaskList)
  | .ppt => tS.setPpt (pptBranch.updateTask pos task tS.pptTaskList)

end TaskSpec

/-- An editing operation with its arguments. -/
inductive EditOp where
  | add (task : Task)
  | delete (pos : Nat)
  | update (pos : Nat) (task : Task)
  | moveUp (pos : Nat)
  | moveDown (pos : Nat)
deriving DecidableEq, Repr

/-- Run an operation on a competition. -/
def TaskSpec.edit (compIdent : CompetitionIdentifier) (op : EditOp)
    (tS : TaskSpec) : Outcome × TaskSpec :=
  match op with
  | .add task => tS.addTask compIdent task
  | .delete pos => tS.deleteTask pos compIdent
  | .update pos task => tS.updateTask pos task compIdent
  | .moveUp pos => tS.moveUp pos compIdent
  | .moveDown pos => tS.moveDown pos compIdent

end RefereeBox.Nullable
