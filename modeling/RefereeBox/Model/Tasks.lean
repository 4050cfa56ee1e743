import RefereeBox.Java

/-! # Tasks

  The task classes of the six competitions and the state of a `TaskSpec`.

  `BntTask` keeps what the boxes of its panel select, and an empty box selects
  null, so its fields are nullable. Those of a `BttTask` and a `CttTask` are set
  here: a null in them raises as soon as they are compared or printed, which is
  the matter of `Model.Nullable`. The places and the configuration of a
  `BmtTask` are static fields of the class, null until they are first set:
  they are kept once, in `BmtStatics`. `CbtTask` and `PptTask` have no source in
  the repository, only their compiled classes in `src/RefereeBoxXML.jar`; they
  are records of the fields their users set.
-/

namespace RefereeBox

/-- The mark of a subgoal. -/
inductive StateOfTask where
  | init
  | passed
  | failed
deriving DecidableEq, Repr

inductive CompetitionIdentifier where
  | bnt
  | bmt
  | btt
  | ctt
  | cbt
  | ppt
deriving DecidableEq, Repr

/-- `CompetitionIdentifier.name()`. -/
def CompetitionIdentifier.name : CompetitionIdentifier → Text
  | .bnt => "BNT".toList
  | .bmt => "BMT".toList
  | .btt => "BTT".toList
  | .ctt => "CTT".toList
  | .cbt => "CBT".toList
  | .ppt => "PPT".toList

/-- The two teams of a CTT run, each with a task server of its own. -/
inductive Team where
  | team1
  | team2
deriving DecidableEq, Repr

/-- String concatenation of a reference: null is printed as `null`. -/
def printed (s : Option Text) : Text := s.getD "null".toList

/-! ### BNT -/

structure BntTask where
  place : Option Text := some []
  orientation : Option Text := some []
  pause : Option Text := some []
  state : StateOfTask := .init
deriving DecidableEq, Repr

def BntTask.getString (t : BntTask) : Text :=
  "(".toList ++ printed t.place ++ ",".toList ++ printed t.orientation ++ ",".toList ++
    printed t.pause ++ ")".toList

/-! ### BMT -/

/-- The static fields of `BmtTask`. -/
structure BmtStatics where
  placeInitial : Option Text := none
  placeSource : Option Text := none
  placeDestination : Option Text := none
  placeFinal : Option Text := none
  configuration : Option Text := none
deriving DecidableEq, Repr

structure BmtTask where
  object : Text := []
  state : StateOfTask := .init
deriving DecidableEq, Repr

def BmtTask.getString (t : BmtTask) : Text := t.object

/-! ### BTT -/

structure BttTask where
  situation : Text := []
  configuration : Text := []
  place : Text := []
  object : Text := []
  state : StateOfTask := .init
deriving DecidableEq, Repr

/-- A blank configuration is printed as none. -/
def BttTask.getConfiguration (t : BttTask) : Text :=
  if t.configuration = " ".toList then [] else t.configuration

/-- Situations in descending order, then configuration, then place. -/
def BttTask.compareTo (t btt : BttTask) : Int :=
  let i := Java.compareTo btt.situation t.situation
  if i ≠ 0 then i
  else
    let i := Java.compareTo t.configuration btt.configuration
    if i ≠ 0 then i
    else Java.compareTo t.place btt.place

theorem BttTask.compareTo_lawful : StableSort.Lawful BttTask.compareTo :=
  (Java.compareTo_lawful.comap BttTask.situation).flip.thenBy
    ((Java.compareTo_lawful.comap BttTask.configuration).thenBy
      (Java.compareTo_lawful.comap BttTask.place))

/-! ### CTT -/

structure CttTask where
  situation : Text := []
  configuration : Text := []
  place : Text := []
  object : Text := []
  state : StateOfTask := .init
deriving DecidableEq, Repr

def CttTask.getConfiguration (t : CttTask) : Text :=
  if t.configuration = " ".toList then [] else t.configuration

/-- Situations in ascending order, then configuration, then place. -/
def CttTask.compareTo (t ctt : CttTask) : Int :=
  let i := Java.compareTo t.situation ctt.situation
  if i ≠ 0 then i
  else
    let i := Java.compareTo t.configuration ctt.configuration
    if i ≠ 0 then i
    else Java.compareTo t.place ctt.place

theorem CttTask.compareTo_lawful : StableSort.Lawful CttTask.compareTo :=
  (Java.compareTo_lawful.comap CttTask.situation).thenBy
    ((Java.compareTo_lawful.comap CttTask.configuration).thenBy
      (Java.compareTo_lawful.comap CttTask.place))

/-! ### CBT and PPT -/

structure CbtTask where
  place : Text := []
  state : StateOfTask := .init
deriving DecidableEq, Repr

structure PptTask where
  source : Text := []
  object : Text := []
  destination : Text := []
  state : StateOfTask := .init
deriving DecidableEq, Repr

/-! ### The task specification -/

/-- The task lists of a `TaskSpec`, with the static fields its BMT tasks
    share. -/
structure TaskSpec where
  bntTaskList : List BntTask := []
  bmtTaskList : List BmtTask := []
  bttTaskList : List BttTask := []
  cttTaskList : List CttTask := []
  cbtTaskList : List CbtTask := []
  pptTaskList : List PptTask := []
  bmtStatics : BmtStatics := {}
deriving DecidableEq, Repr

end RefereeBox
