import RefereeBox.Lib.Grouping
import RefereeBox.Model.Encoder
import RefereeBox.Model.MainController

/-! # Printing a Task Specification as XML

  `TaskSpec.getTaskSpecString(compIdent, true)`: the text that is sent to the
  teams when XML is selected. BMT, BTT and PPT first gather areas, one for
  each place, and then print them. The CTT case repeats the loops of the
  standard text behind the XML declaration.
-/

namespace RefereeBox

open Loop Grouping

def xmlDeclaration : Text := "<?xml version=\"1.0\"?>".toList

/-! ### Areas -/

/-- An area: its place, its configuration, its objects. -/
abbrev XmlArea : Type := Group Text Text Text

/-- `<object>object</object>` for each object. -/
def objectsText (objects : List Text) : Text :=
  objects.flatMap fun object => "<object>".toList ++ object ++ "</object>".toList

/-- An area of BMT and BTT. -/
def areaText (type : Text) (a : XmlArea) : Text :=
  "<area type=\"".toList ++ type ++ "\" ".toList ++ "configuration=\"".toList ++ a.label ++
    "\">".toList ++ a.key ++ objectsText a.items ++ "</area>".toList

/-! ### BNT -/

/-- The place is printed by `concat`, which refuses null; the attributes are
    not. -/
def bntAreaText (t : BntTask) : Except Exn Text := do
  let place ← nonNull t.place
  pure ("<area type=\"Source\" orientation=\"".toList ++ printed t.orientation ++
    "\" ".toList ++ "pause=\"".toList ++ printed t.pause ++ "\">".toList ++ place ++
    "</area>".toList)

def bntXml (s : Text) (l : List BntTask) : Except Exn Text :=
  match l with
  | [] => pure s
  | _ :: _ => do
    let areas ← l.mapM bntAreaText
    pure (s ++ "<competition type=\"BNT\">".toList ++ areas.flatten ++ "</competition>".toList)

/-! ### BMT -/

/-- What the BMT branch gathers before it prints. -/
structure BmtDocument where
  placeInitial : Text
  areas : List XmlArea
  areasDes : List XmlArea
  placeFinal : Text
deriving DecidableEq, Repr

/-- Every task has the shared source, destination and configuration. A null
    source or destination is refused when areas are compared or printed; the
    other fields are printed as `null`. -/
def bmtDocument (statics : BmtStatics) (l : List BmtTask) : Except Exn BmtDocument := do
  let placeSource ← nonNull statics.placeSource
  let placeDestination ← nonNull statics.placeDestination
  pure {
    placeInitial := printed statics.placeInitial
    areas := collect (fun _ => placeSource) (fun _ => printed statics.configuration)
      BmtTask.object l
    areasDes := collect (fun _ => placeDestination) (fun _ => printed statics.configuration)
      BmtTask.object l
    placeFinal := printed statics.placeFinal }

def BmtDocument.text (d : BmtDocument) : Text :=
  "<area type=\"Initial\">".toList ++ d.placeInitial ++ "</area>".toList ++
    d.areas.flatMap (areaText "Source".toList) ++
    d.areasDes.flatMap (areaText "Destination".toList) ++
    "<area type=\"Final\">".toList ++ d.placeFinal ++ "</area>".toList

/-- The closing tag is printed for the empty list, too. -/
def bmtXml (s : Text) (statics : BmtStatics) (l : List BmtTask) : Except Exn Text :=
  match l with
  | [] => pure (s ++ "</competition>".toList)
  | _ :: _ => do
    let d ← bmtDocument statics l
    pure (s ++ "<competition type=\"BMT\">".toList ++ d.text ++ "</competition>".toList)

/-! ### BTT -/

/-- The tasks with the situation of the first task. -/
def bttSource (startSit : Text) (l : List BttTask) : List BttTask :=
  l.filter fun t => t.situation = startSit

/-- Of the other tasks, those with the situation of the last task. -/
def bttDestination (startSit endSit : Text) (l : List BttTask) : List BttTask :=
  l.filter fun t => t.situation ≠ startSit ∧ t.situation = endSit

/-- The areas of a list of tasks. -/
def bttAreas (l : List BttTask) : List XmlArea :=
  collect BttTask.place BttTask.getConfiguration BttTask.object l

def bttXml (s : Text) (l : List BttTask) : Text :=
  match l with
  | [] => s ++ "</competition>".toList
  | btt :: itBtt =>
    let startSit := btt.situation
    let endSit := ((btt :: itBtt).getLast (List.cons_ne_nil btt itBtt)).situation
    s ++ "<competition type=\"BTT\">".toList ++
      (bttAreas (bttSource startSit (btt :: itBtt))).flatMap (areaText "Source".toList) ++
      (bttAreas (bttDestination startSit endSit (btt :: itBtt))).flatMap
        (areaText "Destination".toList) ++
      "</competition>".toList

/-! ### CBT and PPT -/

def cbtXml (s : Text) (l : List CbtTask) : Text :=
  match l with
  | [] => s
  | _ :: _ =>
    s ++ "<competition type=\"CBT\">".toList ++
      l.flatMap (fun t => "<area type=\"Source\">".toList ++ t.place ++ "</area>".toList) ++
      "</competition>".toList

/-- An area of PPT has no configuration. -/
def pptAreaText (type : Text) (a : Group Text Unit Text) : Text :=
  "<area type=\"".toList ++ type ++ "\">".toList ++ a.key ++ objectsText a.items ++
    "</area>".toList

def pptXml (s : Text) (l : List PptTask) : Text :=
  match l with
  | [] => s
  | _ :: _ =>
    s ++ "<competition type=\"PPT\">".toList ++
      (collect PptTask.source (fun _ => ()) PptTask.object l).flatMap
        (pptAreaText "Source".toList) ++
      (collect PptTask.destination (fun _ => ()) PptTask.object l).flatMap
        (pptAreaText "Destination".toList) ++
      "</competition>".toList

/-! ### The whole text -/

/-- `getTaskSpecString(compIdent, true)`. -/
def TaskSpec.getTaskSpecXml (tS : TaskSpec) (compIdent : CompetitionIdentifier) :
    Prog (Except Exn Text) :=
  match compIdent with
  | .bnt => pure (bntXml xmlDeclaration tS.bntTaskList)
  | .bmt => pure (bmtXml xmlDeclaration tS.bmtStatics tS.bmtTaskList)
  | .btt => pure (.ok (bttXml xmlDeclaration tS.bttTaskList))
  | .ctt => do
    let s ← cttString xmlDeclaration tS.cttTaskList
    pure (.ok s)
  | .cbt => pure (.ok (cbtXml xmlDeclaration tS.cbtTaskList))
  | .ppt => pure (.ok (pptXml xmlDeclaration tS.pptTaskList))

/-- What `sendSpec` sends of a text: in CTT its first two pieces, else all of
    it. -/
def sentMessages (compIdent : CompetitionIdentifier) (taskSpec : Text) : List Text :=
  let parts := ({ compIdent := compIdent } : MainController).parts taskSpec
  parts.1.toList ++ parts.2.toList

end RefereeBox
