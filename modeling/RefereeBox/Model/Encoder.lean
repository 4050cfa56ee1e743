import RefereeBox.Lib.ControlBreak
import RefereeBox.Model.Tasks

/-! # Printing a Task Specification

  `TaskSpec.getTaskSpecString`: the text that is saved to a file and, unless
  XML is selected, sent to the teams. BTT, CTT and PPT read the list one task
  ahead and use an empty task as end marker, so their loops are the loops of
  a control-break report; a loop that never ends is a program that never
  converges.
-/

namespace RefereeBox

open Loop ControlBreak

/-! ### BNT and BMT -/

/-- All triplets, one after the other. -/
def bntString (l : List BntTask) : Text := l.flatMap BntTask.getString

/-- `s.concat(x)` raises a `NullPointerException` when `x` is null. -/
def nonNull (s : Option Text) : Except Exn Text :=
  match s with
  | some x => .ok x
  | none => .error .nullPointer

/-- The shared places and configuration, the objects, and the final place. -/
def bmtString (statics : BmtStatics) (l : List BmtTask) : Except Exn Text :=
  match l with
  | [] => .ok []
  | first :: rest => do
    let placeInitial ← nonNull statics.placeInitial
    let placeSource ← nonNull statics.placeSource
    let placeDestination ← nonNull statics.placeDestination
    let configuration ← nonNull statics.configuration
    let objects := rest.foldl (fun s t => s ++ ",".toList ++ t.object) first.object
    let placeFinal ← nonNull statics.placeFinal
    pure (placeInitial ++ ",".toList ++ placeSource ++ ",".toList ++ placeDestination ++
      ",".toList ++ configuration ++ "(".toList ++ objects ++ ")".toList ++ ",".toList ++
      placeFinal)

/-! ### BTT -/

/-- A group of the BTT text: `<place,configuration(object,..,object)>`. -/
def bttLayout : Layout BttTask Char where
  opening t := "<".toList ++ t.place ++ ",".toList ++ t.getConfiguration ++ "(".toList
  item t := t.object
  separator := ','
  closing := ")>".toList

/-- The test of the innermost loop: same place and configuration as the
    previous task. The situations are not compared. -/
def BttTask.sameGroup (btt previous : BttTask) : Bool :=
  btt.place = previous.place && btt.getConfiguration = previous.getConfiguration

/-- The test of the middle loop. -/
def BttTask.sameSituation (btt previous : BttTask) : Bool := btt.situation = previous.situation

def bttReport : Report BttTask Text :=
  bttLayout.report id {} BttTask.sameGroup BttTask.sameSituation

/-- Close a section; a semicolon follows if another task was read. -/
def bttFooter (s : Cursor BttTask Text) : Cursor BttTask Text :=
  let s' := { s with out := s.out ++ ")".toList }
  if s'.current.situation.length ≠ 0 then { s' with out := s'.out ++ ";".toList } else s'

/-- The body of the outermost loop: one section of the text. -/
def bttSection (s : Cursor BttTask Text) : Prog (Cursor BttTask Text) := do
  let s' ← sectionLoop bttReport
    { s with out := s.out ++ s.current.situation ++ "situation(".toList }
  pure (bttFooter s')

/-- The BTT sections, appended to `s`. -/
def bttString (s : Text) (l : List BttTask) : Prog Text :=
  match l with
  | [] => pure s
  | btt :: itBtt => do
    let c ← doWhile bttSection (fun c => c.current.situation.length ≠ 0)
      { out := s, current := btt, previous := {}, rest := itBtt }
    pure c.out

/-! ### CTT -/

/-- A group of an initial section: the configuration is left out. -/
def cttInitialLayout : Layout CttTask Char where
  opening t := "<".toList ++ t.place ++ ",(".toList
  item t := t.object
  separator := ','
  closing := ")>".toList

/-- A group of a goal section. -/
def cttGoalLayout : Layout CttTask Char where
  opening t := "<".toList ++ t.place ++ ",".toList ++ t.getConfiguration ++ "(".toList
  item t := t.object
  separator := ','
  closing := ")>".toList

/-- The test of the innermost loops, the same in all three branches. -/
def CttTask.sameGroup (ctt previous : CttTask) : Bool :=
  ctt.place = previous.place && ctt.getConfiguration = previous.getConfiguration

/-- The test of the middle loops. -/
def CttTask.sameSituation (ctt previous : CttTask) : Bool := ctt.situation = previous.situation

/-- The strings `sTeam1` and `sTeam2`. -/
abbrev TeamStrings : Type := Text × Text

/-- What a branch does to `sTeam1`, to `sTeam2`, or to both. -/
def onTeam1 (f : Text → Text) (s : TeamStrings) : TeamStrings := (f s.1, s.2)
def onTeam2 (f : Text → Text) (s : TeamStrings) : TeamStrings := (s.1, f s.2)
def onBoth (f : Text → Text) (s : TeamStrings) : TeamStrings := (f s.1, f s.2)

def cttReport (write : (Text → Text) → TeamStrings → TeamStrings) (y : Layout CttTask Char) :
    Report CttTask TeamStrings :=
  y.report write {} CttTask.sameGroup CttTask.sameSituation

/-- One branch of the CTT loop: a section with its header and footer, written
    to the strings that `write` selects. -/
def cttSectionPart (write : (Text → Text) → TeamStrings → TeamStrings) (y : Layout CttTask Char)
    (header footer : Text) (s : Cursor CttTask TeamStrings) :
    Prog (Cursor CttTask TeamStrings) := do
  let s₁ ← sectionLoop (cttReport write y) { s with out := write (· ++ header) s.out }
  pure { s₁ with out := write (· ++ footer) s₁.out }

/-- The body of the outermost loop. For any other situation it does nothing,
    not even read the next task. -/
def cttSection (s : Cursor CttTask TeamStrings) : Prog (Cursor CttTask TeamStrings) :=
  if s.current.situation = "initial".toList then
    cttSectionPart onBoth cttInitialLayout "initialsituation(".toList ");".toList s
  else if s.current.situation = "team1Goal".toList then
    cttSectionPart onTeam1 cttGoalLayout "goalsituation(".toList ")".toList s
  else if s.current.situation = "team2Goal".toList then
    cttSectionPart onTeam2 cttGoalLayout "goalsituation(".toList ")".toList s
  else pure s

/-- The two CTT messages, appended to `s`. -/
def cttString (s : Text) (l : List CttTask) : Prog Text :=
  match l with
  | [] => pure s
  | ctt :: itCtt => do
    let c ← doWhile cttSection (fun c => c.current.situation.length ≠ 0)
      { out := ([], []), current := ctt, previous := {}, rest := itCtt }
    pure (s ++ c.out.1 ++ ">#CTT<".toList ++ c.out.2)

/-! ### CBT and PPT -/

/-- The places, with commas between them. -/
def cbtString (s : Text) (l : List CbtTask) : Text :=
  match l with
  | [] => s
  | _ :: _ => (l.foldl (fun s t => s ++ (t.place ++ ",".toList)) s).dropLast

/-- The objects of a PPT message. -/
def pptLayout : Layout PptTask Char where
  opening _ := []
  item t := t.object
  separator := ','
  closing := []

/-- The test of the PPT loop. -/
def PptTask.sameSource (ppt previous : PptTask) : Bool := ppt.source = previous.source

def pptReport : Report PptTask Text :=
  pptLayout.report id {} PptTask.sameSource (fun _ _ => false)

/-- Source, objects of the first run of tasks, destination. -/
def pptString (s : Text) (l : List PptTask) : Prog Text :=
  match l with
  | [] => pure s
  | ppt :: itPpt => do
    let c ← runLoop pptReport
      { out := s ++ ppt.source ++ ",(".toList, current := ppt, previous := {}, rest := itPpt }
    pure (c.out.dropLast ++ "),".toList ++ ppt.destination)

/-! ### The whole text -/

/-- `getTaskSpecString(compIdent)`. -/
def TaskSpec.getTaskSpecString (tS : TaskSpec) (compIdent : CompetitionIdentifier) :
    Prog (Except Exn Text) :=
  let s := compIdent.name ++ "<".toList
  match compIdent with
  | .bnt => pure (.ok (s ++ bntString tS.bntTaskList ++ ">".toList))
  | .bmt => pure ((bmtString tS.bmtStatics tS.bmtTaskList).map fun x => s ++ x ++ ">".toList)
  | .btt => do
    let s' ← bttString s tS.bttTaskList
    pure (.ok (s' ++ ">".toList))
  | .ctt => do
    let s' ← cttString s tS.cttTaskList
    pure (.ok (s' ++ ">".toList))
  | .cbt => pure (.ok (cbtString s tS.cbtTaskList ++ ">".toList))
  | .ppt => do
    let s' ← pptString s tS.pptTaskList
    pure (.ok (s' ++ ">".toList))

/-! ### The file -/

/-- The lines of some competitions, one below the other. -/
def TaskSpec.writeLines (tS : TaskSpec) : List CompetitionIdentifier → Prog (Except Exn Text)
  | [] => pure (.ok [])
  | compIdent :: compIdents => do
    match ← tS.getTaskSpecString compIdent with
    | .error e => pure (.error e)
    | .ok line => do
      let lines ← tS.writeLines compIdents
      pure (lines.map fun s => line ++ "\n".toList ++ s)

/-- What `saveTaskSpec(file)` writes. An exception makes its result false. -/
def TaskSpec.saveTaskSpec (tS : TaskSpec) : Prog (Except Exn Text) :=
  tS.writeLines [.bnt, .bmt, .btt, .ctt, .cbt, .ppt]

end RefereeBox
