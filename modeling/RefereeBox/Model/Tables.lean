import RefereeBox.Model.Session

/-! # The Tables of the Panels

  Every panel shows the tasks of its competition in a table, one task a row. The
  table is drawn anew whenever the specification notifies its listeners: behind an
  operation that succeeds, behind every task that is read from a file, and behind
  a change of the tab. It is not drawn behind an exception.

  A change of the tab notifies when `shutdownSocket` has returned, which may be as
  late as the end of the join.
-/

namespace RefereeBox

open Loop Transition

/-! ### Strings -/

def BttTask.getString (t : BttTask) : Text :=
  if t.configuration = " ".toList then
    "(".toList ++ t.situation ++ ",".toList ++ t.place ++ ",".toList ++ t.object ++ ")".toList
  else
    "(".toList ++ t.situation ++ ",".toList ++ t.place ++ ",".toList ++ t.configuration ++
      ",".toList ++ t.object ++ ")".toList

def CttTask.getString (t : CttTask) : Text :=
  if t.configuration = " ".toList ∨ t.configuration = [] then
    "(".toList ++ t.situation ++ ",".toList ++ t.place ++ ",".toList ++ t.object ++ ")".toList
  else
    "(".toList ++ t.situation ++ ",".toList ++ t.place ++ ",".toList ++ t.configuration ++
      ",".toList ++ t.object ++ ")".toList

/-! ### Panels -/

/-- The first column of a table; a cell that has not been set is null. -/
abbrev Rows : Type := List (Option Text)

def clearColumn (rows : Rows) : Rows := rows.map fun _ => none

/-- New rows are appended, superfluous ones are cut off. -/
def setRowCount (n : Nat) (rows : Rows) : Rows :=
  rows.take n ++ List.replicate (n - rows.length) none

/-- `taskSpecChanged` of the panels, which differ in the class of the tasks. -/
def taskSpecChanged {τ : Type} (getString : τ → Text) (taskList : List τ) (rows : Rows) : Rows :=
  let rows := setRowCount taskList.length (clearColumn rows)
  taskList.zipIdx.foldl (fun rows t => rows.set t.2 (some (getString t.1))) rows

/-- The `getString` methods of the two classes without a source in the repository,
    and the `taskSpecChanged` methods of their panels. -/
structure MissingPanels where
  cbtString : CbtTask → Text
  pptString : PptTask → Text
  cbtTaskSpecChanged : List CbtTask → Rows → Rows
  pptTaskSpecChanged : List PptTask → Rows → Rows

namespace MissingPanels

variable (panels : MissingPanels)

/-- `getString` of a task of any class. -/
def getString : Task → Text
  | .bnt t => t.getString
  | .bmt t => t.getString
  | .btt t => t.getString
  | .ctt t => t.getString
  | .cbt t => panels.cbtString t
  | .ppt t => panels.pptString t

/-- A notification of a competition reaches its panel. -/
def drawn (tS : TaskSpec) : CompetitionIdentifier → Rows → Rows
  | .bnt => taskSpecChanged BntTask.getString tS.bntTaskList
  | .bmt => taskSpecChanged BmtTask.getString tS.bmtTaskList
  | .btt => taskSpecChanged BttTask.getString tS.bttTaskList
  | .ctt => taskSpecChanged CttTask.getString tS.cttTaskList
  | .cbt => panels.cbtTaskSpecChanged tS.cbtTaskList
  | .ppt => panels.pptTaskSpecChanged tS.pptTaskList

end MissingPanels

/-- Tasks are added to a list one by one, with a notification behind each. -/
def drawEach {τ : Type} (draw : List τ → Rows → Rows) (taskList : List τ) : List τ → Rows → Rows
  | [], rows => rows
  | nextTask :: tasks, rows =>
    drawEach draw (taskList ++ [nextTask]) tasks (draw (taskList ++ [nextTask]) rows)

/-- The branch of a competition has emptied its list and then added tasks up to
    what is there now. -/
def MissingPanels.drawnByTask (panels : MissingPanels) (tS : TaskSpec) :
    CompetitionIdentifier → Rows → Rows
  | .bnt => drawEach (taskSpecChanged BntTask.getString) [] tS.bntTaskList
  | .bmt => drawEach (taskSpecChanged BmtTask.getString) [] tS.bmtTaskList
  | .btt => drawEach (taskSpecChanged BttTask.getString) [] tS.bttTaskList
  | .ctt => drawEach (taskSpecChanged CttTask.getString) [] tS.cttTaskList
  | .cbt => drawEach panels.cbtTaskSpecChanged [] tS.cbtTaskList
  | .ppt => drawEach panels.pptTaskSpecChanged [] tS.pptTaskList

/-! ### Tables -/

/-- The tables of all panels. -/
abbrev Tables : Type := CompetitionIdentifier → Rows

namespace Tables

variable (panels : MissingPanels) (tables : Tables)

/-- `notifyBntTaskSpecChanged`, and its siblings. -/
def notifyTaskSpecChanged (tS : TaskSpec) (c : CompetitionIdentifier) : Tables :=
  Function.update tables c (panels.drawn tS c (tables c))

/-- `parseTaskSpecString` has read a line, and left `tS`. -/
def lineRead (strLine : Text) (tS : TaskSpec) : Tables :=
  match (Java.substring (removeSpaces strLine) 0 3).bind competitionOf with
  | none => tables
  | some c => Function.update tables c (panels.drawnByTask tS c (tables c))

/-- The notification of `stateChanged` comes behind the join, if there is one. -/
def tabChanged (mC : MainController) (tS : TaskSpec) : Tables :=
  if mC.call = .joining then tables else tables.notifyTaskSpecChanged panels tS mC.compIdent

end Tables

/-- `openTaskSpec`, with the tables. -/
def TaskSpec.openTables (panels : MissingPanels) (vte : ValidTaskElements) (tS : TaskSpec)
    (tables : Tables) : List Text → Prog (Bool × TaskSpec × Tables)
  | [] => pure (true, tS, tables)
  | strLine :: lines => do
    let (outcome, tS') ← tS.parseTaskSpecString vte strLine
    let tables' := tables.lineRead panels strLine tS'
    match outcome with
    | .ok true => tS'.openTables panels vte tables' lines
    | _ => pure (false, tS', tables')

/-! ### The system -/

structure TableSession extends Session where
  tables : Tables := fun _ => []

namespace TableSession

variable (orders : TaskOrders) (panels : MissingPanels) (s : TableSession)

/-- The tables behind an operation on the specification: the notification is the last
    thing that it does, unless it returns null before. -/
def operated (r : Outcome × TaskSpec) : Tables :=
  match r.1 with
  | .done | .returned (some _) => s.tables.notifyTaskSpecChanged panels r.2 s.mC.compIdent
  | .returned none | .threw _ => s.tables

def added (sel : Selection) : Tables :=
  let (t, tS') := sel.getSelectedTask s.tS
  s.operated panels (tS'.addTask orders s.mC.compIdent t)

def updated (pos : Nat) (sel : Selection) : Tables :=
  let (t, tS') := sel.getSelectedTask s.tS
  s.operated panels (tS'.updateTask orders pos t s.mC.compIdent)

def deleted (pos : Nat) (sel : Selection) (confirmed : Bool) : Tables :=
  let (_, tS') := sel.getSelectedTask s.tS
  if confirmed = true then s.operated panels (tS'.deleteTask orders pos s.mC.compIdent)
  else s.tables

end TableSession

/-- A session, and what becomes of its tables. -/
def tableSession (orders : TaskOrders) (panels : MissingPanels) :
    System TableSession SessionAction where
  init s := (session orders).init s.toSession ∧ s.tables = fun _ => []
  step s l s' :=
    (session orders).step s.toSession l s'.toSession ∧
      match l with
      | .openFile proceed lines =>
        if s.Declines proceed then s'.tables = s.tables
        else ∃ result tS' tables',
          Converges (s.tS.openTables panels s.vte s.tables lines) (result, tS', tables') ∧
            -- behind a success the tab is selected again
            s'.tables =
              if result = true then tables'.tabChanged panels s'.mC tS' else tables'
      | .add sel => s'.tables = s.added orders panels sel
      | .update pos sel => s'.tables = s.updated orders panels pos sel
      | .delete pos sel confirmed => s'.tables = s.deleted orders panels pos sel confirmed
      | .up pos => s'.tables = s.operated panels (s.tS.moveUp orders pos s.mC.compIdent)
      | .down pos => s'.tables = s.operated panels (s.tS.moveDown orders pos s.mC.compIdent)
      | .mark tripletIndex column =>
        s'.tables = s.operated panels (s.tS.setTaskState orders tripletIndex column s.mC.compIdent)
      | .controller (.tab _) =>
        -- in competition mode nothing is notified
        s'.tables =
          if s.mC.competitionMode = true then s.tables else s.tables.tabChanged panels s'.mC s.tS
      | .controller .joined => s'.tables = s.tables.tabChanged panels s'.mC s.tS
      | .loadConfig _ _ _ | .save _ | .competitionFinished | .controller _ => s'.tables = s.tables

end RefereeBox
