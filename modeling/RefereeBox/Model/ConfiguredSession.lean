import RefereeBox.Model.Configuration
import RefereeBox.Model.Session

/-! # A Session with its Configuration

  The session, together with the configuration that `loadConfig` reads, the
  boxes of the BNT panel, and what the map draws of a BNT task list. The boxes
  and the map get the valid elements only from a file that is accepted, and the
  background map is looked for in any case. Open and Save wait for the
  background map; Add, Update and Delete wait for nothing.
-/

namespace RefereeBox

open Loop Transition

/-! ### The boxes of the BNT panel -/

/-- A `DefaultComboBoxModel`. -/
structure ComboBoxModel where
  items : List Text
  selectedItem : Option Text

namespace ComboBoxModel

/-- The constructor selects the first item, and null if there is none. -/
def ofItems (items : List Text) : ComboBoxModel := ⟨items, items.head?⟩

/-- `setSelectedItem` does not look for its argument among the items. -/
def setSelectedItem (anObject : Option Text) (cbm : ComboBoxModel) : ComboBoxModel :=
  { cbm with selectedItem := anObject }

end ComboBoxModel

inductive BntBox where
  | placeBox
  | orientationBox
  | pauseBox
deriving DecidableEq, Repr

/-- The element of the task that the box is for. -/
def BntTask.element (t : BntTask) : BntBox → Option Text
  | .placeBox => t.place
  | .orientationBox => t.orientation
  | .pauseBox => t.pause

/-- `BntPanel`: `placeCbm`, `orientationCbm` and `pauseCbm`, which are null until the
    valid elements are set. The boxes are empty up to then, and select null. -/
abbrev BntPanel : Type := BntBox → Option ComboBoxModel

namespace BntPanel

variable (panel : BntPanel)

def getSelectedItem (box : BntBox) : Option Text := (panel box).bind (·.selectedItem)

def selection : Selection :=
  .bnt (panel.getSelectedItem .placeBox) (panel.getSelectedItem .orientationBox)
    (panel.getSelectedItem .pauseBox)

def setValidPositions (positions : Positions) : BntPanel :=
  Function.update panel .placeBox (some (.ofItems positions.keys))

def setValidOrientations (orientations : List Text) : BntPanel :=
  Function.update panel .orientationBox (some (.ofItems orientations))

def setValidPauses (pauses : List Text) : BntPanel :=
  Function.update panel .pauseBox (some (.ofItems pauses))

/-- Without the models the first assignment is an exception. -/
def setTaskBoxSected (task : BntTask) : BntPanel := fun box =>
  (panel box).map (·.setSelectedItem (task.element box))

/-- What `populateValidItems` does to the panel. -/
def populate (vte : TaskElements) : BntPanel :=
  ((panel.setValidPositions vte.validBNTPositions).setValidOrientations
    vte.validBNTOrientations).setValidPauses vte.validBNTPauses

end BntPanel

/-! ### The map -/

/-- `MapArea`, as far as BNT is concerned. The lists of tasks are references. -/
structure MapArea where
  /-- The background map has been set. Nothing is painted before. -/
  backgroundMap : Bool := false
  /-- `validPositions` is the map of the tables, and no longer null. -/
  validPositions : Bool := false
  compIdent : CompetitionIdentifier := .bnt
  /-- `none` is the list of the specification. Any other list is not changed any more. -/
  taskList : Option (List BntTask) := some []

namespace MapArea

variable (mapArea : MapArea)

def tasks (tS : TaskSpec) : List BntTask := mapArea.taskList.getD tS.bntTaskList

/-- `bntTaskSpecChanged` and its siblings. -/
def taskSpecChanged (c : CompetitionIdentifier) : MapArea :=
  { mapArea with
    compIdent := c
    taskList := if c = .bnt then none else mapArea.taskList }

/-- `parseTaskSpecString` has read a line. Every task in it is notified, and a BNT
    line gives the specification another list. -/
def lineRead (strLine : Text) (tS tS' : TaskSpec) : MapArea :=
  match (Java.substring (removeSpaces strLine) 0 3).bind competitionOf with
  | none => mapArea
  | some c =>
    if tS'.tasks c ≠ [] then mapArea.taskSpecChanged c
    else if c = .bnt then { mapArea with taskList := some (mapArea.tasks tS) }
    else mapArea

/-- The notification behind an operation that succeeds. -/
def operated (c : CompetitionIdentifier) : Option Outcome → MapArea
  | some .done | some (.returned (some _)) => mapArea.taskSpecChanged c
  | some (.returned none) | some (.threw _) | none => mapArea

/-- The notification of `stateChanged` comes behind the join, if there is one. -/
def tabChanged (mC : MainController) : MapArea :=
  if mC.call = .joining then mapArea else mapArea.taskSpecChanged mC.compIdent

/-- What `validPositions.get(tT.getPlace())` gives for the tasks of the route. It is no
    point, too, while there are no positions. -/
def routeLookups (vte : TaskElements) (tS : TaskSpec) : List (Option Point) :=
  if mapArea.compIdent = .bnt then
    (mapArea.tasks tS).map fun tT =>
      if mapArea.validPositions = true then tT.place.bind vte.validBNTPositions.get? else none
  else []

end MapArea

/-- `openTaskSpec`, with the map. -/
def TaskSpec.openMap (vte : ValidTaskElements) (tS : TaskSpec) (mapArea : MapArea) :
    List Text → Prog (Bool × TaskSpec × MapArea)
  | [] => pure (true, tS, mapArea)
  | strLine :: lines => do
    let (outcome, tS') ← tS.parseTaskSpecString vte strLine
    let mapArea' := mapArea.lineRead strLine tS tS'
    match outcome with
    | .ok true => tS'.openMap vte mapArea' lines
    | _ => pure (false, tS', mapArea')

/-! ### The system -/

structure ConfiguredSession extends Session where
  cfg : Configuration
  panel : BntPanel
  mapArea : MapArea

inductive ConfiguredAction where
  /-- Load Config, with the pairs of the file, if it exists; `mapFound` says whether
      there is a background map. -/
  | loadConfig (proceed : Bool) (file : Option (List (Text × Text))) (mapFound : Bool)
  /-- An item of a box is selected. -/
  | selectItem (box : BntBox) (item : Text)
  /-- A click on a row of the table, which selects its task in the boxes. -/
  | mouseClicked (selectedRow : Nat)
  /-- Any other action of the session. -/
  | session (a : SessionAction)

namespace ConfiguredSession

variable (s : ConfiguredSession)

/-- The points of the route, as they are looked up for the next painting. -/
def routeLookups : List (Option Point) := s.mapArea.routeLookups s.cfg.vte s.tS

/-- The boxes behind a click. A row without a task is an exception. -/
def rowSelected (selectedRow : Nat) : BntPanel :=
  match s.mC.compIdent with
  | .bnt =>
    match s.tS.bntTaskList[selectedRow]? with
    | some tT => s.panel.setTaskBoxSected tT
    | none => s.panel
  | _ => s.panel

/-- The actions of the other labels are left out, and a selection of the BNT panel is
    what its boxes select. -/
def Offers : SessionAction → Prop
  | .loadConfig _ _ _ => False
  | .add sel | .update _ sel | .delete _ sel _ =>
    sel.competition = .bnt → sel = s.panel.selection
  | _ => True

variable (orders : TaskOrders)

/-- How the operation behind an action ends, if there is one. -/
def outcome : SessionAction → Option Outcome
  | .add sel =>
    let (t, tS') := sel.getSelectedTask s.tS
    some (tS'.addTask orders s.mC.compIdent t).1
  | .update pos sel =>
    let (t, tS') := sel.getSelectedTask s.tS
    some (tS'.updateTask orders pos t s.mC.compIdent).1
  | .delete pos sel confirmed =>
    let (_, tS') := sel.getSelectedTask s.tS
    if confirmed = true then some (tS'.deleteTask orders pos s.mC.compIdent).1 else none
  | .up pos => some (s.tS.moveUp orders pos s.mC.compIdent).1
  | .down pos => some (s.tS.moveDown orders pos s.mC.compIdent).1
  | .mark tripletIndex column =>
    some (s.tS.setTaskState orders tripletIndex column s.mC.compIdent).1
  | .loadConfig _ _ _ | .save _ | .openFile _ _ | .competitionFinished | .controller _ => none

end ConfiguredSession

/-- A session that starts without a configuration. A program that is started with the
    name of a file loads it first. -/
def configuredSession (u : Java.Unicode) (orders : TaskOrders) :
    System ConfiguredSession ConfiguredAction where
  init s :=
    (session orders).init s.toSession ∧ s.cfg = .initial ∧ s.panel = (fun _ => none) ∧
      s.mapArea = {}
  step s l s' :=
    match l with
    | .loadConfig proceed file mapFound =>
      let loaded := file.isSome && mapFound
      let (populated, cfg) := s.cfg.loadConfigurationFile u file
      (session orders).step s.toSession (.loadConfig proceed loaded s'.vte) s'.toSession ∧
        if s.Declines proceed then
          s'.cfg = s.cfg ∧ s'.panel = s.panel ∧ s'.mapArea = s.mapArea
        else
          s'.cfg = cfg ∧ cfg.vte.HasBnt s'.vte ∧
            s'.panel = (if populated = true then s.panel.populate cfg.vte else s.panel) ∧
            s'.mapArea = { s.mapArea with
              backgroundMap := s.mapArea.backgroundMap || loaded
              validPositions := s.mapArea.validPositions || populated }
    | .selectItem box item =>
      s.mC.call = .idle ∧ ∃ cbm, s.panel box = some cbm ∧ item ∈ cbm.items ∧
        s' = { s with
          panel := Function.update s.panel box (some (cbm.setSelectedItem (some item))) }
    | .mouseClicked selectedRow =>
      s.mC.call = .idle ∧ s' = { s with panel := s.rowSelected selectedRow }
    | .session a =>
      s.Offers a ∧ (session orders).step s.toSession a s'.toSession ∧ s'.cfg = s.cfg ∧
        s'.panel = s.panel ∧
        match a with
        | .openFile proceed lines =>
          if s.Declines proceed then s'.mapArea = s.mapArea
          else ∃ result tS' mapArea',
            Converges (s.tS.openMap s.vte s.mapArea lines) (result, tS', mapArea') ∧
              -- behind a success the tab is selected again
              s'.mapArea = if result = true then mapArea'.tabChanged s'.mC else mapArea'
        | .controller (.tab _) =>
          -- in competition mode nothing is notified
          s'.mapArea =
            if s.mC.competitionMode = true then s.mapArea else s.mapArea.tabChanged s'.mC
        | .controller .joined => s'.mapArea = s.mapArea.tabChanged s'.mC
        | a => s'.mapArea = s.mapArea.operated s.mC.compIdent (s.outcome orders a)

end RefereeBox
