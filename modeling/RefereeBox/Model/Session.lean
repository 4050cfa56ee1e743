import RefereeBox.Model.Decoder
import RefereeBox.Model.TaskStates
import RefereeBox.Model.XmlEncoder
import RefereeBox.Server.Alternation

/-! # A Session at the Referee Box

  `MainController` as a whole: the task specification, the tables of valid
  elements, the flag `unsavedChanges`, and the controller with its buttons and
  servers. The actions on the specification read the boxes of the panel
  (`getSelectedTask`) and the selected row of its table.

  The places and the configuration of the BMT panel go into the static fields
  of `BmtTask` as soon as the boxes are read: before a deletion is confirmed,
  and before an update finds its row. Add, Up and Down set the flag only;
  Update and Delete also disable the timer button.

  The boxes for a BTT or a CTT task and the one for the object of a BMT task have a
  selection, as they do once a configuration with such elements is loaded; before
  that they give null (`Model.Nullable`).
-/

namespace RefereeBox

open Loop Transition

/-! ### The panels -/

/-- What the boxes of a panel select. The panels of CBT and PPT are not in `src`; they
    give some task of their class. -/
inductive Selection where
  | bnt (place orientation pause : Option Text)
  | bmt (places : BmtStatics) (object : Text)
  | btt (situation configuration place object : Text)
  | ctt (situation configuration place object : Text)
  | cbt (t : CbtTask)
  | ppt (t : PptTask)
deriving DecidableEq, Repr

/-- The competition of the panel. -/
def Selection.competition : Selection → CompetitionIdentifier
  | .bnt .. => .bnt
  | .bmt .. => .bmt
  | .btt .. => .btt
  | .ctt .. => .ctt
  | .cbt _ => .cbt
  | .ppt _ => .ppt

/-- `getSelectedTask` of the panel. -/
def Selection.getSelectedTask (sel : Selection) (tS : TaskSpec) : Task × TaskSpec :=
  match sel with
  | .bnt place orientation pause =>
    (.bnt { place := place, orientation := orientation, pause := pause }, tS)
  | .bmt places object => (.bmt { object := object }, { tS with bmtStatics := places })
  | .btt situation configuration place object =>
    (.btt { situation := situation, configuration := configuration, place := place,
            object := object }, tS)
  | .ctt situation configuration place object =>
    (.ctt { situation := situation, configuration := configuration, place := place,
            object := object }, tS)
  | .cbt t => (.cbt t, tS)
  | .ppt t => (.ppt t, tS)

/-! ### The state -/

structure Session where
  mC : MainController := {}
  vte : ValidTaskElements :=
    { validBNTPositions := [], validBNTOrientations := [], validBNTPauses := [] }
  tS : TaskSpec := {}
  unsavedChanges : Bool := false
  /-- The specification behind the last successful save or open, or at the start. -/
  savedSpec : TaskSpec := {}

namespace Session

variable (s : Session)

def setUnsavedChanges : Session :=
  { s with unsavedChanges := true, mC := s.mC.setUnsavedChanges }

def setSavedChanges : Session :=
  { s with unsavedChanges := false, mC := s.mC.setSavedChanges, savedSpec := s.tS }

/-! ### The actions -/

/-- What Up and Down do with the result of the move. -/
def moved (r : Outcome × TaskSpec) : Session :=
  match r with
  | (.returned (some _), tS') =>
    -- the timer button stays enabled
    { s with tS := tS', unsavedChanges := true }
  | (_, tS') => { s with tS := tS' }

/-- What Update and Delete do with the result. -/
def edited (r : Outcome × TaskSpec) : Session :=
  match r with
  | (.returned (some _), tS') => { s with tS := tS' }.setUnsavedChanges
  | (_, tS') => { s with tS := tS' }

variable (orders : TaskOrders)

def add (sel : Selection) : Session :=
  let (t, tS') := sel.getSelectedTask s.tS
  match tS'.addTask orders s.mC.compIdent t with
  | (.threw _, tS') => { s with tS := tS' }
  | (_, tS') => { s with tS := tS', unsavedChanges := true } -- the result is not looked at

def update (pos : Nat) (sel : Selection) : Session :=
  let (t, tS') := sel.getSelectedTask s.tS
  s.edited (tS'.updateTask orders pos t s.mC.compIdent)

/-- The question shows the selected task. -/
def delete (pos : Nat) (sel : Selection) (confirmed : Bool) : Session :=
  let (_, tS') := sel.getSelectedTask s.tS
  if confirmed = true then s.edited (tS'.deleteTask orders pos s.mC.compIdent)
  else { s with tS := tS' }

def up (pos : Nat) : Session := s.moved (s.tS.moveUp orders pos s.mC.compIdent)

def down (pos : Nat) : Session := s.moved (s.tS.moveDown orders pos s.mC.compIdent)

/-- `openTaskSpec` has returned. The selected tab is selected again, to repaint
    the map. -/
def opened (result : Bool) (tS' : TaskSpec) : Session :=
  let s := { s with tS := tS' }
  if result = true then
    let s := s.setSavedChanges
    { s with mC := s.mC.tabbChange s.mC.compIdent }
  else s -- what has been read stays

def competitionFinished : Session :=
  if s.tS.checkAllSubgoals s.mC.compIdent = true then
    { s with
      mC := s.mC.competitionFinished
      tS := s.tS.resetStates orders s.mC.compIdent }
  else s

/-- A click into the table. -/
def mark (tripletIndex column : Nat) : Session :=
  { s with tS := (s.tS.setTaskState orders tripletIndex column s.mC.compIdent).2 }

end Session

/-! ### The system -/

inductive SessionAction where
  /-- Load Config; `proceed` is the answer to the warning, `loaded` whether the
      file was, and `vte` the tables behind it. -/
  | loadConfig (proceed loaded : Bool) (vte : ValidTaskElements)
  /-- Save; `written` says whether the files were. -/
  | save (written : Bool)
  /-- Open, with the lines of the file. -/
  | openFile (proceed : Bool) (lines : List Text)
  | add (sel : Selection)
  | update (pos : Nat) (sel : Selection)
  | delete (pos : Nat) (sel : Selection) (confirmed : Bool)
  | up (pos : Nat)
  | down (pos : Nat)
  | mark (tripletIndex column : Nat)
  | competitionFinished
  /-- An action that leaves the specification and the flag alone. -/
  | controller (a : Action)

namespace Session

/-- Open and the buttons of the panels are disabled in competition mode. The Edit
    menu has Add, Update and Delete as well, and its items stay enabled. -/
def Editable (s : Session) : Prop := s.mC.call = .idle ∧ s.mC.competitionMode = false

/-- There are unsaved changes, and the user does not want to lose them. -/
def Declines (s : Session) (proceed : Bool) : Prop := s.unsavedChanges = true ∧ proceed = false

instance (s : Session) (proceed : Bool) : Decidable (s.Declines proceed) :=
  inferInstanceAs (Decidable (_ ∧ _))

/-- Send Spec sends one of the two texts of the actual specification. The actions
    of the left-out labels have labels of their own in a session. -/
def Offers (s : Session) : Action → Prop
  | .sendSpec taskSpec =>
    Converges (s.tS.getTaskSpecString s.mC.compIdent) (.ok taskSpec) ∨
      Converges (s.tS.getTaskSpecXml s.mC.compIdent) (.ok taskSpec)
  | .loadConfig _ | .saveFile | .openFile | .edit | .competitionFinished => False
  | _ => True

end Session

/-- A selection is that of the panel of the actual competition. -/
def session (orders : TaskOrders) : System Session SessionAction where
  init s := s = {}
  step s l s' :=
    match l with
    | .loadConfig proceed loaded vte =>
      s.mC.call = .idle ∧ s.mC.mG.loadConfigButton = true ∧
        s' = if s.Declines proceed then s
          else { s with mC := s.mC.loadConfig loaded, vte := vte }
    | .save written =>
      s.mC.call = .idle ∧ s.mC.mG.saveButton = true ∧
        if written = true then
          -- the lists of all competitions are printed
          (∀ c, ∃ text, Converges (s.tS.getTaskSpecString c) (.ok text)) ∧ s' = s.setSavedChanges
        else s' = s
    | .openFile proceed lines =>
      s.Editable ∧ s.mC.mG.saveButton = true ∧
        if s.Declines proceed then s' = s
        else ∃ result tS', Converges (s.tS.openTaskSpec s.vte lines) (result, tS') ∧
          s' = s.opened result tS'
    | .add sel =>
      s.mC.call = .idle ∧ sel.competition = s.mC.compIdent ∧ s' = s.add orders sel
    | .update pos sel =>
      s.mC.call = .idle ∧ sel.competition = s.mC.compIdent ∧ s' = s.update orders pos sel
    | .delete pos sel confirmed =>
      s.mC.call = .idle ∧ sel.competition = s.mC.compIdent ∧
        s' = s.delete orders pos sel confirmed
    | .up pos => s.Editable ∧ s' = s.up orders pos
    | .down pos => s.Editable ∧ s' = s.down orders pos
    | .mark tripletIndex column =>
      s.mC.call = .idle ∧ s.mC.competitionMode = true ∧ 0 < column ∧
        s' = s.mark orders tripletIndex column
    | .competitionFinished =>
      s.mC.call = .idle ∧ s.mC.mG.competitionFinishedButton = true ∧
        s' = s.competitionFinished orders
    | .controller a =>
      s.Offers a ∧ ∃ mC', refereeing.step s.mC a mC' ∧ s' = { s with mC := mC' }

end RefereeBox
