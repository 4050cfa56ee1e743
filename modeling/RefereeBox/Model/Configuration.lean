import RefereeBox.Java.Scanner
import RefereeBox.Lib.LinkedMap
import RefereeBox.Model.Tasks
import RefereeBox.Model.ValidTaskElements

/-! # Loading a Configuration

  `ConfigFile`, the tables of `ValidTaskElements`, and
  `loadConfigurationFile` of `MainController`, which fills the tables from
  the file. The tables live in a singleton, so what a load finds there is
  what the loads before it have left, also those that ended with an
  exception.

  The getters for CBT and PPT, called behind the others, are not part of the
  repository; they are left out.
-/

namespace RefereeBox

open Java

/-! ### Properties -/

/-- A `java.util.Properties`. -/
abbrev Properties : Type := LinkedMap Text Text

/-- `getProperty(key)`; `none` is null. -/
def Properties.getProperty (props : Properties) (key : String) : Option Text :=
  props.get? key.toList

/-- `load(in)`: the pairs of the file are put over what there is. -/
def Properties.load (props : Properties) (file : List (Text × Text)) : Properties :=
  props.putAll file

/-! ### The tables -/

/-- A `LinkedHashMap<String, Point>`. -/
abbrev Positions : Type := LinkedMap Text Point

/-- All tables of `ValidTaskElements`. -/
structure TaskElements where
  validBNTPositions : Positions
  validBNTOrientations : List Text
  validBNTPauses : List Text
  validBMTPositions : Positions
  validBMTConfigurations : List Text
  validBMTObjects : List Text
  validBTTPositions : Positions
  validBTTConfigurations : List Text
  validBTTObjects : List Text
  validBTTSituations : List Text
  validCTTPositions : Positions
  validCTTConfigurations : List Text
  validCTTObjects : List Text
  validCTTSituations : List Text
deriving DecidableEq

namespace TaskElements

/-- The constructor of the singleton. -/
def empty : TaskElements :=
  ⟨.empty, [], [], .empty, [], [], .empty, [], [], [], .empty, [], [], []⟩

/-- The map that `parsePositions` fills; `none` is null. -/
def positions (vte : TaskElements) : CompetitionIdentifier → Option Positions
  | .bnt => some vte.validBNTPositions
  | .bmt => some vte.validBMTPositions
  | .btt => some vte.validBTTPositions
  | .ctt => some vte.validCTTPositions
  | .cbt | .ppt => none

def setPositions (vte : TaskElements) (c : CompetitionIdentifier) (hashMap : Positions) :
    TaskElements :=
  match c with
  | .bnt => { vte with validBNTPositions := hashMap }
  | .bmt => { vte with validBMTPositions := hashMap }
  | .btt => { vte with validBTTPositions := hashMap }
  | .ctt => { vte with validCTTPositions := hashMap }
  | .cbt | .ppt => vte

/-- `bnt` has the BNT tables, whose entries have all passed the checks. -/
structure HasBnt (vte : TaskElements) (bnt : ValidTaskElements) : Prop where
  positions : bnt.validBNTPositions = vte.validBNTPositions.entries
  orientations : bnt.validBNTOrientations = vte.validBNTOrientations
  pauses : bnt.validBNTPauses = vte.validBNTPauses

end TaskElements

/-- A method of `ValidTaskElements`: what it changes before an exception stays
    changed. -/
abbrev Populating (α : Type) : Type := ExceptT Exn (StateM TaskElements) α

/-- Call the method. -/
def Populating.call {α : Type} (m : Populating α) (vte : TaskElements) : Except Exn α × TaskElements :=
  m.run.run vte

/-- The entries of a value: its tokens between commas. -/
def entriesOf (str : Text) : List Text := Scanner.tokens (oneOf ",") str

/-- `new Scanner(str)`, which refuses null, and its tokens between commas. -/
def scan (str : Option Text) : Populating (List Text) :=
  match str with
  | none => throw .nullPointer
  | some str => pure (entriesOf str)

/-! ### Positions -/

/-- One upper-case letter and one digit. -/
def isLabel (u : Unicode) (s : Text) : Bool :=
  match s with
  | [c, d] => u.isLetter c && u.isUpperCase c && u.isDigit d
  | _ => false

/-- The pieces of an entry. The bar in the class `[\/|\(|\)]` is one of its
    characters. -/
def piecesOf (tri : Text) : List Text := Scanner.tokens (oneOf "/|()") tri

/-- What the loop reads from an entry: a label with its coordinates, as far as
    they are numbers, or `none` if there is no label in front. Pieces behind the
    third one are not looked at. -/
def readEntry (u : Unicode) (tri : Text) : Except Exn (Option (Text × Option Int × Option Int)) :=
  match piecesOf tri with
  | [] => .error .noSuchElement
  | s :: scnr1 =>
    if isLabel u s = true then
      match scnr1 with
      | sx :: sy :: _ => .ok (some (s, u.parseInt sx, u.parseInt sy))
      | _ => .error .noSuchElement
    else .ok none

/-- The loop over the entries. A coordinate that is no number makes the result
    false, and counts as 0. -/
def parseEntries (u : Unicode) : List Text → Bool → Option Positions →
    Except Exn Bool × Option Positions
  | [], allValid, hashMap => (.ok allValid, hashMap)
  | tri :: scnr, allValid, hashMap =>
    match readEntry u tri with
    | .error e => (.error e, hashMap)
    | .ok none => parseEntries u scnr false hashMap
    | .ok (some (s, x, y)) =>
      match hashMap with
      | none => (.error .nullPointer, none)
      | some hashMap =>
        parseEntries u scnr (allValid && x.isSome && y.isSome)
          (some (hashMap.put s ⟨x.getD 0, y.getD 0⟩))

def parsePositions (u : Unicode) (str : Option Text) (competitionID : CompetitionIdentifier) :
    Populating Bool := do
  let scnr ← scan str
  let (result, hashMap) := parseEntries u scnr true ((← get).positions competitionID)
  modify fun vte => (hashMap.map (vte.setPositions competitionID)).getD vte
  liftExcept result
where
  liftExcept : Except Exn Bool → Populating Bool
    | .ok allValid => pure allValid
    | .error e => throw e

/-! ### Orientations and pauses -/

/-- The loop over the orientations. -/
def addOrientations : List Text → Bool → List Text → Bool × List Text
  | [], allValid, list => (allValid, list)
  | s :: scnr, allValid, list =>
    if s ∈ getCompassDirectionStrings then addOrientations scnr allValid (list ++ [s])
    else addOrientations scnr false list

/-- The loop over the pauses, `while (scnr.hasNextShort())`. -/
def addPauses (u : Unicode) : List Text → List Text → List Text
  | [], list => list
  | i :: scnr, list =>
    if (u.parseShort i).isSome = true then addPauses u scnr (list ++ [i])
    else list -- the rest is not read, and the result stays true

def populateValidPlaces (u : Unicode) (props : Properties) : Populating Bool :=
  parsePositions u (props.getProperty "bnt.places") .bnt

def populateValidOrientations (props : Properties) : Populating Bool := do
  let scnr ← scan (props.getProperty "bnt.orientations")
  let (allValid, list) := addOrientations scnr true (← get).validBNTOrientations
  modify fun vte => { vte with validBNTOrientations := list }
  return allValid

def populateValidPauses (u : Unicode) (props : Properties) : Populating Bool := do
  let scnr ← scan (props.getProperty "bnt.pauses")
  modify fun vte => { vte with validBNTPauses := addPauses u scnr vte.validBNTPauses }
  return true

/-- `allValid &= ..` calls all three. -/
def populateLists (u : Unicode) (props : Properties) : Populating Bool := do
  let places ← populateValidPlaces u props
  let orientations ← populateValidOrientations props
  let pauses ← populateValidPauses u props
  return places && orientations && pauses

def readFromConfigFile (u : Unicode) (cfg : Properties) : Populating Bool := populateLists u cfg

/-! ### The getters of the other competitions -/

/-- A getter that adds entries to the list it returns. -/
def addEntries (cfg : Properties) (key : String) (list : TaskElements → List Text)
    (setList : TaskElements → List Text → TaskElements) (initial : List Text) :
    Populating (List Text) := do
  let scnr ← scan (cfg.getProperty key)
  modify fun vte => setList vte (list vte ++ initial ++ scnr)
  return list (← get)

def getValidBMTPositions (u : Unicode) (cfg : Properties) : Populating Positions := do
  let _ ← parsePositions u (cfg.getProperty "bmt.places") .bmt
  return (← get).validBMTPositions

def getValidBMTConfigurations (cfg : Properties) : Populating (List Text) :=
  addEntries cfg "bmt.configurations" (·.validBMTConfigurations)
    (fun vte list => { vte with validBMTConfigurations := list }) []

def getValidBMTObjects (cfg : Properties) : Populating (List Text) :=
  addEntries cfg "bmt.objects" (·.validBMTObjects)
    (fun vte list => { vte with validBMTObjects := list }) []

def getValidBTTPositions (u : Unicode) (cfg : Properties) : Populating Positions := do
  let _ ← parsePositions u (cfg.getProperty "btt.places") .btt
  return (← get).validBTTPositions

/-- The blank is a must for initial tasks. -/
def getValidBTTConfigurations (cfg : Properties) : Populating (List Text) :=
  addEntries cfg "btt.configurations" (·.validBTTConfigurations)
    (fun vte list => { vte with validBTTConfigurations := list }) [" ".toList]

def getValidBTTObjects (cfg : Properties) : Populating (List Text) :=
  addEntries cfg "btt.objects" (·.validBTTObjects)
    (fun vte list => { vte with validBTTObjects := list }) []

def getValidBTTSituations (cfg : Properties) : Populating (List Text) :=
  addEntries cfg "btt.situations" (·.validBTTSituations)
    (fun vte list => { vte with validBTTSituations := list }) []

def getValidCTTPositions (u : Unicode) (cfg : Properties) : Populating Positions := do
  let _ ← parsePositions u (cfg.getProperty "ctt.places") .ctt
  return (← get).validCTTPositions

def getValidCTTConfigurations (cfg : Properties) : Populating (List Text) :=
  addEntries cfg "ctt.configurations" (·.validCTTConfigurations)
    (fun vte list => { vte with validCTTConfigurations := list }) [" ".toList]

def getValidCTTObjects (cfg : Properties) : Populating (List Text) :=
  addEntries cfg "ctt.objects" (·.validCTTObjects)
    (fun vte list => { vte with validCTTObjects := list }) []

def getValidCTTSituations (cfg : Properties) : Populating (List Text) :=
  addEntries cfg "ctt.situations" (·.validCTTSituations)
    (fun vte list => { vte with validCTTSituations := list }) []

/-! ### Loading a file -/

/-- The getters that `populateValidItems` calls for the panels, in order. -/
def populatePanels (u : Unicode) (cfg : Properties) : Populating Unit := do
  let _ ← getValidBMTPositions u cfg
  let _ ← getValidBMTConfigurations cfg
  let _ ← getValidBMTObjects cfg
  let _ ← getValidBTTPositions u cfg
  let _ ← getValidBTTConfigurations cfg
  let _ ← getValidBTTObjects cfg
  let _ ← getValidBTTSituations cfg
  let _ ← getValidCTTPositions u cfg
  let _ ← getValidCTTConfigurations cfg
  let _ ← getValidCTTObjects cfg
  let _ ← getValidCTTSituations cfg

/-- `populateValidItems`: whether the panels are populated, and the tables.
    Exceptions are caught. -/
def populateValidItems (u : Unicode) (cfg : Properties) (vte : TaskElements) : Bool × TaskElements :=
  match (readFromConfigFile u cfg).call vte with
  | (.ok true, vte') => (true, ((populatePanels u cfg).call vte').2)
  | (_, vte') => (false, vte')

/-- The properties and the tables of the program. -/
structure Configuration where
  properties : Properties
  vte : TaskElements
deriving DecidableEq

def Configuration.initial : Configuration := ⟨.empty, .empty⟩

/-- `loadConfigurationFile(file)`, up to the background map. The file is given by
    its pairs; `none` is a file that does not exist. -/
def Configuration.loadConfigurationFile (u : Unicode) (s : Configuration)
    (file : Option (List (Text × Text))) : Bool × Configuration :=
  match file with
  | none => (false, s)
  | some file =>
    let cfgFile := s.properties.load file
    let (populated, vte) := populateValidItems u cfgFile s.vte
    (populated, ⟨cfgFile, vte⟩)

end RefereeBox
