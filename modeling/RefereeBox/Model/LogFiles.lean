import RefereeBox.Java.File
import RefereeBox.Lib.Disk
import RefereeBox.Model.Application

/-! # The Files of the Log

  What `Logging` does with the file of a competition: it is begun under the date of
  the first start of the timer, and renamed after the team when the competition is
  finished. Lines can be logged, and the name of the team and the folder can change,
  at any time between two steps of the application.
-/

namespace RefereeBox

open Java Transition

/-- A `Date` as `yyyy-MM-dd_HH-mm-ss`. -/
structure LogDate where
  text : Text
  length_text : text.length = 19
  notMem_text : '/' ∉ text
deriving DecidableEq

/-- Two dates are the same if they are printed alike. -/
theorem LogDate.ext {d d' : LogDate} (h : d.text = d'.text) : d = d' := by
  cases d
  cases d'
  cases h
  rfl

def unknownTeam : Text := "Unknown".toList

/-- The rest of `Logging`. `competitionFileName` stays empty and `competitionNo` stays 0. -/
structure LogFiles where
  fileParent : Text := []
  teamName : Text := unknownTeam
  disk : Disk (File unix) Text := fun _ => none

namespace LogFiles

/-- The path of a new log. -/
def newFile (date : LogDate) (s : LogFiles) : Text :=
  s.fileParent ++ '/' :: '_' :: (date.text ++ ".log".toList)

/-- The path that `renameCompetitionFile` renames to. -/
def renamedFile (date : LogDate) (s : LogFiles) : Text :=
  s.fileParent ++ '/' :: (s.teamName ++ "_Competition_0_".toList ++ (date.text ++ ".log".toList))

variable (usable : File unix → Bool) (logg : Logging)

/-- `setCompetitionLogging(true)`; an exception of `createNewFile` is caught. -/
def switchOn (date : LogDate) (s : LogFiles) : LogFiles :=
  if logg.competitionLoggingIsActivated = true then s
  else { s with disk := s.disk.create usable (File.ofPath unix (s.newFile date)) }

/-- `setCompetitionLogging(false)`. -/
def switchOff (s : LogFiles) : LogFiles :=
  if logg.competitionLoggingIsActivated = false then s
  else
    match logg.competitionLogFile with
    | none => s
    | some path =>
      if (s.disk (File.ofPath unix path)).isSome then
        { s with fileParent := [], teamName := unknownTeam }
      else s

/-- The text that `competitionLogging` writes. -/
def line (logIdentifier args : Text) : Text := logIdentifier ++ ' ' :: (args ++ ['\n'])

def competitionLogging (logIdentifier args : Text) (s : LogFiles) : LogFiles :=
  if logg.competitionLoggingIsActivated = true then
    match logg.competitionLogFile with
    | none => s
    | some path =>
      { s with disk := s.disk.append usable (File.ofPath unix path) (line logIdentifier args) }
  else s

def renameCompetitionFile (date : LogDate) (s : LogFiles) : LogFiles :=
  match logg.competitionLogFile with
  | none => s
  | some path =>
    { s with
      disk := s.disk.renameTo usable (File.ofPath unix path)
        (File.ofPath unix (s.renamedFile date)) }

def setTeamName (name : Text) (s : LogFiles) : LogFiles :=
  { s with teamName := if name = [] then unknownTeam else name }

def setFilePath (file : File unix) (s : LogFiles) : LogFiles :=
  { s with fileParent := printed file.getParent }

end LogFiles

/-! ### The application with its log -/

structure Recording where
  app : Application := {}
  files : LogFiles := {}

inductive RecordingAction where
  | timerStart (configTime runTime now : Int64) (date : LogDate)
  | competitionFinished (date : LogDate)
  /-- An action that leaves the log alone. -/
  | app (l : ApplicationAction)
  | competitionLogging (logIdentifier args : Text)
  | setTeamName (name : Text)
  /-- A specification is saved or opened. -/
  | setFilePath (file : File unix)

/-- The end of a competition is refused while subgoals are unchecked. -/
def Application.LeavesLog (s : Application) : ApplicationAction → Prop
  | .timerStart _ _ _ _ => False
  | .competitionFinished => s.session.tS.checkAllSubgoals s.mC.compIdent = false
  | _ => True

/-- `usable` says where files can be made. -/
def recording (orders : TaskOrders) (usable : File unix → Bool) :
    System Recording RecordingAction where
  init s := (application orders).init s.app ∧ s.files = {}
  step s l s' :=
    match l with
    | .timerStart configTime runTime now date =>
      (application orders).step s.app
        (.timerStart configTime runTime now (s.files.newFile date)) s'.app ∧
      s'.files = s.files.switchOn usable s.app.logg date
    | .competitionFinished date =>
      s.app.session.tS.checkAllSubgoals s.app.mC.compIdent = true ∧
      (application orders).step s.app .competitionFinished s'.app ∧
      s'.files = (s.files.renameCompetitionFile usable s.app.logg date).switchOff s.app.logg
    | .app l =>
      s.app.LeavesLog l ∧ (application orders).step s.app l s'.app ∧ s'.files = s.files
    | .competitionLogging logIdentifier args =>
      s' = { s with
        files := s.files.competitionLogging usable s.app.logg logIdentifier args }
    | .setTeamName name => s' = { s with files := s.files.setTeamName name }
    | .setFilePath file => file.names ≠ [] ∧ s' = { s with files := s.files.setFilePath file }

end RefereeBox
