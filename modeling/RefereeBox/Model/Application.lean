import RefereeBox.Model.Session
import RefereeBox.Model.TaskTimer

/-! # The Application

  A session with its timer and the log of the competition. The controller holds
  them together by callbacks: the timer button starts and stops the timer, a run
  of a timer task may end with `timerOverrun`, which deselects the timer button
  and so stops the timer, and an acknowledged task specification ends the setup
  time. The session keeps a copy of the flag `timerStop` for its own use.
-/

namespace RefereeBox

open Transition

/-! ### The log of the competition -/

/-- The file of `competitionLogFile`, null up to the first competition. -/
structure Logging where
  competitionLoggingIsActivated : Bool := false
  competitionLogFile : Option Text := none
deriving DecidableEq, Repr

namespace Logging

/-- `file` is the name of a new file, made of the folder and the date. Switching off
    asks the file whether it exists. -/
def setCompetitionLogging (b : Bool) (file : Text) (logg : Logging) : Except Exn Logging :=
  if logg.competitionLoggingIsActivated ≠ b then
    if b = true then
      .ok { competitionLoggingIsActivated := true, competitionLogFile := some file }
    else
      match logg.competitionLogFile with
      | none => .error .nullPointer
      | some _ => .ok { logg with competitionLoggingIsActivated := false }
  else .ok logg

/-- The file is renamed on the disk. -/
def renameCompetitionFile (logg : Logging) : Except Exn Unit :=
  match logg.competitionLogFile with
  | none => .error .nullPointer
  | some _ => .ok ()

end Logging

/-! ### The state -/

structure Application where
  session : Session := {}
  taskTimer : TaskTimer := {}
  logg : Logging := {}

namespace Application

variable (s : Application)

def mC : MainController := s.session.mC

/-! ### The callbacks -/

/-- `timerOverrun` of the controller. If the timer button is selected, deselecting it
    calls `stopTimer`. -/
def timerOverrun : Application :=
  { s with
    session := { s.session with mC := s.mC.timerOverrun }
    taskTimer := if s.mC.mG.timerSelected = true then s.taskTimer.stopTimer else s.taskTimer }

/-- A timer task runs, and the controller hears of it. -/
def tick (task : Nat) (checked stopped ran : Int64) : Application :=
  let (taskTimer, notified) := s.taskTimer.run task checked stopped ran
  let s := { s with taskTimer := taskTimer }
  if .timerOverrun ∈ notified then s.timerOverrun else s

/-- An exception of the log leaves everything as it is. -/
def competitionFinished (orders : TaskOrders) : Application :=
  if s.session.tS.checkAllSubgoals s.mC.compIdent = false then s
  else
    match s.logg.renameCompetitionFile, s.logg.setCompetitionLogging false [] with
    | .ok (), .ok logg =>
      { session := s.session.competitionFinished orders
        taskTimer := s.taskTimer.resetTimer.1
        logg := logg }
    | _, _ => s

end Application

/-! ### The system -/

inductive ApplicationAction where
  /-- The timer button is selected. The two times are those of the configuration, in
      seconds. -/
  | timerStart (configTime runTime now : Int64) (file : Text)
  | timerStop
  | tick (task : Nat) (checked stopped ran : Int64)
  /-- The receive of `sendTaskSpecToClient` returns a message of a client. -/
  | acknowledge (m : Request) (now : Int64)
  | competitionFinished
  /-- An action that touches neither the timer nor the log. -/
  | session (l : SessionAction)

/-- The others have labels of their own. -/
def SessionAction.Plain : SessionAction → Prop
  | .controller .timerStart | .controller .timerStop | .controller .timerOverrun
  | .controller (.acknowledge _) | .competitionFinished => False
  | _ => True

def application (orders : TaskOrders) : System Application ApplicationAction where
  init s := (session orders).init s.session ∧ s.taskTimer = {} ∧ s.logg = {}
  step s l s' :=
    match l with
    | .timerStart configTime runTime now file =>
      ∃ session' logg',
        (session orders).step s.session (.controller .timerStart) session' ∧
        s.logg.setCompetitionLogging true file = .ok logg' ∧
        s' = { session := session'
               taskTimer := (s.taskTimer.startNewTimer configTime runTime now).1
               logg := logg' }
    | .timerStop =>
      ∃ session', (session orders).step s.session (.controller .timerStop) session' ∧
        s' = { s with session := session', taskTimer := s.taskTimer.stopTimer }
    | .tick task checked stopped ran =>
      s.taskTimer.cancelled[task]? = some false ∧ s' = s.tick task checked stopped ran
    | .acknowledge m now =>
      ∃ session', (session orders).step s.session (.controller (.acknowledge m)) session' ∧
        s' = { s with
          session := session'
          -- the result of `sendTaskSpecToClient`
          taskTimer :=
            if m.text = acknowledgement then (s.taskTimer.taskSpecSent now).1 else s.taskTimer }
    | .competitionFinished =>
      s.mC.call = .idle ∧ s.mC.mG.competitionFinishedButton = true ∧
        s' = s.competitionFinished orders
    | .session l =>
      l.Plain ∧ ∃ session', (session orders).step s.session l session' ∧
        s' = { s with session := session' }

end RefereeBox
