import RefereeBox.Java
import RefereeBox.Lib.Transition

/-! # The Task Timer

  `TaskTimer` and the timer tasks it schedules, one at each start. A task runs
  every ten milliseconds until it cancels itself, which it does when it finds the
  timer stopped, or behind an overrun. All tasks share the fields of the timer:
  to stop it only sets a flag, and a new start clears that flag again.

  Times are readings of the clock in milliseconds. Each run of a task reads it
  up to three times: for the check of the setup time, for the start of the run
  time, and for the check of the run time.
-/

namespace RefereeBox

open Transition

/-! ### The timer -/

/-- What the timer tells its listeners. Times are printed as minutes and seconds. -/
inductive TimerNotification where
  | timerTick (currentTime : Int64) (inTime : Bool)
  | timerReset (resetTime : Int64)
  | timerSetMaximumTime (label : Text) (maxTime : Int64)
  | timerOverrun
deriving DecidableEq, Repr

structure TaskTimer where
  configTime : Int64 := 0
  runTime : Int64 := 0
  usedTime : Int64 := 0
  startTime : Int64 := 0
  startRunTime : Int64 := 0
  configTimeRunning : Bool := false
  runTimeRunning : Bool := false
  timerStop : Bool := true
  inTime : Bool := false
  /-- Of the tasks scheduled so far: which of them are cancelled. -/
  cancelled : List Bool := []
deriving DecidableEq, Repr

namespace TaskTimer

variable (t : TaskTimer)

/-- The times are given in seconds. While the timer runs nothing happens. -/
def startNewTimer (configTime runTime now : Int64) : TaskTimer × List TimerNotification :=
  if t.timerStop = true then
    ({ t with
        configTime := configTime * 1000
        runTime := runTime * 1000
        usedTime := 0
        configTimeRunning := true
        runTimeRunning := false
        inTime := true
        timerStop := false
        startTime := now
        cancelled := t.cancelled ++ [false] },
      [.timerReset 0, .timerSetMaximumTime "setup time: ".toList (configTime * 1000)])
  else (t, [])

def stopTimer : TaskTimer := { t with timerStop := true }

def resetTimer : TaskTimer × List TimerNotification :=
  ({ t with
      configTime := 0
      runTime := 0
      usedTime := 0
      configTimeRunning := false
      runTimeRunning := false
      timerStop := true },
    [.timerReset 0])

def setConfigTimeStop (now : Int64) : TaskTimer × List TimerNotification :=
  ({ t with
      configTimeRunning := false
      usedTime := 0
      startRunTime := now
      runTimeRunning := true },
    [.timerSetMaximumTime "run time: ".toList t.runTime])

def taskSpecSent (now : Int64) : TaskTimer × List TimerNotification :=
  if t.configTimeRunning = true then
    ({ (t.setConfigTimeStop now).1 with inTime := true }, (t.setConfigTimeStop now).2)
  else ({ t with inTime := true }, [])

/-! ### The tasks -/

def cancel (task : Nat) : TaskTimer := { t with cancelled := t.cancelled.set task true }

/-- `run` of a task, the part for the setup time. -/
def runSetup (checked stopped : Int64) : TaskTimer × List TimerNotification :=
  if t.configTimeRunning = true then
    let t := { t with usedTime := checked - t.startTime }
    if t.configTime ≤ t.usedTime then
      -- no acknowledgement ended the setup time
      ({ (t.setConfigTimeStop stopped).1 with inTime := false }, (t.setConfigTimeStop stopped).2)
    else (t, [])
  else (t, [])

/-- The rest of it. Behind an overrun the task is over. -/
def runRest (task : Nat) (ran : Int64) : TaskTimer × List TimerNotification :=
  if t.runTimeRunning = true then
    let t := { t with usedTime := ran - t.startRunTime }
    if t.runTime ≤ t.usedTime then
      -- the last tick is told, too
      (t.cancel task, [.timerTick t.usedTime t.inTime, .timerOverrun])
    else (t, [.timerTick t.usedTime t.inTime])
  else (t, [.timerTick t.usedTime t.inTime])

/-- `run` of a task. -/
def run (task : Nat) (checked stopped ran : Int64) : TaskTimer × List TimerNotification :=
  if t.timerStop = true then (t.cancel task, [])
  else
    let (t, setup) := t.runSetup checked stopped
    let (t, rest) := t.runRest task ran
    (t, setup ++ rest)

end TaskTimer

/-! ### The system -/

inductive TimerAction where
  | startNewTimer (configTime runTime now : Int64)
  | stopTimer
  | resetTimer
  | taskSpecSent (now : Int64)
  /-- A task runs, with the readings of the clock that it takes. -/
  | tick (task : Nat) (checked stopped ran : Int64)
deriving DecidableEq, Repr

/-- What an action does. -/
def TimerAction.run (t : TaskTimer) : TimerAction → TaskTimer × List TimerNotification
  | .startNewTimer configTime runTime now => t.startNewTimer configTime runTime now
  | .stopTimer => (t.stopTimer, [])
  | .resetTimer => t.resetTimer
  | .taskSpecSent now => t.taskSpecSent now
  | .tick task checked stopped ran => t.run task checked stopped ran

/-- A task runs until it is cancelled. -/
def TimerAction.Enabled (t : TaskTimer) : TimerAction → Prop
  | .tick task _ _ _ => t.cancelled[task]? = some false
  | _ => True

/-- The last reading of the clock, `clock` being the one before the action. -/
def TimerAction.clock (clock : Int64) : TimerAction → Int64
  | .startNewTimer _ _ now => now
  | .taskSpecSent now => now
  | .tick _ _ _ ran => ran
  | _ => clock

/-- An action of a run, with what was before it and what it did. -/
structure TimerEvent where
  action : TimerAction
  before : TaskTimer
  after : TaskTimer
  notified : List TimerNotification

/-- The timer with its history, the latest event first. -/
structure TimerRun where
  timer : TaskTimer := {}
  clock : Int64
  history : List TimerEvent := []

def TimerRun.enter (l : TimerAction) (s : TimerRun) : TimerRun where
  timer := (l.run s.timer).1
  clock := l.clock s.clock
  history := ⟨l, s.timer, (l.run s.timer).1, (l.run s.timer).2⟩ :: s.history

/-- All runs of the timer, from any time on. -/
def taskTimer : System TimerRun TimerAction where
  init s := s = { clock := s.clock }
  step s l s' := l.Enabled s.timer ∧ s' = s.enter l

end RefereeBox
