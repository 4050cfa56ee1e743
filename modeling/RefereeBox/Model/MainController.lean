import Mathlib
import RefereeBox.Model.Tasks
import RefereeBox.Model.TaskServer

/-! # The Main Controller

  The part of `MainController`, `MainGUI` and `TaskTimer` that decides when the
  two task servers listen, send and disconnect: the actions behind the
  buttons, and the flags that enable the buttons.

  The actions run on the event thread, one after the other. The receive of
  `sendTaskSpecToClient` and the join of `shutdownSocket` block it: such an
  action ends with the call that it waits in, and goes on when that returns.
  The server threads and the timer run beside it.
-/

namespace RefereeBox

/-! ### Channels -/

/-- A server, and whether the last receive on its socket was one of
    `sendTaskSpecToClient` that timed out. -/
structure Channel where
  server : TaskServer := {}
  timedOut : Bool := false
deriving DecidableEq, Repr

namespace Channel

variable (ch : Channel)

/-- A request has been received and not yet answered. -/
def unanswered : Bool :=
  ch.server.refereeSocket.peer.isSome && ch.server.refereeSocket.reply.isNone

/-- `createServerSocket` and `listenForConnection`. -/
def listen : Channel where
  server := ch.server.createServerSocket.listenForConnection
  timedOut := ch.timedOut && ch.server.activeConnection

def run (m : Request) : Channel := { server := ch.server.run m, timedOut := false }

/-- The send of `sendTaskSpecToClient`; `none` if it is not reached. The socket
    accepts it only while a request is unanswered. -/
def send (tSpec : Text) : Option Channel :=
  (ch.server.sendTaskSpec tSpec).map fun server =>
    { ch with server := if ch.unanswered = true then server else ch.server }

def receiveAck (answer : Option Request) : Bool × Channel :=
  let (result, server) := ch.server.receiveAck answer
  (result, { server := server, timedOut := answer.isNone })

def disconnectClient : Bool × Channel :=
  let (result, server) := ch.server.disconnectClient
  (result, { ch with server := server })

def shutdownSocket : Channel := { ch with server := ch.server.shutdownSocket }

end Channel

/-! ### The view -/

def noTeam : Text := "no team connected".toList

/-- Which buttons are enabled, the state of the timer button, and the text of the
    label that shows who is connected. -/
structure MainGUI where
  loadConfigButton : Bool := true
  saveButton : Bool := false
  disconnectButton : Bool := false
  sendTripletsButton : Bool := false
  timerStartStopButton : Bool := false
  timerSelected : Bool := false
  /-- The text of the timer button is `Timer Stop`. -/
  timerTextStop : Bool := false
  competitionFinishedButton : Bool := false
  connectedLabel : Text := noTeam
deriving DecidableEq, Repr

namespace MainGUI

variable (mG : MainGUI)

/-- The name of a second team is appended to that of the first one. -/
def teamConnected (teamName : Text) : MainGUI :=
  { mG with
    connectedLabel :=
      if mG.connectedLabel ≠ noTeam then mG.connectedLabel ++ " and ".toList ++ teamName
      else teamName
    disconnectButton := true
    sendTripletsButton := mG.sendTripletsButton || mG.timerTextStop }

def teamDisconnected : MainGUI := { mG with disconnectButton := false, connectedLabel := noTeam }

def taskSpecSent : MainGUI :=
  { mG with sendTripletsButton := false, disconnectButton := false }

def configFileLoaded : MainGUI := { mG with saveButton := true, loadConfigButton := false }

def setCompetitionMode (enable : Bool) : MainGUI :=
  if enable = true then
    { mG with
      timerTextStop := true
      competitionFinishedButton := false
      sendTripletsButton := mG.sendTripletsButton || mG.disconnectButton }
  else { mG with competitionFinishedButton := false }

end MainGUI

/-! ### The controller -/

/-- Where the event thread is. -/
inductive ControllerCall where
  | idle
  /-- In the receive of `sendTaskSpecToClient` on the server of `team`; `rest`
      is the part for team 2 that is sent afterwards. -/
  | awaitingAck (team : Team) (rest : Option Text)
  /-- In the join of `serverTeam2.shutdownSocket`. -/
  | joining
deriving DecidableEq, Repr

/-- A send on a `refereeSocket`, with what held when it was issued. -/
structure IssuedSend where
  team : Team
  /-- A request had been received on the socket and not yet answered. -/
  unanswered : Bool
  /-- The server thread was waiting in `recv`. -/
  receiving : Bool
  /-- The receive before it was one whose acknowledgement timed out. -/
  afterTimeout : Bool
deriving DecidableEq, Repr

structure MainController where
  compIdent : CompetitionIdentifier := .bnt
  competitionMode : Bool := false
  serverTeam1 : Channel := {}
  serverTeam2 : Channel := {}
  timerStop : Bool := true
  mG : MainGUI := {}
  call : ControllerCall := .idle
  sends : List IssuedSend := []
deriving DecidableEq, Repr

namespace MainController

variable (s : MainController)

def channel : Team → Channel
  | .team1 => s.serverTeam1
  | .team2 => s.serverTeam2

def setChannel (team : Team) (ch : Channel) : MainController :=
  match team with
  | .team1 => { s with serverTeam1 := ch }
  | .team2 => { s with serverTeam2 := ch }

@[simp] theorem channel_setChannel (team : Team) (ch : Channel) :
    (s.setChannel team ch).channel team = ch := by
  cases team <;> rfl

@[simp] theorem channel_setChannel_of_ne {team other : Team} (hne : other ≠ team) (ch : Channel) :
    (s.setChannel team ch).channel other = s.channel other := by
  cases team <;> cases other <;> first | rfl | exact absurd rfl hne

theorem channel_congr {s s' : MainController} (h1 : s'.serverTeam1 = s.serverTeam1)
    (h2 : s'.serverTeam2 = s.serverTeam2) : s'.channel = s.channel := by
  funext team
  cases team with
  | team1 => exact h1
  | team2 => exact h2

@[simp] theorem setChannel_call (team : Team) (ch : Channel) :
    (s.setChannel team ch).call = s.call := by
  cases team <;> rfl

@[simp] theorem setChannel_sends (team : Team) (ch : Channel) :
    (s.setChannel team ch).sends = s.sends := by
  cases team <;> rfl

/-! ### Servers -/

/-- `createServerSocket` and `listenForConnection` on the server of a team. -/
def listen (team : Team) : MainController := s.setChannel team (s.channel team).listen

/-- The servers take their address and ports from the configuration. The runs of interest
    begin with Load Config: before it `getServerIP` raises, where the model listens. -/
def createServers : MainController :=
  let s := s.listen .team1
  if s.compIdent = .ctt then s.listen .team2 else s

/-- The server thread has received a request, and `notifyTeamConnected` unless it
    is that of the dummy client. -/
def teamConnected (team : Team) (m : Request) : MainController :=
  let s := s.setChannel team ((s.channel team).run m)
  if m.text = stopThread then s else { s with mG := s.mG.teamConnected m.text }

/-- `serverTeam1.disconnectClient()`. -/
def disconnectClient : MainController :=
  let (result, ch) := s.serverTeam1.disconnectClient
  { s with serverTeam1 := ch, mG := if result = true then s.mG.teamDisconnected else s.mG }

/-- `serverTeam2.shutdownSocket()` up to its join. -/
def shutdownSocket : MainController :=
  if s.serverTeam2.server.activeConnection = true then { s with call := .joining } else s

/-- The rest of it. -/
def socketClosed : MainController :=
  { s with serverTeam2 := s.serverTeam2.shutdownSocket, call := .idle, mG := s.mG.teamDisconnected }

/-! ### Send Spec -/

/-- The send of `sendTaskSpecToClient` on the server of a team, if it is reached. -/
def issue (team : Team) (tSpec : Text) (rest : Option Text) : Option MainController :=
  let ch := s.channel team
  (ch.send tSpec).map fun ch' =>
    { s.setChannel team ch' with
      call := .awaitingAck team rest
      sends := s.sends ++ [⟨team, ch.unanswered, ch.server.receiving, ch.timedOut⟩] }

/-- The part for team 2, if there is one. -/
def sendRest (rest : Option Text) : MainController :=
  match rest with
  | none => { s with call := .idle }
  | some tSpec => (s.issue .team2 tSpec none).getD { s with call := .idle }

/-- What goes to the two teams: in CTT the first two pieces of the text. -/
def parts (taskSpec : Text) : Option Text × Option Text :=
  if s.compIdent = .ctt then
    let newTaskSpec := Java.split (Java.oneOf "#") taskSpec
    (newTaskSpec[0]?, newTaskSpec[1]?)
  else (some taskSpec, none)

def sendSpec (taskSpec : Text) : MainController :=
  match (s.parts taskSpec).1 with
  | none => s.sendRest (s.parts taskSpec).2
  | some tSpec =>
    (s.issue .team1 tSpec (s.parts taskSpec).2).getD (s.sendRest (s.parts taskSpec).2)

/-- `sendTaskSpecToClient` has received its answer, or timed out. -/
def receiveAck (team : Team) (rest : Option Text) (answer : Option Request) : MainController :=
  let (result, ch) := (s.channel team).receiveAck answer
  let s := s.setChannel team ch
  -- team 2 gets its part in both cases
  { s with mG := if result = true then s.mG.taskSpecSent else s.mG }.sendRest rest

/-! ### The other actions -/

def loadConfig (loaded : Bool) : MainController :=
  { s with mG := if loaded = true then s.mG.configFileLoaded else s.mG }.createServers

def setSavedChanges : MainController := { s with mG := { s.mG with timerStartStopButton := true } }

def setUnsavedChanges : MainController :=
  { s with mG := { s.mG with timerStartStopButton := false } }

/-- `stateChanged` of the tabs. In competition mode the old tab is selected
    again. -/
def tabbChange (tab : CompetitionIdentifier) : MainController :=
  if s.competitionMode = true then s
  else
    let s := { s with compIdent := tab }
    -- team 2 takes part in CTT only
    if tab = .ctt then s.createServers else s.shutdownSocket

/-- `itemStateChanged` of the timer button, when it is selected. -/
def timerStarted : MainController :=
  { s with
    timerStop := false
    competitionMode := true
    mG := { s.mG with timerSelected := true }.setCompetitionMode true }

/-- `itemStateChanged` of the timer button, when it is deselected. -/
def timerStopped : MainController :=
  let s := { s with timerStop := true, mG := { s.mG with timerSelected := false } }.disconnectClient
  { s with
    mG := { s.mG with
      timerTextStop := false
      timerStartStopButton := false
      competitionFinishedButton := true
      sendTripletsButton := false } }

def timerOverrun : MainController :=
  let s := { s with mG := { s.mG with timerTextStop := false } }
  -- deselecting the button calls its listener
  let s := if s.mG.timerSelected = true then s.timerStopped else s
  { s with mG := { s.mG with competitionFinishedButton := true } }.disconnectClient

def disconnect : MainController := s.disconnectClient.listen .team1

def competitionFinished : MainController :=
  { s with
    competitionMode := false
    timerStop := true
    mG := { s.mG.setCompetitionMode false with timerStartStopButton := true } }.disconnect

end MainController

end RefereeBox
