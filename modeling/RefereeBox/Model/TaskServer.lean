import RefereeBox.Java

/-! # The Task Server

  `TaskServer` over its ZeroMQ REP socket. The socket takes one request after
  the other from all clients; a reply goes to the sender of the request it
  received last. The methods that wait in `recv` are cut there: `run` is what
  follows the receive of the server thread, and `sendTaskSpecToClient` comes
  in two halves, the send and what follows the receive.
-/

namespace RefereeBox

/-! ### The REP socket -/

/-- Who sends requests: the clients of the robots, each with a socket of its
    own, and the socket that `shutdownSocket` wakes the server thread with. -/
inductive Peer where
  | client (i : Nat)
  | dummyClient
deriving DecidableEq, Repr

/-- A request: its bytes are not marked as a team name or an acknowledgement. -/
structure Request where
  sender : Peer
  text : Text
deriving DecidableEq, Repr

def acknowledgement : Text := "ACK".toList
def stopThread : Text := "Stop Thread".toList

/-- A REP socket: the sender of the request it received last, and what has been
    sent as the reply to that request. -/
structure RepSocket where
  isOpen : Bool := false
  peer : Option Peer := none
  reply : Option Text := none
deriving DecidableEq, Repr

namespace RepSocket

/-- A socket behind `bind`. -/
def bound : RepSocket := { isOpen := true }

def recv (m : Request) (s : RepSocket) : RepSocket := { s with peer := some m.sender, reply := none }

def send (text : Text) (s : RepSocket) : RepSocket := { s with reply := some text }

def close (s : RepSocket) : RepSocket := { s with isOpen := false }

end RepSocket

/-! ### The server -/

/-- The fields of a `TaskServer`. `receiving` says that the server thread is in
    `recv`. -/
structure TaskServer where
  refereeSocket : RepSocket := {}
  teamName : Text := []
  activeConnection : Bool := false
  receiving : Bool := false
deriving DecidableEq, Repr

namespace TaskServer

variable (t : TaskServer)

def createServerSocket : TaskServer :=
  if t.activeConnection = false then { t with refereeSocket := RepSocket.bound } else t

def listenForConnection : TaskServer :=
  if t.activeConnection = false then
    { t with activeConnection := true, teamName := [], receiving := true }
  else t

/-- `run` behind its `recv`: any text but that of the dummy client is taken for
    the name of a team. -/
def run (m : Request) : TaskServer :=
  let t := { t with refereeSocket := t.refereeSocket.recv m, receiving := false }
  if m.text = stopThread then t else { t with teamName := m.text }

/-- `sendTaskSpecToClient` up to its `recv`; `none` if it returns false before
    the send. -/
def sendTaskSpec (tSpec : Text) : Option TaskServer :=
  if t.activeConnection = false then none
  else some { t with refereeSocket := t.refereeSocket.send tSpec }

/-- `sendTaskSpecToClient` behind its `recv`, which gives no request when it
    times out. Any request is taken for the answer. -/
def receiveAck (answer : Option Request) : Bool × TaskServer :=
  match answer with
  | none => (false, t)
  | some m => (m.text = acknowledgement, { t with refereeSocket := t.refereeSocket.recv m })

def disconnectClient : Bool × TaskServer :=
  if t.teamName ≠ [] then
    (true, { t with refereeSocket := t.refereeSocket.close, activeConnection := false, teamName := [] })
  else (false, t)

/-- `shutdownSocket` behind `serverThread.join()`. -/
def shutdownSocket : TaskServer :=
  { t with refereeSocket := t.refereeSocket.close, activeConnection := false, teamName := [] }

end TaskServer

end RefereeBox
