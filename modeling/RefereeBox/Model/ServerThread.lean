import RefereeBox.Lib.Transition
import RefereeBox.Model.TaskServer

/-! # The Server Thread

  One `TaskServer` with the threads that work on its fields: the server threads,
  one for each `listenForConnection`, and the callers. A server thread is cut at
  its `recv`, and so are the two methods that wait: `sendTaskSpecToClient` in its
  own `recv`, and `shutdownSocket` in the join. The caller makes no other call
  meanwhile; but `disconnectClient` is called by the timer as well, between any two
  of these steps. Within one it is not: the `send` of `sendTaskSpecToClient` and the
  beginning of its `recv` are one step, so a socket that is closed between the two
  is left out.

  All sockets that have been created are kept, so that it can be said on which of
  them an operation is issued, and whether that is open.
-/

namespace RefereeBox

open Transition

/-! ### The state -/

/-- Where a server thread is. -/
inductive ThreadState where
  | started
  /-- In `recv` on a socket. -/
  | waiting (socket : Nat)
  | finished
deriving DecidableEq, Repr

/-- What the caller waits in. -/
inductive ServerCall where
  | idle
  | awaitingAck
  | joining
deriving DecidableEq, Repr

inductive SocketOp where
  | send
  | recv
deriving DecidableEq, Repr

/-- An operation on `refereeSocket`, and whether that was open when it was issued. -/
structure IssuedOp where
  op : SocketOp
  isOpen : Bool
deriving DecidableEq, Repr

/-- The last socket is `refereeSocket`, and the last thread is `serverThread`. -/
structure ThreadedServer where
  sockets : List RepSocket := []
  threads : List ThreadState := []
  teamName : Text := []
  activeConnection : Bool := false
  call : ServerCall := .idle
  issued : List IssuedOp := []
deriving DecidableEq, Repr

namespace ThreadedServer

variable (s : ThreadedServer)

/-- Null, up to the first socket, is as good as a closed one. -/
def refereeSocket : RepSocket := (s.sockets[s.sockets.length - 1]?).getD {}

def modifySocket (socket : Nat) (f : RepSocket → RepSocket) : ThreadedServer :=
  { s with sockets := s.sockets.modify socket f }

/-- Operations on `refereeSocket` are issued. -/
def issue (ops : List SocketOp) : ThreadedServer :=
  { s with issued := s.issued ++ ops.map fun op => ⟨op, s.refereeSocket.isOpen⟩ }

/-! ### The caller -/

/-- Binding succeeds. -/
def createServerSocket : ThreadedServer :=
  if s.activeConnection = false then { s with sockets := s.sockets ++ [RepSocket.bound] } else s

def listenForConnection : ThreadedServer :=
  if s.activeConnection = false then
    { s with activeConnection := true, teamName := [], threads := s.threads ++ [.started] }
  else s

/-- `sendTaskSpecToClient` up to the wait in its `recv`. -/
def sendTaskSpecToClient (tSpec : Text) : ThreadedServer :=
  if s.activeConnection = false then s
  else
    { (s.issue [.send, .recv]).modifySocket (s.sockets.length - 1) (RepSocket.send tSpec) with
      call := .awaitingAck }

/-- The rest of it, with the answer unless the `recv` times out. -/
def receiveAck (answer : Option Request) : ThreadedServer :=
  match answer with
  | none => { s with call := .idle }
  | some m =>
    { s.modifySocket (s.sockets.length - 1) (RepSocket.recv m) with call := .idle }

def closeSocket : ThreadedServer :=
  { s.modifySocket (s.sockets.length - 1) RepSocket.close with activeConnection := false, teamName := [] }

def disconnectClient : ThreadedServer := if s.teamName ≠ [] then s.closeSocket else s

/-- `shutdownSocket` up to the join. -/
def shutdownSocket : ThreadedServer :=
  if s.activeConnection = true then { s with call := .joining } else s

/-! ### A server thread -/

/-- `run` up to the wait in its `recv`. -/
def begin (thread : Nat) : ThreadedServer :=
  { s.issue [.recv] with threads := s.threads.set thread (.waiting (s.sockets.length - 1)) }

/-- The rest of `run`. -/
def receive (thread socket : Nat) (m : Request) : ThreadedServer :=
  { s.modifySocket socket (RepSocket.recv m) with
    threads := s.threads.set thread .finished
    -- any other text is taken for a name
    teamName := if m.text = stopThread then s.teamName else m.text }

end ThreadedServer

/-! ### The system -/

inductive ServerAction where
  /-- `createServerSocket`, followed by `listenForConnection`. -/
  | listen
  | sendTaskSpecToClient (tSpec : Text)
  | receiveAck (answer : Option Request)
  | disconnectClient
  | shutdownSocket
  /-- The join of `shutdownSocket` returns. -/
  | joined
  | begin (thread : Nat)
  /-- The `recv` of a server thread returns: a message of any client, or that of
      `shutdownSocket`. -/
  | receive (thread : Nat) (m : Request)
deriving DecidableEq, Repr

def serverThreads : System ThreadedServer ServerAction where
  init s := s = {}
  step s l s' :=
    match l with
    | .listen => s.call = .idle ∧ s' = s.createServerSocket.listenForConnection
    | .sendTaskSpecToClient tSpec => s.call = .idle ∧ s' = s.sendTaskSpecToClient tSpec
    | .receiveAck answer => s.call = .awaitingAck ∧ s' = s.receiveAck answer
    | .disconnectClient => s' = s.disconnectClient -- in any call
    | .shutdownSocket => s.call = .idle ∧ s' = s.shutdownSocket
    | .joined =>
      s.call = .joining ∧ (∀ t, s.threads.getLast? = some t → t = .finished) ∧
        s' = { s.closeSocket with call := .idle }
    | .begin thread => s.threads[thread]? = some .started ∧ s' = s.begin thread
    | .receive thread m =>
      ∃ socket, s.threads[thread]? = some (.waiting socket) ∧ s' = s.receive thread socket m

end RefereeBox
