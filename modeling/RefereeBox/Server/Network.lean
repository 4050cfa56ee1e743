import Mathlib.Logic.Function.Basic
import RefereeBox.Lib.Transition
import RefereeBox.Model.TaskServer

/-! # The Server and Its Clients

  One `TaskServer` and any number of clients that follow
  `JavaClient.obtainTaskSpecFromServer`, in any interleaving. Requests are
  queued, a receive takes any one of them, and a reply goes to the client
  whose request was received last, or nowhere if that client is gone. Every
  delivery and every return of `sendTaskSpecToClient` is recorded.
-/

namespace RefereeBox

open Transition

/-! ### Clients -/

/-- How far `obtainTaskSpecFromServer` has come. -/
inductive Progress where
  | start
  /-- The name is sent, and the client is in `recv`. -/
  | awaiting
  /-- `recv` has returned. -/
  | answered
  /-- `ACK` is sent. -/
  | acknowledged
deriving DecidableEq, Repr

/-- A client. It is gone when it has closed its socket or died; `inbox` is the
    reply that has arrived at its socket. -/
structure Client where
  progress : Progress := .start
  gone : Bool := false
  inbox : Option Text := none
  taskSpecFromServer : Option Text := none
deriving DecidableEq, Repr

/-- A reply arrives. Only the first one after a request is for `recv`. -/
def Client.deliver (tSpec : Text) (c : Client) : Client :=
  if c.progress = .awaiting ∧ c.gone = false ∧ c.inbox = none then { c with inbox := some tSpec }
  else c

/-- The names of the clients' teams. Two clients may be of one team. -/
structure TeamNames where
  name : Nat → Text
  ne_nil : ∀ i, name i ≠ []
  ne_ack : ∀ i, name i ≠ acknowledgement
  ne_stop : ∀ i, name i ≠ stopThread

def TeamNames.nameOf (names : TeamNames) (i : Nat) : Request := ⟨.client i, names.name i⟩

def ackOf (i : Nat) : Request := ⟨.client i, acknowledgement⟩

/-! ### State -/

/-- Where the thread of the referee is in a method of the server. -/
inductive Call where
  | idle
  /-- In the `recv` of `sendTaskSpecToClient`, behind a send to `addressee`. -/
  | awaitingAck (tSpec : Text) (addressee : Option Peer)
  /-- In the `join` of `shutdownSocket`. -/
  | joining
deriving DecidableEq, Repr

/-- A specification that was sent to a client that is not gone, with the
    `teamName` of the server at that moment. -/
structure Delivery where
  client : Nat
  tSpec : Text
  teamName : Text
deriving DecidableEq, Repr

/-- A return of `sendTaskSpecToClient`. -/
structure Return where
  tSpec : Text
  addressee : Option Peer
  teamName : Text
  result : Bool
deriving DecidableEq, Repr

/-- The server, the clients, the requests that are sent and not yet received,
    and the record. -/
structure Network where
  server : TaskServer := {}
  call : Call := .idle
  queue : List Request := []
  clients : Nat → Client := fun _ => {}
  deliveries : List Delivery := []
  returns : List Return := []

/-- A reply on its way: it is dropped if its addressee is gone. -/
def Network.carry (tSpec : Text) (addressee : Option Peer) (s : Network) : Network :=
  match addressee with
  | some (.client i) =>
    if (s.clients i).gone = true then s
    else
      { s with
        clients := Function.update s.clients i ((s.clients i).deliver tSpec)
        deliveries := s.deliveries ++ [⟨i, tSpec, s.server.teamName⟩] }
  | _ => s

/-- The first half of `sendTaskSpecToClient`. -/
def Network.send (tSpec : Text) (s : Network) : Network :=
  match s.server.sendTaskSpec tSpec with
  | none =>
    { s with returns := s.returns ++ [⟨tSpec, none, s.server.teamName, false⟩] }
  | some server =>
    let addressee := s.server.refereeSocket.peer
    Network.carry tSpec addressee
      { s with server := server, call := .awaitingAck tSpec addressee }

/-- The second half. -/
def Network.receiveAck (tSpec : Text) (addressee : Option Peer) (answer : Option Request)
    (s : Network) : Network :=
  let (result, server) := s.server.receiveAck answer
  { s with
    server := server
    call := .idle
    returns := s.returns ++ [⟨tSpec, addressee, s.server.teamName, result⟩] }

/-! ### Labels -/

inductive Label where
  /-- `createServerSocket` and `listenForConnection`. Of the requests that are
      under way, `kept` reach a new socket. -/
  | listen (kept : List Request)
  /-- The server thread receives a request. -/
  | run (m : Request)
  | send (tSpec : Text)
  /-- `sendTaskSpecToClient` receives a request. -/
  | acknowledge (m : Request)
  /-- The receive of `sendTaskSpecToClient` times out. -/
  | timeout
  | disconnect
  /-- `shutdownSocket` sends its request, and later has joined the thread. -/
  | shutdown
  | joined
  /-- The steps of a client. -/
  | sendName (i : Nat)
  | receive (i : Nat)
  | sendAck (i : Nat)
  /-- The client closes its socket or dies. -/
  | leave (i : Nat)
deriving DecidableEq, Repr

/-- Any interleaving of the server's methods and the clients. -/
def taskDelivery (names : TeamNames) : System Network Label where
  init s := s = {}
  step s l s' :=
    match l with
    | .listen kept =>
      s.call = .idle ∧ kept.Sublist s.queue ∧
        s' = { s with
          server := s.server.createServerSocket.listenForConnection
          queue := if s.server.activeConnection = true then s.queue else kept }
    | .run m =>
      s.server.receiving = true ∧ m ∈ s.queue ∧
        s' = { s with server := s.server.run m, queue := s.queue.erase m }
    | .send tSpec => s.call = .idle ∧ s' = s.send tSpec
    | .acknowledge m =>
      ∃ tSpec addressee, s.call = .awaitingAck tSpec addressee ∧
        s.server.refereeSocket.isOpen = true ∧ m ∈ s.queue ∧
        s' = { s.receiveAck tSpec addressee (some m) with queue := s.queue.erase m }
    | .timeout =>
      ∃ tSpec addressee, s.call = .awaitingAck tSpec addressee ∧
        s' = s.receiveAck tSpec addressee none
    | .disconnect => s' = { s with server := s.server.disconnectClient.2 }
    | .shutdown =>
      s.call = .idle ∧ s.server.activeConnection = true ∧
        s' = { s with call := .joining, queue := s.queue ++ [⟨.dummyClient, stopThread⟩] }
    | .joined =>
      s.call = .joining ∧ s.server.receiving = false ∧
        s' = { s with call := .idle, server := s.server.shutdownSocket }
    | .sendName i =>
      (s.clients i).progress = .start ∧ (s.clients i).gone = false ∧
        s' = { s with
          queue := s.queue ++ [names.nameOf i]
          clients := Function.update s.clients i { s.clients i with progress := .awaiting } }
    | .receive i =>
      ∃ tSpec, (s.clients i).progress = .awaiting ∧ (s.clients i).gone = false ∧
        (s.clients i).inbox = some tSpec ∧
        s' = { s with
          clients := Function.update s.clients i { s.clients i with
            progress := .answered
            taskSpecFromServer := some tSpec } }
    | .sendAck i =>
      (s.clients i).progress = .answered ∧ (s.clients i).gone = false ∧
        s' = { s with
          queue := s.queue ++ [ackOf i]
          clients := Function.update s.clients i { s.clients i with progress := .acknowledged } }
    | .leave i =>
      s' = { s with clients := Function.update s.clients i { s.clients i with gone := true } }

end RefereeBox
