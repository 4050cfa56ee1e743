import RefereeBox.Model.YPipe

/-! # Mailboxes

  `mailbox_t`: any number of threads send commands, one at a time because of the
  mutex, and one thread receives them. A sender that finds the receiver asleep
  signals to it once it has left the critical section.
-/

namespace RefereeBox.Zmq

open Transition

/-- `signaler` is the number of signals in the socket pair. -/
structure Mailbox (Command : Type) where
  cpipe : YPipe Command
  signaler : Nat := 0
  active : Bool := false
deriving DecidableEq, Repr

/-- The constructor reads once, which gives nothing. -/
def Mailbox.new (Command : Type) : Mailbox Command where
  cpipe := (YPipe.read {}).2

/-- The thread in the critical section of `send`. -/
inductive SendPhase where
  | unlocked
  | written
  | waking
deriving DecidableEq, Repr

/-- Where the receiver is in `recv`, if it is there. -/
inductive RecvPhase where
  | returned
  | emptied
  | waiting
  | woken
deriving DecidableEq, Repr

/-- `owing` is the number of senders that have still to signal. -/
structure Mailing (Command : Type) where
  mailbox : Mailbox Command
  sender : SendPhase := .unlocked
  owing : Nat := 0
  receiver : RecvPhase := .returned
  sent : List Command := []
  received : List Command := []
deriving DecidableEq, Repr

inductive MailboxEvent (Command : Type) where
  | write (cmd : Command)
  | flush
  | setC
  | signal
  /-- `recv` in the active state. -/
  | read
  /-- `signaler.recv`. -/
  | clear
  /-- `recv` in the passive state. -/
  | wait
  | timeout
  | wake
  /-- The read behind the signal. -/
  | get
deriving DecidableEq, Repr

namespace Mailing

variable {Command : Type}

def withPipe (cpipe : YPipe Command) (s : Mailing Command) : Mailing Command :=
  { s with mailbox := { s.mailbox with cpipe := cpipe } }

def withSignals (signals : Nat) (s : Mailing Command) : Mailing Command :=
  { s with mailbox := { s.mailbox with signaler := signals } }

def withActive (active : Bool) (s : Mailing Command) : Mailing Command :=
  { s with mailbox := { s.mailbox with active := active } }

def write (cmd : Command) (s : Mailing Command) : Mailing Command :=
  { s.withPipe (s.mailbox.cpipe.write cmd false) with
    sender := .written
    sent := s.sent ++ [cmd] }

def flush (s : Mailing Command) : Mailing Command :=
  { s.withPipe s.mailbox.cpipe.flush.2 with
    sender := if s.mailbox.cpipe.flush.1 then .unlocked else .waking }

def setC (s : Mailing Command) : Mailing Command :=
  { s.withPipe s.mailbox.cpipe.setC with sender := .unlocked, owing := s.owing + 1 }

def signal (s : Mailing Command) : Mailing Command :=
  { s.withSignals (s.mailbox.signaler + 1) with owing := s.owing - 1 }

/-- With a command the call returns. -/
def read (s : Mailing Command) : Mailing Command :=
  match s.mailbox.cpipe.read with
  | (some cmd, cpipe) => { s.withPipe cpipe with received := s.received ++ [cmd] }
  | (none, cpipe) => { (s.withPipe cpipe).withActive false with receiver := .emptied }

def clear (s : Mailing Command) : Mailing Command :=
  { s.withSignals (s.mailbox.signaler - 1) with receiver := .waiting }

def wake (s : Mailing Command) : Mailing Command := { s.withActive true with receiver := .woken }

def get (s : Mailing Command) : Mailing Command :=
  { s.withPipe s.mailbox.cpipe.read.2 with
    receiver := .returned
    received := s.received ++ s.mailbox.cpipe.read.1.toList }

end Mailing

/-- The threads in any order. -/
def mailing {Command : Type} : System (Mailing Command) (MailboxEvent Command) where
  init s := s = { mailbox := Mailbox.new Command }
  step s l s' :=
    match l with
    | .write cmd => s.sender = .unlocked ∧ s' = s.write cmd
    | .flush => s.sender = .written ∧ s' = s.flush
    | .setC => s.sender = .waking ∧ s' = s.setC
    | .signal => 0 < s.owing ∧ s' = s.signal
    | .read => s.receiver = .returned ∧ s.mailbox.active = true ∧ s' = s.read
    | .clear => s.receiver = .emptied ∧ s' = s.clear
    | .wait => s.receiver = .returned ∧ s.mailbox.active = false ∧
        s' = { s with receiver := .waiting }
    | .timeout => s.receiver = .waiting ∧ s' = { s with receiver := .returned }
    | .wake => s.receiver = .waiting ∧ 0 < s.mailbox.signaler ∧ s' = s.wake
    | .get => s.receiver = .woken ∧ s' = s.get

end RefereeBox.Zmq
