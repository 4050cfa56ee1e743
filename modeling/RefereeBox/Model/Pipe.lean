import RefereeBox.Model.Wire
import RefereeBox.Model.YPipe

/-! # Pipes

  `reader_t` and `writer_t`, the two ends of a pipe, in the threads of their
  owners, and the commands that they send to each other. There is no swap. Each
  thread processes the commands in the order in which they were sent.
-/

namespace RefereeBox.Zmq

open Transition

/-- A message part, or the delimiter that a writer puts behind the last one. -/
inductive Item where
  | msg (f : Frame)
  | delimiter
deriving DecidableEq, Repr

/-- Items that are continued by the next one. -/
def Item.more : Item → Bool
  | .msg f => f.more
  | .delimiter => false

inductive ReaderCommand where
  | activateReader
  | pipeTermAck
deriving DecidableEq, Repr

inductive WriterCommand where
  | activateWriter (msgsRead : Nat)
  | pipeTerm
deriving DecidableEq, Repr

structure PipeReader where
  active : Bool := true
  lwm : Nat
  msgsRead : Nat := 0
  terminating : Bool := false
  terminated : Bool := false
deriving DecidableEq, Repr

/-- `msgsRead` is the last number that the reader has confirmed. -/
structure PipeWriter where
  active : Bool := true
  hwm : Nat
  msgsRead : Nat := 0
  msgsWritten : Nat := 0
  terminating : Bool := false
  terminated : Bool := false
deriving DecidableEq, Repr

/-- `waking` says that a flush has found the reader asleep and has still to set `c`. -/
structure Pipe where
  pipe : YPipe Item := {}
  waking : Bool := false
  reader : PipeReader
  writer : PipeWriter
  toReader : List ReaderCommand := []
  toWriter : List WriterCommand := []
deriving DecidableEq, Repr

def maxWmDelta : Nat := 1024

/-- `create_pipe`. -/
def createPipe (hwm : Nat) : Pipe where
  reader := { lwm := if hwm > maxWmDelta * 2 then hwm - maxWmDelta else (hwm + 1) / 2 }
  writer := { hwm := hwm }

namespace Pipe

/-! ### reader_t -/

/-- `reader_t::terminate`. -/
def terminateReader (s : Pipe) : Pipe :=
  if s.reader.terminating = true then s
  else
    { s with
      reader := { s.reader with active := false, terminating := true }
      toWriter := s.toWriter ++ [.pipeTerm] }

def deactivate (s : Pipe) : Pipe := { s with reader := { s.reader with active := false } }

def checkRead (s : Pipe) : Bool × Pipe :=
  if s.reader.active = false then (false, s)
  else
    match s.pipe.checkRead with
    | (false, pipe) => (false, { s with pipe := pipe }.deactivate)
    | (true, pipe) =>
      if pipe.items[pipe.front]? = some .delimiter then
        (false, { s with pipe := pipe.read.2 }.terminateReader)
      else (true, { s with pipe := pipe })

/-- Behind a part that was read. -/
def count (f : Frame) (s : Pipe) : Pipe :=
  let msgsRead := if f.more then s.reader.msgsRead else s.reader.msgsRead + 1
  { s with
    reader := { s.reader with msgsRead := msgsRead }
    toWriter :=
      if 0 < s.reader.lwm ∧ msgsRead % s.reader.lwm = 0 then
        s.toWriter ++ [.activateWriter msgsRead]
      else s.toWriter }

def read (s : Pipe) : Option Frame × Pipe :=
  if s.reader.active = false then (none, s)
  else
    match s.pipe.read with
    | (none, pipe) => (none, { s with pipe := pipe }.deactivate)
    | (some .delimiter, pipe) => (none, { s with pipe := pipe }.terminateReader)
    | (some (.msg f), pipe) => (some f, { s with pipe := pipe }.count f)

def processActivateReader (s : Pipe) : Pipe :=
  { s with reader := { s.reader with active := true } }

def processPipeTermAck (s : Pipe) : Pipe :=
  { s with reader := { s.reader with terminated := true } }

/-! ### writer_t -/

def pipeFull (s : Pipe) : Bool :=
  s.writer.hwm > 0 && s.writer.msgsWritten - s.writer.msgsRead = s.writer.hwm

def checkWrite (s : Pipe) : Bool × Pipe :=
  if s.writer.active = false then (false, s)
  else if s.pipeFull then (false, { s with writer := { s.writer with active := false } })
  else (true, s)

def write (f : Frame) (s : Pipe) : Bool × Pipe :=
  match s.checkWrite with
  | (false, s) => (false, s)
  | (true, s) =>
    (true, { s with
      pipe := s.pipe.write (.msg f) f.more
      writer := { s.writer with
        msgsWritten := if f.more then s.writer.msgsWritten else s.writer.msgsWritten + 1 } })

theorem unwrite_length {p p' : YPipe Item} {v : Item} (h : p.unwrite = (some v, p')) :
    p'.items.length < p.items.length := by
  unfold YPipe.unwrite at h
  split at h
  · simp at h
  · simp only [Prod.mk.injEq] at h
    obtain ⟨hlast, rfl⟩ := h
    have hne : p.items ≠ [] := by
      intro hnil
      rw [hnil] at hlast
      cases hlast
    have hpos := List.length_pos_iff.mpr hne
    show p.items.dropLast.length < p.items.length
    rw [List.length_dropLast]
    omega

/-- The loop of `rollback`; `none` is a part that is not continued. -/
def unwriteAll (p : YPipe Item) : Option (YPipe Item) :=
  match _h : p.unwrite with
  | (none, p') => some p'
  | (some v, p') => if v.more then unwriteAll p' else none
termination_by p.items.length
decreasing_by exact unwrite_length _h

def rollback (s : Pipe) : Option Pipe :=
  (unwriteAll s.pipe).map fun pipe => { s with pipe := pipe }

/-- `flush`, up to the compare-and-swap. -/
def flush (s : Pipe) : Pipe :=
  match s.pipe.flush with
  | (alive, pipe) => { s with pipe := pipe, waking := !alive }

/-- The rest of `flush` if the reader was asleep. -/
def wake (s : Pipe) : Pipe :=
  { s with
    pipe := s.pipe.setC
    waking := false
    toReader := s.toReader ++ [.activateReader] }

def pushDelimiter (s : Pipe) : Pipe :=
  { s with pipe := s.pipe.write .delimiter false }.flush

/-- `writer_t::terminate`. -/
def terminateWriter (s : Pipe) : Option Pipe :=
  if s.writer.terminating = true then some s
  else
    let s := { s with writer := { s.writer with terminating := true, active := false } }
    s.rollback.map pushDelimiter

def processActivateWriter (msgsRead : Nat) (s : Pipe) : Pipe :=
  let s := { s with writer := { s.writer with msgsRead := msgsRead } }
  if s.writer.active = false ∧ s.writer.terminating = false then
    { s with writer := { s.writer with active := true } }
  else s

def processPipeTerm (s : Pipe) : Pipe :=
  { s with
    writer := { s.writer with terminated := true }
    toReader := s.toReader ++ [.pipeTermAck] }

end Pipe

/-! ### The two threads -/

inductive PipeEvent where
  | checkRead
  | read (res : Option Frame)
  | terminateReader
  | readerCommand (c : ReaderCommand)
  | checkWrite
  | write (f : Frame) (ok : Bool)
  | rollback
  | flush
  | wake
  | terminateWriter
  | writerCommand (c : WriterCommand)
deriving DecidableEq, Repr

namespace Pipe

def processReader : ReaderCommand → Pipe → Pipe
  | .activateReader => processActivateReader
  | .pipeTermAck => processPipeTermAck

def processWriter : WriterCommand → Pipe → Pipe
  | .activateWriter msgsRead => processActivateWriter msgsRead
  | .pipeTerm => processPipeTerm

/-- An end is used until it is terminated, and the thread of the writer is in no flush. -/
def ReaderLives (s : Pipe) : Prop := s.reader.terminated = false

def WriterLives (s : Pipe) : Prop := s.writer.terminated = false ∧ s.waking = false

end Pipe

/-- The owners call any functions in any order. -/
def piping (hwm : Nat) : System Pipe PipeEvent where
  init s := s = createPipe hwm
  step s l s' :=
    match l with
    | .checkRead => s.ReaderLives ∧ s' = s.checkRead.2
    | .read res => s.ReaderLives ∧ s.read = (res, s')
    | .terminateReader => s.ReaderLives ∧ s' = s.terminateReader
    | .readerCommand c => s.ReaderLives ∧ ∃ rest, s.toReader = c :: rest ∧
        s' = { s with toReader := rest }.processReader c
    | .checkWrite => s.WriterLives ∧ s' = s.checkWrite.2
    | .write f ok => s.WriterLives ∧ s.write f = (ok, s')
    | .rollback => s.WriterLives ∧ s.rollback = some s'
    | .flush => s.WriterLives ∧ s' = s.flush
    | .wake => s.waking = true ∧ s' = s.wake
    | .terminateWriter => s.WriterLives ∧ s.terminateWriter = some s'
    | .writerCommand c => s.WriterLives ∧ ∃ rest, s.toWriter = c :: rest ∧
        s' = { s with toWriter := rest }.processWriter c

end RefereeBox.Zmq
