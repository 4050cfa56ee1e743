import RefereeBox.Lib.Transition
import RefereeBox.Model.Wire

/-! # A Connection Between Two Engines

  `zmq_engine_t` on both ends of a TCP connection, one direction of it: the
  session of the sender has frames to be read, `out_event` writes any number
  of the bytes of a batch, `in_event` reads any number of bytes and writes
  frames to the session of the receiver as long as that takes them. The bytes
  in between are kept in order: the TCP connection neither fails nor is it shut
  down by a peer. What is sent and delivered is recorded.

  `tcp_socket_t` takes sizes as `int`. A size from 2^31 on is another one there,
  and reading 0 bytes looks like a shutdown.
-/

namespace RefereeBox.Zmq

open Transition

def inBatchSize : Nat := 8192
def outBatchSize : Nat := 8192

/-- What `send` and `recv` get of a size: it goes through an `int`. -/
def ioSize (size : Nat) : Nat := ((BitVec.ofNat 32 size).signExtend 64).toNat

/-! ### The engine -/

/-- `inbuf` are the bytes from `inpos` on, `outbuf` those from `outpos` on. -/
structure Engine where
  inbuf : List Byte := []
  zeroCopy : Bool := false
  decoder : Decoder := {}
  outbuf : List Byte := []
  encoder : Encoder := {}
deriving DecidableEq, Repr

namespace Engine

/-- `in_event`; `received` is what `tcp_socket.read` has put into the buffer, if it
    is called, or none if it found the connection shut down. The first result is
    `disconnection`. -/
def inEvent (alloc : Nat → Bool) (received : Option (List Byte)) (dest : Destination) (e : Engine) :
    Bool × Engine × Destination :=
  let (disconnection, e) :=
    if e.inbuf = [] then
      (received.isNone, { e with
        inbuf := received.getD [], zeroCopy := (e.decoder.getBuffer inBatchSize).1 })
    else (false, e)
  match e.decoder.processBuffer alloc e.zeroCopy dest e.inbuf with
  | (none, decoder, dest) => (true, { e with decoder := decoder }, dest)
  | (some unprocessed, decoder, dest) =>
    (disconnection, { e with decoder := decoder, inbuf := unprocessed }, dest)

/-- `out_event`: `tcp_socket.write` takes at most `nbytes` bytes of the batch. The
    first result are the bytes taken. -/
def outEvent (nbytes : Nat) (source : List Frame) (e : Engine) :
    List Byte × Engine × List Frame :=
  let (outbuf, encoder, source) :=
    if e.outbuf = [] then e.encoder.getData outBatchSize source
    else (e.outbuf, e.encoder, source)
  let nbytes := min nbytes (ioSize outbuf.length)
  (outbuf.take nbytes, { e with outbuf := outbuf.drop nbytes, encoder := encoder }, source)

end Engine

/-! ### The connection -/

structure Connection where
  /-- What the session of the sender has to read. -/
  source : List Frame := []
  sender : Engine := {}
  /-- The bytes that are under way. -/
  stream : List Byte := []
  receiver : Engine := {}
  /-- The receiver has found a decoding error, or a shutdown. -/
  closed : Bool := false
  sent : List Frame := []
  delivered : List Frame := []
deriving DecidableEq, Repr

namespace Connection

def write (f : Frame) (s : Connection) : Connection :=
  { s with source := s.source ++ [f], sent := s.sent ++ [f] }

def outEvent (nbytes : Nat) (s : Connection) : Connection :=
  let (bytes, sender, source) := s.sender.outEvent nbytes s.source
  { s with sender := sender, source := source, stream := s.stream ++ bytes }

/-- `tcp_socket.read` of `size` bytes, of which `nbytes` have come. -/
def read (size nbytes : Nat) (s : Connection) : Option (List Byte) :=
  if ioSize size = 0 then none else some (s.stream.take (min nbytes (ioSize size)))

/-- At most `nbytes` bytes are read; the session takes `room` frames. -/
def inEvent (alloc : Nat → Bool) (nbytes room : Nat) (s : Connection) : Connection :=
  let received := s.read (s.receiver.decoder.getBuffer inBatchSize).2 nbytes
  let taken := if s.receiver.inbuf = [] then (received.getD []).length else 0
  let (disconnection, receiver, dest) := s.receiver.inEvent alloc received { room := room }
  { s with
    stream := s.stream.drop taken
    receiver := receiver
    closed := disconnection
    delivered := s.delivered ++ dest.written }

end Connection

inductive ConnectionEvent where
  | write (f : Frame)
  | outEvent (nbytes : Nat)
  | inEvent (nbytes room : Nat)
deriving DecidableEq, Repr

/-- Any order of the events, as long as the connection lasts. -/
def connection (alloc : Nat → Bool) : System Connection ConnectionEvent where
  init s := s = {}
  step s l s' :=
    s.closed = false ∧
      match l with
      | .write f => f.Fits alloc ∧ s' = s.write f
      | .outEvent nbytes => s' = s.outEvent nbytes
      | .inEvent nbytes room => s' = s.inEvent alloc nbytes room

end RefereeBox.Zmq
