import Mathlib.Algebra.Group.Nat.Defs
import Mathlib.Data.List.Basic

/-! # The Wire Format of ZeroMQ

  `encoder_t` and `decoder_t` as the I/O threads run them. The encoder fills
  buffers of a fixed size with the frames that it reads from the session, and
  the decoder cuts any buffers of bytes into frames that it writes to the
  session. Both are state machines over `next_step`; they stop in the middle
  of a frame when the buffer is full, or used up, or the session has no frame,
  or no room.

  Of the flags of a message the encoder sends `ZMQ_MSG_MORE` alone. The decoder
  keeps the byte that comes, of which the frames here have that flag.
-/

namespace RefereeBox.Zmq

abbrev Byte := UInt8

/-- `ZMQ_MAX_VSM_SIZE`. -/
def maxVsmSize : Nat := 30

/-- `sizeof (msg_content_t)`: four words and a counter of 32 bits. -/
def sizeofMsgContent : Nat := 40

/-- A message part. -/
structure Frame where
  more : Bool := false
  data : List Byte
deriving DecidableEq, Repr

/-- `zmq_msg_init_size` for sizes of 64 bits: small messages lie in the structure
    itself, others behind a `msg_content_t` in one block. The size of the block wraps
    near 2^64; `malloc` says which ones there are. -/
def msgInitSize (malloc : Nat → Bool) (size : Nat) : Bool :=
  if size ≤ maxVsmSize then true else malloc ((sizeofMsgContent + size) % 2 ^ 64)

/-- A frame that an `int` can count, and that can be allocated. -/
def Frame.Fits (alloc : Nat → Bool) (f : Frame) : Prop :=
  f.data.length + 1 < 2 ^ 31 ∧ alloc f.data.length = true

/-! ### Numbers -/

/-- The eight bytes of `value`, the first one the highest. -/
def putUint64 (value : Nat) : List Byte :=
  [UInt8.ofNat (value >>> 56), UInt8.ofNat (value >>> 48), UInt8.ofNat (value >>> 40),
    UInt8.ofNat (value >>> 32), UInt8.ofNat (value >>> 24), UInt8.ofNat (value >>> 16),
    UInt8.ofNat (value >>> 8), UInt8.ofNat value]

def getUint64 (buffer : List Byte) : Nat :=
  let byte := fun i => (buffer.getD i 0).toNat
  byte 0 <<< 56 ||| byte 1 <<< 48 ||| byte 2 <<< 40 ||| byte 3 <<< 32 |||
    byte 4 <<< 24 ||| byte 5 <<< 16 ||| byte 6 <<< 8 ||| byte 7

/-! ### The encoder -/

inductive EncoderStep where
  | messageReady
  | sizeReady
deriving DecidableEq, Repr

/-- `toWrite` are the bytes at `write_pos` that are not yet in a buffer. -/
structure Encoder where
  toWrite : List Byte := []
  next : EncoderStep := .messageReady
  inProgress : Frame := { data := [] }
deriving DecidableEq, Repr

namespace Encoder

def nextStep (e : Encoder) (toWrite : List Byte) (next : EncoderStep) : Encoder :=
  { e with toWrite := toWrite, next := next }

def sizeReady (e : Encoder) : Encoder := e.nextStep e.inProgress.data .messageReady

/-- The bytes in front of the data. The size counts the byte of the flags. -/
def header (f : Frame) : List Byte :=
  let size := f.data.length + 1
  let flags : Byte := if f.more then 1 else 0
  if size < 255 then [UInt8.ofNat size, flags] else 0xff :: putUint64 size ++ [flags]

/-- `(this->*next) ()`. The frames that can be read are in `source`. -/
def act (e : Encoder) (source : List Frame) : Bool × Encoder × List Frame :=
  match e.next with
  | .sizeReady => (true, e.sizeReady, source)
  | .messageReady =>
    match source with
    | [] => (false, { e with inProgress := { data := [] } }, [])
    | f :: source => (true, { e with inProgress := f }.nextStep (header f) .sizeReady, source)

/-- The action at the head of the loop of `get_data`. -/
def refill (e : Encoder) (source : List Frame) : Bool × Encoder × List Frame :=
  if e.toWrite = [] then e.act source else (true, e, source)

/-- What the actions still have to do, with what is to be written now counted last. -/
def work (e : Encoder) (source : List Frame) : Nat :=
  2 * (2 * source.length + if e.next = .sizeReady then 1 else 0) + if e.toWrite = [] then 0 else 1

/-- A refill leaves less to do once its bytes are written. -/
theorem work_refill {e e' : Encoder} {source source' : List Frame}
    (h : e.refill source = (true, e', source')) :
    { e' with toWrite := [] }.work source' < e.work source := by
  unfold refill at h
  split at h
  · next hempty =>
    unfold act at h
    split at h
    · next hnext =>
      cases h
      simp [work, sizeReady, nextStep, hnext, hempty]
    · next hnext =>
      split at h
      · simp at h
      · cases h
        simp [work, nextStep, hnext, hempty]
        omega
  · next hne =>
    cases h
    simp [work, hne]

/-- `get_data` with `room` bytes left in the buffer. A first step that fills the
    buffer alone is given away as it is. -/
def getData.loop (e : Encoder) (source : List Frame) (buffer : List Byte) (room : Nat) :
    List Byte × Encoder × List Frame :=
  match _h : e.refill source with
  | (false, e', source') => (buffer, e', source')
  | (true, e', source') =>
    if buffer = [] ∧ room ≤ e'.toWrite.length then
      (e'.toWrite, { e' with toWrite := [] }, source')
    else
      let toCopy := min e'.toWrite.length room
      let buffer' := buffer ++ e'.toWrite.take toCopy
      let e'' := { e' with toWrite := e'.toWrite.drop toCopy }
      if room - toCopy = 0 then (buffer', e'', source')
      else getData.loop e'' source' buffer' (room - toCopy)
termination_by e.work source
decreasing_by
  have hall : e'.toWrite.drop (min e'.toWrite.length room) = [] := by
    apply List.drop_eq_nil_of_le
    omega
  simp only [hall]
  exact work_refill _h

def getData (bufsize : Nat) (e : Encoder) (source : List Frame) :
    List Byte × Encoder × List Frame :=
  getData.loop e source [] bufsize

end Encoder

/-! ### The decoder -/

inductive DecoderStep where
  | oneByteSizeReady
  | eightByteSizeReady
  | flagsReady
  | messageReady
deriving DecidableEq, Repr

/-- `filled` are the bytes read since `next_step`; they lie in `tmpbuf`, or in the
    message behind `flags_ready`. The size and the flags of `in_progress` are
    apart. There is no next step after a decoding error. -/
structure Decoder where
  next : Option DecoderStep := some .oneByteSizeReady
  toRead : Nat := 1
  filled : List Byte := []
  size : Nat := 0
  more : Bool := false
deriving DecidableEq, Repr

/-- The session that the frames are written to: it takes `room` more of them. -/
structure Destination where
  room : Nat
  written : List Frame := []
deriving DecidableEq, Repr

def Destination.write (f : Frame) (dest : Destination) : Option Destination :=
  match dest.room with
  | 0 => none
  | room + 1 => some { room := room, written := dest.written ++ [f] }

namespace Decoder

def nextStep (d : Decoder) (toRead : Nat) (next : DecoderStep) : Decoder :=
  { d with next := some next, toRead := toRead, filled := [] }

def decodingError (d : Decoder) : Decoder := { d with next := none }

/-- The end of both actions behind the size: `size` counts the byte of the flags.
    `alloc` says for which sizes `zmq_msg_init_size` succeeds. -/
def sizeRead (alloc : Nat → Bool) (size : Nat) (d : Decoder) : Bool × Decoder :=
  if size = 0 then (false, d.decodingError)
  else if alloc (size - 1) = false then (false, d.decodingError)
  else (true, { d with size := size - 1 }.nextStep 1 .flagsReady)

def oneByteSizeReady (alloc : Nat → Bool) (d : Decoder) : Bool × Decoder :=
  let byte := d.filled.headD 0
  if byte = 0xff then (true, d.nextStep 8 .eightByteSizeReady) else d.sizeRead alloc byte.toNat

def eightByteSizeReady (alloc : Nat → Bool) (d : Decoder) : Bool × Decoder :=
  d.sizeRead alloc (getUint64 d.filled)

def flagsReady (d : Decoder) : Decoder :=
  { d with more := d.filled.headD 0 &&& 1 = 1 }.nextStep d.size .messageReady

def messageReady (d : Decoder) (dest : Destination) : Bool × Decoder × Destination :=
  match dest.write ⟨d.more, d.filled⟩ with
  | none => (false, d, dest)
  | some dest => (true, d.nextStep 1 .oneByteSizeReady, dest)

/-- `(this->*next) ()`. -/
def act (alloc : Nat → Bool) (d : Decoder) (dest : Destination) : Bool × Decoder × Destination :=
  match d.next with
  | none => (false, d, dest)
  | some .oneByteSizeReady => ((d.oneByteSizeReady alloc).1, (d.oneByteSizeReady alloc).2, dest)
  | some .eightByteSizeReady =>
    ((d.eightByteSizeReady alloc).1, (d.eightByteSizeReady alloc).2, dest)
  | some .flagsReady => (true, d.flagsReady, dest)
  | some .messageReady => d.messageReady dest

/-- How many actions can follow with nothing to read: an empty message needs no
    bytes behind its flags. -/
def rank (d : Decoder) : Nat :=
  if 0 < d.toRead then 0 else if d.next = some .flagsReady then 2 else 1

theorem rank_sizeRead {alloc : Nat → Bool} {size : Nat} {d d' : Decoder}
    (h : d.sizeRead alloc size = (true, d')) : d'.toRead = 1 := by
  unfold sizeRead at h
  split at h
  · simp at h
  · split at h
    · simp at h
    · cases h
      simp only [nextStep]

theorem rank_act {alloc : Nat → Bool} {d d' : Decoder} {dest dest' : Destination}
    (hread : ¬ 0 < d.toRead) (h : d.act alloc dest = (true, d', dest')) : d'.rank < d.rank := by
  unfold act at h
  split at h
  · simp at h
  · next hnext =>
    have hd' : (d.oneByteSizeReady alloc) = (true, d') := by
      simp only [Prod.mk.injEq] at h
      exact Prod.ext h.1 h.2.1
    have hpos : 0 < d'.toRead := by
      unfold oneByteSizeReady at hd'
      simp only at hd'
      split at hd'
      · cases hd'
        simp [nextStep]
      · rw [rank_sizeRead hd']
        omega
    simp [rank, hread, hpos, hnext]
  · next hnext =>
    have hd' : d.eightByteSizeReady alloc = (true, d') := by
      simp only [Prod.mk.injEq] at h
      exact Prod.ext h.1 h.2.1
    simp [rank, hread, rank_sizeRead hd', hnext]
  · next hnext =>
    cases h
    by_cases hsize : 0 < d.size <;> simp [rank, hread, hnext, flagsReady, nextStep, hsize]
  · next hnext =>
    unfold messageReady at h
    split at h
    · simp at h
    · cases h
      simp [rank, hread, hnext, nextStep]

/-- `while (!to_read)`. The result is false if an action was. -/
def runActions (alloc : Nat → Bool) (d : Decoder) (dest : Destination) :
    Bool × Decoder × Destination :=
  if _hread : 0 < d.toRead then (true, d, dest)
  else
    match _h : d.act alloc dest with
    | (false, d', dest') => (false, d', dest')
    | (true, d', dest') => runActions alloc d' dest'
termination_by d.rank
decreasing_by exact rank_act _hread _h

/-- Copies `bytes` to `read_pos`. -/
def fill (d : Decoder) (bytes : List Byte) : Decoder :=
  { d with toRead := d.toRead - bytes.length, filled := d.filled ++ bytes }

theorem runActions_toRead {alloc : Nat → Bool} {d d' : Decoder} {dest dest' : Destination}
    (h : d.runActions alloc dest = (true, d', dest')) : 0 < d'.toRead := by
  fun_induction runActions alloc d dest with
  | case1 d dest hread =>
    cases h
    exact hread
  | case2 => simp at h
  | case3 d dest hread d₁ dest₁ hact ih => exact ih h

/-- The loop of `process_buffer`, with the bytes of the buffer from `pos` on. What
    is left of them is not processed. -/
def processBuffer.loop (alloc : Nat → Bool) (d : Decoder) (dest : Destination) (data : List Byte) :
    List Byte × Decoder × Destination :=
  match _h : d.runActions alloc dest with
  | (false, d', dest') => (data, d', dest')
  | (true, d', dest') =>
    if _hdata : data = [] then (data, d', dest')
    else
      let toCopy := min d'.toRead data.length
      processBuffer.loop alloc (d'.fill (data.take toCopy)) dest' (data.drop toCopy)
termination_by data.length
decreasing_by
  have hread := runActions_toRead _h
  have hlen : 0 < data.length := List.length_pos_iff.mpr _hdata
  rw [List.length_drop]
  omega

/-- `process_buffer`; `zeroCopy` says that the buffer is the message itself. The
    bytes that are not processed, or none after a decoding error. -/
def processBuffer (alloc : Nat → Bool) (zeroCopy : Bool) (d : Decoder) (dest : Destination)
    (data : List Byte) : Option (List Byte) × Decoder × Destination :=
  if d.next = none then (none, d, dest)
  else
    let (unprocessed, d, dest) :=
      if zeroCopy then
        let (_, d, dest) := (d.fill data).runActions alloc dest
        ([], d, dest)
      else processBuffer.loop alloc d dest data
    (if d.next = none then none else some unprocessed, d, dest)

/-- `get_buffer`: whether the buffer is the message itself, and its size. -/
def getBuffer (bufsize : Nat) (d : Decoder) : Bool × Nat :=
  if bufsize ≤ d.toRead then (true, d.toRead) else (false, bufsize)

end Decoder

end RefereeBox.Zmq
