import RefereeBox.Zmq.Connection

/-! # Any Bytes

  What the receiver of a connection makes of bytes that no encoder has
  written. They are cut into encodings of frames as far as it goes; what is
  left is either the beginning of a frame, or begins with a size that is zero
  or cannot be allocated, and then the connection is closed. The sizes are those
  that an `int` can count: the receiver can be made to read 0 bytes by a larger
  one, or to allocate a block that is too small by one near 2^64.
-/

namespace RefereeBox.Zmq

open Transition

variable {m : Nat → Bool}

/-! ### The end of the frames -/

/-- A size that is not accepted, with any bytes behind it. -/
inductive Rejected (alloc : Nat → Bool) : List Byte → Prop where
  | short {size : Byte} (bytes : List Byte) : size ≠ 0xff → ¬ Decoder.Accepts alloc size.toNat →
      Rejected alloc (size :: bytes)
  | long {size : List Byte} (bytes : List Byte) : size.length = 8 →
      ¬ Decoder.Accepts alloc (getUint64 size) → Rejected alloc (0xff :: size ++ bytes)

/-- The beginning of a frame, with too few bytes for its size or for its flags and data. -/
inductive Incomplete (alloc : Nat → Bool) : List Byte → Prop where
  | nil : Incomplete alloc []
  | size {bytes : List Byte} : bytes.length < 8 → Incomplete alloc (0xff :: bytes)
  | short {size : Byte} {bytes : List Byte} : size ≠ 0xff → Decoder.Accepts alloc size.toNat →
      bytes.length < size.toNat → Incomplete alloc (size :: bytes)
  | long {size bytes : List Byte} : size.length = 8 → Decoder.Accepts alloc (getUint64 size) →
      bytes.length < getUint64 size → Incomplete alloc (0xff :: size ++ bytes)

/-- The bytes begin with the size of a frame. -/
inductive Announces : Nat → List Byte → Prop where
  | short {size : Byte} (bytes : List Byte) : size ≠ 0xff → Announces size.toNat (size :: bytes)
  | long {size : List Byte} (bytes : List Byte) : size.length = 8 →
      Announces (getUint64 size) (0xff :: size ++ bytes)

/-- The frames, and the one that the tail is the beginning of, have sizes that an `int`
    can count. -/
structure Countable (alloc : Nat → Bool) (fs : List Frame) (tail : List Byte) : Prop where
  frames : ∀ f ∈ fs, f.data.length < 2 ^ 31
  tail : ∀ size, Announces (size + 1) tail → Decoder.Accepts alloc (size + 1) → size < 2 ^ 31

/-- `bytes` are encodings of `fs`, and a `tail`. -/
structure Splits (fs : List Frame) (bytes tail : List Byte) : Prop where
  encodings : ∃ encodings : List (List Byte), bytes = encodings.flatten ++ tail ∧
    List.Forall₂ Decoder.IsEncoding fs encodings

theorem Splits.nil (tail : List Byte) : Splits [] tail tail := ⟨[], rfl, .nil⟩

theorem Splits.cons {f : Frame} {fs : List Frame} {encoding bytes tail : List Byte}
    (hf : Decoder.IsEncoding f encoding) (h : Splits fs bytes tail) :
    Splits (f :: fs) (encoding ++ bytes) tail := by
  obtain ⟨encodings, rfl, hfs⟩ := h.encodings
  refine ⟨encoding :: encodings, ?_, .cons hf hfs⟩
  rw [List.flatten_cons, List.append_assoc]

namespace Decoder

/-- Behind the beginning of a frame: data that are to be read are those of the frame. -/
structure Pending (m : Nat → Bool) (bytes : List Byte) (d : Decoder) : Prop where
  next : d.next ≠ none
  size : d.next = some .messageReady → Announces (d.size + 1) bytes ∧ Accepts m (d.size + 1)

/-- Behind the size: the flags and the data are there, or they are not complete. -/
theorem AtFlags.parse {d : Decoder} {size : Nat} (h : d.AtFlags size) (bytes : List Byte) :
    (∃ flags data rest d', bytes = flags :: data ++ rest ∧ data.length = size ∧ Fresh d' ∧
      d.feed m bytes =
        (⟨flags &&& 1 = 1, data⟩ :: (d'.feed m rest).1, (d'.feed m rest).2)) ∨
    (bytes.length < size + 1 ∧ ∃ d', d'.next ≠ none ∧ d'.size = size ∧
      d.feed m bytes = ([], d')) := by
  by_cases hlen : bytes.length < size + 1
  · exact .inr ⟨hlen, h.feed_few hlen⟩
  · cases bytes with
    | nil => exact absurd (Nat.succ_pos size) hlen
    | cons flags bytes =>
      rw [List.length_cons] at hlen
      have hdata : (bytes.take size).length = size := List.length_take_of_le (by omega)
      have hbytes : flags :: bytes = flags :: bytes.take size ++ bytes.drop size := by
        rw [List.cons_append, List.take_append_drop]
      obtain ⟨d', hfresh, hfeed⟩ :=
        AtFlags.feed_frame (m := m) flags (bytes.take size) (hdata.symm ▸ h)
      refine .inl ⟨flags, bytes.take size, bytes.drop size, d', hbytes, hdata, hfresh, ?_⟩
      rw [hbytes, hfeed]

/-- The decoder in front of a frame: what the bytes begin with. -/
theorem Fresh.parse {d : Decoder} (h : d.Fresh) (bytes : List Byte) :
    (∃ f encoding rest d', bytes = encoding ++ rest ∧ encoding ≠ [] ∧ IsEncoding f encoding ∧
      Fresh d' ∧ d.feed m bytes = (f :: (d'.feed m rest).1, (d'.feed m rest).2)) ∨
    (Rejected m bytes ∧ ∃ d', d'.next = none ∧ d.feed m bytes = ([], d')) ∨
    (Incomplete m bytes ∧ ∃ d', Pending m bytes d' ∧ d.feed m bytes = ([], d')) := by
  cases bytes with
  | nil =>
    refine .inr (.inr ⟨.nil, d, ⟨?_, ?_⟩, h.feed_nil⟩)
    · rw [h.next]
      exact Option.some_ne_none _
    · rw [h.next]
      exact fun hnext => nomatch hnext
  | cons size bytes =>
    -- the first byte is the size, or says that eight bytes of it follow
    by_cases hescape : size = 0xff
    · subst hescape
      by_cases hshort : bytes.length < 8
      · obtain ⟨d₁, hnext, hread, -, hfeed⟩ := feed_escape (m := m) h
        have hfeed₁ := feed_few (m := m) (d := d₁) (hread ▸ hshort)
        refine .inr (.inr ⟨.size hshort, d₁.fill bytes, ⟨?_, ?_⟩, (hfeed bytes).trans hfeed₁⟩)
        · show d₁.next ≠ none
          rw [hnext]
          exact Option.some_ne_none _
        · show d₁.next = _ → _
          rw [hnext]
          exact fun hnext => nomatch hnext
      · -- the eight bytes of the size, and what is behind them
        obtain ⟨size, rest, rfl, hlen⟩ : ∃ size rest, bytes = size ++ rest ∧ size.length = 8 :=
          ⟨bytes.take 8, bytes.drop 8, (List.take_append_drop 8 bytes).symm,
            List.length_take_of_le (by omega)⟩
        by_cases haccepts : Accepts m (getUint64 size)
        · obtain ⟨d₁, hflags, hfeed⟩ := (feed_longSize h hlen).1 haccepts
          have hsize := Nat.succ_pred haccepts.1
          obtain ⟨flags, data, tail, d', rfl, hdata, hfresh, hframe⟩ |
            ⟨hpart, d', hd', hlast, hnone⟩ := hflags.parse (m := m) rest
          · refine .inl ⟨_, 0xff :: size ++ flags :: data, tail, d', ?_, List.cons_ne_nil _ _,
              .long hlen (hdata ▸ hsize.symm), hfresh, ?_⟩
            · simp only [List.cons_append, List.append_assoc]
            · exact (hfeed _).trans hframe
          · have hsize' : d'.size + 1 = getUint64 size := hlast ▸ hsize
            refine .inr (.inr ⟨.long hlen haccepts (Nat.lt_of_lt_of_eq hpart hsize), d',
              ⟨hd', fun _ => ?_⟩, (hfeed _).trans hnone⟩)
            rw [hsize']
            exact ⟨.long rest hlen, haccepts⟩
        · -- the size is 0, or no message of it can be initialised: the decoder stops for good
          obtain ⟨d', hd', hfeed⟩ := (feed_longSize h hlen).2 haccepts
          exact .inr (.inl ⟨.long rest hlen haccepts, d', hd', hfeed rest⟩)
    · by_cases haccepts : Accepts m size.toNat
      · obtain ⟨d₁, hflags, hfeed⟩ := (feed_shortSize h hescape).1 haccepts
        have hsize := Nat.succ_pred haccepts.1
        obtain ⟨flags, data, tail, d', rfl, hdata, hfresh, hframe⟩ |
          ⟨hpart, d', hd', hlast, hnone⟩ := hflags.parse (m := m) bytes
        · exact .inl ⟨_, size :: flags :: data, tail, d', rfl, List.cons_ne_nil _ _,
            .short hescape (hdata ▸ hsize.symm), hfresh, (hfeed _).trans hframe⟩
        · have hsize' : d'.size + 1 = size.toNat := hlast ▸ hsize
          refine .inr (.inr ⟨.short hescape haccepts (Nat.lt_of_lt_of_eq hpart hsize), d',
            ⟨hd', fun _ => ?_⟩, (hfeed _).trans hnone⟩)
          rw [hsize']
          exact ⟨.short bytes hescape, haccepts⟩
      · obtain ⟨d', hd', hfeed⟩ := (feed_shortSize h hescape).2 haccepts
        exact .inr (.inl ⟨.short bytes hescape haccepts, d', hd', hfeed bytes⟩)

/-- All of the bytes. The induction is on their number. -/
theorem Fresh.parses {d : Decoder} (h : d.Fresh) (bytes : List Byte) :
    ∃ tail, Splits (d.feed m bytes).1 bytes tail ∧
      ((d.feed m bytes).2.next = none ∧ Rejected m tail ∨
        Pending m tail (d.feed m bytes).2 ∧ Incomplete m tail) := by
  induction hn : bytes.length using Nat.strongRecOn generalizing d bytes with
  | ind n ih =>
    obtain ⟨f, encoding, rest, d', rfl, hne, hencoding, hfresh, hfeed⟩ |
      ⟨hrejected, d', hd', hfeed⟩ | ⟨hincomplete, d', hd', hfeed⟩ := h.parse (m := m) bytes
    · have hpos := List.length_pos_iff.mpr hne
      rw [List.length_append] at hn
      obtain ⟨tail, hsplits, hend⟩ := ih rest.length (by omega) hfresh rest rfl
      rw [hfeed]
      exact ⟨tail, hsplits.cons hencoding, hend⟩
    · rw [hfeed]
      exact ⟨bytes, .nil bytes, .inl ⟨hd', hrejected⟩⟩
    · rw [hfeed]
      exact ⟨bytes, .nil bytes, .inr ⟨hd', hincomplete⟩⟩

end Decoder

/-! ### The receiver -/

/-- A receiver of `bytes`, in any number of events. -/
def reception (alloc : Nat → Bool) (bytes : List Byte) : System Connection (Nat × Nat) where
  init s := s = { stream := bytes }
  step s l s' := s.closed = false ∧ s' = s.inEvent alloc l.1 l.2

namespace Connection

/-- The invariant: what is delivered, and what the decoder makes of the bytes that are
    left, is what a decoder makes of all of them, whatever they are. -/
structure Conserved (m : Nat → Bool) (bytes : List Byte) (s : Connection) : Prop where
  read : ∃ read, bytes = read ++ s.stream ∧ ∀ more,
    if s.closed then
      (Decoder.feed m {} (read ++ more)).1 = s.delivered ∧
        (Decoder.feed m {} (read ++ more)).2.next = none
    else
      Decoder.feed m {} (read ++ more) =
        (s.delivered ++ (s.receiver.decoder.feed m (s.receiver.inbuf ++ more)).1,
          (s.receiver.decoder.feed m (s.receiver.inbuf ++ more)).2)
  closed : s.closed = true ↔ s.receiver.decoder.next = none
  buffer : s.closed = false → s.receiver.inbuf ≠ [] → s.receiver.zeroCopy = false
  sized : s.receiver.decoder.Sized

variable {bytes tail : List Byte} {s : Connection}

theorem Conserved.init (bytes : List Byte) : Conserved m bytes { stream := bytes } where
  read := ⟨[], rfl, fun _ => rfl⟩
  closed := ⟨fun h => (by cases h), fun h => (by cases h)⟩
  buffer _ h := absurd rfl h
  sized := .of_le (Nat.le_of_ble_eq_true rfl)

/-- With the bytes that are still to come. -/
theorem Conserved.feed_eq (h : Conserved m bytes s) (hopen : s.closed = false) :
    Decoder.feed m {} bytes =
      (s.delivered ++ (s.receiver.decoder.feed m (s.receiver.inbuf ++ s.stream)).1,
        (s.receiver.decoder.feed m (s.receiver.inbuf ++ s.stream)).2) := by
  obtain ⟨read, hbytes, hread⟩ := h.read
  have heq := hread s.stream
  rw [if_neg (by rw [hopen]; decide), ← hbytes] at heq
  exact heq

theorem Conserved.delivered_prefix (h : Conserved m bytes s) :
    s.delivered <+: (Decoder.feed m {} bytes).1 := by
  cases hclosed : s.closed with
  | false =>
    rw [h.feed_eq hclosed]
    exact List.prefix_append _ _
  | true =>
    obtain ⟨read, hbytes, hread⟩ := h.read
    have heq := hread s.stream
    rw [if_pos hclosed, ← hbytes] at heq
    exact ⟨[], by rw [heq.1, List.append_nil]⟩

/-- What is to be read belongs to a frame of the bytes, or to the one that they end in. -/
theorem Conserved.getBuffer_lt (h : Conserved m bytes s) (hopen : s.closed = false)
    (hcount : Countable m (Decoder.feed m {} bytes).1 tail)
    (hend : Decoder.Pending m tail (Decoder.feed m {} bytes).2 ∨
      (Decoder.feed m {} bytes).2.next = none) :
    (s.receiver.decoder.getBuffer inBatchSize).2 < 2 ^ 31 := by
  apply Decoder.getBuffer_lt
  rw [h.feed_eq hopen] at hcount hend
  obtain hle | ⟨hnext, hle⟩ | ⟨f, hf, hle⟩ := h.sized.toRead_le
    (rfl : _ = Decoder.feed m s.receiver.decoder (s.receiver.inbuf ++ s.stream))
  · exact Nat.lt_of_le_of_lt hle (by decide)
  · obtain hpending | hnone := hend
    · obtain ⟨hannounces, haccepts⟩ := hpending.size hnext
      exact Nat.lt_of_le_of_lt hle (hcount.tail _ hannounces haccepts)
    · rw [hnext] at hnone
      cases hnone
  · exact Nat.lt_of_le_of_lt hle (hcount.frames f (List.mem_append_right _ hf))

/-- What `in_event` does, with or without an error. -/
theorem Conserved.inEvent_cases (h : Conserved m bytes s) (hopen : s.closed = false)
    (hlt : (s.receiver.decoder.getBuffer inBatchSize).2 < 2 ^ 31) (nbytes room : Nat) :
    ∃ size zeroCopy data unprocessed d' dest',
      data = s.receiver.inbuf ++ s.stream.take size ∧
      (s.receiver.inbuf = [] → 0 < nbytes → 0 < size) ∧
      Decoder.processBuffer.loop m s.receiver.decoder { room := room } data =
        (unprocessed, d', dest') ∧
      (zeroCopy = true → d'.next ≠ none → unprocessed = []) ∧
      s.inEvent m nbytes room = s.received size zeroCopy data
        (if d'.next = none then none else some unprocessed) d' dest'.written := by
  obtain ⟨size, zeroCopy, data, hdata, hsize, hcopy, hevent⟩ :=
    buffer_cases (m := m) (h.buffer hopen) hlt nbytes room
  generalize hloop : Decoder.processBuffer.loop m s.receiver.decoder { room := room } data = r
  obtain ⟨unprocessed, d', dest'⟩ := r
  have hnext : s.receiver.decoder.next ≠ none := by
    intro hnone
    rw [h.closed.mpr hnone] at hopen
    cases hopen
  have hprocess := Decoder.processBuffer_eq hcopy hnext hloop
  refine ⟨size, zeroCopy, data, unprocessed, d', dest', hdata, hsize, hloop, ?_,
    hevent _ _ _ hprocess⟩
  intro hzero hnext'
  subst hzero
  rw [if_neg hnext'] at hprocess
  exact Decoder.processBuffer_zeroCopy_nil hprocess

theorem Conserved.inEvent (h : Conserved m bytes s) (hopen : s.closed = false)
    (hlt : (s.receiver.decoder.getBuffer inBatchSize).2 < 2 ^ 31) (nbytes room : Nat) :
    Conserved m bytes (s.inEvent m nbytes room) := by
  obtain ⟨size, zeroCopy, data, unprocessed, d', dest', rfl, -, hloop, hzero, hevent⟩ :=
    h.inEvent_cases hopen hlt nbytes room
  obtain ⟨fs, hwritten, hfeed⟩ := Decoder.processBuffer_loop_feed hloop
  obtain ⟨read, hbytes, hread⟩ := h.read
  have hbytes' : bytes = read ++ s.stream.take size ++ s.stream.drop size := by
    rw [List.append_assoc, List.take_append_drop]
    exact hbytes
  -- the buffer is fed, whatever follows it
  have hall : ∀ more, Decoder.feed m {} (read ++ s.stream.take size ++ more) =
      (s.delivered ++ fs ++ (d'.feed m (unprocessed ++ more)).1,
        (d'.feed m (unprocessed ++ more)).2) := by
    intro more
    have heq := hread (s.stream.take size ++ more)
    rw [if_neg (by rw [hopen]; decide), ← List.append_assoc, ← List.append_assoc, hfeed] at heq
    rw [heq, List.append_assoc]
  have hdelivered : dest'.written = fs := hwritten
  rw [hevent]
  by_cases hnone : d'.next = none
  · -- behind an error the decoder takes nothing, whatever is still to come
    rw [if_pos hnone]
    refine ⟨⟨_, hbytes', fun more => ?_⟩, ⟨fun _ => hnone, fun _ => rfl⟩,
      fun hclosed => (by cases hclosed), h.sized.processBuffer_loop hloop⟩
    obtain ⟨hlost, hstays⟩ := Decoder.feed_none (m := m) hnone (unprocessed ++ more)
    show (Decoder.feed m {} _).1 = s.delivered ++ dest'.written ∧ _
    rw [hall, hlost, hdelivered, List.append_nil]
    exact ⟨rfl, hstays⟩
  · rw [if_neg hnone]
    refine ⟨⟨_, hbytes', fun more => ?_⟩,
      ⟨fun hclosed => (by cases hclosed), fun hclosed => absurd hclosed hnone⟩, ?_,
      h.sized.processBuffer_loop hloop⟩
    · show Decoder.feed m {} _ = (s.delivered ++ dest'.written ++ _, _)
      rw [hall, hdelivered]
      rfl
    · intro _ hne
      cases zeroCopy with
      | false => rfl
      | true => exact absurd (hzero rfl hnone) hne

section reachable
variable (hcount : Countable m (Decoder.feed m {} bytes).1 tail)
  (hend : Decoder.Pending m tail (Decoder.feed m {} bytes).2 ∨
    (Decoder.feed m {} bytes).2.next = none)
include hcount hend

theorem Conserved.of_reachable (hs : Reachable (reception m bytes) s) :
    Conserved m bytes s := by
  induction hs with
  | init h =>
    rw [show _ = ({ stream := bytes } : Connection) from h]
    exact .init bytes
  | step l _ hstep ih =>
    obtain ⟨hopen, rfl⟩ := hstep
    exact ih.inEvent hopen (ih.getBuffer_lt hopen hcount hend) l.1 l.2

end reachable

/-- Nothing is kept in the buffer, and what is read has been cut into the frames that are
    delivered and the beginning of the next one. -/
def Drained (m : Nat → Bool) (bytes : List Byte) (s : Connection) : Prop :=
  s.receiver.inbuf = [] ∧ ∃ read rest, bytes = read ++ s.stream ∧
    Splits s.delivered read rest ∧ Incomplete m rest

/-- Bytes that have come are read. -/
theorem Conserved.inEvent_reads (h : Conserved m bytes s) (hopen : s.closed = false)
    (hlt : (s.receiver.decoder.getBuffer inBatchSize).2 < 2 ^ 31) {nbytes : Nat}
    (hn : 0 < nbytes) (room : Nat) (hempty : s.receiver.inbuf = []) (hstream : s.stream ≠ []) :
    (s.inEvent m nbytes room).stream.length < s.stream.length := by
  obtain ⟨size, zeroCopy, data, unprocessed, d', dest', -, hsize, -, -, hevent⟩ :=
    h.inEvent_cases hopen hlt nbytes room
  have hlen := List.length_pos_iff.mpr hstream
  have hpos := hsize hempty hn
  rw [hevent]
  show (s.stream.drop size).length < _
  rw [List.length_drop]
  omega

/-- A session that does not fill up gets all frames that are complete. -/
theorem Conserved.inEvent_drained (h : Conserved m bytes s) (hopen : s.closed = false)
    (hlt : (s.receiver.decoder.getBuffer inBatchSize).2 < 2 ^ 31) {nbytes room : Nat}
    (hroom : (s.inEvent m nbytes room).delivered.length < s.delivered.length + room)
    (hopen' : (s.inEvent m nbytes room).closed = false) :
    (s.inEvent m nbytes room).Drained m bytes := by
  obtain ⟨read, hbytes, hread⟩ := (h.inEvent hopen hlt nbytes room).read
  obtain ⟨size, zeroCopy, data, unprocessed, d', dest', -, -, hloop, -, hevent⟩ :=
    h.inEvent_cases hopen hlt nbytes room
  have hall := hread []
  rw [if_neg (by rw [hopen']; decide), List.append_nil, List.append_nil] at hall
  have hnext : d'.next ≠ none := by
    intro hnone
    rw [hevent, if_pos hnone] at hopen'
    cases hopen'
  rw [hevent, if_neg hnext] at hroom hall hbytes ⊢
  have htotal := Decoder.processBuffer_loop_room hloop
  -- the session has refused no frame, so the loop has taken all of the buffer
  have hleft : 0 < dest'.room := by
    change (s.delivered ++ dest'.written).length < _ at hroom
    rw [List.length_append] at hroom
    change _ = room + 0 at htotal
    omega
  obtain ⟨rfl, hlast⟩ := processBuffer_loop_all hleft hnext hloop
  refine ⟨rfl, read, ?_⟩
  -- a new decoder that gets all that was read ends in the same state
  obtain ⟨rest, hsplits, hend⟩ := Decoder.Fresh.init.parses (m := m) read
  have hstate : (Decoder.feed m {} read).2 = d' := by
    rw [hall]
    exact congrArg Prod.snd hlast
  have hframes : (Decoder.feed m {} read).1 = s.delivered ++ dest'.written := by
    rw [hall]
    show s.delivered ++ dest'.written ++ (d'.feed m []).1 = _
    rw [hlast, List.append_nil]
  rw [hframes] at hsplits
  refine ⟨rest, hbytes, hsplits, (hend.resolve_left fun hnone => hnext ?_).2⟩
  rw [← hstate]
  exact hnone.1

/-- With all bytes read, an event with room for a frame delivers what is left. -/
theorem Conserved.inEvent_last (h : Conserved m bytes s) (hopen : s.closed = false)
    (hlt : (s.receiver.decoder.getBuffer inBatchSize).2 < 2 ^ 31)
    (hread : s.receiver.inbuf ++ s.stream = []) (nbytes : Nat) {room : Nat} (hroom : 0 < room) :
    (s.inEvent m nbytes room).delivered = (Decoder.feed m {} bytes).1 ∧
      ((s.inEvent m nbytes room).closed = true ↔ (Decoder.feed m {} bytes).2.next = none) := by
  obtain ⟨size, zeroCopy, data, unprocessed, d', dest', hdata, -, hloop, -, hevent⟩ :=
    h.inEvent_cases hopen hlt nbytes room
  obtain ⟨fs, hwritten, hfeed⟩ := Decoder.processBuffer_loop_feed hloop
  obtain ⟨hempty, hstream⟩ := List.append_eq_nil_iff.mp hread
  rw [hempty, hstream, List.take_nil, List.append_nil] at hdata
  subst hdata
  have hall := h.feed_eq hopen
  have hfed := hfeed []
  rw [List.append_nil, List.append_nil] at hfed
  rw [hread, hfed] at hall
  have hdelivered : dest'.written = fs := hwritten
  rw [hevent, hall]
  by_cases hnext : d'.next = none
  · obtain ⟨hlost, hstays⟩ := Decoder.feed_none (m := m) hnext unprocessed
    rw [if_pos hnext]
    refine ⟨?_, iff_of_true rfl hstays⟩
    show s.delivered ++ dest'.written = _
    rw [hlost, List.append_nil, hdelivered]
  · -- only one frame can be left: the one that the session has refused
    obtain ⟨rfl, hlast⟩ := processBuffer_loop_last (m := m) hroom hnext hloop
    rw [if_neg hnext, hlast]
    refine ⟨?_, iff_of_false (fun hclosed => (by cases hclosed)) hnext⟩
    show s.delivered ++ dest'.written = _
    rw [List.append_nil, hdelivered]

end Connection

/-- **Any bytes.** Whatever a peer sends, it splits into encodings of frames and a
    tail that is incomplete, or has a size that is not accepted. Where the sizes are ones
    that an `int` can count, in every run the frames are delivered in order, and the
    connection is closed for such a tail only, and behind all frames. An event reads
    bytes that have come; where the session does not fill up it empties the buffer and
    hands over exactly the frames that are complete; and with all bytes read nothing is
    kept back. -/
theorem reception_splits (malloc : Nat → Bool) (bytes : List Byte) :
    ∃ fs tail, Splits fs bytes tail ∧
      (Rejected (msgInitSize malloc) tail ∨ Incomplete (msgInitSize malloc) tail) ∧
      (Countable (msgInitSize malloc) fs tail →
        ∀ s, Reachable (reception (msgInitSize malloc) bytes) s →
          s.delivered <+: fs ∧
          (s.closed = true → s.delivered = fs ∧ Rejected (msgInitSize malloc) tail) ∧
          (s.closed = false → ∀ nbytes room,
            let s' := s.inEvent (msgInitSize malloc) nbytes room
            (0 < nbytes → s.receiver.inbuf = [] → s.stream ≠ [] →
              s'.stream.length < s.stream.length) ∧
            (s'.delivered.length < s.delivered.length + room → s'.closed = false →
              s'.Drained (msgInitSize malloc) bytes) ∧
            (s.receiver.inbuf ++ s.stream = [] → 0 < room → s'.delivered = fs ∧
              if s'.closed = true then Rejected (msgInitSize malloc) tail
              else Incomplete (msgInitSize malloc) tail))) := by
  obtain ⟨tail, hsplits, hend⟩ := Decoder.Fresh.init.parses (m := msgInitSize malloc) bytes
  have htail : (Decoder.feed (msgInitSize malloc) {} bytes).2.next = none →
      Rejected (msgInitSize malloc) tail := fun hnone =>
    hend.elim And.right fun h => absurd hnone h.1.next
  refine ⟨_, tail, hsplits, hend.imp And.right And.right, fun hcount s hs => ?_⟩
  have hend' := hend.symm.imp And.left And.left
  have h := Connection.Conserved.of_reachable hcount hend' hs
  refine ⟨h.delivered_prefix, fun hclosed => ?_, fun hopen nbytes room => ?_⟩
  · obtain ⟨read, hbytes, hread⟩ := h.read
    have hall := hread s.stream
    rw [if_pos hclosed, ← hbytes] at hall
    exact ⟨hall.1.symm, htail hall.2⟩
  · have hlt := h.getBuffer_lt hopen hcount hend'
    refine ⟨fun hn => h.inEvent_reads hopen hlt hn room, h.inEvent_drained hopen hlt,
      fun hread hroom => ?_⟩
    obtain ⟨hdelivered, hclosed⟩ := h.inEvent_last hopen hlt hread nbytes hroom
    refine ⟨hdelivered, ?_⟩
    split
    · next hclosed' => exact htail (hclosed.mp hclosed')
    · next hopen' => exact (hend.resolve_left fun hnone => hopen' (hclosed.mpr hnone.1)).2

theorem Decoder.IsEncoding.length_lt {f : Frame} {encoding : List Byte}
    (h : Decoder.IsEncoding f encoding) : f.data.length < encoding.length := by
  cases h with
  | @short size flags data _ _ =>
    show data.length < data.length + 1 + 1
    omega
  | @long size data flags _ _ =>
    rw [List.length_append]
    show data.length < _ + (data.length + 1)
    omega

theorem Splits.length_le {fs : List Frame} {bytes tail : List Byte} (h : Splits fs bytes tail) :
    (∀ f ∈ fs, f.data.length ≤ bytes.length) ∧ fs.length + tail.length ≤ bytes.length := by
  obtain ⟨encodings, rfl, hfs⟩ := h.encodings
  induction hfs with
  | nil => exact ⟨fun f hf => (nomatch hf), by simp⟩
  | cons hf hfs ih =>
    have hlt := hf.length_lt
    obtain ⟨hframes, hlen⟩ := ih ⟨_, rfl, hfs⟩
    rw [List.length_append] at hframes hlen
    simp only [List.flatten_cons, List.length_append, List.length_cons]
    refine ⟨List.forall_mem_cons.mpr ⟨by omega, fun f hf => ?_⟩, by omega⟩
    have hle := hframes f hf
    omega

/-- A frame and the beginning of another one, in one event. -/
theorem reception_splits_one :
    let s := ({ stream := [2, 0, 65, 3] } : Connection).inEvent (msgInitSize fun _ => true) 4 5
    s.closed = false → s.Drained (msgInitSize fun _ => true) [2, 0, 65, 3] := by
  intro s hopen
  obtain ⟨fs, tail, hsplits, -, h⟩ := reception_splits (fun _ => true) [2, 0, 65, 3]
  obtain ⟨hframes, hlen⟩ := hsplits.length_le
  have hcount : Countable (msgInitSize fun _ => true) fs tail := by
    refine ⟨fun f hf => Nat.lt_of_le_of_lt (hframes f hf) (by decide), fun size hsize _ => ?_⟩
    generalize hn : size + 1 = n at hsize
    cases hsize with
    | short bytes _ =>
      have hbyte := UInt8.toNat_lt ‹Byte›
      omega
    | long bytes hlong =>
      simp only [List.length_append, List.length_cons, List.length_nil] at hlen
      omega
  obtain ⟨hpre, -⟩ := h hcount s (.step (4, 5) (.init rfl) ⟨rfl, rfl⟩)
  obtain ⟨-, -, hevent⟩ := h hcount _ (.init rfl)
  refine (hevent rfl 4 5).2.1 ?_ hopen
  have hle := hpre.length_le
  change s.delivered.length < 0 + 5
  change _ ≤ 4 at hlen
  omega

end RefereeBox.Zmq
