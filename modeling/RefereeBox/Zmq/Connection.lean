import RefereeBox.Model.Engine
import RefereeBox.Zmq.Wire

/-! # Frames over a Connection

  The frames that one session has written reach the other one in order and
  none is lost, and no event of the two engines ends in a decoding error.
-/

namespace RefereeBox.Zmq

open Transition

/-! ### Sizes -/

/-- An `int` can count them. -/
theorem ioSize_of_lt {size : Nat} (h : size < 2 ^ 31) : ioSize size = size := by
  have hmsb : (BitVec.ofNat 32 size).msb = false := by
    rw [BitVec.msb_eq_false_iff_two_mul_lt, BitVec.toNat_ofNat]
    omega
  rw [ioSize, BitVec.signExtend_eq_setWidth_of_msb_false hmsb, BitVec.toNat_setWidth,
    BitVec.toNat_ofNat]
  omega

theorem Decoder.getBuffer_pos (d : Decoder) : 0 < (d.getBuffer inBatchSize).2 := by
  unfold Decoder.getBuffer
  split
  · next hle => exact Nat.lt_of_lt_of_le (by decide) hle
  · decide

theorem Decoder.getBuffer_lt {d : Decoder} (h : d.toRead < 2 ^ 31) :
    (d.getBuffer inBatchSize).2 < 2 ^ 31 := by
  unfold Decoder.getBuffer
  split
  · exact h
  · decide

/-! ### The invariant -/

namespace Connection

variable {m : Nat → Bool}

/-- Every size of the sender is one that an `int` can count, and the receiver reads
    frames. -/
structure Counted (s : Connection) : Prop where
  sent : ∀ f ∈ s.sent, f.data.length < 2 ^ 31
  source : ∀ f ∈ s.source, f.data.length < 2 ^ 31
  encoder : s.sender.encoder.Small
  batch : s.sender.outbuf.length < 2 ^ 31
  sized : s.receiver.decoder.Sized

theorem Counted.init : Counted {} where
  sent _ h := nomatch h
  source _ h := nomatch h
  encoder := ⟨by decide, by decide⟩
  batch := by decide
  sized := .of_le (by decide)

theorem Counted.write {s : Connection} {f : Frame} (h : s.Counted) (hf : f.data.length < 2 ^ 31) :
    (s.write f).Counted where
  sent g hg := (List.mem_append.mp hg).elim (h.sent g) fun hg => by
    rwa [List.mem_singleton.mp hg]
  source g hg := (List.mem_append.mp hg).elim (h.source g) fun hg => by
    rwa [List.mem_singleton.mp hg]
  encoder := h.encoder
  batch := h.batch
  sized := h.sized

theorem Counted.outEvent {s : Connection} (h : s.Counted) (nbytes : Nat) :
    (s.outEvent nbytes).Counted := by
  unfold Connection.outEvent Engine.outEvent
  by_cases hout : s.sender.outbuf = []
  · generalize hdata : s.sender.encoder.getData outBatchSize s.source = r
    obtain ⟨batch, encoder, source⟩ := r
    obtain ⟨hbatch, hencoder, hsource⟩ := h.encoder.getData_loop h.source (by decide) hdata
    simp only [hout, if_true]
    refine ⟨h.sent, hsource, hencoder, ?_, h.sized⟩
    rw [List.length_drop]
    exact Nat.lt_of_le_of_lt (Nat.sub_le _ _) hbatch
  · simp only [hout, if_false]
    refine ⟨h.sent, h.source, h.encoder, ?_, h.sized⟩
    rw [List.length_drop]
    exact Nat.lt_of_le_of_lt (Nat.sub_le _ _) h.batch

/-- The bytes that the receiver has still to process, in their order. -/
def toCome (s : Connection) : List Byte :=
  s.receiver.inbuf ++ (s.stream ++ (s.sender.outbuf ++
    (s.sender.encoder.rest ++ Encoder.encodeAll s.source)))

/-- The invariant: what the decoder makes of the bytes that are to come is what is
    sent and not delivered, and it ends in front of a frame. -/
structure InOrder (m : Nat → Bool) (s : Connection) : Prop where
  connected : s.closed = false
  frames : ∃ fs d, Decoder.Fresh d ∧ s.receiver.decoder.feed m s.toCome = (fs, d) ∧
    s.sent = s.delivered ++ fs
  buffer : s.receiver.inbuf ≠ [] → s.receiver.zeroCopy = false
  counted : s.Counted

theorem InOrder.init : InOrder m {} where
  connected := rfl
  frames := ⟨[], {}, .init, Decoder.Fresh.init.feed_nil, rfl⟩
  buffer h := absurd rfl h
  counted := .init

theorem InOrder.no_error {s : Connection} (h : InOrder m s) : s.receiver.decoder.next ≠ none := by
  intro hnone
  obtain ⟨fs, d, hfresh, hfeed, -⟩ := h.frames
  have hlast := (Decoder.feed_none (m := m) hnone s.toCome).2
  rw [hfeed, hfresh.next] at hlast
  exact absurd hlast (by decide)

theorem InOrder.write {s : Connection} {f : Frame} (h : InOrder m s) (hfits : f.Fits m) :
    InOrder m (s.write f) where
  connected := h.connected
  frames := by
    obtain ⟨fs, d, hfresh, hfeed, hsent⟩ := h.frames
    have hall : ∀ g ∈ [f], g.Fits m := by simpa using hfits
    obtain ⟨d', hfresh', hfeed'⟩ := hfresh.feed_encodeAll hall
    refine ⟨fs ++ [f], d', hfresh', ?_, ?_⟩
    · have hbytes : (s.write f).toCome = s.toCome ++ Encoder.encodeAll [f] := by
        simp only [toCome, Connection.write, Encoder.encodeAll_append, List.append_assoc]
      rw [hbytes]
      show s.receiver.decoder.feed m (s.toCome ++ Encoder.encodeAll [f]) = _
      rw [Decoder.feed_append, hfeed, hfeed']
    · show s.sent ++ [f] = s.delivered ++ (fs ++ [f])
      rw [hsent, List.append_assoc]
  buffer := h.buffer
  counted := h.counted.write (Nat.lt_of_succ_lt hfits.1)

/-- `out_event` moves bytes on and changes none. -/
theorem outEvent_toCome (s : Connection) (nbytes : Nat) :
    (s.outEvent nbytes).toCome = s.toCome := by
  unfold Connection.outEvent Engine.outEvent toCome
  by_cases hout : s.sender.outbuf = []
  · generalize hdata : s.sender.encoder.getData outBatchSize s.source = r
    obtain ⟨batch, encoder, source⟩ := r
    have hrest := Encoder.getData_rest hdata
    simp only [hout, if_true, List.nil_append, List.append_assoc]
    rw [← hrest, ← List.append_assoc (batch.take _), List.take_append_drop]
  · simp only [hout, if_false, List.append_assoc]
    rw [← List.append_assoc (s.sender.outbuf.take _), List.take_append_drop]

theorem InOrder.outEvent {s : Connection} (h : InOrder m s) (nbytes : Nat) :
    InOrder m (s.outEvent nbytes) where
  connected := h.connected
  frames := by
    obtain ⟨fs, d, hfresh, hfeed, hsent⟩ := h.frames
    refine ⟨fs, d, hfresh, ?_, hsent⟩
    rw [outEvent_toCome]
    exact hfeed
  buffer := h.buffer
  counted := h.counted.outEvent nbytes

/-- What is to be read is a part of a frame that was sent. -/
theorem InOrder.getBuffer_lt {s : Connection} (h : InOrder m s) :
    (s.receiver.decoder.getBuffer inBatchSize).2 < 2 ^ 31 := by
  apply Decoder.getBuffer_lt
  obtain ⟨fs, d, hfresh, hfeed, hsent⟩ := h.frames
  obtain hle | ⟨hnext, -⟩ | ⟨f, hf, hle⟩ := h.counted.sized.toRead_le hfeed
  · exact Nat.lt_of_le_of_lt hle (by decide)
  · rw [hfresh.next] at hnext
    cases hnext
  · exact Nat.lt_of_le_of_lt hle (h.counted.sent f (hsent ▸ List.mem_append_right _ hf))

/-- The state behind an `in_event`: `size` bytes were read, and `result` is what
    `process_buffer` made of `data`. -/
def received (s : Connection) (size : Nat) (zeroCopy : Bool) (data : List Byte)
    (result : Option (List Byte)) (decoder : Decoder) (written : List Frame) : Connection :=
  { s with
    stream := s.stream.drop size
    receiver := { s.receiver with
      inbuf := result.getD data
      zeroCopy := zeroCopy
      decoder := decoder }
    closed := result.isNone
    delivered := s.delivered ++ written }

/-- The buffer that is processed: it is read, or the old one has bytes left. -/
theorem buffer_cases {s : Connection} (h : s.receiver.inbuf ≠ [] → s.receiver.zeroCopy = false)
    (hlt : (s.receiver.decoder.getBuffer inBatchSize).2 < 2 ^ 31) (nbytes room : Nat) :
    ∃ size zeroCopy data, data = s.receiver.inbuf ++ s.stream.take size ∧
      (s.receiver.inbuf = [] → 0 < nbytes → 0 < size) ∧
      (zeroCopy = true → 0 < s.receiver.decoder.toRead ∧
        data.length ≤ s.receiver.decoder.toRead) ∧
      ∀ result decoder dest,
        s.receiver.decoder.processBuffer m zeroCopy { room := room } data =
          (result, decoder, dest) →
        s.inEvent m nbytes room =
          s.received size zeroCopy data result decoder dest.written := by
  by_cases hempty : s.receiver.inbuf = []
  · -- the buffer is read into, or a part of the frame itself
    have hpos := s.receiver.decoder.getBuffer_pos
    have hread : s.read (s.receiver.decoder.getBuffer inBatchSize).2 nbytes =
        some (s.stream.take (min nbytes (s.receiver.decoder.getBuffer inBatchSize).2)) := by
      rw [read, ioSize_of_lt hlt, if_neg (by omega)]
    refine ⟨min nbytes (s.receiver.decoder.getBuffer inBatchSize).2,
      (s.receiver.decoder.getBuffer inBatchSize).1,
      s.stream.take (min nbytes (s.receiver.decoder.getBuffer inBatchSize).2), ?_,
      fun _ hn => by omega, ?_, ?_⟩
    · rw [hempty, List.nil_append]
    · intro hzero
      unfold Decoder.getBuffer at hzero ⊢
      split at hzero
      · next hle =>
        rw [if_pos hle, List.length_take]
        exact ⟨Nat.lt_of_lt_of_le (by decide) hle, by omega⟩
      · cases hzero
    · intro result decoder dest hprocess
      have hdrop : s.stream.drop
          (s.stream.take (min nbytes (s.receiver.decoder.getBuffer inBatchSize).2)).length =
            s.stream.drop (min nbytes (s.receiver.decoder.getBuffer inBatchSize).2) := by
        rw [List.drop_eq_drop_iff, List.length_take]
        omega
      unfold Connection.inEvent Engine.inEvent
      simp only [hempty, hread, if_true, Option.getD_some, hprocess, hdrop]
      cases result <;> rfl
  · -- bytes are left from the last event: nothing is read
    refine ⟨0, false, s.receiver.inbuf, ?_, fun h => absurd h hempty,
      fun hzero => absurd hzero (by decide), ?_⟩
    · rw [List.take_zero, List.append_nil]
    · intro result decoder dest hprocess
      unfold Connection.inEvent Engine.inEvent
      simp only [hempty, if_false, h hempty, hprocess, received, List.drop_zero]
      cases result <;> simp

/-- What `in_event` does: no error is found. -/
theorem InOrder.inEvent_cases {s : Connection} (h : InOrder m s) (nbytes room : Nat) :
    ∃ size zeroCopy data unprocessed d' dest',
      s.receiver.inbuf ++ s.stream = data ++ s.stream.drop size ∧
      (0 < nbytes → s.receiver.inbuf ++ s.stream ≠ [] → data ≠ []) ∧
      Decoder.processBuffer.loop m s.receiver.decoder { room := room } data =
        (unprocessed, d', dest') ∧
      d'.next ≠ none ∧ (zeroCopy = true → unprocessed = []) ∧
      s.inEvent m nbytes room =
        s.received size zeroCopy data (some unprocessed) d' dest'.written := by
  obtain ⟨size, zeroCopy, data, hdata, hsize, hcopy, hevent⟩ :=
    buffer_cases h.buffer h.getBuffer_lt nbytes room
  have hbytes : s.receiver.inbuf ++ s.stream = data ++ s.stream.drop size := by
    rw [hdata, List.append_assoc, List.take_append_drop]
  have hread : 0 < nbytes → s.receiver.inbuf ++ s.stream ≠ [] → data ≠ [] := by
    intro hpos hne hnil
    obtain ⟨hempty, htake⟩ := List.append_eq_nil_iff.mp (hdata.symm.trans hnil)
    rw [hempty, List.nil_append] at hne
    exact (List.take_eq_nil_iff.mp htake).elim (Nat.ne_of_gt (hsize hempty hpos)) hne
  generalize hloop : Decoder.processBuffer.loop m s.receiver.decoder { room := room } data = r
  obtain ⟨unprocessed, d', dest'⟩ := r
  obtain ⟨fs, d, hfresh, hfeed, -⟩ := h.frames
  -- an error would last, but the bytes that are to come end in front of a frame
  have hnext : d'.next ≠ none := by
    intro hnone
    obtain ⟨fs', -, hfeed'⟩ := Decoder.processBuffer_loop_feed hloop
    have hlast := (Decoder.feed_none (m := m) hnone (unprocessed ++ (s.stream.drop size ++
      (s.sender.outbuf ++ (s.sender.encoder.rest ++ Encoder.encodeAll s.source))))).2
    unfold toCome at hfeed
    rw [← List.append_assoc, hbytes, List.append_assoc, hfeed'] at hfeed
    rw [congrArg Prod.snd hfeed, hfresh.next] at hlast
    exact absurd hlast (by decide)
  have hprocess := Decoder.processBuffer_eq hcopy h.no_error hloop
  rw [if_neg hnext] at hprocess
  refine ⟨size, zeroCopy, data, unprocessed, d', dest', hbytes, hread, hloop, hnext, ?_,
    hevent _ _ _ hprocess⟩
  intro hzero
  subst hzero
  exact Decoder.processBuffer_zeroCopy_nil hprocess

theorem InOrder.inEvent {s : Connection} (h : InOrder m s) (nbytes room : Nat) :
    InOrder m (s.inEvent m nbytes room) := by
  obtain ⟨size, zeroCopy, data, unprocessed, d', dest', hbytes, -, hloop, -, hzero, hevent⟩ :=
    h.inEvent_cases nbytes room
  obtain ⟨fs', hwritten, hfeed'⟩ := Decoder.processBuffer_loop_feed hloop
  obtain ⟨fs, d, hfresh, hfeed, hsent⟩ := h.frames
  unfold toCome at hfeed
  rw [← List.append_assoc, hbytes, List.append_assoc, hfeed'] at hfeed
  have hfs := congrArg Prod.fst hfeed
  have hd := congrArg Prod.snd hfeed
  rw [hevent]
  exact {
    connected := rfl
    frames := by
      refine ⟨_, d, hfresh, Prod.ext rfl hd, ?_⟩
      show s.sent = s.delivered ++ dest'.written ++ _
      rw [hsent, hwritten, List.append_assoc]
      exact congrArg (s.delivered ++ ·) hfs.symm
    buffer := by
      intro hne
      cases zeroCopy with
      | false => rfl
      | true => exact absurd (hzero rfl) hne
    counted :=
      { h.counted with sized := h.counted.sized.processBuffer_loop hloop } }

theorem InOrder.step {s s' : Connection} {l : ConnectionEvent} (h : InOrder m s)
    (hstep : (connection m).step s l s') : InOrder m s' := by
  obtain ⟨-, hstep⟩ := hstep
  cases l with
  | write f =>
    obtain ⟨hfits, rfl⟩ := hstep
    exact h.write hfits
  | outEvent nbytes =>
    obtain rfl : s' = s.outEvent nbytes := hstep
    exact h.outEvent nbytes
  | inEvent nbytes room =>
    obtain rfl : s' = s.inEvent m nbytes room := hstep
    exact h.inEvent nbytes room

theorem InOrder.of_reachable {s : Connection} (hs : Reachable (connection m) s) :
    InOrder m s := by
  induction hs with
  | init h =>
    rw [show _ = ({} : Connection) from h]
    exact .init
  | step l _ hstep ih => exact ih.step hstep

/-! ### Progress -/

/-- The bytes that the sender has still to send. -/
def unsent (s : Connection) : List Byte :=
  s.sender.outbuf ++ (s.sender.encoder.rest ++ Encoder.encodeAll s.source)

/-- The bytes, weighted by how far they have to go, and the frames not delivered. -/
def remaining (s : Connection) : Nat :=
  3 * s.unsent.length + 2 * s.stream.length + s.receiver.inbuf.length +
    (s.sent.length - s.delivered.length)

/-- `out_event` sends a byte if there is one. -/
theorem Counted.outEvent_sends {s : Connection} (h : s.Counted) (nbytes : Nat) :
    ∃ k, (s.outEvent nbytes).stream.length = s.stream.length + k ∧
      (s.outEvent nbytes).unsent.length + k = s.unsent.length ∧
      (0 < nbytes → s.unsent ≠ [] → 0 < k) := by
  unfold Connection.outEvent Engine.outEvent unsent
  by_cases hout : s.sender.outbuf = []
  · generalize hdata : s.sender.encoder.getData outBatchSize s.source = r
    obtain ⟨batch, encoder, source⟩ := r
    have hrest := Encoder.getData_rest hdata
    have hsize := ioSize_of_lt (h.encoder.getData_loop h.source (by decide) hdata).1
    refine ⟨(batch.take (min nbytes (ioSize batch.length))).length, ?_, ?_, ?_⟩
    · simp only [hout, if_true, List.length_append]
    · simp only [hout, if_true, List.nil_append, ← hrest, List.length_append,
        List.length_take, List.length_drop]
      omega
    · intro hpos hne
      -- the encoder makes an empty batch only of no frames
      have hbatch : batch ≠ [] := by
        intro hnil
        subst hnil
        obtain ⟨hnone, hsource⟩ := Encoder.getData_nil (by decide) hdata
        rw [hnone, hsource] at hrest
        rw [hout, ← hrest] at hne
        exact hne rfl
      have hlen := List.length_pos_iff.mpr hbatch
      rw [hsize, List.length_take]
      omega
  · have hsize := ioSize_of_lt h.batch
    refine ⟨(s.sender.outbuf.take (min nbytes (ioSize s.sender.outbuf.length))).length, ?_, ?_, ?_⟩
    · simp only [hout, if_false, List.length_append]
    · simp only [hout, if_false, List.length_append, List.length_take, List.length_drop]
      omega
    · intro hpos _
      have hlen := List.length_pos_iff.mpr hout
      rw [hsize, List.length_take]
      omega

theorem Counted.outEvent_remaining {s : Connection} (h : s.Counted) {nbytes : Nat}
    (hpos : 0 < nbytes) :
    (s.outEvent nbytes).remaining ≤ s.remaining ∧
      (s.unsent ≠ [] → (s.outEvent nbytes).remaining < s.remaining) := by
  obtain ⟨k, hstream, hunsent, hsends⟩ := h.outEvent_sends nbytes
  have hrecord : (s.outEvent nbytes).sent = s.sent ∧ (s.outEvent nbytes).delivered = s.delivered ∧
      (s.outEvent nbytes).receiver = s.receiver := ⟨rfl, rfl, rfl⟩
  unfold remaining
  rw [hstream, hrecord.1, hrecord.2.1, hrecord.2.2]
  refine ⟨by omega, fun hne => ?_⟩
  have hk := hsends hpos hne
  omega

theorem processBuffer_loop_length {d d' : Decoder} {dest dest' : Destination}
    {data unprocessed : List Byte}
    (h : Decoder.processBuffer.loop m d dest data = (unprocessed, d', dest')) :
    unprocessed.length ≤ data.length := by
  fun_induction Decoder.processBuffer.loop m d dest data with
  | case1 => cases h; exact Nat.le_refl _
  | case2 => cases h; exact Nat.le_refl _
  | case3 d dest data d₁ dest₁ hrun hdata toCopy ih =>
    have hle := ih h
    rw [List.length_drop] at hle
    omega

/-- With room for a frame, a buffer is not given back as it is. -/
theorem processBuffer_loop_progress {d d' : Decoder} {dest dest' : Destination}
    {data unprocessed : List Byte} (hroom : 0 < dest.room) (hdata : data ≠ [])
    (hnext : d'.next ≠ none)
    (h : Decoder.processBuffer.loop m d dest data = (unprocessed, d', dest')) :
    unprocessed.length < data.length := by
  rw [Decoder.processBuffer.loop] at h
  split at h
  · next d₁ dest₁ hrun =>
    cases h
    exact absurd (Decoder.runActions_false hroom hrun).1 hnext
  · next d₁ dest₁ hrun =>
    rw [dif_neg hdata] at h
    have hle := processBuffer_loop_length h
    have hread := Decoder.runActions_toRead hrun
    have hlen := List.length_pos_iff.mpr hdata
    rw [List.length_drop] at hle
    omega

/-- With room for a frame, no frame is kept back behind the last byte. -/
theorem processBuffer_loop_last {d d' : Decoder} {dest dest' : Destination}
    {unprocessed : List Byte} (hroom : 0 < dest.room) (hnext : d'.next ≠ none)
    (h : Decoder.processBuffer.loop m d dest [] = (unprocessed, d', dest')) :
    unprocessed = [] ∧ d'.feed m [] = ([], d') := by
  rw [Decoder.processBuffer.loop] at h
  split at h
  · next d₁ dest₁ hrun =>
    cases h
    exact absurd (Decoder.runActions_false hroom hrun).1 hnext
  · next d₁ dest₁ hrun =>
    cases h
    have hread := Decoder.runActions_toRead hrun
    simp only [Decoder.feed, Decoder.settle_of_pos hread, and_self]

/-- Where the room is not used up, all of the buffer is processed. -/
theorem processBuffer_loop_all {d d' : Decoder} {dest dest' : Destination}
    {data unprocessed : List Byte} (hroom : 0 < dest'.room) (hnext : d'.next ≠ none)
    (h : Decoder.processBuffer.loop m d dest data = (unprocessed, d', dest')) :
    unprocessed = [] ∧ d'.feed m [] = ([], d') := by
  fun_induction Decoder.processBuffer.loop m d dest data with
  | case1 d dest data d₁ dest₁ hrun =>
    cases h
    obtain ⟨fs, hwritten, -⟩ := Decoder.runActions_feed hrun
    have htotal := Decoder.runActions_room hrun
    rw [hwritten, List.length_append] at htotal
    exact absurd (Decoder.runActions_false (by omega) hrun).1 hnext
  | case2 d dest d₁ dest₁ hrun =>
    cases h
    have hread := Decoder.runActions_toRead hrun
    simp only [Decoder.feed, Decoder.settle_of_pos hread, and_self]
  | case3 d dest data d₁ dest₁ hrun hdata toCopy ih => exact ih h

theorem InOrder.delivered_length {s : Connection} (h : InOrder m s) :
    s.delivered.length ≤ s.sent.length := by
  obtain ⟨fs, d, -, -, hsent⟩ := h.frames
  rw [hsent, List.length_append]
  omega

/-- `in_event` processes a byte if there is one, and else delivers what is left. -/
theorem InOrder.inEvent_remaining {s : Connection} (h : InOrder m s) {nbytes room : Nat}
    (hpos : 0 < nbytes) (hroom : 0 < room) :
    (s.inEvent m nbytes room).remaining ≤ s.remaining ∧
      (s.toCome ≠ [] → s.unsent = [] → (s.inEvent m nbytes room).remaining < s.remaining) ∧
      (s.toCome = [] → (s.inEvent m nbytes room).delivered = s.sent) := by
  obtain ⟨size, zeroCopy, data, unprocessed, d', dest', hbytes, hread, hloop, hnext, -, hevent⟩ :=
    h.inEvent_cases nbytes room
  have hlength := (h.inEvent nbytes room).delivered_length
  have hbytes' := congrArg List.length hbytes
  have hle := processBuffer_loop_length hloop
  simp only [List.length_append, List.length_drop] at hbytes'
  rw [hevent] at hlength ⊢
  refine ⟨?_, fun hcome hsent => ?_, fun hcome => ?_⟩
  · simp only [remaining, received, unsent, Option.getD_some, List.length_append,
      List.length_drop] at hlength ⊢
    omega
  · have hne : s.receiver.inbuf ++ s.stream ≠ [] := by
      intro hnil
      apply hcome
      unfold toCome
      rw [← List.append_assoc, hnil, List.nil_append]
      exact hsent
    have hlt := processBuffer_loop_progress hroom (hread hpos hne) hnext hloop
    simp only [remaining, received, unsent, Option.getD_some, List.length_append,
      List.length_drop] at hlength ⊢
    omega
  · -- no byte is to come, but a frame can be left in the decoder
    have hdata : data = [] := by
      have hnil : s.receiver.inbuf ++ s.stream = [] := by
        unfold toCome at hcome
        rw [← List.append_assoc] at hcome
        exact (List.append_eq_nil_iff.mp hcome).1
      rw [hnil] at hbytes
      exact (List.append_eq_nil_iff.mp hbytes.symm).1
    subst hdata
    obtain ⟨hunprocessed, hlast⟩ := processBuffer_loop_last hroom hnext hloop
    obtain ⟨fs', hwritten, hfeed'⟩ := Decoder.processBuffer_loop_feed hloop
    obtain ⟨fs, d, hfresh, hfeed, hsent⟩ := h.frames
    have heq := hfeed' []
    rw [List.nil_append, hunprocessed, List.nil_append, hlast, ← hcome, hfeed] at heq
    have hfs : fs = fs' := (congrArg Prod.fst heq).trans (List.append_nil fs')
    show s.delivered ++ dest'.written = s.sent
    rw [hsent, hwritten, hfs]
    rfl

/-- Both engines once: what `out_event` may write, and what `in_event` may read and
    deliver. -/
structure Round where
  written : Nat
  read : Nat
  room : Nat
  written_pos : 0 < written
  read_pos : 0 < read
  room_pos : 0 < room

def round (m : Nat → Bool) (s : Connection) (r : Round) : Connection :=
  (s.outEvent r.written).inEvent m r.read r.room

theorem InOrder.round {s : Connection} (h : InOrder m s) (r : Round) :
    InOrder m (s.round m r) ∧ (s.round m r).remaining ≤ s.remaining ∧
      (s.delivered ≠ s.sent → (s.round m r).remaining < s.remaining ∨
        (s.round m r).delivered = s.sent) := by
  have hout := h.outEvent r.written
  obtain ⟨hle, hlt⟩ := h.counted.outEvent_remaining r.written_pos
  obtain ⟨hle', hlt', hlast⟩ := hout.inEvent_remaining r.read_pos r.room_pos
  refine ⟨hout.inEvent r.read r.room, Nat.le_trans hle' hle, fun hne => ?_⟩
  by_cases hunsent : s.unsent = []
  · have hnone : (s.outEvent r.written).unsent = [] := by
      obtain ⟨k, -, hk, -⟩ := h.counted.outEvent_sends r.written
      rw [hunsent, List.length_nil] at hk
      exact List.length_eq_zero_iff.mp (by omega)
    by_cases hcome : (s.outEvent r.written).toCome = []
    · exact .inr (hlast hcome)
    · exact .inl (Nat.lt_of_lt_of_le (hlt' hcome hnone) hle)
  · exact .inl (Nat.lt_of_le_of_lt hle' (hlt hunsent))

theorem round_sent (s : Connection) (r : Round) : (s.round m r).sent = s.sent := rfl

theorem round_delivered (s : Connection) (r : Round) :
    s.delivered <+: (s.round m r).delivered := List.prefix_append _ _

theorem InOrder.delivered_eq {s : Connection} (h : InOrder m s)
    (hlen : s.sent.length ≤ s.delivered.length) : s.delivered = s.sent := by
  obtain ⟨fs, d, -, -, hsent⟩ := h.frames
  rw [hsent, List.length_append] at hlen
  have hnil : fs = [] := List.length_eq_zero_iff.mp (by omega)
  rw [hsent, hnil, List.append_nil]

/-- Enough rounds deliver everything, whatever the amounts of each of them. -/
theorem InOrder.rounds {s : Connection} (h : InOrder m s) (rounds : List Round)
    (hmany : s.delivered = s.sent ∨ s.remaining ≤ rounds.length) :
    (rounds.foldl (Connection.round m) s).delivered = s.sent := by
  induction rounds generalizing s with
  | nil =>
    obtain hdone | hmany := hmany
    · exact hdone
    · have hzero : s.sent.length - s.delivered.length ≤ 0 :=
        Nat.le_trans (Nat.le_add_left _ _) hmany
      exact h.delivered_eq (by omega)
  | cons r rounds ih =>
    obtain ⟨hround, hle, hprogress⟩ := h.round r
    rw [List.foldl_cons, ← round_sent (m := m) s r]
    apply ih hround
    by_cases hdone : s.delivered = s.sent
    · have hlen := (round_delivered (m := m) s r).length_le
      rw [hdone] at hlen
      exact .inl (hround.delivered_eq hlen)
    · have hmany := hmany.resolve_left hdone
      rw [List.length_cons] at hmany
      obtain hlt | hlast := hprogress hdone
      · exact .inr (by omega)
      · exact .inl hlast

end Connection

/-- **Frames over a connection** that does not fail, of sizes that an `int` can count
    and the receiver can allocate. In every order of the events, with every way to cut
    the bytes, what is delivered are the first of the frames sent, and the connection is
    not closed; and whatever is sent is delivered after enough rounds in which either
    engine moves at least a byte and the session has room for a frame. -/
theorem connection_in_order (malloc : Nat → Bool) (s : Connection)
    (hs : Reachable (connection (msgInitSize malloc)) s) :
    s.closed = false ∧ s.delivered <+: s.sent ∧
      ∃ k, ∀ rounds : List Connection.Round, k ≤ rounds.length →
        (rounds.foldl (Connection.round (msgInitSize malloc)) s).delivered = s.sent := by
  have h := Connection.InOrder.of_reachable hs
  obtain ⟨fs, d, -, -, hsent⟩ := h.frames
  refine ⟨h.connected, ⟨fs, hsent.symm⟩, s.remaining, fun rounds hmany => ?_⟩
  exact h.rounds rounds (.inr hmany)

/-- Two frames are sent, and half of the bytes are read. -/
theorem connection_in_order_half : ∃ s : Connection, s.sent = [⟨true, []⟩, ⟨false, [65]⟩] ∧
    s.closed = false ∧ s.delivered <+: s.sent ∧
      ∃ k, ∀ rounds : List Connection.Round, k ≤ rounds.length →
        (rounds.foldl (Connection.round (msgInitSize fun _ => true)) s).delivered = s.sent := by
  have hsent : Reachable (connection (msgInitSize fun _ => true)) _ :=
    .step (.inEvent 3 1) (.step (.outEvent 4) (.step (.write ⟨false, [65]⟩)
      (.step (.write ⟨true, []⟩) (.init rfl) ⟨rfl, ⟨by decide, rfl⟩, rfl⟩)
      ⟨rfl, ⟨by decide, rfl⟩, rfl⟩) ⟨rfl, rfl⟩) ⟨rfl, rfl⟩
  exact ⟨_, rfl, connection_in_order (fun _ => true) _ hsent⟩

end RefereeBox.Zmq
