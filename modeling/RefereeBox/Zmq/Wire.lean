import Mathlib.Data.List.Flatten
import RefereeBox.Model.Wire

/-! # The Encoder and the Decoder

  What the encoder writes is the concatenation of the encoded frames, whatever
  the buffers it is cut into; what the decoder writes depends on the bytes it
  has read and not on the buffers they come in, nor on how often the session
  has no room.
-/

namespace RefereeBox.Zmq

/-! ### Numbers -/

theorem putUint64_length (value : Nat) : (putUint64 value).length = 8 := rfl

/-- A byte below a number that is shifted past it. -/
theorem shiftLeft_or_byte (a : Nat) (b : Byte) (i : Nat) :
    a <<< (i + 8) ||| b.toNat <<< i = (a * 256 + b.toNat) <<< i := by
  have hb : b.toNat < 2 ^ 8 := UInt8.toNat_lt b
  have hshift : a * 256 + b.toNat = a <<< 8 ||| b.toNat := by
    rw [← Nat.shiftLeft_add_eq_or_of_lt hb, Nat.shiftLeft_eq]
  rw [hshift, Nat.shiftLeft_or_distrib, Nat.add_comm i 8, Nat.shiftLeft_add]

theorem getUint64_eq (b₀ b₁ b₂ b₃ b₄ b₅ b₆ b₇ : Byte) :
    getUint64 [b₀, b₁, b₂, b₃, b₄, b₅, b₆, b₇] =
      ((((((b₀.toNat * 256 + b₁.toNat) * 256 + b₂.toNat) * 256 + b₃.toNat) * 256 + b₄.toNat) * 256 +
        b₅.toNat) * 256 + b₆.toNat) * 256 + b₇.toNat := by
  show b₀.toNat <<< 56 ||| b₁.toNat <<< 48 ||| b₂.toNat <<< 40 ||| b₃.toNat <<< 32 |||
    b₄.toNat <<< 24 ||| b₅.toNat <<< 16 ||| b₆.toNat <<< 8 ||| b₇.toNat = _
  rw [shiftLeft_or_byte _ _ 48, shiftLeft_or_byte _ _ 40, shiftLeft_or_byte _ _ 32,
    shiftLeft_or_byte _ _ 24, shiftLeft_or_byte _ _ 16, shiftLeft_or_byte _ _ 8]
  have hlast := shiftLeft_or_byte ((((((b₀.toNat * 256 + b₁.toNat) * 256 + b₂.toNat) * 256 +
    b₃.toNat) * 256 + b₄.toNat) * 256 + b₅.toNat) * 256 + b₆.toNat) b₇ 0
  simpa using hlast

theorem getUint64_putUint64 {value : Nat} (h : value < UInt64.size) :
    getUint64 (putUint64 value) = value := by
  simp only [UInt64.size] at h
  simp only [putUint64, getUint64_eq, UInt8.toNat_ofNat', Nat.shiftRight_eq_div_pow]
  omega

/-! ### The encoder -/

namespace Encoder

/-- A frame on the wire. -/
def encode (f : Frame) : List Byte := header f ++ f.data

def encodeAll (fs : List Frame) : List Byte := fs.flatMap encode

@[simp] theorem encodeAll_nil : encodeAll [] = [] := rfl

@[simp] theorem encodeAll_cons (f : Frame) (fs : List Frame) :
    encodeAll (f :: fs) = encode f ++ encodeAll fs := rfl

@[simp] theorem encodeAll_append (fs gs : List Frame) :
    encodeAll (fs ++ gs) = encodeAll fs ++ encodeAll gs := List.flatMap_append

/-- What the encoder has begun and not yet written to a buffer. -/
def rest (e : Encoder) : List Byte :=
  match e.next with
  | .sizeReady => e.toWrite ++ e.inProgress.data
  | .messageReady => e.toWrite

theorem rest_skip (e : Encoder) (n : Nat) :
    e.toWrite.take n ++ { e with toWrite := e.toWrite.drop n }.rest = e.rest := by
  unfold rest
  cases e.next with
  | sizeReady => simp only [← List.append_assoc, List.take_append_drop]
  | messageReady => simp only [List.take_append_drop]

/-- A refill keeps the bytes that are still to come. -/
theorem refill_rest {e e' : Encoder} {source source' : List Frame} {ok : Bool}
    (h : e.refill source = (ok, e', source')) :
    e'.rest ++ encodeAll source' = e.rest ++ encodeAll source := by
  unfold refill at h
  split at h
  · next hempty =>
    unfold act at h
    split at h
    · next hnext =>
      cases h
      simp [rest, sizeReady, nextStep, hnext, hempty]
    · next hnext =>
      cases source with
      | nil =>
        cases h
        simp [rest, hnext, hempty]
      | cons f source =>
        cases h
        simp [rest, nextStep, hnext, hempty, encode]
  · cases h
    rfl

/-- A refill fails if there is nothing left at all. -/
theorem refill_false {e e' : Encoder} {source source' : List Frame}
    (h : e.refill source = (false, e', source')) : e'.rest = [] ∧ source' = [] := by
  unfold refill at h
  split at h
  · next hempty =>
    unfold act at h
    split at h
    · simp at h
    · next hnext =>
      cases source with
      | nil =>
        cases h
        simp [rest, hnext, hempty]
      | cons f source => simp at h
  · simp at h

/-- The loop moves bytes into the buffer and changes none. -/
theorem getData_loop_rest {e e' : Encoder} {source source' : List Frame} {buffer out : List Byte}
    {room : Nat} (h : getData.loop e source buffer room = (out, e', source')) :
    out ++ (e'.rest ++ encodeAll source') = buffer ++ (e.rest ++ encodeAll source) := by
  fun_induction getData.loop e source buffer room with
  | case1 e source buffer room e₁ source₁ hrefill =>
    cases h
    rw [refill_rest hrefill]
  | case2 e source buffer room e₁ source₁ hrefill hzero =>
    cases h
    have hskip := rest_skip e₁ e₁.toWrite.length
    rw [List.take_length, List.drop_length] at hskip
    rw [← refill_rest hrefill, ← hskip, hzero.1]
    simp only [List.nil_append, List.append_assoc]
  | case3 e source buffer room e₁ source₁ hrefill hzero toCopy buffer' e₂ hfull =>
    simp only [Prod.mk.injEq] at h
    rw [← h.1, ← h.2.1, ← h.2.2]
    rw [← refill_rest hrefill, ← rest_skip e₁ toCopy]
    simp only [buffer', e₂, List.append_assoc]
  | case4 e source buffer room e₁ source₁ hrefill hzero toCopy buffer' e₂ hfull ih =>
    rw [ih h, ← refill_rest hrefill, ← rest_skip e₁ toCopy]
    simp only [buffer', e₂, List.append_assoc]

/-- An empty buffer comes back only if there is nothing left. -/
theorem getData_loop_nil {e e' : Encoder} {source source' : List Frame} {buffer : List Byte}
    {room : Nat} (hroom : 0 < room) (h : getData.loop e source buffer room = ([], e', source')) :
    e'.rest = [] ∧ source' = [] := by
  fun_induction getData.loop e source buffer room with
  | case1 e source buffer room e₁ source₁ hrefill =>
    cases h
    exact refill_false hrefill
  | case2 e source buffer room e₁ source₁ hrefill hzero =>
    have hempty : e₁.toWrite = [] := congrArg Prod.fst h
    rw [hempty, List.length_nil] at hzero
    omega
  | case3 e source buffer room e₁ source₁ hrefill hzero toCopy buffer' e₂ hfull =>
    have hempty : buffer' = [] := congrArg Prod.fst h
    have hcopied : (e₁.toWrite.take toCopy).length = 0 :=
      List.length_eq_zero_iff.mpr (List.append_eq_nil_iff.mp hempty).2
    rw [List.length_take] at hcopied
    omega
  | case4 e source buffer room e₁ source₁ hrefill hzero toCopy buffer' e₂ hfull ih =>
    exact ih (by omega) h

variable {bufsize : Nat} {e e' : Encoder} {source source' : List Frame} {batch : List Byte}

theorem getData_rest (h : e.getData bufsize source = (batch, e', source')) :
    batch ++ (e'.rest ++ encodeAll source') = e.rest ++ encodeAll source :=
  getData_loop_rest h

/-- Nothing in hand that an `int` cannot count. -/
structure Small (e : Encoder) : Prop where
  toWrite : e.toWrite.length < 2 ^ 31
  inProgress : e.inProgress.data.length < 2 ^ 31

theorem header_length (f : Frame) : (header f).length ≤ 10 := by
  unfold header
  simp only
  split
  · exact Nat.le_of_ble_eq_true rfl
  · rw [List.length_append, List.length_cons, putUint64_length]
    exact Nat.le_refl 10

theorem Small.refill {e e' : Encoder} {source source' : List Frame} {ok : Bool} (h : e.Small)
    (hsource : ∀ f ∈ source, f.data.length < 2 ^ 31)
    (hrefill : e.refill source = (ok, e', source')) :
    e'.Small ∧ ∀ f ∈ source', f.data.length < 2 ^ 31 := by
  unfold Encoder.refill at hrefill
  split at hrefill
  · unfold act at hrefill
    split at hrefill
    · cases hrefill
      exact ⟨⟨h.inProgress, h.inProgress⟩, hsource⟩
    · split at hrefill
      · cases hrefill
        exact ⟨⟨h.toWrite, Nat.two_pow_pos 31⟩, hsource⟩
      · next f source =>
        cases hrefill
        have hheader := header_length f
        exact ⟨⟨Nat.lt_of_le_of_lt hheader (by decide), hsource f List.mem_cons_self⟩,
          fun g hg => hsource g (List.mem_cons_of_mem f hg)⟩
  · cases hrefill
    exact ⟨h, hsource⟩

/-- A batch is a message as it is, or fits into the buffer. -/
theorem Small.getData_loop {e e' : Encoder} {source source' : List Frame} {buffer out : List Byte}
    {room : Nat} (h : e.Small) (hsource : ∀ f ∈ source, f.data.length < 2 ^ 31)
    (hroom : buffer.length + room < 2 ^ 31)
    (hdata : getData.loop e source buffer room = (out, e', source')) :
    out.length < 2 ^ 31 ∧ e'.Small ∧ ∀ f ∈ source', f.data.length < 2 ^ 31 := by
  fun_induction getData.loop e source buffer room with
  | case1 e source buffer room e₁ source₁ hrefill =>
    cases hdata
    exact ⟨by omega, h.refill hsource hrefill⟩
  | case2 e source buffer room e₁ source₁ hrefill hzero =>
    obtain ⟨hsmall, hsource₁⟩ := h.refill hsource hrefill
    cases hdata
    exact ⟨hsmall.toWrite, ⟨by simp, hsmall.inProgress⟩, hsource₁⟩
  | case3 e source buffer room e₁ source₁ hrefill hzero toCopy buffer' e₂ hfull =>
    obtain ⟨hsmall, hsource₁⟩ := h.refill hsource hrefill
    have htoWrite := hsmall.toWrite
    simp only [Prod.mk.injEq] at hdata
    rw [← hdata.1, ← hdata.2.1, ← hdata.2.2]
    refine ⟨?_, ⟨?_, hsmall.inProgress⟩, hsource₁⟩
    · rw [List.length_append, List.length_take]
      omega
    · show (e₁.toWrite.drop toCopy).length < 2 ^ 31
      rw [List.length_drop]
      omega
  | case4 e source buffer room e₁ source₁ hrefill hzero toCopy buffer' e₂ hfull ih =>
    obtain ⟨hsmall, hsource₁⟩ := h.refill hsource hrefill
    have htoWrite := hsmall.toWrite
    refine ih ⟨?_, hsmall.inProgress⟩ hsource₁ ?_ hdata
    · show (e₁.toWrite.drop toCopy).length < 2 ^ 31
      rw [List.length_drop]
      omega
    · rw [List.length_append, List.length_take]
      omega

theorem getData_nil (hsize : 0 < bufsize) (h : e.getData bufsize source = ([], e', source')) :
    e'.rest = [] ∧ source' = [] :=
  getData_loop_nil hsize h

end Encoder

/-! ### The decoder -/

namespace Decoder

variable (m : Nat → Bool)

/-- The actions with nothing to read, for a session that takes every frame. -/
def settle (d : Decoder) : Bool × Decoder × List Frame :=
  let r := d.runActions m { room := 1 }
  (r.1, r.2.1, r.2.2.written)

/-- The frames in `bytes` for a decoder in state `d`, and its state behind them. -/
def feed (d : Decoder) : List Byte → List Frame × Decoder
  | [] => ((d.settle m).2.2, (d.settle m).2.1)
  | b :: bytes =>
    match d.settle m with
    | (false, d', fs) => (fs, d')
    | (true, d', fs) =>
      let r := feed (d'.fill [b]) bytes
      (fs ++ r.1, r.2)

variable {m}

theorem fill_nil (d : Decoder) : d.fill [] = d := by
  unfold fill
  simp only [List.length_nil, Nat.sub_zero, List.append_nil]

theorem fill_fill (d : Decoder) (xs ys : List Byte) : (d.fill xs).fill ys = d.fill (xs ++ ys) := by
  unfold fill
  simp only [List.length_append, List.append_assoc, Nat.sub_sub]

theorem runActions_of_pos {d : Decoder} (h : 0 < d.toRead) (dest : Destination) :
    d.runActions m dest = (true, d, dest) := by
  rw [runActions, dif_pos h]

theorem settle_of_pos {d : Decoder} (h : 0 < d.toRead) : d.settle m = (true, d, []) := by
  unfold settle
  rw [runActions_of_pos h]

theorem settle_true {d d' : Decoder} {fs : List Frame} (h : d.settle m = (true, d', fs)) :
    0 < d'.toRead := by
  unfold settle at h
  simp only [Prod.mk.injEq] at h
  obtain ⟨hok, hd, -⟩ := h
  have hrun : d.runActions m { room := 1 } = (true, d', _) :=
    Prod.ext hok (Prod.ext hd rfl)
  exact runActions_toRead hrun

/-- The actions before the first byte can be taken apart. -/
theorem feed_of_settle {d d' : Decoder} {fs : List Frame} (h : d.settle m = (true, d', fs))
    (bytes : List Byte) :
    d.feed m bytes = (fs ++ (d'.feed m bytes).1, (d'.feed m bytes).2) := by
  have hsettled := settle_of_pos (m := m) (settle_true h)
  cases bytes with
  | nil =>
    unfold feed
    rw [h, hsettled]
    simp only [List.append_nil]
  | cons b bytes =>
    simp only [feed, h, hsettled, List.nil_append]

/-- Bytes that are copied without an action in between. -/
theorem feed_fill (d : Decoder) (xs bytes : List Byte) (h : xs.length ≤ d.toRead) :
    d.feed m (xs ++ bytes) = (d.fill xs).feed m bytes := by
  induction xs generalizing d with
  | nil => rw [List.nil_append, fill_nil]
  | cons x xs ih =>
    rw [List.length_cons] at h
    have hpos : 0 < d.toRead := by omega
    have hfill : (d.fill [x]).toRead = d.toRead - 1 := rfl
    simp only [List.cons_append, feed, settle_of_pos hpos, List.nil_append]
    rw [ih (d.fill [x]) (by omega), fill_fill, List.singleton_append]

/-- An action that succeeds, with nothing to read. -/
theorem settle_act {d d' : Decoder} {dest : Destination} (hread : d.toRead = 0)
    (h : d.act m { room := 1 } = (true, d', dest)) (hpos : 0 < d'.toRead) :
    d.settle m = (true, d', dest.written) := by
  unfold settle
  rw [runActions, dif_neg (by omega)]
  split
  · next heq => simp [h] at heq
  · next d₁ dest₁ heq =>
    rw [h] at heq
    cases heq
    rw [runActions_of_pos hpos]

theorem sizeRead_false {size : Nat} {d d' : Decoder} (h : d.sizeRead m size = (false, d')) :
    d' = d.decodingError := by
  unfold sizeRead at h
  split at h
  · cases h
    rfl
  · split at h
    · cases h
      rfl
    · simp at h

theorem oneByteSizeReady_false {d d' : Decoder} (h : d.oneByteSizeReady m = (false, d')) :
    d' = d.decodingError := by
  unfold oneByteSizeReady at h
  simp only at h
  split at h
  · simp at h
  · exact sizeRead_false h

/-- What an action can do. Only the last one concerns the session. -/
theorem act_cases {d d' : Decoder} {dest dest' : Destination} {ok : Bool}
    (h : d.act m dest = (ok, d', dest')) :
    (d.next = some .messageReady ∧ ok = true ∧ d' = d.nextStep 1 .oneByteSizeReady ∧
      dest.write ⟨d.more, d.filled⟩ = some dest') ∨
    (d.next = some .messageReady ∧ ok = false ∧ d' = d ∧ dest' = dest) ∨
    (dest' = dest ∧ (∀ dest, d.act m dest = (ok, d', dest)) ∧
      (ok = false → d'.next = none ∧ d'.toRead = d.toRead)) := by
  cases hnext : d.next with
  | none =>
    simp only [act, hnext] at h
    cases h
    exact .inr (.inr ⟨rfl, fun dest => (by simp only [act, hnext]), fun _ => ⟨hnext, rfl⟩⟩)
  | some step =>
    cases step with
    | oneByteSizeReady =>
      simp only [act, hnext] at h
      cases h
      refine .inr (.inr ⟨rfl, fun dest => (by simp only [act, hnext]), fun hok => ?_⟩)
      have herror : (d.oneByteSizeReady m).2 = d.decodingError := oneByteSizeReady_false (Prod.ext hok rfl)
      show (d.oneByteSizeReady m).2.next = none ∧ (d.oneByteSizeReady m).2.toRead = d.toRead
      rw [herror]
      exact ⟨rfl, rfl⟩
    | eightByteSizeReady =>
      simp only [act, hnext] at h
      cases h
      refine .inr (.inr ⟨rfl, fun dest => (by simp only [act, hnext]), fun hok => ?_⟩)
      have herror : (d.eightByteSizeReady m).2 = d.decodingError := sizeRead_false (Prod.ext hok rfl)
      show (d.eightByteSizeReady m).2.next = none ∧ (d.eightByteSizeReady m).2.toRead = d.toRead
      rw [herror]
      exact ⟨rfl, rfl⟩
    | flagsReady =>
      simp only [act, hnext] at h
      cases h
      exact .inr (.inr ⟨rfl, fun dest => (by simp only [act, hnext]), fun hok => absurd hok (by decide)⟩)
    | messageReady =>
      simp only [act, hnext, messageReady] at h
      split at h
      · cases h
        exact .inr (.inl ⟨rfl, rfl, rfl, rfl⟩)
      · next dest₁ hwrite =>
        cases h
        exact .inl ⟨rfl, rfl, rfl, hwrite⟩

theorem Destination.write_some {f : Frame} {dest dest' : Destination}
    (h : dest.write f = some dest') : dest'.written = dest.written ++ [f] := by
  unfold Destination.write at h
  split at h
  · cases h
  · cases h
    rfl

/-- An action that does not concern the session. -/
theorem settle_of_act {d d' : Decoder} (hread : d.toRead = 0)
    (h : ∀ dest, d.act m dest = (true, d', dest)) : d.settle m = d'.settle m := by
  unfold settle
  rw [runActions, dif_neg (by omega)]
  split
  · next heq => simp [h] at heq
  · next d₁ dest₁ heq =>
    rw [h] at heq
    cases heq
    rfl

theorem feed_congr {d d' : Decoder} (h : d.settle m = d'.settle m) (bytes : List Byte) :
    d.feed m bytes = d'.feed m bytes := by
  cases bytes with
  | nil => simp only [feed, h]
  | cons b bytes => simp only [feed, h]

/-- After a decoding error nothing more is read. -/
theorem feed_error {d : Decoder} (hnext : d.next = none) (hread : d.toRead = 0)
    (bytes : List Byte) : d.feed m bytes = ([], d) := by
  have hact : d.act m { room := 1 } = (false, d, { room := 1 }) := by
    unfold act
    rw [hnext]
  have hsettle : d.settle m = (false, d, []) := by
    unfold settle
    rw [runActions, dif_neg (by omega)]
    split
    · next heq =>
      rw [hact] at heq
      cases heq
      rfl
    · next heq => simp [hact] at heq
  cases bytes with
  | nil => simp only [feed, hsettle]
  | cons b bytes => simp only [feed, hsettle]

theorem feed_of_error {d d' : Decoder} (hread : d.toRead = 0)
    (h : ∀ dest, d.act m dest = (false, d', dest)) (bytes : List Byte) :
    d.feed m bytes = ([], d') := by
  have hsettle : d.settle m = (false, d', []) := by
    unfold settle
    rw [runActions, dif_neg (by omega)]
    split
    · next heq =>
      rw [h] at heq
      cases heq
      rfl
    · next heq => simp [h] at heq
  cases bytes with
  | nil => simp only [feed, hsettle]
  | cons b bytes => simp only [feed, hsettle]

/-- The actions, whatever the session takes: the frames written to it come first, and
    what is to come is what the new state makes of the bytes. -/
theorem runActions_feed {d d' : Decoder} {dest dest' : Destination} {ok : Bool}
    (h : d.runActions m dest = (ok, d', dest')) :
    ∃ fs, dest'.written = dest.written ++ fs ∧ ∀ bytes,
      d.feed m bytes = (fs ++ (d'.feed m bytes).1, (d'.feed m bytes).2) := by
  fun_induction runActions m d dest with
  | case1 d dest hread =>
    cases h
    exact ⟨[], (List.append_nil _).symm, fun _ => rfl⟩
  | case2 d dest hread d₁ dest₁ hact =>
    cases h
    refine ⟨[], ?_⟩
    rw [List.append_nil]
    obtain ⟨-, hok, -⟩ | ⟨-, -, rfl, rfl⟩ | ⟨rfl, hany, herror⟩ := act_cases hact
    · exact absurd hok (by decide)
    · exact ⟨rfl, fun _ => rfl⟩
    · obtain ⟨hnext, hread'⟩ := herror rfl
      refine ⟨rfl, fun bytes => ?_⟩
      rw [feed_of_error (by omega) hany, feed_error hnext (by omega)]
      rfl
  | case3 d dest hread d₁ dest₁ hact ih =>
    obtain ⟨fs, hwritten, hfeed⟩ := ih h
    obtain ⟨hnext, -, hd₁, hwrite⟩ | ⟨-, hok, -⟩ | ⟨rfl, hany, -⟩ := act_cases hact
    · refine ⟨⟨d.more, d.filled⟩ :: fs, ?_, fun bytes => ?_⟩
      · rw [hwritten, Destination.write_some hwrite, List.append_assoc, List.singleton_append]
      · have hmessage : d.act m { room := 1 } =
            (true, d₁, { room := 0, written := [⟨d.more, d.filled⟩] }) := by
          unfold act
          rw [hnext, hd₁]
          rfl
        have hpos : 0 < d₁.toRead := by
          rw [hd₁]
          exact Nat.one_pos
        rw [feed_of_settle (settle_act (by omega) hmessage hpos), hfeed]
        rfl
    · exact absurd hok (by decide)
    · refine ⟨fs, hwritten, fun bytes => ?_⟩
      rw [feed_congr (settle_of_act (by omega) hany), hfeed]

/-- The loop, with any bytes behind the buffer. -/
theorem processBuffer_loop_feed {d d' : Decoder} {dest dest' : Destination}
    {data unprocessed : List Byte}
    (h : processBuffer.loop m d dest data = (unprocessed, d', dest')) :
    ∃ fs, dest'.written = dest.written ++ fs ∧ ∀ bytes,
      d.feed m (data ++ bytes) = (fs ++ (d'.feed m (unprocessed ++ bytes)).1,
        (d'.feed m (unprocessed ++ bytes)).2) := by
  fun_induction processBuffer.loop m d dest data with
  | case1 d dest data d₁ dest₁ hrun =>
    cases h
    obtain ⟨fs, hwritten, hfeed⟩ := runActions_feed hrun
    exact ⟨fs, hwritten, fun bytes => hfeed (_ ++ bytes)⟩
  | case2 d dest d₁ dest₁ hrun =>
    cases h
    obtain ⟨fs, hwritten, hfeed⟩ := runActions_feed hrun
    exact ⟨fs, hwritten, fun bytes => hfeed bytes⟩
  | case3 d dest data d₁ dest₁ hrun hdata toCopy ih =>
    obtain ⟨fs, hwritten, hfeed⟩ := runActions_feed hrun
    obtain ⟨gs, hwritten', hfeed'⟩ := ih h
    refine ⟨fs ++ gs, by rw [hwritten', hwritten, List.append_assoc], fun bytes => ?_⟩
    have hcopy : (data.take toCopy).length ≤ d₁.toRead := by
      rw [List.length_take]
      omega
    have hstep : d₁.feed m (data ++ bytes) =
        (d₁.fill (data.take toCopy)).feed m (data.drop toCopy ++ bytes) := by
      rw [← feed_fill _ _ _ hcopy, ← List.append_assoc, List.take_append_drop]
    rw [hfeed, hstep, hfeed', List.append_assoc]

/-- The zero-copy path of `process_buffer` does what the other one would do. -/
theorem processBuffer_zeroCopy {d : Decoder} {data : List Byte} (hpos : 0 < d.toRead)
    (hlen : data.length ≤ d.toRead) (dest : Destination) :
    d.processBuffer m true dest data = d.processBuffer m false dest data := by
  have hlast : ∀ (d : Decoder) (dest : Destination),
      processBuffer.loop m d dest [] = ([], (d.runActions m dest).2) := by
    intro d dest
    rw [processBuffer.loop]
    split <;> simp [*]
  have hloop : processBuffer.loop m d dest data = ([], ((d.fill data).runActions m dest).2) := by
    by_cases hdata : data = []
    · rw [hdata, fill_nil, hlast]
    · rw [processBuffer.loop]
      split
      · next heq => simp [runActions_of_pos hpos] at heq
      · next heq =>
        rw [runActions_of_pos hpos] at heq
        cases heq
        simp only [dif_neg hdata, Nat.min_eq_right hlen, List.take_length, List.drop_length, hlast]
  unfold processBuffer
  simp only [if_true, Bool.false_eq_true, if_false, hloop]

/-- So the loop alone matters. -/
theorem processBuffer_eq {d : Decoder} {zeroCopy : Bool} {data : List Byte}
    (hzero : zeroCopy = true → 0 < d.toRead ∧ data.length ≤ d.toRead) (hnext : d.next ≠ none)
    {dest dest' : Destination} {unprocessed : List Byte} {d' : Decoder}
    (h : processBuffer.loop m d dest data = (unprocessed, d', dest')) :
    d.processBuffer m zeroCopy dest data =
      (if d'.next = none then none else some unprocessed, d', dest') := by
  have hplain : d.processBuffer m zeroCopy dest data = d.processBuffer m false dest data := by
    cases zeroCopy with
    | false => rfl
    | true => exact processBuffer_zeroCopy (hzero rfl).1 (hzero rfl).2 dest
  rw [hplain]
  unfold processBuffer
  simp only [hnext, if_false, Bool.false_eq_true, h]

/-- The zero-copy path leaves no byte. -/
theorem processBuffer_zeroCopy_nil {d d' : Decoder} {dest dest' : Destination}
    {data unprocessed : List Byte}
    (h : d.processBuffer m true dest data = (some unprocessed, d', dest')) :
    unprocessed = [] := by
  unfold processBuffer at h
  simp only [if_true] at h
  split at h
  · simp at h
  · split at h
    · simp at h
    · cases h
      rfl

theorem Destination.write_room {f : Frame} {dest dest' : Destination}
    (h : dest.write f = some dest') :
    dest'.room + dest'.written.length = dest.room + dest.written.length := by
  unfold Destination.write at h
  split at h
  · cases h
  · next room hroom =>
    cases h
    rw [hroom, List.length_append, List.length_singleton]
    exact Nat.add_right_comm room dest.written.length 1

/-- Every frame that is written takes its room. -/
theorem runActions_room {d d' : Decoder} {dest dest' : Destination} {ok : Bool}
    (h : d.runActions m dest = (ok, d', dest')) :
    dest'.room + dest'.written.length = dest.room + dest.written.length := by
  have hact : ∀ {d d' : Decoder} {dest dest' : Destination} {ok : Bool},
      d.act m dest = (ok, d', dest') →
        dest'.room + dest'.written.length = dest.room + dest.written.length := by
    intro d d' dest dest' ok h
    obtain ⟨-, -, -, hwrite⟩ | ⟨-, -, -, rfl⟩ | ⟨rfl, -, -⟩ := act_cases h
    · exact Destination.write_room hwrite
    · rfl
    · rfl
  fun_induction runActions m d dest with
  | case1 d dest hread =>
    cases h
    rfl
  | case2 d dest hread d₁ dest₁ h₁ =>
    cases h
    exact hact h₁
  | case3 d dest hread d₁ dest₁ h₁ ih => exact (ih h).trans (hact h₁)

theorem processBuffer_loop_room {d d' : Decoder} {dest dest' : Destination}
    {data unprocessed : List Byte}
    (h : processBuffer.loop m d dest data = (unprocessed, d', dest')) :
    dest'.room + dest'.written.length = dest.room + dest.written.length := by
  fun_induction processBuffer.loop m d dest data with
  | case1 d dest data d₁ dest₁ hrun =>
    cases h
    exact runActions_room hrun
  | case2 d dest d₁ dest₁ hrun =>
    cases h
    exact runActions_room hrun
  | case3 d dest data d₁ dest₁ hrun hdata toCopy ih => exact (ih h).trans (runActions_room hrun)

/-! ### What the decoder makes of encoded frames -/

theorem runActions_false {d d' : Decoder} {dest dest' : Destination} (hroom : 0 < dest.room)
    (h : d.runActions m dest = (false, d', dest')) : d'.next = none ∧ d'.toRead = 0 := by
  fun_induction runActions m d dest with
  | case1 d dest hread => simp at h
  | case2 d dest hread d₁ dest₁ hact =>
    cases h
    obtain ⟨-, hok, -⟩ | ⟨hnext, -, -, -⟩ | ⟨-, -, herror⟩ := act_cases hact
    · exact absurd hok (by decide)
    · obtain ⟨room, hroom'⟩ := Nat.exists_eq_succ_of_ne_zero (Nat.pos_iff_ne_zero.mp hroom)
      simp [act, hnext, messageReady, Destination.write, hroom'] at hact
    · obtain ⟨hnone, hread'⟩ := herror rfl
      exact ⟨hnone, by omega⟩
  | case3 d dest hread d₁ dest₁ hact ih =>
    obtain ⟨-, -, rfl, -⟩ | ⟨-, hok, -⟩ | ⟨rfl, -, -⟩ := act_cases hact
    · rw [runActions_of_pos Nat.one_pos] at h
      simp at h
    · exact absurd hok (by decide)
    · exact ih hroom h

theorem settle_feed (d : Decoder) (bytes : List Byte) :
    d.feed m bytes = ((d.settle m).2.2 ++ ((d.settle m).2.1.feed m bytes).1,
      ((d.settle m).2.1.feed m bytes).2) := by
  have hrun : d.runActions m { room := 1 } = (_, _, _) := rfl
  obtain ⟨fs, hwritten, hfeed⟩ := runActions_feed hrun
  have hfs : (d.settle m).2.2 = fs := hwritten
  rw [hfs]
  exact hfeed bytes

/-- Bytes can be cut anywhere. -/
theorem feed_append (d : Decoder) (xs ys : List Byte) :
    d.feed m (xs ++ ys) = ((d.feed m xs).1 ++ ((d.feed m xs).2.feed m ys).1,
      ((d.feed m xs).2.feed m ys).2) := by
  induction xs generalizing d with
  | nil => exact settle_feed d ys
  | cons x xs ih =>
    simp only [List.cons_append, feed]
    split
    · next d' fs hsettle =>
      have hrun : d.runActions m { room := 1 } = (false, d', (d.runActions m { room := 1 }).2.2) := by
        have hok : (d.runActions m { room := 1 }).1 = false := congrArg Prod.fst hsettle
        have hd : (d.runActions m { room := 1 }).2.1 = d' := congrArg (fun r => r.2.1) hsettle
        exact Prod.ext hok (Prod.ext hd rfl)
      obtain ⟨hnext, hread⟩ := runActions_false Nat.one_pos hrun
      simp only [feed_error hnext hread, List.append_nil]
    · next d' fs hsettle => simp only [ih, List.append_assoc]

/-- In front of a frame. -/
structure Fresh (d : Decoder) : Prop where
  next : d.next = some .oneByteSizeReady
  toRead : d.toRead = 1
  filled : d.filled = []

theorem Fresh.init : Fresh {} := ⟨rfl, rfl, rfl⟩

theorem Fresh.feed_nil {d : Decoder} (h : d.Fresh) : d.feed m [] = ([], d) := by
  have hpos : 0 < d.toRead := by
    rw [h.toRead]
    exact Nat.one_pos
  simp only [feed, settle_of_pos hpos]

/-- Behind the size of a frame with `size` bytes of data. -/
structure AtFlags (size : Nat) (d : Decoder) : Prop where
  next : d.next = some .flagsReady
  toRead : d.toRead = 1
  filled : d.filled = []
  size : d.size = size

/-- The size of a frame, with the byte of the flags, that can be read. -/
def Accepts (alloc : Nat → Bool) (size : Nat) : Prop := size ≠ 0 ∧ alloc (size - 1) = true

theorem sizeRead_accepts {size : Nat} (h : Accepts m size) (d : Decoder) :
    d.sizeRead m size = (true, { d with size := size - 1 }.nextStep 1 .flagsReady) := by
  unfold sizeRead
  rw [if_neg h.1, if_neg (by rw [h.2]; decide)]

theorem sizeRead_rejects {size : Nat} (h : ¬ Accepts m size) (d : Decoder) :
    d.sizeRead m size = (false, d.decodingError) := by
  unfold sizeRead
  split
  · rfl
  · next hzero =>
    split
    · rfl
    · next halloc => exact absurd ⟨hzero, (Bool.not_eq_false _).mp halloc⟩ h

/-- Bytes that are not enough for the next action. -/
theorem feed_few {d : Decoder} {bytes : List Byte} (h : bytes.length < d.toRead) :
    d.feed m bytes = ([], d.fill bytes) := by
  have hfill := feed_fill (m := m) d bytes [] (Nat.le_of_lt h)
  have hpos : 0 < (d.fill bytes).toRead := by
    show 0 < d.toRead - bytes.length
    omega
  rw [List.append_nil] at hfill
  rw [hfill]
  simp only [feed, settle_of_pos hpos]

/-- A size in one byte. -/
theorem feed_shortSize {d : Decoder} (h : d.Fresh) {size : Byte} (hsize : size ≠ 0xff) :
    (Accepts m size.toNat → ∃ d', AtFlags (size.toNat - 1) d' ∧ ∀ bytes,
      d.feed m (size :: bytes) = d'.feed m bytes) ∧
    (¬ Accepts m size.toNat → ∃ d', d'.next = none ∧ ∀ bytes,
      d.feed m (size :: bytes) = ([], d')) := by
  have hcut : ∀ bytes, d.feed m (size :: bytes) = (d.fill [size]).feed m bytes := fun bytes =>
    feed_fill d [size] bytes (Nat.le_of_eq h.toRead.symm)
  have hread : (d.fill [size]).toRead = 0 := by simp [fill, h.toRead]
  have hact : ∀ dest, (d.fill [size]).act m dest =
      (((d.fill [size]).sizeRead m size.toNat).1,
        ((d.fill [size]).sizeRead m size.toNat).2, dest) := by
    intro dest
    simp only [act, fill, h.next, oneByteSizeReady, h.filled, List.nil_append, List.headD_cons,
      if_neg hsize]
  constructor
  · intro haccepts
    rw [sizeRead_accepts haccepts] at hact
    refine ⟨{ d.fill [size] with size := size.toNat - 1 }.nextStep 1 .flagsReady,
      ⟨rfl, rfl, rfl, rfl⟩, fun bytes => ?_⟩
    rw [hcut, feed_congr (settle_of_act hread hact)]
  · intro hrejects
    rw [sizeRead_rejects hrejects] at hact
    refine ⟨(d.fill [size]).decodingError, rfl, fun bytes => ?_⟩
    rw [hcut, feed_of_error hread hact]

/-- The byte in front of a size of eight bytes. -/
theorem feed_escape {d : Decoder} (h : d.Fresh) : ∃ d' : Decoder, d'.next = some .eightByteSizeReady ∧
    d'.toRead = 8 ∧ d'.filled = [] ∧ ∀ bytes,
      d.feed m (0xff :: bytes) = d'.feed m bytes := by
  have hescape : ∀ dest, (d.fill [0xff]).act m dest =
      (true, (d.fill [0xff]).nextStep 8 .eightByteSizeReady, dest) := by
    intro dest
    simp [act, fill, h.next, oneByteSizeReady, h.filled]
  refine ⟨(d.fill [0xff]).nextStep 8 .eightByteSizeReady, rfl, rfl, rfl, fun bytes => ?_⟩
  rw [← feed_congr (settle_of_act (by simp [fill, h.toRead]) hescape)]
  exact feed_fill d [0xff] bytes (Nat.le_of_eq h.toRead.symm)

/-- A size in eight bytes. -/
theorem feed_longSize {d : Decoder} (h : d.Fresh) {size : List Byte} (hlen : size.length = 8) :
    (Accepts m (getUint64 size) → ∃ d', AtFlags (getUint64 size - 1) d' ∧ ∀ bytes,
      d.feed m (0xff :: size ++ bytes) = d'.feed m bytes) ∧
    (¬ Accepts m (getUint64 size) → ∃ d', d'.next = none ∧ ∀ bytes,
      d.feed m (0xff :: size ++ bytes) = ([], d')) := by
  obtain ⟨d₁, hnext, hread₁, hfilled, hescape⟩ := feed_escape (m := m) h
  have hcut : ∀ bytes, d.feed m (0xff :: size ++ bytes) = (d₁.fill size).feed m bytes := by
    intro bytes
    rw [List.cons_append, hescape]
    exact feed_fill d₁ size bytes (Nat.le_of_eq (hlen.trans hread₁.symm))
  have hread : (d₁.fill size).toRead = 0 := by simp [fill, hread₁, hlen]
  have hact : ∀ dest, (d₁.fill size).act m dest =
      (((d₁.fill size).sizeRead m (getUint64 size)).1,
        ((d₁.fill size).sizeRead m (getUint64 size)).2, dest) := by
    intro dest
    simp only [act, fill, hnext, eightByteSizeReady, hfilled, List.nil_append]
  constructor
  · intro haccepts
    rw [sizeRead_accepts haccepts] at hact
    refine ⟨{ d₁.fill size with size := getUint64 size - 1 }.nextStep 1 .flagsReady,
      ⟨rfl, rfl, rfl, rfl⟩, fun bytes => ?_⟩
    rw [hcut, feed_congr (settle_of_act hread hact)]
  · intro hrejects
    rw [sizeRead_rejects hrejects] at hact
    refine ⟨(d₁.fill size).decodingError, rfl, fun bytes => ?_⟩
    rw [hcut, feed_of_error hread hact]

/-- The flags and the data of a frame. -/
theorem AtFlags.feed_frame {d : Decoder} (flags : Byte) (data : List Byte)
    (h : d.AtFlags data.length) :
    ∃ d', Fresh d' ∧ ∀ bytes, d.feed m (flags :: data ++ bytes) =
      (⟨flags &&& 1 = 1, data⟩ :: (d'.feed m bytes).1, (d'.feed m bytes).2) := by
  -- the decoder behind the flags, and the decoder behind the data
  have hflags : ∀ dest, (d.fill [flags]).act m dest =
      (true, ⟨some .messageReady, data.length, [], data.length, flags &&& 1 = 1⟩, dest) := by
    intro dest
    simp [act, fill, h.next, flagsReady, nextStep, h.filled, h.size]
  have hmessage : (Decoder.mk (some .messageReady) 0 data data.length (flags &&& 1 = 1)).act m
      { room := 1 } = (true, ⟨some .oneByteSizeReady, 1, [], data.length, flags &&& 1 = 1⟩,
        { room := 0, written := [⟨flags &&& 1 = 1, data⟩] }) := rfl
  have hfill : (Decoder.mk (some .messageReady) data.length [] data.length (flags &&& 1 = 1)).fill
      data = ⟨some .messageReady, 0, data, data.length, flags &&& 1 = 1⟩ := by
    simp only [fill, Nat.sub_self, List.nil_append]
  refine ⟨⟨some .oneByteSizeReady, 1, [], data.length, flags &&& 1 = 1⟩, ⟨rfl, rfl, rfl⟩,
    fun bytes => ?_⟩
  have hdata := feed_fill (m := m)
    ⟨some .messageReady, data.length, [], data.length, flags &&& 1 = 1⟩ data bytes (Nat.le_refl _)
  have hcut : d.feed m (flags :: data ++ bytes) = (d.fill [flags]).feed m (data ++ bytes) :=
    feed_fill d [flags] (data ++ bytes) (Nat.le_of_eq h.toRead.symm)
  rw [hcut, feed_congr (settle_of_act (by simp [fill, h.toRead]) hflags), hdata, hfill,
    feed_of_settle (settle_act rfl hmessage Nat.one_pos)]
  rfl

/-- Flags and data that are not complete. -/
theorem AtFlags.feed_few {d : Decoder} {size : Nat} (h : d.AtFlags size) {bytes : List Byte}
    (hlen : bytes.length < size + 1) :
    ∃ d', d'.next ≠ none ∧ d'.size = size ∧ d.feed m bytes = ([], d') := by
  cases bytes with
  | nil =>
    refine ⟨d.fill [], ?_, h.size, Decoder.feed_few (by rw [h.toRead]; exact Nat.one_pos)⟩
    rw [fill_nil, h.next]
    exact Option.some_ne_none _
  | cons flags bytes =>
    rw [List.length_cons] at hlen
    have hflags : ∀ dest, (d.fill [flags]).act m dest =
        (true, ⟨some .messageReady, size, [], size, flags &&& 1 = 1⟩, dest) := by
      intro dest
      simp [act, fill, h.next, flagsReady, nextStep, h.filled, h.size]
    refine ⟨(Decoder.mk (some .messageReady) size [] size (flags &&& 1 = 1)).fill bytes,
      Option.some_ne_none _, rfl, ?_⟩
    have hcut : d.feed m (flags :: bytes) = (d.fill [flags]).feed m bytes :=
      feed_fill d [flags] bytes (Nat.le_of_eq h.toRead.symm)
    rw [hcut, feed_congr (settle_of_act (by simp [fill, h.toRead]) hflags),
      Decoder.feed_few (by show bytes.length < size; omega)]

/-- The bytes that are read as a frame. Small sizes may come in eight bytes, and of
    the flags only one counts. -/
inductive IsEncoding : Frame → List Byte → Prop where
  | short {size flags : Byte} {data : List Byte} : size ≠ 0xff → size.toNat = data.length + 1 →
      IsEncoding ⟨flags &&& 1 = 1, data⟩ (size :: flags :: data)
  | long {size data : List Byte} {flags : Byte} : size.length = 8 →
      getUint64 size = data.length + 1 →
      IsEncoding ⟨flags &&& 1 = 1, data⟩ (0xff :: size ++ flags :: data)

theorem isEncoding_encode {f : Frame} (h : f.data.length + 1 < UInt64.size) :
    IsEncoding f (Encoder.encode f) := by
  obtain ⟨more, data⟩ := f
  have hmore : more = decide ((if more then 1 else 0 : Byte) &&& 1 = 1) := by cases more <;> rfl
  unfold Encoder.encode Encoder.header
  simp only
  split
  · next hshort =>
    have hbyte : (UInt8.ofNat (data.length + 1)).toNat = data.length + 1 := by
      rw [UInt8.toNat_ofNat']
      exact Nat.mod_eq_of_lt (Nat.lt_of_lt_of_le hshort (by decide))
    have hne : UInt8.ofNat (data.length + 1) ≠ 0xff := by
      intro heq
      rw [heq] at hbyte
      exact absurd (hbyte ▸ hshort) (by decide)
    have hencoding : IsEncoding ⟨decide ((if more then 1 else 0 : Byte) &&& 1 = 1), data⟩
        (UInt8.ofNat (data.length + 1) :: (if more then 1 else 0) :: data) := .short hne hbyte
    rw [← hmore] at hencoding
    exact hencoding
  · have hencoding : IsEncoding ⟨decide ((if more then 1 else 0 : Byte) &&& 1 = 1), data⟩
        (0xff :: putUint64 (data.length + 1) ++ (if more then 1 else 0) :: data) :=
      .long (putUint64_length _) (getUint64_putUint64 h)
    rw [← hmore] at hencoding
    simpa only [List.cons_append, List.append_assoc, List.nil_append] using hencoding

/-- A frame, with any bytes behind it. -/
theorem IsEncoding.feed {d : Decoder} {f : Frame} {encoding : List Byte} (h : d.Fresh)
    (hencoding : IsEncoding f encoding) (halloc : m f.data.length = true) :
    ∃ d', Fresh d' ∧ ∀ bytes, d.feed m (encoding ++ bytes) =
      (f :: (d'.feed m bytes).1, (d'.feed m bytes).2) := by
  have haccepts : Accepts m (f.data.length + 1) := ⟨Nat.succ_ne_zero _, halloc⟩
  cases hencoding with
  | @short size flags data hne hsize =>
    obtain ⟨d₁, hflags, hfeed⟩ := (feed_shortSize h hne).1 (hsize ▸ haccepts)
    rw [hsize] at hflags
    obtain ⟨d', hfresh, hframe⟩ := hflags.feed_frame (m := m) flags data
    refine ⟨d', hfresh, fun bytes => ?_⟩
    rw [← hframe, ← hfeed]
    rfl
  | @long size data flags hlen hsize =>
    obtain ⟨d₁, hflags, hfeed⟩ := (feed_longSize h hlen).1 (hsize ▸ haccepts)
    rw [hsize] at hflags
    obtain ⟨d', hfresh, hframe⟩ := hflags.feed_frame (m := m) flags data
    refine ⟨d', hfresh, fun bytes => ?_⟩
    rw [← hframe, ← hfeed]
    simp only [List.cons_append, List.append_assoc]

theorem feed_encode {d : Decoder} {f : Frame} (h : d.Fresh) (hfits : f.Fits m) :
    ∃ d', Fresh d' ∧ ∀ bytes, d.feed m (Encoder.encode f ++ bytes) =
      (f :: (d'.feed m bytes).1, (d'.feed m bytes).2) :=
  (isEncoding_encode (Nat.lt_trans hfits.1 (by decide))).feed h hfits.2

theorem Fresh.feed_encodeAll {d : Decoder} (h : d.Fresh) {fs : List Frame}
    (hfits : ∀ f ∈ fs, f.Fits m) :
    ∃ d', Fresh d' ∧ d.feed m (Encoder.encodeAll fs) = (fs, d') := by
  induction fs generalizing d with
  | nil => exact ⟨d, h, h.feed_nil⟩
  | cons f fs ih =>
    obtain ⟨d₁, hfresh, hfeed⟩ := feed_encode h (hfits f List.mem_cons_self)
    obtain ⟨d', hfresh', hfeed'⟩ := ih hfresh fun g hg => hfits g (List.mem_cons_of_mem f hg)
    refine ⟨d', hfresh', ?_⟩
    rw [Encoder.encodeAll_cons, hfeed, hfeed']

theorem runActions_none {d : Decoder} (h : d.next = none) (dest : Destination) :
    (d.runActions m dest).2 = (d, dest) := by
  rw [runActions]
  split
  · rfl
  · have hact : d.act m dest = (false, d, dest) := by
      unfold act
      rw [h]
    split
    · next heq =>
      rw [hact] at heq
      cases heq
      rfl
    · next heq => simp [hact] at heq

/-- A decoding error stays, and no frame is found behind it. -/
theorem feed_none {d : Decoder} (h : d.next = none) (bytes : List Byte) :
    (d.feed m bytes).1 = [] ∧ (d.feed m bytes).2.next = none := by
  have hsettle : (d.settle m).2 = (d, []) := congrArg (fun r => (r.1, r.2.written)) (runActions_none h _)
  induction bytes generalizing d with
  | nil =>
    simp only [feed, hsettle, true_and]
    exact h
  | cons b bytes ih =>
    unfold feed
    split
    · next d' fs heq =>
      rw [heq] at hsettle
      cases hsettle
      exact ⟨rfl, h⟩
    · next d' fs heq =>
      rw [heq] at hsettle
      cases hsettle
      have hfill : (d.fill [b]).next = none := h
      exact ih hfill (congrArg (fun r => (r.1, r.2.written)) (runActions_none hfill _))

/-! ### Sizes -/

/-- What is to be read are at most eight bytes, or the data of a message. -/
def Sized (d : Decoder) : Prop :=
  8 < d.toRead → d.next = some .messageReady ∧ d.toRead ≤ d.size

theorem Sized.of_le {d : Decoder} (h : d.toRead ≤ 8) : d.Sized :=
  fun h' => absurd h (Nat.not_le.mpr h')

theorem Sized.fill {d : Decoder} (h : d.Sized) (bytes : List Byte) : (d.fill bytes).Sized := by
  intro hread
  change 8 < d.toRead - bytes.length at hread
  obtain ⟨hnext, hsize⟩ := h (by omega)
  exact ⟨hnext, Nat.le_trans (Nat.sub_le _ _) hsize⟩

theorem toRead_sizeRead (size : Nat) {d : Decoder} (hread : d.toRead = 0) :
    (d.sizeRead m size).2.toRead ≤ 8 := by
  have hzero : d.toRead ≤ 8 := hread ▸ Nat.zero_le 8
  unfold sizeRead
  split
  · exact hzero
  · split
    · exact hzero
    · exact Nat.le_of_ble_eq_true rfl

/-- An action asks for few bytes, or for the data. -/
theorem Sized.act {d d' : Decoder} {dest dest' : Destination} {ok : Bool} (hread : d.toRead = 0)
    (h : d.act m dest = (ok, d', dest')) : d'.Sized := by
  have hzero : d.toRead ≤ 8 := hread ▸ Nat.zero_le 8
  unfold Decoder.act at h
  split at h
  · cases h
    exact .of_le hzero
  · cases h
    apply Sized.of_le
    unfold oneByteSizeReady
    simp only
    split
    · exact Nat.le_refl 8
    · exact toRead_sizeRead _ hread
  · cases h
    exact .of_le (toRead_sizeRead _ hread)
  · cases h
    exact fun _ => ⟨rfl, Nat.le_refl _⟩
  · unfold messageReady at h
    split at h
    · cases h
      exact .of_le hzero
    · cases h
      exact .of_le (Nat.le_of_ble_eq_true rfl)

theorem Sized.runActions {d d' : Decoder} {dest dest' : Destination} {ok : Bool} (h : d.Sized)
    (hrun : d.runActions m dest = (ok, d', dest')) : d'.Sized := by
  fun_induction Decoder.runActions m d dest with
  | case1 d dest hread =>
    cases hrun
    exact h
  | case2 d dest hread d₁ dest₁ hact =>
    cases hrun
    exact .act (by omega) hact
  | case3 d dest hread d₁ dest₁ hact ih => exact ih (.act (by omega) hact) hrun

theorem Sized.processBuffer_loop {d d' : Decoder} {dest dest' : Destination}
    {data unprocessed : List Byte} (h : d.Sized)
    (hloop : processBuffer.loop m d dest data = (unprocessed, d', dest')) : d'.Sized := by
  fun_induction processBuffer.loop m d dest data with
  | case1 d dest data d₁ dest₁ hrun =>
    cases hloop
    exact h.runActions hrun
  | case2 d dest d₁ dest₁ hrun =>
    cases hloop
    exact h.runActions hrun
  | case3 d dest data d₁ dest₁ hrun hdata toCopy ih =>
    exact ih ((h.runActions hrun).fill _) hloop

/-- What is to be read belongs to the next frame, or to the one that is not complete. -/
theorem Sized.toRead_le {d d' : Decoder} {fs : List Frame} {bytes : List Byte} (h : d.Sized)
    (hfeed : d.feed m bytes = (fs, d')) :
    d.toRead ≤ 8 ∨ (d'.next = some .messageReady ∧ d.toRead ≤ d'.size) ∨
      ∃ f ∈ fs, d.toRead ≤ f.data.length := by
  by_cases hread : d.toRead ≤ 8
  · exact .inl hread
  · obtain ⟨hnext, hsize⟩ := h (by omega)
    refine .inr ?_
    by_cases hlen : bytes.length < d.toRead
    · rw [feed_few hlen] at hfeed
      cases hfeed
      exact .inl ⟨hnext, hsize⟩
    · have hdata : (bytes.take d.toRead).length = d.toRead := List.length_take_of_le (by omega)
      have hcut := feed_fill (m := m) d (bytes.take d.toRead) (bytes.drop d.toRead)
        (Nat.le_of_eq hdata)
      rw [List.take_append_drop] at hcut
      have hact : (d.fill (bytes.take d.toRead)).act m { room := 1 } =
          (true, (d.fill (bytes.take d.toRead)).nextStep 1 .oneByteSizeReady,
            { room := 0, written := [⟨d.more, d.filled ++ bytes.take d.toRead⟩] }) := by
        unfold Decoder.act Decoder.fill
        rw [hnext]
        rfl
      have hzero : (d.fill (bytes.take d.toRead)).toRead = 0 := by
        show d.toRead - (bytes.take d.toRead).length = 0
        omega
      rw [hcut, feed_of_settle (settle_act hzero hact Nat.one_pos)] at hfeed
      refine .inr ⟨⟨d.more, d.filled ++ bytes.take d.toRead⟩, ?_, ?_⟩
      · rw [← show _ = fs from congrArg Prod.fst hfeed]
        exact List.mem_cons_self
      · rw [List.length_append, hdata]
        exact Nat.le_add_left _ _

end Decoder

end RefereeBox.Zmq
