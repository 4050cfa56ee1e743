import RefereeBox.Lib.RequestReply
import RefereeBox.Model.Rep

/-! # What a REP Socket Does

  A REP socket with any number of peers, in any order of the calls of its user
  and the events of its pipes, is a server of `RequestReply`: it hands out one
  request at a time, part by part, and the parts that are sent go back to the
  peer that has asked, in the envelope of its request, or nowhere if that peer
  has disconnected since. No assertion of `rep_t` or `xrep_t` fails.

  Every connection has an identity of its own, as the clients set none, and
  what they send are requests: an envelope of non-empty parts, the empty part
  and at least one part behind it.
-/

namespace RefereeBox.Zmq

open Transition RequestReply

/-! ### Requests -/

/-- The parts of the backtrace stack, without the empty one at its bottom. -/
abbrev Envelope := List (List Byte)

abbrev PeerMessage := Message Envelope (List Byte)

/-- Parts behind the envelope: `ZMQ_MSG_MORE` is set on all but the last one. -/
def partFrames : List (List Byte) → List Frame
  | [] => []
  | [part] => [⟨false, part⟩]
  | part :: parts => ⟨true, part⟩ :: partFrames parts

def envelopeFrames (env : Envelope) : List Frame := env.map (⟨true, ·⟩) ++ [⟨true, []⟩]

def messageFrames (m : PeerMessage) : List Frame := envelopeFrames m.env ++ partFrames m.parts

structure IsRequest (m : PeerMessage) : Prop where
  env : [] ∉ m.env
  parts : m.parts ≠ []

theorem partFrames_cons (part : List Byte) (parts : List (List Byte)) :
    partFrames (part :: parts) = ⟨!parts.isEmpty, part⟩ :: partFrames parts := by
  cases parts <;> rfl

/-- The last part is added. -/
theorem partFrames_concat (begun : List (List Byte)) (part : List Byte) :
    partFrames (begun ++ [part]) = begun.map (⟨true, ·⟩) ++ [⟨false, part⟩] := by
  induction begun with
  | nil => rfl
  | cons b begun ih =>
    rw [List.cons_append, partFrames_cons, ih]
    simp

/-! ### Events -/

inductive RepEvent where
  | attach (identity : Identity)
  /-- A peer has flushed a request. -/
  | request (identity : Identity) (m : PeerMessage)
  /-- A peer has terminated its writer. -/
  | hangUp (identity : Identity)
  | activated (identity : Identity)
  | inTerminated (identity : Identity)
  | outTerminated (identity : Identity)
  | recv (res : Received)
  | send (f : Frame) (sent : Bool)
deriving DecidableEq, Repr

/-- A peer can write to the inbound pipe. -/
def InPipe.Open (p : InPipe) : Prop :=
  p.reader.delimited = false ∧ p.reader.terminating = false

def Rep.setIn (i : Nat) (p : InPipe) (r : Rep) : Rep := { r with xrep := r.xrep.setIn i p }

/-- A REP socket and its peers. A reader is activated when there is something to read,
    and terminated behind the delimiter. -/
def replying : System Rep RepEvent where
  init r := r = {}
  step r l r' :=
    match l with
    | .attach identity =>
      identity ≠ [] ∧ (∀ p ∈ r.xrep.inpipes, p.identity ≠ identity) ∧
        r.xrep.findOut identity = none ∧
        ∃ xrep, r.xrep.attachPipes identity = some xrep ∧ r' = { r with xrep := xrep }
    | .request identity m =>
      IsRequest m ∧ ∃ i p, r.xrep.inpipes[i]? = some p ∧ p.identity = identity ∧ p.Open ∧
        r' = r.setIn i
          { p with reader := { p.reader with frames := p.reader.frames ++ messageFrames m } }
    | .hangUp identity =>
      ∃ i p, r.xrep.inpipes[i]? = some p ∧ p.identity = identity ∧ p.Open ∧
        r' = r.setIn i { p with reader := { p.reader with delimited := true } }
    | .activated identity =>
      ∃ i p, r.xrep.inpipes[i]? = some p ∧ p.identity = identity ∧
        p.reader.active = false ∧ p.reader.terminating = false ∧
        (p.reader.frames ≠ [] ∨ p.reader.delimited = true) ∧
        ∃ xrep, r.xrep.activatedIn i = some xrep ∧ r' = { r with xrep := xrep }
    | .inTerminated identity =>
      ∃ i p, r.xrep.inpipes[i]? = some p ∧ p.identity = identity ∧ p.reader.terminating = true ∧
        ∃ xrep, r.xrep.terminatedIn i = some xrep ∧ r' = { r with xrep := xrep }
    | .outTerminated identity =>
      ∃ xrep, r.xrep.terminatedOut identity = some xrep ∧ r' = { r with xrep := xrep }
    | .recv res => r.xrecv = some (res, r')
    | .send f sent => r.xsend f = some (sent, r')

/-- The events as a server of `RequestReply` has them. -/
def RepEvent.event : RepEvent → Option (Event Identity Envelope (List Byte))
  | .attach identity => some (.connect identity)
  | .request identity m => some (.request identity m)
  | .outTerminated identity => some (.disconnect identity)
  | .recv (.part f) => some (.receive f.data f.more)
  | .send f true => some (.send f.data f.more)
  | _ => none

/-! ### Inbound pipes -/

/-- A read without a message: the reader was not active, or there was nothing. -/
theorem Reader.read_none {r r' : Reader} (h : r.read = (none, r')) :
    (r.active = false ∧ r' = r) ∨ (r.active = true ∧ r.frames = [] ∧ r'.frames = [] ∧
      (r.terminating = false → r'.active = false)) := by
  unfold Reader.read at h
  split at h
  · next hactive =>
    cases h
    exact .inl ⟨hactive, rfl⟩
  · next hactive =>
    split at h
    · simp at h
    · next hframes =>
      refine .inr ⟨(Bool.not_eq_false _).mp hactive, hframes, ?_⟩
      split at h
      · cases h
        unfold Reader.terminate
        split
        · next hterm => exact ⟨hframes, fun hfalse => absurd hterm (by simp [hfalse])⟩
        · exact ⟨hframes, fun _ => rfl⟩
      · cases h
        exact ⟨hframes, fun _ => rfl⟩

/-- A read with a message. -/
theorem Reader.read_some {r r' : Reader} {f : Frame} (h : r.read = (some f, r')) :
    r.active = true ∧ ∃ frames, r.frames = f :: frames ∧ r' = { r with frames := frames } := by
  unfold Reader.read at h
  split at h
  · simp at h
  · next hactive =>
    split at h
    · next g frames hframes =>
      cases h
      exact ⟨(Bool.not_eq_false _).mp hactive, frames, hframes, rfl⟩
    · split at h <;> simp at h

/-- The marks of a pipe agree, and there is nothing behind a delimiter that was read. -/
structure InPipe.Ok (p : InPipe) : Prop where
  active : p.active = p.reader.active
  terminating : p.reader.terminating = true → p.reader.active = false ∧ p.reader.frames = []

/-- What a read without a message leaves. -/
theorem InPipe.Ok.read_none {p p' : InPipe} (h : p.Ok) (hread : p.read = (none, p')) :
    InPipe.Ok { p' with active := false } ∧ p'.identity = p.identity ∧
      p'.reader.frames = p.reader.frames := by
  unfold InPipe.read at hread
  split at hread
  · next hactive =>
    have hnone : p.reader.read.1 = none := congrArg Prod.fst hread
    have hres : p.reader.read = (none, p.reader.read.2) := Prod.ext hnone rfl
    obtain rfl : { p with reader := p.reader.read.2 } = p' := congrArg Prod.snd hread
    obtain ⟨hreader, -⟩ | ⟨hreader, hframes, hframes', hinactive⟩ := Reader.read_none hres
    · rw [h.active, hreader] at hactive
      cases hactive
    · have hterm : p.reader.terminating = false := by
        cases hterm : p.reader.terminating with
        | false => rfl
        | true =>
          rw [(h.terminating hterm).1] at hreader
          cases hreader
      exact ⟨⟨(hinactive hterm).symm, fun _ => ⟨hinactive hterm, hframes'⟩⟩, rfl,
        hframes'.trans hframes.symm⟩
  · next hactive =>
    obtain rfl : p = p' := congrArg Prod.snd hread
    refine ⟨⟨?_, h.terminating⟩, rfl, rfl⟩
    rw [← h.active]
    exact ((Bool.not_eq_true _).mp hactive).symm

/-- What a read with a message leaves. -/
theorem InPipe.Ok.read_some {p p' : InPipe} {f : Frame} (h : p.Ok)
    (hread : p.read = (some f, p')) :
    p.active = true ∧ ∃ frames, p.reader.frames = f :: frames ∧
      p' = { p with reader := { p.reader with frames := frames } } ∧ p'.Ok := by
  unfold InPipe.read at hread
  split at hread
  · next hactive =>
    have hsome : p.reader.read.1 = some f := congrArg Prod.fst hread
    have hres : p.reader.read = (some f, p.reader.read.2) := Prod.ext hsome rfl
    obtain rfl : { p with reader := p.reader.read.2 } = p' := congrArg Prod.snd hread
    obtain ⟨hreader, frames, hframes, heq⟩ := Reader.read_some hres
    refine ⟨hactive, frames, hframes, by rw [heq], ?_⟩
    rw [heq]
    refine ⟨h.active, fun hterm => ?_⟩
    rw [(h.terminating hterm).2] at hframes
    cases hframes
  · simp at hread

/-- A pipe with a message that is marked can be read. -/
theorem InPipe.Ok.read_cons {p : InPipe} {f : Frame} {frames : List Frame} (h : p.Ok)
    (hactive : p.active = true) (hframes : p.reader.frames = f :: frames) :
    p.read = (some f, { p with reader := { p.reader with frames := frames } }) := by
  have hreader : p.reader.active = true := h.active.symm.trans hactive
  simp [InPipe.read, Reader.read, hactive, hreader, hframes]

/-! ### The round robin -/

/-- The same pipes with the same messages; marks may be gone. -/
structure Passed (x y : Xrep) : Prop where
  inpipes : ∀ (i : Nat) (p' : InPipe), y.inpipes[i]? = some p' → ∃ p, x.inpipes[i]? = some p ∧
    p'.identity = p.identity ∧ p'.reader.frames = p.reader.frames
  ok : (∀ p ∈ x.inpipes, p.Ok) → ∀ p ∈ y.inpipes, p.Ok
  identities : y.inpipes.map InPipe.identity = x.inpipes.map InPipe.identity
  prefetched : y.prefetched = x.prefetched
  moreIn : y.moreIn = x.moreIn
  outpipes : y.outpipes = x.outpipes
  currentOut : y.currentOut = x.currentOut
  moreOut : y.moreOut = x.moreOut
  currentIn : x.currentIn < x.inpipes.length → y.currentIn < y.inpipes.length
  nil : x.inpipes = [] → y = x

theorem Passed.refl (x : Xrep) : Passed x x where
  inpipes _ p h := ⟨p, h, rfl, rfl⟩
  ok h := h
  identities := rfl
  prefetched := rfl
  moreIn := rfl
  outpipes := rfl
  currentOut := rfl
  moreOut := rfl
  currentIn h := h
  nil _ := rfl

theorem Passed.trans {x y z : Xrep} (h : Passed x y) (h' : Passed y z) : Passed x z where
  inpipes i p hp := by
    obtain ⟨q, hq, hidentity, hframes⟩ := h'.inpipes i p hp
    obtain ⟨r, hr, hidentity', hframes'⟩ := h.inpipes i q hq
    exact ⟨r, hr, hidentity.trans hidentity', hframes.trans hframes'⟩
  ok hx := h'.ok (h.ok hx)
  identities := h'.identities.trans h.identities
  prefetched := h'.prefetched.trans h.prefetched
  moreIn := h'.moreIn.trans h.moreIn
  outpipes := h'.outpipes.trans h.outpipes
  currentOut := h'.currentOut.trans h.currentOut
  moreOut := h'.moreOut.trans h.moreOut
  currentIn hx := h'.currentIn (h.currentIn hx)
  nil hx := by
    have hy := h.nil hx
    rw [h'.nil (hy ▸ hx), hy]

theorem map_identity_set {pipes : List InPipe} {i : Nat} {p q : InPipe} (hp : pipes[i]? = some p)
    (hidentity : q.identity = p.identity) :
    (pipes.set i q).map InPipe.identity = pipes.map InPipe.identity := by
  apply List.ext_getElem?
  intro j
  rw [List.getElem?_map, List.getElem?_map, List.getElem?_set]
  split
  · next hij =>
    subst hij
    split
    · rw [hp, Option.map_some, Option.map_some, hidentity]
    · next hlt =>
      rw [List.getElem?_eq_none (by omega)]
  · rfl

/-- One pipe is passed over. -/
theorem Passed.advance {x : Xrep} {p p' : InPipe} (hp : x.inpipes[x.currentIn]? = some p)
    (hok : p.Ok) (hread : p.read = (none, p')) :
    Passed x (x.setIn x.currentIn { p' with active := false }).advance := by
  obtain ⟨hok', hidentity, hframes⟩ := hok.read_none hread
  obtain ⟨hlt, hget⟩ := List.getElem?_eq_some_iff.mp hp
  exact {
    inpipes := by
      intro i q hq
      change (x.inpipes.set x.currentIn { p' with active := false })[i]? = some q at hq
      by_cases hi : x.currentIn = i
      · rw [← hi, List.getElem?_set_self hlt] at hq
        cases hq
        exact ⟨p, hi ▸ hp, hidentity, hframes⟩
      · rw [List.getElem?_set_ne hi] at hq
        exact ⟨q, hq, rfl, rfl⟩
    ok := by
      intro hall q hq
      obtain hq | rfl := List.mem_or_eq_of_mem_set hq
      · exact hall q hq
      · exact hok'
    identities := map_identity_set hp hidentity
    prefetched := rfl
    moreIn := rfl
    outpipes := rfl
    currentOut := rfl
    moreOut := rfl
    currentIn := by
      intro _
      show (if (x.inpipes.set _ _).length ≤ x.currentIn + 1 then 0 else x.currentIn + 1) <
        (x.inpipes.set _ _).length
      rw [List.length_set]
      split <;> omega
    nil := by
      intro hnil
      rw [hnil] at hlt
      exact absurd hlt (Nat.not_lt_zero _) }

/-- The round robin ends at a pipe with a message, or has passed over all of them. -/
theorem fetch_cases {count : Nat} {x : Xrep} (hok : ∀ p ∈ x.inpipes, p.Ok)
    (hindex : x.currentIn < x.inpipes.length ∨ x.inpipes = [] ∧ count = 0) :
    (∃ y, Passed x y ∧ x.fetch count = some (none, y)) ∨
    (∃ y p f frames, Passed x y ∧ y.inpipes[y.currentIn]? = some p ∧ p.active = true ∧
      p.reader.frames = f :: frames ∧ x.fetch count = some (some ⟨true, p.identity⟩,
        { y.setIn y.currentIn { p with reader := { p.reader with frames := frames } } with
          prefetched := some f })) := by
  induction count generalizing x with
  | zero => exact .inl ⟨x, .refl x, rfl⟩
  | succ count ih =>
    have hlt : x.currentIn < x.inpipes.length := by
      obtain hlt | ⟨-, hzero⟩ := hindex
      · exact hlt
      · cases hzero
    have hp := List.getElem?_eq_getElem hlt
    generalize x.inpipes[x.currentIn] = p at hp
    have hokp := hok p (List.mem_of_getElem? hp)
    cases hread : p.read with
    | mk res p' =>
      cases res with
      | some f =>
        obtain ⟨hactive, frames, hframes, rfl, -⟩ := hokp.read_some hread
        refine .inr ⟨x, p, f, frames, .refl x, hp, hactive, hframes, ?_⟩
        simp only [Xrep.fetch, hp, hread]
      | none =>
        have hpass := Passed.advance hp hokp hread
        have hnext : (x.setIn x.currentIn { p' with active := false }).advance.currentIn <
            (x.setIn x.currentIn { p' with active := false }).advance.inpipes.length :=
          hpass.currentIn hlt
        have hfetch : x.fetch (count + 1) =
            (x.setIn x.currentIn { p' with active := false }).advance.fetch count := by
          simp only [Xrep.fetch, hp, hread]
        rw [hfetch]
        obtain ⟨y, hy, hnone⟩ | ⟨y, q, f, frames, hy, hq⟩ := ih (hpass.ok hok) (.inl hnext)
        · exact .inl ⟨y, hpass.trans hy, hnone⟩
        · exact .inr ⟨y, q, f, frames, hpass.trans hy, hq⟩

/-! ### Parts of one message -/

def InPipe.withFrames (p : InPipe) (frames : List Frame) : InPipe :=
  { p with reader := { p.reader with frames := frames } }

/-- The next parts are `frames`, the first of them prefetched or all in the pipe. -/
structure Reading (x : Xrep) (p : InPipe) (frames : List Frame) : Prop where
  pipe : x.inpipes[x.currentIn]? = some p
  ok : p.Ok
  active : p.active = true
  frames : x.prefetched.toList ++ p.reader.frames = frames
  moreIn : x.prefetched = none → x.moreIn = true

theorem InPipe.Ok.withFrames {p : InPipe} (h : p.Ok) (hactive : p.active = true)
    (frames : List Frame) : (p.withFrames frames).Ok where
  active := h.active
  terminating hterm := by
    have hinactive := (h.terminating hterm).1
    rw [← h.active, hactive] at hinactive
    cases hinactive

/-- The state behind a part that is not the last one. -/
def Xrep.readTo (x : Xrep) (p : InPipe) (frames : List Frame) : Xrep :=
  { x.setIn x.currentIn (p.withFrames frames) with prefetched := none, moreIn := true }

theorem Reading.readTo {x : Xrep} {p : InPipe} {frames : List Frame} (h : Reading x p frames)
    (rest : List Frame) : Reading (x.readTo p rest) (p.withFrames rest) rest where
  pipe := by
    obtain ⟨hlt, -⟩ := List.getElem?_eq_some_iff.mp h.pipe
    exact List.getElem?_set_self hlt
  ok := h.ok.withFrames h.active rest
  active := h.active
  frames := rfl
  moreIn _ := rfl

theorem set_self {pipes : List InPipe} {i : Nat} {p : InPipe} (h : pipes[i]? = some p) :
    pipes.set i p = pipes := by
  apply List.ext_getElem?
  intro j
  rw [List.getElem?_set]
  split
  · next hij =>
    subst hij
    obtain ⟨hlt, -⟩ := List.getElem?_eq_some_iff.mp h
    rw [if_pos hlt, h]
  · rfl

/-- A part that is not the last one. -/
theorem Reading.xrecv_more {x : Xrep} {p : InPipe} {part : List Byte} {frames : List Frame}
    (h : Reading x p (⟨true, part⟩ :: frames)) :
    x.xrecv = some (some ⟨true, part⟩, x.readTo p frames) := by
  unfold Xrep.xrecv
  cases hpre : x.prefetched with
  | some g =>
    have hframes := h.frames
    rw [hpre, Option.toList_some, List.singleton_append] at hframes
    obtain ⟨rfl, rfl⟩ := List.cons.inj hframes
    simp only [Xrep.readTo, Xrep.setIn, InPipe.withFrames, set_self h.pipe]
  | none =>
    have hframes := h.frames
    rw [hpre, Option.toList_none, List.nil_append] at hframes
    simp only [h.moreIn hpre, if_true, h.pipe, h.ok.read_cons h.active hframes]
    simp only [Xrep.readTo, Xrep.setIn, InPipe.withFrames, hpre]

/-- The last part, in the pipe. -/
theorem Reading.xrecv_last {x : Xrep} {p : InPipe} {part : List Byte} {frames : List Frame}
    (h : Reading x p (⟨false, part⟩ :: frames)) (hpre : x.prefetched = none) :
    x.xrecv = some (some ⟨false, part⟩,
      { x.setIn x.currentIn (p.withFrames frames) with moreIn := false }.advance) := by
  have hframes := h.frames
  rw [hpre, Option.toList_none, List.nil_append] at hframes
  unfold Xrep.xrecv
  simp only [hpre, h.moreIn hpre, if_true, h.pipe, h.ok.read_cons h.active hframes,
    Bool.false_eq_true, if_false]
  rfl

/-! ### Outbound pipes -/

theorem findOut_modifyOut (x : Xrep) (identity : Identity) (g : OutPipe → OutPipe)
    (other : Identity) : (x.modifyOut identity g).findOut other =
      if other = identity then (x.findOut other).map g else x.findOut other := by
  unfold Xrep.findOut Xrep.modifyOut
  simp only
  induction x.outpipes with
  | nil => simp
  | cons q pipes ih =>
    obtain ⟨key, out⟩ := q
    rw [List.map_cons, List.lookup_cons, List.lookup_cons]
    by_cases hkey : other = key
    · subst hkey
      by_cases hother : other = identity <;> simp [hother]
    · have hne : (other == key) = false := by simp [hkey]
      rw [hne]
      have hfst : (if key = identity then (key, g out) else (key, out)).1 = key := by split <;> rfl
      simp only [hfst, hne]
      exact ih

/-- The pipe that is written to can be written to. -/
def Xrep.Writable (x : Xrep) : Prop :=
  ∀ identity, x.currentOut = some identity →
    ∃ out, x.findOut identity = some out ∧ out.writer.active = true

def OutPipe.append (frames : List Frame) (out : OutPipe) : OutPipe :=
  { out with writer := { out.writer with begun := out.writer.begun ++ frames } }

/-- `frames` were written behind the parts that were written before, if there is a
    pipe to write to. -/
structure Wrote (frames : List Frame) (x y : Xrep) : Prop where
  inpipes : y.inpipes = x.inpipes
  currentIn : y.currentIn = x.currentIn
  prefetched : y.prefetched = x.prefetched
  moreIn : y.moreIn = x.moreIn
  currentOut : y.currentOut = x.currentOut
  moreOut : y.moreOut = true
  findOut : ∀ identity, y.findOut identity =
    if x.currentOut = some identity then (x.findOut identity).map (·.append frames)
    else x.findOut identity

theorem Wrote.writable {frames : List Frame} {x y : Xrep} (h : Wrote frames x y)
    (hx : x.Writable) : y.Writable := by
  intro identity hout
  rw [h.currentOut] at hout
  obtain ⟨out, hfind, hactive⟩ := hx identity hout
  refine ⟨out.append frames, ?_, hactive⟩
  rw [h.findOut, if_pos hout, hfind]
  rfl

/-- A part that is not the first one and not the last one. -/
theorem xsend_more {x : Xrep} (part : List Byte) (hmore : x.moreOut = true) (hx : x.Writable) :
    ∃ y, x.xsend ⟨true, part⟩ = some y ∧ Wrote [⟨true, part⟩] x y := by
  unfold Xrep.xsend
  simp only [hmore, Bool.true_eq_false, if_false, if_true]
  cases hout : x.currentOut with
  | none =>
    refine ⟨_, rfl, ?_⟩
    exact {
      inpipes := rfl
      currentIn := rfl
      prefetched := rfl
      moreIn := rfl
      currentOut := hout.symm
      moreOut := rfl
      findOut := by
        intro identity
        rw [hout, if_neg (by simp)]
        rfl }
  | some identity =>
    obtain ⟨out, hfind, hactive⟩ := hx identity hout
    have hwrite : out.writer.write ⟨true, part⟩ = some (out.append [⟨true, part⟩]).writer := by
      simp [Writer.write, Writer.checkWrite, hactive, OutPipe.append]
    have hlookup : x.outpipes.lookup identity = some out := hfind
    simp only [Xrep.findOut, hlookup, Option.bind_some, hwrite]
    refine ⟨_, rfl, ?_⟩
    exact {
      inpipes := rfl
      currentIn := rfl
      prefetched := rfl
      moreIn := rfl
      currentOut := hout.symm
      moreOut := rfl
      findOut := by
        intro other
        rw [findOut_modifyOut, hout]
        by_cases hother : other = identity
        · rw [if_pos hother, if_pos (congrArg some hother.symm), hother, hfind]
          simp only [Xrep.findOut, hlookup]
          rfl
        · rw [if_neg hother, if_neg fun heq => hother (Option.some.inj heq).symm]
          rfl }

/-- The message that is being written is complete. -/
def Writer.finish (frames : List Frame) (w : Writer) : Writer :=
  { w with complete := w.complete ++ w.begun ++ frames, begun := [] }

/-- The last part: the message is flushed. -/
structure Sent (frames : List Frame) (x y : Xrep) : Prop where
  inpipes : y.inpipes = x.inpipes
  currentIn : y.currentIn = x.currentIn
  prefetched : y.prefetched = x.prefetched
  moreIn : y.moreIn = x.moreIn
  currentOut : y.currentOut = none
  moreOut : y.moreOut = false
  findOut : ∀ identity, y.findOut identity =
    if x.currentOut = some identity then
      (x.findOut identity).map fun out => { out with writer := (out.writer.finish frames).flush }
    else x.findOut identity

theorem xsend_last {x : Xrep} (part : List Byte) (hmore : x.moreOut = true) (hx : x.Writable) :
    ∃ y, x.xsend ⟨false, part⟩ = some y ∧ Sent [⟨false, part⟩] x y := by
  unfold Xrep.xsend
  simp only [hmore, Bool.true_eq_false, Bool.false_eq_true, if_false]
  cases hout : x.currentOut with
  | none =>
    refine ⟨_, rfl, ?_⟩
    exact {
      inpipes := rfl
      currentIn := rfl
      prefetched := rfl
      moreIn := rfl
      currentOut := rfl
      moreOut := rfl
      findOut := by
        intro identity
        rw [hout, if_neg (by simp)]
        rfl }
  | some identity =>
    obtain ⟨out, hfind, hactive⟩ := hx identity hout
    have hwrite : out.writer.write ⟨false, part⟩ = some (out.writer.finish [⟨false, part⟩]) := by
      simp [Writer.write, Writer.checkWrite, hactive, Writer.finish]
    have hlookup : x.outpipes.lookup identity = some out := hfind
    simp only [Xrep.findOut, hlookup, Option.bind_some, hwrite]
    refine ⟨_, rfl, ?_⟩
    exact {
      inpipes := rfl
      currentIn := rfl
      prefetched := rfl
      moreIn := rfl
      currentOut := rfl
      moreOut := rfl
      findOut := by
        intro other
        have hmodify := findOut_modifyOut x identity
          (fun out' => { out' with writer := (out.writer.finish [⟨false, part⟩]).flush }) other
        rw [hout]
        refine Eq.trans (show _ = _ from hmodify) ?_
        by_cases hother : other = identity
        · rw [if_pos hother, if_pos (congrArg some hother.symm), hother, hfind]
          rfl
        · rw [if_neg hother, if_neg fun heq => hother (Option.some.inj heq).symm] }

/-- The identity in front of a message. -/
theorem xsend_identity {x : Xrep} (identity : Identity) (hmore : x.moreOut = false)
    (hout : x.currentOut = none) (hactive : ∀ out, x.findOut identity = some out →
      out.writer.active = true) :
    x.xsend ⟨true, identity⟩ = some { x with
      moreOut := true
      currentOut := if (x.findOut identity).isSome then some identity else none } := by
  unfold Xrep.xsend
  simp only [hmore, hout, if_true, Option.isSome_none, Bool.false_eq_true, Bool.true_eq_false,
    if_false]
  cases hfind : x.findOut identity with
  | none => simp
  | some out =>
    have hcheck : out.writer.checkWrite = true := hactive out hfind
    simp [hcheck]

/-! ### The envelope -/

theorem Reading.of_fields {x y : Xrep} {p : InPipe} {frames : List Frame} (h : Reading x p frames)
    (hin : y.inpipes = x.inpipes) (hcurrent : y.currentIn = x.currentIn)
    (hpre : y.prefetched = x.prefetched) (hmore : y.moreIn = x.moreIn) : Reading y p frames where
  pipe := by
    rw [hin, hcurrent]
    exact h.pipe
  ok := h.ok
  active := h.active
  frames := by
    rw [hpre]
    exact h.frames
  moreIn hy := by
    rw [hmore]
    exact h.moreIn (hpre ▸ hy)

/-- The envelope is copied from `p` to the reply. -/
structure Copied (env : Envelope) (rest : List Frame) (p : InPipe) (x y : Xrep) : Prop where
  reading : Reading y (p.withFrames rest) rest
  inpipes : y.inpipes = x.inpipes.set x.currentIn (p.withFrames rest)
  currentIn : y.currentIn = x.currentIn
  prefetched : y.prefetched = none
  currentOut : y.currentOut = x.currentOut
  moreOut : y.moreOut = true
  findOut : ∀ identity, y.findOut identity =
    if x.currentOut = some identity then (x.findOut identity).map (·.append (envelopeFrames env))
    else x.findOut identity

theorem copyTrace_more {x x' x'' : Xrep} {part : List Byte}
    (hrecv : x.xrecv = some (some ⟨true, part⟩, x')) (hsend : x'.xsend ⟨true, part⟩ = some x'') :
    Rep.copyTrace x = if part = [] then some (true, x'') else Rep.copyTrace x'' := by
  rw [Rep.copyTrace]
  split
  · next heq => simp [hrecv] at heq
  · next heq => simp [hrecv] at heq
  · next f y heq =>
    rw [hrecv] at heq
    cases heq
    rw [if_pos rfl]
    split
    · next heq => simp [hsend] at heq
    · next z heq =>
      rw [hsend] at heq
      cases heq
      rfl

theorem copyTrace_again {x x' : Xrep} (hrecv : x.xrecv = some (none, x')) :
    Rep.copyTrace x = some (false, x') := by
  rw [Rep.copyTrace]
  split
  · next heq => simp [hrecv] at heq
  · next y heq =>
    rw [hrecv] at heq
    cases heq
    rfl
  · next heq => simp [hrecv] at heq

theorem append_append (frames frames' : List Frame) (out : OutPipe) :
    (out.append frames).append frames' = out.append (frames ++ frames') := by
  simp only [OutPipe.append, List.append_assoc]

/-- The loop of `rep_t::xrecv`. The induction is on the envelope. -/
theorem copyTrace_envelope {x : Xrep} {p : InPipe} {env : Envelope} {rest : List Frame}
    (h : Reading x p (envelopeFrames env ++ rest)) (henv : [] ∉ env) (hmore : x.moreOut = true)
    (hx : x.Writable) : ∃ y, Rep.copyTrace x = some (true, y) ∧ Copied env rest p x y := by
  induction env generalizing x p with
  | nil =>
    obtain ⟨y, hsend, hwrote⟩ := xsend_more (x := x.readTo p rest) [] hmore hx
    refine ⟨y, ?_, ?_⟩
    · rw [copyTrace_more h.xrecv_more hsend, if_pos rfl]
    · exact {
        reading := (h.readTo rest).of_fields hwrote.inpipes hwrote.currentIn hwrote.prefetched
          hwrote.moreIn
        inpipes := hwrote.inpipes
        currentIn := hwrote.currentIn
        prefetched := hwrote.prefetched
        currentOut := hwrote.currentOut
        moreOut := hwrote.moreOut
        findOut := hwrote.findOut }
  | cons t env ih =>
    obtain ⟨hne, henv'⟩ : [] ≠ t ∧ [] ∉ env := by simpa using henv
    obtain ⟨x', hsend, hwrote⟩ :=
      xsend_more (x := x.readTo p (envelopeFrames env ++ rest)) t hmore hx
    have hreading := (h.readTo (envelopeFrames env ++ rest)).of_fields hwrote.inpipes
      hwrote.currentIn hwrote.prefetched hwrote.moreIn
    obtain ⟨y, hcopy, hcopied⟩ := ih hreading henv' hwrote.moreOut (hwrote.writable hx)
    refine ⟨y, ?_, ?_⟩
    · rw [copyTrace_more h.xrecv_more hsend, if_neg (Ne.symm hne), hcopy]
    · exact {
        reading := hcopied.reading
        inpipes := by
          rw [hcopied.inpipes, hwrote.inpipes, hwrote.currentIn]
          exact List.set_set ..
        currentIn := hcopied.currentIn.trans hwrote.currentIn
        prefetched := hcopied.prefetched
        currentOut := hcopied.currentOut.trans hwrote.currentOut
        moreOut := hcopied.moreOut
        findOut := by
          intro identity
          have hout : x'.currentOut = x.currentOut := hwrote.currentOut
          have hfind : x'.findOut identity = if x.currentOut = some identity then
            (x.findOut identity).map (·.append [⟨true, t⟩]) else x.findOut identity :=
            hwrote.findOut identity
          rw [hcopied.findOut, hout, hfind]
          split
          · rw [Option.map_map]
            congr 1
            funext out
            exact append_append [⟨true, t⟩] (envelopeFrames env) out
          · rfl }

/-! ### The relation -/

/-- The requests that wait are in the pipes; of the request that is being received the
    parts `ahead` are in the pipe of `source`. -/
structure InSide (source : Option Identity) (ahead : List Frame)
    (waiting : Identity → List PeerMessage) (x : Xrep) : Prop where
  ok : ∀ p ∈ x.inpipes, p.Ok
  identities : (x.inpipes.map InPipe.identity).Nodup
  nonempty : ∀ p ∈ x.inpipes, p.identity ≠ []
  currentIn : x.currentIn < x.inpipes.length ∨ x.inpipes = [] ∧ x.currentIn = 0
  frames : ∀ p ∈ x.inpipes, p.reader.frames =
    (if source = some p.identity then ahead else []) ++ (waiting p.identity).flatMap messageFrames
  requests : ∀ identity, ∀ m ∈ waiting identity, IsRequest m
  absent : ∀ identity, (∀ p ∈ x.inpipes, p.identity ≠ identity) →
    waiting identity = [] ∧ (if source = some identity then ahead else []) = []

namespace InSide

variable {source source' : Option Identity} {ahead ahead' : List Frame}
  {waiting : Identity → List PeerMessage} {x y : Xrep}

theorem of_fields (h : InSide source ahead waiting x) (hin : y.inpipes = x.inpipes)
    (hcurrent : y.currentIn = x.currentIn) : InSide source ahead waiting y where
  ok := hin ▸ h.ok
  identities := hin ▸ h.identities
  nonempty := hin ▸ h.nonempty
  currentIn := by
    rw [hin, hcurrent]
    exact h.currentIn
  frames := hin ▸ h.frames
  requests := h.requests
  absent := hin ▸ h.absent

theorem passed (h : InSide source ahead waiting x) (hy : Passed x y) :
    InSide source ahead waiting y where
  ok := hy.ok h.ok
  identities := hy.identities ▸ h.identities
  nonempty q hq := by
    obtain ⟨i, hi⟩ := List.getElem?_of_mem hq
    obtain ⟨p, hp, hidentity, -⟩ := hy.inpipes i q hi
    rw [hidentity]
    exact h.nonempty p (List.mem_of_getElem? hp)
  currentIn := by
    obtain hlt | ⟨hnil, hzero⟩ := h.currentIn
    · exact .inl (hy.currentIn hlt)
    · rw [hy.nil hnil]
      exact .inr ⟨hnil, hzero⟩
  frames q hq := by
    obtain ⟨i, hi⟩ := List.getElem?_of_mem hq
    obtain ⟨p, hp, hidentity, hframes⟩ := hy.inpipes i q hi
    rw [hframes, hidentity]
    exact h.frames p (List.mem_of_getElem? hp)
  requests := h.requests
  absent identity hno := by
    apply h.absent
    intro p hp heq
    have hmem : identity ∈ y.inpipes.map InPipe.identity := by
      rw [hy.identities]
      exact List.mem_map.mpr ⟨p, hp, heq⟩
    obtain ⟨q, hq, hidentity⟩ := List.mem_map.mp hmem
    exact hno q hq hidentity

/-- Two pipes of one identity are one. -/
theorem eq_of_identity (h : InSide source ahead waiting x) {i j : Nat} {p q : InPipe}
    (hp : x.inpipes[i]? = some p) (hq : x.inpipes[j]? = some q)
    (hidentity : p.identity = q.identity) : i = j := by
  obtain ⟨hi, -⟩ := List.getElem?_eq_some_iff.mp hp
  apply (List.getElem?_inj (by simpa using hi) h.identities).mp
  rw [List.getElem?_map, List.getElem?_map, hp, hq, Option.map_some, Option.map_some, hidentity]

/-- One pipe changes, and with it what waits in it. -/
theorem set (h : InSide source ahead waiting x) {i : Nat} {p q : InPipe}
    (hp : x.inpipes[i]? = some p) (hidentity : q.identity = p.identity) (hok : q.Ok)
    {queue : List PeerMessage} (hqueue : ∀ m ∈ queue, IsRequest m)
    (hframes : q.reader.frames =
      (if source' = some p.identity then ahead' else []) ++ queue.flatMap messageFrames)
    (hothers : ∀ identity, identity ≠ p.identity →
      (if source' = some identity then ahead' else []) =
        if source = some identity then ahead else [])
    (hin : y.inpipes = x.inpipes.set i q) (hcurrent : y.currentIn < y.inpipes.length) :
    InSide source' ahead' (Function.update waiting p.identity queue) y where
  ok r hr := by
    rw [hin] at hr
    obtain hr | rfl := List.mem_or_eq_of_mem_set hr
    · exact h.ok r hr
    · exact hok
  identities := by
    rw [hin, map_identity_set hp hidentity]
    exact h.identities
  nonempty r hr := by
    rw [hin] at hr
    obtain hr | rfl := List.mem_or_eq_of_mem_set hr
    · exact h.nonempty r hr
    · rw [hidentity]
      exact h.nonempty p (List.mem_of_getElem? hp)
  currentIn := .inl hcurrent
  frames r hr := by
    obtain ⟨j, hj⟩ := List.getElem?_of_mem hr
    rw [hin] at hj
    by_cases hij : i = j
    · subst hij
      obtain ⟨hlt, -⟩ := List.getElem?_eq_some_iff.mp hp
      rw [List.getElem?_set_self hlt] at hj
      cases hj
      rw [hidentity, Function.update_self]
      exact hframes
    · rw [List.getElem?_set_ne hij] at hj
      have hne : r.identity ≠ p.identity := fun heq => hij (h.eq_of_identity hp hj heq.symm)
      rw [Function.update_of_ne hne, hothers _ hne]
      exact h.frames r (List.mem_of_getElem? hj)
  requests identity m hm := by
    by_cases heq : identity = p.identity
    · rw [heq, Function.update_self] at hm
      exact hqueue m hm
    · rw [Function.update_of_ne heq] at hm
      exact h.requests identity m hm
  absent identity hno := by
    have hmem : identity ∉ x.inpipes.map InPipe.identity := by
      rw [← map_identity_set hp hidentity, ← hin]
      intro hmem
      obtain ⟨r, hr, heq⟩ := List.mem_map.mp hmem
      exact hno r hr heq
    have hne : identity ≠ p.identity := fun heq =>
      hmem (List.mem_map.mpr ⟨p, List.mem_of_getElem? hp, heq.symm⟩)
    rw [Function.update_of_ne hne, hothers identity hne]
    exact h.absent identity fun r hr heq => hmem (List.mem_map.mpr ⟨r, hr, heq⟩)

end InSide

/-- The parts of the reply that are in the pipe to the asker. -/
def begunFrames : Turn Identity Envelope (List Byte) → List Frame
  | .idle => []
  | .receiving _ env _ => envelopeFrames env
  | .answering _ env begun => envelopeFrames env ++ begun.map (⟨true, ·⟩)

theorem begunFrames_afterPart (asker : Option Identity) (env : Envelope)
    (rest : List (List Byte)) : begunFrames (.afterPart asker env rest) = envelopeFrames env := by
  cases rest with
  | nil => exact List.append_nil _
  | cons next rest => rfl

/-- Every connected peer has an outbound pipe, with the replies to it. -/
structure OutSide (turn : Turn Identity Envelope (List Byte)) (connected : Identity → Bool)
    (replies : Identity → List PeerMessage) (x : Xrep) : Prop where
  currentOut : x.currentOut = turn.asker
  asker : ∀ identity, turn.asker = some identity → connected identity = true
  findOut : ∀ identity, x.findOut identity = if connected identity = true then
      some { writer := {
        flushed := (replies identity).flatMap messageFrames
        begun := if turn.asker = some identity then begunFrames turn else [] } }
    else none

namespace OutSide

variable {turn : Turn Identity Envelope (List Byte)} {connected : Identity → Bool}
  {replies : Identity → List PeerMessage} {x y : Xrep}

theorem of_fields (h : OutSide turn connected replies x) (hout : y.outpipes = x.outpipes)
    (hcurrent : y.currentOut = x.currentOut) : OutSide turn connected replies y where
  currentOut := hcurrent.trans h.currentOut
  asker := h.asker
  findOut identity := by
    rw [Xrep.findOut, hout]
    exact h.findOut identity

theorem writable (h : OutSide turn connected replies x) : x.Writable := by
  intro identity hout
  have hconnected := h.asker identity (h.currentOut.symm.trans hout)
  exact ⟨_, (h.findOut identity).trans (if_pos hconnected), rfl⟩

theorem active (h : OutSide turn connected replies x) {identity : Identity} {out : OutPipe}
    (hfind : x.findOut identity = some out) : out.writer.active = true := by
  rw [h.findOut] at hfind
  split at hfind
  · cases hfind
    rfl
  · cases hfind

/-- The pipes of a new peer. -/
theorem attach (h : OutSide turn connected replies x) {identity : Identity}
    (hfind : x.findOut identity = none) (hout : y.outpipes = x.outpipes ++ [(identity, ({} : OutPipe))])
    (hcurrent : y.currentOut = x.currentOut) :
    OutSide turn (Function.update connected identity true) (Function.update replies identity [])
      y where
  currentOut := hcurrent.trans h.currentOut
  asker other hasker := by
    rw [Function.update_apply]
    split
    · rfl
    · exact h.asker other hasker
  findOut other := by
    rw [Xrep.findOut, hout, List.lookup_append]
    change (x.findOut other).or _ = _
    by_cases heq : other = identity
    · subst heq
      have hasker : turn.asker ≠ some other := by
        intro hasker
        rw [h.findOut, if_pos (h.asker other hasker)] at hfind
        cases hfind
      rw [hfind, Function.update_self, Function.update_self, if_neg hasker, if_pos rfl]
      simp
    · have hlookup : List.lookup other [(identity, ({} : OutPipe))] = none := by simp [heq]
      rw [hlookup, Option.or_none, Function.update_of_ne heq, Function.update_of_ne heq]
      exact h.findOut other

theorem lookup_filter (pipes : List (Identity × OutPipe)) (identity other : Identity) :
    (pipes.filter fun p => p.1 ≠ identity).lookup other =
      if other = identity then none else pipes.lookup other := by
  induction pipes with
  | nil => simp
  | cons p pipes ih =>
    obtain ⟨key, out⟩ := p
    by_cases hkey : key = identity
    · subst hkey
      rw [List.filter_cons_of_neg (by simp), ih, List.lookup_cons]
      by_cases hother : other = key
      · rw [if_pos hother, if_pos hother]
      · have hne : (other == key) = false := by simp [hother]
        rw [hne, if_neg hother]
    · rw [List.filter_cons_of_pos (by simpa using hkey), List.lookup_cons, List.lookup_cons, ih]
      by_cases hother : other = key
      · simp [hother, hkey]
      · have hne : (other == key) = false := by simp [hother]
        rw [hne]

/-- Another turn with the same asker and the same parts in the pipe. -/
theorem of_turn (h : OutSide turn connected replies x) {turn' : Turn Identity Envelope (List Byte)}
    (hasker : turn'.asker = turn.asker) (hbegun : begunFrames turn' = begunFrames turn) :
    OutSide turn' connected replies x where
  currentOut := h.currentOut.trans hasker.symm
  asker identity hidentity := h.asker identity (hasker.symm.trans hidentity)
  findOut identity := by
    rw [hasker, hbegun]
    exact h.findOut identity

theorem wrote (h : OutSide turn connected replies x) {frames : List Frame}
    (hwrote : Wrote frames x y) {turn' : Turn Identity Envelope (List Byte)}
    (hasker : turn'.asker = turn.asker) (hbegun : begunFrames turn' = begunFrames turn ++ frames) :
    OutSide turn' connected replies y where
  currentOut := by rw [hwrote.currentOut, h.currentOut, hasker]
  asker identity hidentity := h.asker identity (hasker.symm.trans hidentity)
  findOut identity := by
    rw [hwrote.findOut, h.currentOut, hasker, hbegun, h.findOut]
    split
    · cases connected identity <;> rfl
    · rfl

/-- The reply is complete. -/
theorem sent (h : OutSide turn connected replies x) {frames : List Frame}
    (hsent : Sent frames x y) {m : PeerMessage} (hm : messageFrames m = begunFrames turn ++ frames)
    {replies' : Identity → List PeerMessage}
    (hreplies : ∀ identity, replies' identity =
      if turn.asker = some identity then replies identity ++ [m] else replies identity) :
    OutSide .idle connected replies' y where
  currentOut := hsent.currentOut
  asker identity hidentity := by cases hidentity
  findOut identity := by
    have hidle : (if (.idle : Turn Identity Envelope (List Byte)).asker = some identity then
        begunFrames .idle else []) = [] := if_neg (by simp [Turn.asker])
    rw [hsent.findOut, h.currentOut, hreplies, h.findOut, hidle]
    by_cases hasker : turn.asker = some identity
    · simp only [hasker, if_true]
      rw [List.flatMap_append, List.flatMap_singleton, hm]
      cases connected identity with
      | false => rfl
      | true => simp [Writer.finish, Writer.flush]
    · simp only [hasker, if_false]

/-- A peer disconnects: the rest of a reply to it is dropped. -/
theorem detach (h : OutSide turn connected replies x) (identity : Identity)
    (hout : y.outpipes = x.outpipes.filter fun p => p.1 ≠ identity)
    (hcurrent : y.currentOut = if x.currentOut = some identity then none else x.currentOut) :
    OutSide (turn.drop identity) (Function.update connected identity false) replies y := by
  have hasker : (turn.drop identity).asker =
      if turn.asker = some identity then none else turn.asker := by cases turn <;> rfl
  have hbegun : begunFrames (turn.drop identity) = begunFrames turn := by cases turn <;> rfl
  exact {
    currentOut := by rw [hcurrent, h.currentOut, hasker]
    asker := by
      intro other hother
      rw [hasker] at hother
      split at hother
      · cases hother
      · next hne =>
        have hdiff : other ≠ identity := fun heq => hne (heq ▸ hother)
        rw [Function.update_of_ne hdiff]
        exact h.asker other hother
    findOut := by
      intro other
      rw [Xrep.findOut, hout, lookup_filter, hasker, hbegun]
      by_cases heq : other = identity
      · rw [if_pos heq, heq, Function.update_self, if_neg (by simp)]
      · have hiff : ((if turn.asker = some identity then none else turn.asker) = some other) ↔
            turn.asker = some other := by
          split
          · next hturn =>
            rw [hturn]
            simp [Ne.symm heq]
          · exact Iff.rfl
        rw [if_neg heq, Function.update_of_ne heq]
        simp only [hiff]
        exact h.findOut other }

end OutSide

/-- The flags of the socket, and the pipe that the request comes from. -/
inductive InTurn (waiting : Identity → List PeerMessage) (r : Rep) :
    Turn Identity Envelope (List Byte) → Prop where
  | idle (inSide : InSide none [] waiting r.xrep) (moreIn : r.xrep.moreIn = false)
      (moreOut : r.xrep.moreOut = false) (sendingReply : r.sendingReply = false)
      (requestBegins : r.requestBegins = true) : InTurn waiting r .idle
  | receiving {asker : Option Identity} {env : Envelope} {rest : List (List Byte)} {p : InPipe}
      (pipe : r.xrep.inpipes[r.xrep.currentIn]? = some p) (active : p.active = true)
      (inSide : InSide (some p.identity) (partFrames rest) waiting r.xrep) (parts : rest ≠ [])
      (moreIn : r.xrep.moreIn = true) (moreOut : r.xrep.moreOut = true)
      (sendingReply : r.sendingReply = false) (requestBegins : r.requestBegins = false) :
      InTurn waiting r (.receiving asker env rest)
  | answering {asker : Option Identity} {env : Envelope} {begun : List (List Byte)}
      (inSide : InSide none [] waiting r.xrep) (moreIn : r.xrep.moreIn = false)
      (moreOut : r.xrep.moreOut = true) (sendingReply : r.sendingReply = true)
      (requestBegins : r.requestBegins = true) : InTurn waiting r (.answering asker env begun)

/-- What a socket and a server of `RequestReply` have to do with each other. -/
structure Serves (r : Rep) (a : Server Identity Envelope (List Byte)) : Prop where
  inTurn : InTurn a.waiting r a.turn
  outSide : OutSide a.turn a.connected a.replies r.xrep
  prefetched : r.xrep.prefetched = none

/-! ### Events of the pipes -/

namespace InTurn

variable {waiting waiting' : Identity → List PeerMessage} {r : Rep}
  {turn : Turn Identity Envelope (List Byte)}

/-- The inbound pipes change, but not the one that a request is read from. -/
theorem pipes (h : InTurn waiting r turn) {x : Xrep}
    (hin : ∀ source ahead, InSide source ahead waiting r.xrep → InSide source ahead waiting' x)
    (hcurrent : ∀ p, r.xrep.inpipes[r.xrep.currentIn]? = some p → p.active = true →
      p.reader.frames ≠ [] →
      ∃ q, x.inpipes[x.currentIn]? = some q ∧ q.active = true ∧ q.identity = p.identity)
    (hmoreIn : x.moreIn = r.xrep.moreIn) (hmoreOut : x.moreOut = r.xrep.moreOut) :
    InTurn waiting' { r with xrep := x } turn := by
  cases h with
  | idle inSide moreIn moreOut sendingReply requestBegins =>
    exact .idle (hin _ _ inSide) (hmoreIn.trans moreIn) (hmoreOut.trans moreOut) sendingReply
      requestBegins
  | @receiving asker env rest p pipe active inSide parts moreIn moreOut sendingReply
      requestBegins =>
    have hframes : p.reader.frames ≠ [] := by
      rw [inSide.frames p (List.mem_of_getElem? pipe), if_pos rfl]
      obtain ⟨part, rest', rfl⟩ := List.exists_cons_of_ne_nil parts
      simp [partFrames_cons]
    obtain ⟨q, hq, hactive, hidentity⟩ := hcurrent p pipe active hframes
    exact .receiving hq hactive (hidentity ▸ hin _ _ inSide) parts (hmoreIn.trans moreIn)
      (hmoreOut.trans moreOut) sendingReply requestBegins
  | answering inSide moreIn moreOut sendingReply requestBegins =>
    exact .answering (hin _ _ inSide) (hmoreIn.trans moreIn) (hmoreOut.trans moreOut) sendingReply
      requestBegins

theorem inSide (h : InTurn waiting r turn) :
    ∃ source ahead, InSide source ahead waiting r.xrep := by
  cases h with
  | idle inSide => exact ⟨_, _, inSide⟩
  | receiving _ _ inSide => exact ⟨_, _, inSide⟩
  | answering inSide => exact ⟨_, _, inSide⟩

/-- One pipe changes its marks, and requests may come in. -/
theorem set (h : InTurn waiting r turn) {i : Nat} {p q : InPipe}
    (hp : r.xrep.inpipes[i]? = some p) (hidentity : q.identity = p.identity) (hok : q.Ok)
    (hactive : p.active = true → q.active = true) {requests : List PeerMessage}
    (hrequests : ∀ m ∈ requests, IsRequest m)
    (hframes : q.reader.frames = p.reader.frames ++ requests.flatMap messageFrames) :
    InTurn (Function.update waiting p.identity (waiting p.identity ++ requests)) (r.setIn i q)
      turn := by
  obtain ⟨hlt, -⟩ := List.getElem?_eq_some_iff.mp hp
  apply h.pipes
  · intro source ahead hin
    apply hin.set hp hidentity hok
    · intro m hm
      obtain hm | hm := List.mem_append.mp hm
      · exact hin.requests _ m hm
      · exact hrequests m hm
    · rw [hframes, hin.frames p (List.mem_of_getElem? hp), List.append_assoc, List.flatMap_append]
    · intro other _
      rfl
    · rfl
    · show r.xrep.currentIn < (r.xrep.inpipes.set i q).length
      rw [List.length_set]
      obtain hcurrent | ⟨-, hzero⟩ := hin.currentIn
      · exact hcurrent
      · omega
  · intro p' hp' hactive' _
    show ∃ q', (r.xrep.inpipes.set i q)[r.xrep.currentIn]? = some q' ∧ _
    by_cases hi : i = r.xrep.currentIn
    · rw [← hi, hp] at hp'
      cases hp'
      rw [← hi]
      exact ⟨q, List.getElem?_set_self hlt, hactive hactive', hidentity⟩
    · rw [List.getElem?_set_ne hi]
      exact ⟨p', hp', hactive', rfl⟩
  · rfl
  · rfl

/-- A pipe of a new peer. -/
theorem attach (h : InTurn waiting r turn) {identity : Identity} (hne : identity ≠ [])
    (hfresh : ∀ p ∈ r.xrep.inpipes, p.identity ≠ identity) {x : Xrep}
    (hin : x.inpipes = r.xrep.inpipes ++ [{ identity := identity }])
    (hcurrent : x.currentIn = r.xrep.currentIn) (hmoreIn : x.moreIn = r.xrep.moreIn)
    (hmoreOut : x.moreOut = r.xrep.moreOut) : InTurn waiting { r with xrep := x } turn := by
  refine h.pipes ?_ ?_ hmoreIn hmoreOut
  · intro source ahead hside
    exact {
      ok := by
        intro p hp
        rw [hin, List.mem_append, List.mem_singleton] at hp
        obtain hp | rfl := hp
        · exact hside.ok p hp
        · exact ⟨rfl, fun hterm => by cases hterm⟩
      identities := by
        rw [hin, List.map_append, List.nodup_append]
        refine ⟨hside.identities, by simp, ?_⟩
        intro other hother own hown heq
        obtain ⟨p, hp, rfl⟩ := List.mem_map.mp hother
        exact hfresh p hp (heq.trans (List.mem_singleton.mp hown))
      nonempty := by
        intro p hp
        rw [hin, List.mem_append, List.mem_singleton] at hp
        obtain hp | rfl := hp
        · exact hside.nonempty p hp
        · exact hne
      currentIn := by
        rw [hin, hcurrent, List.length_append]
        obtain hlt | ⟨hnil, hzero⟩ := hside.currentIn
        · exact .inl (Nat.lt_add_right _ hlt)
        · exact .inl (by simp [hzero])
      frames := by
        intro p hp
        rw [hin, List.mem_append, List.mem_singleton] at hp
        obtain hp | rfl := hp
        · exact hside.frames p hp
        · obtain ⟨hwaiting, hahead⟩ := hside.absent identity hfresh
          show [] = (if source = some identity then ahead else []) ++ _
          rw [hahead, hwaiting]
          rfl
      requests := hside.requests
      absent := by
        intro other hno
        apply hside.absent
        intro p hp
        exact hno p (hin ▸ List.mem_append_left _ hp) }
  · intro p hp hactive _
    refine ⟨p, ?_, hactive, rfl⟩
    rw [hin, hcurrent, List.getElem?_append_left (List.getElem?_eq_some_iff.mp hp).1]
    exact hp

/-- The terminated pipe was read to its end. -/
theorem terminated (h : InTurn waiting r turn) {i : Nat} {p : InPipe}
    (hp : r.xrep.inpipes[i]? = some p) (hterm : p.reader.terminating = true) {x : Xrep}
    (hin : x.inpipes = r.xrep.inpipes.eraseIdx i) {current : Nat}
    (hmoved : current = if i < r.xrep.currentIn then r.xrep.currentIn - 1 else r.xrep.currentIn)
    (hcurrent : x.currentIn = if x.inpipes.length ≤ current then 0 else current)
    (hmoreIn : x.moreIn = r.xrep.moreIn) (hmoreOut : x.moreOut = r.xrep.moreOut) :
    InTurn waiting { r with xrep := x } turn := by
  obtain ⟨hlt, -⟩ := List.getElem?_eq_some_iff.mp hp
  have hlength : x.inpipes.length = r.xrep.inpipes.length - 1 := by
    rw [hin, List.length_eraseIdx_of_lt hlt]
  have hmem : ∀ q ∈ x.inpipes, q ∈ r.xrep.inpipes := by
    intro q hq
    exact List.mem_of_mem_eraseIdx (hin ▸ hq)
  refine h.pipes ?_ ?_ hmoreIn hmoreOut
  · intro source ahead hside
    obtain ⟨-, hframes⟩ := (hside.ok p (List.mem_of_getElem? hp)).terminating hterm
    exact {
      ok := fun q hq => hside.ok q (hmem q hq)
      identities := by
        rw [hin]
        exact List.Pairwise.sublist ((List.eraseIdx_sublist _ _).map _) hside.identities
      nonempty := fun q hq => hside.nonempty q (hmem q hq)
      currentIn := by
        have hbound : r.xrep.currentIn < r.xrep.inpipes.length := by
          obtain hbound | ⟨-, hzero⟩ := hside.currentIn <;> omega
        by_cases hnil : x.inpipes.length = 0
        · refine .inr ⟨List.length_eq_zero_iff.mp hnil, ?_⟩
          rw [hcurrent, if_pos (by omega)]
        · left
          rw [hcurrent]
          split
          · omega
          · omega
      frames := fun q hq => hside.frames q (hmem q hq)
      requests := hside.requests
      absent := by
        intro identity hno
        by_cases hidentity : p.identity = identity
        · subst hidentity
          rw [hside.frames p (List.mem_of_getElem? hp), List.append_eq_nil_iff] at hframes
          refine ⟨?_, hframes.1⟩
          cases hwaiting : waiting p.identity with
          | nil => rfl
          | cons m queue =>
            rw [hwaiting] at hframes
            simp [messageFrames, envelopeFrames] at hframes
        · apply hside.absent
          intro q hq heq
          obtain ⟨j, hj⟩ := List.getElem?_of_mem hq
          have hne : j ≠ i := by
            intro hji
            rw [hji, hp] at hj
            cases hj
            exact hidentity heq
          apply hno q _ heq
          rw [hin]
          exact List.mem_eraseIdx_iff_getElem?.mpr ⟨j, hne, hj⟩ }
  · intro q hq hactive hframes
    obtain ⟨source, ahead, hside⟩ := h.inSide
    obtain ⟨hinactive, hnil⟩ := (hside.ok p (List.mem_of_getElem? hp)).terminating hterm
    have hne : r.xrep.currentIn ≠ i := by
      intro heq
      rw [heq, hp] at hq
      cases hq
      exact hframes hnil
    obtain ⟨hbound, -⟩ := List.getElem?_eq_some_iff.mp hq
    refine ⟨q, ?_, hactive, rfl⟩
    have hq' : (r.xrep.inpipes.eraseIdx i)[current]? = some q := by
      rw [List.getElem?_eraseIdx]
      split at hmoved
      · rw [if_neg (by omega), hmoved, Nat.sub_add_cancel (by omega)]
        exact hq
      · rw [if_pos (by omega), hmoved]
        exact hq
    rw [hcurrent, if_neg, hin]
    · exact hq'
    · rw [hin]
      exact Nat.not_le_of_lt (List.getElem?_eq_some_iff.mp hq').1

end InTurn

/-! ### Receiving -/

/-- A part is handed out, with `rest` and then `behind` still in the pipe. -/
structure Handed (p : InPipe) (rest : List (List Byte)) (behind : List Frame) (x y : Xrep) :
    Prop where
  inpipes : y.inpipes = x.inpipes.set x.currentIn (p.withFrames (partFrames rest ++ behind))
  currentIn : y.currentIn < y.inpipes.length
  same : rest ≠ [] → y.currentIn = x.currentIn
  prefetched : y.prefetched = none
  moreIn : y.moreIn = !rest.isEmpty
  outpipes : y.outpipes = x.outpipes
  currentOut : y.currentOut = x.currentOut
  moreOut : y.moreOut = x.moreOut

theorem Reading.xrecv_part {x : Xrep} {p : InPipe} {part : List Byte} {rest : List (List Byte)}
    {behind : List Frame} (h : Reading x p (partFrames (part :: rest) ++ behind))
    (hpre : x.prefetched = none) :
    ∃ y, x.xrecv = some (some ⟨!rest.isEmpty, part⟩, y) ∧ Handed p rest behind x y := by
  obtain ⟨hlt, -⟩ := List.getElem?_eq_some_iff.mp h.pipe
  cases rest with
  | nil =>
    refine ⟨_, h.xrecv_last hpre, ?_⟩
    exact {
      inpipes := rfl
      currentIn := by
        show (if (x.inpipes.set _ _).length ≤ x.currentIn + 1 then 0 else x.currentIn + 1) <
          (x.inpipes.set _ _).length
        rw [List.length_set]
        split <;> omega
      same := fun hne => absurd rfl hne
      prefetched := hpre
      moreIn := rfl
      outpipes := rfl
      currentOut := rfl
      moreOut := rfl }
  | cons next rest =>
    refine ⟨_, Reading.xrecv_more h, ?_⟩
    exact {
      inpipes := rfl
      currentIn := by
        show x.currentIn < (x.inpipes.set _ _).length
        rw [List.length_set]
        exact hlt
      same := fun _ => rfl
      prefetched := rfl
      moreIn := rfl
      outpipes := rfl
      currentOut := rfl
      moreOut := rfl }

/-- The flags behind a part of a request. -/
def Rep.behind (x : Xrep) (rest : List (List Byte)) : Rep :=
  { xrep := x, sendingReply := rest.isEmpty, requestBegins := rest.isEmpty }

/-- The payload, once the envelope is copied. -/
theorem Rep.xrecv_part {r : Rep} {x y : Xrep} {part : List Byte} {rest : List (List Byte)}
    (hsending : r.sendingReply = false)
    (htrace : (if r.requestBegins = true then copyTrace r.xrep else some (true, r.xrep)) =
      some (true, x))
    (hrecv : x.xrecv = some (some ⟨!rest.isEmpty, part⟩, y)) :
    r.xrecv = some (.part ⟨!rest.isEmpty, part⟩, .behind y rest) := by
  unfold Rep.xrecv
  rw [if_neg (by simp [hsending]), htrace]
  simp only [hrecv]
  cases rest with
  | nil => rfl
  | cons next rest => simp [Rep.behind, hsending]

/-- A part of the request in the current pipe is handed out. -/
theorem InSide.afterPart {source : Option Identity} {ahead : List Frame}
    {waiting : Identity → List PeerMessage} {x y : Xrep} {p : InPipe}
    {rest : List (List Byte)} {queue : List PeerMessage} (h : InSide source ahead waiting x)
    (hp : x.inpipes[x.currentIn]? = some p) (hactive : p.active = true)
    (hsource : ∀ identity, identity ≠ p.identity →
      (if source = some identity then ahead else []) = [])
    (hqueue : ∀ m ∈ queue, IsRequest m)
    (hin : y.inpipes =
      x.inpipes.set x.currentIn (p.withFrames (partFrames rest ++ queue.flatMap messageFrames)))
    (hlt : y.currentIn < y.inpipes.length) (hsame : rest ≠ [] → y.currentIn = x.currentIn)
    (hmoreIn : y.moreIn = !rest.isEmpty) (hmoreOut : y.moreOut = true)
    (asker : Option Identity) (env : Envelope) :
    InTurn (Function.update waiting p.identity queue) (.behind y rest)
      (.afterPart asker env rest) := by
  have hok : (p.withFrames (partFrames rest ++ queue.flatMap messageFrames)).Ok :=
    (h.ok p (List.mem_of_getElem? hp)).withFrames hactive _
  have hidentity : (p.withFrames (partFrames rest ++ queue.flatMap messageFrames)).identity =
      p.identity := rfl
  have hlt' : x.currentIn < x.inpipes.length := (List.getElem?_eq_some_iff.mp hp).1
  cases rest with
  | nil =>
    refine .answering ?_ hmoreIn hmoreOut rfl rfl
    apply h.set hp hidentity hok hqueue _ _ hin hlt
    · rw [if_neg (by simp)]
      rfl
    · intro other hother
      rw [if_neg (by simp), hsource other hother]
  | cons next rest =>
    have hpipe : y.inpipes[y.currentIn]? =
        some (p.withFrames (partFrames (next :: rest) ++ queue.flatMap messageFrames)) := by
      rw [hin, hsame (by simp)]
      exact List.getElem?_set_self hlt'
    refine .receiving hpipe hactive ?_ (by simp) hmoreIn hmoreOut rfl rfl
    apply h.set hp hidentity hok hqueue _ _ hin hlt
    · rw [if_pos (congrArg some hidentity)]
      rfl
    · intro other hother
      have hne : some p.identity ≠ some other := fun heq => hother (Option.some.inj heq).symm
      rw [hidentity, if_neg hne, hsource other hother]

/-- The envelope goes to the asker, if it is still connected. -/
theorem OutSide.take {connected : Identity → Bool} {replies : Identity → List PeerMessage}
    {x y : Xrep} (h : OutSide .idle connected replies x) {identity : Identity}
    {env : Envelope} (rest : List (List Byte))
    (hcurrent : y.currentOut = if (x.findOut identity).isSome then some identity else none)
    (hfind : ∀ other, y.findOut other = if y.currentOut = some other then
      (x.findOut other).map (·.append (envelopeFrames env)) else x.findOut other) :
    OutSide (.afterPart (if connected identity then some identity else none) env rest) connected
      replies y := by
  have hconnected : (x.findOut identity).isSome = connected identity := by
    rw [h.findOut]
    cases connected identity <;> rfl
  rw [hconnected] at hcurrent
  exact {
    currentOut := by rw [hcurrent, Turn.afterPart_asker]
    asker := by
      intro other hother
      rw [Turn.afterPart_asker] at hother
      split at hother
      · next hc =>
        cases hother
        exact hc
      · cases hother
    findOut := by
      intro other
      rw [hfind, hcurrent, Turn.afterPart_asker, begunFrames_afterPart, h.findOut]
      by_cases hasker : (if connected identity = true then some identity else none) = some other
      · rw [if_pos hasker, if_pos hasker]
        cases connected other <;> rfl
      · rw [if_neg hasker, if_neg hasker]
        rfl }

theorem messageFrames_eq {m : PeerMessage} {part : List Byte} {rest : List (List Byte)}
    (hparts : m.parts = part :: rest) :
    messageFrames m = envelopeFrames m.env ++ partFrames (part :: rest) := by
  rw [messageFrames, hparts]

/-- The waiting requests begin where the next message begins. -/
theorem InSide.next {waiting : Identity → List PeerMessage} {x : Xrep} {p : InPipe} {f : Frame}
    {frames : List Frame} (h : InSide none [] waiting x) (hp : p ∈ x.inpipes)
    (hframes : p.reader.frames = f :: frames) :
    ∃ m queue part rest, waiting p.identity = m :: queue ∧ IsRequest m ∧ m.parts = part :: rest ∧
      f :: frames = envelopeFrames m.env ++
        (partFrames (part :: rest) ++ queue.flatMap messageFrames) := by
  have hqueue : f :: frames = (waiting p.identity).flatMap messageFrames := by
    rw [← hframes, h.frames p hp]
    rfl
  cases hwaiting : waiting p.identity with
  | nil =>
    rw [hwaiting] at hqueue
    cases hqueue
  | cons m queue =>
    have hm := h.requests p.identity m (by simp [hwaiting])
    obtain ⟨part, rest, hparts⟩ := List.exists_cons_of_ne_nil hm.parts
    refine ⟨m, queue, part, rest, rfl, hm, hparts, ?_⟩
    rw [hqueue, hwaiting, List.flatMap_cons, messageFrames_eq hparts, List.append_assoc]

/-- The state behind the identity, with the first part prefetched. -/
def Xrep.fetched (x : Xrep) (p : InPipe) (f : Frame) (frames : List Frame) : Xrep :=
  { x.setIn x.currentIn (p.withFrames frames) with prefetched := some f }

/-- A request is taken: the envelope is copied, and the first part is handed out. -/
theorem takes {connected : Identity → Bool} {replies waiting : Identity → List PeerMessage}
    {x : Xrep} {p : InPipe} {f : Frame} {frames : List Frame} (hside : InSide none [] waiting x)
    (hout : OutSide .idle connected replies x) (hmoreOut : x.moreOut = false)
    (hp : x.inpipes[x.currentIn]? = some p) (hactive : p.active = true)
    (hframes : p.reader.frames = f :: frames) :
    ∃ m queue part rest x' y z, waiting p.identity = m :: queue ∧ m.parts = part :: rest ∧
      (x.fetched p f frames).xsend ⟨true, p.identity⟩ = some x' ∧
      Rep.copyTrace x' = some (true, y) ∧
      y.xrecv = some (some ⟨!rest.isEmpty, part⟩, z) ∧ z.prefetched = none ∧
      InTurn (Function.update waiting p.identity queue) (.behind z rest)
        (.afterPart (if connected p.identity then some p.identity else none) m.env rest) ∧
      OutSide (.afterPart (if connected p.identity then some p.identity else none) m.env rest)
        connected replies z := by
  have hmem := List.mem_of_getElem? hp
  obtain ⟨m, queue, part, rest, hwaiting, hm, hparts, hnext⟩ := hside.next hmem hframes
  have hsend := xsend_identity (x := x.fetched p f frames) p.identity hmoreOut
    hout.currentOut fun out => hout.active
  generalize hx' : ({ x.fetched p f frames with
    moreOut := true
    currentOut := if ((x.fetched p f frames).findOut p.identity).isSome then some p.identity
      else none } : Xrep) = x' at hsend
  have hreading : Reading x' (p.withFrames frames) (f :: frames) := by
    subst hx'
    exact {
      pipe := List.getElem?_set_self (List.getElem?_eq_some_iff.mp hp).1
      ok := (hside.ok p hmem).withFrames hactive frames
      active := hactive
      frames := rfl
      moreIn := fun hnone => by cases hnone }
  have hwritable : x'.Writable := by
    subst hx'
    intro identity hidentity
    change (if (x.findOut p.identity).isSome then some p.identity else none) = some identity
      at hidentity
    split at hidentity
    · next hsome =>
      obtain rfl := Option.some.inj hidentity
      obtain ⟨out, hfind⟩ := Option.isSome_iff_exists.mp hsome
      exact ⟨out, hfind, hout.active hfind⟩
    · cases hidentity
  rw [hnext] at hreading
  obtain ⟨y, hcopy, hcopied⟩ :=
    copyTrace_envelope hreading hm.env (by rw [← hx']) hwritable
  obtain ⟨z, hrecv, hhanded⟩ := hcopied.reading.xrecv_part hcopied.prefetched
  have hcurrentIn : y.currentIn = x.currentIn := by
    rw [hcopied.currentIn, ← hx']
    rfl
  have hcurrentOut : z.currentOut = if (x.findOut p.identity).isSome then some p.identity
      else none := by
    rw [hhanded.currentOut, hcopied.currentOut, ← hx']
    rfl
  refine ⟨m, queue, part, rest, x', y, z, hwaiting, hparts, hsend, hcopy, hrecv,
    hhanded.prefetched, ?_, ?_⟩
  · apply hside.afterPart hp hactive
    · intro identity _
      exact if_neg (by simp)
    · intro m' hm'
      exact hside.requests p.identity m' (by simp [hwaiting, hm'])
    · have hin : x'.inpipes = x.inpipes.set x.currentIn (p.withFrames frames) := by
        rw [← hx']
        rfl
      have hat : x'.currentIn = x.currentIn := by
        rw [← hx']
        rfl
      rw [hhanded.inpipes, hcopied.inpipes, hcurrentIn, hin, hat, List.set_set]
      exact List.set_set ..
    · exact hhanded.currentIn
    · intro hne
      exact (hhanded.same hne).trans hcurrentIn
    · exact hhanded.moreIn
    · exact hhanded.moreOut.trans hcopied.moreOut
  · apply hout.take rest hcurrentOut
    intro other
    rw [Xrep.findOut, hhanded.outpipes]
    refine (hcopied.findOut other).trans ?_
    rw [hhanded.currentOut, hcopied.currentOut, ← hx']
    rfl

/-- The flags stay as they are when the asker disconnects. -/
theorem InTurn.disconnect {waiting : Identity → List PeerMessage} {r : Rep}
    {turn : Turn Identity Envelope (List Byte)} (h : InTurn waiting r turn) (identity : Identity)
    {x : Xrep} (hin : x.inpipes = r.xrep.inpipes) (hcurrent : x.currentIn = r.xrep.currentIn)
    (hmoreIn : x.moreIn = r.xrep.moreIn) (hmoreOut : x.moreOut = r.xrep.moreOut) :
    InTurn waiting { r with xrep := x } (turn.drop identity) := by
  have hx : InTurn waiting { r with xrep := x } turn := by
    refine h.pipes (fun _ _ hside => hside.of_fields hin hcurrent) ?_ hmoreIn hmoreOut
    intro p hp hactive _
    exact ⟨p, by rw [hin, hcurrent, hp], hactive, rfl⟩
  cases hx with
  | idle inSide moreIn moreOut sendingReply requestBegins =>
    exact .idle inSide moreIn moreOut sendingReply requestBegins
  | receiving pipe active inSide parts moreIn moreOut sendingReply requestBegins =>
    exact .receiving pipe active inSide parts moreIn moreOut sendingReply requestBegins
  | answering inSide moreIn moreOut sendingReply requestBegins =>
    exact .answering inSide moreIn moreOut sendingReply requestBegins

namespace Serves

variable {r : Rep} {a : Server Identity Envelope (List Byte)}

/-- The marks of one pipe change. -/
theorem marked (h : Serves r a) {i : Nat} {p q : InPipe} (hp : r.xrep.inpipes[i]? = some p)
    (hidentity : q.identity = p.identity) (hok : q.Ok)
    (hactive : p.active = true → q.active = true) (hframes : q.reader.frames = p.reader.frames) :
    Serves (r.setIn i q) a where
  inTurn := by
    have hnone : ∀ m ∈ ([] : List PeerMessage), IsRequest m := by simp
    have hturn := h.inTurn.set hp hidentity hok hactive hnone (by rw [hframes]; simp)
    rw [List.append_nil, Function.update_eq_self] at hturn
    exact hturn
  outSide := h.outSide.of_fields rfl rfl
  prefetched := h.prefetched

/-- The first part of a request, or none if no marked pipe has one. -/
theorem recv_idle (h : Serves r a) (hturn : a.turn = .idle) :
    (∃ r', r.xrecv = some (.again, r') ∧ Serves r' a) ∨
    ∃ identity m queue part rest r', a.waiting identity = m :: queue ∧ m.parts = part :: rest ∧
      r.xrecv = some (.part ⟨!rest.isEmpty, part⟩, r') ∧
      Serves r' (a.take identity m queue rest) := by
  obtain ⟨inTurn, outSide, prefetched⟩ := h
  rw [hturn] at inTurn outSide
  cases inTurn with
  | idle inSide moreIn moreOut sendingReply requestBegins =>
    have hindex : r.xrep.currentIn < r.xrep.inpipes.length ∨
        r.xrep.inpipes = [] ∧ r.xrep.inpipes.length = 0 := by
      obtain hlt | ⟨hnil, -⟩ := inSide.currentIn
      · exact .inl hlt
      · exact .inr ⟨hnil, by rw [hnil]; rfl⟩
    have hfetch : r.xrep.xrecv = r.xrep.fetch r.xrep.inpipes.length := by
      unfold Xrep.xrecv
      simp only [prefetched, moreIn, Bool.false_eq_true, if_false]
    obtain ⟨y, hpass, hnone⟩ | ⟨y, p, f, frames, hpass, hp, hactive, hframes, hsome⟩ :=
      fetch_cases inSide.ok hindex
    · left
      refine ⟨{ r with xrep := y }, ?_, ?_⟩
      · unfold Rep.xrecv
        rw [if_neg (by simp [sendingReply]), if_pos requestBegins,
          copyTrace_again (hfetch.trans hnone)]
      · refine ⟨?_, ?_, hpass.prefetched.trans prefetched⟩
        · rw [hturn]
          exact .idle (inSide.passed hpass) (hpass.moreIn.trans moreIn)
            (hpass.moreOut.trans moreOut) sendingReply requestBegins
        · rw [hturn]
          exact outSide.of_fields hpass.outpipes hpass.currentOut
    · right
      have hside := inSide.passed hpass
      have hout := outSide.of_fields hpass.outpipes hpass.currentOut
      obtain ⟨m, queue, part, rest, x', y', z, hwaiting, hparts, hsend, hcopy, hrecv, hpre, hin',
        hout'⟩ := takes hside hout (hpass.moreOut.trans moreOut) hp hactive hframes
      have hne : p.identity ≠ [] := hside.nonempty p (List.mem_of_getElem? hp)
      have htrace : Rep.copyTrace r.xrep = some (true, y') := by
        rw [copyTrace_more (hfetch.trans hsome) hsend, if_neg hne, hcopy]
      refine ⟨p.identity, m, queue, part, rest, .behind z rest, hwaiting, hparts, ?_, ?_⟩
      · apply Rep.xrecv_part sendingReply _ hrecv
        rw [if_pos requestBegins, htrace]
      · exact ⟨hin', hout', hpre⟩

/-- The next part of the request. -/
theorem recv_receiving (h : Serves r a) {asker : Option Identity} {env : Envelope}
    {rest : List (List Byte)} (hturn : a.turn = .receiving asker env rest) :
    ∃ part rest' r', rest = part :: rest' ∧
      r.xrecv = some (.part ⟨!rest'.isEmpty, part⟩, r') ∧
      Serves r' { a with turn := .afterPart asker env rest' } := by
  obtain ⟨inTurn, outSide, prefetched⟩ := h
  rw [hturn] at inTurn outSide
  cases inTurn with
  | @receiving _ _ _ p pipe active inSide parts moreIn moreOut sendingReply requestBegins =>
    obtain ⟨part, rest', rfl⟩ := List.exists_cons_of_ne_nil parts
    have hmem := List.mem_of_getElem? pipe
    have hreading : Reading r.xrep p (partFrames (part :: rest') ++
        (a.waiting p.identity).flatMap messageFrames) := by
      exact {
        pipe := pipe
        ok := inSide.ok p hmem
        active := active
        frames := by
          rw [prefetched, inSide.frames p hmem, if_pos rfl]
          rfl
        moreIn := fun _ => moreIn }
    obtain ⟨y, hrecv, hhanded⟩ := hreading.xrecv_part prefetched
    refine ⟨part, rest', .behind y rest', rfl, ?_, ?_⟩
    · apply Rep.xrecv_part sendingReply _ hrecv
      rw [if_neg (by simp [requestBegins])]
    · refine ⟨?_, ?_, hhanded.prefetched⟩
      · have hsource : ∀ identity, identity ≠ p.identity →
            (if some p.identity = some identity then partFrames (part :: rest') else []) = [] := by
          intro identity hidentity
          exact if_neg fun heq => hidentity (Option.some.inj heq).symm
        have hturn' := inSide.afterPart pipe active hsource (inSide.requests p.identity)
          hhanded.inpipes hhanded.currentIn hhanded.same hhanded.moreIn
          (hhanded.moreOut.trans moreOut) asker env
        rw [Function.update_eq_self] at hturn'
        exact hturn'
      · have hout := outSide.of_fields hhanded.outpipes hhanded.currentOut
        exact hout.of_turn (Turn.afterPart_asker ..) (begunFrames_afterPart ..)

/-- A part of the reply. -/
theorem send_answering (h : Serves r a) {asker : Option Identity} {env : Envelope}
    {begun : List (List Byte)} (hturn : a.turn = .answering asker env begun) (f : Frame) :
    ∃ r', r.xsend f = some (true, r') ∧ Serves r' (if f.more then
      { a with turn := .answering asker env (begun ++ [f.data]) }
      else a.reply asker ⟨env, begun ++ [f.data]⟩) := by
  obtain ⟨inTurn, outSide, prefetched⟩ := h
  rw [hturn] at inTurn outSide
  obtain ⟨more, part⟩ := f
  cases inTurn with
  | answering inSide moreIn moreOut sendingReply requestBegins =>
    have hsend : ∀ (b : Bool) {y : Xrep}, r.xrep.xsend ⟨b, part⟩ = some y →
        r.xsend ⟨b, part⟩ = some (true, { r with xrep := y, sendingReply := b }) := by
      intro b y hy
      unfold Rep.xsend
      rw [if_neg (by simp [sendingReply]), hy]
    cases more with
    | true =>
      obtain ⟨y, hy, hwrote⟩ := xsend_more part moreOut outSide.writable
      refine ⟨_, hsend true hy, ?_⟩
      exact {
        inTurn := .answering (inSide.of_fields hwrote.inpipes hwrote.currentIn)
          (hwrote.moreIn.trans moreIn) hwrote.moreOut rfl requestBegins
        outSide := outSide.wrote hwrote rfl (by simp [begunFrames])
        prefetched := hwrote.prefetched.trans prefetched }
    | false =>
      obtain ⟨y, hy, hsent⟩ := xsend_last part moreOut outSide.writable
      refine ⟨_, hsend false hy, ?_⟩
      have hm : messageFrames ⟨env, begun ++ [part]⟩ =
          begunFrames (.answering asker env begun) ++ [⟨false, part⟩] := by
        rw [messageFrames, partFrames_concat, ← List.append_assoc]
        rfl
      have hin : InTurn a.waiting { r with xrep := y, sendingReply := false } .idle :=
        .idle (inSide.of_fields hsent.inpipes hsent.currentIn) (hsent.moreIn.trans moreIn)
          hsent.moreOut rfl requestBegins
      cases asker with
      | none =>
        exact {
          inTurn := hin
          outSide := outSide.sent hsent hm fun identity => (if_neg (by simp [Turn.asker])).symm
          prefetched := hsent.prefetched.trans prefetched }
      | some p =>
        exact {
          inTurn := hin
          outSide := by
            apply outSide.sent hsent hm
            intro identity
            show Function.update a.replies p _ identity = if some p = some identity then _ else _
            by_cases heq : identity = p
            · rw [heq, Function.update_self, if_pos rfl]
            · rw [Function.update_of_ne heq, if_neg fun hp => heq (Option.some.inj hp).symm]
          prefetched := hsent.prefetched.trans prefetched }

theorem recv_answering (h : Serves r a) {asker : Option Identity} {env : Envelope}
    {begun : List (List Byte)} (hturn : a.turn = .answering asker env begun) :
    r.xrecv = some (.fsm, r) := by
  have inTurn := h.inTurn
  rw [hturn] at inTurn
  cases inTurn with
  | answering _ _ _ sendingReply => exact if_pos sendingReply

theorem send_fsm (h : Serves r a)
    (hturn : ∀ asker env begun, a.turn ≠ .answering asker env begun) (f : Frame) :
    r.xsend f = some (false, r) := by
  have inTurn := h.inTurn
  cases hat : a.turn with
  | idle =>
    rw [hat] at inTurn
    cases inTurn with
    | idle _ _ _ sendingReply => exact if_pos sendingReply
  | receiving asker env rest =>
    rw [hat] at inTurn
    cases inTurn with
    | receiving _ _ _ _ _ _ sendingReply => exact if_pos sendingReply
  | answering asker env begun => exact absurd hat (hturn asker env begun)

/-- A call or an event of a pipe is a step of the server, or leaves it as it is. -/
theorem step (h : Serves r a) {l : RepEvent} {r' : Rep} (hstep : replying.step r l r') :
    ∃ a', Serves r' a' ∧ ((∃ m, l.event = some m ∧ serving.step a m a') ∨
      (l.event = none ∧ a' = a)) := by
  cases l with
  | attach identity =>
    obtain ⟨hne, hfresh, hfind, x, hattach, rfl⟩ := hstep
    obtain ⟨source, ahead, hside⟩ := h.inTurn.inSide
    have hconnected : a.connected identity = false := by
      have hnone := (h.outSide.findOut identity).symm.trans hfind
      split at hnone
      · cases hnone
      · next hc => exact (Bool.not_eq_true _).mp hc
    unfold Xrep.attachPipes at hattach
    rw [if_neg (by simp [hfind]), Option.some.injEq] at hattach
    refine ⟨a.connect identity, ?_, .inl ⟨_, rfl, hconnected, (hside.absent _ hfresh).1, rfl⟩⟩
    subst hattach
    exact {
      inTurn := h.inTurn.attach hne hfresh rfl rfl rfl rfl
      outSide := h.outSide.attach hfind rfl rfl
      prefetched := h.prefetched }
  | request identity m =>
    obtain ⟨hm, i, p, hp, rfl, hopen, rfl⟩ := hstep
    obtain ⟨source, ahead, hside⟩ := h.inTurn.inSide
    refine ⟨a.request p.identity m, ?_, .inl ⟨_, rfl, hm.parts, rfl⟩⟩
    have hok := hside.ok p (List.mem_of_getElem? hp)
    exact {
      inTurn := by
        refine h.inTurn.set hp ?_ ?_ ?_ ?_ ?_
        · rfl
        · refine ⟨hok.active, fun hterm => ?_⟩
          have hfalse : p.reader.terminating = true := hterm
          rw [hopen.2] at hfalse
          cases hfalse
        · intro hactive
          exact hactive
        · intro m' hm'
          rw [List.mem_singleton.mp hm']
          exact hm
        · rw [List.flatMap_singleton]
      outSide := h.outSide.of_fields rfl rfl
      prefetched := h.prefetched }
  | hangUp identity =>
    obtain ⟨i, p, hp, -, -, rfl⟩ := hstep
    obtain ⟨source, ahead, hside⟩ := h.inTurn.inSide
    have hok := hside.ok p (List.mem_of_getElem? hp)
    refine ⟨a, h.marked hp ?_ ⟨hok.active, hok.terminating⟩ ?_ ?_, .inr ⟨rfl, rfl⟩⟩
    · rfl
    · intro hactive
      exact hactive
    · rfl
  | activated identity =>
    obtain ⟨i, p, hp, -, hinactive, hterm, -, x, hx, rfl⟩ := hstep
    obtain ⟨source, ahead, hside⟩ := h.inTurn.inSide
    have hok := hside.ok p (List.mem_of_getElem? hp)
    unfold Xrep.activatedIn at hx
    simp only [hp, hok.active, hinactive, Bool.false_eq_true, if_false, Option.some.injEq] at hx
    subst hx
    refine ⟨a, h.marked hp ?_ ⟨rfl, fun hterm' => ?_⟩ ?_ ?_, .inr ⟨rfl, rfl⟩⟩
    · rfl
    · have hfalse : p.reader.terminating = true := hterm'
      rw [hterm] at hfalse
      cases hfalse
    · intro _
      rfl
    · rfl
  | inTerminated identity =>
    obtain ⟨i, p, hp, -, hterm, x, hx, rfl⟩ := hstep
    have hlt := (List.getElem?_eq_some_iff.mp hp).1
    unfold Xrep.terminatedIn at hx
    rw [if_neg (by omega)] at hx
    simp only [Option.some.injEq] at hx
    subst hx
    refine ⟨a, ?_, .inr ⟨rfl, rfl⟩⟩
    exact {
      inTurn := h.inTurn.terminated hp hterm rfl rfl rfl rfl rfl
      outSide := h.outSide.of_fields rfl rfl
      prefetched := h.prefetched }
  | outTerminated identity =>
    obtain ⟨x, hx, rfl⟩ := hstep
    unfold Xrep.terminatedOut at hx
    split at hx
    · cases hx
    · simp only [Option.some.injEq] at hx
      subst hx
      refine ⟨a.disconnect identity, ?_, .inl ⟨_, rfl, rfl⟩⟩
      exact {
        inTurn := h.inTurn.disconnect identity rfl rfl rfl rfl
        outSide := h.outSide.detach identity rfl rfl
        prefetched := h.prefetched }
  | recv res =>
    change r.xrecv = some (res, r') at hstep
    cases hturn : a.turn with
    | idle =>
      obtain ⟨r'', hrecv, hr''⟩ | ⟨identity, m, queue, part, rest, r'', hwaiting, hparts, hrecv,
        hr''⟩ := h.recv_idle hturn
      · rw [hrecv, Option.some.injEq, Prod.mk.injEq] at hstep
        obtain ⟨rfl, rfl⟩ := hstep
        exact ⟨a, hr'', .inr ⟨rfl, rfl⟩⟩
      · rw [hrecv, Option.some.injEq, Prod.mk.injEq] at hstep
        obtain ⟨rfl, rfl⟩ := hstep
        exact ⟨_, hr'', .inl ⟨_, rfl, .inl ⟨identity, m, queue, rest, hturn, hwaiting, hparts, rfl,
          rfl⟩⟩⟩
    | receiving asker env rest =>
      obtain ⟨part, rest', r'', rfl, hrecv, hr''⟩ := h.recv_receiving hturn
      rw [hrecv, Option.some.injEq, Prod.mk.injEq] at hstep
      obtain ⟨rfl, rfl⟩ := hstep
      exact ⟨_, hr'', .inl ⟨_, rfl, .inr ⟨asker, env, rest', hturn, rfl, rfl⟩⟩⟩
    | answering asker env begun =>
      rw [h.recv_answering hturn, Option.some.injEq, Prod.mk.injEq] at hstep
      obtain ⟨rfl, rfl⟩ := hstep
      exact ⟨a, h, .inr ⟨rfl, rfl⟩⟩
  | send f sent =>
    change r.xsend f = some (sent, r') at hstep
    by_cases hturn : ∃ asker env begun, a.turn = .answering asker env begun
    · obtain ⟨asker, env, begun, hturn⟩ := hturn
      obtain ⟨r'', hsend, hr''⟩ := h.send_answering hturn f
      rw [hsend, Option.some.injEq, Prod.mk.injEq] at hstep
      obtain ⟨rfl, rfl⟩ := hstep
      exact ⟨_, hr'', .inl ⟨_, rfl, asker, env, begun, hturn, rfl⟩⟩
    · rw [h.send_fsm fun asker env begun heq => hturn ⟨asker, env, begun, heq⟩, Option.some.injEq,
        Prod.mk.injEq] at hstep
      obtain ⟨rfl, rfl⟩ := hstep
      exact ⟨a, h, .inr ⟨rfl, rfl⟩⟩

theorem init : Serves {} {} where
  inTurn := .idle
    { ok := fun p hp => absurd hp (by simp)
      identities := List.nodup_nil
      nonempty := fun p hp => absurd hp (by simp)
      currentIn := .inr ⟨rfl, rfl⟩
      frames := fun p hp => absurd hp (by simp)
      requests := fun _ m hm => absurd hm (by simp)
      absent := fun _ _ => ⟨rfl, rfl⟩ } rfl rfl rfl rfl
  outSide :=
    { currentOut := rfl
      asker := fun _ hasker => by cases hasker
      findOut := fun _ => rfl }
  prefetched := rfl

theorem xrecv_ne_none (h : Serves r a) : r.xrecv ≠ none := by
  intro hnone
  cases hturn : a.turn with
  | idle =>
    obtain ⟨r', hrecv, -⟩ | ⟨_, _, _, _, _, r', _, _, hrecv, -⟩ := h.recv_idle hturn
    · rw [hrecv] at hnone
      cases hnone
    · rw [hrecv] at hnone
      cases hnone
  | receiving asker env rest =>
    obtain ⟨_, _, r', -, hrecv, -⟩ := h.recv_receiving hturn
    rw [hrecv] at hnone
    cases hnone
  | answering asker env begun =>
    rw [h.recv_answering hturn] at hnone
    cases hnone

theorem xsend_ne_none (h : Serves r a) (f : Frame) : r.xsend f ≠ none := by
  intro hnone
  by_cases hturn : ∃ asker env begun, a.turn = .answering asker env begun
  · obtain ⟨asker, env, begun, hturn⟩ := hturn
    obtain ⟨r', hsend, -⟩ := h.send_answering hturn f
    rw [hsend] at hnone
    cases hnone
  · rw [h.send_fsm fun asker env begun heq => hturn ⟨asker, env, begun, heq⟩] at hnone
    cases hnone

/-- A reader that is activated was not marked as active. -/
theorem activatedIn_ne_none (h : Serves r a) {i : Nat} {p : InPipe}
    (hp : r.xrep.inpipes[i]? = some p) (hinactive : p.reader.active = false) :
    r.xrep.activatedIn i ≠ none := by
  obtain ⟨source, ahead, hside⟩ := h.inTurn.inSide
  have hactive : p.active = false :=
    (hside.ok p (List.mem_of_getElem? hp)).active.trans hinactive
  unfold Xrep.activatedIn
  simp [hp, hactive]

end Serves

/-- A REP socket is a server of `RequestReply`. -/
def repServer : Simulation replying serving RepEvent.event where
  rel := Serves
  init r hr := by
    obtain rfl : r = {} := hr
    exact ⟨{}, rfl, .init⟩
  step r l r' a h hstep := h.step hstep

/-- In every run of the socket no assertion fails, and what is in the pipe to a peer are
    the replies of a server that does the same. Their envelopes are those of the peer's
    first requests, in their order; at most one that was taken has no reply yet. -/
theorem rep_serves {ls : List RepEvent} {r : Rep} (h : Run replying {} ls r) :
    r.xrecv ≠ none ∧ (∀ f, r.xsend f ≠ none) ∧
    (∀ i p, r.xrep.inpipes[i]? = some p → p.reader.active = false →
      r.xrep.activatedIn i ≠ none) ∧
    ∃ a : Server Identity Envelope (List Byte), Run serving {} (ls.filterMap RepEvent.event) a ∧
      ∀ identity out, r.xrep.findOut identity = some out →
        out.writer.flushed = (a.replies identity).flatMap messageFrames ∧
        ∃ unanswered, unanswered.length ≤ 1 ∧
          (a.taken identity).map Message.env =
            (a.replies identity).map Message.env ++ unanswered := by
  obtain ⟨a, hrun, hserves⟩ := repServer.run h Serves.init
  have hserves : Serves r a := hserves
  refine ⟨hserves.xrecv_ne_none, hserves.xsend_ne_none,
    fun i p hp hinactive => hserves.activatedIn_ne_none hp hinactive, a, hrun, ?_⟩
  intro identity out hfind
  rw [hserves.outSide.findOut] at hfind
  split at hfind
  · next hconnected =>
    cases hfind
    have hanswered := Answered.of_reachable (hrun.reachable (.init rfl))
    refine ⟨rfl, _, ?_, hanswered.replies identity hconnected⟩
    exact Turn.unanswered_length _ _
  · cases hfind

/-- With one peer: what is in the pipes, and the flags. -/
def Rep.onePeer (frames : List Frame) (writer : Writer) (moreIn sending : Bool) : Rep where
  xrep := {
    inpipes := [{ identity := [1], reader := { frames := frames } }]
    outpipes := [([1], { writer := writer })]
    moreIn := moreIn
    currentOut := if moreIn || sending then some [1] else none
    moreOut := moreIn || sending }
  sendingReply := sending

/-- One request of one part, and its reply. -/
def oneReply : List RepEvent :=
  [.attach [1], .request [1] ⟨[], [[7]]⟩, .recv (.part ⟨false, [7]⟩), .send ⟨false, [8]⟩ true]

theorem oneReply_recv :
    (Rep.onePeer [⟨true, []⟩, ⟨false, [7]⟩] {} false false).xrecv =
      some (.part ⟨false, [7]⟩, .onePeer [] { begun := [⟨true, []⟩] } false true) := by
  have htrace : Rep.copyTrace (Rep.onePeer [⟨true, []⟩, ⟨false, [7]⟩] {} false false).xrep =
      some (true, (Rep.onePeer [⟨false, [7]⟩] { begun := [⟨true, []⟩] } true false).xrep) := by
    rw [copyTrace_more rfl rfl, if_neg (by decide), copyTrace_more rfl rfl, if_pos rfl]
    rfl
  unfold Rep.xrecv
  rw [if_neg (by decide), if_pos (by decide), htrace]
  rfl

theorem oneReply_run : Run replying {} oneReply
    (.onePeer [] { flushed := [⟨true, []⟩, ⟨false, [8]⟩] } false false) := by
  refine .cons _ ⟨by decide, by decide, rfl, _, rfl, rfl⟩ (.cons _ ⟨⟨by decide, by decide⟩, 0, _,
    rfl, rfl, ⟨rfl, rfl⟩, rfl⟩ (.cons _ oneReply_recv (.cons _ ?_ (.nil _))))
  exact rfl

theorem rep_serves_oneReply :
    ∃ a : Server Identity Envelope (List Byte),
      Run serving {} (oneReply.filterMap RepEvent.event) a ∧
      ([⟨true, []⟩, ⟨false, [8]⟩] : List Frame) = (a.replies [1]).flatMap messageFrames := by
  obtain ⟨-, -, -, a, hrun, hreplies⟩ := rep_serves oneReply_run
  exact ⟨a, hrun, (hreplies [1] _ rfl).1⟩

end RefereeBox.Zmq
