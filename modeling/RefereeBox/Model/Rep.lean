import Mathlib.Data.List.Basic
import RefereeBox.Model.Wire

/-! # REP Sockets

  `rep_t` over `xrep_t`, the socket of the task server. `xrep_t` takes messages
  from its inbound pipes in turn and puts the identity of the peer in front,
  and it sends a message to the peer whose identity comes first. `rep_t` copies
  the parts of a request up to the empty one to the reply, and hands out the
  parts behind it.

  `none` stands for a failed assertion. No high water mark is set, so a pipe
  can be written to until the socket is closed.
-/

namespace RefereeBox.Zmq

abbrev Identity := List Byte

/-! ### Pipes -/

/-- `reader_t`, with the flushed parts in its pipe; `delimited` says that the
    delimiter is behind them. -/
structure Reader where
  frames : List Frame := []
  delimited : Bool := false
  active : Bool := true
  terminating : Bool := false
deriving DecidableEq, Repr

namespace Reader

def terminate (r : Reader) : Reader :=
  if r.terminating = true then r else { r with active := false, terminating := true }

def read (r : Reader) : Option Frame × Reader :=
  if r.active = false then (none, r)
  else
    match r.frames with
    | f :: frames => (some f, { r with frames := frames })
    | [] =>
      if r.delimited = true then (none, { r with delimited := false }.terminate)
      else (none, { r with active := false })

end Reader

/-- `writer_t`, with the parts in its pipe: those that are flushed, those of complete
    messages and those of the message that is being written. -/
structure Writer where
  flushed : List Frame := []
  complete : List Frame := []
  begun : List Frame := []
  active : Bool := true
deriving DecidableEq, Repr

namespace Writer

def checkWrite (w : Writer) : Bool := w.active

def write (f : Frame) (w : Writer) : Option Writer :=
  if w.checkWrite = false then none
  else if f.more then some { w with begun := w.begun ++ [f] }
  else some { w with complete := w.complete ++ w.begun ++ [f], begun := [] }

def rollback (w : Writer) : Writer := { w with begun := [] }

def flush (w : Writer) : Writer := { w with flushed := w.flushed ++ w.complete, complete := [] }

end Writer

/-! ### xrep_t -/

structure InPipe where
  reader : Reader := {}
  identity : Identity
  active : Bool := true
deriving DecidableEq, Repr

/-- A read, if the pipe is marked as active. -/
def InPipe.read (p : InPipe) : Option Frame × InPipe :=
  if p.active = true then (p.reader.read.1, { p with reader := p.reader.read.2 }) else (none, p)

structure OutPipe where
  writer : Writer := {}
  active : Bool := true
deriving DecidableEq, Repr

/-- `prefetched` is the prefetched message, if there is one. An outbound pipe is
    known by the identity of its peer, `currentOut` too. -/
structure Xrep where
  inpipes : List InPipe := []
  currentIn : Nat := 0
  prefetched : Option Frame := none
  moreIn : Bool := false
  outpipes : List (Identity × OutPipe) := []
  currentOut : Option Identity := none
  moreOut : Bool := false
deriving DecidableEq, Repr

namespace Xrep

def findOut (identity : Identity) (x : Xrep) : Option OutPipe := x.outpipes.lookup identity

def modifyOut (identity : Identity) (f : OutPipe → OutPipe) (x : Xrep) : Xrep :=
  { x with outpipes := x.outpipes.map fun p => if p.1 = identity then (p.1, f p.2) else p }

def setIn (i : Nat) (p : InPipe) (x : Xrep) : Xrep := { x with inpipes := x.inpipes.set i p }

/-- `xattach_pipes`, with both pipes. -/
def attachPipes (identity : Identity) (x : Xrep) : Option Xrep :=
  if (x.findOut identity).isSome then none
  else
    some { x with
      outpipes := x.outpipes ++ [(identity, {})]
      inpipes := x.inpipes ++ [{ identity := identity }] }

/-- `terminated` for the inbound pipe at `i`. -/
def terminatedIn (i : Nat) (x : Xrep) : Option Xrep :=
  if x.inpipes.length ≤ i then none
  else
    let currentIn := if i < x.currentIn then x.currentIn - 1 else x.currentIn
    let inpipes := x.inpipes.eraseIdx i
    some { x with
      inpipes := inpipes
      currentIn := if inpipes.length ≤ currentIn then 0 else currentIn }

/-- `terminated` for an outbound pipe. -/
def terminatedOut (identity : Identity) (x : Xrep) : Option Xrep :=
  if (x.findOut identity).isNone then none
  else
    some { x with
      outpipes := x.outpipes.filter fun p => p.1 ≠ identity
      currentOut := if x.currentOut = some identity then none else x.currentOut }

/-- `activated` for the inbound pipe at `i`, and `process_activate_reader` before it. -/
def activatedIn (i : Nat) (x : Xrep) : Option Xrep :=
  match x.inpipes[i]? with
  | none => none
  | some p =>
    if p.active = true then none
    else some (x.setIn i { p with reader := { p.reader with active := true }, active := true })

/-- `xsend`. It never fails to send. -/
def xsend (f : Frame) (x : Xrep) : Option Xrep :=
  if x.moreOut = false then
    if x.currentOut.isSome then none
    else if f.more = false then some x
    else
      match x.findOut f.data with
      | none => some { x with moreOut := true }
      | some out =>
        if out.writer.checkWrite = false then
          some (x.modifyOut f.data fun out => { out with active := false })
        else some { x with moreOut := true, currentOut := some f.data }
  else
    let x := { x with moreOut := f.more }
    match x.currentOut with
    | none => some x
    | some identity =>
      match (x.findOut identity).bind fun out => out.writer.write f with
      | none => none
      | some writer =>
        if f.more then some (x.modifyOut identity fun out => { out with writer := writer })
        else
          some { x.modifyOut identity fun out => { out with writer := writer.flush } with
            currentOut := none }

/-- To the next pipe. -/
def advance (x : Xrep) : Xrep :=
  { x with currentIn := if x.inpipes.length ≤ x.currentIn + 1 then 0 else x.currentIn + 1 }

/-- The round-robin loop of `xrecv`; no message after `count` pipes is `EAGAIN`. -/
def fetch : Nat → Xrep → Option (Option Frame × Xrep)
  | 0, x => some (none, x)
  | count + 1, x =>
    match x.inpipes[x.currentIn]? with
    | none => none
    | some p =>
      match p.read with
      | (some f, p) =>
        some (some ⟨true, p.identity⟩, { x.setIn x.currentIn p with prefetched := some f })
      | (none, p) => fetch count (x.setIn x.currentIn { p with active := false }).advance

/-- `xrecv`. -/
def xrecv (x : Xrep) : Option (Option Frame × Xrep) :=
  match x.prefetched with
  | some f => some (some f, { x with moreIn := f.more, prefetched := none })
  | none =>
    if x.moreIn = true then
      match x.inpipes[x.currentIn]? with
      | none => none
      | some p =>
        match p.read with
        | (none, _) => none
        | (some f, p) =>
          let x := { x.setIn x.currentIn p with moreIn := f.more }
          some (some f, if f.more then x else x.advance)
    else fetch x.inpipes.length x

def rollback (x : Xrep) : Xrep :=
  match x.currentOut with
  | none => x
  | some identity =>
    { x.modifyOut identity fun out => { out with writer := out.writer.rollback } with
      currentOut := none
      moreOut := false }

/-- The parts that are not yet handed out; a prefetched one counts less. -/
def pending (x : Xrep) : Nat :=
  2 * (x.inpipes.flatMap fun p => p.reader.frames).length + if x.prefetched.isSome then 1 else 0

theorem length_flatMap_set {α β : Type} (g : α → List β) (l : List α) (i : Nat) {a : α} (b : α)
    (h : l[i]? = some a) :
    ((l.set i b).flatMap g).length + (g a).length = (l.flatMap g).length + (g b).length := by
  induction l generalizing i with
  | nil => simp at h
  | cons c l ih =>
    cases i with
    | zero =>
      obtain rfl : c = a := by simpa using h
      simp only [List.set_cons_zero, List.flatMap_cons, List.length_append]
      omega
    | succ i =>
      have hl := ih i (by simpa using h)
      simp only [List.set_cons_succ, List.flatMap_cons, List.length_append]
      omega

theorem read_length {r r' : Reader} {res : Option Frame} (h : r.read = (res, r')) :
    r'.frames.length + res.toList.length = r.frames.length := by
  unfold Reader.read at h
  split at h
  · cases h
    rfl
  · split at h
    · next f frames hframes =>
      cases h
      simp [hframes]
    · next hframes =>
      split at h
      · cases h
        simp only [Reader.terminate]
        split <;> rfl
      · cases h
        rfl

theorem inPipe_read_length {p p' : InPipe} {res : Option Frame} (h : p.read = (res, p')) :
    p'.reader.frames.length + res.toList.length = p.reader.frames.length := by
  unfold InPipe.read at h
  split at h
  · cases h
    exact read_length rfl
  · cases h
    rfl

theorem fetch_pending {count : Nat} {x x' : Xrep} {f : Frame} (hnone : x.prefetched = none)
    (h : x.fetch count = some (some f, x')) : x'.pending < x.pending := by
  induction count generalizing x with
  | zero => simp [fetch] at h
  | succ count ih =>
    unfold fetch at h
    split at h
    · simp at h
    · next p hp =>
      split at h
      · next g p' hread =>
        have hlen := inPipe_read_length hread
        have hlength := length_flatMap_set (fun p : InPipe => p.reader.frames) _ _ p' hp
        cases h
        simp only [pending, setIn, hnone, Option.isSome_some, Option.isSome_none,
          Bool.false_eq_true, if_true, if_false, Option.toList_some, List.length_singleton] at hlen ⊢
        omega
      · next p' hread =>
        have hlen := inPipe_read_length hread
        have hlength := length_flatMap_set (fun p : InPipe => p.reader.frames) _ _
          { p' with active := false } hp
        have hlt := ih (x := (x.setIn x.currentIn { p' with active := false }).advance) hnone h
        dsimp only at hlength
        simp only [pending, advance, setIn, hnone, Option.toList_none, List.length_nil] at hlt hlen ⊢
        omega

/-- Every part that `xrecv` gives leaves fewer. -/
theorem xrecv_pending {x x' : Xrep} {f : Frame} (h : x.xrecv = some (some f, x')) :
    x'.pending < x.pending := by
  unfold xrecv at h
  split at h
  · next g hpre =>
    cases h
    simp [pending, hpre]
  · next hpre =>
    split at h
    · split at h
      · simp at h
      · next p hp =>
        split at h
        · simp at h
        · next g p' hread =>
          have hlen := inPipe_read_length hread
          have hlength := length_flatMap_set (fun p : InPipe => p.reader.frames) _ _ p' hp
          simp only [Option.toList_some, List.length_singleton] at hlen
          simp only [Option.some.injEq, Prod.mk.injEq] at h
          rw [← h.2]
          split
          · simp only [pending, setIn, hpre]
            omega
          · simp only [pending, setIn, advance, hpre]
            omega
    · exact fetch_pending hpre h

theorem xsend_pending {x x' : Xrep} {f : Frame} (h : x.xsend f = some x') :
    x'.pending = x.pending := by
  unfold xsend at h
  split at h
  · split at h
    · simp at h
    · split at h
      · cases h
        rfl
      · split at h
        · cases h
          rfl
        · split at h
          · cases h
            rfl
          · cases h
            rfl
  · simp only at h
    split at h
    · cases h
      rfl
    · split at h
      · simp at h
      · split at h
        · cases h
          rfl
        · cases h
          rfl

theorem rollback_pending (x : Xrep) : x.rollback.pending = x.pending := by
  unfold rollback
  split <;> rfl

end Xrep

/-! ### rep_t -/

structure Rep where
  xrep : Xrep := {}
  sendingReply : Bool := false
  requestBegins : Bool := true
deriving DecidableEq, Repr

/-- What a receive gives: a part, `EAGAIN` or `EFSM`. -/
inductive Received where
  | part (f : Frame)
  | again
  | fsm
deriving DecidableEq, Repr

namespace Rep

/-- The loop that copies the backtrace stack to the reply pipe; false is `EAGAIN`. -/
def copyTrace (x : Xrep) : Option (Bool × Xrep) :=
  match _h : x.xrecv with
  | none => none
  | some (none, x') => some (false, x')
  | some (some f, x') =>
    if f.more then
      match _hsend : x'.xsend f with
      | none => none
      | some x'' => if f.data = [] then some (true, x'') else copyTrace x''
    else copyTrace x'.rollback
termination_by x.pending
decreasing_by
  · rw [Xrep.xsend_pending _hsend]
    exact Xrep.xrecv_pending _h
  · rw [Xrep.rollback_pending]
    exact Xrep.xrecv_pending _h

/-- `xrecv`. -/
def xrecv (r : Rep) : Option (Received × Rep) :=
  if r.sendingReply = true then some (.fsm, r)
  else
    match if r.requestBegins = true then copyTrace r.xrep else some (true, r.xrep) with
    | none => none
    | some (false, xrep) => some (.again, { r with xrep := xrep })
    | some (true, xrep) =>
      match xrep.xrecv with
      | none => none
      | some (none, xrep) => some (.again, { r with xrep := xrep, requestBegins := false })
      | some (some f, xrep) =>
        if f.more then some (.part f, { r with xrep := xrep, requestBegins := false })
        else some (.part f, { xrep := xrep, sendingReply := true, requestBegins := true })

/-- `xsend`; false is `EFSM`. -/
def xsend (f : Frame) (r : Rep) : Option (Bool × Rep) :=
  if r.sendingReply = false then some (false, r)
  else
    match r.xrep.xsend f with
    | none => none
    | some xrep => some (true, { r with xrep := xrep, sendingReply := f.more })

end Rep

end RefereeBox.Zmq
