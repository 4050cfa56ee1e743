import RefereeBox.Lib.Transition

/-! # The Lock-Free Queue

  `ypipe_t`, the queue of the pipes and of the mailboxes. Pointers are positions
  in the list of all items ever written; the terminator is behind them, and what
  is before `front` is popped. `c` is the only variable that both threads use, and
  each of them accesses it at one point of a call, by a compare-and-swap.
-/

namespace RefereeBox.Zmq

/-- `none` is NULL. -/
structure YPipe (α : Type) where
  items : List α := []
  front : Nat := 0
  w : Nat := 0
  r : Option Nat := some 0
  f : Nat := 0
  c : Option Nat := some 0
deriving DecidableEq, Repr

namespace YPipe

variable {α : Type}

/-- `queue.back ()`, the terminator. -/
def back (p : YPipe α) : Nat := p.items.length

def write (value : α) (incomplete : Bool) (p : YPipe α) : YPipe α :=
  let p := { p with items := p.items ++ [value] }
  if incomplete then p else { p with f := p.back }

def unwrite (p : YPipe α) : Option α × YPipe α :=
  if p.f = p.back then (none, p)
  else (p.items.getLast?, { p with items := p.items.dropLast })

/-- `c.cas (old, new)`, with the old value of `c`. -/
def cas (old new : Option Nat) (p : YPipe α) : Option Nat × YPipe α :=
  (p.c, if p.c = old then { p with c := new } else p)

/-- `flush` up to the compare-and-swap. If it is not done by then, `setC` follows. -/
def flush (p : YPipe α) : Bool × YPipe α :=
  if p.w = p.f then (true, p)
  else
    match p.cas (some p.w) (some p.f) with
    | (c, p') => if c ≠ some p.w then (false, p') else (true, { p' with w := p.f })

/-- The end of a `flush` that returns false. -/
def setC (p : YPipe α) : YPipe α := { p with c := some p.f, w := p.f }

def checkRead (p : YPipe α) : Bool × YPipe α :=
  if some p.front ≠ p.r ∧ p.r ≠ none then (true, p)
  else
    match p.cas (some p.front) none with
    | (c, p') => (decide (some p.front ≠ c ∧ c ≠ none), { p' with r := c })

def read (p : YPipe α) : Option α × YPipe α :=
  match p.checkRead with
  | (false, p) => (none, p)
  | (true, p) => (p.items[p.front]?, { p with front := p.front + 1 })

end YPipe

/-! ### The two threads -/

/-- `flush` is one event if it returns true, and two otherwise. -/
inductive YPipeEvent (α : Type) where
  | write (value : α) (incomplete : Bool)
  | unwrite (res : Option α)
  | flush (alive : Bool)
  | setC
  | checkRead (res : Bool)
  | read (res : Option α)
deriving DecidableEq, Repr

/-- The writer and the reader in any order; `waking` says that the writer has still to set
    `c`. -/
def sharing {α : Type} : Transition.System (YPipe α × Bool) (YPipeEvent α) where
  init s := s = ({}, false)
  step s l s' :=
    match l with
    | .write value incomplete => s.2 = false ∧ s' = (s.1.write value incomplete, false)
    | .unwrite res => s.2 = false ∧ s.1.unwrite = (res, s'.1) ∧ s'.2 = false
    | .flush alive => s.2 = false ∧ s.1.flush = (alive, s'.1) ∧ s'.2 = !alive
    | .setC => s.2 = true ∧ s' = (s.1.setC, false)
    | .checkRead res => s.1.checkRead = (res, s'.1) ∧ s'.2 = s.2
    | .read res => s.1.read = (res, s'.1) ∧ s'.2 = s.2

end RefereeBox.Zmq
