import RefereeBox.Lib.Transition

/-! # Handing Over

  A queue from one writer to one reader. The writer completes items and can take
  back the ones that are not complete; `flush` hands over what is complete. A
  reader that finds nothing falls asleep, and the next `flush` that hands over
  something says that it has to be woken.
-/

open Transition

/-- What was read, what can be read, what is not yet handed over, and what is not yet
    complete. -/
structure Handoff (α : Type) where
  taken : List α := []
  ready : List α := []
  complete : List α := []
  begun : List α := []
  asleep : Bool := false
deriving DecidableEq, Repr

namespace Handoff

variable {α : Type}

def write (v : α) (incomplete : Bool) (h : Handoff α) : Handoff α :=
  if incomplete then { h with begun := h.begun ++ [v] }
  else { h with complete := h.complete ++ (h.begun ++ [v]), begun := [] }

/-- The last item that is not complete. -/
def unwrite (h : Handoff α) : Option α × Handoff α :=
  (h.begun.getLast?, { h with begun := h.begun.dropLast })

/-- False if the reader was asleep and there is something for it. -/
def flush (h : Handoff α) : Bool × Handoff α :=
  if h.complete.isEmpty then (true, h)
  else (!h.asleep, { h with ready := h.ready ++ h.complete, complete := [], asleep := false })

def checkRead (h : Handoff α) : Bool × Handoff α :=
  match h.ready with
  | [] => (false, { h with asleep := true })
  | _ :: _ => (true, h)

def read (h : Handoff α) : Option α × Handoff α :=
  match h.ready with
  | [] => (none, { h with asleep := true })
  | v :: ready => (some v, { h with taken := h.taken ++ [v], ready := ready })

theorem flush_eq {h : Handoff α} (hcomplete : h.complete ≠ []) :
    h.flush = (!h.asleep,
      { h with ready := h.ready ++ h.complete, complete := [], asleep := false }) := by
  unfold flush
  rw [if_neg (by simpa using hcomplete)]

theorem read_nil {h : Handoff α} (hready : h.ready = []) :
    h.read = (none, { h with asleep := true }) := by
  unfold read
  split
  · rfl
  · next hcons =>
    rw [hready] at hcons
    cases hcons

theorem read_cons {h : Handoff α} {v : α} {ready : List α} (hready : h.ready = v :: ready) :
    h.read = (some v, { h with taken := h.taken ++ [v], ready := ready }) := by
  unfold read
  split
  · next hnil =>
    rw [hready] at hnil
    cases hnil
  · next hcons =>
    rw [hready] at hcons
    obtain ⟨rfl, rfl⟩ := List.cons.inj hcons
    rfl

theorem read_of_checkRead_false {h h' : Handoff α} (hcheck : h.checkRead = (false, h')) :
    h.read = (none, h') := by
  unfold checkRead at hcheck
  unfold read
  split at hcheck
  · next hready =>
    obtain rfl : _ = h' := congrArg Prod.snd hcheck
    rfl
  · cases hcheck

theorem eq_of_checkRead_true {h h' : Handoff α} (hcheck : h.checkRead = (true, h')) : h' = h := by
  unfold checkRead at hcheck
  split at hcheck
  · cases hcheck
  · exact (congrArg Prod.snd hcheck).symm

theorem ready_of_checkRead_true {h h' : Handoff α} (hcheck : h.checkRead = (true, h')) :
    ∃ v ready, h.ready = v :: ready := by
  unfold checkRead at hcheck
  split at hcheck
  · cases hcheck
  · next v ready hready => exact ⟨v, ready, hready⟩

theorem of_read_none {h h' : Handoff α} (hread : h.read = (none, h')) :
    h' = { h with asleep := true } := by
  unfold read at hread
  split at hread
  · exact (congrArg Prod.snd hread).symm
  · cases hread

theorem asleep_of_read_some {h h' : Handoff α} {v : α} (hread : h.read = (some v, h')) :
    h'.asleep = h.asleep := by
  unfold read at hread
  split at hread
  · cases hread
  · obtain rfl : _ = h' := congrArg Prod.snd hread
    rfl

/-- A reader does not wake itself. -/
theorem asleep_checkRead {h : Handoff α} (hasleep : h.asleep = true) :
    h.checkRead.2.asleep = true := by
  unfold checkRead
  split
  · rfl
  · exact hasleep

theorem asleep_read {h : Handoff α} (hasleep : h.asleep = true) : h.read.2.asleep = true := by
  unfold read
  split
  · rfl
  · exact hasleep

/-- With what the calls give. -/
inductive Event (α : Type) where
  | write (v : α) (incomplete : Bool)
  | unwrite (res : Option α)
  | flush (alive : Bool)
  | checkRead (res : Bool)
  | read (res : Option α)
deriving DecidableEq, Repr

def handing : System (Handoff α) (Event α) where
  init h := h = {}
  step h l h' :=
    match l with
    | .write v incomplete => h' = h.write v incomplete
    | .unwrite res => h.unwrite = (res, h')
    | .flush alive => h.flush = (alive, h')
    | .checkRead res => h.checkRead = (res, h')
    | .read res => h.read = (res, h')

/-! ### What is written is read -/

/-- All complete items. -/
def completed (h : Handoff α) : List α := h.taken ++ (h.ready ++ h.complete)

/-- The items that were completed, and the ones that were not, as the calls of the writer
    have them. -/
def written : List (Event α) → List α × List α → List α × List α
  | [], items => items
  | .write v true :: ls, (completed, begun) => written ls (completed, begun ++ [v])
  | .write v false :: ls, (completed, begun) => written ls (completed ++ (begun ++ [v]), [])
  | .unwrite _ :: ls, (completed, begun) => written ls (completed, begun.dropLast)
  | .flush _ :: ls, items | .checkRead _ :: ls, items | .read _ :: ls, items => written ls items

/-- The items that were read, as the calls of the reader have them. -/
def valuesRead : List (Event α) → List α
  | [] => []
  | .read (some v) :: ls => v :: valuesRead ls
  | .read none :: ls | .write _ _ :: ls | .unwrite _ :: ls | .flush _ :: ls | .checkRead _ :: ls =>
    valuesRead ls

theorem completed_write (h : Handoff α) (v : α) (incomplete : Bool) :
    (h.write v incomplete).completed =
      if incomplete then h.completed else h.completed ++ (h.begun ++ [v]) := by
  cases incomplete <;> simp [write, completed]

theorem completed_flush (h : Handoff α) : h.flush.2.completed = h.completed := by
  unfold flush
  split
  · rfl
  · simp [completed]

theorem completed_read (h : Handoff α) : h.read.2.completed = h.completed := by
  unfold read
  split
  · rfl
  · next hready => simp [completed, hready]

/-- Only whether the reader sleeps. -/
theorem checkRead_eq (h : Handoff α) :
    h.checkRead.2 = { h with asleep := h.checkRead.2.asleep } := by
  unfold checkRead
  split <;> rfl

theorem begun_flush (h : Handoff α) : h.flush.2.begun = h.begun := by
  unfold flush
  split <;> rfl

theorem taken_read {h h' : Handoff α} {res : Option α} (hread : h.read = (res, h')) :
    h'.taken = h.taken ++ res.toList := by
  unfold read at hread
  split at hread
  · obtain ⟨rfl, rfl⟩ := Prod.mk.inj hread
    exact (List.append_nil _).symm
  · obtain ⟨rfl, rfl⟩ := Prod.mk.inj hread
    rfl

/-- Nothing is left to flush. -/
theorem complete_flush (h : Handoff α) : h.flush.2.complete = [] := by
  unfold flush
  split
  · next hempty => exact List.isEmpty_iff.mp hempty
  · rfl

theorem begun_read (h : Handoff α) : h.read.2.begun = h.begun := by
  unfold read
  split <;> rfl

theorem complete_read (h : Handoff α) : h.read.2.complete = h.complete := by
  unfold read
  split <;> rfl

theorem taken_flush (h : Handoff α) : h.flush.2.taken = h.taken := by
  unfold flush
  split <;> rfl

/-- Every complete item is read once and in order, or still there. -/
theorem conserved {h h' : Handoff α} {ls : List (Event α)} (hrun : Run handing h ls h') :
    written ls (h.completed, h.begun) = (h'.completed, h'.begun) ∧
      h'.taken = h.taken ++ valuesRead ls := by
  induction hrun with
  | nil => exact ⟨rfl, (List.append_nil _).symm⟩
  | @cons h h₁ h₂ l ls hstep _ ih =>
    cases l with
    | write v incomplete =>
      obtain rfl : h₁ = h.write v incomplete := hstep
      rw [completed_write] at ih
      cases incomplete with
      | true => exact ih
      | false => exact ih
    | unwrite res =>
      obtain rfl : h.unwrite.2 = h₁ := congrArg Prod.snd hstep
      exact ih
    | flush alive =>
      obtain rfl : h.flush.2 = h₁ := congrArg Prod.snd hstep
      rw [completed_flush, begun_flush, taken_flush] at ih
      exact ih
    | checkRead res =>
      obtain rfl : h.checkRead.2 = h₁ := congrArg Prod.snd hstep
      rw [checkRead_eq] at ih
      exact ih
    | read res =>
      have hres : h.read.1 = res := congrArg Prod.fst hstep
      obtain rfl : h.read.2 = h₁ := congrArg Prod.snd hstep
      rw [completed_read, begun_read] at ih
      refine ⟨ih.1, ih.2.trans ?_⟩
      subst hres
      unfold read
      cases h.ready with
      | nil => rfl
      | cons v ready => simp [valuesRead]

/-- There is nothing for a reader that sleeps. -/
def Sleeps (h : Handoff α) : Prop := h.asleep = true → h.ready = []

theorem Sleeps.step {h h' : Handoff α} {l : Event α} (hs : h.Sleeps)
    (hstep : handing.step h l h') : h'.Sleeps := by
  cases l with
  | write v incomplete =>
    obtain rfl : h' = h.write v incomplete := hstep
    cases incomplete <;> exact hs
  | unwrite res =>
    obtain rfl : h.unwrite.2 = h' := congrArg Prod.snd hstep
    exact hs
  | flush alive =>
    obtain rfl : h.flush.2 = h' := congrArg Prod.snd hstep
    unfold flush
    split
    · exact hs
    · intro hasleep
      cases hasleep
  | checkRead res =>
    obtain rfl : h.checkRead.2 = h' := congrArg Prod.snd hstep
    unfold checkRead
    split
    · next hready => exact fun _ => hready
    · exact hs
  | read res =>
    obtain rfl : h.read.2 = h' := congrArg Prod.snd hstep
    unfold read
    split
    · next hready => exact fun _ => hready
    · next hready =>
      intro hasleep
      rw [hs hasleep] at hready
      cases hready

theorem Sleeps.of_reachable {h : Handoff α} (hr : Reachable handing h) : h.Sleeps := by
  induction hr with
  | init h =>
    obtain rfl : _ = ({} : Handoff α) := h
    intro hasleep
    cases hasleep
  | step l _ hstep ih => exact ih.step hstep

end Handoff
