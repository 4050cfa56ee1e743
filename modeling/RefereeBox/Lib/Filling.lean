import Mathlib.Data.List.Basic

/-! # Filling a List Until an Exception

  A routine that only adds elements to a list and may be cut short by an
  exception: the elements added before the exception stay added. `Filling`
  records both, and `andThen` and `forEach` run such routines in sequence.
-/

/-- What a routine adds to its list, and whether an exception ends it. -/
structure Filling (α : Type) where
  added : List α
  failed : Bool
deriving DecidableEq, Repr

namespace Filling

variable {α β : Type}

/-- Nothing to add. -/
def done : Filling α := ⟨[], false⟩

/-- An exception. -/
def fail : Filling α := ⟨[], true⟩

/-- Add one element. -/
def one (a : α) : Filling α := ⟨[a], false⟩

/-- Run `f`, then `g` unless `f` ended with an exception. -/
def andThen (f g : Filling α) : Filling α :=
  if f.failed then f else ⟨f.added ++ g.added, g.failed⟩

/-- `for (b : l) f(b)`. -/
def forEach : List β → (β → Filling α) → Filling α
  | [], _ => done
  | b :: l, f => (f b).andThen (forEach l f)

/-- Go on with a value that may be missing; if it is, that is an exception. -/
def need : Option β → (β → Filling α) → Filling α
  | none, _ => fail
  | some b, f => f b

@[simp] theorem done_failed : (done : Filling α).failed = false := rfl
@[simp] theorem fail_failed : (fail : Filling α).failed = true := rfl
@[simp] theorem one_failed (a : α) : (one a).failed = false := rfl
@[simp] theorem need_none (f : β → Filling α) : need none f = fail := rfl
@[simp] theorem need_some (b : β) (f : β → Filling α) : need (some b) f = f b := rfl

@[simp] theorem andThen_failed (f g : Filling α) :
    (f.andThen g).failed = (f.failed || g.failed) := by
  unfold andThen
  cases h : f.failed <;> simp [h]

@[simp] theorem forEach_nil (f : β → Filling α) : forEach [] f = done := rfl

@[simp] theorem forEach_cons (b : β) (l : List β) (f : β → Filling α) :
    forEach (b :: l) f = (f b).andThen (forEach l f) := rfl

/-- A loop ends with an exception exactly when one of its rounds does. -/
theorem forEach_failed (l : List β) (f : β → Filling α) :
    (forEach l f).failed = l.any fun b => (f b).failed := by
  induction l with
  | nil => rfl
  | cons b l ih => simp [ih]

/-- A loop that adds one element a round adds them all. -/
theorem forEach_one (l : List β) (g : β → α) :
    forEach l (fun b => one (g b)) = ⟨l.map g, false⟩ := by
  induction l with
  | nil => rfl
  | cons b l ih => rw [forEach_cons, ih]; rfl

/-! ### Whether something is added -/

/-- An element with `q`, and `p` for all before it. -/
def Reaches (p q : β → Prop) : List β → Prop
  | [] => False
  | b :: l => q b ∨ p b ∧ Reaches p q l

theorem reaches_congr {p p' q q' : β → Prop} {l : List β} (hp : ∀ b ∈ l, (p b ↔ p' b))
    (hq : ∀ b ∈ l, (q b ↔ q' b)) : Reaches p q l ↔ Reaches p' q' l := by
  induction l with
  | nil => exact Iff.rfl
  | cons b l ih =>
    rw [List.forall_mem_cons] at hp hq
    exact or_congr hq.1 (and_congr hp.1 (ih hp.2 hq.2))

/-- Where nothing is in the way. -/
theorem reaches_iff_exists {p q : β → Prop} {l : List β} (hp : ∀ b ∈ l, p b) :
    Reaches p q l ↔ ∃ b ∈ l, q b := by
  induction l with
  | nil => simp [Reaches]
  | cons b l ih =>
    rw [List.forall_mem_cons] at hp
    rw [List.exists_mem_cons_iff, ← ih hp.2]
    exact or_congr Iff.rfl (and_iff_right hp.1)

theorem andThen_added_ne_nil_iff (f g : Filling α) :
    (f.andThen g).added ≠ [] ↔ f.added ≠ [] ∨ f.failed = false ∧ g.added ≠ [] := by
  unfold andThen
  cases hfailed : f.failed with
  | true => simp
  | false =>
    simp only [Bool.false_eq_true, if_false, ne_eq, List.append_eq_nil_iff, true_and]
    exact Classical.not_and_iff_not_or_not

/-- A loop adds something if it gets to a round that does. -/
theorem forEach_added_ne_nil_iff (l : List β) (f : β → Filling α) :
    (forEach l f).added ≠ [] ↔
      Reaches (fun b => (f b).failed = false) (fun b => (f b).added ≠ []) l := by
  induction l with
  | nil => exact iff_of_false (fun h => h rfl) id
  | cons b l ih =>
    rw [forEach_cons, andThen_added_ne_nil_iff, ih]
    exact Iff.rfl

theorem need_added_ne_nil_iff (o : Option β) (f : β → Filling α) :
    (need o f).added ≠ [] ↔ ∃ b ∈ o, (f b).added ≠ [] := by
  cases o with
  | none => simp [fail]
  | some b => simp

/-! ### What is added -/

/-- All elements that are added have a property. -/
def All (p : α → Prop) (f : Filling α) : Prop := ∀ a ∈ f.added, p a

section all
variable {p : α → Prop}

theorem All.done : All p done := fun _ h => absurd h List.not_mem_nil

theorem All.fail : All p fail := fun _ h => absurd h List.not_mem_nil

theorem All.one {a : α} (h : p a) : All p (one a) := fun _ hmem =>
  (List.mem_singleton.mp hmem).symm ▸ h

/-- An exception does not take back what has been added, and adds nothing. -/
theorem All.andThen {f g : Filling α} (hf : All p f) (hg : All p g) : All p (f.andThen g) := by
  unfold Filling.andThen
  split
  · exact hf
  · intro a ha
    rcases List.mem_append.mp ha with h | h
    · exact hf a h
    · exact hg a h

theorem All.forEach {l : List β} {f : β → Filling α} (h : ∀ b ∈ l, All p (f b)) :
    All p (forEach l f) := by
  induction l with
  | nil => exact .done
  | cons b l ih =>
    rw [forEach_cons]
    exact (h b List.mem_cons_self).andThen (ih fun b' hb' => h b' (List.mem_cons_of_mem b hb'))

theorem All.need {o : Option β} {f : β → Filling α} (h : ∀ b, o = some b → All p (f b)) :
    All p (need o f) := by
  cases o with
  | none => exact .fail
  | some b => exact h b rfl

end all

/-- Missing values are the exceptions of `need`. -/
theorem need_failed (o : Option β) (f : β → Filling α) :
    (need o f).failed = match o with
      | none => true
      | some b => (f b).failed := by
  cases o <;> rfl

end Filling
