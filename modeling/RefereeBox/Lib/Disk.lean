import Mathlib.Data.List.Nodup
import Mathlib.Logic.Function.Basic

/-! # Files on a Disk

  Files of lines, with the operations of a program that writes logs: to begin a
  file, to append a line, to rename. Operations can fail where a file cannot be
  created; they leave the disk as it is then. What an operation does not name, it
  does not touch (`Stored.create`, `Stored.append`, `Stored.renameTo`).
-/

variable {File Line : Type}

/-- The lines of every file that exists. -/
abbrev Disk (File Line : Type) : Type := File → Option (List Line)

namespace Disk

/-! ### What is stored -/

/-- Different files, and what is in each of them. -/
structure Stored (d : Disk File Line) (files : List (File × List Line)) : Prop where
  nodup : (files.map Prod.fst).Nodup
  lines : ∀ p ∈ files, d p.1 = some p.2

variable {d d' : Disk File Line} {files : List (File × List Line)} {f g : File}
  {lines : List Line}

theorem Stored.nil (d : Disk File Line) : Stored d [] where
  nodup := List.nodup_nil
  lines _ hp := absurd hp List.not_mem_nil

/-- What is stored is not touched. -/
theorem Stored.frame (h : Stored d files) (hd : ∀ p ∈ files, d' p.1 = d p.1) : Stored d' files where
  nodup := h.nodup
  lines p hp := (hd p hp).trans (h.lines p hp)

theorem Stored.ne (hf : f ∉ files.map Prod.fst) {p : File × List Line} (hp : p ∈ files) : p.1 ≠ f := by
  intro heq
  exact hf (heq ▸ List.mem_map_of_mem hp)

/-- One file more is looked after. -/
theorem Stored.snoc (h : Stored d files) (hf : f ∉ files.map Prod.fst) (hd : d f = some lines) :
    Stored d (files ++ [(f, lines)]) where
  nodup := by
    rw [List.map_append, List.nodup_append]
    refine ⟨h.nodup, List.nodup_singleton _, ?_⟩
    intro g hg g' hg' heq
    obtain rfl : g' = f := List.mem_singleton.mp hg'
    exact hf (heq ▸ hg)
  lines p hp := by
    obtain hp | hp := List.mem_append.mp hp
    · exact h.lines p hp
    · obtain rfl := List.mem_singleton.mp hp
      exact hd

/-! ### Operations -/

variable [DecidableEq File] {usable : File → Bool}

/-- An empty file is made, or emptied. -/
def create (usable : File → Bool) (f : File) (d : Disk File Line) : Disk File Line :=
  if usable f then Function.update d f (some []) else d

/-- A file that does not exist is made. -/
def append (usable : File → Bool) (f : File) (line : Line) (d : Disk File Line) :
    Disk File Line :=
  match d f with
  | some lines => Function.update d f (some (lines ++ [line]))
  | none => if usable f then Function.update d f (some [line]) else d

/-- What was at the new name is lost. -/
def renameTo (usable : File → Bool) (f g : File) (d : Disk File Line) : Disk File Line :=
  match d f with
  | some lines =>
    if usable g then Function.update (Function.update d f none) g (some lines) else d
  | none => d

theorem create_self (hf : usable f = true) : create usable f d f = some [] := by
  unfold create
  rw [if_pos hf, Function.update_self]

theorem create_of_ne (hg : g ≠ f) : create usable f d g = d g := by
  unfold create
  split
  · exact Function.update_of_ne hg _ _
  · rfl

theorem append_self {line : Line} (hf : d f = some lines) :
    append usable f line d f = some (lines ++ [line]) := by
  unfold append
  rw [hf]
  exact Function.update_self _ _ _

theorem append_of_ne {line : Line} (hg : g ≠ f) : append usable f line d g = d g := by
  unfold append
  cases d f with
  | some lines => exact Function.update_of_ne hg _ _
  | none =>
    dsimp only
    split
    · exact Function.update_of_ne hg _ _
    · rfl

theorem renameTo_of_ne {h : File} (hf : h ≠ f) (hg : h ≠ g) : renameTo usable f g d h = d h := by
  unfold renameTo
  cases d f with
  | some lines =>
    dsimp only
    split
    · rw [Function.update_of_ne hg, Function.update_of_ne hf]
    · rfl
  | none => rfl

/-- The lines are at one of the two names. -/
theorem renameTo_moves (hf : d f = some lines) :
    renameTo usable f g d (if usable g then g else f) = some lines := by
  unfold renameTo
  rw [hf]
  by_cases hg : usable g = true
  · simp only [hg, if_true, Function.update_self]
  · simp only [hg, Bool.false_eq_true, if_false, hf]

theorem Stored.create (h : Stored d files) (hf : f ∉ files.map Prod.fst) :
    Stored (create usable f d) files :=
  h.frame fun _ hp => create_of_ne (Stored.ne hf hp)

theorem Stored.append {line : Line} (h : Stored d files) (hf : f ∉ files.map Prod.fst) :
    Stored (append usable f line d) files :=
  h.frame fun _ hp => append_of_ne (Stored.ne hf hp)

theorem Stored.renameTo (h : Stored d files) (hf : f ∉ files.map Prod.fst)
    (hg : g ∉ files.map Prod.fst) : Stored (renameTo usable f g d) files :=
  h.frame fun _ hp => renameTo_of_ne (Stored.ne hf hp) (Stored.ne hg hp)

end Disk
