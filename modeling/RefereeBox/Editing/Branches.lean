import Mathlib.Data.List.InsertIdx
import Mathlib.Data.List.Perm.Basic
import RefereeBox.Model.Editing

/-! # The Branches of an Editing Operation

  An editing operation works on the branch of its competition, which keeps to its
  own list and its own class (`Lawful`, `Separate`). Two branches of CTT reach into the
  BTT list: the bound test of `moveDown`, which at the last position removes the
  task and then fails to insert it (`LosesLast`), and the sort of `updateTask`.
-/

namespace RefereeBox

/-! ### Operations -/

/-- An editing operation with its arguments. -/
inductive EditOp where
  | add (task : Task)
  | delete (pos : Nat)
  | update (pos : Nat) (task : Task)
  | moveUp (pos : Nat)
  | moveDown (pos : Nat)
deriving DecidableEq, Repr

/-- Run an operation on a competition. -/
def TaskSpec.edit (orders : TaskOrders) (compIdent : CompetitionIdentifier) (op : EditOp)
    (tS : TaskSpec) : Outcome × TaskSpec :=
  match op with
  | .add task => tS.addTask orders compIdent task
  | .delete pos => tS.deleteTask orders pos compIdent
  | .update pos task => tS.updateTask orders pos task compIdent
  | .moveUp pos => tS.moveUp orders pos compIdent
  | .moveDown pos => tS.moveDown orders pos compIdent

/-! ### One branch -/

/-- A branch that keeps to its own list and its own class. -/
structure TaskBranch.Lawful {τ : Type} (b : TaskBranch τ) (compIdent : CompetitionIdentifier) :
    Prop where
  list_setList : ∀ tS l, b.list (b.setList tS l) = l
  cast_some : ∀ task t, b.cast task = some t → task = b.task t
  cast_isSome : ∀ task : Task, task.competition = compIdent → (b.cast task).isSome = true
  tasks : ∀ tS : TaskSpec, tS.tasks compIdent = (b.list tS).map b.task
  tasks_other : ∀ tS l other, other ≠ compIdent → (b.setList tS l).tasks other = tS.tasks other
  sort_perm : ∀ l, (b.sort l).Perm l

theorem bntBranch_lawful : bntBranch.Lawful .bnt where
  list_setList _ _ := rfl
  cast_some task t h := by cases task <;> simp_all [bntBranch]
  cast_isSome task h := by cases task <;> simp_all [bntBranch, Task.competition]
  tasks _ := rfl
  tasks_other _ _ other hne := by cases other <;> first | rfl | exact absurd rfl hne
  sort_perm _ := List.Perm.refl _

theorem bmtBranch_lawful : bmtBranch.Lawful .bmt where
  list_setList _ _ := rfl
  cast_some task t h := by cases task <;> simp_all [bmtBranch]
  cast_isSome task h := by cases task <;> simp_all [bmtBranch, Task.competition]
  tasks _ := rfl
  tasks_other _ _ other hne := by cases other <;> first | rfl | exact absurd rfl hne
  sort_perm _ := List.Perm.refl _

theorem bttBranch_lawful : bttBranch.Lawful .btt where
  list_setList _ _ := rfl
  cast_some task t h := by cases task <;> simp_all [bttBranch]
  cast_isSome task h := by cases task <;> simp_all [bttBranch, Task.competition]
  tasks _ := rfl
  tasks_other _ _ other hne := by cases other <;> first | rfl | exact absurd rfl hne
  sort_perm := Java.sort_perm _

theorem cttBranch_lawful : cttBranch.Lawful .ctt where
  list_setList _ _ := rfl
  cast_some task t h := by cases task <;> simp_all [cttBranch]
  cast_isSome task h := by cases task <;> simp_all [cttBranch, Task.competition]
  tasks _ := rfl
  tasks_other _ _ other hne := by cases other <;> first | rfl | exact absurd rfl hne
  sort_perm := Java.sort_perm _

theorem cbtBranch_lawful (orders : TaskOrders) : (cbtBranch orders).Lawful .cbt where
  list_setList _ _ := rfl
  cast_some task t h := by cases task <;> simp_all [cbtBranch]
  cast_isSome task h := by cases task <;> simp_all [cbtBranch, Task.competition]
  tasks _ := rfl
  tasks_other _ _ other hne := by cases other <;> first | rfl | exact absurd rfl hne
  sort_perm := Java.sort_perm _

theorem pptBranch_lawful (orders : TaskOrders) : (pptBranch orders).Lawful .ppt where
  list_setList _ _ := rfl
  cast_some task t h := by cases task <;> simp_all [pptBranch]
  cast_isSome task h := by cases task <;> simp_all [pptBranch, Task.competition]
  tasks _ := rfl
  tasks_other _ _ other hne := by cases other <;> first | rfl | exact absurd rfl hne
  sort_perm := Java.sort_perm _

namespace TaskBranch

variable {τ : Type} {b : TaskBranch τ} {compIdent : CompetitionIdentifier}
  (hb : b.Lawful compIdent) (tS : TaskSpec)
include hb

theorem Lawful.tasks_setList (l : List τ) :
    (b.setList tS l).tasks compIdent = l.map b.task := by
  rw [hb.tasks, hb.list_setList]

theorem length_tasks : (tS.tasks compIdent).length = (b.list tS).length := by
  rw [hb.tasks, List.length_map]

theorem resort_perm : ((b.resort tS).tasks compIdent).Perm (tS.tasks compIdent) := by
  unfold resort
  rw [hb.tasks_setList, hb.tasks]
  exact (hb.sort_perm _).map b.task

end TaskBranch

/-! ### All operations -/

namespace TaskBranch

variable {τ : Type}

/-- A branch that has nothing to do with the rest of the state. -/
structure Separate (b : TaskBranch τ) (compIdent : CompetitionIdentifier) : Prop
    extends b.Lawful compIdent where
  setList_list : ∀ tS, b.setList tS (b.list tS) = tS
  setList_setList : ∀ tS l l', b.setList (b.setList tS l) l' = b.setList tS l'
  cast_task : ∀ t, b.cast (b.task t) = some t
  competition_task : ∀ t, (b.task t).competition = compIdent
  statics : ∀ tS l, (b.setList tS l).bmtStatics = tS.bmtStatics

/-- An operation of the branch, with the size that `moveDown` reads and the sort
    of `updateTask`. -/
def edit (b : TaskBranch τ) (size : TaskSpec → Nat) (resort : TaskSpec → TaskSpec) (op : EditOp)
    (tS : TaskSpec) : Outcome × TaskSpec :=
  match op with
  | .add task => b.addTask task tS
  | .delete pos => b.deleteTask pos tS
  | .update pos task => b.updateTask resort pos task tS
  | .moveUp pos => b.moveUp pos tS
  | .moveDown pos => b.moveDown (size tS) pos tS

end TaskBranch

theorem bntBranch_separate : bntBranch.Separate .bnt :=
  ⟨bntBranch_lawful, fun _ => rfl, fun _ _ _ => rfl, fun _ => rfl, fun _ => rfl, fun _ _ => rfl⟩

theorem bmtBranch_separate : bmtBranch.Separate .bmt :=
  ⟨bmtBranch_lawful, fun _ => rfl, fun _ _ _ => rfl, fun _ => rfl, fun _ => rfl, fun _ _ => rfl⟩

theorem bttBranch_separate : bttBranch.Separate .btt :=
  ⟨bttBranch_lawful, fun _ => rfl, fun _ _ _ => rfl, fun _ => rfl, fun _ => rfl, fun _ _ => rfl⟩

theorem cttBranch_separate : cttBranch.Separate .ctt :=
  ⟨cttBranch_lawful, fun _ => rfl, fun _ _ _ => rfl, fun _ => rfl, fun _ => rfl, fun _ _ => rfl⟩

theorem cbtBranch_separate (orders : TaskOrders) : (cbtBranch orders).Separate .cbt :=
  ⟨cbtBranch_lawful orders, fun _ => rfl, fun _ _ _ => rfl, fun _ => rfl, fun _ => rfl,
    fun _ _ => rfl⟩

theorem pptBranch_separate (orders : TaskOrders) : (pptBranch orders).Separate .ppt :=
  ⟨pptBranch_lawful orders, fun _ => rfl, fun _ _ _ => rfl, fun _ => rfl, fun _ => rfl,
    fun _ _ => rfl⟩

/-- Every competition but CTT has a branch of its own that reads its own size and
    sorts its own list. -/
theorem exists_branch (orders : TaskOrders) {compIdent : CompetitionIdentifier}
    (hne : compIdent ≠ .ctt) :
    ∃ (τ : Type) (b : TaskBranch τ), b.Separate compIdent ∧ ∀ (op : EditOp) (tS : TaskSpec),
      tS.edit orders compIdent op = b.edit (fun tS => (b.list tS).length) b.resort op tS := by
  cases compIdent with
  | bnt => exact ⟨_, bntBranch, bntBranch_separate, fun op _ => by cases op <;> rfl⟩
  | bmt => exact ⟨_, bmtBranch, bmtBranch_separate, fun op _ => by cases op <;> rfl⟩
  | btt => exact ⟨_, bttBranch, bttBranch_separate, fun op _ => by cases op <;> rfl⟩
  | ctt => exact absurd rfl hne
  | cbt => exact ⟨_, cbtBranch orders, cbtBranch_separate orders, fun op _ => by cases op <;> rfl⟩
  | ppt => exact ⟨_, pptBranch orders, pptBranch_separate orders, fun op _ => by cases op <;> rfl⟩

/-- In CTT the size and the sort are those of the BTT list. -/
theorem edit_ctt (orders : TaskOrders) (op : EditOp) (tS : TaskSpec) :
    tS.edit orders .ctt op =
      cttBranch.edit (fun tS => tS.bttTaskList.length) bttBranch.resort op tS := by
  cases op <;> rfl

/-- The exceptional case: `moveDown` on the last CTT task while the BTT list
    has another size. -/
def LosesLast (tS : TaskSpec) (compIdent : CompetitionIdentifier) (op : EditOp) : Prop :=
  ∃ pos, op = .moveDown pos ∧ compIdent = .ctt ∧ tS.cttTaskList.length = pos + 1 ∧
    tS.bttTaskList.length ≠ pos + 1

theorem EditOp.not_losesLast {tS : TaskSpec} {compIdent : CompetitionIdentifier} (op : EditOp)
    (hop : ∀ pos, op ≠ .moveDown pos) : ¬ LosesLast tS compIdent op :=
  fun ⟨pos, h, _⟩ => hop pos h

/-! ### The other lists -/

namespace TaskBranch

variable {τ : Type} {b : TaskBranch τ} {compIdent : CompetitionIdentifier}
  (hb : b.Lawful compIdent) (tS : TaskSpec) {other : CompetitionIdentifier}
  (hne : other ≠ compIdent)
include hb hne

theorem addTask_frame (task : Task) : (b.addTask task tS).2.tasks other = tS.tasks other := by
  unfold addTask
  split
  · rfl
  · exact hb.tasks_other _ _ _ hne

theorem deleteTask_frame (pos : Nat) : (b.deleteTask pos tS).2.tasks other = tS.tasks other := by
  unfold deleteTask
  split
  · rfl
  · exact hb.tasks_other _ _ _ hne

theorem insert_frame (pos : Nat) (t : τ) (removed : List τ) :
    (b.insert pos t removed tS).2.tasks other = tS.tasks other := by
  unfold insert
  split <;> exact hb.tasks_other _ _ _ hne

theorem moveUp_frame (pos : Nat) : (b.moveUp pos tS).2.tasks other = tS.tasks other := by
  unfold moveUp
  split
  · rfl
  · split
    · rfl
    · exact insert_frame hb tS hne _ _ _

theorem moveDown_frame (size pos : Nat) :
    (b.moveDown size pos tS).2.tasks other = tS.tasks other := by
  unfold moveDown
  split
  · rfl
  · split
    · rfl
    · exact insert_frame hb tS hne _ _ _

theorem updateTask_frame {resort : TaskSpec → TaskSpec}
    (hresort : ∀ tS : TaskSpec, ((resort tS).tasks other).Perm (tS.tasks other))
    (pos : Nat) (task : Task) :
    ((b.updateTask resort pos task tS).2.tasks other).Perm (tS.tasks other) := by
  unfold updateTask
  split
  · exact List.Perm.refl _
  · split
    · exact List.Perm.refl _
    · refine (hresort _).trans ?_
      rw [hb.tasks_other _ _ _ hne]

theorem resort_frame : (b.resort tS).tasks other = tS.tasks other :=
  hb.tasks_other _ _ _ hne

theorem edit_frame {size : TaskSpec → Nat} {resort : TaskSpec → TaskSpec}
    (hresort : ∀ tS : TaskSpec, ((resort tS).tasks other).Perm (tS.tasks other)) (op : EditOp) :
    ((b.edit size resort op tS).2.tasks other).Perm (tS.tasks other) := by
  cases op with
  | add task => exact List.Perm.of_eq (addTask_frame hb tS hne task)
  | delete pos => exact List.Perm.of_eq (deleteTask_frame hb tS hne pos)
  | update pos task => exact updateTask_frame hb tS hne hresort pos task
  | moveUp pos => exact List.Perm.of_eq (moveUp_frame hb tS hne pos)
  | moveDown pos => exact List.Perm.of_eq (moveDown_frame hb tS hne (size tS) pos)

end TaskBranch

/-- An operation on one competition permutes the tasks of another one at most. -/
theorem edit_frame (orders : TaskOrders) (tS : TaskSpec) {compIdent other : CompetitionIdentifier}
    (hne : other ≠ compIdent) (op : EditOp) :
    ((tS.edit orders compIdent op).2.tasks other).Perm (tS.tasks other) := by
  by_cases hctt : compIdent = .ctt
  · subst hctt
    -- the sort of the BTT list, the only change outside of the own list
    have hresort : ∀ tS : TaskSpec, ((bttBranch.resort tS).tasks other).Perm (tS.tasks other) := by
      intro tS
      by_cases hother : other = .btt
      · rw [hother]
        exact TaskBranch.resort_perm bttBranch_lawful tS
      · rw [TaskBranch.resort_frame bttBranch_lawful tS hother]
    rw [edit_ctt]
    exact TaskBranch.edit_frame cttBranch_lawful tS hne hresort op
  · obtain ⟨τ, b, hb, hedit⟩ := exists_branch orders hctt
    have hresort := fun tS => List.Perm.of_eq (TaskBranch.resort_frame hb.toLawful tS hne)
    rw [hedit]
    exact TaskBranch.edit_frame hb.toLawful tS hne hresort op

/-- The only task of a CTT list. -/
def loneTask : CttTask := ⟨"initial".toList, " ".toList, "S1".toList, "M20".toList, .init⟩

/-- Some orders of the classes outside of the repository; CTT does not use them. -/
def someOrders : TaskOrders := ⟨fun _ _ => 0, fun _ _ => 0⟩

end RefereeBox
