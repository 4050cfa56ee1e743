import RefereeBox.Editing.Branches
import RefereeBox.Editing.Conservation

/-! # Tasks Whose Fields Are Set

  The other modules speak of tasks whose fields are set. Their editing operations are
  those on nullable tasks (`edit_nullable`): no comparison and no `getString` raises,
  and the comparisons of the tasks are the total ones.
-/

namespace RefereeBox

/-! ### The tasks as nullable ones -/

def BmtTask.nullable (t : BmtTask) : Nullable.BmtTask := ⟨some t.object, t.state⟩

def BttTask.nullable (t : BttTask) : Nullable.BttTask :=
  ⟨some t.situation, some t.configuration, some t.place, some t.object, t.state⟩

def CttTask.nullable (t : CttTask) : Nullable.CttTask :=
  ⟨some t.situation, some t.configuration, some t.place, some t.object, t.state⟩

def CbtTask.nullable (t : CbtTask) : Nullable.CbtTask := ⟨some t.place, t.state⟩

def PptTask.nullable (t : PptTask) : Nullable.PptTask :=
  ⟨some t.source, some t.object, some t.destination, t.state⟩

def Task.nullable : Task → Nullable.Task
  | .bnt t => .bnt t
  | .bmt t => .bmt t.nullable
  | .btt t => .btt t.nullable
  | .ctt t => .ctt t.nullable
  | .cbt t => .cbt t.nullable
  | .ppt t => .ppt t.nullable

def TaskSpec.nullable (tS : TaskSpec) : Nullable.TaskSpec where
  bntTaskList := tS.bntTaskList.map id
  bmtTaskList := tS.bmtTaskList.map BmtTask.nullable
  bttTaskList := tS.bttTaskList.map BttTask.nullable
  cttTaskList := tS.cttTaskList.map CttTask.nullable
  cbtTaskList := tS.cbtTaskList.map CbtTask.nullable
  pptTaskList := tS.pptTaskList.map PptTask.nullable

def Outcome.nullable : Outcome → Nullable.Outcome
  | .done => .done
  | .returned t => .returned (t.map Task.nullable)
  | .threw e => .threw e

def EditOp.nullable : EditOp → Nullable.EditOp
  | .add task => .add task.nullable
  | .delete pos => .delete pos
  | .update pos task => .update pos task.nullable
  | .moveUp pos => .moveUp pos
  | .moveDown pos => .moveDown pos

/-- The orders of the compiled classes. -/
def compiledOrders : TaskOrders where
  cbt t cbt := Java.compareTo t.place cbt.place
  ppt t ppt := Java.compareTo t.source ppt.source

/-! ### One branch -/

/-- The sort of nullable tasks by a comparison that returns on all of them. -/
theorem checkedSort_map {τ σ : Type} {cmp : σ → σ → Except Exn Int} {compare : τ → τ → Int}
    {f : τ → σ} (hcmp : ∀ t u, cmp (f t) (f u) = .ok (compare t u)) (l : List τ) :
    CheckedSort.sort cmp (l.map f) = .ok ((Java.sort compare l).map f) := by
  have hpair : (l.map f).Pairwise (CheckedSort.Comparable cmp) := by
    rw [List.pairwise_map]
    exact List.pairwise_of_forall fun t u => CheckedSort.comparable_iff.mpr ⟨_, hcmp t u⟩
  have hle : ∀ t u, CheckedSort.Precedes cmp (f t) (f u) ↔ compare t u ≤ 0 := by
    intro t u
    rw [CheckedSort.precedes_iff, hcmp]
    constructor
    · rintro ⟨i, hi, h⟩
      exact Except.ok.inj hi ▸ h
    · exact fun h => ⟨_, rfl, h⟩
  unfold CheckedSort.sort
  rw [CheckedSort.check_ok_iff.mpr hpair]
  refine congrArg Except.ok ?_
  exact (List.map_insertionSort _ _ f l fun t _ u _ => (hle t u).symm).symm

/-- The branch on nullable tasks does on the given ones what the branch does. -/
structure TaskBranch.Nulls {τ σ : Type} (b : TaskBranch τ) (b' : Nullable.TaskBranch σ)
    (f : τ → σ) : Prop where
  cast : ∀ task : Task, b'.cast task.nullable = (b.cast task).map f
  task : ∀ t, b'.task (f t) = (b.task t).nullable
  sort : ∀ l, b'.sort (l.map f) = .ok ((b.sort l).map f)
  getString : ∀ t, ∃ s, b'.getString (f t) = .ok s

namespace TaskBranch

variable {τ σ : Type} {b : TaskBranch τ} {b' : Nullable.TaskBranch σ} {f : τ → σ}
  {compIdent : CompetitionIdentifier}

/-- The results agree: the same outcome, and the list that is put into the state. -/
def Agrees (b : TaskBranch τ) (f : τ → σ) (tS : TaskSpec) (r : Outcome × TaskSpec)
    (r' : Nullable.Outcome × List σ) : Prop :=
  ∃ l, r.2 = b.setList tS l ∧ r' = (r.1.nullable, l.map f)

theorem Nulls.print (hnulls : b.Nulls b' f) (l : List τ) : b'.print (l.map f) = .ok () := by
  induction l with
  | nil => rfl
  | cons t l ih =>
    obtain ⟨s, hs⟩ := hnulls.getString t
    rw [List.map_cons, Nullable.TaskBranch.print, hs, ← ih]
    rfl

theorem Nulls.finish (hnulls : b.Nulls b' f) (outcome : Nullable.Outcome)
    (logged changed : List τ) :
    b'.finish outcome (logged.map f) (changed.map f) = (outcome, (b.sort changed).map f) := by
  unfold Nullable.TaskBranch.finish Nullable.TaskBranch.report
  rw [hnulls.sort]
  dsimp only
  rw [← List.map_append, hnulls.print]

section nulls
variable (hb : b.Separate compIdent) (hnulls : b.Nulls b' f) (tS : TaskSpec)
include hb

/-- An operation that leaves the state alone. -/
theorem agrees_refused (outcome : Outcome) :
    Agrees b f tS (outcome, tS) (outcome.nullable, (b.list tS).map f) :=
  ⟨b.list tS, (hb.setList_list tS).symm, rfl⟩

include hnulls

theorem addTask_agrees (task : Task) :
    Agrees b f tS (b.addTask task tS) (b'.addTask task.nullable ((b.list tS).map f)) := by
  unfold addTask Nullable.TaskBranch.addTask
  rw [hnulls.cast]
  cases b.cast task with
  | none => exact agrees_refused hb tS _
  | some t =>
    refine ⟨_, rfl, ?_⟩
    show b'.finish .done ([t].map f) ((b.list tS).map f ++ [t].map f) = _
    rw [← List.map_append, hnulls.finish]
    rfl

theorem deleteTask_agrees (pos : Nat) :
    Agrees b f tS (b.deleteTask pos tS) (b'.deleteTask pos ((b.list tS).map f)) := by
  unfold deleteTask Nullable.TaskBranch.deleteTask
  rw [List.getElem?_map]
  cases (b.list tS)[pos]? with
  | none => exact agrees_refused hb tS _
  | some t =>
    refine ⟨_, rfl, ?_⟩
    show b'.finish (.returned (some (b'.task (f t)))) ([t].map f) _ = _
    rw [List.eraseIdx_map, hnulls.finish, hnulls.task]
    rfl

omit hb in
theorem insert_agrees (pos : Nat) (t : τ) (removed : List τ) :
    Agrees b f tS (b.insert pos t removed tS) (b'.insert pos (f t) (removed.map f)) := by
  unfold insert Nullable.TaskBranch.insert
  rw [List.length_map]
  split
  · refine ⟨_, rfl, ?_⟩
    show b'.finish _ ([t].map f) _ = _
    rw [← List.map_insertIdx, hnulls.finish, hnulls.task]
    rfl
  · exact ⟨_, rfl, rfl⟩

theorem moveUp_agrees (pos : Nat) :
    Agrees b f tS (b.moveUp pos tS) (b'.moveUp pos ((b.list tS).map f)) := by
  unfold moveUp Nullable.TaskBranch.moveUp
  split
  · exact agrees_refused hb tS _
  · rw [List.getElem?_map, List.eraseIdx_map]
    cases (b.list tS)[pos]? with
    | none => exact agrees_refused hb tS _
    | some t => exact insert_agrees hnulls tS _ _ _

theorem moveDown_agrees (size pos : Nat) :
    Agrees b f tS (b.moveDown size pos tS) (b'.moveDown size pos ((b.list tS).map f)) := by
  unfold moveDown Nullable.TaskBranch.moveDown
  split
  · exact agrees_refused hb tS _
  · rw [List.getElem?_map, List.eraseIdx_map]
    cases (b.list tS)[pos]? with
    | none => exact agrees_refused hb tS _
    | some t => exact insert_agrees hnulls tS _ _ _

theorem updateTask_agrees (pos : Nat) (task : Task) :
    Agrees b f tS (b.updateTask b.resort pos task tS)
      (b'.updateTask pos task.nullable ((b.list tS).map f)) := by
  unfold updateTask Nullable.TaskBranch.updateTask
  rw [hnulls.cast]
  cases b.cast task with
  | none => exact agrees_refused hb tS _
  | some t =>
    rw [Option.map_some, List.getElem?_map]
    cases (b.list tS)[pos]? with
    | none => exact agrees_refused hb tS _
    | some old =>
      refine ⟨b.sort ((b.list tS).set pos t), ?_, ?_⟩
      · show b.resort _ = _
        rw [resort, hb.setList_setList, hb.list_setList]
      · show b'.finish (.returned (some (b'.task (f old)))) ([old, t].map f)
          (((b.list tS).map f).set pos (f t)) = _
        rw [← List.map_set, hnulls.finish, hnulls.task]
        rfl

theorem edit_agrees (size : TaskSpec → Nat) (op : EditOp) :
    Agrees b f tS (b.edit size b.resort op tS)
      (b'.edit (size tS) op.nullable ((b.list tS).map f)) := by
  cases op with
  | add task => exact addTask_agrees hb hnulls tS task
  | delete pos => exact deleteTask_agrees hb hnulls tS pos
  | update pos task => exact updateTask_agrees hb hnulls tS pos task
  | moveUp pos => exact moveUp_agrees hb hnulls tS pos
  | moveDown pos => exact moveDown_agrees hb hnulls tS (size tS) pos

end nulls

end TaskBranch

/-! ### All operations -/

theorem BttTask.compareTo_nullable (t btt : BttTask) :
    Nullable.BttTask.compareTo t.nullable btt.nullable = .ok (t.compareTo btt) := by
  show CheckedSort.thenBy (fun t btt => Nullable.compareTo Nullable.BttTask.situation btt t)
    (CheckedSort.thenBy (Nullable.compareTo Nullable.BttTask.configuration)
      (Nullable.compareTo Nullable.BttTask.place)) t.nullable btt.nullable = _
  exact CheckedSort.thenBy_ok rfl (CheckedSort.thenBy_ok rfl rfl)

theorem CttTask.compareTo_nullable (t ctt : CttTask) :
    Nullable.CttTask.compareTo t.nullable ctt.nullable = .ok (t.compareTo ctt) :=
  CheckedSort.thenBy_ok rfl (CheckedSort.thenBy_ok rfl rfl)

theorem BttTask.getString_nullable (t : BttTask) : ∃ s, t.nullable.getString = .ok s := by
  change ∃ s, (if t.configuration = " ".toList then pure _ else pure _) = Except.ok s
  split
  · exact ⟨_, rfl⟩
  · exact ⟨_, rfl⟩

theorem CttTask.getString_nullable (t : CttTask) : ∃ s, t.nullable.getString = .ok s := by
  change ∃ s, (if t.configuration = " ".toList ∨ t.configuration = [] then pure _ else pure _) =
    Except.ok s
  split
  · exact ⟨_, rfl⟩
  · exact ⟨_, rfl⟩

theorem bntBranch_nulls : bntBranch.Nulls Nullable.bntBranch id where
  cast task := by cases task <;> rfl
  task _ := rfl
  sort _ := rfl
  getString _ := ⟨_, rfl⟩

theorem bmtBranch_nulls : bmtBranch.Nulls Nullable.bmtBranch BmtTask.nullable where
  cast task := by cases task <;> rfl
  task _ := rfl
  sort _ := rfl
  getString _ := ⟨_, rfl⟩

theorem bttBranch_nulls : bttBranch.Nulls Nullable.bttBranch BttTask.nullable where
  cast task := by cases task <;> rfl
  task _ := rfl
  sort := checkedSort_map BttTask.compareTo_nullable
  getString := BttTask.getString_nullable

theorem cttBranch_nulls : cttBranch.Nulls Nullable.cttBranch CttTask.nullable where
  cast task := by cases task <;> rfl
  task _ := rfl
  sort := checkedSort_map CttTask.compareTo_nullable
  getString := CttTask.getString_nullable

theorem cbtBranch_nulls :
    (cbtBranch compiledOrders).Nulls Nullable.cbtBranch CbtTask.nullable where
  cast task := by cases task <;> rfl
  task _ := rfl
  sort := checkedSort_map fun _ _ => rfl
  getString _ := ⟨_, rfl⟩

theorem pptBranch_nulls :
    (pptBranch compiledOrders).Nulls Nullable.pptBranch PptTask.nullable where
  cast task := by cases task <;> rfl
  task _ := rfl
  sort := checkedSort_map fun _ _ => rfl
  getString _ := ⟨_, rfl⟩

theorem updateCtt_nullable (tS : TaskSpec) (pos : Nat) (task : Task) :
    tS.nullable.updateCtt pos task.nullable =
      ((cttBranch.updateTask bttBranch.resort pos task tS).1.nullable,
        (cttBranch.updateTask bttBranch.resort pos task tS).2.nullable) := by
  have hget : tS.nullable.cttTaskList[pos]? =
      (cttBranch.list tS)[pos]?.map CttTask.nullable := List.getElem?_map
  have hsort : Nullable.bttBranch.sort tS.nullable.bttTaskList =
      .ok ((bttBranch.sort tS.bttTaskList).map BttTask.nullable) := bttBranch_nulls.sort _
  unfold TaskBranch.updateTask Nullable.TaskSpec.updateCtt
  rw [cttBranch_nulls.cast, hget, hsort]
  cases cttBranch.cast task with
  | none => rfl
  | some t =>
    cases (cttBranch.list tS)[pos]? with
    | none => rfl
    | some old =>
      have hprint : Nullable.cttBranch.print ([old.nullable, t.nullable] ++
          tS.nullable.cttTaskList.set pos t.nullable) = .ok () := by
        have h := cttBranch_nulls.print ([old, t] ++ tS.cttTaskList.set pos t)
        rwa [List.map_append, List.map_set] at h
      have hchanged : tS.nullable.cttTaskList.set pos t.nullable =
          (tS.cttTaskList.set pos t).map CttTask.nullable := List.map_set.symm
      simp only [Option.map_some, Nullable.TaskBranch.report, hprint]
      rw [hchanged]
      rfl

/-- An operation of a branch that sorts its own list and reads its own size. -/
theorem TaskBranch.edit_own_nullable {τ σ : Type} {b : TaskBranch τ} {b' : Nullable.TaskBranch σ}
    {f : τ → σ} {compIdent : CompetitionIdentifier} (hb : b.Separate compIdent)
    (hnulls : b.Nulls b' f) (tS : TaskSpec) (op : EditOp)
    {set : Nullable.Outcome × List σ → Nullable.Outcome × Nullable.TaskSpec}
    (hset : ∀ outcome l, set (outcome, l.map f) = (outcome, (b.setList tS l).nullable)) :
    set (b'.edit ((b.list tS).map f).length op.nullable ((b.list tS).map f)) =
      ((b.edit (fun tS => (b.list tS).length) b.resort op tS).1.nullable,
        (b.edit (fun tS => (b.list tS).length) b.resort op tS).2.nullable) := by
  obtain ⟨l, hl, h⟩ := edit_agrees hb hnulls tS (fun tS => (b.list tS).length) op
  rw [List.length_map, hl, ← hset]
  exact congrArg set h

/-- **On tasks whose fields are set** the operations are those on nullable tasks. -/
theorem edit_nullable (tS : TaskSpec) (compIdent : CompetitionIdentifier) (op : EditOp) :
    tS.nullable.edit compIdent op.nullable =
      ((tS.edit compiledOrders compIdent op).1.nullable,
        (tS.edit compiledOrders compIdent op).2.nullable) := by
  cases compIdent with
  | bnt =>
    have hedit : tS.edit compiledOrders .bnt op =
        bntBranch.edit (fun tS => tS.bntTaskList.length) bntBranch.resort op tS := by
      cases op <;> rfl
    rw [hedit, Nullable.edit_bnt]
    exact TaskBranch.edit_own_nullable bntBranch_separate bntBranch_nulls tS op fun _ _ => rfl
  | bmt =>
    have hedit : tS.edit compiledOrders .bmt op =
        bmtBranch.edit (fun tS => tS.bmtTaskList.length) bmtBranch.resort op tS := by
      cases op <;> rfl
    rw [hedit, Nullable.edit_bmt]
    exact TaskBranch.edit_own_nullable bmtBranch_separate bmtBranch_nulls tS op fun _ _ => rfl
  | btt =>
    have hedit : tS.edit compiledOrders .btt op =
        bttBranch.edit (fun tS => tS.bttTaskList.length) bttBranch.resort op tS := by
      cases op <;> rfl
    rw [hedit, Nullable.edit_btt]
    exact TaskBranch.edit_own_nullable bttBranch_separate bttBranch_nulls tS op fun _ _ => rfl
  | ctt =>
    by_cases hop : ∃ pos task, op = .update pos task
    · obtain ⟨pos, task, rfl⟩ := hop
      exact updateCtt_nullable tS pos task
    · have hother : ∀ pos task, op.nullable ≠ .update pos task := by
        intro pos task h
        cases op with
        | update pos task => exact hop ⟨pos, task, rfl⟩
        | add task | delete pos | moveUp pos | moveDown pos => cases h
      -- the other cases do not look at the sort of the BTT list
      have hedit : tS.edit compiledOrders .ctt op =
          cttBranch.edit (fun tS => tS.bttTaskList.length) cttBranch.resort op tS := by
        cases op with
        | update pos task => exact absurd ⟨pos, task, rfl⟩ hop
        | add task | delete pos | moveUp pos | moveDown pos => rfl
      obtain ⟨l, hl, h⟩ := TaskBranch.edit_agrees cttBranch_separate cttBranch_nulls tS
        (fun tS => tS.bttTaskList.length) op
      rw [hedit, Nullable.edit_ctt _ _ hother, hl]
      show tS.nullable.setCtt (Nullable.cttBranch.edit (tS.bttTaskList.map _).length _ _) = _
      rw [List.length_map]
      exact congrArg tS.nullable.setCtt h
  | cbt =>
    have hedit : tS.edit compiledOrders .cbt op =
        (cbtBranch compiledOrders).edit (fun tS => tS.cbtTaskList.length)
          (cbtBranch compiledOrders).resort op tS := by
      cases op <;> rfl
    rw [hedit, Nullable.edit_cbt]
    exact TaskBranch.edit_own_nullable (cbtBranch_separate _) cbtBranch_nulls tS op fun _ _ => rfl
  | ppt =>
    have hedit : tS.edit compiledOrders .ppt op =
        (pptBranch compiledOrders).edit (fun tS => tS.pptTaskList.length)
          (pptBranch compiledOrders).resort op tS := by
      cases op <;> rfl
    rw [hedit, Nullable.edit_ppt]
    exact TaskBranch.edit_own_nullable (pptBranch_separate _) pptBranch_nulls tS op fun _ _ => rfl

end RefereeBox
