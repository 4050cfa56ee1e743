import RefereeBox.Editing.Branches

/-! # When an Editing Operation Succeeds

  An operation succeeds on the rows and tasks that it applies to, and leaves
  the whole state alone on any other ones. The exceptional case of `moveDown`
  is the only one that fails with a change.
-/

namespace RefereeBox

/-- The method returns, and does not return null. -/
def Outcome.succeeds : Outcome → Bool
  | .done => true
  | .returned t => t.isSome
  | .threw _ => false

/-- The operation succeeds if `applies` holds, else it leaves the state alone. -/
def AllOrNothing (applies : Prop) (tS : TaskSpec) (r : Outcome × TaskSpec) : Prop :=
  (applies → r.1.succeeds = true) ∧ (¬ applies → r.1.succeeds = false ∧ r.2 = tS)

theorem AllOrNothing.success {applies : Prop} {tS tS' : TaskSpec} {outcome : Outcome}
    (happlies : applies) (h : outcome.succeeds = true) :
    AllOrNothing applies tS (outcome, tS') :=
  ⟨fun _ => h, fun hnot => absurd happlies hnot⟩

theorem AllOrNothing.failure {applies : Prop} {tS : TaskSpec} {outcome : Outcome}
    (hnot : ¬ applies) (h : outcome.succeeds = false) : AllOrNothing applies tS (outcome, tS) :=
  ⟨fun happlies => absurd happlies hnot, fun _ => ⟨h, rfl⟩⟩

/-! ### One branch -/

namespace TaskBranch

variable {τ : Type} {b : TaskBranch τ} {compIdent : CompetitionIdentifier} (tS : TaskSpec)

/-- The tasks that an operation of the branch applies to, with the size that
    `moveDown` reads. -/
def Applies (b : TaskBranch τ) (size : TaskSpec → Nat) (tS : TaskSpec) : EditOp → Prop
  | .add task => (b.cast task).isSome = true
  | .delete pos => pos < (b.list tS).length
  | .update pos task => (b.cast task).isSome = true ∧ pos < (b.list tS).length
  | .moveUp pos => 0 < pos ∧ pos < (b.list tS).length
  | .moveDown pos => pos + 1 < (b.list tS).length ∧ size tS ≠ pos + 1

theorem addTask_all (b : TaskBranch τ) (size : TaskSpec → Nat) (task : Task) :
    AllOrNothing (b.Applies size tS (.add task)) tS (b.addTask task tS) := by
  show AllOrNothing ((b.cast task).isSome = true) tS _
  unfold addTask
  cases hcast : b.cast task with
  | none => exact .failure (by simp) rfl
  | some t => exact .success (by simp) rfl

theorem deleteTask_all (b : TaskBranch τ) (size : TaskSpec → Nat) (pos : Nat) :
    AllOrNothing (b.Applies size tS (.delete pos)) tS (b.deleteTask pos tS) := by
  show AllOrNothing (pos < (b.list tS).length) tS _
  unfold deleteTask
  cases hget : (b.list tS)[pos]? with
  | none => exact .failure (Nat.not_lt.mpr (List.getElem?_eq_none_iff.mp hget)) rfl
  | some t => exact .success (List.getElem?_eq_some_iff.mp hget).1 rfl

theorem updateTask_all (b : TaskBranch τ) (size : TaskSpec → Nat) (resort : TaskSpec → TaskSpec)
    (pos : Nat) (task : Task) :
    AllOrNothing (b.Applies size tS (.update pos task)) tS (b.updateTask resort pos task tS) := by
  show AllOrNothing ((b.cast task).isSome = true ∧ pos < (b.list tS).length) tS _
  unfold updateTask
  cases hcast : b.cast task with
  | none => exact .failure (fun h => absurd h.1 (by simp)) rfl
  | some t =>
    cases hget : (b.list tS)[pos]? with
    | none =>
      exact .failure (fun h => absurd h.2 (Nat.not_lt.mpr (List.getElem?_eq_none_iff.mp hget))) rfl
    | some old => exact .success ⟨rfl, (List.getElem?_eq_some_iff.mp hget).1⟩ rfl

theorem moveUp_all (b : TaskBranch τ) (size : TaskSpec → Nat) (pos : Nat) :
    AllOrNothing (b.Applies size tS (.moveUp pos)) tS (b.moveUp pos tS) := by
  show AllOrNothing (0 < pos ∧ pos < (b.list tS).length) tS _
  unfold moveUp
  by_cases hzero : pos = 0
  · rw [if_pos hzero]
    exact .failure (fun h => by omega) rfl
  · rw [if_neg hzero]
    cases hget : (b.list tS)[pos]? with
    | none =>
      exact .failure (fun h => absurd h.2 (Nat.not_lt.mpr (List.getElem?_eq_none_iff.mp hget))) rfl
    | some t =>
      have hpos := (List.getElem?_eq_some_iff.mp hget).1
      have hlen := List.length_eraseIdx_of_lt hpos
      -- the row above exists, so the task is put back
      dsimp only
      rw [insert, if_pos (by omega)]
      exact .success ⟨by omega, hpos⟩ rfl

theorem moveDown_all (b : TaskBranch τ) (size : TaskSpec → Nat) (pos : Nat)
    (hlast : ¬ ((b.list tS).length = pos + 1 ∧ size tS ≠ pos + 1)) :
    AllOrNothing (b.Applies size tS (.moveDown pos)) tS (b.moveDown (size tS) pos tS) := by
  show AllOrNothing (pos + 1 < (b.list tS).length ∧ size tS ≠ pos + 1) tS _
  unfold moveDown
  by_cases hsize : size tS = pos + 1
  · rw [if_pos hsize]
    exact .failure (fun h => h.2 hsize) rfl
  · rw [if_neg hsize]
    cases hget : (b.list tS)[pos]? with
    | none =>
      have hlen := List.getElem?_eq_none_iff.mp hget
      exact .failure (fun h => by omega) rfl
    | some t =>
      have hpos := (List.getElem?_eq_some_iff.mp hget).1
      have hlen := List.length_eraseIdx_of_lt hpos
      -- the task is not the last one, so it is put back
      have hrow : pos + 1 < (b.list tS).length := by omega
      dsimp only
      rw [insert, if_pos (by omega)]
      exact .success ⟨hrow, hsize⟩ rfl

theorem edit_all (b : TaskBranch τ) (size : TaskSpec → Nat) (resort : TaskSpec → TaskSpec)
    (op : EditOp)
    (hlast : ¬ ∃ pos, op = .moveDown pos ∧ (b.list tS).length = pos + 1 ∧ size tS ≠ pos + 1) :
    AllOrNothing (b.Applies size tS op) tS (b.edit size resort op tS) := by
  cases op with
  | add task => exact addTask_all tS b size task
  | delete pos => exact deleteTask_all tS b size pos
  | update pos task => exact updateTask_all tS b size resort pos task
  | moveUp pos => exact moveUp_all tS b size pos
  | moveDown pos => exact moveDown_all tS b size pos fun h => hlast ⟨pos, rfl, h⟩

theorem Separate.cast_isSome_iff (hb : b.Separate compIdent) (task : Task) :
    (b.cast task).isSome = true ↔ task.competition = compIdent := by
  refine ⟨fun h => ?_, hb.cast_isSome task⟩
  obtain ⟨t, ht⟩ := Option.isSome_iff_exists.mp h
  obtain rfl := hb.cast_some task t ht
  exact hb.competition_task t

end TaskBranch

/-! ### All operations -/

/-- The rows and tasks that an operation applies to. Down in CTT is refused at the
    row that is the last one of the BTT list. -/
def EditOp.Applies (compIdent : CompetitionIdentifier) (tS : TaskSpec) : EditOp → Prop
  | .add task => task.competition = compIdent
  | .delete pos => pos < (tS.tasks compIdent).length
  | .update pos task => task.competition = compIdent ∧ pos < (tS.tasks compIdent).length
  | .moveUp pos => 0 < pos ∧ pos < (tS.tasks compIdent).length
  | .moveDown pos => pos + 1 < (tS.tasks compIdent).length ∧
      (compIdent = .ctt → tS.bttTaskList.length ≠ pos + 1)

theorem EditOp.applies_iff {τ : Type} {b : TaskBranch τ} {compIdent : CompetitionIdentifier}
    (hb : b.Separate compIdent) (size : TaskSpec → Nat) {tS : TaskSpec} (op : EditOp)
    (hsize : ∀ pos, pos + 1 < (b.list tS).length →
      (size tS ≠ pos + 1 ↔ (compIdent = .ctt → tS.bttTaskList.length ≠ pos + 1))) :
    op.Applies compIdent tS ↔ b.Applies size tS op := by
  have hlen := TaskBranch.length_tasks hb.toLawful tS
  cases op with
  | add task => exact (hb.cast_isSome_iff task).symm
  | delete pos => exact iff_of_eq (congrArg (pos < ·) hlen)
  | update pos task =>
    exact and_congr (hb.cast_isSome_iff task).symm (iff_of_eq (congrArg (pos < ·) hlen))
  | moveUp pos => exact and_congr_right fun _ => iff_of_eq (congrArg (pos < ·) hlen)
  | moveDown pos =>
    show _ < (tS.tasks compIdent).length ∧ _ ↔ _
    rw [hlen]
    exact and_congr_right fun hpos => (hsize pos hpos).symm

/-- An operation succeeds where it applies, and changes nothing elsewhere, unless
    it loses the last task. -/
theorem edit_allOrNothing (orders : TaskOrders) {tS : TaskSpec}
    {compIdent : CompetitionIdentifier} {op : EditOp} (hlast : ¬ LosesLast tS compIdent op) :
    AllOrNothing (op.Applies compIdent tS) tS (tS.edit orders compIdent op) := by
  by_cases hctt : compIdent = .ctt
  · subst hctt
    rw [edit_ctt, EditOp.applies_iff cttBranch_separate (fun tS => tS.bttTaskList.length) op
      fun _ _ => ⟨fun h _ => h, fun h => h rfl⟩]
    apply TaskBranch.edit_all
    rintro ⟨pos, hop, hlen, hsize⟩
    exact hlast ⟨pos, hop, rfl, hlen, hsize⟩
  · obtain ⟨τ, b, hb, hedit⟩ := exists_branch orders hctt
    rw [hedit, EditOp.applies_iff hb (fun tS => (b.list tS).length) op fun pos hpos =>
      iff_of_true (by omega) fun h => absurd h hctt]
    apply TaskBranch.edit_all
    rintro ⟨pos, -, hlen, hsize⟩
    exact hsize hlen

/-- In the exceptional case the last task is removed, and then the insertion
    fails. -/
theorem LosesLast.edit_eq (orders : TaskOrders) {tS : TaskSpec} {compIdent : CompetitionIdentifier}
    {op : EditOp} (h : LosesLast tS compIdent op) :
    tS.edit orders compIdent op =
      (.threw .indexOutOfBounds, { tS with cttTaskList := tS.cttTaskList.dropLast }) := by
  obtain ⟨pos, rfl, rfl, hlen, hsize⟩ := h
  rw [edit_ctt]
  show cttBranch.moveDown tS.bttTaskList.length pos tS = _
  have hpos : pos < tS.cttTaskList.length := by omega
  have hget : (cttBranch.list tS)[pos]? = some tS.cttTaskList[pos] := List.getElem?_eq_getElem hpos
  have herase := List.length_eraseIdx_of_lt hpos
  have hnot : ¬ pos + 1 ≤ (tS.cttTaskList.eraseIdx pos).length := by omega
  have hdrop : tS.cttTaskList.eraseIdx pos = tS.cttTaskList.dropLast := by
    rw [← List.eraseIdx_length_sub_one]
    congr 1
    omega
  unfold TaskBranch.moveDown
  rw [if_neg hsize, hget]
  show cttBranch.insert (pos + 1) _ (tS.cttTaskList.eraseIdx pos) tS = _
  rw [TaskBranch.insert, if_neg hnot, hdrop]
  rfl

/-- So the operation fails, too. -/
theorem LosesLast.not_succeeds (orders : TaskOrders) {tS : TaskSpec}
    {compIdent : CompetitionIdentifier} {op : EditOp} (h : LosesLast tS compIdent op) :
    (tS.edit orders compIdent op).1.succeeds = false := by
  rw [h.edit_eq orders]
  rfl

/-- Where an operation applies, it succeeds. Where it does not, it fails, and only
    the exceptional case leaves another state. -/
theorem edit_cases (orders : TaskOrders) (tS : TaskSpec) (compIdent : CompetitionIdentifier)
    (op : EditOp) :
    (op.Applies compIdent tS ∧ (tS.edit orders compIdent op).1.succeeds = true) ∨
      (¬ op.Applies compIdent tS ∧ (tS.edit orders compIdent op).1.succeeds = false ∧
        (¬ LosesLast tS compIdent op → (tS.edit orders compIdent op).2 = tS)) := by
  by_cases hlast : LosesLast tS compIdent op
  · refine Or.inr ⟨?_, hlast.not_succeeds orders, fun h => absurd hlast h⟩
    obtain ⟨pos, rfl, rfl, hlen, -⟩ := hlast
    rintro ⟨hpos, -⟩
    -- the row is the last one
    have htasks : (tS.tasks .ctt).length = tS.cttTaskList.length := List.length_map _
    omega
  · have hall := edit_allOrNothing orders hlast
    by_cases happlies : op.Applies compIdent tS
    · exact Or.inl ⟨happlies, hall.1 happlies⟩
    · exact Or.inr ⟨happlies, (hall.2 happlies).1, fun _ => (hall.2 happlies).2⟩

/-! ### The tasks behind an operation -/

/-- The tasks that an operation is given. -/
def EditOp.given : EditOp → List Task
  | .add task => [task]
  | .update _ task => [task]
  | _ => []

namespace TaskBranch

variable {τ : Type} {b : TaskBranch τ} {compIdent : CompetitionIdentifier}
  (hb : b.Lawful compIdent) {tS : TaskSpec} {t : Task}
include hb

/-- The tasks of a list that is sorted and put into the state. -/
theorem Lawful.mem_setList_sort {l : List τ}
    (h : t ∈ (b.setList tS (b.sort l)).tasks compIdent) : t ∈ l.map b.task := by
  rw [hb.tasks_setList] at h
  exact ((hb.sort_perm l).map b.task).mem_iff.mp h

theorem mem_insert {pos pos' : Nat} {t' : τ} (hget : (b.list tS)[pos]? = some t')
    (h : t ∈ (b.insert pos' t' ((b.list tS).eraseIdx pos) tS).2.tasks compIdent) :
    t ∈ tS.tasks compIdent := by
  rw [hb.tasks]
  unfold insert at h
  split at h
  · obtain ⟨a, ha, rfl⟩ := List.mem_map.mp (hb.mem_setList_sort h)
    apply List.mem_map_of_mem
    obtain rfl | ha := List.eq_or_mem_of_mem_insertIdx ha
    · exact List.mem_of_getElem? hget
    · exact List.mem_of_mem_eraseIdx ha
  · rw [hb.tasks_setList] at h
    obtain ⟨a, ha, rfl⟩ := List.mem_map.mp h
    exact List.mem_map_of_mem (List.mem_of_mem_eraseIdx ha)

theorem mem_edit {size : TaskSpec → Nat} {resort : TaskSpec → TaskSpec}
    (hresort : ∀ tS : TaskSpec, ((resort tS).tasks compIdent).Perm (tS.tasks compIdent))
    (op : EditOp) (h : t ∈ (b.edit size resort op tS).2.tasks compIdent) :
    t ∈ tS.tasks compIdent ∨ t ∈ op.given := by
  cases op with
  | add task =>
    change t ∈ (b.addTask task tS).2.tasks compIdent at h
    unfold addTask at h
    cases hcast : b.cast task with
    | none =>
      rw [hcast] at h
      exact .inl h
    | some t' =>
      rw [hcast] at h
      have hmem := hb.mem_setList_sort h
      rw [List.map_append, ← hb.tasks] at hmem
      obtain rfl := hb.cast_some task t' hcast
      exact List.mem_append.mp hmem
  | delete pos =>
    change t ∈ (b.deleteTask pos tS).2.tasks compIdent at h
    unfold deleteTask at h
    split at h
    · exact .inl h
    · obtain ⟨a, ha, rfl⟩ := List.mem_map.mp (hb.mem_setList_sort h)
      rw [hb.tasks]
      exact .inl (List.mem_map_of_mem (List.mem_of_mem_eraseIdx ha))
  | update pos task =>
    change t ∈ (b.updateTask resort pos task tS).2.tasks compIdent at h
    unfold updateTask at h
    cases hcast : b.cast task with
    | none =>
      rw [hcast] at h
      exact .inl h
    | some t' =>
      rw [hcast] at h
      dsimp only at h
      split at h
      · exact .inl h
      · have hmem := (hresort _).mem_iff.mp h
        rw [hb.tasks_setList] at hmem
        obtain ⟨a, ha, rfl⟩ := List.mem_map.mp hmem
        obtain rfl := hb.cast_some task t' hcast
        rw [hb.tasks]
        refine (List.mem_or_eq_of_mem_set ha).imp List.mem_map_of_mem fun ha => ?_
        exact List.mem_singleton.mpr (congrArg b.task ha)
  | moveUp pos =>
    change t ∈ (b.moveUp pos tS).2.tasks compIdent at h
    unfold moveUp at h
    split at h
    · exact .inl h
    · split at h
      · exact .inl h
      · next hget => exact .inl (mem_insert hb hget h)
  | moveDown pos =>
    change t ∈ (b.moveDown (size tS) pos tS).2.tasks compIdent at h
    unfold moveDown at h
    split at h
    · exact .inl h
    · split at h
      · exact .inl h
      · next hget => exact .inl (mem_insert hb hget h)

end TaskBranch

/-- Behind an operation there are tasks from before and tasks that it was given, in
    all cases. -/
theorem mem_edit (orders : TaskOrders) (tS : TaskSpec) (compIdent : CompetitionIdentifier)
    (op : EditOp) {t : Task} (h : t ∈ (tS.edit orders compIdent op).2.tasks compIdent) :
    t ∈ tS.tasks compIdent ∨ t ∈ op.given := by
  by_cases hctt : compIdent = .ctt
  · subst hctt
    -- the sort of the BTT list does not touch the CTT list
    have hresort : ∀ tS : TaskSpec, ((bttBranch.resort tS).tasks .ctt).Perm (tS.tasks .ctt) :=
      fun _ => List.Perm.refl _
    rw [edit_ctt] at h
    exact TaskBranch.mem_edit cttBranch_lawful hresort op h
  · obtain ⟨τ, b, hb, hedit⟩ := exists_branch orders hctt
    rw [hedit] at h
    exact TaskBranch.mem_edit hb.toLawful (TaskBranch.resort_perm hb.toLawful) op h

/-! ### The results of the operations -/

/-- Only `addTask` is void. -/
theorem TaskBranch.edit_ne_done {τ : Type} (b : TaskBranch τ) (size : TaskSpec → Nat)
    (resort : TaskSpec → TaskSpec) {op : EditOp} (hop : ∀ task, op ≠ .add task) (tS : TaskSpec) :
    (b.edit size resort op tS).1 ≠ .done := by
  cases op with
  | add task => exact absurd rfl (hop task)
  | delete pos =>
    show (b.deleteTask pos tS).1 ≠ .done
    unfold TaskBranch.deleteTask
    split <;> simp
  | update pos task =>
    show (b.updateTask resort pos task tS).1 ≠ .done
    unfold TaskBranch.updateTask
    split
    · simp
    · split <;> simp
  | moveUp pos =>
    show (b.moveUp pos tS).1 ≠ .done
    unfold TaskBranch.moveUp TaskBranch.insert
    split
    · simp
    · split
      · simp
      · split <;> simp
  | moveDown pos =>
    show (b.moveDown (size tS) pos tS).1 ≠ .done
    unfold TaskBranch.moveDown TaskBranch.insert
    split
    · simp
    · split
      · simp
      · split <;> simp

theorem edit_ne_done (orders : TaskOrders) (tS : TaskSpec) (compIdent : CompetitionIdentifier)
    {op : EditOp} (hop : ∀ task, op ≠ .add task) : (tS.edit orders compIdent op).1 ≠ .done := by
  by_cases hctt : compIdent = .ctt
  · subst hctt
    rw [edit_ctt]
    exact TaskBranch.edit_ne_done _ _ _ hop tS
  · obtain ⟨τ, b, -, hedit⟩ := exists_branch orders hctt
    rw [hedit]
    exact TaskBranch.edit_ne_done _ _ _ hop tS

end RefereeBox
