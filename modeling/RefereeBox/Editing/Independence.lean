import RefereeBox.Editing.Outcomes
import RefereeBox.Model.TaskStates
import RefereeBox.Text.Rejection
import RefereeBox.Text.XmlBtt

/-! # The Competitions Are Independent

  An operation on one competition is independent of the others if it leaves
  them as they are, and if its result and the list it leaves behind are those
  of every other state with the same list (`Independent`). All branches of the
  switches are: they work on their list alone (`TaskBranch.Local`).

  Three operations are not made of the branches of their own competition only.
  `resetStates` falls through into the competitions behind its own, `updateTask`
  on CTT sorts the BTT list, and `moveDown` on CTT reads the size of the BTT
  list.
-/

namespace RefereeBox

open Loop

/-! ### Operations on a competition -/

/-- The operations of `TaskSpec` on one competition. -/
inductive SpecOp where
  | edit (op : EditOp)
  | setTaskState (tripletIndex column : Nat)
  | resetStates
  | parseTaskSpecString (tSpecStr : Text)
deriving DecidableEq, Repr

/-- What an operation returns: `parseTaskSpecString` a truth value, or an
    exception. -/
abbrev Returned : Type := Outcome ⊕ Except Exn Bool

/-- Run an operation on a competition; a line names its competition itself. -/
def SpecOp.run (orders : TaskOrders) (vte : ValidTaskElements) (c : CompetitionIdentifier)
    (op : SpecOp) (tS : TaskSpec) : Prog (Returned × TaskSpec) :=
  match op with
  | .edit op => pure ((tS.edit orders c op).map Sum.inl id)
  | .setTaskState tripletIndex column =>
    pure ((tS.setTaskState orders tripletIndex column c).map Sum.inl id)
  | .resetStates => pure (.inl .done, tS.resetStates orders c)
  | .parseTaskSpecString tSpecStr => do
    let (outcome, tS') ← tS.parseTaskSpecString vte tSpecStr
    pure (.inr outcome, tS')

/-- The operation is one on the competition `c`. -/
def SpecOp.IsOn (c : CompetitionIdentifier) : SpecOp → Prop
  | .parseTaskSpecString tSpecStr => competitionIn tSpecStr = some c
  | _ => True

/-- What belongs to a competition: its tasks with their states and, in BMT, the
    static fields that all tasks share. -/
def TaskSpec.content (tS : TaskSpec) (c : CompetitionIdentifier) : List Task × BmtStatics :=
  (tS.tasks c, if c = .bmt then tS.bmtStatics else {})

/-- From the state `tS` the run ends, the other competitions are left as they
    are, and every state in which `c` has the same content gives the same
    result and the same content of `c`. -/
def Independent {ρ : Type} (run : TaskSpec → Prog (ρ × TaskSpec)) (c : CompetitionIdentifier)
    (tS : TaskSpec) : Prop :=
  ∃ r tS', Converges (run tS) (r, tS') ∧
    (∀ other, other ≠ c → tS'.content other = tS.content other) ∧
    ∀ tS₂ : TaskSpec, tS₂.content c = tS.content c →
      ∃ tS₂', Converges (run tS₂) (r, tS₂') ∧ tS₂'.content c = tS'.content c

/-- The states in which an operation keeps to its competition. -/
def SpecOp.Separates (c : CompetitionIdentifier) (tS : TaskSpec) : SpecOp → Prop
  | .edit (.update pos task) => c = .ctt → EditOp.Applies c tS (.update pos task) →
      BttTask.Sorted tS.bttTaskList
  | .edit (.moveDown _) => c ≠ .ctt
  | .resetStates => ∀ other ∈ TaskSpec.casesFrom c, other ≠ c →
      ∀ t ∈ tS.tasks other, t.getState = .init
  | _ => True

/-! ### Content -/

theorem TaskSpec.content_ext {tS tS' : TaskSpec} {c : CompetitionIdentifier}
    (htasks : tS'.tasks c = tS.tasks c) (hstatics : c = .bmt → tS'.bmtStatics = tS.bmtStatics) :
    tS'.content c = tS.content c := by
  unfold TaskSpec.content
  rw [htasks]
  by_cases hc : c = .bmt
  · rw [if_pos hc, if_pos hc, hstatics hc]
  · rw [if_neg hc, if_neg hc]

theorem TaskSpec.content_eq_iff {tS tS' : TaskSpec} {c : CompetitionIdentifier} :
    tS'.content c = tS.content c ↔
      tS'.tasks c = tS.tasks c ∧ (c = .bmt → tS'.bmtStatics = tS.bmtStatics) := by
  refine ⟨fun h => ⟨congrArg Prod.fst h, fun hc => ?_⟩, fun h => content_ext h.1 h.2⟩
  have hsnd := congrArg Prod.snd h
  unfold TaskSpec.content at hsnd
  rwa [if_pos hc, if_pos hc] at hsnd

/-- An operation without loops has one result. -/
theorem independent_pure_iff {ρ : Type} (G : TaskSpec → ρ × TaskSpec) (c : CompetitionIdentifier)
    (tS : TaskSpec) :
    Independent (fun tS => pure (G tS)) c tS ↔
      (∀ other, other ≠ c → (G tS).2.content other = tS.content other) ∧
        ∀ tS₂ : TaskSpec, tS₂.content c = tS.content c →
          (G tS₂).1 = (G tS).1 ∧ (G tS₂).2.content c = (G tS).2.content c := by
  constructor
  · rintro ⟨r, tS', hconv, hframe, hlocal⟩
    -- a program returns one value
    have hrun := (converges_pure (G tS)).unique hconv
    rw [hrun]
    refine ⟨hframe, fun tS₂ h => ?_⟩
    obtain ⟨tS₂', hconv₂, hcontent⟩ := hlocal tS₂ h
    rw [(converges_pure (G tS₂)).unique hconv₂]
    exact ⟨rfl, hcontent⟩
  · rintro ⟨hframe, hlocal⟩
    refine ⟨(G tS).1, (G tS).2, converges_pure _, hframe, fun tS₂ h => ?_⟩
    obtain ⟨hresult, hcontent⟩ := hlocal tS₂ h
    refine ⟨(G tS₂).2, ?_, hcontent⟩
    rw [← hresult]
    exact converges_pure _

/-! ### One branch -/

namespace TaskBranch

variable {τ : Type} {b : TaskBranch τ} {c : CompetitionIdentifier}

/-- The operation is one on the list of the branch. -/
def Local (b : TaskBranch τ) (F : TaskSpec → Outcome × TaskSpec) : Prop :=
  ∃ g : List τ → Outcome × List τ,
    ∀ tS, F tS = ((g (b.list tS)).1, b.setList tS (g (b.list tS)).2)

theorem Separate.content_other (hb : b.Separate c) (tS : TaskSpec) (l : List τ)
    {other : CompetitionIdentifier} (hne : other ≠ c) :
    (b.setList tS l).content other = tS.content other :=
  TaskSpec.content_ext (hb.tasks_other tS l other hne) fun _ => hb.statics tS l

/-- The content of the competition determines the list. -/
theorem Separate.list_eq (hb : b.Separate c) {tS tS₂ : TaskSpec}
    (h : tS₂.content c = tS.content c) : b.list tS₂ = b.list tS := by
  have htasks := (TaskSpec.content_eq_iff.mp h).1
  rw [hb.tasks, hb.tasks] at htasks
  refine List.map_injective_iff.mpr (fun t t' heq => ?_) htasks
  have hcast := congrArg b.cast heq
  rw [hb.cast_task, hb.cast_task] at hcast
  exact Option.some.inj hcast

theorem Separate.content_own (hb : b.Separate c) {tS tS₂ : TaskSpec}
    (h : tS₂.content c = tS.content c) (l : List τ) :
    (b.setList tS₂ l).content c = (b.setList tS l).content c := by
  refine TaskSpec.content_ext ?_ fun hc => ?_
  · rw [hb.tasks_setList, hb.tasks_setList]
  · rw [hb.statics, hb.statics]
    exact (TaskSpec.content_eq_iff.mp h).2 hc

/-- An operation on the list of the branch is independent of everything else. -/
theorem Separate.independent (hb : b.Separate c) {F : TaskSpec → Outcome × TaskSpec}
    (hF : b.Local F) (tS : TaskSpec) :
    Independent (fun tS => pure ((F tS).map (Sum.inl (β := Except Exn Bool)) id)) c tS := by
  obtain ⟨g, hg⟩ := hF
  -- the frame is that of `setList`; the list decides the rest
  obtain rfl : F = fun tS => ((g (b.list tS)).1, b.setList tS (g (b.list tS)).2) := funext hg
  refine (independent_pure_iff _ c tS).mpr ⟨fun other hne => hb.content_other tS _ hne, ?_⟩
  intro tS₂ h
  dsimp only [Prod.map_fst, Prod.map_snd, id_eq]
  rw [hb.list_eq h]
  exact ⟨rfl, hb.content_own h _⟩

/-! ### Every branch is local -/

section operations
variable (hb : b.Separate c)
include hb

theorem addTask_local (task : Task) : b.Local (b.addTask task) := by
  refine ⟨fun l => (b.cast task).elim (.threw .classCast, l) fun t =>
    (.done, b.sort (l ++ [t])), fun tS => ?_⟩
  unfold addTask
  cases b.cast task with
  | none => simp only [Option.elim_none, hb.setList_list]
  | some t => rfl

theorem deleteTask_local (pos : Nat) : b.Local (b.deleteTask pos) := by
  refine ⟨fun l => l[pos]?.elim (.threw .indexOutOfBounds, l) fun t =>
    (.returned (some (b.task t)), b.sort (l.eraseIdx pos)), fun tS => ?_⟩
  unfold deleteTask
  dsimp only
  cases (b.list tS)[pos]? with
  | none => simp only [Option.elim_none, hb.setList_list]
  | some t => rfl

theorem moveUp_local (pos : Nat) : b.Local (b.moveUp pos) := by
  refine ⟨fun l =>
    if pos = 0 then (.returned none, l)
    else l[pos]?.elim (.threw .indexOutOfBounds, l) fun t =>
      if pos - 1 ≤ (l.eraseIdx pos).length then
        (.returned (some (b.task t)), b.sort ((l.eraseIdx pos).insertIdx (pos - 1) t))
      else (.threw .indexOutOfBounds, l.eraseIdx pos), fun tS => ?_⟩
  unfold moveUp insert
  by_cases hzero : pos = 0
  · simp only [if_pos hzero, hb.setList_list]
  · simp only [if_neg hzero]
    cases (b.list tS)[pos]? with
    | none => simp only [Option.elim_none, hb.setList_list]
    | some t =>
      simp only [Option.elim_some]
      split <;> rfl

theorem moveDown_local (pos : Nat) :
    b.Local (fun tS => b.moveDown (b.list tS).length pos tS) := by
  refine ⟨fun l =>
    if l.length = pos + 1 then (.returned none, l)
    else l[pos]?.elim (.threw .indexOutOfBounds, l) fun t =>
      if pos + 1 ≤ (l.eraseIdx pos).length then
        (.returned (some (b.task t)), b.sort ((l.eraseIdx pos).insertIdx (pos + 1) t))
      else (.threw .indexOutOfBounds, l.eraseIdx pos), fun tS => ?_⟩
  unfold moveDown insert
  by_cases hlast : (b.list tS).length = pos + 1
  · simp only [if_pos hlast, hb.setList_list]
  · simp only [if_neg hlast]
    cases (b.list tS)[pos]? with
    | none => simp only [Option.elim_none, hb.setList_list]
    | some t =>
      simp only [Option.elim_some]
      split <;> rfl

theorem updateTask_local (pos : Nat) (task : Task) :
    b.Local (b.updateTask b.resort pos task) := by
  refine ⟨fun l => (b.cast task).elim (.threw .classCast, l) fun t =>
    l[pos]?.elim (.threw .indexOutOfBounds, l) fun old =>
      (.returned (some (b.task old)), b.sort (l.set pos t)), fun tS => ?_⟩
  unfold updateTask
  dsimp only
  cases b.cast task with
  | none => simp only [Option.elim_none, hb.setList_list]
  | some t =>
    simp only [Option.elim_some]
    cases (b.list tS)[pos]? with
    | none => simp only [Option.elim_none, hb.setList_list]
    | some old =>
      -- the sort works on the list that has just been set
      simp only [resort, Option.elim_some, hb.list_setList, hb.setList_setList]

/-- The update without its sort. -/
theorem setTask_local (pos : Nat) (task : Task) : b.Local (b.updateTask id pos task) := by
  refine ⟨fun l => (b.cast task).elim (.threw .classCast, l) fun t =>
    l[pos]?.elim (.threw .indexOutOfBounds, l) fun old =>
      (.returned (some (b.task old)), l.set pos t), fun tS => ?_⟩
  unfold updateTask
  dsimp only
  cases b.cast task with
  | none => simp only [Option.elim_none, hb.setList_list]
  | some t =>
    simp only [Option.elim_some]
    cases (b.list tS)[pos]? with
    | none => simp only [Option.elim_none, hb.setList_list]
    | some old => rfl

theorem edit_local (op : EditOp) :
    b.Local (b.edit (fun tS => (b.list tS).length) b.resort op) := by
  cases op with
  | add task => exact addTask_local hb task
  | delete pos => exact deleteTask_local hb pos
  | update pos task => exact updateTask_local hb pos task
  | moveUp pos => exact moveUp_local hb pos
  | moveDown pos => exact moveDown_local hb pos

theorem setTaskState_local (changeState : (StateOfTask → StateOfTask) → τ → τ)
    (tripletIndex column : Nat) : b.Local (b.setTaskState changeState tripletIndex column) := by
  refine ⟨fun l => l[tripletIndex]?.elim (.threw .indexOutOfBounds, l) fun tT =>
    (.done, l.set tripletIndex (changeState (·.click column) tT)), fun tS => ?_⟩
  unfold setTaskState
  dsimp only
  cases (b.list tS)[tripletIndex]? with
  | none => simp only [Option.elim_none, hb.setList_list]
  | some tT => rfl

end operations

end TaskBranch

/-! ### The operations that are not local -/

theorem TaskBranch.Separate.resetStates_tasks {τ : Type} {b : TaskBranch τ}
    {c : CompetitionIdentifier} (hb : b.Separate c)
    {changeState : (StateOfTask → StateOfTask) → τ → τ}
    (hchange : ∀ f t, b.task (changeState f t) = (b.task t).changeState f) (tS : TaskSpec)
    (other : CompetitionIdentifier) :
    (b.resetStates changeState tS).tasks other =
      if other = c then (tS.tasks other).map (Task.changeState fun _ => .init)
      else tS.tasks other := by
  unfold TaskBranch.resetStates
  by_cases hother : other = c
  · subst hother
    rw [if_pos rfl, hb.tasks_setList, hb.tasks, List.map_map, List.map_map]
    exact List.map_congr_left fun t _ => hchange _ t
  · rw [if_neg hother, hb.tasks_other tS _ other hother]

namespace TaskSpec

variable (orders : TaskOrders)

theorem resetCase_tasks (c other : CompetitionIdentifier) (tS : TaskSpec) :
    (tS.resetCase orders c).tasks other =
      if other = c then (tS.tasks other).map (Task.changeState fun _ => .init)
      else tS.tasks other := by
  cases c with
  | bnt => exact bntBranch_separate.resetStates_tasks (fun _ _ => rfl) tS other
  | bmt => exact bmtBranch_separate.resetStates_tasks (fun _ _ => rfl) tS other
  | btt => exact bttBranch_separate.resetStates_tasks (fun _ _ => rfl) tS other
  | ctt => exact cttBranch_separate.resetStates_tasks (fun _ _ => rfl) tS other
  | cbt => exact (cbtBranch_separate orders).resetStates_tasks (fun _ _ => rfl) tS other
  | ppt => exact (pptBranch_separate orders).resetStates_tasks (fun _ _ => rfl) tS other

theorem resetCase_statics (c : CompetitionIdentifier) (tS : TaskSpec) :
    (tS.resetCase orders c).bmtStatics = tS.bmtStatics := by
  cases c <;> rfl

/-- Some cases of the switch, one after the other. -/
theorem resetCases_tasks (cs : List CompetitionIdentifier) (other : CompetitionIdentifier)
    (tS : TaskSpec) :
    (cs.foldl (fun tS c => tS.resetCase orders c) tS).tasks other =
      if other ∈ cs then (tS.tasks other).map (Task.changeState fun _ => .init)
      else tS.tasks other := by
  induction cs generalizing tS with
  | nil => rfl
  | cons c cs ih =>
    rw [List.foldl_cons, ih, resetCase_tasks]
    by_cases hc : other = c
    · -- a second reset finds no mark
      have htwice : ∀ t : Task, (t.changeState fun _ => .init).changeState (fun _ => .init) =
          t.changeState fun _ => .init := fun t => by cases t <;> rfl
      rw [if_pos hc, if_pos (List.mem_cons.mpr (Or.inl hc)), List.map_map]
      simp [Function.comp_def, htwice]
    · simp only [List.mem_cons, hc, if_false, false_or]

theorem resetCases_statics (cs : List CompetitionIdentifier) (tS : TaskSpec) :
    (cs.foldl (fun tS c => tS.resetCase orders c) tS).bmtStatics = tS.bmtStatics := by
  induction cs generalizing tS with
  | nil => rfl
  | cons c cs ih => rw [List.foldl_cons, ih, resetCase_statics]

end TaskSpec

/-- `resetStates` keeps to its competition exactly when the later ones have no
    marks. -/
theorem resetStates_independent_iff (orders : TaskOrders) (c : CompetitionIdentifier)
    (tS : TaskSpec) :
    Independent (fun tS => pure ((.inl .done : Returned), tS.resetStates orders c)) c tS ↔
      ∀ other ∈ TaskSpec.casesFrom c, other ≠ c → ∀ t ∈ tS.tasks other, t.getState = .init := by
  rw [independent_pure_iff]
  have htasks := TaskSpec.resetCases_tasks orders (TaskSpec.casesFrom c)
  have hstatics := TaskSpec.resetCases_statics orders (TaskSpec.casesFrom c)
  constructor
  · rintro ⟨hframe, -⟩ other hmem hne t ht
    -- a list that the reset leaves as it is has no marks
    have hmap := (TaskSpec.content_eq_iff.mp (hframe other hne)).1
    dsimp only at hmap
    rw [TaskSpec.resetStates, htasks, if_pos hmem] at hmap
    have hsame := List.map_inj_left.mp (hmap.trans (List.map_id _).symm) t ht
    exact (Task.changeState_const_iff _ t).mp hsame
  · intro hinit
    refine ⟨fun other hne => TaskSpec.content_ext ?_ fun _ => hstatics tS, fun tS₂ h => ?_⟩
    · dsimp only
      rw [TaskSpec.resetStates, htasks]
      by_cases hmem : other ∈ TaskSpec.casesFrom c
      · rw [if_pos hmem]
        refine (List.map_inj_left.mpr fun t ht => ?_).trans (List.map_id _)
        exact (Task.changeState_const_iff _ t).mpr (hinit other hmem hne t ht)
      · rw [if_neg hmem]
    · -- its own list has no marks afterwards, whatever the others hold
      obtain ⟨hown, hown'⟩ := TaskSpec.content_eq_iff.mp h
      refine ⟨rfl, TaskSpec.content_ext ?_ fun hc => ?_⟩
      · dsimp only [TaskSpec.resetStates]
        rw [htasks, htasks, hown]
      · exact ((hstatics tS₂).trans (hown' hc)).trans (hstatics tS).symm

/-- The sort of an update comes last, if the task has been set. -/
theorem TaskBranch.updateTask_eq {τ : Type} (b : TaskBranch τ) (resort : TaskSpec → TaskSpec)
    (pos : Nat) (task : Task) (tS : TaskSpec) :
    b.updateTask resort pos task tS =
      ((b.updateTask id pos task tS).1,
        if (b.updateTask id pos task tS).1.succeeds = true then
          resort (b.updateTask id pos task tS).2
        else (b.updateTask id pos task tS).2) := by
  unfold TaskBranch.updateTask
  cases b.cast task with
  | none => rfl
  | some t =>
    dsimp only
    cases (b.list tS)[pos]? with
    | none => rfl
    | some old => rfl

theorem BttTask.compareTo_total (a b : BttTask) : a.compareTo b ≤ 0 ∨ b.compareTo a ≤ 0 :=
  BttTask.compareTo_lawful.total a b

/-! Updating a CTT task sorts the BTT list, too. -/

section cttUpdate
variable (pos : Nat) (task : Task) (tS : TaskSpec)

/-- The sort does not touch the CTT list. -/
theorem ctt_updateTask_content :
    (cttBranch.updateTask bttBranch.resort pos task tS).2.content .ctt =
      (cttBranch.updateTask id pos task tS).2.content .ctt := by
  rw [TaskBranch.updateTask_eq cttBranch bttBranch.resort]
  dsimp only
  split
  · exact bttBranch_separate.content_other _ _ (by decide)
  · rfl

theorem ctt_updateTask_succeeds_iff :
    (cttBranch.updateTask id pos task tS).1.succeeds = true ↔
      EditOp.Applies .ctt tS (.update pos task) := by
  have hall := TaskBranch.updateTask_all tS cttBranch (fun tS => tS.bttTaskList.length) id pos task
  rw [← EditOp.applies_iff cttBranch_separate (fun tS => tS.bttTaskList.length) (.update pos task)
    fun _ _ => ⟨fun h _ => h, fun h => h rfl⟩] at hall
  refine ⟨fun hsucceeds => ?_, hall.1⟩
  by_contra hnot
  exact absurd (hsucceeds.symm.trans (hall.2 hnot).1) (by decide)

/-- What it returns and leaves of the CTT list depends on nothing else. -/
theorem ctt_updateTask_own {tS₂ : TaskSpec} (h : tS₂.content .ctt = tS.content .ctt) :
    (cttBranch.updateTask bttBranch.resort pos task tS₂).1 =
        (cttBranch.updateTask bttBranch.resort pos task tS).1 ∧
      (cttBranch.updateTask bttBranch.resort pos task tS₂).2.content .ctt =
        (cttBranch.updateTask bttBranch.resort pos task tS).2.content .ctt := by
  obtain ⟨-, hlocal⟩ := (independent_pure_iff _ _ _).mp (cttBranch_separate.independent
    (TaskBranch.setTask_local cttBranch_separate pos task) tS)
  rw [ctt_updateTask_content, ctt_updateTask_content,
    TaskBranch.updateTask_eq cttBranch bttBranch.resort,
    TaskBranch.updateTask_eq cttBranch bttBranch.resort]
  exact ⟨Sum.inl_injective (hlocal tS₂ h).1, (hlocal tS₂ h).2⟩

theorem ctt_updateTask_independent_iff :
    Independent (fun tS => pure ((cttBranch.updateTask bttBranch.resort pos task tS).map
        (Sum.inl (β := Except Exn Bool)) id)) .ctt tS ↔
      (EditOp.Applies .ctt tS (.update pos task) → BttTask.Sorted tS.bttTaskList) := by
  obtain ⟨hframe, -⟩ := (independent_pure_iff _ _ _).mp (cttBranch_separate.independent
    (TaskBranch.setTask_local cttBranch_separate pos task) tS)
  have hsucceeds := ctt_updateTask_succeeds_iff pos task tS
  have hbtt : (cttBranch.updateTask id pos task tS).2.bttTaskList = tS.bttTaskList :=
    bttBranch_separate.list_eq (hframe .btt (by decide))
  rw [independent_pure_iff]
  constructor
  · rintro ⟨hframe', -⟩ happlies
    have hlist := bttBranch_separate.list_eq (hframe' .btt (by decide))
    dsimp only [Prod.map_snd, id_eq] at hlist
    rw [TaskBranch.updateTask_eq cttBranch bttBranch.resort, if_pos (hsucceeds.mpr happlies)] at hlist
    have hsort : Java.sort BttTask.compareTo tS.bttTaskList = tS.bttTaskList := by
      rw [← hbtt]
      exact hlist.trans hbtt.symm
    exact (Java.sort_eq_self_iff BttTask.compareTo_total _).mp hsort
  · intro hsorted
    -- the sort of a sorted list leaves what setting the task has left
    have hstate : (cttBranch.updateTask bttBranch.resort pos task tS).2 =
        (cttBranch.updateTask id pos task tS).2 := by
      rw [TaskBranch.updateTask_eq cttBranch bttBranch.resort]
      dsimp only
      split
      · next hset =>
        have hlist := Java.sort_of_isChain (hsorted (hsucceeds.mp hset))
        rw [← hbtt] at hlist
        exact (congrArg (bttBranch.setList _) hlist).trans (bttBranch_separate.setList_list _)
      · rfl
    refine ⟨fun other hne => ?_, fun tS₂ h => ?_⟩
    · dsimp only [Prod.map_snd, id_eq]
      rw [hstate]
      exact hframe other hne
    · obtain ⟨hresult, hcontent⟩ := ctt_updateTask_own pos task tS h
      exact ⟨congrArg Sum.inl hresult, hcontent⟩

end cttUpdate

/-- Whether Down in CTT is refused depends on the BTT list. -/
theorem ctt_moveDown_not_independent (pos : Nat) (tS : TaskSpec) :
    ¬ Independent (fun tS => pure ((cttBranch.moveDown tS.bttTaskList.length pos tS).map
        (Sum.inl (β := Except Exn Bool)) id)) .ctt tS := by
  -- Down is refused by the size alone
  have hrefused : ∀ (size : Nat) (tS : TaskSpec), size = pos + 1 →
      (cttBranch.moveDown size pos tS).1 = .returned none := by
    intro size tS hsize
    rw [TaskBranch.moveDown, if_pos hsize]
  have hpassed : ∀ tS : TaskSpec, (cttBranch.moveDown 0 pos tS).1 ≠ .returned none := by
    intro tS
    have hne : ¬ 0 = pos + 1 := by omega
    unfold TaskBranch.moveDown TaskBranch.insert
    rw [if_neg hne]
    split
    · simp
    · split <;> simp
  rw [independent_pure_iff]
  rintro ⟨-, hlocal⟩
  -- two BTT lists, one of the size that the test looks for
  have hfull := (hlocal { tS with bttTaskList := List.replicate (pos + 1) {} } rfl).1
  have hempty := (hlocal { tS with bttTaskList := [] } rfl).1
  have heq := Sum.inl_injective (hempty.trans hfull.symm)
  exact hpassed _ (heq.trans (hrefused _ _ List.length_replicate))

/-! ### All operations -/

/-- Reading a line is independent of the competitions that it does not name. -/
theorem parse_independent (orders : TaskOrders) (vte : ValidTaskElements)
    {c : CompetitionIdentifier} {line : Text} (hline : competitionIn line = some c)
    (tS : TaskSpec) :
    Independent ((SpecOp.parseTaskSpecString line).run orders vte c) c tS := by
  obtain ⟨outcome, f, hconv, -, -, hsome⟩ := exists_parse vte line
  -- the line fixes its own list and keeps the others
  obtain ⟨⟨l, hl⟩, hkeeps, g, hg, hid⟩ := hsome c hline
  have hrun : ∀ tS : TaskSpec, Converges
      ((SpecOp.parseTaskSpecString line).run orders vte c tS) (.inr outcome, f tS) := fun tS =>
    converges_map (fun r : Except Exn Bool × TaskSpec => ((.inr r.1 : Returned), r.2)) (hconv tS)
  refine ⟨.inr outcome, f tS, hrun tS, fun other hne => ?_, fun tS₂ h => ⟨f tS₂, hrun tS₂, ?_⟩⟩
  · refine TaskSpec.content_ext (hkeeps other hne tS) fun hother => ?_
    rw [hg]
    exact hid (fun hc => hne (hother.trans hc.symm)) _
  · refine TaskSpec.content_ext ((hl tS₂).trans (hl tS).symm) fun hc => ?_
    rw [hg, hg, (TaskSpec.content_eq_iff.mp h).2 hc]

theorem setTaskState_independent (orders : TaskOrders) (vte : ValidTaskElements)
    (c : CompetitionIdentifier) (tripletIndex column : Nat) (tS : TaskSpec) :
    Independent ((SpecOp.setTaskState tripletIndex column).run orders vte c) c tS := by
  cases c with
  | bnt =>
    exact bntBranch_separate.independent
      (TaskBranch.setTaskState_local bntBranch_separate BntTask.changeState _ _) tS
  | bmt =>
    exact bmtBranch_separate.independent
      (TaskBranch.setTaskState_local bmtBranch_separate BmtTask.changeState _ _) tS
  | btt =>
    exact bttBranch_separate.independent
      (TaskBranch.setTaskState_local bttBranch_separate BttTask.changeState _ _) tS
  | ctt =>
    exact cttBranch_separate.independent
      (TaskBranch.setTaskState_local cttBranch_separate CttTask.changeState _ _) tS
  | cbt =>
    exact (cbtBranch_separate orders).independent
      (TaskBranch.setTaskState_local (cbtBranch_separate orders) CbtTask.changeState _ _) tS
  | ppt =>
    exact (pptBranch_separate orders).independent
      (TaskBranch.setTaskState_local (pptBranch_separate orders) PptTask.changeState _ _) tS

theorem edit_independent_iff (orders : TaskOrders) (vte : ValidTaskElements)
    (c : CompetitionIdentifier) (op : EditOp) (tS : TaskSpec) :
    Independent ((SpecOp.edit op).run orders vte c) c tS ↔ (SpecOp.edit op).Separates c tS := by
  -- CTT is the competition with branches of its own
  by_cases hctt : c = .ctt
  · subst hctt
    have hb := cttBranch_separate
    cases op with
    | add task => exact iff_of_true (hb.independent (TaskBranch.addTask_local hb task) tS) trivial
    | delete pos => exact iff_of_true (hb.independent (TaskBranch.deleteTask_local hb pos) tS) trivial
    | update pos task =>
      exact (ctt_updateTask_independent_iff pos task tS).trans ⟨fun h _ => h, fun h => h rfl⟩
    | moveUp pos => exact iff_of_true (hb.independent (TaskBranch.moveUp_local hb pos) tS) trivial
    | moveDown pos => exact iff_of_false (ctt_moveDown_not_independent pos tS) fun h => h rfl
  · obtain ⟨τ, b, hb, hedit⟩ := exists_branch orders hctt
    have hrun : (SpecOp.edit op).run orders vte c = fun tS =>
        pure ((b.edit (fun tS => (b.list tS).length) b.resort op tS).map
          (Sum.inl (β := Except Exn Bool)) id) := by
      funext tS
      rw [← hedit]
      rfl
    rw [hrun]
    refine iff_of_true (hb.independent (TaskBranch.edit_local hb op) tS) ?_
    cases op with
    | update pos task => exact fun h => absurd h hctt
    | moveDown pos => exact hctt
    | add _ | delete _ | moveUp _ => trivial

/-- **Independent competitions.** An operation on a competition leaves the other
    ones alone, and does not depend on them, exactly if it is not one of three:
    resetting the states while a later competition has marks, updating a CTT task
    while the BTT list is not sorted, and Down in CTT. -/
theorem competitions_independent_iff (orders : TaskOrders) (vte : ValidTaskElements)
    (c : CompetitionIdentifier) (op : SpecOp) (hop : op.IsOn c) (tS : TaskSpec) :
    Independent (op.run orders vte c) c tS ↔ op.Separates c tS := by
  cases op with
  | edit op => exact edit_independent_iff orders vte c op tS
  | setTaskState tripletIndex column =>
    exact iff_of_true (setTaskState_independent orders vte c tripletIndex column tS) trivial
  | resetStates => exact resetStates_independent_iff orders c tS
  | parseTaskSpecString line => exact iff_of_true (parse_independent orders vte hop tS) trivial

theorem competitions_independent_line :
    competitionIn "PPT<S1,(M20),D1>".toList = some .ppt ∧
      Independent ((SpecOp.parseTaskSpecString "PPT<S1,(M20),D1>".toList).run someOrders smallTables
        .ppt) .ppt { bntTaskList := [{}] } := by
  have hline : competitionIn "PPT<S1,(M20),D1>".toList = some .ppt := by decide
  exact ⟨hline, (competitions_independent_iff someOrders smallTables .ppt
    (.parseTaskSpecString _) hline _).mpr trivial⟩

/-- A BMT task that has passed. -/
def passedTask : BmtTask := ⟨"M20".toList, .passed⟩

/-- A BTT list as it is read from a file, the goal first. -/
def goalFirst : List BttTask :=
  [⟨"goal".toList, [], "D1".toList, "M20".toList, .init⟩,
    ⟨"initial".toList, [], "S1".toList, "M20".toList, .init⟩]

/-- Resetting the BNT states takes the mark off a BMT task; updating a CTT task
    turns a BTT list round; and Down on the first of two CTT tasks is refused
    because there is one BTT task. -/
theorem competitions_interfere :
    ({ bmtTaskList := [passedTask] } : TaskSpec).resetStates someOrders .bnt =
        { bmtTaskList := [⟨"M20".toList, .init⟩] } ∧
      ¬ Independent (SpecOp.resetStates.run someOrders smallTables .bnt) .bnt
        { bmtTaskList := [passedTask] } ∧
      ({ cttTaskList := [loneTask], bttTaskList := goalFirst } : TaskSpec).updateTask someOrders 0
          (.ctt loneTask) .ctt =
        (.returned (some (.ctt loneTask)),
          { cttTaskList := [loneTask], bttTaskList := goalFirst.reverse }) ∧
      ¬ Independent ((SpecOp.edit (.update 0 (.ctt loneTask))).run someOrders smallTables .ctt) .ctt
        { cttTaskList := [loneTask], bttTaskList := goalFirst } ∧
      ({ cttTaskList := [loneTask, loneTask], bttTaskList := [{}] } : TaskSpec).moveDown someOrders 0
          .ctt =
        (.returned none, { cttTaskList := [loneTask, loneTask], bttTaskList := [{}] }) ∧
      ¬ Independent ((SpecOp.edit (.moveDown 0)).run someOrders smallTables .ctt) .ctt
        { cttTaskList := [loneTask, loneTask], bttTaskList := [{}] } := by
  refine ⟨rfl, fun h => ?_, by decide, fun h => ?_, by decide, ctt_moveDown_not_independent 0 _⟩
  · have hmark := (resetStates_independent_iff someOrders .bnt _).mp h .bmt (by decide) (by decide)
      (.bmt passedTask) List.mem_cons_self
    exact absurd hmark (by decide)
  · have hsorted := (ctt_updateTask_independent_iff 0 (.ctt loneTask) _).mp h
      (by unfold EditOp.Applies; decide)
    exact absurd hsorted (by decide)

end RefereeBox
