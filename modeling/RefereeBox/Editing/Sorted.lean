import RefereeBox.Editing.Conservation

/-! # Sorted Lists

  The BTT and the CTT list are sorted after every change, and an almost
  sorted list is all that the sort ever sees: two neighbours exchanged, one
  task more at the end, one less. It fails if some two tasks cannot be compared,
  and then the list stays as the change left it. `updateTask` on CTT sorts the BTT
  list: there the CTT list stays sorted only if the new task fits between its
  neighbours.
-/

namespace RefereeBox.Nullable

open CheckedSort

/-! ### Runs -/

/-- A sequence of operations on any competitions. -/
def TaskSpec.editAll (ops : List (CompetitionIdentifier × EditOp))
    (tS : TaskSpec) : TaskSpec :=
  ops.foldl (fun tS l => (tS.edit l.1 l.2).2) tS

theorem TaskSpec.editAll_concat
    (ops : List (CompetitionIdentifier × EditOp)) (l : CompetitionIdentifier × EditOp)
    (tS : TaskSpec) :
    tS.editAll (ops ++ [l]) = ((tS.editAll ops).edit l.1 l.2).2 := by
  simp [editAll]

def TaskSpec.Empty (tS : TaskSpec) : Prop := ∀ c, tS.tasks c = []

/-! ### One branch -/

namespace TaskBranch

variable {τ : Type} {b : TaskBranch τ} {cmp : τ → τ → Except Exn Int} {total : τ → τ → Int}
  (hcmp : Extends cmp total) (hsort : b.sort = CheckedSort.sort cmp)

/-- The list behind an operation: the settled change, or what was there, less the last
    task in the exceptional case. -/
theorem edit_list (size : Nat) (op : EditOp) (l : List τ) :
    (∃ outcome logged changed, b.change size op l = some (outcome, logged, changed) ∧
      (b.edit size op l).2 = b.settle changed) ∨
    (b.change size op l = none ∧
      ((b.edit size op l).2 = l ∨ (b.edit size op l).2 = l.dropLast)) := by
  cases hchange : b.change size op l with
  | some c =>
    obtain ⟨outcome, logged, changed⟩ := c
    refine .inl ⟨outcome, logged, changed, rfl, ?_⟩
    rw [edit_change hchange, finish_list]
  | none =>
    refine .inr ⟨rfl, ?_⟩
    by_cases hlast : LosesLast size op l
    · rw [hlast.edit_eq]
      exact .inr rfl
    · obtain ⟨outcome, hedit, -⟩ := edit_refuses hchange hlast
      rw [hedit]
      exact .inl rfl

include hcmp hsort

/-- An operation keeps the list sorted exactly if the tasks of the changed list can be
    compared. -/
theorem edit_sorted_iff {size : Nat} {op : EditOp} {l : List τ} (hl : Sorted cmp l) :
    Sorted cmp (b.edit size op l).2 ↔
      ∀ outcome logged changed, b.change size op l = some (outcome, logged, changed) →
        changed.Pairwise (Comparable cmp) := by
  obtain ⟨outcome, logged, changed, hchange, hlist⟩ | ⟨hchange, hlist⟩ :=
    edit_list (b := b) size op l
  · rw [hlist, settle_eq hsort, sorted_settle_iff hcmp, hchange]
    exact ⟨fun h _ _ _ heq => by cases heq; exact h, fun h => h _ _ _ rfl⟩
  · rw [hchange]
    refine iff_of_true ?_ fun _ _ _ h => nomatch h
    obtain hlist | hlist := hlist
    · rw [hlist]
      exact hl
    · rw [hlist]
      exact Sorted.sublist hcmp hl (List.dropLast_sublist l)

end TaskBranch

/-! ### The CTT list -/

/-- An added CTT task can be compared with the others, and one that replaces another one
    fits between the neighbours. -/
def FitsIn (tS : TaskSpec) : CompetitionIdentifier → EditOp → Prop
  | .ctt, .add (.ctt t) => ∀ a ∈ tS.cttTaskList, Comparable CttTask.compareTo a t
  | .ctt, .update pos (.ctt t) => pos < tS.cttTaskList.length →
      (∀ a, 0 < pos → tS.cttTaskList[pos - 1]? = some a → Precedes CttTask.compareTo a t) ∧
        ∀ b, tS.cttTaskList[pos + 1]? = some b → Precedes CttTask.compareTo t b
  | _, _ => True

theorem cttTaskList_edit_other (tS : TaskSpec)
    {compIdent : CompetitionIdentifier} (hctt : compIdent ≠ .ctt) (op : EditOp) :
    (tS.edit compIdent op).2.cttTaskList = tS.cttTaskList := by
  cases compIdent with
  | bnt => rw [edit_bnt]; rfl
  | bmt => rw [edit_bmt]; rfl
  | btt => rw [edit_btt]; rfl
  | ctt => exact absurd rfl hctt
  | cbt => rw [edit_cbt]; rfl
  | ppt => rw [edit_ppt]; rfl

/-- An update of CTT sets the task, and leaves the list unsorted. -/
theorem cttTaskList_update (tS : TaskSpec) (pos : Nat) (t : CttTask) :
    (tS.edit .ctt (.update pos (.ctt t))).2.cttTaskList = tS.cttTaskList.set pos t := by
  show (tS.updateCtt pos (.ctt t)).2.cttTaskList = _
  cases hget : tS.cttTaskList[pos]? with
  | none =>
    rw [List.set_eq_of_length_le (List.getElem?_eq_none_iff.mp hget)]
    have hchange : cttBranch.change tS.bttTaskList.length (.update pos (.ctt t)) tS.cttTaskList =
        none := by
      simp [TaskBranch.change, cttBranch, hget]
    obtain ⟨e, he⟩ := updateCtt_refuses hchange
    rw [he]
  | some old =>
    have hchange : cttBranch.change tS.bttTaskList.length (.update pos (.ctt t)) tS.cttTaskList =
        some (.returned (some (.ctt old)), [old, t], tS.cttTaskList.set pos t) := by
      simp [TaskBranch.change, cttBranch, hget]
    exact (updateCtt_cases hchange).1

/-- One operation keeps the CTT list sorted exactly if its task fits. -/
theorem edit_ctt_sorted_iff {tS : TaskSpec}
    (hl : Sorted CttTask.compareTo tS.cttTaskList) (compIdent : CompetitionIdentifier)
    (op : EditOp) :
    Sorted CttTask.compareTo (tS.edit compIdent op).2.cttTaskList ↔
      FitsIn tS compIdent op := by
  by_cases hctt : compIdent = .ctt
  · subst hctt
    have hpair := ((sorted_iff CttTask.compareTo_extends).mp hl).1
    -- what an operation that sorts has to compare
    have hsorts : (∀ pos task, op ≠ .update pos task) →
        (Sorted CttTask.compareTo (tS.edit .ctt op).2.cttTaskList ↔
          ∀ outcome logged changed, cttBranch.change tS.bttTaskList.length op tS.cttTaskList =
            some (outcome, logged, changed) → changed.Pairwise (Comparable CttTask.compareTo)) := by
      intro hop
      rw [edit_ctt op tS hop]
      exact TaskBranch.edit_sorted_iff (b := cttBranch) CttTask.compareTo_extends rfl hl
    have hmoves : op.Moves → ∀ outcome logged changed,
        cttBranch.change tS.bttTaskList.length op tS.cttTaskList =
          some (outcome, logged, changed) → changed.Pairwise (Comparable CttTask.compareTo) := by
      intro hop outcome logged changed h
      have hperm := TaskBranch.change_perm hop h
      exact hpair.perm hperm.symm CttTask.compareTo_extends.symm
    cases op with
    | add task =>
      rw [hsorts (by simp)]
      cases task with
      | ctt t =>
        have hconcat : (tS.cttTaskList ++ [t]).Pairwise (Comparable CttTask.compareTo) ↔
            ∀ a ∈ tS.cttTaskList, Comparable CttTask.compareTo a t := by
          rw [List.pairwise_append]
          simp [hpair]
        refine Iff.trans ?_ hconcat
        exact ⟨fun h => h _ _ _ rfl, fun h _ _ _ heq => by cases heq; exact h⟩
      | bnt t | bmt t | btt t | cbt t | ppt t =>
        exact iff_of_true (fun _ _ _ h => nomatch h) trivial
    | delete pos =>
      rw [hsorts (by simp)]
      refine iff_of_true (fun outcome logged changed h => ?_) trivial
      obtain ⟨t, -, heq⟩ := Option.map_eq_some_iff.mp h
      cases heq
      exact hpair.sublist (List.eraseIdx_sublist _ pos)
    | update pos task =>
      cases task with
      | ctt t =>
        -- the list that is sorted is the BTT list: the task stays where it is put
        rw [cttTaskList_update]
        by_cases hpos : pos < tS.cttTaskList.length
        · refine (StableSort.isChain_set_iff hl hpos t).trans ?_
          exact ⟨fun h _ => h, fun h => h hpos⟩
        · rw [List.set_eq_of_length_le (Nat.le_of_not_lt hpos)]
          exact iff_of_true hl fun h => absurd h hpos
      | bnt t | bmt t | btt t | cbt t | ppt t => exact iff_of_true hl trivial
    | moveUp pos => exact iff_of_true ((hsorts (by simp)).mpr (hmoves trivial)) trivial
    | moveDown pos => exact iff_of_true ((hsorts (by simp)).mpr (hmoves trivial)) trivial
  · rw [cttTaskList_edit_other tS hctt]
    refine iff_of_true hl ?_
    cases compIdent <;> trivial

/-- **The CTT list** is sorted after each operation of a run exactly if every CTT task
    that is added can be compared with the others, and every one that replaces another
    one fits between its neighbours. -/
theorem ctt_sorted_iff {tS : TaskSpec} (hempty : tS.Empty)
    (ops : List (CompetitionIdentifier × EditOp)) :
    (∀ pre, pre <+: ops → Sorted CttTask.compareTo (tS.editAll pre).cttTaskList) ↔
      ∀ pre l, pre ++ [l] <+: ops → FitsIn (tS.editAll pre) l.1 l.2 := by
  have hstart : tS.cttTaskList = [] := List.map_eq_nil_iff.mp (hempty .ctt)
  constructor
  · intro hsorted pre l hpre
    have hbefore := hsorted pre ((List.prefix_append pre [l]).trans hpre)
    have hafter := hsorted (pre ++ [l]) hpre
    rw [TaskSpec.editAll_concat] at hafter
    exact (edit_ctt_sorted_iff hbefore l.1 l.2).mp hafter
  · intro hfits pre hpre
    induction pre using List.reverseRecOn with
    | nil =>
      show Sorted CttTask.compareTo tS.cttTaskList
      rw [hstart]
      exact .nil
    | append_singleton pre l ih =>
      have hbefore := ih ((List.prefix_append pre [l]).trans hpre)
      rw [TaskSpec.editAll_concat]
      exact (edit_ctt_sorted_iff hbefore l.1 l.2).mpr (hfits pre l hpre)

def cttTask (situation place : String) : CttTask :=
  ⟨some situation.toList, some "line".toList, some place.toList, some "M20".toList, .init⟩

/-- Two tasks are added, and the first one is replaced by one that belongs behind
    the second one. -/
def unsortedUpdate : List (CompetitionIdentifier × EditOp) :=
  [(.ctt, .add (.ctt (cttTask "initial" "S1"))), (.ctt, .add (.ctt (cttTask "initial" "S2"))),
    (.ctt, .update 0 (.ctt (cttTask "initial" "S3")))]

/-- A task of null fields is added, and then two tasks against their order. -/
def unsortedAdd : List (CompetitionIdentifier × EditOp) :=
  [(.ctt, .add (.ctt ⟨none, none, none, none, .init⟩)),
    (.ctt, .add (.ctt (cttTask "initial" "S2"))), (.ctt, .add (.ctt (cttTask "initial" "S1")))]

theorem empty_empty : TaskSpec.Empty {} := by
  intro c
  cases c <;> rfl

theorem ctt_unsorted :
    TaskSpec.Empty {} ∧
      ¬ Sorted CttTask.compareTo (TaskSpec.editAll unsortedUpdate {}).cttTaskList ∧
      ¬ Sorted CttTask.compareTo (TaskSpec.editAll unsortedAdd {}).cttTaskList := by
  refine ⟨empty_empty, ?_, ?_⟩
  · unfold Sorted
    decide
  · unfold Sorted
    decide

theorem ctt_sorted_two :
    Sorted CttTask.compareTo
      (TaskSpec.editAll (unsortedUpdate.take 2) {}).cttTaskList := by
  refine (ctt_sorted_iff empty_empty (unsortedUpdate.take 2)).mpr ?_ _
    (List.prefix_refl _)
  rintro pre l ⟨post, heq⟩
  -- the second task is compared with the first one
  cases pre with
  | nil =>
    obtain rfl : l = (.ctt, .add (.ctt (cttTask "initial" "S1"))) := (List.cons.inj heq).1
    exact fun a ha => nomatch ha
  | cons x pre =>
    obtain ⟨rfl, hrest⟩ := List.cons.inj heq
    cases pre with
    | nil =>
      obtain rfl : l = (.ctt, .add (.ctt (cttTask "initial" "S2"))) := (List.cons.inj hrest).1
      show ∀ a ∈ (TaskSpec.editAll [(.ctt, .add (.ctt (cttTask "initial" "S1")))]
        {}).cttTaskList, Comparable CttTask.compareTo a (cttTask "initial" "S2")
      decide
    | cons y pre =>
      have hlen := congrArg List.length (List.cons.inj hrest).2
      simp at hlen

/-! ### The BTT list -/

/-- The task can be compared with others. -/
def BttTask.Keyed (t : BttTask) : Prop :=
  t.situation.isSome = true ∧ t.configuration.isSome = true ∧ t.place.isSome = true

instance (t : BttTask) : Decidable t.Keyed := inferInstanceAs (Decidable (_ ∧ _))

/-- The tasks that an operation is given. -/
def EditOp.given : EditOp → List Task
  | .add task => [task]
  | .update _ task => [task]
  | _ => []

/-- Every BTT task that an operation is given can be compared with others. -/
def EditOp.Keyed (op : EditOp) : Prop := ∀ t, .btt t ∈ op.given → t.Keyed

theorem BttTask.Keyed.comparable {t btt : BttTask} (ht : t.Keyed) (hbtt : btt.Keyed) :
    Comparable BttTask.compareTo t btt := by
  have hkey : ∀ {key : BttTask → Option Text} {t u : BttTask}, (key t).isSome = true →
      (key u).isSome = true → Comparable (Nullable.compareTo key) t u :=
    fun ht hu => comparable_byKey_iff.mpr ⟨ht, hu⟩
  refine (Extends.comparable_thenBy_iff (Extends.byKey Java.compareTo_lawful Exn.nullPointer
    BttTask.situation []).flip).mpr ⟨hkey hbtt.1 ht.1, fun _ => ?_⟩
  exact (Extends.comparable_thenBy_iff (Extends.byKey Java.compareTo_lawful Exn.nullPointer
    BttTask.configuration [])).mpr ⟨hkey ht.2.1 hbtt.2.1, fun _ => hkey ht.2.2 hbtt.2.2⟩

/-- A sorted list of tasks that can be compared with others. -/
structure InOrder (l : List BttTask) : Prop where
  keyed : ∀ t ∈ l, t.Keyed
  sorted : Sorted BttTask.compareTo l

theorem pairwise_of_keyed {l : List BttTask} (h : ∀ t ∈ l, t.Keyed) :
    l.Pairwise (Comparable BttTask.compareTo) :=
  List.pairwise_of_forall_mem_list fun t ht u hu => (h t ht).comparable (h u hu)

/-- Behind a change there are tasks from before and a task that was given. -/
theorem TaskBranch.Lawful.mem_change {τ : Type} {b : TaskBranch τ}
    {compIdent : CompetitionIdentifier} (hb : b.Lawful compIdent) {size : Nat} {op : EditOp}
    {l : List τ} {outcome : Outcome} {logged changed : List τ}
    (h : b.change size op l = some (outcome, logged, changed)) {t : τ} (ht : t ∈ changed) :
    t ∈ l ∨ b.task t ∈ op.given := by
  cases op with
  | add task =>
    obtain ⟨t', hcast, heq⟩ := Option.map_eq_some_iff.mp h
    cases heq
    obtain rfl := hb.cast_some task t' hcast
    refine (List.mem_append.mp ht).imp_right fun ht => ?_
    rw [List.mem_singleton.mp ht]
    exact List.mem_singleton.mpr rfl
  | delete pos =>
    obtain ⟨t', -, heq⟩ := Option.map_eq_some_iff.mp h
    cases heq
    exact .inl (List.mem_of_mem_eraseIdx ht)
  | update pos task =>
    obtain ⟨t', hcast, h⟩ := Option.bind_eq_some_iff.mp h
    obtain ⟨old, -, heq⟩ := Option.map_eq_some_iff.mp h
    cases heq
    obtain rfl := hb.cast_some task t' hcast
    refine (List.mem_or_eq_of_mem_set ht).imp_right fun ht => ?_
    rw [ht]
    exact List.mem_singleton.mpr rfl
  | moveUp pos | moveDown pos => exact .inl ((change_perm (by trivial) h).mem_iff.mp ht)

/-- One operation keeps the BTT list in order. -/
theorem InOrder.edit {tS : TaskSpec} (h : InOrder tS.bttTaskList)
    (compIdent : CompetitionIdentifier) {op : EditOp} (hop : op.Keyed) :
    InOrder (tS.edit compIdent op).2.bttTaskList := by
  by_cases hupdate : compIdent = .ctt ∧ ∃ pos task, op = .update pos task
  · obtain ⟨rfl, pos, task, rfl⟩ := hupdate
    -- the sort of the BTT list does nothing
    have hsort : bttBranch.sort tS.bttTaskList = .ok tS.bttTaskList :=
      h.sorted.sort_eq BttTask.compareTo_extends
    show InOrder (tS.updateCtt pos task).2.bttTaskList
    cases hchange : cttBranch.change tS.bttTaskList.length (.update pos task) tS.cttTaskList with
    | none =>
      obtain ⟨e, he⟩ := updateCtt_refuses hchange
      rw [he]
      exact h
    | some c =>
      rw [updateCtt_change hchange, hsort]
      exact h
  · cases compIdent with
    | bnt => rw [edit_bnt]; exact h
    | bmt => rw [edit_bmt]; exact h
    | ctt =>
      rw [edit_ctt op tS fun pos task h => hupdate ⟨rfl, pos, task, h⟩]
      exact h
    | cbt => rw [edit_cbt]; exact h
    | ppt => rw [edit_ppt]; exact h
    | btt =>
      rw [edit_btt]
      show InOrder (bttBranch.edit _ op tS.bttTaskList).2
      have hmem : ∀ {outcome : Outcome} {logged changed : List BttTask},
          bttBranch.change tS.bttTaskList.length op tS.bttTaskList =
            some (outcome, logged, changed) → ∀ t ∈ changed, t.Keyed := by
        intro outcome logged changed hchange t ht
        exact (bttBranch_lawful.mem_change hchange ht).elim (h.keyed t) (hop t)
      refine ⟨?_, ?_⟩
      · intro t ht
        obtain ⟨_, _, changed, hchange, hlist⟩ | ⟨-, hlist | hlist⟩ :=
          TaskBranch.edit_list (b := bttBranch) tS.bttTaskList.length op tS.bttTaskList
        · rw [hlist] at ht
          exact hmem hchange t ((bttBranch_lawful.settle_perm changed).mem_iff.mp ht)
        · rw [hlist] at ht
          exact h.keyed t ht
        · rw [hlist] at ht
          exact h.keyed t (List.dropLast_subset _ ht)
      · rw [TaskBranch.edit_sorted_iff (b := bttBranch) BttTask.compareTo_extends rfl h.sorted]
        exact fun outcome logged changed hchange => pairwise_of_keyed (hmem hchange)

theorem InOrder.editAll {tS : TaskSpec} (hempty : tS.Empty)
    {ops : List (CompetitionIdentifier × EditOp)} (hops : ∀ l ∈ ops, EditOp.Keyed l.2) :
    InOrder (tS.editAll ops).bttTaskList := by
  induction ops using List.reverseRecOn with
  | nil =>
    show InOrder tS.bttTaskList
    rw [List.map_eq_nil_iff.mp (hempty .btt)]
    exact ⟨fun t ht => (nomatch ht), .nil⟩
  | append_singleton ops l ih =>
    rw [TaskSpec.editAll_concat]
    exact (ih fun l' hl' => hops l' (List.mem_append_left _ hl')).edit l.1
      (hops l (List.mem_append_right _ (List.mem_singleton.mpr rfl)))

section btt
variable {tS : TaskSpec} (h : InOrder tS.bttTaskList)
include h

/-- Equal neighbours are exchanged by `moveUp`, others stay; `moveDown` undoes
    it. -/
theorem moveUp_moveDown {pre post : List BttTask} {x y : BttTask}
    (hlist : tS.bttTaskList = pre ++ x :: y :: post) :
    (tS.moveUp (pre.length + 1) .btt).2.bttTaskList =
        (if x.compareTo y = .ok 0 then pre ++ y :: x :: post else tS.bttTaskList) ∧
      ((tS.moveUp (pre.length + 1) .btt).2.moveDown pre.length .btt).2.bttTaskList =
        tS.bttTaskList := by
  have hlaw := BttTask.compareTo_extends.lawful
  have hsorted : StableSort.Sorted BttTask.order (pre ++ x :: y :: post) :=
    hlist ▸ ((sorted_iff BttTask.compareTo_extends).mp h.sorted).2
  -- both orders of the two tasks settle as the total order has it
  have hmem : ∀ t ∈ pre ++ x :: y :: post, t.Keyed := hlist ▸ h.keyed
  have hsettle : ∀ {l : List BttTask}, l.Perm (pre ++ x :: y :: post) →
      bttBranch.settle l = StableSort.sort BttTask.order l := by
    intro l hperm
    rw [TaskBranch.settle_eq (b := bttBranch) rfl]
    apply settle_of_comparable BttTask.compareTo_extends
    exact pairwise_of_keyed fun t ht => hmem t (hperm.mem_iff.mp ht)
  have hperm : (pre ++ y :: x :: post).Perm (pre ++ x :: y :: post) :=
    (List.Perm.swap x y post).append_left pre
  have hup : (tS.moveUp (pre.length + 1) .btt).2.bttTaskList =
      StableSort.sort BttTask.order (pre ++ y :: x :: post) := by
    show (bttBranch.edit 0 (.moveUp (pre.length + 1)) tS.bttTaskList).2 = _
    rw [hlist, TaskBranch.edit_change (TaskBranch.change_moveUp 0), TaskBranch.finish_list,
      hsettle hperm]
  have hdown : ∀ {tS' : TaskSpec} {u v : BttTask}, tS'.bttTaskList = pre ++ u :: v :: post →
      (pre ++ v :: u :: post).Perm (pre ++ x :: y :: post) →
      (tS'.moveDown pre.length .btt).2.bttTaskList =
        StableSort.sort BttTask.order (pre ++ v :: u :: post) := by
    intro tS' u v hlist' hperm'
    show (bttBranch.edit tS'.bttTaskList.length (.moveDown pre.length) tS'.bttTaskList).2 = _
    rw [hlist', TaskBranch.edit_change (TaskBranch.change_moveDown (by simp)),
      TaskBranch.finish_list, hsettle hperm']
  have hxy : x.compareTo y = .ok (BttTask.order x y) := by
    apply BttTask.compareTo_extends.eq_ok
    exact (hmem x (by simp)).comparable (hmem y (by simp))
  have hle : BttTask.order x y ≤ 0 := by
    have hpair := (StableSort.sorted_iff_pairwise hlaw).mp hsorted
    exact List.rel_of_pairwise_cons (List.pairwise_append.mp hpair).2.1 List.mem_cons_self
  by_cases heq : BttTask.order x y = 0
  · have hswapped : StableSort.sort BttTask.order (pre ++ y :: x :: post) =
        pre ++ y :: x :: post := (hsorted.swap hlaw heq).sort_eq
    rw [hswapped] at hup
    rw [if_pos (by rw [hxy, heq]), hdown hup (.refl _), hlist]
    exact ⟨hup, hsorted.sort_eq⟩
  · have hback : StableSort.sort BttTask.order (pre ++ y :: x :: post) = pre ++ x :: y :: post :=
      StableSort.sort_swap hlaw hsorted (by omega)
    rw [hback] at hup
    have hne : x.compareTo y ≠ .ok 0 := by
      rw [hxy]
      exact fun h => heq (Except.ok.inj h)
    rw [if_neg hne, hdown hup hperm, hlist]
    exact ⟨hup, hback⟩

theorem deleteTask_btt (pos : Nat) :
    (tS.deleteTask pos .btt).2.bttTaskList = tS.bttTaskList.eraseIdx pos := by
  show (bttBranch.deleteTask pos tS.bttTaskList).2 = _
  unfold TaskBranch.deleteTask
  split
  · next hget => exact (List.eraseIdx_of_length_le (List.getElem?_eq_none_iff.mp hget)).symm
  · rw [TaskBranch.finish_list, TaskBranch.settle_eq (b := bttBranch) rfl]
    exact (h.sorted.sublist BttTask.compareTo_extends (List.eraseIdx_sublist _ pos)).settle_eq
      BttTask.compareTo_extends

theorem addTask_btt {t : BttTask} (ht : t.Keyed) :
    ∃ before after, tS.bttTaskList = before ++ after ∧
      (tS.addTask .btt (.btt t)).2.bttTaskList = before ++ t :: after ∧
      (∀ a ∈ before, Precedes BttTask.compareTo a t) ∧
      ∀ a ∈ after, ∃ i, a.compareTo t = .ok i ∧ 0 < i := by
  have hlaw := BttTask.compareTo_extends.lawful
  have hsorted := ((sorted_iff BttTask.compareTo_extends).mp h.sorted).2
  have hcomparable : ∀ a ∈ tS.bttTaskList, Comparable BttTask.compareTo a t :=
    fun a ha => (h.keyed a ha).comparable ht
  have hkeyed : ∀ a ∈ tS.bttTaskList ++ [t], a.Keyed := by
    intro a ha
    obtain ha | ha := List.mem_append.mp ha
    · exact h.keyed a ha
    · exact List.mem_singleton.mp ha ▸ ht
  obtain ⟨before, after, hlist, hsort, hbefore, hafter⟩ := StableSort.sort_concat hlaw hsorted t
  refine ⟨before, after, hlist, ?_, ?_, ?_⟩
  · show (bttBranch.finish .done [t] (tS.bttTaskList ++ [t])).2 = _
    rw [TaskBranch.finish_list, TaskBranch.settle_eq (b := bttBranch) rfl,
      settle_of_comparable BttTask.compareTo_extends (pairwise_of_keyed hkeyed), hsort]
  · intro a ha
    have hmem : a ∈ tS.bttTaskList := hlist ▸ List.mem_append_left _ ha
    exact BttTask.compareTo_extends.precedes_iff.mpr ⟨hcomparable a hmem, hbefore a ha⟩
  · intro a ha
    have hmem : a ∈ tS.bttTaskList := hlist ▸ List.mem_append_right _ ha
    exact ⟨_, BttTask.compareTo_extends.eq_ok (hcomparable a hmem), hafter a ha⟩

end btt

/-- **The BTT list** behind any sequence of operations whose BTT tasks have a situation, a
    configuration and a place is sorted. `moveUp` exchanges two neighbours if they are
    equal and does nothing if not, and `moveDown` then restores the list; `deleteTask`
    takes out the position; `addTask` puts the task behind the last one that is not
    greater. -/
theorem btt_edits {start : TaskSpec} (hempty : start.Empty)
    (ops : List (CompetitionIdentifier × EditOp)) (hops : ∀ l ∈ ops, EditOp.Keyed l.2)
    {tS : TaskSpec} (hrun : start.editAll ops = tS) :
    Sorted BttTask.compareTo tS.bttTaskList ∧
      (∀ (pos : Nat) (hlt : pos < tS.bttTaskList.length), 0 < pos →
        (tS.moveUp pos .btt).2.bttTaskList =
            (if (tS.bttTaskList[pos - 1]).compareTo tS.bttTaskList[pos] = .ok 0 then
              (tS.bttTaskList.set (pos - 1) tS.bttTaskList[pos]).set pos tS.bttTaskList[pos - 1]
            else tS.bttTaskList) ∧
          ((tS.moveUp pos .btt).2.moveDown (pos - 1) .btt).2.bttTaskList =
            tS.bttTaskList) ∧
      (∀ pos < tS.bttTaskList.length,
        (tS.deleteTask pos .btt).2.bttTaskList = tS.bttTaskList.eraseIdx pos) ∧
      ∀ t : BttTask, t.Keyed → ∃ before after, tS.bttTaskList = before ++ after ∧
        (tS.addTask .btt (.btt t)).2.bttTaskList = before ++ t :: after ∧
        (∀ a ∈ before, Precedes BttTask.compareTo a t) ∧
        ∀ a ∈ after, ∃ i, a.compareTo t = .ok i ∧ 0 < i := by
  have h : InOrder tS.bttTaskList := hrun ▸ InOrder.editAll hempty hops
  refine ⟨h.sorted, ?_, fun pos _ => deleteTask_btt h pos,
    fun t ht => addTask_btt h ht⟩
  intro pos hlt h0
  obtain ⟨pre, x, y, post, hlist, rfl⟩ := exists_neighbours h0 hlt
  have hmove := moveUp_moveDown h hlist
  have hx : tS.bttTaskList[pre.length + 1 - 1] = x := by simp [hlist]
  have hy : tS.bttTaskList[pre.length + 1] = y := by simp [hlist]
  have hswap : (tS.bttTaskList.set (pre.length + 1 - 1) y).set (pre.length + 1) x =
      pre ++ y :: x :: post := by
    simp [hlist]
  rw [hx, hy, hswap]
  exact hmove

def bttTask (configuration place : String) : BttTask :=
  ⟨some "initial".toList, some configuration.toList, some place.toList, some "M20".toList, .init⟩

theorem btt_edits_two :
    Sorted BttTask.compareTo (TaskSpec.editAll
      [(.btt, .add (.btt (bttTask "line" "S2"))), (.btt, .add (.btt (bttTask "line" "S1")))]
      {}).bttTaskList := by
  refine (btt_edits empty_empty _ ?_ rfl).1
  intro l hl t ht
  simp only [List.mem_cons, List.not_mem_nil, or_false] at hl
  obtain rfl | rfl := hl
  · obtain rfl := Task.btt.inj (List.mem_singleton.mp ht)
    decide
  · obtain rfl := Task.btt.inj (List.mem_singleton.mp ht)
    decide

/-- A task of null fields is added, and then two tasks against their order. -/
theorem btt_unsorted :
    (TaskSpec.editAll [(.btt, .add (.btt nullTask)),
        (.btt, .add (.btt (bttTask "line" "S2"))), (.btt, .add (.btt (bttTask "line" "S1")))]
        {}).bttTaskList = [nullTask, bttTask "line" "S2", bttTask "line" "S1"] ∧
      ¬ Sorted BttTask.compareTo [nullTask, bttTask "line" "S2", bttTask "line" "S1"] ∧
      (({ bttTaskList := [nullTask, bttTask "line" "S2", bttTask "line" "S1"] } : TaskSpec).moveUp
        2 .btt).2.bttTaskList = [nullTask, bttTask "line" "S1", bttTask "line" "S2"] ∧
      (bttTask "line" "S2").compareTo (bttTask "line" "S1") ≠ .ok 0 := by
  refine ⟨by decide, ?_, by decide, by decide⟩
  unfold Sorted
  decide

end RefereeBox.Nullable
