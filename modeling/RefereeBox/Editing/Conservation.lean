import Mathlib.Data.List.InsertIdx
import Mathlib.Data.List.Perm.Basic
import RefereeBox.Lib.Transition
import RefereeBox.Model.Nullable

/-! # Editing Conserves the Tasks

  What an editing operation must do to the tasks of its competition
  (`Conserves`). Two things stand against it. `moveDown` on CTT reads the size of
  the BTT list: at the last position it removes the task and then fails to insert
  it (`LosesLast`). And behind every change the list is sorted and printed, which
  raises on null fields and leaves the change: the tasks that an operation works on
  must be ones that can be compared and printed (`Undisturbed`).

  Over whole runs, a ledger keeps what was added and what was handed back: as long
  as no step is of these kinds, the lists hold exactly the difference.
-/

namespace RefereeBox.Nullable

open CheckedSort

/-- What an operation puts into the list of its competition. -/
def EditOp.added : EditOp → Outcome → List Task
  | .add task, .done => [task]
  | .update _ task, .returned (some _) => [task]
  | _, _ => []

/-- What an operation hands back from the list. -/
def EditOp.removed : EditOp → Outcome → List Task
  | .delete _, .returned (some task) => [task]
  | .update _ _, .returned (some task) => [task]
  | _, _ => []

def EditOp.Moves : EditOp → Prop
  | .moveUp _ | .moveDown _ => True
  | _ => False

/-- The operation neither loses nor duplicates nor alters a task: what it does
    to the tasks `before`, where it ends with `outcome` and the tasks `after`.
    The first field is for the given position in range and the given task of
    the class of the competition. -/
structure Conserves (compIdent : CompetitionIdentifier) (op : EditOp) (before after : List Task)
    (outcome : Outcome) : Prop where
  effect : match op with
    | .add task => task.competition = compIdent →
        outcome = .done ∧ after.Perm (task :: before)
    | .delete pos => pos < before.length →
        outcome = .returned before[pos]? ∧ after.Perm (before.eraseIdx pos)
    | .update pos task => task.competition = compIdent → pos < before.length →
        outcome = .returned before[pos]? ∧ after.Perm (before.set pos task)
    | .moveUp pos => pos < before.length → after.Perm before
    | .moveDown pos => pos < before.length → after.Perm before
  balance : (after ++ op.removed outcome).Perm (before ++ op.added outcome)
  failure : ∀ e, outcome = .threw e → after = before
  null : outcome = .returned none → after = before

/-- An operation that does nothing and says so, in the cases it may. -/
theorem Conserves.unchanged {compIdent : CompetitionIdentifier} {op : EditOp} {tasks : List Task}
    {outcome : Outcome} (hadded : op.added outcome = []) (hremoved : op.removed outcome = [])
    (heffect : match op with
      | .add task => task.competition ≠ compIdent
      | .delete pos => tasks.length ≤ pos
      | .update pos task => task.competition = compIdent → tasks.length ≤ pos
      | _ => True) : Conserves compIdent op tasks tasks outcome := by
  refine ⟨?_, by rw [hadded, hremoved], fun _ _ => rfl, fun _ => rfl⟩
  cases op with
  | add task => exact fun h => absurd h heffect
  | delete pos => exact fun h => absurd h (Nat.not_lt.mpr heffect)
  | update pos task => exact fun h h' => absurd h' (Nat.not_lt.mpr (heffect h))
  | moveUp pos => exact fun _ => List.Perm.refl _
  | moveDown pos => exact fun _ => List.Perm.refl _

/-! ### One branch -/

theorem insertIdx_length {α : Type} (pre post : List α) (a : α) :
    (pre ++ post).insertIdx pre.length a = pre ++ a :: post := by
  induction pre with
  | nil => rfl
  | cons b pre ih => simp [ih]

/-- The neighbours at a position that is not the first one. -/
theorem exists_neighbours {α : Type} {l : List α} {pos : Nat} (h0 : 0 < pos)
    (hlt : pos < l.length) :
    ∃ pre x y post, l = pre ++ x :: y :: post ∧ pos = pre.length + 1 := by
  refine ⟨l.take (pos - 1), l[pos - 1], l[pos], l.drop (pos + 1), ?_, ?_⟩
  · conv_lhs => rw [← List.take_append_drop (pos - 1) l]
    rw [List.drop_eq_getElem_cons (by omega : pos - 1 < l.length)]
    simp only [Nat.sub_add_cancel h0]
    rw [List.drop_eq_getElem_cons hlt]
  · rw [List.length_take]
    omega

namespace TaskBranch

variable {τ : Type} (b : TaskBranch τ)

/-- An operation of the branch, with the size that `moveDown` reads. -/
def edit (size : Nat) (op : EditOp) (l : List τ) : Outcome × List τ :=
  match op with
  | .add task => b.addTask task l
  | .delete pos => b.deleteTask pos l
  | .update pos task => b.updateTask pos task l
  | .moveUp pos => b.moveUp pos l
  | .moveDown pos => b.moveDown size pos l

/-- The change that an operation makes, if it gets there: how the operation ends
    if nothing raises behind it, the tasks it prints into the log, and the changed
    list. -/
def change (size : Nat) (op : EditOp) (l : List τ) : Option (Outcome × List τ × List τ) :=
  match op with
  | .add task => (b.cast task).map fun t => (.done, [t], l ++ [t])
  | .delete pos => l[pos]?.map fun t => (.returned (some (b.task t)), [t], l.eraseIdx pos)
  | .update pos task => (b.cast task).bind fun t => l[pos]?.map fun old =>
      (.returned (some (b.task old)), [old, t], l.set pos t)
  | .moveUp pos => l[pos]?.bind fun t =>
      if pos = 0 then none
      else some (.returned (some (b.task t)), [t], (l.eraseIdx pos).insertIdx (pos - 1) t)
  | .moveDown pos => l[pos]?.bind fun t =>
      if size = pos + 1 ∨ l.length = pos + 1 then none
      else some (.returned (some (b.task t)), [t], (l.eraseIdx pos).insertIdx (pos + 1) t)

/-- The changed list can be sorted, and everything that is printed can be. -/
def Readable (logged changed : List τ) : Prop :=
  (b.sort changed).isOk = true ∧ ∀ t ∈ logged ++ changed, (b.getString t).isOk = true

/-- So it is for the change that the operation makes. -/
def Reads (size : Nat) (op : EditOp) (l : List τ) : Prop :=
  ∀ outcome logged changed, b.change size op l = some (outcome, logged, changed) →
    b.Readable logged changed

/-- The list that is left where the sort or the printing raises. -/
def settle (l : List τ) : List τ :=
  match b.sort l with
  | .ok l' => l'
  | .error _ => l

/-- A branch that keeps to its own class. -/
structure Lawful (compIdent : CompetitionIdentifier) : Prop where
  cast_some : ∀ task t, b.cast task = some t → task = b.task t
  cast_isSome : ∀ task : Task, task.competition = compIdent → (b.cast task).isSome = true
  competition_task : ∀ t, (b.task t).competition = compIdent
  task_injective : Function.Injective b.task
  sort_perm : ∀ l l', b.sort l = .ok l' → l'.Perm l

variable {b} {compIdent : CompetitionIdentifier}

theorem print_ok_iff {l : List τ} :
    b.print l = .ok () ↔ ∀ t ∈ l, (b.getString t).isOk = true := by
  induction l with
  | nil => simp [print]
  | cons t l ih =>
    rw [List.forall_mem_cons, ← ih, print]
    cases b.getString t with
    | ok s => exact ⟨fun h => ⟨rfl, h⟩, fun h => h.2⟩
    | error e => exact iff_of_false (fun h => nomatch h) fun h => nomatch h.1

theorem Lawful.settle_perm (hb : b.Lawful compIdent) (l : List τ) : (b.settle l).Perm l := by
  unfold settle
  split
  · next hsort => exact hb.sort_perm _ _ hsort
  · exact .refl l

/-- The list is settled in any case. -/
theorem finish_list (b : TaskBranch τ) (outcome : Outcome) (logged changed : List τ) :
    (b.finish outcome logged changed).2 = b.settle changed := by
  unfold finish settle
  cases b.sort changed <;> rfl

/-- A change that can be read ends as the operation says. -/
theorem Lawful.finish_ok (hb : b.Lawful compIdent) {outcome : Outcome} {logged changed : List τ}
    (h : b.Readable logged changed) :
    b.finish outcome logged changed = (outcome, b.settle changed) := by
  obtain ⟨hsort, hprint⟩ := h
  unfold finish settle
  cases hl : b.sort changed with
  | ok l =>
    have hprinted : b.print (logged ++ l) = .ok () := by
      rw [print_ok_iff]
      intro t ht
      apply hprint
      obtain ht | ht := List.mem_append.mp ht
      · exact List.mem_append_left _ ht
      · exact List.mem_append_right _ ((hb.sort_perm _ _ hl).mem_iff.mp ht)
    show (b.report outcome logged l, l) = (outcome, l)
    rw [report, hprinted]
  | error e =>
    rw [hl] at hsort
    cases hsort

/-- Any other change stays, and the operation raises. -/
theorem Lawful.finish_threw (hb : b.Lawful compIdent) {outcome : Outcome}
    {logged changed : List τ} (h : ¬ b.Readable logged changed) :
    ∃ e, b.finish outcome logged changed = (.threw e, b.settle changed) := by
  unfold finish settle
  cases hl : b.sort changed with
  | ok l =>
    show ∃ e, (b.report outcome logged l, l) = (.threw e, l)
    rw [report]
    cases hprint : b.print (logged ++ l) with
    | ok u =>
      refine absurd ⟨by rw [hl]; rfl, fun t ht => ?_⟩ h
      apply print_ok_iff.mp hprint
      obtain ht | ht := List.mem_append.mp ht
      · exact List.mem_append_left _ ht
      · exact List.mem_append_right _ ((hb.sort_perm _ _ hl).mem_iff.mpr ht)
    | error e => exact ⟨e, rfl⟩
  | error e => exact ⟨e, rfl⟩

/-- **Inversion**: an operation makes its change (this lemma), refuses (`edit_refuses`),
    or loses the last task (`LosesLast.edit_eq`). -/
theorem edit_change {size : Nat} {op : EditOp} {l : List τ} {outcome : Outcome}
    {logged changed : List τ} (h : b.change size op l = some (outcome, logged, changed)) :
    b.edit size op l = b.finish outcome logged changed := by
  cases op with
  | add task =>
    obtain ⟨t, hcast, heq⟩ := Option.map_eq_some_iff.mp h
    obtain ⟨rfl, rfl, rfl⟩ : .done = outcome ∧ [t] = logged ∧ l ++ [t] = changed := by
      simpa using heq
    show b.addTask task l = _
    rw [addTask, hcast]
  | delete pos =>
    obtain ⟨t, hget, heq⟩ := Option.map_eq_some_iff.mp h
    cases heq
    show b.deleteTask pos l = _
    rw [deleteTask, hget]
  | update pos task =>
    obtain ⟨t, hcast, h⟩ := Option.bind_eq_some_iff.mp h
    obtain ⟨old, hget, heq⟩ := Option.map_eq_some_iff.mp h
    cases heq
    show b.updateTask pos task l = _
    rw [updateTask, hcast]
    dsimp only
    rw [hget]
  | moveUp pos =>
    obtain ⟨t, hget, h⟩ := Option.bind_eq_some_iff.mp h
    split at h
    · cases h
    · next hzero =>
      cases h
      have hlen := List.length_eraseIdx_of_lt (List.getElem?_eq_some_iff.mp hget).1
      have hpos := (List.getElem?_eq_some_iff.mp hget).1
      show b.moveUp pos l = _
      rw [moveUp, if_neg hzero, hget]
      dsimp only
      rw [insert, if_pos (by omega)]
  | moveDown pos =>
    obtain ⟨t, hget, h⟩ := Option.bind_eq_some_iff.mp h
    split at h
    · cases h
    · next hsize =>
      cases h
      have hlen := List.length_eraseIdx_of_lt (List.getElem?_eq_some_iff.mp hget).1
      have hpos := (List.getElem?_eq_some_iff.mp hget).1
      show b.moveDown size pos l = _
      rw [moveDown, if_neg fun h => hsize (.inl h), hget]
      dsimp only
      rw [insert, if_pos (by omega)]

/-- The exceptional case: `moveDown` at the last position reads another size. -/
def LosesLast (size : Nat) (op : EditOp) (l : List τ) : Prop :=
  ∃ pos, op = .moveDown pos ∧ l.length = pos + 1 ∧ size ≠ pos + 1

theorem LosesLast.change_eq {size : Nat} {op : EditOp} {l : List τ} (h : LosesLast size op l) :
    b.change size op l = none := by
  obtain ⟨pos, rfl, hlen, -⟩ := h
  show l[pos]?.bind _ = none
  cases l[pos]? with
  | none => rfl
  | some t => exact if_pos (.inr hlen)

theorem LosesLast.edit_eq {size : Nat} {op : EditOp} {l : List τ} (h : LosesLast size op l) :
    b.edit size op l = (.threw .indexOutOfBounds, l.dropLast) := by
  obtain ⟨pos, rfl, hlen, hsize⟩ := h
  have hpos : pos < l.length := by omega
  have hget : l[pos]? = some l[pos] := List.getElem?_eq_getElem hpos
  have herase := List.length_eraseIdx_of_lt hpos
  have hdrop : l.eraseIdx pos = l.dropLast := by
    rw [← List.eraseIdx_length_sub_one]
    congr 1
    omega
  show b.moveDown size pos l = _
  rw [moveDown, if_neg hsize, hget]
  dsimp only
  rw [insert, if_neg (by omega), hdrop]

/-- An operation without a change leaves the list alone, the exceptional case apart. -/
theorem edit_refuses {size : Nat} {op : EditOp} {l : List τ} (h : b.change size op l = none)
    (hlast : ¬ LosesLast size op l) :
    ∃ outcome, b.edit size op l = (outcome, l) ∧
      (outcome = .returned none ∨ ∃ e, outcome = .threw e) := by
  cases op with
  | add task =>
    refine ⟨.threw .classCast, ?_, .inr ⟨_, rfl⟩⟩
    show b.addTask task l = _
    rw [addTask, Option.map_eq_none_iff.mp h]
  | delete pos =>
    refine ⟨.threw .indexOutOfBounds, ?_, .inr ⟨_, rfl⟩⟩
    show b.deleteTask pos l = _
    rw [deleteTask, Option.map_eq_none_iff.mp h]
  | update pos task =>
    show ∃ outcome, b.updateTask pos task l = _ ∧ _
    unfold updateTask
    cases hcast : b.cast task with
    | none => exact ⟨.threw .classCast, rfl, .inr ⟨_, rfl⟩⟩
    | some t =>
      cases hget : l[pos]? with
      | none => exact ⟨.threw .indexOutOfBounds, rfl, .inr ⟨_, rfl⟩⟩
      | some old =>
        have hsome : b.change size (.update pos task) l =
            some (.returned (some (b.task old)), [old, t], l.set pos t) := by
          simp [change, hcast, hget]
        rw [hsome] at h
        cases h
  | moveUp pos =>
    show ∃ outcome, b.moveUp pos l = _ ∧ _
    unfold moveUp
    by_cases hzero : pos = 0
    · rw [if_pos hzero]
      exact ⟨_, rfl, .inl rfl⟩
    · rw [if_neg hzero]
      cases hget : l[pos]? with
      | none => exact ⟨.threw .indexOutOfBounds, rfl, .inr ⟨_, rfl⟩⟩
      | some t => simp [change, hget, hzero] at h
  | moveDown pos =>
    show ∃ outcome, b.moveDown size pos l = _ ∧ _
    unfold moveDown
    by_cases hsize : size = pos + 1
    · rw [if_pos hsize]
      exact ⟨_, rfl, .inl rfl⟩
    · rw [if_neg hsize]
      cases hget : l[pos]? with
      | none => exact ⟨.threw .indexOutOfBounds, rfl, .inr ⟨_, rfl⟩⟩
      | some t =>
        have hlen : l.length ≠ pos + 1 := fun hlen => hlast ⟨pos, rfl, hlen, hsize⟩
        simp [change, hget, hsize, hlen] at h

/-! ### What a change conserves -/

/-- The task at a position and the other ones are the list. -/
theorem eraseIdx_append_perm {α : Type} {l : List α} {pos : Nat} {t : α}
    (hget : l[pos]? = some t) : (l.eraseIdx pos ++ [t]).Perm l := by
  obtain ⟨hpos, rfl⟩ := List.getElem?_eq_some_iff.mp hget
  exact (List.perm_append_singleton _ _).trans (List.getElem_cons_eraseIdx_perm hpos)

/-- `remove` and then `add` within the bounds: a permutation. -/
theorem insertIdx_eraseIdx_perm {α : Type} {l : List α} {pos pos' : Nat} {t : α}
    (hget : l[pos]? = some t) (hpos' : pos' < l.length) :
    ((l.eraseIdx pos).insertIdx pos' t).Perm l := by
  obtain ⟨hpos, rfl⟩ := List.getElem?_eq_some_iff.mp hget
  have hlen := List.length_eraseIdx_of_lt hpos
  exact (List.perm_insertIdx _ _ (by omega)).trans (List.getElem_cons_eraseIdx_perm hpos)

/-- The changed list of a move is a permutation. -/
theorem change_perm {size : Nat} {op : EditOp} {l : List τ} {outcome : Outcome}
    {logged changed : List τ} (hop : op.Moves)
    (h : b.change size op l = some (outcome, logged, changed)) : changed.Perm l := by
  cases op with
  | moveUp pos | moveDown pos =>
    obtain ⟨t, hget, h⟩ := Option.bind_eq_some_iff.mp h
    have hpos := (List.getElem?_eq_some_iff.mp hget).1
    split at h
    · cases h
    · cases h
      exact insertIdx_eraseIdx_perm hget (by omega)
  | add task | delete pos | update pos task => exact hop.elim

/-- A change without an exception conserves the tasks, in whatever order it ends. -/
theorem Lawful.change_conserves (hb : b.Lawful compIdent) {size : Nat} {op : EditOp} {l l' : List τ}
    {outcome : Outcome} {logged changed : List τ}
    (h : b.change size op l = some (outcome, logged, changed)) (hl' : l'.Perm changed) :
    Conserves compIdent op (l.map b.task) (l'.map b.task) outcome := by
  have hperm := hl'.map b.task
  cases op with
  | add task =>
    obtain ⟨t, hcast, heq⟩ := Option.map_eq_some_iff.mp h
    cases heq
    obtain rfl := hb.cast_some task t hcast
    rw [List.map_append] at hperm
    refine ⟨fun _ => ⟨rfl, hperm.trans (List.perm_append_singleton _ _)⟩, ?_,
      fun _ h => (nomatch h), fun h => nomatch h⟩
    rw [show EditOp.removed (.add (b.task t)) .done = [] from rfl, List.append_nil]
    exact hperm
  | delete pos =>
    obtain ⟨t, hget, heq⟩ := Option.map_eq_some_iff.mp h
    cases heq
    have htask : (l.map b.task)[pos]? = some (b.task t) := by rw [List.getElem?_map, hget]; rfl
    rw [← List.eraseIdx_map] at hperm
    refine ⟨fun _ => ⟨congrArg Outcome.returned htask.symm, hperm⟩, ?_,
      fun _ h => (nomatch h), fun h => nomatch h⟩
    show (l'.map b.task ++ [b.task t]).Perm (l.map b.task ++ [])
    rw [List.append_nil]
    exact (hperm.append_right _).trans (eraseIdx_append_perm htask)
  | update pos task =>
    obtain ⟨t, hcast, h⟩ := Option.bind_eq_some_iff.mp h
    obtain ⟨old, hget, heq⟩ := Option.map_eq_some_iff.mp h
    cases heq
    obtain rfl := hb.cast_some task t hcast
    have htask : (l.map b.task)[pos]? = some (b.task old) := by rw [List.getElem?_map, hget]; rfl
    have hlen := (List.getElem?_eq_some_iff.mp htask).1
    rw [List.map_set] at hperm
    refine ⟨fun _ _ => ⟨congrArg Outcome.returned htask.symm, hperm⟩, ?_,
      fun _ h => (nomatch h), fun h => nomatch h⟩
    -- the new task stands in front of the list without the old one
    have hset := hperm.trans (List.set_perm_cons_eraseIdx hlen (b.task t))
    calc l'.map b.task ++ [b.task old]
        _ |>.Perm ((b.task t :: (l.map b.task).eraseIdx pos) ++ [b.task old]) :=
          hset.append_right _
        _ |>.Perm (b.task t :: l.map b.task) := (eraseIdx_append_perm htask).cons _
        _ |>.Perm (l.map b.task ++ [b.task t]) := (List.perm_append_singleton _ _).symm
  | moveUp pos | moveDown pos =>
    have hmoved := hperm.trans ((change_perm (by trivial) h).map b.task)
    obtain ⟨t, -, h⟩ := Option.bind_eq_some_iff.mp h
    split at h
    · cases h
    · cases h
      exact ⟨fun _ => hmoved, by simpa [EditOp.added, EditOp.removed] using hmoved,
        fun _ h => (nomatch h), fun h => nomatch h⟩

/-- A change with an exception conserves them only if it is a move that leaves the
    list as it was. -/
theorem Lawful.threw_conserves_iff (hb : b.Lawful compIdent) {size : Nat} {op : EditOp}
    {l l' : List τ} {outcome : Outcome} {logged changed : List τ}
    (h : b.change size op l = some (outcome, logged, changed)) (e : Exn) :
    Conserves compIdent op (l.map b.task) (l'.map b.task) (.threw e) ↔ op.Moves ∧ l' = l := by
  constructor
  · intro hcons
    have hsame : l' = l :=
      List.map_injective_iff.mpr hb.task_injective (hcons.failure e rfl)
    refine ⟨?_, hsame⟩
    have heffect := hcons.effect
    cases op with
    | add task =>
      obtain ⟨t, hcast, -⟩ := Option.map_eq_some_iff.mp h
      obtain rfl := hb.cast_some task t hcast
      cases (heffect (hb.competition_task t)).1
    | delete pos =>
      obtain ⟨t, hget, -⟩ := Option.map_eq_some_iff.mp h
      have hpos := (List.getElem?_eq_some_iff.mp hget).1
      cases (heffect (by rwa [List.length_map])).1
    | update pos task =>
      obtain ⟨t, hcast, h⟩ := Option.bind_eq_some_iff.mp h
      obtain ⟨old, hget, -⟩ := Option.map_eq_some_iff.mp h
      obtain rfl := hb.cast_some task t hcast
      have hpos := (List.getElem?_eq_some_iff.mp hget).1
      cases (heffect (hb.competition_task t) (by rwa [List.length_map])).1
    | moveUp pos | moveDown pos => trivial
  · rintro ⟨hop, rfl⟩
    cases op with
    | moveUp pos | moveDown pos => exact Conserves.unchanged rfl rfl trivial
    | add task | delete pos | update pos task => exact hop.elim

/-- An operation without a change does nothing and says so. -/
theorem Lawful.refuses_conserves (hb : b.Lawful compIdent) {size : Nat} {op : EditOp} {l : List τ}
    {outcome : Outcome} (h : b.change size op l = none)
    (houtcome : outcome = .returned none ∨ ∃ e, outcome = .threw e) :
    Conserves compIdent op (l.map b.task) (l.map b.task) outcome := by
  have hnothing : op.added outcome = [] ∧ op.removed outcome = [] := by
    obtain rfl | ⟨e, rfl⟩ := houtcome
    · cases op <;> exact ⟨rfl, rfl⟩
    · cases op <;> exact ⟨rfl, rfl⟩
  refine Conserves.unchanged hnothing.1 hnothing.2 ?_
  cases op with
  | add task =>
    intro hclass
    have hsome := hb.cast_isSome task hclass
    rw [Option.map_eq_none_iff.mp h] at hsome
    cases hsome
  | delete pos =>
    show (l.map b.task).length ≤ pos
    rw [List.length_map]
    exact List.getElem?_eq_none_iff.mp (Option.map_eq_none_iff.mp h)
  | update pos task =>
    intro hclass
    obtain ⟨t, hcast⟩ := Option.isSome_iff_exists.mp (hb.cast_isSome task hclass)
    have hget : l[pos]? = none := by
      have hmap : (b.cast task).bind _ = none := h
      rw [hcast] at hmap
      exact Option.map_eq_none_iff.mp hmap
    rw [List.length_map]
    exact List.getElem?_eq_none_iff.mp hget
  | moveUp pos | moveDown pos => trivial

/-- The changed list settles as the list was. -/
def Undone (b : TaskBranch τ) (size : Nat) (op : EditOp) (l : List τ) : Prop :=
  ∀ outcome logged changed, b.change size op l = some (outcome, logged, changed) →
    b.settle changed = l

theorem undone_iff_of_change {size : Nat} {op : EditOp} {l : List τ} {outcome : Outcome}
    {logged changed : List τ} (h : b.change size op l = some (outcome, logged, changed)) :
    b.Undone size op l ↔ b.settle changed = l := by
  unfold Undone
  rw [h]
  exact ⟨fun h => h _ _ _ rfl, fun h _ _ _ heq => by cases heq; exact h⟩

theorem reads_iff_of_change {size : Nat} {op : EditOp} {l : List τ} {outcome : Outcome}
    {logged changed : List τ} (h : b.change size op l = some (outcome, logged, changed)) :
    b.Reads size op l ↔ b.Readable logged changed := by
  unfold Reads
  rw [h]
  exact ⟨fun h => h _ _ _ rfl, fun h _ _ _ heq => by cases heq; exact h⟩

theorem reads_of_refuses {size : Nat} {op : EditOp} {l : List τ}
    (h : b.change size op l = none) : b.Reads size op l := by
  intro outcome logged changed hchange
  rw [h] at hchange
  cases hchange

/-- An operation conserves the tasks of the branch exactly if it does not lose the
    last one and its change can be read, or is a move that comes to nothing. -/
theorem Lawful.edit_conserves_iff (hb : b.Lawful compIdent) (size : Nat) (op : EditOp)
    (l : List τ) :
    Conserves compIdent op (l.map b.task) ((b.edit size op l).2.map b.task)
        (b.edit size op l).1 ↔
      ¬ LosesLast size op l ∧ (b.Reads size op l ∨ op.Moves ∧ b.Undone size op l) := by
  cases hchange : b.change size op l with
  | some c =>
    obtain ⟨outcome, logged, changed⟩ := c
    have hlast : ¬ LosesLast size op l := by
      intro hlast
      rw [hlast.change_eq] at hchange
      cases hchange
    rw [edit_change hchange, and_iff_right hlast]
    rw [reads_iff_of_change hchange, undone_iff_of_change hchange]
    by_cases hread : b.Readable logged changed
    · rw [hb.finish_ok hread]
      exact iff_of_true (hb.change_conserves hchange (hb.settle_perm changed)) (.inl hread)
    · -- the exception is raised behind the change
      obtain ⟨e, he⟩ := hb.finish_threw hread
      rw [he, or_iff_right hread]
      exact hb.threw_conserves_iff hchange e
  | none =>
    rw [and_iff_left (.inl (reads_of_refuses hchange))]
    by_cases hlast : LosesLast size op l
    · -- `remove` has shortened the list before `add` raises
      refine iff_of_false (fun h => ?_) fun h => h hlast
      rw [hlast.edit_eq] at h
      have hkept := congrArg List.length (h.failure _ rfl)
      obtain ⟨pos, -, hlen, -⟩ := hlast
      simp only [List.length_map, List.length_dropLast] at hkept
      omega
    · refine iff_of_true ?_ hlast
      obtain ⟨outcome, hedit, houtcome⟩ := edit_refuses hchange hlast
      rw [hedit]
      exact hb.refuses_conserves hchange houtcome

section moves
variable {pre post : List τ} {x y : τ}

theorem change_moveUp (size : Nat) :
    b.change size (.moveUp (pre.length + 1)) (pre ++ x :: y :: post) =
      some (.returned (some (b.task y)), [y], pre ++ y :: x :: post) := by
  have hget : (pre ++ x :: y :: post)[pre.length + 1]? = some y := by simp
  have hremoved : (pre ++ x :: y :: post).eraseIdx (pre.length + 1) = pre ++ x :: post := by
    simp [List.eraseIdx_append_of_length_le]
  unfold change
  dsimp only
  rw [hget, hremoved, Option.bind_some, if_neg (Nat.succ_ne_zero _), Nat.add_sub_cancel,
    insertIdx_length]

theorem change_moveDown {size : Nat} (hsize : size ≠ pre.length + 1) :
    b.change size (.moveDown pre.length) (pre ++ x :: y :: post) =
      some (.returned (some (b.task x)), [x], pre ++ y :: x :: post) := by
  have hget : (pre ++ x :: y :: post)[pre.length]? = some x := by simp
  have hremoved : (pre ++ x :: y :: post).eraseIdx pre.length = pre ++ y :: post := by
    simp [List.eraseIdx_append_of_length_le]
  have hlast : ¬ (size = pre.length + 1 ∨ (pre ++ x :: y :: post).length = pre.length + 1) := by
    rw [List.length_append]
    exact fun h => h.elim hsize (by simp)
  have hinsert : (pre ++ y :: post).insertIdx (pre.length + 1) x = pre ++ y :: x :: post := by
    have h := insertIdx_length (pre ++ [y]) post x
    rw [List.length_append, List.append_assoc, List.append_assoc] at h
    exact h
  unfold change
  dsimp only
  rw [hget, hremoved, Option.bind_some, if_neg hlast, hinsert]

/-- A move exchanges neighbours. -/
theorem change_moves {size : Nat} {op : EditOp} {l : List τ} {outcome : Outcome}
    {logged changed : List τ} (hop : op.Moves)
    (h : b.change size op l = some (outcome, logged, changed)) :
    ∃ pre x y post, l = pre ++ x :: y :: post ∧ changed = pre ++ y :: x :: post ∧
      (op = .moveUp (pre.length + 1) ∨ op = .moveDown pre.length ∧ size ≠ pre.length + 1) := by
  cases op with
  | moveUp pos =>
    obtain ⟨t, hget, hmove⟩ := Option.bind_eq_some_iff.mp h
    have hzero : pos ≠ 0 := by
      rintro rfl
      cases hmove
    obtain ⟨pre, x, y, post, rfl, rfl⟩ :=
      exists_neighbours (Nat.pos_of_ne_zero hzero) (List.getElem?_eq_some_iff.mp hget).1
    rw [change_moveUp] at h
    cases h
    exact ⟨pre, x, y, post, rfl, rfl, .inl rfl⟩
  | moveDown pos =>
    obtain ⟨t, hget, hmove⟩ := Option.bind_eq_some_iff.mp h
    have hsize : ¬ (size = pos + 1 ∨ l.length = pos + 1) := by
      intro hsize
      rw [if_pos hsize] at hmove
      cases hmove
    have hpos := (List.getElem?_eq_some_iff.mp hget).1
    obtain ⟨pre, x, y, post, rfl, heq⟩ :=
      exists_neighbours (Nat.succ_pos pos) (show pos + 1 < l.length by omega)
    obtain rfl : pos = pre.length := Nat.succ.inj heq
    have hown : size ≠ pre.length + 1 := fun heq => hsize (.inl heq)
    rw [change_moveDown hown] at h
    cases h
    exact ⟨pre, x, y, post, rfl, rfl, .inr ⟨rfl, hown⟩⟩
  | add task | delete pos | update pos task => exact hop.elim

end moves

end TaskBranch

/-! ### Moves that come to nothing -/

/-- The exchange of two neighbours leaves the list as it is: they are equal, or the
    list is sorted and they are not equal in the comparison. -/
def Resists {τ : Type} (cmp : τ → τ → Except Exn Int) (l : List τ) (pos : Nat) :
    Prop :=
  ∃ pre x y post, l = pre ++ x :: y :: post ∧ pos = pre.length ∧
    if l.Pairwise (Comparable cmp) then Sorted cmp l ∧ (x = y ∨ cmp x y ≠ .ok 0) else x = y

/-- The operation is a move that comes to nothing. -/
def EditOp.Resists {τ : Type} (cmp : τ → τ → Except Exn Int) (size : Nat)
    (l : List τ) : EditOp → Prop
  | .moveUp pos => 0 < pos ∧ Nullable.Resists cmp l (pos - 1)
  | .moveDown pos => size ≠ pos + 1 ∧ Nullable.Resists cmp l pos
  | _ => False

/-- The tasks of the list can be compared with each other, and those and `logged` can
    be printed. -/
def Legible {τ : Type} (cmp : τ → τ → Except Exn Int) (getString : τ → Except Exn Text)
    (logged l : List τ) : Prop :=
  l.Pairwise (Comparable cmp) ∧ ∀ t ∈ logged ++ l, (getString t).isOk = true

/-- So it is for the tasks that an operation logs and leaves in the list, if it gets so
    far as to change it. -/
def EditOp.Legible {τ : Type} (cmp : τ → τ → Except Exn Int) (getString : τ → Except Exn Text)
    (cast : Task → Option τ) (size : Nat) (l : List τ) : EditOp → Prop
  | .add task => ∀ t, cast task = some t → Nullable.Legible cmp getString [t] (l ++ [t])
  | .delete pos => ∀ t, l[pos]? = some t → Nullable.Legible cmp getString [t] (l.eraseIdx pos)
  | .update pos task => ∀ t old, cast task = some t → l[pos]? = some old →
      Nullable.Legible cmp getString [old, t] (l.set pos t)
  | .moveUp pos => 0 < pos → pos < l.length → Nullable.Legible cmp getString [] l
  | .moveDown pos => size ≠ pos + 1 → pos + 1 < l.length → Nullable.Legible cmp getString [] l

theorem resists_iff {τ : Type} {cmp : τ → τ → Except Exn Int} {pre post : List τ}
    {x y : τ} : Resists cmp (pre ++ x :: y :: post) pre.length ↔
      if (pre ++ x :: y :: post).Pairwise (Comparable cmp) then
        Sorted cmp (pre ++ x :: y :: post) ∧ (x = y ∨ cmp x y ≠ .ok 0)
      else x = y := by
  constructor
  · rintro ⟨pre', x', y', post', heq, hlen, h⟩
    obtain ⟨rfl, hrest⟩ := List.append_inj heq hlen
    obtain ⟨rfl, hpost⟩ := List.cons.inj hrest
    obtain ⟨rfl, rfl⟩ := List.cons.inj hpost
    exact h
  · exact fun h => ⟨pre, x, y, post, rfl, rfl, h⟩

namespace TaskBranch

variable {τ : Type} {b : TaskBranch τ} {cmp : τ → τ → Except Exn Int}
  {total : τ → τ → Int} (hcmp : Extends cmp total) (hsort : b.sort = CheckedSort.sort cmp)

include hsort in
theorem settle_eq (l : List τ) : b.settle l = CheckedSort.settle cmp l := by
  unfold settle CheckedSort.settle
  rw [hsort]
  cases CheckedSort.sort cmp l <;> rfl

include hcmp hsort

theorem settle_eq_iff {size : Nat} {op : EditOp} {l : List τ} {outcome : Outcome}
    {logged changed : List τ} (h : b.change size op l = some (outcome, logged, changed)) :
    op.Moves ∧ b.settle changed = l ↔ op.Resists cmp size l := by
  by_cases hop : op.Moves
  · rw [and_iff_right hop, settle_eq hsort]
    obtain ⟨pre, x, y, post, rfl, rfl, rfl | ⟨rfl, hsize⟩⟩ := change_moves hop h
    · rw [settle_exchange_iff hcmp, ← resists_iff]
      exact (and_iff_right (Nat.succ_pos _)).symm
    · rw [settle_exchange_iff hcmp, ← resists_iff]
      exact (and_iff_right hsize).symm
  · refine iff_of_false (fun h => hop h.1) fun h => hop ?_
    cases op with
    | moveUp pos | moveDown pos => trivial
    | add task | delete pos | update pos task => exact h

omit hcmp in
theorem readable_iff {logged changed : List τ} :
    b.Readable logged changed ↔ Legible cmp b.getString logged changed := by
  unfold Readable Legible
  rw [hsort, isOk_sort_iff]

omit hsort in
/-- The moved task is one of the list, and its place does not matter. -/
theorem legible_exchange_iff {getString : τ → Except Exn Text} {pre post : List τ} {x y t : τ}
    (ht : t = x ∨ t = y) : Legible cmp getString [t] (pre ++ y :: x :: post) ↔
      Legible cmp getString [] (pre ++ x :: y :: post) := by
  have hperm : (pre ++ y :: x :: post).Perm (pre ++ x :: y :: post) :=
    (List.Perm.swap x y post).append_left pre
  refine and_congr (hperm.pairwise_iff hcmp.symm) (forall_congr' fun u => imp_congr_left ?_)
  rw [List.mem_append, hperm.mem_iff]
  refine or_iff_right_of_imp fun hu => ?_
  rw [List.mem_singleton.mp hu]
  rcases ht with rfl | rfl <;> simp

theorem reads_iff (size : Nat) (op : EditOp) (l : List τ) :
    b.Reads size op l ↔ op.Legible cmp b.getString b.cast size l := by
  unfold Reads
  simp only [readable_iff hsort]
  cases op with
  | add task =>
    constructor
    · intro h t hcast
      exact h _ _ _ (Option.map_eq_some_iff.mpr ⟨t, hcast, rfl⟩)
    · intro h outcome logged changed hchange
      obtain ⟨t, hcast, heq⟩ := Option.map_eq_some_iff.mp hchange
      cases heq
      exact h t hcast
  | delete pos =>
    constructor
    · intro h t hget
      exact h _ _ _ (Option.map_eq_some_iff.mpr ⟨t, hget, rfl⟩)
    · intro h outcome logged changed hchange
      obtain ⟨t, hget, heq⟩ := Option.map_eq_some_iff.mp hchange
      cases heq
      exact h t hget
  | update pos task =>
    constructor
    · intro h t old hcast hget
      exact h _ _ _ (Option.bind_eq_some_iff.mpr
        ⟨t, hcast, Option.map_eq_some_iff.mpr ⟨old, hget, rfl⟩⟩)
    · intro h outcome logged changed hchange
      obtain ⟨t, hcast, hchange⟩ := Option.bind_eq_some_iff.mp hchange
      obtain ⟨old, hget, heq⟩ := Option.map_eq_some_iff.mp hchange
      cases heq
      exact h t old hcast hget
  | moveUp pos =>
    constructor
    · intro h h0 hlt
      obtain ⟨pre, x, y, post, rfl, rfl⟩ := exists_neighbours h0 hlt
      exact (legible_exchange_iff hcmp (.inr rfl)).mp (h _ _ _ (change_moveUp size))
    · intro h outcome logged changed hchange
      have hmoves : EditOp.Moves (.moveUp pos) := trivial
      obtain ⟨pre, x, y, post, rfl, rfl, heq | ⟨heq, -⟩⟩ := change_moves hmoves hchange
      · cases heq
        rw [change_moveUp] at hchange
        cases hchange
        exact (legible_exchange_iff hcmp (.inr rfl)).mpr (h (by simp) (by simp))
      · cases heq
  | moveDown pos =>
    constructor
    · intro h hsize hlt
      obtain ⟨pre, x, y, post, rfl, heq⟩ := exists_neighbours (Nat.succ_pos pos) hlt
      obtain rfl : pos = pre.length := Nat.succ.inj heq
      exact (legible_exchange_iff hcmp (.inl rfl)).mp (h _ _ _ (change_moveDown hsize))
    · intro h outcome logged changed hchange
      have hmoves : EditOp.Moves (.moveDown pos) := trivial
      obtain ⟨pre, x, y, post, rfl, rfl, heq | ⟨heq, hsize⟩⟩ := change_moves hmoves hchange
      · cases heq
      · cases heq
        rw [change_moveDown hsize] at hchange
        cases hchange
        exact (legible_exchange_iff hcmp (.inl rfl)).mpr (h hsize (by simp))

theorem undone_iff (size : Nat) (op : EditOp) (l : List τ) :
    b.Reads size op l ∨ op.Moves ∧ b.Undone size op l ↔
      op.Legible cmp b.getString b.cast size l ∨ op.Resists cmp size l := by
  rw [← reads_iff hcmp hsort]
  cases hchange : b.change size op l with
  | none =>
    have hreads := reads_of_refuses hchange
    exact iff_of_true (.inl hreads) (.inl hreads)
  | some c =>
    obtain ⟨outcome, logged, changed⟩ := c
    rw [undone_iff_of_change hchange, settle_eq_iff hcmp hsort hchange]

end TaskBranch

/-! ### All operations -/

theorem bntBranch_lawful : bntBranch.Lawful .bnt where
  cast_some task t h := by cases task <;> simp_all [bntBranch]
  cast_isSome task h := by cases task <;> simp_all [bntBranch, Task.competition]
  competition_task _ := rfl
  task_injective _ _ := Task.bnt.inj
  sort_perm _ _ h := List.Perm.of_eq (Except.ok.inj h).symm

theorem bmtBranch_lawful : bmtBranch.Lawful .bmt where
  cast_some task t h := by cases task <;> simp_all [bmtBranch]
  cast_isSome task h := by cases task <;> simp_all [bmtBranch, Task.competition]
  competition_task _ := rfl
  task_injective _ _ := Task.bmt.inj
  sort_perm _ _ h := List.Perm.of_eq (Except.ok.inj h).symm

theorem bttBranch_lawful : bttBranch.Lawful .btt where
  cast_some task t h := by cases task <;> simp_all [bttBranch]
  cast_isSome task h := by cases task <;> simp_all [bttBranch, Task.competition]
  competition_task _ := rfl
  task_injective _ _ := Task.btt.inj
  sort_perm _ _ := sort_perm

theorem cttBranch_lawful : cttBranch.Lawful .ctt where
  cast_some task t h := by cases task <;> simp_all [cttBranch]
  cast_isSome task h := by cases task <;> simp_all [cttBranch, Task.competition]
  competition_task _ := rfl
  task_injective _ _ := Task.ctt.inj
  sort_perm _ _ := sort_perm

theorem cbtBranch_lawful : cbtBranch.Lawful .cbt where
  cast_some task t h := by cases task <;> simp_all [cbtBranch]
  cast_isSome task h := by cases task <;> simp_all [cbtBranch, Task.competition]
  competition_task _ := rfl
  task_injective _ _ := Task.cbt.inj
  sort_perm _ _ := sort_perm

theorem pptBranch_lawful : pptBranch.Lawful .ppt where
  cast_some task t h := by cases task <;> simp_all [pptBranch]
  cast_isSome task h := by cases task <;> simp_all [pptBranch, Task.competition]
  competition_task _ := rfl
  task_injective _ _ := Task.ppt.inj
  sort_perm _ _ := sort_perm

/-- The total orders behind the comparisons. -/
def BttTask.order (t btt : BttTask) : Int :=
  let i := Java.compareTo (btt.situation.getD []) (t.situation.getD [])
  if i ≠ 0 then i
  else
    let i := Java.compareTo (t.configuration.getD []) (btt.configuration.getD [])
    if i ≠ 0 then i
    else Java.compareTo (t.place.getD []) (btt.place.getD [])

theorem BttTask.compareTo_extends : Extends BttTask.compareTo BttTask.order :=
  (Extends.byKey Java.compareTo_lawful Exn.nullPointer BttTask.situation []).flip.thenBy
    ((Extends.byKey Java.compareTo_lawful Exn.nullPointer BttTask.configuration []).thenBy
      (Extends.byKey Java.compareTo_lawful Exn.nullPointer BttTask.place []))

def CttTask.order (t ctt : CttTask) : Int :=
  let i := Java.compareTo (t.situation.getD []) (ctt.situation.getD [])
  if i ≠ 0 then i
  else
    let i := Java.compareTo (t.configuration.getD []) (ctt.configuration.getD [])
    if i ≠ 0 then i
    else Java.compareTo (t.place.getD []) (ctt.place.getD [])

theorem CttTask.compareTo_extends : Extends CttTask.compareTo CttTask.order :=
  (Extends.byKey Java.compareTo_lawful Exn.nullPointer CttTask.situation []).thenBy
    ((Extends.byKey Java.compareTo_lawful Exn.nullPointer CttTask.configuration []).thenBy
      (Extends.byKey Java.compareTo_lawful Exn.nullPointer CttTask.place []))

theorem CbtTask.compareTo_extends : Extends CbtTask.compareTo fun t cbt =>
    Java.compareTo (t.place.getD []) (cbt.place.getD []) :=
  Extends.byKey Java.compareTo_lawful Exn.nullPointer CbtTask.place []

theorem PptTask.compareTo_extends : Extends PptTask.compareTo fun t ppt =>
    Java.compareTo (t.source.getD []) (ppt.source.getD []) :=
  Extends.byKey Java.compareTo_lawful Exn.nullPointer PptTask.source []

/-- The exceptional case: `moveDown` on the last CTT task while the BTT list
    has another size. -/
def LosesLast (tS : TaskSpec) (compIdent : CompetitionIdentifier) (op : EditOp) : Prop :=
  ∃ pos, op = .moveDown pos ∧ compIdent = .ctt ∧ tS.cttTaskList.length = pos + 1 ∧
    tS.bttTaskList.length ≠ pos + 1

/-- An update of CTT can sort the BTT list and print the CTT tasks. -/
def TaskSpec.LegibleUpdate (tS : TaskSpec) (pos : Nat) (task : Task) : Prop :=
  ∀ t old, cttBranch.cast task = some t → tS.cttTaskList[pos]? = some old →
    tS.bttTaskList.Pairwise (Comparable BttTask.compareTo) ∧
      ∀ a ∈ [old, t] ++ tS.cttTaskList.set pos t, a.getString.isOk = true

/-- The tasks that the operation works on can be compared and printed, or the operation
    is a move that comes to nothing. -/
def Undisturbed (tS : TaskSpec) : CompetitionIdentifier → EditOp → Prop
  | .bnt, _ | .bmt, _ => True
  | .btt, op =>
    op.Legible BttTask.compareTo BttTask.getString bttBranch.cast tS.bttTaskList.length
        tS.bttTaskList ∨
      op.Resists BttTask.compareTo tS.bttTaskList.length tS.bttTaskList
  | .ctt, .update pos task => tS.LegibleUpdate pos task
  | .ctt, op =>
    op.Legible CttTask.compareTo CttTask.getString cttBranch.cast tS.bttTaskList.length
        tS.cttTaskList ∨
      op.Resists CttTask.compareTo tS.bttTaskList.length tS.cttTaskList
  | .cbt, op =>
    op.Legible CbtTask.compareTo cbtBranch.getString cbtBranch.cast tS.cbtTaskList.length
        tS.cbtTaskList ∨
      op.Resists CbtTask.compareTo tS.cbtTaskList.length tS.cbtTaskList
  | .ppt, op =>
    op.Legible PptTask.compareTo pptBranch.getString pptBranch.cast tS.pptTaskList.length
        tS.pptTaskList ∨
      op.Resists PptTask.compareTo tS.pptTaskList.length tS.pptTaskList

/-- The CTT case of `updateTask`, without and with a change. -/
theorem updateCtt_refuses {tS : TaskSpec} {pos : Nat} {task : Task}
    (h : cttBranch.change tS.bttTaskList.length (.update pos task) tS.cttTaskList = none) :
    ∃ e, tS.updateCtt pos task = (.threw e, tS) := by
  unfold TaskSpec.updateCtt
  cases hcast : cttBranch.cast task with
  | none => exact ⟨_, rfl⟩
  | some t =>
    cases hget : tS.cttTaskList[pos]? with
    | none => exact ⟨_, rfl⟩
    | some old =>
      simp only [TaskBranch.change, hcast, hget, Option.map_some, Option.bind_some] at h
      cases h

theorem updateCtt_change {tS : TaskSpec} {pos : Nat} {task : Task} {outcome : Outcome}
    {logged changed : List CttTask}
    (h : cttBranch.change tS.bttTaskList.length (.update pos task) tS.cttTaskList =
      some (outcome, logged, changed)) :
    tS.updateCtt pos task =
      match bttBranch.sort tS.bttTaskList with
      | .ok l => (cttBranch.report outcome logged changed,
          { tS with bttTaskList := l, cttTaskList := changed })
      | .error e => (.threw e, { tS with cttTaskList := changed }) := by
  obtain ⟨t, hcast, h⟩ := Option.bind_eq_some_iff.mp h
  obtain ⟨old, hget, heq⟩ := Option.map_eq_some_iff.mp h
  cases heq
  unfold TaskSpec.updateCtt
  rw [hcast]
  dsimp only
  rw [hget]
  rfl

/-- The change stays in any case, and is read or raises. -/
theorem updateCtt_cases {tS : TaskSpec} {pos : Nat} {task : Task} {outcome : Outcome}
    {logged changed : List CttTask}
    (h : cttBranch.change tS.bttTaskList.length (.update pos task) tS.cttTaskList =
      some (outcome, logged, changed)) :
    (tS.updateCtt pos task).2.cttTaskList = changed ∧
      (if (bttBranch.sort tS.bttTaskList).isOk = true ∧
          ∀ t ∈ logged ++ changed, (cttBranch.getString t).isOk = true
        then (tS.updateCtt pos task).1 = outcome
        else ∃ e, (tS.updateCtt pos task).1 = .threw e) := by
  rw [updateCtt_change h]
  cases hsort : bttBranch.sort tS.bttTaskList with
  | error e =>
    refine ⟨rfl, ?_⟩
    rw [if_neg fun h => Bool.false_ne_true h.1]
    exact ⟨e, rfl⟩
  | ok l =>
    refine ⟨rfl, ?_⟩
    show if _ then cttBranch.report outcome logged changed = outcome else
      ∃ e, cttBranch.report outcome logged changed = Outcome.threw e
    rw [TaskBranch.report]
    cases hprint : cttBranch.print (logged ++ changed) with
    | ok u =>
      rw [if_pos ⟨rfl, TaskBranch.print_ok_iff.mp hprint⟩]
    | error e =>
      rw [if_neg]
      · exact ⟨e, rfl⟩
      · rintro ⟨-, hall⟩
        rw [TaskBranch.print_ok_iff.mpr hall] at hprint
        cases hprint

theorem legibleUpdate_iff {tS : TaskSpec} {pos : Nat} {task : Task} {outcome : Outcome}
    {logged changed : List CttTask}
    (h : cttBranch.change tS.bttTaskList.length (.update pos task) tS.cttTaskList =
      some (outcome, logged, changed)) :
    tS.LegibleUpdate pos task ↔ (bttBranch.sort tS.bttTaskList).isOk = true ∧
      ∀ t ∈ logged ++ changed, (cttBranch.getString t).isOk = true := by
  obtain ⟨t, hcast, h⟩ := Option.bind_eq_some_iff.mp h
  obtain ⟨old, hget, heq⟩ := Option.map_eq_some_iff.mp h
  cases heq
  refine Iff.trans ?_ (and_congr_left' isOk_sort_iff.symm)
  constructor
  · exact fun h => h t old hcast hget
  · intro h t' old' hcast' hget'
    obtain rfl := Option.some.inj (hcast.symm.trans hcast')
    obtain rfl := Option.some.inj (hget.symm.trans hget')
    exact h

theorem updateCtt_conserves_iff (tS : TaskSpec) (pos : Nat) (task : Task) :
    Conserves .ctt (.update pos task) (tS.tasks .ctt)
        ((tS.updateCtt pos task).2.tasks .ctt) (tS.updateCtt pos task).1 ↔
      tS.LegibleUpdate pos task := by
  cases hchange : cttBranch.change tS.bttTaskList.length (.update pos task) tS.cttTaskList with
  | none =>
    have hlegible : tS.LegibleUpdate pos task := by
      intro t old hcast hget
      simp [TaskBranch.change, hcast, hget] at hchange
    refine iff_of_true ?_ hlegible
    obtain ⟨e, he⟩ := updateCtt_refuses hchange
    rw [he]
    exact cttBranch_lawful.refuses_conserves hchange (.inr ⟨e, rfl⟩)
  | some c =>
    obtain ⟨outcome, logged, changed⟩ := c
    rw [legibleUpdate_iff hchange]
    obtain ⟨hlist, houtcome⟩ := updateCtt_cases hchange
    have htasks : (tS.updateCtt pos task).2.tasks .ctt = changed.map .ctt :=
      congrArg (List.map Task.ctt) hlist
    rw [htasks]
    split at houtcome
    · next hread =>
      rw [houtcome]
      exact iff_of_true (cttBranch_lawful.change_conserves hchange (.refl changed)) hread
    · next hread =>
      obtain ⟨e, he⟩ := houtcome
      rw [he]
      refine iff_of_false (fun hcons => ?_) hread
      exact ((cttBranch_lawful.threw_conserves_iff hchange e).mp hcons).1

section edit
variable (op : EditOp) (tS : TaskSpec)

theorem edit_bnt :
    tS.edit .bnt op = tS.setBnt (bntBranch.edit tS.bntTaskList.length op tS.bntTaskList) := by
  cases op <;> rfl

theorem edit_bmt :
    tS.edit .bmt op = tS.setBmt (bmtBranch.edit tS.bmtTaskList.length op tS.bmtTaskList) := by
  cases op <;> rfl

theorem edit_btt :
    tS.edit .btt op = tS.setBtt (bttBranch.edit tS.bttTaskList.length op tS.bttTaskList) := by
  cases op <;> rfl

theorem edit_ctt (hop : ∀ pos task, op ≠ .update pos task) :
    tS.edit .ctt op = tS.setCtt (cttBranch.edit tS.bttTaskList.length op tS.cttTaskList) := by
  cases op with
  | update pos task => exact absurd rfl (hop pos task)
  | add task | delete pos | moveUp pos | moveDown pos => rfl

theorem edit_cbt :
    tS.edit .cbt op = tS.setCbt (cbtBranch.edit tS.cbtTaskList.length op tS.cbtTaskList) := by
  cases op <;> rfl

theorem edit_ppt :
    tS.edit .ppt op = tS.setPpt (pptBranch.edit tS.pptTaskList.length op tS.pptTaskList) := by
  cases op <;> rfl

end edit

/-- A branch that reads its own size loses no task. -/
theorem TaskBranch.not_losesLast {τ : Type} (op : EditOp) (l : List τ) :
    ¬ TaskBranch.LosesLast l.length op l :=
  fun ⟨_, _, hlen, hsize⟩ => hsize hlen

theorem not_losesLast {tS : TaskSpec} {compIdent : CompetitionIdentifier} (hc : compIdent ≠ .ctt)
    (op : EditOp) : ¬ LosesLast tS compIdent op :=
  fun ⟨_, _, h, _⟩ => hc h

theorem losesLast_ctt_iff {tS : TaskSpec} {op : EditOp} :
    LosesLast tS .ctt op ↔ TaskBranch.LosesLast tS.bttTaskList.length op tS.cttTaskList :=
  exists_congr fun _ => and_congr_right fun _ => and_iff_right rfl

theorem bntBranch_reads (size : Nat) (op : EditOp) (l : List BntTask) :
    bntBranch.Reads size op l :=
  fun _ _ _ _ => ⟨rfl, fun _ _ => rfl⟩

theorem bmtBranch_reads (size : Nat) (op : EditOp) (l : List BmtTask) :
    bmtBranch.Reads size op l :=
  fun _ _ _ _ => ⟨rfl, fun _ _ => rfl⟩

/-- A branch that sorts by a comparison and reads its own size. -/
theorem TaskBranch.Lawful.edit_own_iff {τ : Type} {b : TaskBranch τ}
    {compIdent : CompetitionIdentifier} (hb : b.Lawful compIdent) {cmp : τ → τ → Except Exn Int}
    {total : τ → τ → Int} (hcmp : Extends cmp total) (hsort : b.sort = CheckedSort.sort cmp)
    (op : EditOp) (l : List τ) :
    Conserves compIdent op (l.map b.task) ((b.edit l.length op l).2.map b.task)
        (b.edit l.length op l).1 ↔
      op.Legible cmp b.getString b.cast l.length l ∨ op.Resists cmp l.length l := by
  rw [hb.edit_conserves_iff, and_iff_right (not_losesLast op l)]
  exact undone_iff hcmp hsort _ op l

/-- An operation conserves the tasks of its competition exactly if it does not lose the
    last CTT task and is undisturbed. -/
theorem edit_conserves_iff (tS : TaskSpec) (compIdent : CompetitionIdentifier) (op : EditOp) :
    Conserves compIdent op (tS.tasks compIdent) ((tS.edit compIdent op).2.tasks compIdent)
        (tS.edit compIdent op).1 ↔
      ¬ LosesLast tS compIdent op ∧ Undisturbed tS compIdent op := by
  cases compIdent with
  | bnt =>
    rw [edit_bnt, and_iff_right (not_losesLast (by decide) op)]
    refine iff_of_true ?_ trivial
    exact (bntBranch_lawful.edit_conserves_iff _ op _).mpr
      ⟨TaskBranch.not_losesLast op _, .inl (bntBranch_reads _ op _)⟩
  | bmt =>
    rw [edit_bmt, and_iff_right (not_losesLast (by decide) op)]
    refine iff_of_true ?_ trivial
    exact (bmtBranch_lawful.edit_conserves_iff _ op _).mpr
      ⟨TaskBranch.not_losesLast op _, .inl (bmtBranch_reads _ op _)⟩
  | btt =>
    rw [edit_btt, and_iff_right (not_losesLast (by decide) op)]
    exact bttBranch_lawful.edit_own_iff BttTask.compareTo_extends rfl op _
  | ctt =>
    -- an update sorts the BTT list: what it reads is not what the others read
    by_cases hop : ∃ pos task, op = .update pos task
    · obtain ⟨pos, task, rfl⟩ := hop
      have hlast : ¬ LosesLast tS .ctt (.update pos task) := fun ⟨_, h, _⟩ => nomatch h
      rw [and_iff_right hlast]
      exact updateCtt_conserves_iff tS pos task
    · have hother : ∀ pos task, op ≠ .update pos task := fun pos task h => hop ⟨pos, task, h⟩
      have hundisturbed : Undisturbed tS .ctt op ↔
          op.Legible CttTask.compareTo CttTask.getString cttBranch.cast tS.bttTaskList.length
              tS.cttTaskList ∨
            op.Resists CttTask.compareTo tS.bttTaskList.length tS.cttTaskList := by
        cases op with
        | update pos task => exact absurd rfl (hother pos task)
        | add task | delete pos | moveUp pos | moveDown pos => exact Iff.rfl
      rw [edit_ctt op tS hother, losesLast_ctt_iff, hundisturbed]
      refine (cttBranch_lawful.edit_conserves_iff _ op _).trans (and_congr_right fun _ => ?_)
      exact TaskBranch.undone_iff CttTask.compareTo_extends rfl _ op _
  | cbt =>
    rw [edit_cbt, and_iff_right (not_losesLast (by decide) op)]
    exact cbtBranch_lawful.edit_own_iff CbtTask.compareTo_extends rfl op _
  | ppt =>
    rw [edit_ppt, and_iff_right (not_losesLast (by decide) op)]
    exact pptBranch_lawful.edit_own_iff PptTask.compareTo_extends rfl op _

/-! ### The other lists -/

/-- An operation on one competition permutes the tasks of another one at most. -/
theorem edit_frame (tS : TaskSpec) {compIdent other : CompetitionIdentifier}
    (hne : other ≠ compIdent) (op : EditOp) :
    ((tS.edit compIdent op).2.tasks other).Perm (tS.tasks other) := by
  by_cases hop : compIdent = .ctt ∧ ∃ pos task, op = .update pos task
  · obtain ⟨rfl, pos, task, rfl⟩ := hop
    show ((tS.updateCtt pos task).2.tasks other).Perm _
    cases hchange : cttBranch.change tS.bttTaskList.length (.update pos task) tS.cttTaskList with
    | none =>
      obtain ⟨e, he⟩ := updateCtt_refuses hchange
      rw [he]
    | some c =>
      rw [updateCtt_change hchange]
      cases hsort : bttBranch.sort tS.bttTaskList with
      | ok l =>
        -- the BTT list is sorted, the only change outside of the own list
        cases other with
        | btt => exact (bttBranch_lawful.sort_perm _ _ hsort).map Task.btt
        | ctt => exact absurd rfl hne
        | bnt | bmt | cbt | ppt => exact .refl _
      | error e =>
        cases other with
        | ctt => exact absurd rfl hne
        | bnt | bmt | btt | cbt | ppt => exact .refl _
  · have hsame : (tS.edit compIdent op).2.tasks other = tS.tasks other := by
      cases compIdent with
      | bnt => rw [edit_bnt]; cases other <;> first | rfl | exact absurd rfl hne
      | bmt => rw [edit_bmt]; cases other <;> first | rfl | exact absurd rfl hne
      | btt => rw [edit_btt]; cases other <;> first | rfl | exact absurd rfl hne
      | ctt =>
        rw [edit_ctt op tS fun pos task h => hop ⟨rfl, pos, task, h⟩]
        cases other <;> first | rfl | exact absurd rfl hne
      | cbt => rw [edit_cbt]; cases other <;> first | rfl | exact absurd rfl hne
      | ppt => rw [edit_ppt]; cases other <;> first | rfl | exact absurd rfl hne
    rw [hsame]

/-! ### Runs -/

open Transition

/-- A state with its ledger: what was in each list at the start or added since,
    and what was handed back. -/
structure Ledger where
  tS : TaskSpec
  added : CompetitionIdentifier → List Task
  removed : CompetitionIdentifier → List Task

/-- Enter one operation. -/
def Ledger.enter (compIdent : CompetitionIdentifier) (op : EditOp)
    (s : Ledger) : Ledger :=
  let (outcome, tS') := s.tS.edit compIdent op
  { tS := tS'
    added := fun c => if c = compIdent then s.added c ++ op.added outcome else s.added c
    removed := fun c => if c = compIdent then s.removed c ++ op.removed outcome else s.removed c }

/-- Any sequence of operations on any competitions, from any state. -/
def editing : System Ledger (CompetitionIdentifier × EditOp) where
  init s := s.added = s.tS.tasks ∧ s.removed = fun _ => []
  step s l s' := s' = s.enter l.1 l.2

/-- The list and what was handed back are what was there and what was added. -/
def Ledger.Balanced (s : Ledger) : Prop :=
  ∀ c, (s.tS.tasks c ++ s.removed c).Perm (s.added c)

/-- One operation keeps the balance. -/
theorem Ledger.Balanced.enter {compIdent : CompetitionIdentifier}
    {op : EditOp} {s : Ledger} (h : s.Balanced) (hlast : ¬ LosesLast s.tS compIdent op)
    (hundisturbed : Undisturbed s.tS compIdent op) :
    (s.enter compIdent op).Balanced := by
  intro c
  unfold Ledger.enter
  by_cases hc : c = compIdent
  · subst hc
    have hbalance := ((edit_conserves_iff s.tS c op).mpr ⟨hlast, hundisturbed⟩).balance
    simp only [if_true]
    calc (s.tS.edit c op).2.tasks c ++ (s.removed c ++ op.removed _)
        _ |>.Perm (((s.tS.edit c op).2.tasks c ++ op.removed _) ++ s.removed c) := by
          rw [List.append_assoc]
          exact List.perm_append_comm.append_left _
        _ |>.Perm ((s.tS.tasks c ++ op.added _) ++ s.removed c) := hbalance.append_right _
        _ |>.Perm ((s.tS.tasks c ++ s.removed c) ++ op.added _) := by
          rw [List.append_assoc, List.append_assoc]
          exact List.perm_append_comm.append_left _
        _ |>.Perm (s.added c ++ op.added _) := (h c).append_right _
  · simp only [if_neg hc]
    exact ((edit_frame s.tS hc op).append_right _).trans (h c)

/-- **Editing neither loses nor duplicates a task.** In every state an operation does
    what it should exactly when it does not lose the last CTT task and the sort and the
    printing behind it do not stumble over null fields; and in every run of such
    operations each list holds what it held at the start and what was added, except
    for what was handed back. -/
theorem editing_conserves (tS : TaskSpec) (compIdent : CompetitionIdentifier) (op : EditOp) :
    (Conserves compIdent op (tS.tasks compIdent) ((tS.edit compIdent op).2.tasks compIdent)
        (tS.edit compIdent op).1 ↔
      ¬ LosesLast tS compIdent op ∧ Undisturbed tS compIdent op) ∧
    ∀ s, Reachable (editing.restrict fun s l =>
        ¬ LosesLast s.tS l.1 l.2 ∧ Undisturbed s.tS l.1 l.2) s → s.Balanced := by
  refine ⟨edit_conserves_iff tS compIdent op, invariant ?_ ?_⟩
  · rintro s ⟨hadded, hremoved⟩ c
    rw [hadded, hremoved, List.append_nil]
  · rintro s l s' hbalanced ⟨⟨hlast, hundisturbed⟩, rfl⟩
    exact hbalanced.enter hlast hundisturbed

/-- The only task of a CTT list. -/
def loneTask : CttTask :=
  ⟨some "initial".toList, some " ".toList, some "S1".toList, some "M20".toList, .init⟩

/-- What the empty boxes of the BTT panel give. -/
def nullTask : BttTask := ⟨none, none, none, none, .init⟩

/-- After one CTT task has been added to empty lists, moving it down loses it. A BTT task
    of null fields is added to the empty list with an exception. -/
theorem moveDown_loses_ctt_task :
    (({} : TaskSpec).edit .ctt (.add (.ctt loneTask))) =
        (.done, { cttTaskList := [loneTask] }) ∧
      (({ cttTaskList := [loneTask] } : TaskSpec).edit .ctt (.moveDown 0)) =
        (.threw .indexOutOfBounds, {}) ∧
      ¬ Conserves .ctt (.moveDown 0) [.ctt loneTask] [] (.threw .indexOutOfBounds) ∧
      (({} : TaskSpec).edit .btt (.add (.btt nullTask))) =
        (.threw .nullPointer, { bttTaskList := [nullTask] }) ∧
      ¬ Conserves .btt (.add (.btt nullTask)) [] [.btt nullTask] (.threw .nullPointer) := by
  refine ⟨by decide, by decide, fun h => ?_, by decide, fun h => ?_⟩
  · exact absurd (h.failure .indexOutOfBounds rfl) (by decide)
  · exact absurd (h.failure .nullPointer rfl) (by decide)

end RefereeBox.Nullable
