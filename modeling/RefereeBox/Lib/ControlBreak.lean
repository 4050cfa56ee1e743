import Mathlib
import RefereeBox.Lib.Loop

/-! # Control-Break Reports

  The classical way to print a sequence of records in nested groups: the
  records are read one ahead, an empty record (the *sentinel*) marks the end,
  and nested do-while loops close a group as soon as the record read ahead no
  longer belongs to it.

  * `Cursor` is the loop state: the output, the record read ahead, the record
    printed last and the records not read yet.
  * `runLoop` prints one group, `sectionLoop` the groups of one section.
  * `runLoop_converges`, `sectionLoop_converges` and `sweep_converges` say
    what the loops print: one group for each run of `List.splitBy`, whenever
    the sentinel belongs to no group.
-/

namespace ControlBreak

open Loop

variable {α τ : Type}

/-! ### The loop state -/

/-- The state of a report: output so far, record read ahead (`current`),
    record printed last (`previous`), and the iterator's remaining records. -/
structure Cursor (α τ : Type) where
  out : τ
  current : α
  previous : α
  rest : List α

/-- Move on: the current record becomes the previous one and the next one is
    read; at the end of the records the sentinel takes its place. -/
def Cursor.advance (sentinel : α) (s : Cursor α τ) : Cursor α τ :=
  match s.rest with
  | [] => { s with previous := s.current, current := sentinel }
  | b :: l => { s with previous := s.current, current := b, rest := l }

/-- The cursor in front of the records `l`. -/
def Cursor.before (sentinel : α) (out : τ) (previous : α) (l : List α) : Cursor α τ :=
  { out := out, current := l.headD sentinel, previous := previous, rest := l.tail }

@[simp] theorem Cursor.before_current (e : α) (o : τ) (p : α) (l : List α) :
    (Cursor.before e o p l).current = l.headD e := rfl

theorem Cursor.advance_before (e : α) (o : τ) (p a : α) (l : List α) :
    (Cursor.before e o p (a :: l)).advance e = Cursor.before e o a l := by
  cases l <;> rfl

/-! ### The loops -/

/-- What a report prints and where it breaks. The two tests compare the
    record read ahead with the record printed last. -/
structure Report (α τ : Type) where
  sentinel : α
  sameGroup : α → α → Bool
  sameSection : α → α → Bool
  openGroup : α → τ → τ
  putItem : α → τ → τ
  closeGroup : τ → τ

variable (r : Report α τ)

/-- The innermost loop: print the records of one group. -/
def runLoop : Cursor α τ → Prog (Cursor α τ) :=
  doWhile
    (fun s => pure (Cursor.advance r.sentinel { s with out := r.putItem s.current s.out }))
    (fun s => r.sameGroup s.current s.previous)

/-- The middle loop: print the groups of one section. -/
def sectionLoop : Cursor α τ → Prog (Cursor α τ) :=
  doWhile
    (fun s => do
      let s' ← runLoop r { s with out := r.openGroup s.current s.out }
      pure { s' with out := r.closeGroup s'.out })
    (fun s => r.sameSection s.current s.previous)

/-- Two neighbours `a`, `b` (in this order) that no section break separates:
    the group goes on, or the section does. -/
def Report.joined (a b : α) : Bool := r.sameGroup b a || r.sameSection b a

/-! ### What one group and one section print -/

/-- The output of one group. -/
def Report.putGroup (g : List α) (o : τ) : τ :=
  match g with
  | [] => o
  | a :: _ => r.closeGroup (g.foldl (fun o t => r.putItem t o) (r.openGroup a o))

/-- The output of one section: its runs of `sameGroup`, one after the other. -/
def Report.putSection (S : List α) (o : τ) : τ :=
  (S.splitBy fun a b => r.sameGroup b a).foldl (fun o g => r.putGroup g o) o

variable {r}

/-- The innermost loop prints exactly the group it stands before. -/
theorem runLoop_converges (g rest : List α) (hg : g ≠ [])
    (hrun : g.IsChain fun a b => r.sameGroup b a = true)
    (hstop : r.sameGroup (rest.headD r.sentinel) (g.getLast hg) = false) (o : τ) (p : α) :
    Converges (runLoop r (Cursor.before r.sentinel o p (g ++ rest)))
      (Cursor.before r.sentinel (g.foldl (fun o t => r.putItem t o) o) (g.getLast hg) rest) := by
  induction g generalizing o p with
  | nil => exact absurd rfl hg
  | cons a g ih =>
    have hbody : Converges
        (pure (Cursor.advance r.sentinel
          { Cursor.before r.sentinel o p ((a :: g) ++ rest) with out := r.putItem a o }) :
            Prog (Cursor α τ))
        (Cursor.before r.sentinel (r.putItem a o) a (g ++ rest)) := by
      have h := Cursor.advance_before r.sentinel (r.putItem a o) p a (g ++ rest)
      rw [← h]
      exact converges_pure _
    cases g with
    | nil => exact doWhile_exit hbody hstop
    | cons b g =>
      -- the next record is of the same group
      have hab : r.sameGroup b a = true := by
        rw [List.isChain_cons_cons] at hrun
        exact hrun.1
      exact doWhile_next hbody hab
        (ih (List.cons_ne_nil b g) hrun.tail (by simpa using hstop) (r.putItem a o) a)

/-- Two chain conditions on one list hold together. -/
theorem isChain_and {β : Type} {R S : β → β → Prop} {l : List β}
    (hR : l.IsChain R) (hS : l.IsChain S) : l.IsChain fun a b => R a b ∧ S a b := by
  induction l with
  | nil => exact List.IsChain.nil
  | cons a l ih =>
    rw [List.isChain_cons] at hR hS ⊢
    exact ⟨fun b hb => ⟨hR.1 b hb, hS.1 b hb⟩, ih hR.2 hS.2⟩

/-- One round of the middle loop: the group `a :: x` is opened, printed and
    closed, whatever stands after it. -/
theorem sectionLoop_round (a : α) (x after : List α)
    (hrun : (a :: x).IsChain fun a b => r.sameGroup b a = true)
    (hstop : r.sameGroup (after.headD r.sentinel) ((a :: x).getLast (List.cons_ne_nil a x)) = false)
    (o : τ) (p : α) :
    Converges
      (do let s' ← runLoop r (Cursor.before r.sentinel (r.openGroup a o) p ((a :: x) ++ after))
          pure { s' with out := r.closeGroup s'.out } : Prog (Cursor α τ))
      (Cursor.before r.sentinel (r.putGroup (a :: x) o)
        ((a :: x).getLast (List.cons_ne_nil a x)) after) := by
  have h := runLoop_converges (a :: x) after (List.cons_ne_nil a x) hrun hstop (r.openGroup a o) p
  exact converges_bind h (converges_pure _)

/-- The middle loop prints the groups of the section it stands before. The
    induction is on the groups; the last one ends the section. -/
theorem sectionLoop_groups (gs : List (List α)) (rest : List α) (hgs : gs ≠ [])
    (hne : [] ∉ gs) (hrun : ∀ g ∈ gs, g.IsChain fun a b => r.sameGroup b a = true)
    (hbreak : gs.IsChain fun g g' => ∀ a ∈ g.getLast?, ∀ b ∈ g'.head?,
      r.sameGroup b a = false ∧ r.sameSection b a = true)
    (hstop : ∀ a ∈ gs.flatten.getLast?, r.sameGroup (rest.headD r.sentinel) a = false ∧
      r.sameSection (rest.headD r.sentinel) a = false) (o : τ) (p : α) :
    ∃ p', Converges (sectionLoop r (Cursor.before r.sentinel o p (gs.flatten ++ rest)))
      (Cursor.before r.sentinel (gs.foldl (fun o g => r.putGroup g o) o) p' rest) := by
  induction gs generalizing o p with
  | nil => exact absurd rfl hgs
  | cons g gs ih =>
    obtain ⟨a, x, rfl⟩ : ∃ a x, g = a :: x := by
      cases g with
      | nil => exact absurd List.mem_cons_self hne
      | cons a x => exact ⟨a, x, rfl⟩
    have hlast : (a :: x).getLast? = some ((a :: x).getLast (List.cons_ne_nil a x)) :=
      List.getLast?_eq_some_getLast (List.cons_ne_nil a x)
    have hround := fun after hafter =>
      sectionLoop_round a x after (hrun (a :: x) List.mem_cons_self) hafter o p
    cases gs with
    | nil =>
      -- the last group ends, and the section with it
      obtain ⟨hgrp, hsec⟩ := hstop _ (by simpa using hlast)
      refine ⟨(a :: x).getLast (List.cons_ne_nil a x), ?_⟩
      rw [List.flatten_singleton]
      exact doWhile_exit (hround rest hgrp) hsec
    | cons g' gs =>
      obtain ⟨b, y, rfl⟩ : ∃ b y, g' = b :: y := by
        cases g' with
        | nil => exact absurd (by simp) hne
        | cons b y => exact ⟨b, y, rfl⟩
      rw [List.isChain_cons_cons] at hbreak
      -- the group ends, the section goes on
      obtain ⟨hgrp, hsec⟩ := hbreak.1 _ hlast b rfl
      obtain ⟨p', hrest⟩ := ih (List.cons_ne_nil _ _) (fun h => hne (List.mem_cons_of_mem _ h))
        (fun g hg => hrun g (List.mem_cons_of_mem _ hg)) hbreak.2
        (fun c hc => hstop c (by
          rw [List.flatten_cons, List.getLast?_append, Option.mem_def, Option.mem_def.mp hc]
          rfl))
        (r.putGroup (a :: x) o) ((a :: x).getLast (List.cons_ne_nil a x))
      refine ⟨p', ?_⟩
      rw [List.flatten_cons, List.append_assoc]
      exact doWhile_next (hround (((b :: y) :: gs).flatten ++ rest) hgrp) hsec hrest

/-- Between two groups of a section the group ends and the section goes on. -/
theorem breaks_of_section {S : List α} (hjoin : S.IsChain fun a b => r.joined a b = true) :
    (S.splitBy fun a b => r.sameGroup b a).IsChain fun g g' =>
      ∀ a ∈ g.getLast?, ∀ b ∈ g'.head?, r.sameGroup b a = false ∧ r.sameSection b a = true := by
  have hne := List.nil_notMem_splitBy (fun a b => r.sameGroup b a) S
  have hbreak := List.isChain_getLast_head_splitBy (fun a b => r.sameGroup b a) S
  rw [← List.flatten_splitBy (fun a b => r.sameGroup b a) S, List.isChain_flatten hne] at hjoin
  refine (isChain_and hbreak hjoin.2).imp ?_
  rintro g g' ⟨⟨hg, hg', hfalse⟩, hjoined⟩ a ha b hb
  -- a group break between joined records is no section break
  have hgrp : r.sameGroup b a = false := by
    rw [List.getLast?_eq_some_getLast hg] at ha
    rw [List.head?_eq_some_head hg'] at hb
    cases ha; cases hb
    exact hfalse
  have := hjoined a ha b hb
  exact ⟨hgrp, by simpa [Report.joined, hgrp] using this⟩

/-- **The middle loop** prints the section it stands before: a chain of
    `joined` neighbours, up to a record (or the sentinel) that is not joined. -/
theorem sectionLoop_converges (S rest : List α) (hS : S ≠ [])
    (hjoin : S.IsChain fun a b => r.joined a b = true)
    (hstop : ∀ a ∈ S.getLast?, r.joined a (rest.headD r.sentinel) = false) (o : τ) (p : α) :
    ∃ p', Converges (sectionLoop r (Cursor.before r.sentinel o p (S ++ rest)))
      (Cursor.before r.sentinel (r.putSection S o) p' rest) := by
  have hflat := List.flatten_splitBy (fun a b => r.sameGroup b a) S
  have hfinal : ∀ a ∈ (S.splitBy fun a b => r.sameGroup b a).flatten.getLast?,
      r.sameGroup (rest.headD r.sentinel) a = false ∧
        r.sameSection (rest.headD r.sentinel) a = false := by
    intro a ha
    rw [hflat] at ha
    simpa [Report.joined] using hstop a ha
  obtain ⟨p', h⟩ := sectionLoop_groups _ rest (List.splitBy_ne_nil.mpr hS)
    (List.nil_notMem_splitBy _ S) (fun g hg => List.isChain_of_mem_splitBy hg)
    (breaks_of_section hjoin) hfinal o p
  rw [hflat] at h
  exact ⟨p', h⟩

/-! ### The outermost loop -/

/-- The output of a sweep over the sections: `emit S more` for each section
    `S`, where `more` says whether another one follows. -/
def putAll (emit : List α → Bool → τ → τ) : List (List α) → τ → τ
  | [], o => o
  | S :: Ss, o => putAll emit Ss (emit S (!Ss.isEmpty) o)

/-- **The outermost loop.** If the body handles the section it stands before,
    and the loop goes on at every record and stops at the sentinel, then the
    loop handles all the sections in turn. -/
theorem sweep_converges (body : Cursor α τ → Prog (Cursor α τ)) (more : α → Bool)
    (sentinel : α) (emit : List α → Bool → τ → τ) (Ss : List (List α)) (hSs : Ss ≠ [])
    (hne : [] ∉ Ss)
    (hbody : ∀ S Ss', S :: Ss' <:+ Ss → ∀ o p, ∃ p',
      Converges (body (Cursor.before sentinel o p (S ++ Ss'.flatten)))
        (Cursor.before sentinel (emit S (!Ss'.isEmpty) o) p' Ss'.flatten))
    (hmore : ∀ a ∈ Ss.flatten, more a = true) (hend : more sentinel = false) (o : τ) (p : α) :
    ∃ p', Converges
      (doWhile body (fun s => more s.current) (Cursor.before sentinel o p Ss.flatten))
      (Cursor.before sentinel (putAll emit Ss o) p' []) := by
  induction Ss generalizing o p with
  | nil => exact absurd rfl hSs
  | cons S Ss ih =>
    obtain ⟨q, hq⟩ := hbody S Ss List.suffix_rfl o p
    cases Ss with
    | nil =>
      -- behind the last section the sentinel is read
      rw [List.flatten_singleton]
      rw [List.flatten_nil, List.append_nil] at hq
      exact ⟨q, doWhile_exit hq hend⟩
    | cons S' Ss =>
      obtain ⟨b, y, rfl⟩ : ∃ b y, S' = b :: y := by
        cases S' with
        | nil => exact absurd (by simp) hne
        | cons b y => exact ⟨b, y, rfl⟩
      obtain ⟨p', hrest⟩ := ih (List.cons_ne_nil _ _) (fun h => hne (List.mem_cons_of_mem _ h))
        (fun T Ts hT => hbody T Ts (hT.trans (List.suffix_cons S _)))
        (fun a ha => hmore a (List.mem_append_right S ha)) (emit S true o) q
      rw [List.flatten_cons]
      exact ⟨p', doWhile_next hq (hmore b (by simp)) hrest⟩

/-- The records of a section are records of the list. -/
theorem mem_of_mem_splitBy {R : α → α → Bool} {L S : List α} (hS : S ∈ L.splitBy R) {a : α}
    (ha : a ∈ S) : a ∈ L := by
  rw [← List.flatten_splitBy R L]
  exact List.mem_flatten_of_mem hS ha

/-- A section of the records that another one follows: it is not empty, and
    the loop stops in front of the next one. -/
theorem break_of_suffix {R : α → α → Bool} {L S : List α} {Ss : List (List α)}
    (hsuff : S :: Ss <:+ L.splitBy R) (hSs : Ss ≠ []) (d : α) :
    ∀ a ∈ S.getLast?, R a (Ss.flatten.headD d) = false := by
  intro a ha
  obtain ⟨T, Ts, rfl⟩ := List.exists_cons_of_ne_nil hSs
  have hbreak := (List.isChain_getLast_head_splitBy R L).suffix hsuff
  rw [List.isChain_cons_cons] at hbreak
  obtain ⟨⟨hS, hT, hfalse⟩, -⟩ := hbreak
  obtain ⟨b, y, rfl⟩ := List.exists_cons_of_ne_nil hT
  rw [List.getLast?_eq_some_getLast hS] at ha
  cases ha
  exact hfalse

/-- A section of the records: it is not empty, and the loop stops behind it. -/
theorem stop_of_suffix {R : α → α → Bool} {sentinel : α} {L S : List α} {Ss : List (List α)}
    (hsuff : S :: Ss <:+ L.splitBy R) (hend : ∀ a ∈ L, R a sentinel = false) :
    S ≠ [] ∧ S.IsChain (fun a b => R a b = true) ∧
      ∀ a ∈ S.getLast?, R a (Ss.flatten.headD sentinel) = false := by
  have hmem : S ∈ L.splitBy R := hsuff.subset List.mem_cons_self
  refine ⟨List.ne_nil_of_mem_splitBy hmem, List.isChain_of_mem_splitBy hmem, ?_⟩
  by_cases hSs : Ss = []
  · intro a ha
    rw [hSs]
    exact hend a (mem_of_mem_splitBy hmem (List.mem_of_getLast? ha))
  · exact break_of_suffix hsuff hSs sentinel

theorem forall_mem_getLast? {S : List α} (hS : S ≠ []) {P : α → Prop} :
    (∀ a ∈ S.getLast?, P a) ↔ P (S.getLast hS) := by
  rw [List.getLast?_eq_some_getLast hS]
  simp

theorem headD_flatten_cons {T : List α} (hT : T ≠ []) (Ss : List (List α)) (d : α) :
    (T :: Ss).flatten.headD d = T.headD d := by
  obtain ⟨b, y, rfl⟩ := List.exists_cons_of_ne_nil hT
  rfl

theorem getLast?_flatten_cons (S : List α) {T : List α} (hT : T ≠ []) (Ss : List (List α)) :
    (S :: T :: Ss).flatten.getLast? = (T :: Ss).flatten.getLast? := by
  rw [List.flatten_cons, List.getLast?_append_of_ne_nil]
  obtain ⟨b, y, rfl⟩ := List.exists_cons_of_ne_nil hT
  exact List.cons_ne_nil b _

/-! ### Reports that do not end

    A last record that belongs together with the sentinel is the case that
    the loops do not expect: there is no next record to break at, so they
    print the sentinel again and again. -/

/-- One round of the innermost loop. -/
def runRound (r : Report α τ) (s : Cursor α τ) : Prog (Cursor α τ) :=
  pure (Cursor.advance r.sentinel { s with out := r.putItem s.current s.out })

theorem runLoop_eq (r : Report α τ) :
    runLoop r = doWhile (runRound r) fun s => r.sameGroup s.current s.previous := rfl

theorem stable_runRound (s : Cursor α τ) : Stable (runRound r s) := stable_pure _

theorem stable_runLoop (s : Cursor α τ) : Stable (runLoop r s) := by
  rw [runLoop_eq]
  exact stable_doWhile stable_runRound s

/-- One round of the middle loop. -/
def sectionRound (r : Report α τ) (s : Cursor α τ) : Prog (Cursor α τ) := do
  let s' ← runLoop r { s with out := r.openGroup s.current s.out }
  pure { s' with out := r.closeGroup s'.out }

theorem sectionLoop_eq (r : Report α τ) :
    sectionLoop r = doWhile (sectionRound r) fun s => r.sameSection s.current s.previous := rfl

theorem stable_sectionRound (s : Cursor α τ) : Stable (sectionRound r s) :=
  stable_bind (stable_runLoop _) fun _ => stable_pure _

theorem stable_sectionLoop (s : Cursor α τ) : Stable (sectionLoop r s) := by
  rw [sectionLoop_eq]
  exact stable_doWhile stable_sectionRound s

/-- A round of the middle loop returns only if the innermost loop does. -/
theorem sectionRound_returns {s : Cursor α τ} (h : Returns (sectionRound r s)) :
    Returns (runLoop r { s with out := r.openGroup s.current s.out }) := by
  obtain ⟨s', hs', -⟩ := (returns_bind_iff (stable_runLoop _)).mp h
  exact ⟨s', hs'⟩

section sentinel
variable (hself : r.sameGroup r.sentinel r.sentinel = true)
include hself

/-- In front of the sentinel the innermost loop goes on forever. -/
theorem runLoop_sentinel (o : τ) (p : α) :
    ¬ Returns (runLoop r (Cursor.before r.sentinel o p [])) := by
  -- the sentinel is read ahead again and again
  have hround : ∀ s : Cursor α τ, s.current = r.sentinel ∧ s.rest = [] → ∀ n s',
      runRound r s n = some s' → r.sameGroup s'.current s'.previous = true ∧
        s'.current = r.sentinel ∧ s'.rest = [] := by
    rintro s ⟨hcurrent, hrest⟩ n s' hs'
    have hs' : Cursor.advance r.sentinel { s with out := r.putItem s.current s.out } = s' :=
      Option.some.inj hs'
    simp only [Cursor.advance, hrest, hcurrent] at hs'
    rw [← hs']
    exact ⟨hself, rfl, rfl⟩
  rw [runLoop_eq]
  exact (doWhile_diverges hround ⟨rfl, rfl⟩).not_returns

/-- So it does behind a group that the sentinel belongs to. -/
theorem runLoop_not_returns (g : List α) (hg : g ≠ [])
    (hrun : g.IsChain fun a b => r.sameGroup b a = true)
    (hlast : r.sameGroup r.sentinel (g.getLast hg) = true) (o : τ) (p : α) :
    ¬ Returns (runLoop r (Cursor.before r.sentinel o p g)) := by
  induction g generalizing o p with
  | nil => exact absurd rfl hg
  | cons a g ih =>
    have hbody : Converges (runRound r (Cursor.before r.sentinel o p (a :: g)))
        (Cursor.before r.sentinel (r.putItem a o) a g) := by
      rw [← Cursor.advance_before r.sentinel (r.putItem a o) p a g]
      exact converges_pure _
    rw [runLoop_eq, returns_doWhile_of_converges stable_runRound hbody]
    cases g with
    | nil => exact fun h => runLoop_sentinel hself _ _ (h hlast)
    | cons b g =>
      rw [List.isChain_cons_cons] at hrun
      exact fun h => ih (List.cons_ne_nil b g) hrun.2 (by simpa using hlast) _ _ (h hrun.1)

/-- In front of the sentinel the middle loop does not end either. -/
theorem sectionLoop_sentinel (o : τ) (p : α) :
    ¬ Returns (sectionLoop r (Cursor.before r.sentinel o p [])) := by
  rw [sectionLoop_eq]
  exact not_returns_doWhile_of_body stable_sectionRound fun h =>
    runLoop_sentinel hself (r.openGroup r.sentinel o) p (sectionRound_returns h)

/-- Behind a last group that is joined to the sentinel the loop does not end. -/
theorem sectionLoop_last_not_returns (a : α) (x : List α)
    (hrun : (a :: x).IsChain fun a b => r.sameGroup b a = true)
    (hjoined : r.joined ((a :: x).getLast (List.cons_ne_nil a x)) r.sentinel = true) (o : τ) (p : α) :
    ¬ Returns (sectionLoop r (Cursor.before r.sentinel o p (a :: x))) := by
  by_cases hgrp : r.sameGroup r.sentinel ((a :: x).getLast (List.cons_ne_nil a x)) = true
  · -- the group runs on
    rw [sectionLoop_eq]
    exact not_returns_doWhile_of_body stable_sectionRound fun h =>
      runLoop_not_returns hself (a :: x) (List.cons_ne_nil a x) hrun hgrp (r.openGroup a o) p
        (sectionRound_returns h)
  · -- the group ends, but the section goes on
    have hgrp : r.sameGroup r.sentinel ((a :: x).getLast (List.cons_ne_nil a x)) = false := by
      simpa using hgrp
    have hsec : r.sameSection r.sentinel ((a :: x).getLast (List.cons_ne_nil a x)) = true := by
      simpa [Report.joined, hgrp] using hjoined
    have hconv : Converges (sectionRound r (Cursor.before r.sentinel o p ((a :: x) ++ []))) _ :=
      sectionLoop_round a x [] hrun hgrp o p
    rw [List.append_nil] at hconv
    rw [sectionLoop_eq, returns_doWhile_of_converges stable_sectionRound hconv]
    exact fun h => sectionLoop_sentinel hself _ _ (h hsec)

/-- The groups of a section, when the last one runs on to the sentinel or the
    section does. The induction is on the groups; the loop gets through all
    but the last one. -/
theorem sectionLoop_groups_not_returns (gs : List (List α)) (hgs : gs ≠ []) (hne : [] ∉ gs)
    (hrun : ∀ g ∈ gs, g.IsChain fun a b => r.sameGroup b a = true)
    (hbreak : gs.IsChain fun g g' => ∀ a ∈ g.getLast?, ∀ b ∈ g'.head?,
      r.sameGroup b a = false ∧ r.sameSection b a = true)
    (hlast : ∀ a ∈ gs.flatten.getLast?, r.joined a r.sentinel = true) (o : τ) (p : α) :
    ¬ Returns (sectionLoop r (Cursor.before r.sentinel o p gs.flatten)) := by
  induction gs generalizing o p with
  | nil => exact absurd rfl hgs
  | cons g gs ih =>
    obtain ⟨a, x, rfl⟩ := List.exists_cons_of_ne_nil fun h => hne (h ▸ List.mem_cons_self)
    have hend : (a :: x).getLast? = some ((a :: x).getLast (List.cons_ne_nil a x)) :=
      List.getLast?_eq_some_getLast (List.cons_ne_nil a x)
    cases gs with
    | nil =>
      rw [List.flatten_singleton] at hlast ⊢
      exact sectionLoop_last_not_returns hself a x (hrun _ List.mem_cons_self) (hlast _ hend) o p
    | cons g' gs =>
      obtain ⟨b, y, rfl⟩ := List.exists_cons_of_ne_nil fun h =>
        hne (h ▸ List.mem_cons_of_mem _ List.mem_cons_self)
      rw [List.isChain_cons_cons] at hbreak
      obtain ⟨hgrp, hsec⟩ := hbreak.1 _ hend b rfl
      -- the loop gets through the first group, and hangs behind it
      have hrest := ih (List.cons_ne_nil _ _) (fun h => hne (List.mem_cons_of_mem _ h))
        (fun g hg => hrun g (List.mem_cons_of_mem _ hg)) hbreak.2
        (fun c hc => hlast c (by
          rw [List.flatten_cons, List.getLast?_append, Option.mem_def, Option.mem_def.mp hc]
          rfl))
        (r.putGroup (a :: x) o) ((a :: x).getLast (List.cons_ne_nil a x))
      have hround : Converges (sectionRound r (Cursor.before r.sentinel o p
          ((a :: x) ++ ((b :: y) :: gs).flatten))) _ :=
        sectionLoop_round a x ((b :: y) :: gs).flatten (hrun _ List.mem_cons_self) hgrp o p
      rw [List.flatten_cons, sectionLoop_eq,
        returns_doWhile_of_converges stable_sectionRound hround]
      exact fun h => hrest (h hsec)

/-- **A section that the sentinel is joined to** is never left. -/
theorem sectionLoop_not_returns {S : List α} (hS : S ≠ [])
    (hjoin : S.IsChain fun a b => r.joined a b = true)
    (hlast : ∀ a ∈ S.getLast?, r.joined a r.sentinel = true) (o : τ) (p : α) :
    ¬ Returns (sectionLoop r (Cursor.before r.sentinel o p S)) := by
  have hflat := List.flatten_splitBy (fun a b => r.sameGroup b a) S
  have hgroups := sectionLoop_groups_not_returns hself _ (List.splitBy_ne_nil.mpr hS)
    (List.nil_notMem_splitBy (fun a b => r.sameGroup b a) S)
    (fun g hg => List.isChain_of_mem_splitBy hg) (breaks_of_section hjoin)
    (by rw [hflat]; exact hlast) o p
  rwa [hflat] at hgroups

end sentinel

/-! ### Runs -/

/-- Along a chain of equal keys every key is the first one. -/
theorem key_eq_head {β κ : Type} (key : β → κ) {l : List β} (d : β)
    (h : l.IsChain fun a b => key b = key a) : ∀ t ∈ l, key t = key (l.headD d) := by
  induction l with
  | nil => exact fun t ht => absurd ht List.not_mem_nil
  | cons a l ih =>
    rw [List.isChain_cons] at h
    intro t ht
    rcases List.mem_cons.mp ht with rfl | hmem
    · rfl
    · cases l with
      | nil => exact absurd hmem List.not_mem_nil
      | cons b l => exact (ih h.2 t hmem).trans (h.1 b rfl)

/-- Two ways to write out the same blocks, block by block of the same length,
    agree as a whole only if they agree on every block. -/
theorem flatMap_eq_iff {β : Type} {f g : List α → List β} {Ss : List (List α)}
    (hlen : ∀ S, (f S).length = (g S).length) :
    Ss.flatMap f = Ss.flatMap g ↔ ∀ S ∈ Ss, f S = g S := by
  constructor
  · intro h
    induction Ss with
    | nil => exact fun S hS => absurd hS List.not_mem_nil
    | cons T Ts ih =>
      rw [List.flatMap_cons, List.flatMap_cons] at h
      obtain ⟨hT, hTs⟩ := List.append_inj h (hlen T)
      intro S hS
      rcases List.mem_cons.mp hS with rfl | hmem
      · exact hT
      · exact ih hTs S hmem
  · intro h
    exact List.flatMap_congr h

/-- A key is constant on every section exactly when a chain of neighbours that
    the sections join never changes it. -/
theorem forall_section_key_iff {κ : Type} {R G : α → α → Bool} (key : α → κ) (L : List α) (d : α)
    (hR : ∀ a b, R a b = true ↔ G a b = true ∨ key b = key a) :
    (∀ S ∈ L.splitBy R, ∀ t ∈ S, key t = key (S.headD d)) ↔
      L.IsChain fun a b => G a b = true → key b = key a := by
  have hne := List.nil_notMem_splitBy R L
  constructor
  · intro hconst
    rw [← List.flatten_splitBy R L, List.isChain_flatten hne]
    constructor
    · intro S hS
      apply List.Pairwise.isChain
      apply List.pairwise_of_forall_mem_list
      intro a ha b hb _
      rw [hconst S hS a ha, hconst S hS b hb]
    · refine (List.isChain_getLast_head_splitBy R L).imp ?_
      -- a section break excludes a common group
      rintro S T ⟨hS, hT, hbreak⟩ a ha b hb hgroup
      rw [List.getLast?_eq_some_getLast hS] at ha
      rw [List.head?_eq_some_head hT] at hb
      cases ha
      cases hb
      have := (hR _ _).mpr (Or.inl hgroup)
      rw [hbreak] at this
      exact absurd this (by decide)
  · intro hchain S hS
    rw [← List.flatten_splitBy R L, List.isChain_flatten hne] at hchain
    apply key_eq_head
    refine (isChain_and (hchain.1 S hS) (List.isChain_of_mem_splitBy hS)).imp ?_
    rintro a b ⟨hkey, hjoin⟩
    rcases (hR a b).mp hjoin with hgroup | hsame
    · exact hkey hgroup
    · exact hsame

/-- A record that goes on with the last run extends that run. -/
theorem splitBy_append_singleton {R : α → α → Bool} {S g : List α} {gs : List (List α)} {t : α}
    (hsplit : S.splitBy R = gs ++ [g]) (hjoin : ∀ a ∈ g.getLast?, R a t = true) :
    (S ++ [t]).splitBy R = gs ++ [g ++ [t]] := by
  obtain ⟨hflat, hne, hrun, hbreak⟩ := List.splitBy_eq_iff.mp hsplit
  have hg : g ≠ [] := fun h => hne (by simp [h])
  apply List.splitBy_eq_iff.mpr
  refine ⟨by simp [hflat], ?_, ?_, ?_⟩
  · simp only [List.mem_append, List.mem_singleton, not_or] at hne ⊢
    exact ⟨hne.1, by simp⟩
  · intro x hx
    rcases List.mem_append.mp hx with hx | hx
    · exact hrun x (List.mem_append_left _ hx)
    · rw [List.mem_singleton.mp hx]
      apply (hrun g (by simp)).append (List.IsChain.singleton t)
      simpa using hjoin
  · rw [List.isChain_append] at hbreak ⊢
    refine ⟨hbreak.1, List.IsChain.singleton _, ?_⟩
    intro x hx y hy
    obtain ⟨hx', hg', hfalse⟩ := hbreak.2.2 x hx g (by simp)
    obtain rfl : g ++ [t] = y := by simpa using hy
    exact ⟨hx', by simp, by rwa [List.head_append_of_ne_nil hg']⟩

section weight
variable {R : α → α → Bool} {w : List α → Nat} (hext : ∀ g t, g ≠ [] → w g < w (g ++ [t]))
  (hone : ∀ t, 0 < w [t])
include hext hone

/-- If a group weighs more with one more record, and a new group weighs
    something, then all groups together weigh more with one more record. -/
theorem sum_splitBy_append_singleton_lt (S : List α) (t : α) :
    ((S.splitBy R).map w).sum < (((S ++ [t]).splitBy R).map w).sum := by
  by_cases hbreak : ∀ a ∈ S.getLast?, R a t = false
  · have := hone t
    rw [List.splitBy_append (by simpa using hbreak)]
    simp
    exact this
  · obtain ⟨a, ha, hat⟩ : ∃ a ∈ S.getLast?, R a t = true := by simpa using hbreak
    have hS : S.splitBy R ≠ [] := by
      rw [List.splitBy_ne_nil]
      rintro rfl
      exact absurd ha (by simp)
    -- the last group ends with the last record
    have hsplit := (List.dropLast_append_getLast hS).symm
    have hlast : ∀ b ∈ ((S.splitBy R).getLast hS).getLast?, R b t = true := by
      intro b hb
      have hb' : b ∈ S.getLast? := by
        rw [← List.flatten_splitBy R S, hsplit, List.flatten_append, List.flatten_singleton,
          List.getLast?_append, Option.mem_def, Option.mem_def.mp hb]
        rfl
      rw [Option.mem_def] at ha hb'
      rw [ha] at hb'
      cases hb'
      exact hat
    have hlt := hext ((S.splitBy R).getLast hS) t
      (List.ne_nil_of_mem_splitBy (List.getLast_mem hS))
    rw [splitBy_append_singleton hsplit hlast]
    have hsum : ((S.splitBy R).map w).sum =
        ((S.splitBy R).dropLast.map w).sum + w ((S.splitBy R).getLast hS) := by
      conv_lhs => rw [hsplit]
      simp
    rw [hsum]
    simp
    omega

/-- And so they do with further records. -/
theorem sum_splitBy_append_lt (S : List α) {T : List α} (hT : T ≠ []) :
    ((S.splitBy R).map w).sum < (((S ++ T).splitBy R).map w).sum := by
  induction T generalizing S with
  | nil => exact absurd rfl hT
  | cons t T ih =>
    -- the further records come one after the other
    have hstep := sum_splitBy_append_singleton_lt hext hone (R := R) S t
    cases T with
    | nil => exact hstep
    | cons u T =>
      have hrest := ih (S ++ [t]) (List.cons_ne_nil u T)
      rw [List.append_assoc, List.singleton_append] at hrest
      omega

end weight

/-- Records in an order that respects a rank are ordered by the rank. -/
theorem pairwise_rank_of_isChain {R : α → α → Prop} (rank : α → Nat) {L : List α}
    (hrank : ∀ a ∈ L, ∀ b ∈ L, R a b → rank a ≤ rank b) (hL : L.IsChain R) :
    L.Pairwise fun a b => rank a ≤ rank b := by
  have htrans : IsTrans α fun a b => rank a ≤ rank b := ⟨fun _ _ _ h h' => Nat.le_trans h h'⟩
  have hchain : L.IsChain fun a b => rank a ≤ rank b :=
    List.IsChain.imp_of_mem_imp (fun a b ha hb h => hrank a ha b hb h) hL
  exact hchain.pairwise

/-- Behind another value in the order of a list its first value does not come. -/
theorem ne_of_idxOf_le {κ : Type} [BEq κ] [LawfulBEq κ] {k a b : κ} {ks : List κ} (ha : a ≠ k)
    (hle : (k :: ks).idxOf a ≤ (k :: ks).idxOf b) : b ≠ k := by
  rintro rfl
  rw [List.idxOf_cons_self, List.idxOf_cons_ne _ (Ne.symm ha)] at hle
  omega

/-- Records ordered by a key with the values `ks`: the records of each value
    stand together. The induction is on the values, and for the first one on
    the records. -/
theorem eq_flatMap_filter {κ : Type} [DecidableEq κ] [BEq κ] [LawfulBEq κ] (key : α → κ)
    (ks : List κ) (hks : ks.Nodup) {L : List α} (hmem : ∀ a ∈ L, key a ∈ ks)
    (hsorted : L.Pairwise fun a b => ks.idxOf (key a) ≤ ks.idxOf (key b)) :
    L = ks.flatMap fun k => L.filter fun a => key a = k := by
  induction ks generalizing L with
  | nil =>
    cases L with
    | nil => rfl
    | cons a L => exact absurd (hmem a List.mem_cons_self) List.not_mem_nil
  | cons k ks ih =>
    obtain ⟨hk, hks'⟩ := List.nodup_cons.mp hks
    induction L with
    | nil => simp
    | cons a L ihL =>
      obtain ⟨hle, hsorted'⟩ := List.pairwise_cons.mp hsorted
      have hmem' : ∀ b ∈ L, key b ∈ k :: ks := fun b hb => hmem b (List.mem_cons_of_mem a hb)
      by_cases hak : key a = k
      · -- the first record has the first value
        have hL := ihL hmem' hsorted'
        have hother : ∀ j ∈ ks, ((a :: L).filter fun b => key b = j) =
            L.filter fun b => key b = j := by
          intro j hj
          have : key a ≠ j := fun h => hk (by rw [← hak, h]; exact hj)
          simp [this]
        rw [List.flatMap_cons, List.flatMap_congr hother]
        conv_lhs => rw [hL]
        simp [hak]
      · -- no record has the first value any more
        have hnone : ∀ b ∈ a :: L, key b ≠ k := by
          intro b hb
          rcases List.mem_cons.mp hb with rfl | hb
          · exact hak
          · exact ne_of_idxOf_le hak (hle b hb)
        have hmemks : ∀ b ∈ a :: L, key b ∈ ks := by
          intro b hb
          rcases List.mem_cons.mp (hmem b hb) with h | h
          · exact absurd h (hnone b hb)
          · exact h
        have hsortedks : (a :: L).Pairwise fun b c => ks.idxOf (key b) ≤ ks.idxOf (key c) := by
          refine hsorted.imp_of_mem ?_
          intro b c hb hc hbc
          rw [List.idxOf_cons_ne _ (Ne.symm (hnone b hb)),
            List.idxOf_cons_ne _ (Ne.symm (hnone c hc))] at hbc
          omega
        have hempty : ((a :: L).filter fun b => key b = k) = [] := by
          rw [List.filter_eq_nil_iff]
          intro b hb
          simpa using hnone b hb
        rw [List.flatMap_cons, hempty, List.nil_append]
        exact ih hks' hmemks hsortedks

theorem map_splitBy_ne_nil {β : Type} {R : α → α → Bool} {L : List α} (hL : L ≠ [])
    (f : List α → β) : (L.splitBy R).map f ≠ [] := by
  rw [ne_eq, List.map_eq_nil_iff, List.splitBy_eq_nil]
  exact hL

/-- Records ordered by a rank, where neighbours of one rank are in one
    section: the ranks of the first records of the sections ascend. -/
theorem pairwise_head_splitBy {R : α → α → Bool} (rank : α → Nat) (d : α) {L : List α}
    (hsorted : L.Pairwise fun a b => rank a ≤ rank b)
    (hjoin : ∀ a ∈ L, ∀ b ∈ L, rank a = rank b → R a b = true) :
    (L.splitBy R).Pairwise fun S T => rank (S.headD d) < rank (T.headD d) := by
  have hflat := hsorted
  rw [← List.flatten_splitBy R L, List.pairwise_flatten] at hflat
  -- within a section the ranks do not fall, nor from one to the next
  obtain ⟨hwithin, hacross⟩ := hflat
  have htrans : IsTrans (List α) fun S T => rank (S.headD d) < rank (T.headD d) :=
    ⟨fun _ _ _ h h' => Nat.lt_trans h h'⟩
  refine List.IsChain.pairwise ?_
  have hbreaks := List.isChain_getLast_head_splitBy R L
  rw [List.isChain_iff_getElem] at hbreaks ⊢
  intro i hi
  have hS : (L.splitBy R)[i] ∈ L.splitBy R := List.getElem_mem _
  have hT : (L.splitBy R)[i + 1] ∈ L.splitBy R := List.getElem_mem _
  have hle := List.pairwise_iff_getElem.mp hacross i (i + 1) (by omega) hi (by omega)
  obtain ⟨hSne, hTne, hbreak⟩ := hbreaks i hi
  generalize (L.splitBy R)[i] = S at *
  generalize (L.splitBy R)[i + 1] = T at *
  obtain ⟨b, y, rfl⟩ := List.exists_cons_of_ne_nil hTne
  obtain ⟨a, x, rfl⟩ := List.exists_cons_of_ne_nil hSne
  -- up to the last record of a section the rank may grow, behind it it must
  have hlast : rank a ≤ rank ((a :: x).getLast hSne) := by
    rcases List.mem_cons.mp (List.getLast_mem hSne) with h | h
    · exact Nat.le_of_eq (congrArg rank h.symm)
    · exact (List.pairwise_cons.mp (hwithin _ hS)).1 _ h
  have hnext := hle _ (List.getLast_mem hSne) b List.mem_cons_self
  have hne : rank ((a :: x).getLast hSne) ≠ rank b := by
    intro h
    have := hjoin _ (mem_of_mem_splitBy hS (List.getLast_mem hSne)) b
      (mem_of_mem_splitBy hT List.mem_cons_self) h
    rw [List.head_cons, this] at hbreak
    exact absurd hbreak (by decide)
  show rank a < rank b
  omega

/-! ### Reports that write text

    A text report opens a group with a text, writes each item with a
    separator behind it, and cuts the last separator off before it closes the
    group. It may write to a part of a larger output (`on`), such as one or
    both of two messages. -/

/-- The texts of a report. -/
structure Layout (α χ : Type) where
  opening : α → List χ
  item : α → List χ
  separator : χ
  closing : List χ

variable {χ : Type}

/-- The report with the texts of `y`, which writes through `on`. -/
def Layout.report (y : Layout α χ) (on : (List χ → List χ) → τ → τ) (sentinel : α)
    (sameGroup sameSection : α → α → Bool) : Report α τ where
  sentinel := sentinel
  sameGroup := sameGroup
  sameSection := sameSection
  openGroup a := on (· ++ y.opening a)
  putItem a := on (· ++ (y.item a ++ [y.separator]))
  closeGroup := on (fun s => s.dropLast ++ y.closing)

/-- The text of one group: its items between the opening and the closing. -/
def Layout.groupText (y : Layout α χ) (g : List α) : List χ :=
  match g with
  | [] => []
  | a :: _ => y.opening a ++ [y.separator].intercalate (g.map y.item) ++ y.closing

/-- The text of one section. -/
def Layout.sectionText (y : Layout α χ) (sameGroup : α → α → Bool) (S : List α) : List χ :=
  ((S.splitBy fun a b => sameGroup b a).map y.groupText).flatten

section text
variable (y : Layout α χ) (sentinel : α) (sameGroup sameSection : α → α → Bool)
  {on : (List χ → List χ) → τ → τ}

/-- Items with a separator behind each, the last one cut off, are the items
    with a separator between them. -/
theorem dropLast_items (s : List χ) (a : α) (g : List α) :
    (s ++ ((a :: g).map fun t => y.item t ++ [y.separator]).flatten).dropLast =
      s ++ [y.separator].intercalate ((a :: g).map y.item) := by
  induction g generalizing s a with
  | nil => simp [List.intercalate, ← List.append_assoc]
  | cons b g ih =>
    have h := ih (s ++ (y.item a ++ [y.separator])) b
    simp only [List.map_cons, List.flatten_cons, List.intercalate, List.intersperse_cons_cons,
      List.append_assoc] at h ⊢
    exact h

/-- The items of a group are appended in order. -/
theorem foldl_putItem (hcomp : ∀ f g o, on f (on g o) = on (f ∘ g) o) (g : List α)
    (f : List χ → List χ) (o : τ) :
    g.foldl (fun o t => (y.report on sentinel sameGroup sameSection).putItem t o) (on f o) =
      on (fun s => f s ++ (g.map fun t => y.item t ++ [y.separator]).flatten) o := by
  induction g generalizing f with
  | nil => simp
  | cons a g ih =>
    have hstep : (y.report on sentinel sameGroup sameSection).putItem a (on f o) =
        on (fun s => f s ++ (y.item a ++ [y.separator])) o := hcomp _ _ _
    rw [List.foldl_cons, hstep, ih]
    simp [List.append_assoc]

theorem putGroup_eq (hcomp : ∀ f g o, on f (on g o) = on (f ∘ g) o) (hid : ∀ o, on id o = o)
    (g : List α) (o : τ) :
    (y.report on sentinel sameGroup sameSection).putGroup g o =
      on (· ++ y.groupText g) o := by
  cases g with
  | nil =>
    have : (fun s : List χ => s ++ y.groupText []) = id := by
      funext s; exact List.append_nil s
    rw [this, hid]
    rfl
  | cons a g =>
    show on (fun s => s.dropLast ++ y.closing) ((a :: g).foldl _ (on (· ++ y.opening a) o)) = _
    rw [foldl_putItem y sentinel sameGroup sameSection hcomp, hcomp]
    congr 1
    funext s
    show (s ++ y.opening a ++ _).dropLast ++ y.closing = _
    rw [dropLast_items]
    simp only [Layout.groupText, List.append_assoc]

/-- **A text report** appends the text of the section to what it writes to. -/
theorem putSection_eq (hcomp : ∀ f g o, on f (on g o) = on (f ∘ g) o) (hid : ∀ o, on id o = o)
    (S : List α) (o : τ) :
    (y.report on sentinel sameGroup sameSection).putSection S o =
      on (· ++ y.sectionText sameGroup S) o := by
  show (S.splitBy fun a b => sameGroup b a).foldl
    (fun o g => (y.report on sentinel sameGroup sameSection).putGroup g o) o = _
  unfold Layout.sectionText
  induction S.splitBy (fun a b => sameGroup b a) generalizing o with
  | nil =>
    have : (fun s : List χ => s ++ ([].map y.groupText).flatten) = id := by
      funext s; exact List.append_nil s
    rw [this, hid]
    rfl
  | cons g gs ih =>
    rw [List.foldl_cons, putGroup_eq y sentinel sameGroup sameSection hcomp hid, ih, hcomp]
    congr 1
    funext s
    simp [List.append_assoc]

end text

/-! ### Records that print the same -/

/-- A map of the records that a report does not notice. -/
structure Report.Blind (r : Report α τ) (g : α → α) : Prop where
  sentinel : g r.sentinel = r.sentinel
  sameGroup : ∀ a b, r.sameGroup (g a) (g b) = r.sameGroup a b
  sameSection : ∀ a b, r.sameSection (g a) (g b) = r.sameSection a b
  openGroup : ∀ a, r.openGroup (g a) = r.openGroup a
  putItem : ∀ a, r.putItem (g a) = r.putItem a

def Cursor.map (g : α → α) (s : Cursor α τ) : Cursor α τ where
  out := s.out
  current := g s.current
  previous := g s.previous
  rest := s.rest.map g

theorem Cursor.before_map {g : α → α} {e : α} (h : g e = e) (o : τ) (l : List α) :
    Cursor.before e o e (l.map g) = (Cursor.before e o e l).map g := by
  cases l <;> simp [Cursor.before, Cursor.map, h]

theorem Cursor.advance_map {g : α → α} {e : α} (h : g e = e) (s : Cursor α τ) :
    (s.map g).advance e = (s.advance e).map g := by
  obtain ⟨out, current, previous, rest⟩ := s
  cases rest with
  | nil =>
    simp only [Cursor.advance, Cursor.map, List.map_nil]
    rw [h]
  | cons b l => rfl

theorem runLoop_map {r : Report α τ} {g : α → α} (h : r.Blind g) (s : Cursor α τ) (n : Nat) :
    runLoop r (s.map g) n = (runLoop r s n).map (Cursor.map g) := by
  unfold runLoop
  apply doWhile_map (Cursor.map g)
  · intro s n
    have hout : { s.map g with out := r.putItem (s.map g).current (s.map g).out } =
        ({ s with out := r.putItem s.current s.out } : Cursor α τ).map g := by
      simp [Cursor.map, h.putItem]
    rw [hout, Cursor.advance_map h.sentinel]
    rfl
  · exact fun s => h.sameGroup _ _

theorem sectionLoop_map {r : Report α τ} {g : α → α} (h : r.Blind g) (s : Cursor α τ) (n : Nat) :
    sectionLoop r (s.map g) n = (sectionLoop r s n).map (Cursor.map g) := by
  unfold sectionLoop
  apply doWhile_map (Cursor.map g)
  · intro s n
    have hout : { s.map g with out := r.openGroup (s.map g).current (s.map g).out } =
        ({ s with out := r.openGroup s.current s.out } : Cursor α τ).map g := by
      simp [Cursor.map, h.openGroup]
    show (runLoop r _ n).bind _ = ((runLoop r _ n).bind _).map _
    rw [hout, runLoop_map h]
    cases runLoop r { s with out := r.openGroup s.current s.out } n <;> rfl
  · exact fun s => h.sameSection _ _

end ControlBreak
