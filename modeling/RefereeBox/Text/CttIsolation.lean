import RefereeBox.Text.CttText

/-! # Opponent Isolation

  Each team should learn only its own goal and the common initial situation.
  The message of a team is compared with `ownText`, the text of the tasks
  that the team may see. The two agree exactly when no group of the list
  runs over a change of the situation (`cttMessage_eq_ownText_iff`): a group
  that does takes tasks of the next situation into the section of the first
  one, and with it to the first one's receivers.
-/

namespace RefereeBox

open Loop ControlBreak

/-! ### Sorted lists -/

/-- A task that can be sent: one of the three situations, a place and an
    object, and no message separator. -/
structure CttTask.Sendable (t : CttTask) : Prop where
  situation : t.situation ∈ cttSituations
  place_ne : t.place ≠ []
  object_ne : t.object ≠ []
  place : '#' ∉ t.place
  configuration : '#' ∉ t.configuration
  object : '#' ∉ t.object

instance CttTask.instDecidableSendable (t : CttTask) : Decidable t.Sendable :=
  decidable_of_iff (t.situation ∈ cttSituations ∧ (t.place ≠ [] ∧ t.object ≠ []) ∧
      '#' ∉ t.place ∧ '#' ∉ t.configuration ∧ '#' ∉ t.object)
    ⟨fun ⟨hs, ⟨hp, ho⟩, h1, h2, h3⟩ => ⟨hs, hp, ho, h1, h2, h3⟩,
      fun h => ⟨h.situation, ⟨h.place_ne, h.object_ne⟩, h.place, h.configuration, h.object⟩⟩

/-- The order that `Collections.sort` establishes. -/
def CttTask.Sorted (L : List CttTask) : Prop := L.IsChain fun a b => a.compareTo b ≤ 0

instance CttTask.instDecidableSorted (L : List CttTask) : Decidable (CttTask.Sorted L) :=
  inferInstanceAs (Decidable (L.IsChain _))

/-- The tasks of one situation. -/
def CttTask.only (situation : Text) (L : List CttTask) : List CttTask :=
  L.filter fun t => t.situation = situation

/-- The tasks that a team may see. -/
def CttTask.visible (team : Team) (L : List CttTask) : List CttTask :=
  L.filter fun t => t.situation = "initial".toList || t.situation = team.goal

/-- Neighbours of different situations differ in place or configuration. -/
def CttTask.NoRunOver (L : List CttTask) : Prop :=
  L.IsChain fun a b => CttTask.sameGroup b a = true → b.situation = a.situation

instance CttTask.instDecidableNoRunOver (L : List CttTask) : Decidable (CttTask.NoRunOver L) :=
  inferInstanceAs (Decidable (L.IsChain _))

/-- The order of the tasks is first of all the order of their situations. -/
theorem CttTask.idxOf_le_of_compareTo {a b : CttTask} (ha : a.situation ∈ cttSituations)
    (hb : b.situation ∈ cttSituations) (h : a.compareTo b ≤ 0) :
    cttSituations.idxOf a.situation ≤ cttSituations.idxOf b.situation := by
  have horder : ∀ s ∈ cttSituations, ∀ s' ∈ cttSituations,
      cttSituations.idxOf s ≤ cttSituations.idxOf s' ∨ 0 < Java.compareTo s s' := by decide
  rcases horder _ ha _ hb with hle | hpos
  · exact hle
  · have hne : Java.compareTo a.situation b.situation ≠ 0 := by omega
    unfold CttTask.compareTo at h
    rw [if_pos hne] at h
    omega

/-- So a sorted list is ordered by the situations. -/
theorem CttTask.Sorted.pairwise_situation {L : List CttTask} (hsorted : CttTask.Sorted L)
    (hL : ∀ t ∈ L, t.situation ∈ cttSituations) :
    L.Pairwise fun a b => cttSituations.idxOf a.situation ≤ cttSituations.idxOf b.situation :=
  pairwise_rank_of_isChain (fun t : CttTask => cttSituations.idxOf t.situation)
    (fun a ha b hb => CttTask.idxOf_le_of_compareTo (hL a ha) (hL b hb)) hsorted

/-- A sorted list is its initial tasks, then those of team 1, then those of
    team 2. -/
theorem CttTask.Sorted.eq_blocks {L : List CttTask} (hsorted : CttTask.Sorted L)
    (hL : ∀ t ∈ L, t.situation ∈ cttSituations) :
    L = CttTask.only "initial".toList L ++
      (CttTask.only Team.team1.goal L ++ CttTask.only Team.team2.goal L) := by
  have hblocks := eq_flatMap_filter CttTask.situation cttSituations (by decide) hL
    (hsorted.pairwise_situation hL)
  have hflat : (cttSituations.flatMap fun s => CttTask.only s L) =
      CttTask.only "initial".toList L ++
        (CttTask.only Team.team1.goal L ++ (CttTask.only Team.team2.goal L ++ [])) := rfl
  rw [List.append_nil] at hflat
  exact hblocks.trans hflat

/-- A filter that keeps a situation keeps all its tasks. -/
theorem CttTask.only_filter {s : Text} {p : CttTask → Bool}
    (hp : ∀ t : CttTask, t.situation = s → p t = true) (L : List CttTask) :
    CttTask.only s (L.filter p) = CttTask.only s L := by
  unfold CttTask.only
  rw [List.filter_filter]
  apply List.filter_congr
  intro t _
  by_cases h : t.situation = s
  · simp [h, hp t h]
  · simp [h]

theorem CttTask.only_visible_initial (team : Team) (L : List CttTask) :
    CttTask.only "initial".toList (CttTask.visible team L) = CttTask.only "initial".toList L :=
  CttTask.only_filter (fun t h => by rw [h]; rfl) L

theorem CttTask.only_visible_goal (team : Team) (L : List CttTask) :
    CttTask.only team.goal (CttTask.visible team L) = CttTask.only team.goal L :=
  CttTask.only_filter (fun t h => by simp [h]) L

/-! ### The message of a list without running groups -/

/-- The text of the tasks that a team may see: the initial section and the
    section of its own goal. -/
def ownText (team : Team) (L : List CttTask) : Text :=
  cttPart team (CttTask.only "initial".toList L) ++ cttPart team (CttTask.only team.goal L)

/-- A team's own text depends only on what it may see. -/
theorem ownText_congr {team : Team} {L L' : List CttTask}
    (h : CttTask.visible team L = CttTask.visible team L') : ownText team L = ownText team L' := by
  unfold ownText
  rw [← CttTask.only_visible_initial team L, ← CttTask.only_visible_goal team L, h,
    CttTask.only_visible_initial, CttTask.only_visible_goal]

theorem cttPart_nil (team : Team) : cttPart team [] = [] := by cases team <;> rfl

/-- A chain of joined neighbours is one section. -/
theorem cttMessage_of_isChain (team : Team) {S : List CttTask}
    (h : S.IsChain fun a b => CttTask.joined a b = true) : cttMessage team S = cttPart team S := by
  by_cases hS : S = []
  · rw [hS, cttPart_nil]
    rfl
  · unfold cttMessage
    rw [List.splitBy_of_isChain hS h]
    simp

/-- A section break separates the messages. -/
theorem cttMessage_append (team : Team) {X Y : List CttTask}
    (h : ∀ a ∈ X.getLast?, ∀ b ∈ Y.head?, CttTask.joined a b = false) :
    cttMessage team (X ++ Y) = cttMessage team X ++ cttMessage team Y := by
  unfold cttMessage
  rw [List.splitBy_append h, List.flatMap_append]

theorem CttTask.mem_only {situation : Text} {L : List CttTask} {t : CttTask}
    (h : t ∈ CttTask.only situation L) : t.situation = situation := by
  simpa [CttTask.only] using (List.mem_filter.mp h).2

/-- Tasks of one situation are one section. -/
theorem CttTask.isChain_of_situation {s : Text} {X : List CttTask}
    (hX : ∀ t ∈ X, t.situation = s) : X.IsChain fun a b => CttTask.joined a b = true := by
  apply List.Pairwise.isChain
  apply List.pairwise_of_forall_mem_list
  intro a ha b hb
  simp [CttTask.joined, CttTask.sameSituation, hX a ha, hX b hb]

/-! ### Running groups -/

/-- A group runs over from `X` into `Y`. -/
def CttTask.RunsOver (X Y : List CttTask) : Prop :=
  ∃ a ∈ X.getLast?, ∃ b ∈ Y.head?, CttTask.sameGroup b a = true

theorem CttTask.RunsOver.ne_nil {X Y : List CttTask} (h : CttTask.RunsOver X Y) :
    X ≠ [] ∧ Y ≠ [] := by
  obtain ⟨a, ha, b, hb, -⟩ := h
  constructor
  · rintro rfl
    exact absurd ha (by simp)
  · rintro rfl
    exact absurd hb (by simp)

/-- A group that runs over joins the two parts to one section. -/
theorem CttTask.RunsOver.isChain {X Y : List CttTask} (h : CttTask.RunsOver X Y)
    (hX : X.IsChain fun a b => CttTask.joined a b = true)
    (hY : Y.IsChain fun a b => CttTask.joined a b = true) :
    (X ++ Y).IsChain fun a b => CttTask.joined a b = true := by
  apply hX.append hY
  obtain ⟨a, ha, b, hb, hgroup⟩ := h
  intro a' ha' b' hb'
  rw [Option.mem_def] at ha hb ha' hb'
  rw [ha] at ha'
  rw [hb] at hb'
  cases ha'
  cases hb'
  simp [CttTask.joined, hgroup]

/-- Without one, parts of different situations are separated. -/
theorem CttTask.joined_of_not_runsOver {X Y : List CttTask} (h : ¬ CttTask.RunsOver X Y)
    (hne : ∀ a ∈ X, ∀ b ∈ Y, b.situation ≠ a.situation) :
    ∀ a ∈ X.getLast?, ∀ b ∈ Y.head?, CttTask.joined a b = false := by
  intro a ha b hb
  have hgroup : CttTask.sameGroup b a = false := by
    by_contra hg
    exact h ⟨a, ha, b, hb, by simpa using hg⟩
  have hsit := hne a (List.mem_of_getLast? ha) b (List.mem_of_mem_head? hb)
  simp [CttTask.joined, CttTask.sameSituation, hgroup, hsit]

/-- A list has no running group exactly when its parts have none and none
    runs over from one to the other. -/
theorem CttTask.noRunOver_append_iff {X Y : List CttTask}
    (hne : ∀ a ∈ X, ∀ b ∈ Y, b.situation ≠ a.situation) :
    CttTask.NoRunOver (X ++ Y) ↔
      CttTask.NoRunOver X ∧ CttTask.NoRunOver Y ∧ ¬ CttTask.RunsOver X Y := by
  unfold CttTask.NoRunOver
  rw [List.isChain_append]
  refine and_congr_right fun _ => and_congr_right fun _ => ?_
  constructor
  · rintro h ⟨a, ha, b, hb, hgroup⟩
    exact hne a (List.mem_of_getLast? ha) b (List.mem_of_mem_head? hb) (h a ha b hb hgroup)
  · intro h a ha b hb hgroup
    exact absurd ⟨a, ha, b, hb, hgroup⟩ h

theorem CttTask.noRunOver_of_situation {s : Text} {X : List CttTask}
    (hX : ∀ t ∈ X, t.situation = s) : CttTask.NoRunOver X := by
  apply List.Pairwise.isChain
  apply List.pairwise_of_forall_mem_list
  intro a ha b hb _
  rw [hX a ha, hX b hb]

/-! ### Telling messages apart -/

/-- A section ends with its closing bracket. -/
theorem Situation.getLast?_text (s : Situation) : s.text.getLast? = some ')' := by
  unfold Situation.text
  rw [List.getLast?_append]
  rfl

theorem intercalate_append_singleton (sep : Text) (x : Text) (xs : List Text) (y : Text) :
    sep.intercalate (x :: (xs ++ [y])) = sep.intercalate (x :: xs) ++ sep ++ y := by
  induction xs generalizing x with
  | nil => simp [List.intercalate]
  | cons z xs ih =>
    rw [List.cons_append, List.intercalate_cons_cons, List.intercalate_cons_cons, ih]
    simp only [List.append_assoc]

/-- More tasks make a longer section. -/
theorem cttSituationOf_text_lt (initial : Bool) (S : List CttTask) {T : List CttTask}
    (hT : T ≠ []) :
    (cttSituationOf initial S).text.length < (cttSituationOf initial (S ++ T)).text.length := by
  -- the length of a section is that of its groups, and of texts around them
  have hgroups : ∀ S : List CttTask, (cttSituationOf initial S).text.length =
      (if initial then "initial".toList else "goal".toList).length + "situation(".toList.length +
        ((S.splitBy fun a b => CttTask.sameGroup b a).map
          fun g => (cttGroup initial g).text.length).sum + ")".toList.length := by
    intro S
    unfold Situation.text cttSituationOf
    rw [List.length_append, List.length_append, List.length_append, List.length_flatten,
      List.map_map, List.map_map]
    rfl
  -- a group gets longer with each object
  have hext : ∀ (g : List CttTask) (t : CttTask), g ≠ [] →
      (cttGroup initial g).text.length < (cttGroup initial (g ++ [t])).text.length := by
    intro g t hg
    obtain ⟨a, x, rfl⟩ := List.exists_cons_of_ne_nil hg
    have hjoin : ([','].intercalate ((a :: x).map CttTask.object)).length <
        ([','].intercalate ((a :: x ++ [t]).map CttTask.object)).length := by
      rw [List.map_append, List.map_singleton, List.map_cons, List.cons_append,
        intercalate_append_singleton, List.length_append, List.length_append, List.length_singleton]
      omega
    simp only [ObjectGroup.text, cttGroup, List.length_append]
    simp only [List.headD_cons, List.cons_append] at hjoin ⊢
    omega
  have hlt := sum_splitBy_append_lt (R := fun a b => CttTask.sameGroup b a)
    (w := fun g => (cttGroup initial g).text.length) hext
    (fun t => by simp [ObjectGroup.text]) S hT
  rw [hgroups, hgroups]
  omega

theorem headD_append {α : Type} {X : List α} (hX : X ≠ []) (Y : List α) (d : α) :
    (X ++ Y).headD d = X.headD d := by
  obtain ⟨a, x, rfl⟩ := List.exists_cons_of_ne_nil hX
  rfl

/-- The first situation of a list that starts with a block. -/
theorem CttTask.head_situation {s : Text} {X : List CttTask} (hX : X ≠ [])
    (h : ∀ t ∈ X, t.situation = s) (Y : List CttTask) : ((X ++ Y).headD {}).situation = s := by
  rw [headD_append hX]
  obtain ⟨a, x, rfl⟩ := List.exists_cons_of_ne_nil hX
  exact h a List.mem_cons_self

section blocks
variable {I A B : List CttTask} (hI : ∀ t ∈ I, t.situation = "initial".toList)
  (hA : ∀ t ∈ A, t.situation = Team.team1.goal) (hB : ∀ t ∈ B, t.situation = Team.team2.goal)

include hI in
/-- An initial section ends with a semicolon. -/
theorem getLast?_cttPart_initial (hne : I ≠ []) (team : Team) (Y : List CttTask) :
    (cttPart team (I ++ Y)).getLast? = some ';' := by
  rw [cttPart_initial (CttTask.head_situation hne hI Y), List.getLast?_append]
  rfl

include hI in
theorem cttPart_initial_lt (hne : I ≠ []) (team : Team) {Y : List CttTask} (hY : Y ≠ []) :
    (cttPart team I).length < (cttPart team (I ++ Y)).length := by
  have hhead := CttTask.head_situation hne hI []
  rw [List.append_nil] at hhead
  rw [cttPart_initial hhead, cttPart_initial (CttTask.head_situation hne hI Y), List.length_append,
    List.length_append]
  have := cttSituationOf_text_lt true I hY
  omega

/-- A goal section of the own team ends with a bracket. -/
theorem getLast?_cttPart_goal {team : Team} {G : List CttTask}
    (hG : ∀ t ∈ G, t.situation = team.goal) (hne : G ≠ []) (s : Text) :
    (s ++ cttPart team G).getLast? = some ')' := by
  have hhead := CttTask.head_situation hne hG []
  rw [List.append_nil] at hhead
  rw [cttPart_goal hhead, List.getLast?_append, Situation.getLast?_text]
  rfl

theorem cttPart_goal_lt {team : Team} {G : List CttTask}
    (hG : ∀ t ∈ G, t.situation = team.goal) (hne : G ≠ []) {Y : List CttTask} (hY : Y ≠ []) :
    (cttPart team G).length < (cttPart team (G ++ Y)).length := by
  have hhead := CttTask.head_situation hne hG []
  rw [List.append_nil] at hhead
  rw [cttPart_goal hhead, cttPart_goal (CttTask.head_situation hne hG Y)]
  exact cttSituationOf_text_lt false G hY

include hI in
/-- An initial section with further tasks is not the one without them. -/
theorem cttPart_initial_ne (hne : I ≠ []) (team : Team) {Y : List CttTask} (hY : Y ≠ []) :
    cttPart team (I ++ Y) ≠ cttPart team I := by
  intro h
  have hlt := cttPart_initial_lt hI hne team hY
  rw [h] at hlt
  exact absurd hlt (Nat.lt_irrefl _)

include hI in
/-- Nor is it a text with a goal section at its end. -/
theorem cttPart_initial_ne_goal (hne : I ≠ []) {team : Team} (Y : List CttTask) (s : Text)
    {G : List CttTask} (hG : ∀ t ∈ G, t.situation = team.goal) (hGne : G ≠ []) :
    cttPart team (I ++ Y) ≠ s ++ cttPart team G := by
  intro h
  have hlast := getLast?_cttPart_initial hI hne team Y
  rw [h, getLast?_cttPart_goal hG hGne] at hlast
  exact absurd hlast (by decide)

/-- A goal section of the other team, with whatever stands behind it in the
    list, adds nothing. -/
theorem cttPart_other_block {team other : Team} (hteam : other ≠ team) {G : List CttTask}
    (hG : ∀ t ∈ G, t.situation = other.goal) (hne : G ≠ []) (Y : List CttTask) :
    cttPart team (G ++ Y) = [] :=
  cttPart_other hteam (CttTask.head_situation hne hG Y)

theorem cttPart_other_only {team other : Team} (hteam : other ≠ team) {G : List CttTask}
    (hG : ∀ t ∈ G, t.situation = other.goal) : cttPart team G = [] := by
  by_cases hne : G = []
  · rw [hne, cttPart_nil]
  · have := cttPart_other_block hteam hG hne []
    rwa [List.append_nil] at this

include hI hA hB

/-- The situations of the parts differ. -/
theorem blocks_situation_ne :
    (∀ a ∈ I, ∀ b ∈ A ++ B, b.situation ≠ a.situation) ∧
      ∀ a ∈ A, ∀ b ∈ B, b.situation ≠ a.situation := by
  constructor
  · intro a ha b hb
    rw [hI a ha]
    rcases List.mem_append.mp hb with hb | hb
    · rw [hA b hb]
      decide
    · rw [hB b hb]
      decide
  · intro a ha b hb
    rw [hA a ha, hB b hb]
    decide

theorem noRunOver_blocks_iff :
    CttTask.NoRunOver (I ++ (A ++ B)) ↔
      ¬ CttTask.RunsOver I (A ++ B) ∧ ¬ CttTask.RunsOver A B := by
  obtain ⟨hne, hne'⟩ := blocks_situation_ne hI hA hB
  rw [CttTask.noRunOver_append_iff hne, CttTask.noRunOver_append_iff hne']
  constructor
  · rintro ⟨_, ⟨_, _, h2⟩, h1⟩
    exact ⟨h1, h2⟩
  · rintro ⟨h1, h2⟩
    exact ⟨CttTask.noRunOver_of_situation hI, ⟨CttTask.noRunOver_of_situation hA,
      CttTask.noRunOver_of_situation hB, h2⟩, h1⟩

/-- Without a running group every block is one section. -/
theorem cttMessage_blocks (team : Team) (h1 : ¬ CttTask.RunsOver I (A ++ B))
    (h2 : ¬ CttTask.RunsOver A B) :
    cttMessage team (I ++ (A ++ B)) = cttPart team I ++ (cttPart team A ++ cttPart team B) := by
  obtain ⟨hne, hne'⟩ := blocks_situation_ne hI hA hB
  rw [cttMessage_append team (CttTask.joined_of_not_runsOver h1 hne),
    cttMessage_append team (CttTask.joined_of_not_runsOver h2 hne'),
    cttMessage_of_isChain team (CttTask.isChain_of_situation hI),
    cttMessage_of_isChain team (CttTask.isChain_of_situation hA),
    cttMessage_of_isChain team (CttTask.isChain_of_situation hB)]

/-- A group that runs from the goal of team 1 into that of team 2 takes tasks
    away from team 2 and gives them to team 1. -/
theorem cttMessage_ne_of_goal_run (team : Team) (h1 : ¬ CttTask.RunsOver I (A ++ B))
    (h2 : CttTask.RunsOver A B) :
    cttMessage team (I ++ (A ++ B)) ≠ cttPart team I ++ (cttPart team A ++ cttPart team B) := by
  obtain ⟨hAne, hBne⟩ := h2.ne_nil
  obtain ⟨hne, -⟩ := blocks_situation_ne hI hA hB
  have hchain := h2.isChain (CttTask.isChain_of_situation hA) (CttTask.isChain_of_situation hB)
  rw [cttMessage_append team (CttTask.joined_of_not_runsOver h1 hne),
    cttMessage_of_isChain team (CttTask.isChain_of_situation hI), cttMessage_of_isChain team hchain]
  intro h
  have h := List.append_cancel_left h
  cases team with
  | team1 =>
    -- the section of team 1 has got longer
    rw [cttPart_other_only (by decide) hB, List.append_nil] at h
    have := cttPart_goal_lt hA hAne hBne
    rw [h] at this
    exact absurd this (Nat.lt_irrefl _)
  | team2 =>
    -- that of team 2 is gone
    rw [cttPart_other_block (by decide) hA hAne, cttPart_other_only (by decide) hA] at h
    have := getLast?_cttPart_goal hB hBne []
    rw [← h] at this
    exact absurd this (by simp)

/-- Everything is one initial section, and the own text ends with a goal section. -/
theorem cttMessage_ne_of_both_runs (team : Team) (h1 : CttTask.RunsOver I (A ++ B))
    (h2 : CttTask.RunsOver A B) :
    cttMessage team (I ++ (A ++ B)) ≠ cttPart team I ++ (cttPart team A ++ cttPart team B) := by
  obtain ⟨hIne, -⟩ := h1.ne_nil
  obtain ⟨hAne, hBne⟩ := h2.ne_nil
  rw [cttMessage_of_isChain team (h1.isChain (CttTask.isChain_of_situation hI)
    (h2.isChain (CttTask.isChain_of_situation hA) (CttTask.isChain_of_situation hB)))]
  cases team with
  | team1 =>
    rw [cttPart_other_only (by decide) hB, List.append_nil]
    exact cttPart_initial_ne_goal hI hIne (A ++ B) _ hA hAne
  | team2 =>
    rw [cttPart_other_only (by decide) hA, List.nil_append]
    exact cttPart_initial_ne_goal hI hIne (A ++ B) _ hB hBne

omit hA in
/-- The group runs into the goal of team 2. -/
theorem cttMessage_ne_of_run_to_team2 (team : Team) (h1 : CttTask.RunsOver I B) :
    cttMessage team (I ++ B) ≠ cttPart team I ++ cttPart team B := by
  obtain ⟨hIne, hBne⟩ := h1.ne_nil
  rw [cttMessage_of_isChain team (h1.isChain (CttTask.isChain_of_situation hI)
    (CttTask.isChain_of_situation hB))]
  cases team with
  | team1 =>
    rw [cttPart_other_only (by decide) hB, List.append_nil]
    exact cttPart_initial_ne hI hIne .team1 hBne
  | team2 => exact cttPart_initial_ne_goal hI hIne B _ hB hBne

/-- The group runs into the goal of team 1, which is separate from that of team 2. -/
theorem cttMessage_ne_of_run_to_team1 (team : Team) (h1 : CttTask.RunsOver I A)
    (h2 : ¬ CttTask.RunsOver A B) :
    cttMessage team (I ++ (A ++ B)) ≠ cttPart team I ++ (cttPart team A ++ cttPart team B) := by
  obtain ⟨hIne, hAne⟩ := h1.ne_nil
  obtain ⟨-, hne'⟩ := blocks_situation_ne hI hA hB
  have hbreak : ∀ a ∈ (I ++ A).getLast?, ∀ b ∈ B.head?, CttTask.joined a b = false := by
    rw [List.getLast?_append_of_ne_nil _ hAne]
    exact CttTask.joined_of_not_runsOver h2 hne'
  rw [← List.append_assoc, cttMessage_append team hbreak,
    cttMessage_of_isChain team (h1.isChain (CttTask.isChain_of_situation hI)
      (CttTask.isChain_of_situation hA)),
    cttMessage_of_isChain team (CttTask.isChain_of_situation hB)]
  cases team with
  | team1 =>
    rw [cttPart_other_only (by decide) hB, List.append_nil, List.append_nil]
    exact cttPart_initial_ne_goal hI hIne A _ hA hAne
  | team2 =>
    rw [cttPart_other_only (by decide) hA, List.nil_append]
    intro h
    exact cttPart_initial_ne hI hIne .team2 hAne (List.append_cancel_right h)

/-- A group that runs from the initial situation into a goal gives that goal's
    tasks to both teams, as initial tasks. -/
theorem cttMessage_ne_of_initial_run (team : Team) (h1 : CttTask.RunsOver I (A ++ B)) :
    cttMessage team (I ++ (A ++ B)) ≠ cttPart team I ++ (cttPart team A ++ cttPart team B) := by
  -- the cases are what the first group of a goal joins
  by_cases h2 : CttTask.RunsOver A B
  · exact cttMessage_ne_of_both_runs hI hA hB team h1 h2
  · by_cases hAne : A = []
    · subst hAne
      rw [List.nil_append] at h1
      rw [cttPart_nil, List.nil_append, List.nil_append]
      exact cttMessage_ne_of_run_to_team2 hI hB team h1
    · have h1' : CttTask.RunsOver I A := by
        obtain ⟨a, ha, b, hb, hgroup⟩ := h1
        exact ⟨a, ha, b, by rwa [List.head?_append_of_ne_nil _ hAne] at hb, hgroup⟩
      exact cttMessage_ne_of_run_to_team1 hI hA hB team h1' h2

end blocks

/-- **A team's message** is its own text exactly when no group runs over. -/
theorem cttMessage_eq_ownText_iff (team : Team) {L : List CttTask} (hsorted : CttTask.Sorted L)
    (hL : ∀ t ∈ L, t.situation ∈ cttSituations) :
    cttMessage team L = ownText team L ↔ CttTask.NoRunOver L := by
  have hI : ∀ t ∈ CttTask.only "initial".toList L, t.situation = "initial".toList :=
    fun t => CttTask.mem_only
  have hA : ∀ t ∈ CttTask.only Team.team1.goal L, t.situation = Team.team1.goal :=
    fun t => CttTask.mem_only
  have hB : ∀ t ∈ CttTask.only Team.team2.goal L, t.situation = Team.team2.goal :=
    fun t => CttTask.mem_only
  -- the section of the other team is empty in the team's own text
  have hown : ownText team L = cttPart team (CttTask.only "initial".toList L) ++
      (cttPart team (CttTask.only Team.team1.goal L) ++
        cttPart team (CttTask.only Team.team2.goal L)) := by
    cases team with
    | team1 => rw [cttPart_other_only (by decide) hB, List.append_nil]; rfl
    | team2 => rw [cttPart_other_only (by decide) hA, List.nil_append]; rfl
  have hblocks := hsorted.eq_blocks hL
  rw [hown]
  constructor
  · intro h
    rw [hblocks, noRunOver_blocks_iff hI hA hB]
    conv at h => lhs; rw [hblocks]
    refine ⟨fun h1 => ?_, fun h2 => ?_⟩
    · exact cttMessage_ne_of_initial_run hI hA hB team h1 h
    · by_cases h1 : CttTask.RunsOver (CttTask.only "initial".toList L)
          (CttTask.only Team.team1.goal L ++ CttTask.only Team.team2.goal L)
      · exact cttMessage_ne_of_initial_run hI hA hB team h1 h
      · exact cttMessage_ne_of_goal_run hI hA hB team h1 h2 h
  · intro h
    rw [hblocks, noRunOver_blocks_iff hI hA hB] at h
    conv => lhs; rw [hblocks]
    exact cttMessage_blocks hI hA hB team h.1 h.2

/-! ### What is sent -/

/-- The position of a team's message between the separators. -/
def Team.index : Team → Nat
  | .team1 => 0
  | .team2 => 1

/-- The part of a CTT text that `sendSpec` sends to a team, if there is one. -/
def teamPart (team : Team) (taskSpec : Text) : Option Text :=
  (Java.split (Java.oneOf "#") taskSpec)[team.index]?

theorem CttTask.Sendable.getConfiguration {t : CttTask} (h : t.Sendable) :
    '#' ∉ t.getConfiguration := by
  unfold CttTask.getConfiguration
  split
  · exact List.not_mem_nil
  · exact h.configuration

/-- The separator stands between the two messages, and nowhere else. -/
theorem split_cttText {L : List CttTask} (hL : ∀ t ∈ L, t.Sendable) (hne : L ≠ []) :
    Java.split (Java.oneOf "#") (cttText L) =
      ["CTT<".toList ++ cttMessage .team1 L ++ ">".toList,
        "CTT<".toList ++ cttMessage .team2 L ++ ">".toList] := by
  have hplain : ∀ team, ∀ c ∈ "CTT<".toList ++ cttMessage team L ++ ">".toList,
      Java.oneOf "#" c = false := by
    intro team
    have hmessage := notMem_cttMessage (c := '#') (by decide) (by decide) (by decide) (fun t ht =>
      ⟨(hL t ht).place, (hL t ht).getConfiguration, (hL t ht).object⟩) team
    apply Java.not_oneOf_of_notMem
    simp [hmessage]
  have htext : cttText L = ("CTT<".toList ++ cttMessage .team1 L ++ ">".toList) ++
      '#' :: ("CTT<".toList ++ cttMessage .team2 L ++ ">".toList) := by
    simp [cttText, hne]
  rw [htext, Java.split_cons (hplain .team1) (by decide),
    List.splitOnP_eq_singleton (hplain .team2)]
  simp [List.rdropWhile]

/-- What the teams are sent: the first team always gets its message; the
    second one gets nothing when the list is empty. -/
theorem teamPart_cttText {L : List CttTask} (hL : ∀ t ∈ L, t.Sendable) (team : Team) :
    teamPart team (cttText L) = if team = .team2 ∧ L = [] then none
      else some ("CTT<".toList ++ cttMessage team L ++ ">".toList) := by
  by_cases hne : L = []
  · subst hne
    cases team <;> decide
  · unfold teamPart
    rw [split_cttText hL hne, if_neg (fun h => hne h.2)]
    cases team <;> rfl

/-- Against a list in which no group runs over, the parts agree exactly when no
    group runs over in the other list either. -/
theorem teamPart_eq_iff (team : Team) {L L' : List CttTask} (hL : ∀ t ∈ L, t.Sendable)
    (hL' : ∀ t ∈ L', t.Sendable) (hsorted : CttTask.Sorted L) (hsorted' : CttTask.Sorted L')
    (hrun' : CttTask.NoRunOver L') (hvisible : CttTask.visible team L = CttTask.visible team L') :
    teamPart team (cttText L) = teamPart team (cttText L') ↔
      CttTask.NoRunOver L ∧ (team = .team2 → (L = [] ↔ L' = [])) := by
  have hsit : ∀ t ∈ L, t.situation ∈ cttSituations := fun t ht => (hL t ht).situation
  have hsit' : ∀ t ∈ L', t.situation ∈ cttSituations := fun t ht => (hL' t ht).situation
  have hmessage := cttMessage_eq_ownText_iff team hsorted hsit
  have hmessage' := (cttMessage_eq_ownText_iff team hsorted' hsit').mpr hrun'
  rw [← ownText_congr hvisible] at hmessage'
  -- an empty list is sent to team 1 only
  have hempty : L = [] → CttTask.NoRunOver L := fun h => h ▸ List.IsChain.nil
  rw [teamPart_cttText hL, teamPart_cttText hL', hmessage', ← hmessage]
  by_cases hteam : team = .team2
  · by_cases h : L = [] <;> by_cases h' : L' = [] <;> simp [hteam, h, h'] at hempty hmessage ⊢
    · exact hmessage.mpr hempty
  · simp [hteam]

/-- **Isolation.** Let two sorted lists show a team the same tasks, and let no
    group run over in the second one. Then the team is sent the same for both
    exactly when no group runs over in the first one either, and, for team 2,
    when both lists are empty or neither is. -/
theorem ctt_isolation (tS tS' : TaskSpec) (hL : ∀ t ∈ tS.cttTaskList, t.Sendable)
    (hL' : ∀ t ∈ tS'.cttTaskList, t.Sendable) (hsorted : CttTask.Sorted tS.cttTaskList)
    (hsorted' : CttTask.Sorted tS'.cttTaskList) (hrun' : CttTask.NoRunOver tS'.cttTaskList) :
    ∃ text text', Converges (tS.getTaskSpecString .ctt) (.ok text) ∧
      Converges (tS'.getTaskSpecString .ctt) (.ok text') ∧
      ∀ team, CttTask.visible team tS.cttTaskList = CttTask.visible team tS'.cttTaskList →
        (teamPart team text = teamPart team text' ↔
          CttTask.NoRunOver tS.cttTaskList ∧
            (team = .team2 → (tS.cttTaskList = [] ↔ tS'.cttTaskList = []))) :=
  ⟨_, _, getTaskSpecString_ctt _ fun t ht => ⟨(hL t ht).situation, (hL t ht).place_ne⟩,
    getTaskSpecString_ctt _ fun t ht => ⟨(hL' t ht).situation, (hL' t ht).place_ne⟩,
    fun team => teamPart_eq_iff team hL hL' hsorted hsorted' hrun'⟩

/-- An initial task at S1, and a goal task of team 1 at the same place. -/
def goalAtStart (configuration : String) : List CttTask :=
  [⟨"initial".toList, " ".toList, "S1".toList, "M20".toList, .init⟩,
    ⟨"team1Goal".toList, configuration.toList, "S1".toList, "M30".toList, .init⟩]

theorem ctt_isolation_line :
    ∃ text text',
      Converges (({ cttTaskList := goalAtStart "line" } : TaskSpec).getTaskSpecString .ctt)
        (.ok text) ∧
      Converges (({ cttTaskList := (goalAtStart "line").take 1 } : TaskSpec).getTaskSpecString .ctt)
        (.ok text') ∧
      ∀ team, CttTask.visible team (goalAtStart "line") =
          CttTask.visible team ((goalAtStart "line").take 1) →
        (teamPart team text = teamPart team text' ↔ CttTask.NoRunOver (goalAtStart "line") ∧
          (team = .team2 → (goalAtStart "line" = [] ↔ (goalAtStart "line").take 1 = []))) :=
  ctt_isolation { cttTaskList := goalAtStart "line" }
    { cttTaskList := (goalAtStart "line").take 1 } (by decide) (by decide) (by decide) (by decide)
    (by decide)

/-- Without a configuration the goal object of team 1 is sent to team 2. -/
theorem ctt_leaks_opponent_goal :
    (∀ t ∈ goalAtStart " ", t.Sendable) ∧ CttTask.Sorted (goalAtStart " ") ∧
      CttTask.visible .team2 (goalAtStart " ") = CttTask.visible .team2 ((goalAtStart " ").take 1) ∧
      Converges (({ cttTaskList := goalAtStart " " } : TaskSpec).getTaskSpecString .ctt)
        (.ok (cttText (goalAtStart " "))) ∧
      Converges (({ cttTaskList := (goalAtStart " ").take 1 } : TaskSpec).getTaskSpecString .ctt)
        (.ok (cttText ((goalAtStart " ").take 1))) ∧
      teamPart .team2 (cttText (goalAtStart " ")) =
        some "CTT<initialsituation(<S1,(M20,M30)>);>".toList ∧
      teamPart .team2 (cttText ((goalAtStart " ").take 1)) =
        some "CTT<initialsituation(<S1,(M20)>);>".toList := by
  refine ⟨by decide, by decide, by decide, ?_, ?_, by decide, by decide⟩
  · exact getTaskSpecString_ctt { cttTaskList := goalAtStart " " } (by decide)
  · exact getTaskSpecString_ctt { cttTaskList := (goalAtStart " ").take 1 } (by decide)

end RefereeBox
