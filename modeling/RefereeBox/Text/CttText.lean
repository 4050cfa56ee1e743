import RefereeBox.Model.Encoder
import RefereeBox.Text.Document

/-! # The CTT Text

  The loops that print a CTT list converge. They write two messages, one for
  each team: an initial section goes to both, a goal section to the team
  that its first task belongs to (`cttPart`). As in the BTT text, a group
  runs over a change of the situation when neighbours agree in place and
  configuration, so the sections are the runs of `CttTask.joined`.
-/

namespace RefereeBox

open Loop ControlBreak

/-! ### Teams -/

/-- The situation of the team's goal tasks. -/
def Team.goal : Team → Text
  | .team1 => "team1Goal".toList
  | .team2 => "team2Goal".toList

/-- The situations of CTT tasks, in the order of the list. -/
def cttSituations : List Text := ["initial".toList, Team.team1.goal, Team.team2.goal]

instance instDecidableMemCttSituations (s : Text) : Decidable (s ∈ cttSituations) :=
  inferInstanceAs (Decidable (s ∈ ["initial".toList, Team.team1.goal, Team.team2.goal]))

/-! ### Sections -/

/-- Two neighbours that the loops do not separate by a section break. -/
def CttTask.joined (a b : CttTask) : Bool := CttTask.sameGroup b a || CttTask.sameSituation b a

/-- The group of a run of tasks; an initial group has no configuration. -/
def cttGroup (initial : Bool) (g : List CttTask) : ObjectGroup where
  place := (g.headD {}).place
  configuration := if initial then [] else (g.headD {}).getConfiguration
  objects := g.map CttTask.object

def cttSituationOf (initial : Bool) (S : List CttTask) : Situation where
  name := if initial then "initial".toList else "goal".toList
  groups := (S.splitBy fun a b => CttTask.sameGroup b a).map (cttGroup initial)

/-- What the section `S` adds to the message of a team. -/
def cttPart (team : Team) (S : List CttTask) : Text :=
  if (S.headD {}).situation = "initial".toList then (cttSituationOf true S).text ++ ";".toList
  else if (S.headD {}).situation = team.goal then (cttSituationOf false S).text
  else []

theorem cttPart_initial {S : List CttTask} (h : (S.headD {}).situation = "initial".toList)
    (team : Team) : cttPart team S = (cttSituationOf true S).text ++ ";".toList := if_pos h

theorem cttPart_goal {team : Team} {S : List CttTask} (h : (S.headD {}).situation = team.goal) :
    cttPart team S = (cttSituationOf false S).text := by
  have hne : (S.headD {}).situation ≠ "initial".toList := by
    rw [h]
    cases team <;> decide
  rw [cttPart, if_neg hne, if_pos h]

theorem cttPart_other {team other : Team} (hteam : other ≠ team) {S : List CttTask}
    (h : (S.headD {}).situation = other.goal) : cttPart team S = [] := by
  have hne : (S.headD {}).situation ≠ "initial".toList ∧ (S.headD {}).situation ≠ team.goal := by
    rw [h]
    cases team <;> cases other <;> first | decide | exact absurd rfl hteam
  rw [cttPart, if_neg hne.1, if_neg hne.2]

/-- The message of a team. -/
def cttMessage (team : Team) (L : List CttTask) : Text :=
  (L.splitBy CttTask.joined).flatMap (cttPart team)

/-- What one round of the outermost loop appends to the two messages. -/
def emitCtt (S : List CttTask) (_ : Bool) (s : TeamStrings) : TeamStrings :=
  (s.1 ++ cttPart .team1 S, s.2 ++ cttPart .team2 S)

/-! ### Convergence -/

/-- The layout of the initial and of the goal branches. -/
def cttLayout (initial : Bool) : Layout CttTask Char :=
  if initial then cttInitialLayout else cttGoalLayout

theorem groupText_cttLayout (initial : Bool) (g : List CttTask) (hg : g ≠ []) :
    (cttLayout initial).groupText g = (cttGroup initial g).text := by
  obtain ⟨a, x, rfl⟩ := List.exists_cons_of_ne_nil hg
  cases initial with
  | false => rfl
  | true =>
    show "<".toList ++ a.place ++ ",(".toList ++ _ ++ ")>".toList = _
    simp [ObjectGroup.text, cttGroup, cttLayout, cttInitialLayout]

/-- The groups of a section are printed as their texts. -/
theorem sectionText_cttLayout (initial : Bool) (S : List CttTask) :
    (cttLayout initial).sectionText CttTask.sameGroup S =
      ((cttSituationOf initial S).groups.map ObjectGroup.text).flatten := by
  unfold Layout.sectionText cttSituationOf
  rw [List.map_map]
  congr 1
  apply List.map_congr_left
  intro g hg
  have hne : g ≠ [] := List.ne_nil_of_mem_splitBy hg
  exact groupText_cttLayout initial g hne

/-- A branch writes the header, the groups and the footer to its strings. -/
theorem cttSectionPart_converges {write : (Text → Text) → TeamStrings → TeamStrings}
    (hcomp : ∀ f g o, write f (write g o) = write (f ∘ g) o) (hid : ∀ o, write id o = o)
    (initial : Bool) (header footer : Text) {S rest : List CttTask} (hS : S ≠ [])
    (hjoin : S.IsChain fun a b => CttTask.joined a b = true)
    (hstop : ∀ a ∈ S.getLast?, CttTask.joined a (rest.headD {}) = false)
    (o : TeamStrings) (p : CttTask) :
    ∃ p', Converges
      (cttSectionPart write (cttLayout initial) header footer (Cursor.before {} o p (S ++ rest)))
      (Cursor.before {} (write (· ++ (header ++
        ((cttSituationOf initial S).groups.map ObjectGroup.text).flatten ++ footer)) o) p' rest) := by
  obtain ⟨p', hloop⟩ := sectionLoop_converges (r := cttReport write (cttLayout initial)) S rest hS
    hjoin hstop (write (· ++ header) o) p
  have hput : (cttReport write (cttLayout initial)).putSection S (write (· ++ header) o) =
      write (· ++ (cttLayout initial).sectionText CttTask.sameGroup S) (write (· ++ header) o) :=
    putSection_eq (cttLayout initial) {} CttTask.sameGroup CttTask.sameSituation hcomp hid S _
  rw [hput, sectionText_cttLayout] at hloop
  refine ⟨p', ?_⟩
  have hfooter := converges_map (fun s₁ : Cursor CttTask TeamStrings =>
    { s₁ with out := write (· ++ footer) s₁.out }) hloop
  rw [hcomp] at hfooter
  have hout : write ((· ++ footer) ∘ ((· ++
      ((cttSituationOf initial S).groups.map ObjectGroup.text).flatten) ∘ (· ++ header))) o =
      write (· ++ (header ++ ((cttSituationOf initial S).groups.map ObjectGroup.text).flatten ++
        footer)) o := by
    congr 1
    funext s
    simp [List.append_assoc]
  rw [← hout, ← hcomp]
  exact hfooter

theorem onTeam1_comp (f g : Text → Text) (o : TeamStrings) :
    onTeam1 f (onTeam1 g o) = onTeam1 (f ∘ g) o := rfl

theorem onTeam2_comp (f g : Text → Text) (o : TeamStrings) :
    onTeam2 f (onTeam2 g o) = onTeam2 (f ∘ g) o := rfl

theorem onBoth_comp (f g : Text → Text) (o : TeamStrings) :
    onBoth f (onBoth g o) = onBoth (f ∘ g) o := rfl

/-- What the two goal branches write to. -/
def onTeam : Team → (Text → Text) → TeamStrings → TeamStrings
  | .team1 => onTeam1
  | .team2 => onTeam2

/-- A goal branch: the section is one of its own team, and none of the other one. -/
theorem cttGoalPart_converges (team : Team) {S rest : List CttTask} (hS : S ≠ [])
    (hjoin : S.IsChain fun a b => CttTask.joined a b = true)
    (hstop : ∀ a ∈ S.getLast?, CttTask.joined a (rest.headD {}) = false)
    (hsit : (S.headD {}).situation = team.goal) (more : Bool) (o : TeamStrings) (p : CttTask) :
    ∃ p', Converges (cttSectionPart (onTeam team) cttGoalLayout "goalsituation(".toList
        ")".toList (Cursor.before {} o p (S ++ rest)))
      (Cursor.before {} (emitCtt S more o) p' rest) := by
  have hcomp : ∀ f g o, onTeam team f (onTeam team g o) = onTeam team (f ∘ g) o := by
    cases team with
    | team1 => exact onTeam1_comp
    | team2 => exact onTeam2_comp
  obtain ⟨p', h⟩ := cttSectionPart_converges hcomp (fun _ => by cases team <;> rfl) false
    "goalsituation(".toList ")".toList hS hjoin hstop o p
  refine ⟨p', ?_⟩
  have hemit : emitCtt S more o = onTeam team (· ++ ("goalsituation(".toList ++
      ((cttSituationOf false S).groups.map ObjectGroup.text).flatten ++ ")".toList)) o := by
    unfold emitCtt
    cases team with
    | team1 =>
      rw [cttPart_goal hsit, cttPart_other (by decide) hsit]
      simp [onTeam, onTeam1, Situation.text, cttSituationOf]
    | team2 =>
      rw [cttPart_goal hsit, cttPart_other (by decide) hsit]
      simp [onTeam, onTeam2, Situation.text, cttSituationOf]
  rw [hemit]
  exact h

/-- One round of the outermost loop writes the section it stands before. The
    cases are the branches of the code: initial, team 1, team 2. -/
theorem cttSection_converges {S rest : List CttTask} (hS : S ≠ [])
    (hjoin : S.IsChain fun a b => CttTask.joined a b = true)
    (hstop : ∀ a ∈ S.getLast?, CttTask.joined a (rest.headD {}) = false)
    (hsit : (S.headD {}).situation ∈ cttSituations) (more : Bool)
    (o : TeamStrings) (p : CttTask) :
    ∃ p', Converges (cttSection (Cursor.before {} o p (S ++ rest)))
      (Cursor.before {} (emitCtt S more o) p' rest) := by
  have hcurrent : (Cursor.before ({} : CttTask) o p (S ++ rest)).current = S.headD {} := by
    obtain ⟨a, x, rfl⟩ := List.exists_cons_of_ne_nil hS
    rfl
  unfold cttSection
  rw [hcurrent]
  simp only [cttSituations, List.mem_cons, List.not_mem_nil, or_false] at hsit
  rcases hsit with hsit | hsit | hsit
  · -- the initial situation goes to both teams
    obtain ⟨p', h⟩ := cttSectionPart_converges onBoth_comp (fun _ => rfl) true
      "initialsituation(".toList ");".toList hS hjoin hstop o p
    refine ⟨p', ?_⟩
    have hemit : emitCtt S more o = onBoth (· ++ ("initialsituation(".toList ++
        ((cttSituationOf true S).groups.map ObjectGroup.text).flatten ++ ");".toList)) o := by
      rw [emitCtt, cttPart_initial hsit, cttPart_initial hsit]
      simp [onBoth, Situation.text, cttSituationOf]
    rw [if_pos hsit, hemit]
    exact h
  · have hteam : (S.headD {}).situation = "team1Goal".toList := hsit
    rw [if_neg (by rw [hteam]; decide), if_pos hteam]
    exact cttGoalPart_converges .team1 hS hjoin hstop hsit more o p
  · have hteam : (S.headD {}).situation = "team2Goal".toList := hsit
    rw [if_neg (by rw [hteam]; decide), if_neg (by rw [hteam]; decide), if_pos hteam]
    exact cttGoalPart_converges .team2 hS hjoin hstop hsit more o p

/-- The messages after all sections. -/
theorem putAll_emitCtt (Ss : List (List CttTask)) (o : TeamStrings) :
    putAll emitCtt Ss o = (o.1 ++ Ss.flatMap (cttPart .team1), o.2 ++ Ss.flatMap (cttPart .team2)) := by
  induction Ss generalizing o with
  | nil => simp [putAll]
  | cons S Ss ih =>
    rw [putAll, ih]
    simp [emitCtt]

section convergence
variable {L : List CttTask} (hL : ∀ t ∈ L, t.situation ∈ cttSituations ∧ t.place ≠ [])
include hL

omit hL in
theorem ne_nil_of_mem_cttSituations {s : Text} (hs : s ∈ cttSituations) : s ≠ [] := by
  rintro rfl
  exact absurd hs (by decide)

/-- The end marker is not joined to any task. -/
theorem CttTask.joined_sentinel : ∀ a ∈ L, CttTask.joined a {} = false := by
  intro a ha
  obtain ⟨hsituation, hplace⟩ := hL a ha
  have h1 : [] ≠ a.situation := Ne.symm (ne_nil_of_mem_cttSituations hsituation)
  have h2 : [] ≠ a.place := Ne.symm hplace
  simp [CttTask.joined, CttTask.sameGroup, CttTask.sameSituation, h1, h2]

/-- **The CTT loops end**, and they print the two messages. -/
theorem cttString_converges (hne : L ≠ []) (s : Text) :
    Converges (cttString s L)
      (s ++ cttMessage .team1 L ++ ">#CTT<".toList ++ cttMessage .team2 L) := by
  obtain ⟨ctt, itCtt, rfl⟩ := List.exists_cons_of_ne_nil hne
  have hsplit := List.splitBy_ne_nil (r := CttTask.joined).mpr hne
  have hflat := List.flatten_splitBy CttTask.joined (ctt :: itCtt)
  -- the sections are those that the joined neighbours make
  obtain ⟨p', hloop⟩ := sweep_converges cttSection
    (fun a => a.situation.length ≠ 0) {} emitCtt _ hsplit
    (List.nil_notMem_splitBy _ _)
    (by
      intro S Ss hsuff o p
      obtain ⟨hS, hjoin, hstop⟩ := stop_of_suffix hsuff (CttTask.joined_sentinel hL)
      have hhead : S.headD {} ∈ ctt :: itCtt := by
        rw [← hflat]
        obtain ⟨a, x, rfl⟩ := List.exists_cons_of_ne_nil hS
        exact List.mem_flatten_of_mem (hsuff.subset List.mem_cons_self) List.mem_cons_self
      exact cttSection_converges hS hjoin hstop (hL _ hhead).1 _ o p)
    (by
      intro a ha
      rw [hflat] at ha
      simp [ne_nil_of_mem_cttSituations (hL a ha).1])
    (by decide) ([], []) {}
  rw [hflat, putAll_emitCtt] at hloop
  have hout := converges_map (fun c : Cursor CttTask TeamStrings =>
    s ++ c.out.1 ++ ">#CTT<".toList ++ c.out.2) hloop
  exact hout

end convergence

/-- The printed CTT text. -/
def cttText (L : List CttTask) : Text :=
  if L = [] then "CTT<>".toList
  else "CTT<".toList ++ cttMessage .team1 L ++ ">#CTT<".toList ++ cttMessage .team2 L ++ ">".toList

theorem getTaskSpecString_ctt (tS : TaskSpec)
    (hL : ∀ t ∈ tS.cttTaskList, t.situation ∈ cttSituations ∧ t.place ≠ []) :
    Converges (tS.getTaskSpecString .ctt) (.ok (cttText tS.cttTaskList)) := by
  unfold cttText
  by_cases hne : tS.cttTaskList = []
  · rw [if_pos hne]
    unfold TaskSpec.getTaskSpecString
    simp only [hne]
    exact converges_pure _
  · rw [if_neg hne]
    exact converges_map (fun s => Except.ok (s ++ ">".toList))
      (cttString_converges hL hne "CTT<".toList)

/-! ### The fields of a section -/

/-- Every text in a section comes from its tasks, or is a name. -/
theorem cttSituationOf_fields {P : Text → Prop} (hempty : P []) (hinitial : P "initial".toList)
    (hgoal : P "goal".toList) {S : List CttTask}
    (hS : ∀ t ∈ S, P t.place ∧ P t.getConfiguration ∧ P t.object) (initial : Bool) :
    (cttSituationOf initial S).Fields P := by
  have hgroup : ∀ g ∈ (cttSituationOf initial S).groups,
      P g.place ∧ P g.configuration ∧ ∀ o ∈ g.objects, P o := by
    intro g hg
    obtain ⟨x, hx, rfl⟩ := List.mem_map.mp hg
    have hxS : ∀ t ∈ x, t ∈ S := fun t ht => mem_of_mem_splitBy hx ht
    have hxne : x ≠ [] := List.ne_nil_of_mem_splitBy hx
    obtain ⟨a, y, rfl⟩ := List.exists_cons_of_ne_nil hxne
    have hhead := hS a (hxS a List.mem_cons_self)
    refine ⟨hhead.1, ?_, ?_⟩
    · cases initial with
      | false => exact hhead.2.1
      | true => exact hempty
    · intro o ho
      obtain ⟨t, ht, rfl⟩ := List.mem_map.mp ho
      exact (hS t (hxS t ht)).2.2
  refine ⟨?_, fun g hg => (hgroup g hg).1, fun g hg => (hgroup g hg).2.1,
    fun g hg => (hgroup g hg).2.2⟩
  cases initial with
  | false => exact hgoal
  | true => exact hinitial

/-- A character that is neither in the tasks nor written by the format is not
    in a message. -/
theorem notMem_cttMessage {c : Char} (hc : c ∉ formatChars) (hinitial : c ∉ "initial".toList)
    (hgoal : c ∉ "goal".toList) {L : List CttTask}
    (hL : ∀ t ∈ L, c ∉ t.place ∧ c ∉ t.getConfiguration ∧ c ∉ t.object) (team : Team) : c ∉ cttMessage team L := by
  unfold cttMessage
  rw [List.mem_flatMap]
  rintro ⟨S, hS, hmem⟩
  have htext : ∀ initial, c ∉ (cttSituationOf initial S).text := by
    intro initial
    have hS' : ∀ t ∈ S, c ∉ t.place ∧ c ∉ t.getConfiguration ∧ c ∉ t.object :=
      fun t ht => hL t (mem_of_mem_splitBy hS ht)
    exact (cttSituationOf_fields (P := fun x => c ∉ x) List.not_mem_nil hinitial hgoal hS'
      initial).notMem_text hc
  unfold cttPart at hmem
  split at hmem
  · rcases List.mem_append.mp hmem with hmem | hmem
    · exact htext true hmem
    · exact hc (by rw [List.mem_singleton.mp hmem]; decide)
  · split at hmem
    · exact htext false hmem
    · exact absurd hmem List.not_mem_nil

end RefereeBox
