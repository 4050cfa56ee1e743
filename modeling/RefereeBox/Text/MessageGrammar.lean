import RefereeBox.Lib.Grammar
import RefereeBox.Text.BttText
import RefereeBox.Text.CttIsolation

/-! # The Grammar of the Messages

  The grammar of the BTT and the CTT messages, as languages, and that what the
  loops print are sentences of it. A BTT message has any number of sections,
  a CTT message at most an initial and a goal section: the situations of a
  sorted list ascend, so no section of a team can come twice.
-/

namespace RefereeBox

open Loop ControlBreak Grammar

/-! ### The grammar -/

/-- The delimiters of the format, and the separator between two messages. -/
def isReserved (c : Char) : Bool := isDelimiter c || c = '#'

/-- Texts that may stand in a field. -/
def fieldText : Language Char := {s | ∀ c ∈ s, isReserved c = false}

def word : Language Char := {s | s ≠ [] ∧ s ∈ fieldText}

instance (s : Text) : Decidable (s ∈ fieldText) :=
  inferInstanceAs (Decidable (∀ c ∈ s, isReserved c = false))

instance (s : Text) : Decidable (s ∈ word) := inferInstanceAs (Decidable (s ≠ [] ∧ s ∈ fieldText))

/-- `<place,configuration(object,..,object)>` -/
def groupGrammar (configuration : Language Char) : Language Char :=
  literal "<".toList * word * literal ",".toList * configuration * literal "(".toList *
    sepBy [','] word * literal ")>".toList

/-- `<name>situation(group..group)` -/
def sectionGrammar (name configuration : Language Char) : Language Char :=
  name * literal "situation(".toList * oneOrMore (groupGrammar configuration) *
    literal ")".toList

def bttGrammar : Language Char :=
  literal "BTT<".toList * opt (sepBy [';'] (sectionGrammar word fieldText)) * literal ">".toList

/-- In an initial section the configurations are left out. -/
def cttInitialGrammar : Language Char :=
  sectionGrammar (literal "initial".toList) 1 * literal ";".toList

def cttGoalGrammar : Language Char := sectionGrammar (literal "goal".toList) fieldText

def cttGrammar : Language Char :=
  literal "CTT<".toList * (opt cttInitialGrammar * opt cttGoalGrammar) * literal ">".toList

/-! ### Documents are sentences -/

theorem ObjectGroup.text_mem {g : ObjectGroup} {configuration : Language Char}
    (hplace : g.place ∈ word) (hconfiguration : g.configuration ∈ configuration)
    (hne : g.objects ≠ []) (hobjects : ∀ o ∈ g.objects, o ∈ word) :
    g.text ∈ groupGrammar configuration := by
  have hopening : "<".toList ++ g.place ++ ",".toList ++ g.configuration ∈
      literal "<".toList * word * literal ",".toList * configuration :=
    Language.append_mem_mul (Language.append_mem_mul
      (Language.append_mem_mul (mem_literal _) hplace) (mem_literal _)) hconfiguration
  exact Language.append_mem_mul (Language.append_mem_mul
    (Language.append_mem_mul hopening (mem_literal _)) (intercalate_mem_sepBy hne hobjects))
    (mem_literal _)

theorem Situation.text_mem {s : Situation} {name configuration : Language Char}
    (hname : s.name ∈ name) (hne : s.groups ≠ [])
    (hgroups : ∀ g ∈ s.groups, g.text ∈ groupGrammar configuration) :
    s.text ∈ sectionGrammar name configuration := by
  have htexts : (s.groups.map ObjectGroup.text).flatten ∈ oneOrMore (groupGrammar configuration) := by
    refine flatten_mem_oneOrMore (by simpa using hne) ?_
    intro x hx
    obtain ⟨g, hg, rfl⟩ := List.mem_map.mp hx
    exact hgroups g hg
  exact Language.append_mem_mul (Language.append_mem_mul
    (Language.append_mem_mul hname (mem_literal _)) htexts) (mem_literal _)

/-! ### BTT -/

/-- A task with a situation, a place and an object, whose fields are field
    texts. -/
structure BttTask.Clean (t : BttTask) : Prop where
  situation : t.situation ∈ word
  place : t.place ∈ word
  configuration : t.configuration ∈ fieldText
  object : t.object ∈ word

instance BttTask.instDecidableClean (t : BttTask) : Decidable t.Clean :=
  decidable_of_iff (t.situation ∈ word ∧ t.place ∈ word ∧ t.configuration ∈ fieldText ∧
      t.object ∈ word)
    ⟨fun ⟨hs, hp, hc, ho⟩ => ⟨hs, hp, hc, ho⟩,
      fun h => ⟨h.situation, h.place, h.configuration, h.object⟩⟩

theorem BttTask.Clean.getConfiguration {t : BttTask} (h : t.Clean) :
    t.getConfiguration ∈ fieldText := by
  unfold BttTask.getConfiguration
  split
  · exact fun c hc => absurd hc List.not_mem_nil
  · exact h.configuration

theorem bttSituationOf_mem {S : List BttTask} (hS : S ≠ []) (hclean : ∀ t ∈ S, t.Clean) :
    (bttSituationOf S).text ∈ sectionGrammar word fieldText := by
  refine Situation.text_mem (hclean _ (headD_mem hS {})).situation (map_splitBy_ne_nil hS _) ?_
  intro g hg
  obtain ⟨x, hx, rfl⟩ := List.mem_map.mp hg
  have hxne : x ≠ [] := List.ne_nil_of_mem_splitBy hx
  have hhead := hclean _ (mem_of_mem_splitBy hx (headD_mem hxne {}))
  refine ObjectGroup.text_mem hhead.place hhead.getConfiguration
    (List.map_eq_nil_iff.not.mpr hxne) ?_
  intro o ho
  obtain ⟨t, ht, rfl⟩ := List.mem_map.mp ho
  exact (hclean t (mem_of_mem_splitBy hx ht)).object

theorem btt_sentence {L : List BttTask} (hL : ∀ t ∈ L, t.Clean) :
    "BTT<".toList ++ documentText (bttDocument L) ++ ">".toList ∈ bttGrammar := by
  have hdocument : documentText (bttDocument L) ∈ opt (sepBy [';'] (sectionGrammar word fieldText)) := by
    by_cases hne : bttDocument L = []
    · rw [hne]
      exact nil_mem_opt _
    · refine mem_opt (intercalate_mem_sepBy (by simpa using hne) ?_)
      intro x hx
      obtain ⟨s, hs, rfl⟩ := List.mem_map.mp hx
      obtain ⟨S, hS, rfl⟩ := List.mem_map.mp hs
      exact bttSituationOf_mem (List.ne_nil_of_mem_splitBy hS)
        fun t ht => hL t (mem_of_mem_splitBy hS ht)
  exact Language.append_mem_mul (Language.append_mem_mul (mem_literal _) hdocument) (mem_literal _)

/-! ### CTT -/

structure CttTask.Clean (t : CttTask) : Prop where
  situation : t.situation ∈ cttSituations
  place : t.place ∈ word
  configuration : t.configuration ∈ fieldText
  object : t.object ∈ word

instance CttTask.instDecidableClean (t : CttTask) : Decidable t.Clean :=
  decidable_of_iff (t.situation ∈ cttSituations ∧ t.place ∈ word ∧ t.configuration ∈ fieldText ∧
      t.object ∈ word)
    ⟨fun ⟨hs, hp, hc, ho⟩ => ⟨hs, hp, hc, ho⟩,
      fun h => ⟨h.situation, h.place, h.configuration, h.object⟩⟩

theorem CttTask.Clean.getConfiguration {t : CttTask} (h : t.Clean) :
    t.getConfiguration ∈ fieldText := by
  unfold CttTask.getConfiguration
  split
  · exact fun c hc => absurd hc List.not_mem_nil
  · exact h.configuration

theorem separator_notMem {s : Text} (hs : s ∈ fieldText) : '#' ∉ s := by
  intro hmem
  have hfree := hs '#' hmem
  exact absurd hfree (by decide)

theorem CttTask.Clean.sendable {t : CttTask} (h : t.Clean) : t.Sendable where
  situation := h.situation
  place_ne := h.place.1
  object_ne := h.object.1
  place := separator_notMem h.place.2
  configuration := separator_notMem h.configuration
  object := separator_notMem h.object.2

/-- The text of a section; in an initial one there are no configurations. -/
theorem cttSituationOf_mem (initial : Bool) {S : List CttTask} (hS : S ≠ [])
    (hclean : ∀ t ∈ S, t.Clean) :
    (cttSituationOf initial S).text ∈
      sectionGrammar (literal (if initial then "initial".toList else "goal".toList))
        (if initial then 1 else fieldText) := by
  refine Situation.text_mem (mem_literal _) (map_splitBy_ne_nil hS _) ?_
  intro g hg
  obtain ⟨x, hx, rfl⟩ := List.mem_map.mp hg
  have hxne : x ≠ [] := List.ne_nil_of_mem_splitBy hx
  have hhead := hclean _ (mem_of_mem_splitBy hx (headD_mem hxne {}))
  refine ObjectGroup.text_mem hhead.place ?_ (List.map_eq_nil_iff.not.mpr hxne) ?_
  · cases initial with
    | false => exact hhead.getConfiguration
    | true => exact Language.nil_mem_one
  · intro o ho
    obtain ⟨t, ht, rfl⟩ := List.mem_map.mp ho
    exact (hclean t (mem_of_mem_splitBy hx ht)).object

/-- The situation that a section is printed under. -/
def cttHead (S : List CttTask) : Text := (S.headD {}).situation

theorem cttPart_mem_initial {S : List CttTask} (hS : S ≠ []) (hclean : ∀ t ∈ S, t.Clean)
    (team : Team) (h : cttHead S = "initial".toList) : cttPart team S ∈ cttInitialGrammar := by
  rw [cttPart_initial h]
  exact Language.append_mem_mul (cttSituationOf_mem true hS hclean) (mem_literal _)

theorem cttPart_mem_goal {S : List CttTask} (hS : S ≠ []) (hclean : ∀ t ∈ S, t.Clean)
    {team : Team} (h : cttHead S = team.goal) : cttPart team S ∈ cttGoalGrammar := by
  rw [cttPart_goal h]
  exact cttSituationOf_mem false hS hclean

/-- In a sorted list no two sections have the same situation. -/
theorem pairwise_cttHead {L : List CttTask} (hL : ∀ t ∈ L, t.Clean) (hsorted : CttTask.Sorted L) :
    (L.splitBy CttTask.joined).Pairwise fun S T =>
      cttSituations.idxOf (cttHead S) < cttSituations.idxOf (cttHead T) := by
  refine pairwise_head_splitBy (fun t : CttTask => cttSituations.idxOf t.situation) {}
    (hsorted.pairwise_situation fun t ht => (hL t ht).situation) ?_
  intro a ha b _ hsame
  have hsituation : a.situation = b.situation :=
    (List.idxOf_inj (hL a ha).situation).mp hsame
  simp [CttTask.joined, CttTask.sameSituation, hsituation]

/-- At most one section is printed under a situation. -/
theorem length_filter_cttHead {Ss : List (List CttTask)}
    (hpairwise : Ss.Pairwise fun S T =>
      cttSituations.idxOf (cttHead S) < cttSituations.idxOf (cttHead T)) (s : Text) :
    (Ss.filter fun S => cttHead S = s).length ≤ 1 := by
  have hfilter := hpairwise.filter fun S => decide (cttHead S = s)
  have hhead : ∀ S ∈ Ss.filter fun S => decide (cttHead S = s), cttHead S = s := by
    intro S hS
    exact of_decide_eq_true (List.mem_filter.mp hS).2
  cases hSs : Ss.filter fun S => decide (cttHead S = s) with
  | nil => exact Nat.zero_le 1
  | cons S Ts =>
    cases Ts with
    | nil => exact Nat.le_refl 1
    | cons T Us =>
      -- two of them would ascend
      rw [hSs] at hfilter hhead
      have hlt := (List.pairwise_cons.mp hfilter).1 T List.mem_cons_self
      rw [hhead S List.mem_cons_self, hhead T (List.mem_cons_of_mem S List.mem_cons_self)] at hlt
      exact absurd hlt (Nat.lt_irrefl _)

/-- **The message of a team**: its initial section, then its goal section. -/
theorem cttMessage_mem (team : Team) {L : List CttTask} (hL : ∀ t ∈ L, t.Clean)
    (hsorted : CttTask.Sorted L) : cttMessage team L ∈ opt cttInitialGrammar * opt cttGoalGrammar := by
  have hpairwise := pairwise_cttHead hL hsorted
  have hne : ∀ S ∈ L.splitBy CttTask.joined, S ≠ [] := fun S hS => List.ne_nil_of_mem_splitBy hS
  have hclean : ∀ S ∈ L.splitBy CttTask.joined, ∀ t ∈ S, t.Clean :=
    fun S hS t ht => hL t (mem_of_mem_splitBy hS ht)
  unfold cttMessage
  generalize L.splitBy CttTask.joined = Ss at *
  have hblocks := eq_flatMap_filter cttHead cttSituations (by decide)
    (fun S hS => (hclean S hS _ (headD_mem (hne S hS) {})).situation)
    (hpairwise.imp fun h => Nat.le_of_lt h)
  have hinitial : (Ss.filter fun S => cttHead S = "initial".toList).flatMap (cttPart team) ∈
      opt cttInitialGrammar := by
    refine flatMap_mem_opt (length_filter_cttHead hpairwise _) fun S hS => ?_
    obtain ⟨hmem, hhead⟩ := List.mem_filter.mp hS
    exact cttPart_mem_initial (hne S hmem) (hclean S hmem) team (of_decide_eq_true hhead)
  have hgoal : (Ss.filter fun S => cttHead S = team.goal).flatMap (cttPart team) ∈
      opt cttGoalGrammar := by
    refine flatMap_mem_opt (length_filter_cttHead hpairwise _) fun S hS => ?_
    obtain ⟨hmem, hhead⟩ := List.mem_filter.mp hS
    exact cttPart_mem_goal (hne S hmem) (hclean S hmem) (of_decide_eq_true hhead)
  -- sections of the other team add nothing
  have hother : ∀ other : Team, other ≠ team →
      (Ss.filter fun S => cttHead S = other.goal).flatMap (cttPart team) = [] := by
    intro other hteam
    rw [List.flatMap_eq_nil_iff]
    intro S hS
    exact cttPart_other hteam (of_decide_eq_true (List.mem_filter.mp hS).2)
  have htext : Ss.flatMap (cttPart team) =
      (Ss.filter fun S => cttHead S = "initial".toList).flatMap (cttPart team) ++
        (Ss.filter fun S => cttHead S = team.goal).flatMap (cttPart team) := by
    conv_lhs => rw [hblocks]
    unfold cttSituations
    rw [List.flatMap_cons, List.flatMap_cons, List.flatMap_cons, List.flatMap_nil,
      List.append_nil, List.flatMap_append, List.flatMap_append]
    cases team with
    | team1 => rw [hother .team2 (by decide), List.append_nil]
    | team2 => rw [hother .team1 (by decide), List.nil_append]
  rw [htext]
  exact Language.append_mem_mul hinitial hgoal

/-! ### Both competitions -/

/-- **The standard messages are sentences.** The loops end; the BTT text is a
    sentence of its grammar, and the CTT text of a sorted list, split at the
    separator, is two sentences of its own. -/
theorem messages_in_grammar (tS : TaskSpec) :
    ((∀ t ∈ tS.bttTaskList, t.Clean) →
      ∃ text, Converges (tS.getTaskSpecString .btt) (.ok text) ∧ text ∈ bttGrammar) ∧
    (tS.cttTaskList ≠ [] → CttTask.Sorted tS.cttTaskList → (∀ t ∈ tS.cttTaskList, t.Clean) →
      ∃ text s₁ s₂, Converges (tS.getTaskSpecString .ctt) (.ok text) ∧
        Java.split (Java.oneOf "#") text = [s₁, s₂] ∧ s₁ ∈ cttGrammar ∧ s₂ ∈ cttGrammar) := by
  constructor
  · intro hL
    exact ⟨_, getTaskSpecString_btt tS fun t ht => ⟨(hL t ht).situation.1, (hL t ht).place.1⟩,
      btt_sentence hL⟩
  · intro hne hsorted hL
    have hmessage : ∀ team, "CTT<".toList ++ cttMessage team tS.cttTaskList ++ ">".toList ∈
        cttGrammar := fun team => Language.append_mem_mul
      (Language.append_mem_mul (mem_literal _) (cttMessage_mem team hL hsorted)) (mem_literal _)
    exact ⟨_, _, _, getTaskSpecString_ctt tS fun t ht => ⟨(hL t ht).situation, (hL t ht).place.1⟩,
      split_cttText (fun t ht => (hL t ht).sendable) hne, hmessage .team1, hmessage .team2⟩

theorem messages_in_grammar_line :
    (∃ text, Converges (({ bttTaskList := twoAtOnePlace "line" } : TaskSpec).getTaskSpecString .btt)
      (.ok text) ∧ text ∈ bttGrammar) ∧
    ∃ text s₁ s₂,
      Converges (({ cttTaskList := goalAtStart "line" } : TaskSpec).getTaskSpecString .ctt)
        (.ok text) ∧
      Java.split (Java.oneOf "#") text = [s₁, s₂] ∧ s₁ ∈ cttGrammar ∧ s₂ ∈ cttGrammar :=
  ⟨(messages_in_grammar { bttTaskList := twoAtOnePlace "line" }).1 (by decide),
    (messages_in_grammar { cttTaskList := goalAtStart "line" }).2 (by decide) (by decide)
      (by decide)⟩

end RefereeBox
