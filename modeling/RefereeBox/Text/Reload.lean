import RefereeBox.Model.Decoder
import RefereeBox.Text.BntText
import RefereeBox.Text.BttText
import RefereeBox.Text.CttIsolation

/-! # Reading BTT and CTT Texts Back

  The printed BTT and CTT texts put every group into angle brackets. Their
  readers split the line at all angle brackets and look at the second piece
  only, which is then the bare header of the first section: no task is read,
  and a BTT line is accepted all the same. So only the empty list survives
  saving and opening.
-/

namespace RefereeBox

open Loop Filling

/-! ### The second piece of a line -/

/-- Split at the angle brackets, a message is its name, the header of its
    first section, and the rest. -/
theorem split_message (name : Text) {header : Text} (z : Text)
    (hname : ∀ c ∈ name, Java.oneOf "<>" c = false)
    (hheader : ∀ c ∈ header, Java.oneOf "<>" c = false) (hne : header ≠ []) :
    ∃ pieces, Java.split (Java.oneOf "<>") (name ++ '<' :: (header ++ '<' :: z)) =
      name :: header :: pieces :=
  ⟨_, Java.split_cons_cons hname (by decide) hheader (by decide) hne⟩

/-- No delimiter is in the name of a header; one that is not behind it either. -/
theorem header_not_oneOf {s x : Text} {cs : String} (hs : NoDelimiter s)
    (hcs : ∀ d ∈ cs.toList, isDelimiter d = true ∧ d ∉ x) :
    ∀ c ∈ s ++ x, Java.oneOf cs c = false := by
  apply Java.not_oneOf_of_notMem
  intro d hd
  obtain ⟨hdelim, hx⟩ := hcs d hd
  exact fun hmem => (List.mem_append.mp hmem).elim (hs.notMem hdelim) hx

/-- A header without its groups has nothing behind its bracket. -/
theorem split_header {s : Text} (hs : NoDelimiter s) :
    Java.split (Java.oneOf ";") (s ++ "situation(".toList) = [s ++ "situation(".toList] ∧
      Java.split (Java.oneOf "()") (s ++ "situation(".toList) =
        [s ++ "situation".toList] := by
  have hsem : ∀ c ∈ s ++ "situation(".toList, Java.oneOf ";" c = false :=
    header_not_oneOf hs (by decide)
  have hbracket : ∀ c ∈ s ++ "situation".toList, Java.oneOf "()" c = false :=
    header_not_oneOf hs (by decide)
  refine ⟨Java.split_of_no_delim hsem, ?_⟩
  have hcut : s ++ "situation(".toList = (s ++ "situation".toList) ++ '(' :: [] := by simp
  rw [hcut, Java.split_cons hbracket (by decide)]
  simp [List.rdropWhile]

theorem angle_header {s : Text} (hs : NoDelimiter s) :
    ∀ c ∈ s ++ "situation(".toList, Java.oneOf "<>" c = false :=
  header_not_oneOf hs (by decide)

/-! ### BTT -/

/-- A task that fits into a line of a file: no delimiter, and no blank except
    for a configuration that stands for none. -/
structure BttTask.Storable (t : BttTask) : Prop extends t.Proper where
  place_blank : ' ' ∉ t.place
  configuration_blank : ' ' ∉ t.getConfiguration
  object_blank : ' ' ∉ t.object

/-- The document of a list starts with the situation of the first task. -/
theorem exists_bttText_eq (t : BttTask) (L : List BttTask) :
    ∃ z, documentText (bttDocument (t :: L)) = t.situation ++ "situation(".toList ++ '<' :: z := by
  have hne := List.splitBy_ne_nil (r := BttTask.joined).mpr (List.cons_ne_nil t L)
  obtain ⟨S, Ss, hS⟩ := List.exists_cons_of_ne_nil hne
  have hflat := List.flatten_splitBy BttTask.joined (t :: L)
  have hSne : S ≠ [] := fun h =>
    List.nil_notMem_splitBy BttTask.joined (t :: L) (hS ▸ h ▸ List.mem_cons_self)
  obtain ⟨a, x, rfl⟩ := List.exists_cons_of_ne_nil hSne
  rw [hS, List.flatten_cons, List.cons_append] at hflat
  obtain ⟨rfl, -⟩ := List.cons.inj hflat
  have hgroups : (bttSituationOf (a :: x)).groups ≠ [] := by
    simp [bttSituationOf]
  obtain ⟨z, hz⟩ := Situation.exists_text_eq hgroups
  obtain ⟨z', hz'⟩ := exists_documentText_cons (bttSituationOf (a :: x)) (Ss.map bttSituationOf)
  refine ⟨z ++ z', ?_⟩
  unfold bttDocument
  rw [hS, List.map_cons, hz', hz]
  simp [bttSituationOf]

/-- A printed line names no task to the reader. -/
theorem parseBtt_text {L : List BttTask} (hL : ∀ t ∈ L, t.Proper) :
    parseBtt ("BTT<".toList ++ documentText (bttDocument L) ++ ">".toList) = done := by
  cases L with
  | nil => decide
  | cons t L =>
    have ht := hL t List.mem_cons_self
    have hplain := ht.situation_plain
    obtain ⟨z, hz⟩ := exists_bttText_eq t L
    have htext : "BTT<".toList ++ documentText (bttDocument (t :: L)) ++ ">".toList =
        "BTT".toList ++ '<' :: ((t.situation ++ "situation(".toList) ++ '<' :: (z ++ ['>'])) := by
      rw [hz]
      simp
    obtain ⟨pieces, hpieces⟩ := split_message "BTT".toList (z ++ ['>']) (by decide)
      (angle_header hplain) (by simp)
    obtain ⟨hsem, hbracket⟩ := split_header hplain
    unfold parseBtt
    simp only [htext, hpieces, hsem, forEach_cons, forEach_nil, parseBttSituation, hbracket]
    rfl

/-- **BTT save and open.** The text printed for a list of storable tasks is
    accepted, but the loaded list agrees with it only if it is empty. -/
theorem btt_reload_iff (vte : ValidTaskElements) (tS tS' : TaskSpec)
    (hL : ∀ t ∈ tS.bttTaskList, t.Storable) :
    ∃ text tS'', Converges (tS.getTaskSpecString .btt) (.ok text) ∧
      Converges (tS'.parseTaskSpecString vte text) (.ok true, tS'') ∧
      (tS''.bttTaskList.map BttTask.entry = tS.bttTaskList.map BttTask.entry ↔
        tS.bttTaskList = []) := by
  have hproper : ∀ t ∈ tS.bttTaskList, t.Proper := fun t ht => (hL t ht).toProper
  have hblank : ' ' ∉ "BTT<".toList ++ documentText (bttDocument tS.bttTaskList) ++ ">".toList := by
    have hdocument := notMem_documentText (c := ' ') (by decide)
      (bttDocument_fields (P := fun x => ' ' ∉ x) (fun t ht => ⟨by
        rcases (hL t ht).situation with h | h <;> rw [h] <;> decide, (hL t ht).place_blank,
        (hL t ht).configuration_blank, (hL t ht).object_blank⟩))
    simp [hdocument]
  -- the reader replaces the list by what it has found: nothing
  refine ⟨_, { tS' with bttTaskList := [] }, getTaskSpecString_btt tS fun t ht =>
    ⟨(hproper t ht).situation_ne, (hproper t ht).place_ne⟩, ?_, ?_⟩
  · have hname : CompetitionIdentifier.btt.name <+:
        "BTT<".toList ++ documentText (bttDocument tS.bttTaskList) ++ ">".toList :=
      ⟨'<' :: (documentText (bttDocument tS.bttTaskList) ++ ">".toList), rfl⟩
    rw [tS'.parse_of_prefix vte hblank hname]
    unfold TaskSpec.parseBranch
    simp only [parseBtt_text hproper]
    exact converges_map _ (converges_pure _)
  · constructor
    · intro h
      exact List.map_eq_nil_iff.mp h.symm
    · intro h
      rw [h]

theorem btt_reload_line :
    ∃ text tS'', Converges (({ bttTaskList := twoAtOnePlace "line" } : TaskSpec).getTaskSpecString
        .btt) (.ok text) ∧
      Converges (({} : TaskSpec).parseTaskSpecString smallTables text) (.ok true, tS'') ∧
      (tS''.bttTaskList.map BttTask.entry = (twoAtOnePlace "line").map BttTask.entry ↔
        twoAtOnePlace "line" = []) := by
  refine btt_reload_iff smallTables { bttTaskList := twoAtOnePlace "line" } {} ?_
  have hall : ∀ t ∈ twoAtOnePlace "line",
      t.Proper ∧ ' ' ∉ t.place ∧ ' ' ∉ t.getConfiguration ∧ ' ' ∉ t.object := by decide
  intro t ht
  obtain ⟨hproper, hplace, hconfiguration, hobject⟩ := hall t ht
  exact ⟨hproper, hplace, hconfiguration, hobject⟩

/-- One saved task is gone after the file is opened. -/
theorem btt_reload_loses_task :
    (⟨"initial".toList, " ".toList, "S1".toList, "M20".toList, .init⟩ : BttTask).Proper ∧
      Converges (({ bttTaskList := [⟨"initial".toList, " ".toList, "S1".toList, "M20".toList,
        .init⟩] } : TaskSpec).getTaskSpecString .btt)
        (.ok "BTT<initialsituation(<S1,(M20)>)>".toList) ∧
      Converges (({} : TaskSpec).parseTaskSpecString smallTables
        "BTT<initialsituation(<S1,(M20)>)>".toList) (.ok true, {}) := by
  refine ⟨by decide, ?_, ?_⟩
  · have htext := getTaskSpecString_btt { bttTaskList := [⟨"initial".toList, " ".toList,
      "S1".toList, "M20".toList, .init⟩] } (by decide)
    have hprinted : "BTT<".toList ++ documentText (bttDocument [⟨"initial".toList, " ".toList,
        "S1".toList, "M20".toList, .init⟩]) ++ ">".toList =
        "BTT<initialsituation(<S1,(M20)>)>".toList := by decide
    rw [← hprinted]
    exact htext
  · exact converges_pure _

/-! ### CTT -/

/-- The subgoal of a task. -/
def CttTask.entry (t : CttTask) : Entry where
  situation := t.situation
  place := t.place
  configuration := t.getConfiguration
  object := t.object

/-- A task that fits into a line of a file. -/
structure CttTask.Storable (t : CttTask) : Prop extends t.Sendable where
  place_plain : NoDelimiter t.place
  configuration_plain : NoDelimiter t.configuration
  object_plain : NoDelimiter t.object
  place_blank : ' ' ∉ t.place
  configuration_blank : ' ' ∉ t.getConfiguration
  object_blank : ' ' ∉ t.object

/-- A message is empty or starts with the header of a section. -/
theorem cttMessage_eq (team : Team) (L : List CttTask) :
    cttMessage team L = [] ∨ ∃ name z, NoDelimiter name ∧
      cttMessage team L = name ++ "situation(".toList ++ '<' :: z := by
  have hne := List.nil_notMem_splitBy CttTask.joined L
  unfold cttMessage
  -- the induction is on the sections; the first one that adds something starts the message
  generalize L.splitBy CttTask.joined = sections at hne ⊢
  induction sections with
  | nil => exact Or.inl rfl
  | cons S Ss ih =>
    have hS : S ≠ [] := fun h => hne (h ▸ List.mem_cons_self)
    have htext : ∀ initial, ∃ name z, NoDelimiter name ∧
        (cttSituationOf initial S).text = name ++ "situation(".toList ++ '<' :: z := by
      intro initial
      have hgroups : (cttSituationOf initial S).groups ≠ [] :=
        List.map_eq_nil_iff.not.mpr (List.splitBy_ne_nil.mpr hS)
      obtain ⟨z, hz⟩ := Situation.exists_text_eq hgroups
      refine ⟨_, z, ?_, hz⟩
      cases initial with
      | false => exact (by decide : NoDelimiter "goal".toList)
      | true => exact (by decide : NoDelimiter "initial".toList)
    rw [List.flatMap_cons]
    by_cases hpart : cttPart team S = []
    · rw [hpart, List.nil_append]
      exact ih fun h => hne (List.mem_cons_of_mem S h)
    · right
      obtain ⟨initial, tail, hpart⟩ : ∃ initial tail,
          cttPart team S = (cttSituationOf initial S).text ++ tail := by
        unfold cttPart at hpart ⊢
        split
        · exact ⟨true, ";".toList, rfl⟩
        · next h =>
          rw [if_neg h] at hpart
          split
          · exact ⟨false, [], (List.append_nil _).symm⟩
          · next h' => exact absurd (if_neg h') hpart
      obtain ⟨name, z, hname, hz⟩ := htext initial
      refine ⟨name, z ++ tail ++ Ss.flatMap (cttPart team), hname, ?_⟩
      rw [hpart, hz]
      simp only [List.append_assoc, List.cons_append]

/-- The part of a team, split at the angle brackets, has the bare header of the
    first section as second piece, or none. -/
theorem split_team (team : Team) (L : List CttTask) :
    (Java.split (Java.oneOf "<>") ("CTT<".toList ++ cttMessage team L ++ ">".toList))[1]? = none ∨
      ∃ name, NoDelimiter name ∧
        (Java.split (Java.oneOf "<>") ("CTT<".toList ++ cttMessage team L ++ ">".toList))[1]? =
          some (name ++ "situation(".toList) := by
  rcases cttMessage_eq team L with h | ⟨name, z, hname, h⟩
  · left
    rw [h]
    decide
  · right
    have htext : "CTT<".toList ++ cttMessage team L ++ ">".toList =
        "CTT".toList ++ '<' :: ((name ++ "situation(".toList) ++ '<' :: (z ++ ['>'])) := by
      rw [h]
      simp
    obtain ⟨pieces, hpieces⟩ := split_message "CTT".toList (z ++ ['>']) (by decide)
      (angle_header hname) (by simp)
    exact ⟨name, hname, by rw [htext, hpieces]; rfl⟩

/-- A bare header names no task to the reader of a message. -/
theorem parseCttMessage_header {name : Text} (hname : NoDelimiter name) (first : Bool) :
    parseCttMessage first (name ++ "situation(".toList) = done := by
  obtain ⟨hsem, hbracket⟩ := split_header hname
  unfold parseCttMessage
  simp only [hsem, forEach_cons, forEach_nil, parseCttSituation, hbracket,
    List.getElem?_cons_zero, need_some, List.tail_cons, parseGroups, ite_self]
  rfl

/-- A printed line names no task to the reader. -/
theorem parseCtt_text_added {L : List CttTask} (hL : ∀ t ∈ L, t.Sendable) :
    (parseCtt (cttText L)).added = [] := by
  by_cases hne : L = []
  · rw [hne]
    decide
  · unfold parseCtt
    rw [split_cttText hL hne]
    -- without a second piece an exception ends the branch
    rcases split_team .team1 L with h1 | ⟨name1, hname1, h1⟩
    · simp only [h1]
      rfl
    · rcases split_team .team2 L with h2 | ⟨name2, hname2, h2⟩
      · simp only [h1, h2]
        rfl
      · simp only [h1, h2, need_some, parseCttMessage_header hname1, forEach_cons,
          parseCttMessage_header hname2, forEach_nil]
        rfl

/-- **CTT save and open.** After the text printed for a list of storable tasks
    has been read, the loaded list agrees with it only if it is empty; the
    empty list's text is accepted. -/
theorem ctt_reload_iff (vte : ValidTaskElements) (tS tS' : TaskSpec)
    (hL : ∀ t ∈ tS.cttTaskList, t.Storable) :
    ∃ text accepted tS'', Converges (tS.getTaskSpecString .ctt) (.ok text) ∧
      Converges (tS'.parseTaskSpecString vte text) (.ok accepted, tS'') ∧
      (accepted = true ∧ tS''.cttTaskList.map CttTask.entry = tS.cttTaskList.map CttTask.entry ↔
        tS.cttTaskList = []) := by
  have hsend : ∀ t ∈ tS.cttTaskList, t.Sendable := fun t ht => (hL t ht).toSendable
  have hmessage : ∀ team, ' ' ∉ cttMessage team tS.cttTaskList :=
    notMem_cttMessage (by decide) (by decide) (by decide) fun t ht =>
      ⟨(hL t ht).place_blank, (hL t ht).configuration_blank, (hL t ht).object_blank⟩
  have hblank : ' ' ∉ cttText tS.cttTaskList := by
    unfold cttText
    split
    · decide
    · have hliterals : ' ' ∉ "CTT<".toList ∧ ' ' ∉ ">#CTT<".toList ∧ ' ' ∉ ">".toList := by decide
      simp only [List.mem_append, hmessage, hliterals, or_self, not_false_eq_true]
  have hname : CompetitionIdentifier.ctt.name <+: cttText tS.cttTaskList := by
    unfold cttText
    split
    · exact ⟨"<>".toList, rfl⟩
    · exact ⟨'<' :: (cttMessage .team1 tS.cttTaskList ++
        (">#CTT<".toList ++ (cttMessage .team2 tS.cttTaskList ++ ">".toList))), by
          simp only [List.append_assoc]; rfl⟩
  -- whether the line is accepted or not, what it adds is known
  refine ⟨_, !(parseCtt (cttText tS.cttTaskList)).failed,
    { tS' with cttTaskList := (parseCtt (cttText tS.cttTaskList)).added },
    getTaskSpecString_ctt tS fun t ht => ⟨(hsend t ht).situation, (hsend t ht).place_ne⟩, ?_, ?_⟩
  · rw [tS'.parse_of_prefix vte hblank hname]
    exact converges_map _ (converges_pure _)
  · simp only [parseCtt_text_added hsend]
    constructor
    · rintro ⟨_, h⟩
      exact List.map_eq_nil_iff.mp h.symm
    · intro h
      rw [h]
      exact ⟨by decide, rfl⟩

theorem ctt_reload_line :
    ∃ text accepted tS'',
      Converges (({ cttTaskList := goalAtStart "line" } : TaskSpec).getTaskSpecString .ctt)
        (.ok text) ∧
      Converges (({} : TaskSpec).parseTaskSpecString smallTables text) (.ok accepted, tS'') ∧
      (accepted = true ∧
        tS''.cttTaskList.map CttTask.entry = (goalAtStart "line").map CttTask.entry ↔
          goalAtStart "line" = []) := by
  refine ctt_reload_iff smallTables { cttTaskList := goalAtStart "line" } {} ?_
  have hall : ∀ t ∈ goalAtStart "line", t.Sendable ∧
      (NoDelimiter t.place ∧ NoDelimiter t.configuration ∧ NoDelimiter t.object) ∧
      ' ' ∉ t.place ∧ ' ' ∉ t.getConfiguration ∧ ' ' ∉ t.object := by decide
  intro t ht
  obtain ⟨hsend, ⟨h1, h2, h3⟩, h4, h5, h6⟩ := hall t ht
  exact ⟨hsend, h1, h2, h3, h4, h5, h6⟩

/-- An initial task and a goal task for each team. -/
def oneTaskEach : List CttTask :=
  [⟨"initial".toList, " ".toList, "S1".toList, "M20".toList, .init⟩,
    ⟨"team1Goal".toList, "line".toList, "D1".toList, "M20".toList, .init⟩,
    ⟨"team2Goal".toList, "line".toList, "D2".toList, "M20".toList, .init⟩]

/-- Saved tasks are gone after the file is opened. -/
theorem ctt_reload_loses_tasks :
    (∀ t ∈ oneTaskEach, t.Sendable) ∧ CttTask.Sorted oneTaskEach ∧
      Converges (({ cttTaskList := oneTaskEach } : TaskSpec).getTaskSpecString .ctt)
        (.ok ("CTT<initialsituation(<S1,(M20)>);goalsituation(<D1,line(M20)>)>".toList ++
          "#CTT<initialsituation(<S1,(M20)>);goalsituation(<D2,line(M20)>)>".toList)) ∧
      Converges (({} : TaskSpec).parseTaskSpecString smallTables
        ("CTT<initialsituation(<S1,(M20)>);goalsituation(<D1,line(M20)>)>".toList ++
          "#CTT<initialsituation(<S1,(M20)>);goalsituation(<D2,line(M20)>)>".toList))
        (.ok true, {}) := by
  refine ⟨by decide, by decide, ?_, ?_⟩
  · have htext := getTaskSpecString_ctt { cttTaskList := oneTaskEach } (by decide)
    have hprinted : cttText oneTaskEach =
        "CTT<initialsituation(<S1,(M20)>);goalsituation(<D1,line(M20)>)>".toList ++
          "#CTT<initialsituation(<S1,(M20)>);goalsituation(<D2,line(M20)>)>".toList := by decide
    rw [← hprinted]
    exact htext
  · have hparse : parseCtt
        ("CTT<initialsituation(<S1,(M20)>);goalsituation(<D1,line(M20)>)>".toList ++
          "#CTT<initialsituation(<S1,(M20)>);goalsituation(<D2,line(M20)>)>".toList) = done := by
      decide
    rw [TaskSpec.parse_of_prefix smallTables {} (c := .ctt) (by decide) (by decide)]
    unfold TaskSpec.parseBranch
    simp only [hparse]
    exact converges_map _ (converges_pure _)

end RefereeBox
