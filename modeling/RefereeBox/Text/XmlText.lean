import RefereeBox.Lib.Xml
import RefereeBox.Model.Editing
import RefereeBox.Model.XmlEncoder
import RefereeBox.Text.Reload

/-! # The XML Messages

  Which messages are XML documents. With a task in the list, BNT, BMT and BTT
  print the declaration and one root element, in which every element is
  closed. Without a task the root is missing (BNT) or only closed (BMT, BTT),
  and the CTT text is not XML at all.
-/

namespace RefereeBox

open Loop Grouping Xml

/-! ### Documents of a competition -/

/-- The attribute of the root. -/
def rootType (compIdent : CompetitionIdentifier) : Attributes := [("type".toList, compIdent.name)]

/-- The declaration and a root element of the competition's type. -/
def IsXmlMessage (compIdent : CompetitionIdentifier) (message : Text) : Prop :=
  IsDocument xmlDeclaration "competition".toList (rootType compIdent) message

/-- A text that starts with the tag of its root, written in one piece, and ends
    with the end tag. -/
theorem isXmlMessage_of_content {compIdent : CompetitionIdentifier} {tag body : Text}
    (htag : tag = startTag "competition".toList (rootType compIdent)) (hbody : Content body) :
    IsXmlMessage compIdent (xmlDeclaration ++ tag ++ body ++ "</competition>".toList) := by
  refine ⟨body, hbody, ?_⟩
  have hend : "</competition>".toList = endTag "competition".toList := rfl
  rw [htag, hend]
  simp only [element, List.append_assoc]

/-- Nothing is a document that has no root behind the declaration. -/
theorem not_isXmlMessage {compIdent : CompetitionIdentifier} {s : Text}
    (hs : ¬ "<competition".toList <+: s) : ¬ IsXmlMessage compIdent (xmlDeclaration ++ s) := by
  intro h
  obtain ⟨rest, hrest⟩ := h.head
  exact hs ⟨rest, by rw [hrest]; rfl⟩

/-! ### Areas -/

theorem plain_printed {s : Option Text} (hs : ∀ x ∈ s, Plain x) : Plain (printed s) := by
  cases s with
  | none => exact (by decide : Plain "null".toList)
  | some x => exact hs x rfl

theorem isName_area : isName "area".toList = true := by decide

theorem content_objectsText {objects : List Text} (hobjects : ∀ o ∈ objects, Plain o) :
    Content (objectsText objects) := by
  apply Content.flatMap
  intro o ho
  have h : Content (element "object".toList [] o) :=
    .of_element (by decide) ⟨by simp, by simp, by simp⟩ (.of_plain (hobjects o ho))
  simpa [element, startTag, endTag] using h

/-- The texts of an area are plain. -/
structure PlainArea (a : XmlArea) : Prop where
  key : Plain a.key
  label : Plain a.label
  items : ∀ o ∈ a.items, Plain o

/-- An area is an element with two attributes. -/
theorem areaText_eq (type : Text) (a : XmlArea) :
    areaText type a = element "area".toList
      [("type".toList, type), ("configuration".toList, a.label)] (a.key ++ objectsText a.items) := by
  have hattrs : [("type".toList, type), ("configuration".toList, a.label)].flatMap attributeText =
      " type=\"".toList ++ (type ++ ("\" configuration=\"".toList ++ (a.label ++ "\"".toList))) := by
    show attributeText _ ++ (attributeText _ ++ []) = _
    unfold attributeText
    rw [List.append_nil]
    simp only [List.append_assoc]
    rfl
  unfold areaText element startTag endTag
  rw [hattrs]
  simp only [List.append_assoc]
  rfl

theorem content_areaText {type : Text} (htype : Plain type) {a : XmlArea} (ha : PlainArea a) :
    Content (areaText type a) := by
  have hattrs : Attributes.WellFormed
      [("type".toList, type), ("configuration".toList, a.label)] := by
    refine ⟨?_, ?_, ?_⟩
    · simp only [List.forall_mem_cons]
      exact ⟨by decide, by decide, fun _ h => absurd h List.not_mem_nil⟩
    · simp only [List.forall_mem_cons]
      exact ⟨htype, ha.label, fun _ h => absurd h List.not_mem_nil⟩
    · show ["type".toList, "configuration".toList].Nodup
      decide
  rw [areaText_eq]
  exact .of_element isName_area hattrs
    ((Content.of_plain ha.key).append (content_objectsText ha.items))

/-- The areas of records with plain fields are plain. -/
theorem plainArea_of_mem_collect {α : Type} {key label item : α → Text} {L : List α}
    (hL : ∀ a ∈ L, Plain (key a) ∧ Plain (label a) ∧ Plain (item a)) :
    ∀ g ∈ collect key label item L, PlainArea g := by
  intro g hg
  obtain ⟨a, ha, hk, hl⟩ := exists_of_mem_collect key label item hg
  refine ⟨hk ▸ (hL a ha).1, hl ▸ (hL a ha).2.1, ?_⟩
  intro o ho
  obtain ⟨b, hb, rfl⟩ := exists_item_of_mem_collect key label item hg ho
  exact (hL b hb).2.2

/-! ### Messages of the competitions -/

/-- An element with a text in it. -/
theorem content_placeText {attrs : Attributes} (hattrs : attrs.WellFormed) {place : Text}
    (hplace : Plain place) : Content (element "area".toList attrs place) :=
  .of_element isName_area hattrs (.of_plain hplace)

theorem wellFormed_type {type : Text} (htype : Plain type) :
    Attributes.WellFormed [("type".toList, type)] := by
  refine ⟨?_, ?_, List.nodup_singleton _⟩
  · simp only [List.forall_mem_cons]
    exact ⟨by decide, fun _ h => absurd h List.not_mem_nil⟩
  · simp only [List.forall_mem_cons]
    exact ⟨htype, fun _ h => absurd h List.not_mem_nil⟩

/-- An area without a configuration, written with its tag in one piece. -/
theorem content_typed {tag place : Text} (type : Text)
    (htag : tag = startTag "area".toList [("type".toList, type)]) (htype : Plain type)
    (hplace : Plain place) : Content (tag ++ place ++ "</area>".toList) := by
  rw [htag]
  exact content_placeText (wellFormed_type htype) hplace

/-- The fields that the XML text of a competition prints, without the characters
    that XML reserves; the shared places of BMT are set. What CTT prints must
    let its loops end. -/
def TaskSpec.XmlReady (tS : TaskSpec) : CompetitionIdentifier → Prop
  | .bnt => ∀ t ∈ tS.bntTaskList, (∃ x, t.place = some x ∧ Plain x) ∧
      (∀ x ∈ t.orientation, Plain x) ∧ ∀ x ∈ t.pause, Plain x
  | .bmt => tS.bmtTaskList ≠ [] → (∃ x, tS.bmtStatics.placeInitial = some x ∧ Plain x) ∧
      (∃ x, tS.bmtStatics.placeSource = some x ∧ Plain x) ∧
      (∃ x, tS.bmtStatics.placeDestination = some x ∧ Plain x) ∧
      (∃ x, tS.bmtStatics.placeFinal = some x ∧ Plain x) ∧
      (∀ x ∈ tS.bmtStatics.configuration, Plain x) ∧ ∀ t ∈ tS.bmtTaskList, Plain t.object
  | .btt => ∀ t ∈ tS.bttTaskList, Plain t.place ∧ Plain t.getConfiguration ∧ Plain t.object
  | .ctt => ∀ t ∈ tS.cttTaskList, t.situation ∈ cttSituations ∧ t.place ≠ []
  | _ => True

/-- The element that is printed for a BNT task. -/
def bntElement (t : BntTask) : Text :=
  element "area".toList [("type".toList, "Source".toList),
    ("orientation".toList, printed t.orientation), ("pause".toList, printed t.pause)]
    (printed t.place)

theorem bntAreaText_eq {t : BntTask} {place : Text} (hplace : t.place = some place) :
    bntAreaText t = .ok (bntElement t) := by
  have hattrs : [("type".toList, "Source".toList), ("orientation".toList, printed t.orientation),
      ("pause".toList, printed t.pause)].flatMap attributeText =
      " type=\"Source\" orientation=\"".toList ++ (printed t.orientation ++ ("\" pause=\"".toList ++
        (printed t.pause ++ "\"".toList))) := by
    show attributeText _ ++ (attributeText _ ++ (attributeText _ ++ [])) = _
    unfold attributeText
    rw [List.append_nil]
    simp only [List.append_assoc]
    rfl
  unfold bntAreaText bntElement element startTag endTag
  rw [hattrs, hplace]
  show Except.ok _ = Except.ok _
  congr 1
  simp only [List.append_assoc]
  rfl

theorem content_bntElement {t : BntTask} {place : Text} (hplace : t.place = some place)
    (hplain : Plain place) (horientation : ∀ x ∈ t.orientation, Plain x)
    (hpause : ∀ x ∈ t.pause, Plain x) : Content (bntElement t) := by
  have hattrs : Attributes.WellFormed [("type".toList, "Source".toList),
      ("orientation".toList, printed t.orientation), ("pause".toList, printed t.pause)] := by
    refine ⟨?_, ?_, ?_⟩
    · simp only [List.forall_mem_cons]
      exact ⟨by decide, by decide, by decide, fun _ h => absurd h List.not_mem_nil⟩
    · simp only [List.forall_mem_cons]
      exact ⟨by decide, plain_printed horientation, plain_printed hpause,
        fun _ h => absurd h List.not_mem_nil⟩
    · show ["type".toList, "orientation".toList, "pause".toList].Nodup
      decide
  refine content_placeText hattrs ?_
  rw [hplace]
  exact hplain

theorem mapM_ok {α β : Type} {f : α → Except Exn β} {g : α → β} {l : List α}
    (hf : ∀ a ∈ l, f a = .ok (g a)) : l.mapM f = .ok (l.map g) := by
  induction l with
  | nil => rfl
  | cons a l ih =>
    rw [List.mapM_cons, hf a List.mem_cons_self, ih fun b hb => hf b (List.mem_cons_of_mem a hb)]
    rfl

theorem bntXml_message {l : List BntTask} (hne : l ≠ [])
    (hl : ∀ t ∈ l, (∃ x, t.place = some x ∧ Plain x) ∧ (∀ x ∈ t.orientation, Plain x) ∧
      ∀ x ∈ t.pause, Plain x) :
    ∃ text, bntXml xmlDeclaration l = .ok text ∧ IsXmlMessage .bnt text := by
  have hareas : l.mapM bntAreaText = .ok (l.map bntElement) := by
    apply mapM_ok
    intro t ht
    obtain ⟨⟨place, hplace, -⟩, -⟩ := hl t ht
    exact bntAreaText_eq hplace
  have hbody : Content (l.map bntElement).flatten := by
    rw [← List.flatMap_def]
    apply Content.flatMap
    intro t ht
    obtain ⟨⟨place, hplace, hplain⟩, horientation, hpause⟩ := hl t ht
    exact content_bntElement hplace hplain horientation hpause
  obtain ⟨t, l, rfl⟩ := List.exists_cons_of_ne_nil hne
  unfold bntXml
  rw [hareas]
  refine ⟨_, rfl, ?_⟩
  exact isXmlMessage_of_content rfl hbody

theorem bmtXml_message {statics : BmtStatics} {l : List BmtTask} (hne : l ≠ [])
    (hinitial : ∃ x, statics.placeInitial = some x ∧ Plain x)
    (hsource : ∃ x, statics.placeSource = some x ∧ Plain x)
    (hdestination : ∃ x, statics.placeDestination = some x ∧ Plain x)
    (hfinal : ∃ x, statics.placeFinal = some x ∧ Plain x)
    (hconfiguration : ∀ x ∈ statics.configuration, Plain x) (hl : ∀ t ∈ l, Plain t.object) :
    ∃ text, bmtXml xmlDeclaration statics l = .ok text ∧ IsXmlMessage .bmt text := by
  obtain ⟨placeInitial, hsetInitial, hinitial⟩ := hinitial
  obtain ⟨placeSource, hsetSource, hsource⟩ := hsource
  obtain ⟨placeDestination, hsetDestination, hdestination⟩ := hdestination
  obtain ⟨placeFinal, hsetFinal, hfinal⟩ := hfinal
  -- source and destination have the same objects
  have hareas : ∀ {place : Text}, Plain place → ∀ {type : Text}, Plain type →
      Content ((collect (fun _ => place) (fun _ => printed statics.configuration) BmtTask.object
        l).flatMap (areaText type)) := by
    intro place hplace type htype
    apply Content.flatMap
    intro a ha
    exact content_areaText htype (plainArea_of_mem_collect
      (fun t ht => ⟨hplace, plain_printed hconfiguration, hl t ht⟩) a ha)
  obtain ⟨t, l, rfl⟩ := List.exists_cons_of_ne_nil hne
  have hdocument : bmtDocument statics (t :: l) = .ok {
      placeInitial := placeInitial
      areas := collect (fun _ => placeSource) (fun _ => printed statics.configuration)
        BmtTask.object (t :: l)
      areasDes := collect (fun _ => placeDestination) (fun _ => printed statics.configuration)
        BmtTask.object (t :: l)
      placeFinal := placeFinal } := by
    unfold bmtDocument
    rw [hsetSource, hsetDestination, hsetInitial, hsetFinal]
    rfl
  have hfirst : Content ("<area type=\"Initial\">".toList ++ placeInitial ++ "</area>".toList) :=
    content_typed "Initial".toList rfl (by decide) hinitial
  have hlast : Content ("<area type=\"Final\">".toList ++ placeFinal ++ "</area>".toList) :=
    content_typed "Final".toList rfl (by decide) hfinal
  have hbody := ((hfirst.append (hareas hsource (by decide : Plain "Source".toList))).append
    (hareas hdestination (by decide : Plain "Destination".toList))).append hlast
  unfold bmtXml
  rw [hdocument]
  refine ⟨_, rfl, ?_⟩
  refine isXmlMessage_of_content rfl ?_
  unfold BmtDocument.text
  simp only [List.append_assoc] at hbody ⊢
  exact hbody

theorem bttXml_message {l : List BttTask} (hne : l ≠ [])
    (hl : ∀ t ∈ l, Plain t.place ∧ Plain t.getConfiguration ∧ Plain t.object) :
    IsXmlMessage .btt (bttXml xmlDeclaration l) := by
  -- the areas of both parts are made of tasks of the list
  have hareas : ∀ {l' : List BttTask}, (∀ t ∈ l', t ∈ l) → ∀ {type : Text}, Plain type →
      Content ((bttAreas l').flatMap (areaText type)) := by
    intro l' hl' type htype
    apply Content.flatMap
    intro a ha
    exact content_areaText htype (plainArea_of_mem_collect (fun t ht => hl t (hl' t ht)) a ha)
  obtain ⟨btt, itBtt, rfl⟩ := List.exists_cons_of_ne_nil hne
  have hsource : ∀ startSit, ∀ t ∈ bttSource startSit (btt :: itBtt), t ∈ btt :: itBtt :=
    fun _ _ ht => List.mem_of_mem_filter ht
  have hdestination : ∀ startSit endSit, ∀ t ∈ bttDestination startSit endSit (btt :: itBtt),
      t ∈ btt :: itBtt := fun _ _ _ ht => List.mem_of_mem_filter ht
  have hbody := (hareas (hsource btt.situation) (by decide : Plain "Source".toList)).append
    (hareas (hdestination btt.situation
      ((btt :: itBtt).getLast (List.cons_ne_nil btt itBtt)).situation)
      (by decide : Plain "Destination".toList))
  have htag : "<competition type=\"BTT\">".toList =
      startTag "competition".toList (rootType .btt) := rfl
  have h := isXmlMessage_of_content htag hbody
  unfold bttXml
  dsimp only
  rw [List.append_assoc _ (List.flatMap _ _) (List.flatMap _ _)]
  exact h

/-! ### The messages that are sent -/

/-- Outside of CTT the whole text is one message. -/
theorem sentMessages_of_ne {compIdent : CompetitionIdentifier} (hne : compIdent ≠ .ctt)
    (taskSpec : Text) : sentMessages compIdent taskSpec = [taskSpec] := by
  unfold sentMessages MainController.parts
  simp only [if_neg hne]
  rfl

/-- In CTT the first message starts with the declaration, too, and what stands
    behind it is the start of what stands behind it in the text. -/
theorem exists_first_message (s : Text) :
    ∃ z ∈ sentMessages .ctt (xmlDeclaration ++ s), ∃ x, z = xmlDeclaration ++ x ∧ x <+: s := by
  have hpieces : ∃ x rest, Java.split (Java.oneOf "#") (xmlDeclaration ++ s) =
      (xmlDeclaration ++ x) :: rest ∧ x <+: s := by
    have hnone : ∀ {x : Text}, '#' ∉ x → ∀ c ∈ xmlDeclaration ++ x, Java.oneOf "#" c = false := by
      intro x hx
      have hdeclaration : '#' ∉ xmlDeclaration := by decide
      apply Java.not_oneOf_of_notMem
      simp [hdeclaration, hx]
    -- the declaration has no separator, so the first piece ends in `s`
    by_cases hs : '#' ∈ s
    · obtain ⟨x, y, rfl, hx⟩ := List.eq_append_cons_of_mem hs
      have hplain := hnone hx
      refine ⟨x, (y.splitOnP (Java.oneOf "#")).rdropWhile List.isEmpty, ?_, List.prefix_append x _⟩
      rw [← List.append_assoc, Java.split_cons hplain (by decide)]
      exact Java.rdropWhile_append_cons [] _ rfl
    · exact ⟨s, [], Java.split_of_no_delim (hnone hs), List.prefix_rfl⟩
  obtain ⟨x, rest, hsplit, hx⟩ := hpieces
  refine ⟨xmlDeclaration ++ x, ?_, x, rfl, hx⟩
  unfold sentMessages MainController.parts
  simp [hsplit]

/-- The CTT text starts, behind the declaration, with the name of a section
    or with the bracket that ends the message of team 1. -/
theorem not_prefix_ctt {L : List CttTask} (y : Text) :
    ¬ "<competition".toList <+: cttMessage .team1 L ++ '>' :: y := by
  rintro ⟨z, hz⟩
  rcases cttMessage_eq .team1 L with h | ⟨name, w, hname, h⟩
  · rw [h] at hz
    exact absurd hz (by simp)
  · rw [h] at hz
    cases name with
    | nil => exact absurd hz (by simp)
    | cons c name =>
      have hc := hname c List.mem_cons_self
      have : c = '<' := by simpa using (congrArg List.head? hz).symm
      rw [this] at hc
      exact absurd hc (by decide)

/-- A text without its root is not sent as a document. -/
theorem not_all_xmlMessages {compIdent : CompetitionIdentifier} (hne : compIdent ≠ .ctt) {s : Text}
    (hs : ¬ "<competition".toList <+: s) :
    ¬ ∀ m ∈ sentMessages compIdent (xmlDeclaration ++ s), IsXmlMessage compIdent m := by
  intro h
  rw [sentMessages_of_ne hne] at h
  exact not_isXmlMessage hs (h _ List.mem_cons_self)

theorem not_all_xmlMessages_ctt {s : Text} (hs : ¬ "<competition".toList <+: s) :
    ¬ ∀ m ∈ sentMessages .ctt (xmlDeclaration ++ s), IsXmlMessage .ctt m := by
  intro h
  obtain ⟨z, hz, x, rfl, hx⟩ := exists_first_message s
  exact not_isXmlMessage (fun hpre => hs (hpre.trans hx)) (h _ hz)

/-- An empty list of another competition is not sent as a document either. -/
theorem all_xmlMessages_iff_of_empty {tS : TaskSpec} {c : CompetitionIdentifier} {s : Text}
    (hne : c ≠ .ctt) (hs : ¬ "<competition".toList <+: s) (htasks : tS.tasks c = []) :
    (∀ m ∈ sentMessages c (xmlDeclaration ++ s), IsXmlMessage c m) ↔
      c ≠ .ctt ∧ tS.tasks c ≠ [] :=
  iff_of_false (not_all_xmlMessages hne hs) fun h => h.2 htasks

/-- Outside of CTT one message is sent, and that is the text. -/
theorem all_xmlMessages_iff_of_message {tS : TaskSpec} {c : CompetitionIdentifier} {text : Text}
    (hne : c ≠ .ctt) (hmessage : IsXmlMessage c text) (htasks : tS.tasks c ≠ []) :
    (∀ m ∈ sentMessages c text, IsXmlMessage c m) ↔ c ≠ .ctt ∧ tS.tasks c ≠ [] := by
  refine iff_of_true (fun m hm => ?_) ⟨hne, htasks⟩
  rw [sentMessages_of_ne hne, List.mem_singleton] at hm
  rwa [hm]

/-- **Well-formed messages.** Every message that is sent of the XML text of a
    BNT, BMT, BTT or CTT list is a document of that type exactly when the
    competition is not CTT and the list is not empty. -/
theorem xml_well_formed_iff (tS : TaskSpec) {c : CompetitionIdentifier}
    (hc : c = .bnt ∨ c = .bmt ∨ c = .btt ∨ c = .ctt) (hready : tS.XmlReady c) :
    ∃ text, Converges (tS.getTaskSpecXml c) (.ok text) ∧
      ((∀ m ∈ sentMessages c text, IsXmlMessage c m) ↔ c ≠ .ctt ∧ tS.tasks c ≠ []) := by
  rcases hc with rfl | rfl | rfl | rfl
  · by_cases hlist : tS.bntTaskList = []
    · refine ⟨xmlDeclaration ++ [], ?_, all_xmlMessages_iff_of_empty (by decide) (by decide)
        (by simp [TaskSpec.tasks, hlist])⟩
      unfold TaskSpec.getTaskSpecXml
      simp only [hlist]
      exact converges_pure _
    · obtain ⟨text, htext, hmessage⟩ := bntXml_message hlist hready
      refine ⟨text, ?_, all_xmlMessages_iff_of_message (by decide) hmessage
        (by simp [TaskSpec.tasks, hlist])⟩
      unfold TaskSpec.getTaskSpecXml
      simp only [htext]
      exact converges_pure _
  · by_cases hlist : tS.bmtTaskList = []
    · -- the end tag stands alone
      refine ⟨xmlDeclaration ++ "</competition>".toList, ?_, all_xmlMessages_iff_of_empty (by decide)
        (by decide) (by simp [TaskSpec.tasks, hlist])⟩
      unfold TaskSpec.getTaskSpecXml
      simp only [hlist]
      exact converges_pure _
    · obtain ⟨h1, h2, h3, h4, h5, h6⟩ := hready hlist
      obtain ⟨text, htext, hmessage⟩ := bmtXml_message hlist h1 h2 h3 h4 h5 h6
      refine ⟨text, ?_, all_xmlMessages_iff_of_message (by decide) hmessage
        (by simp [TaskSpec.tasks, hlist])⟩
      unfold TaskSpec.getTaskSpecXml
      simp only [htext]
      exact converges_pure _
  · by_cases hlist : tS.bttTaskList = []
    · refine ⟨xmlDeclaration ++ "</competition>".toList, ?_, all_xmlMessages_iff_of_empty (by decide)
        (by decide) (by simp [TaskSpec.tasks, hlist])⟩
      unfold TaskSpec.getTaskSpecXml
      simp only [hlist]
      exact converges_pure _
    · exact ⟨_, converges_pure _, all_xmlMessages_iff_of_message (by decide)
        (bttXml_message hlist hready) (by simp [TaskSpec.tasks, hlist])⟩
  · have hnot : ¬ (CompetitionIdentifier.ctt ≠ .ctt ∧ tS.tasks .ctt ≠ []) := fun h => h.1 rfl
    by_cases hlist : tS.cttTaskList = []
    · refine ⟨xmlDeclaration ++ [], ?_, iff_of_false (not_all_xmlMessages_ctt (by decide)) hnot⟩
      unfold TaskSpec.getTaskSpecXml
      simp only [hlist]
      exact converges_map _ (converges_pure _)
    · have hprint := converges_map (fun s => (Except.ok s : Except Exn Text))
        (cttString_converges hready hlist xmlDeclaration)
      -- behind the declaration stands the message of team 1
      have htext : xmlDeclaration ++ cttMessage .team1 tS.cttTaskList ++ ">#CTT<".toList ++
          cttMessage .team2 tS.cttTaskList = xmlDeclaration ++ (cttMessage .team1 tS.cttTaskList ++
            '>' :: ("#CTT<".toList ++ cttMessage .team2 tS.cttTaskList)) := by
        simp only [List.append_assoc]
        rfl
      rw [htext] at hprint
      exact ⟨_, hprint, iff_of_false (not_all_xmlMessages_ctt (not_prefix_ctt _)) hnot⟩

theorem xml_well_formed_transport :
    ∃ text, Converges (({ bttTaskList := twoAtOnePlace "line" } : TaskSpec).getTaskSpecXml .btt)
        (.ok text) ∧
      ((∀ m ∈ sentMessages .btt text, IsXmlMessage .btt m) ↔
        CompetitionIdentifier.btt ≠ .ctt ∧
          ({ bttTaskList := twoAtOnePlace "line" } : TaskSpec).tasks .btt ≠ []) := by
  refine xml_well_formed_iff { bttTaskList := twoAtOnePlace "line" } (by decide) ?_
  show ∀ t ∈ twoAtOnePlace "line", Plain t.place ∧ Plain t.getConfiguration ∧ Plain t.object
  decide

/-- Without a task, BMT sends an end tag alone; in CTT what is sent to team 1
    is not XML. -/
theorem xml_unbalanced :
    (Converges (({} : TaskSpec).getTaskSpecXml .bmt) (.ok (xmlDeclaration ++ "</competition>".toList)) ∧
      ¬ ∀ m ∈ sentMessages .bmt (xmlDeclaration ++ "</competition>".toList), IsXmlMessage .bmt m) ∧
    (Converges (({ cttTaskList := [⟨"initial".toList, " ".toList, "S1".toList, "M20".toList, .init⟩] } :
        TaskSpec).getTaskSpecXml .ctt)
        (.ok (xmlDeclaration ++
          "initialsituation(<S1,(M20)>);>#CTT<initialsituation(<S1,(M20)>);".toList)) ∧
      ¬ ∀ m ∈ sentMessages .ctt (xmlDeclaration ++
          "initialsituation(<S1,(M20)>);>#CTT<initialsituation(<S1,(M20)>);".toList),
        IsXmlMessage .ctt m) := by
  refine ⟨⟨converges_pure _, not_all_xmlMessages (by decide) (by decide)⟩, ?_,
    not_all_xmlMessages_ctt (by decide)⟩
  have hprint := converges_map (fun s => (Except.ok s : Except Exn Text))
    (cttString_converges
      (L := [⟨"initial".toList, " ".toList, "S1".toList, "M20".toList, .init⟩])
      (by decide) (List.cons_ne_nil _ _) xmlDeclaration)
  exact hprint

end RefereeBox
