import RefereeBox.Lib.Xml
import RefereeBox.Model.XmlEncoder
import RefereeBox.Text.BttText

/-! # The Two BTT Messages

  The XML message lists a BTT list in areas, those of the first task's
  situation as sources and those of the last task's as destinations. An area
  holds all objects at its place, under the configuration of the first one.
  So it says the same as the standard message exactly when there is an
  initial task and the tasks of one situation at one place agree in their
  configuration.
-/

namespace RefereeBox

open Loop ControlBreak Grouping Xml

/-! ### Reading the areas -/

/-- The objects in front of the end tag of the area. -/
def readObjects (pieces : List (Text × Text)) : List Text :=
  ((pieces.takeWhile fun p => p.1 ≠ "/area".toList).filter fun p => p.1 = "object".toList).map
    Prod.snd

/-- The value of the first attribute of a tag. -/
def firstValue (tag : Text) : Text := (cutAt '"' (cutAt '"' tag).2).1

/-- The value of the second attribute of a tag, which is the last one. -/
def lastValue (tag : Text) : Text :=
  (cutAt '"' (cutAt '"' (cutAt '"' tag).2).2).2.dropLast

/-- The areas with their types: the place stands behind the tag, the objects
    behind that. -/
def readAreas : List (Text × Text) → List (Text × XmlArea)
  | [] => []
  | (tag, text) :: pieces =>
    if "area ".toList.isPrefixOf tag then
      (firstValue tag, ⟨text, lastValue tag, readObjects pieces⟩) :: readAreas pieces
    else readAreas pieces

/-- The subgoals of an area: sources are the initial situation, destinations
    the goal situation. -/
def areaEntries (area : Text × XmlArea) : List Entry :=
  area.2.entries.map fun e =>
    ⟨if area.1 = "Source".toList then "initial".toList else "goal".toList, e.1, e.2.1, e.2.2⟩

/-- Read an XML message. -/
def xmlEntries (message : Text) : List Entry := (readAreas (markup message)).flatMap areaEntries

/-! ### The tags of a message -/

/-- The tag of an area, without its brackets. -/
def areaTag (type configuration : Text) : Text :=
  "area type=\"".toList ++ type ++ "\" configuration=\"".toList ++ configuration ++ "\"".toList

/-- The tags of an area, with the texts behind them. -/
def areaPieces (type : Text) (a : XmlArea) : List (Text × Text) :=
  (areaTag type a.label, a.key) ::
    (a.items.flatMap fun object => [("object".toList, object), ("/object".toList, [])]) ++
    [("/area".toList, [])]

/-- The tags of an XML message. -/
def bttPieces (areas areasDes : List XmlArea) : List (Text × Text) :=
  [("?xml version=\"1.0\"?".toList, []), ("competition type=\"BTT\"".toList, [])] ++
    (areas.flatMap (areaPieces "Source".toList) ++
      areasDes.flatMap (areaPieces "Destination".toList)) ++
    [("/competition".toList, [])]

theorem objectsText_eq (objects : List Text) :
    objectsText objects = (objects.flatMap fun object =>
      [("object".toList, object), ("/object".toList, [])]).flatMap tagText := by
  induction objects with
  | nil => rfl
  | cons o os ih =>
    have hobject : "<object>".toList ++ o ++ "</object>".toList =
        tagText ("object".toList, o) ++ tagText ("/object".toList, []) := by
      simp [tagText]
    unfold objectsText at ih ⊢
    rw [List.flatMap_cons, ih, hobject]
    simp

theorem areaText_eq_pieces (type : Text) (a : XmlArea) :
    areaText type a = (areaPieces type a).flatMap tagText := by
  have htag : "<area type=\"".toList ++ type ++ "\" ".toList ++ "configuration=\"".toList ++ a.label ++
      "\">".toList ++ a.key = tagText (areaTag type a.label, a.key) := by
    unfold tagText areaTag
    simp only [List.append_assoc]
    rfl
  have hend : "</area>".toList = [("/area".toList, [])].flatMap tagText := rfl
  unfold areaText areaPieces
  rw [htag, objectsText_eq, List.flatMap_append, List.flatMap_cons, hend]

/-- **The XML message as a list of tags.** -/
theorem bttXml_eq_pieces (btt : BttTask) (l : List BttTask) (startSit endSit : Text)
    (hstart : startSit = btt.situation)
    (hend : endSit = ((btt :: l).getLast (List.cons_ne_nil btt l)).situation) :
    bttXml xmlDeclaration (btt :: l) =
      (bttPieces (bttAreas (bttSource startSit (btt :: l)))
        (bttAreas (bttDestination startSit endSit (btt :: l)))).flatMap tagText := by
  have hareas : ∀ (type : Text) (areas : List XmlArea),
      (areas.flatMap (areaPieces type)).flatMap tagText = areas.flatMap (areaText type) := by
    intro type areas
    rw [List.flatMap_assoc]
    exact List.flatMap_congr fun a _ => (areaText_eq_pieces type a).symm
  unfold bttPieces
  rw [List.flatMap_append, List.flatMap_append, List.flatMap_append, hareas, hareas, hstart, hend]
  unfold bttXml
  simp only [List.append_assoc]
  rfl

/-! ### Reading a message back -/

/-- An area whose texts do not break the tags. -/
structure ReadableArea (a : XmlArea) : Prop where
  key : '<' ∉ a.key
  label : '<' ∉ a.label ∧ '>' ∉ a.label
  items : ∀ o ∈ a.items, '<' ∉ o

/-- The types of areas. -/
def IsAreaType (type : Text) : Prop := type = "Source".toList ∨ type = "Destination".toList

theorem IsAreaType.notMem {type : Text} (h : IsAreaType type) :
    '<' ∉ type ∧ '>' ∉ type ∧ '"' ∉ type := by
  rcases h with rfl | rfl <;> decide

theorem notMem_areaTag {c : Char} (hc : c = '<' ∨ c = '>') {type configuration : Text}
    (htype : c ∉ type) (hconfiguration : c ∉ configuration) : c ∉ areaTag type configuration := by
  have hfixed : c ∉ "area type=\"".toList ∧ c ∉ "\" configuration=\"".toList ∧ c ∉ "\"".toList := by
    rcases hc with rfl | rfl <;> decide
  intro hmem
  unfold areaTag at hmem
  rcases List.mem_append.mp hmem with hmem | hmem
  · rcases List.mem_append.mp hmem with hmem | hmem
    · rcases List.mem_append.mp hmem with hmem | hmem
      · rcases List.mem_append.mp hmem with hmem | hmem
        · exact hfixed.1 hmem
        · exact htype hmem
      · exact hfixed.2.1 hmem
    · exact hconfiguration hmem
  · exact hfixed.2.2 hmem

/-- The tags of an area are read back as they are. -/
theorem readable_areaPieces {type : Text} (htype : IsAreaType type) {a : XmlArea}
    (ha : ReadableArea a) : ∀ p ∈ areaPieces type a, '<' ∉ p.1 ∧ '>' ∉ p.1 ∧ '<' ∉ p.2 := by
  obtain ⟨h1, h2, -⟩ := htype.notMem
  have hobject : '<' ∉ "object".toList ∧ '>' ∉ "object".toList := by decide
  have hobjectEnd : '<' ∉ "/object".toList ∧ '>' ∉ "/object".toList := by decide
  have hareaEnd : '<' ∉ "/area".toList ∧ '>' ∉ "/area".toList := by decide
  intro p hp
  unfold areaPieces at hp
  rcases List.mem_append.mp hp with hp | hp
  · rcases List.mem_cons.mp hp with rfl | hp
    · exact ⟨notMem_areaTag (Or.inl rfl) h1 ha.label.1, notMem_areaTag (Or.inr rfl) h2 ha.label.2,
        ha.key⟩
    · obtain ⟨o, ho, hp⟩ := List.mem_flatMap.mp hp
      rcases List.mem_pair.mp hp with rfl | rfl
      · exact ⟨hobject.1, hobject.2, ha.items o ho⟩
      · exact ⟨hobjectEnd.1, hobjectEnd.2, List.not_mem_nil⟩
  · rw [List.mem_singleton.mp hp]
    exact ⟨hareaEnd.1, hareaEnd.2, List.not_mem_nil⟩

theorem areaTag_eq (type configuration : Text) :
    areaTag type configuration = "area type=".toList ++ '"' ::
      (type ++ '"' :: (" configuration=".toList ++ '"' :: (configuration ++ ['"']))) := by
  unfold areaTag
  simp only [List.append_assoc]
  rfl

/-- The values in the tag of an area are read back. A quotation mark in the
    configuration does no harm, since the configuration comes last. -/
theorem firstValue_areaTag {type : Text} (htype : '"' ∉ type) (configuration : Text) :
    firstValue (areaTag type configuration) = type := by
  have hname : '"' ∉ "area type=".toList := by decide
  rw [firstValue, areaTag_eq, cutAt_append hname, cutAt_append htype]

theorem lastValue_areaTag {type : Text} (htype : '"' ∉ type) (configuration : Text) :
    lastValue (areaTag type configuration) = configuration := by
  have hname : '"' ∉ "area type=".toList := by decide
  have hconfiguration : '"' ∉ " configuration=".toList := by decide
  rw [lastValue, areaTag_eq, cutAt_append hname, cutAt_append htype, cutAt_append hconfiguration]
  exact List.dropLast_concat

/-- The objects of an area end at its end tag. -/
theorem readObjects_areaPieces (objects : List Text) (pieces : List (Text × Text)) :
    readObjects ((objects.flatMap fun object =>
      [("object".toList, object), ("/object".toList, [])]) ++ ("/area".toList, []) :: pieces) =
      objects := by
  induction objects with
  | nil => rfl
  | cons o os ih =>
    conv_rhs => rw [← ih]
    rfl

/-- No area starts within another one. -/
theorem readAreas_objects (objects : List Text) (pieces : List (Text × Text)) :
    readAreas ((objects.flatMap fun object =>
      [("object".toList, object), ("/object".toList, [])]) ++ ("/area".toList, []) :: pieces) =
      readAreas pieces := by
  induction objects with
  | nil => rfl
  | cons o os ih =>
    rw [← ih]
    rfl

/-- Reading an area: its attributes, its place and its objects. -/
theorem readAreas_areaPieces {type : Text} (htype : IsAreaType type) (a : XmlArea)
    (pieces : List (Text × Text)) :
    readAreas (areaPieces type a ++ pieces) = (type, a) :: readAreas pieces := by
  have htag : "area ".toList.isPrefixOf (areaTag type a.label) = true := by
    rw [areaTag_eq]
    rfl
  have hcut : areaPieces type a ++ pieces = (areaTag type a.label, a.key) ::
      ((a.items.flatMap fun object => [("object".toList, object), ("/object".toList, [])]) ++
        ("/area".toList, []) :: pieces) := by
    unfold areaPieces
    rw [List.append_assoc]
    rfl
  rw [hcut, readAreas, if_pos htag, firstValue_areaTag htype.notMem.2.2,
    lastValue_areaTag htype.notMem.2.2, readObjects_areaPieces, readAreas_objects]

/-- Reading the areas of one type. -/
theorem readAreas_flatMap {type : Text} (htype : IsAreaType type) (areas : List XmlArea)
    (pieces : List (Text × Text)) :
    readAreas (areas.flatMap (areaPieces type) ++ pieces) =
      (areas.map fun a => (type, a)) ++ readAreas pieces := by
  induction areas with
  | nil => rfl
  | cons a areas ih =>
    rw [List.flatMap_cons, List.append_assoc, readAreas_areaPieces htype, ih]
    rfl

/-- The entries of the areas of one type. -/
theorem areaEntries_flatMap (type : Text) (areas : List XmlArea) :
    (areas.map fun a => (type, a)).flatMap areaEntries =
      (areas.flatMap Group.entries).map fun e =>
        ⟨if type = "Source".toList then "initial".toList else "goal".toList, e.1, e.2.1, e.2.2⟩ := by
  rw [List.flatMap_map, List.map_flatMap]
  rfl

/-- **Reading an XML message**: its source areas, then its destination areas. -/
theorem xmlEntries_bttPieces {areas areasDes : List XmlArea} (hareas : ∀ a ∈ areas, ReadableArea a)
    (hareasDes : ∀ a ∈ areasDes, ReadableArea a) :
    xmlEntries ((bttPieces areas areasDes).flatMap tagText) =
      ((areas.flatMap Group.entries).map fun e => ⟨"initial".toList, e.1, e.2.1, e.2.2⟩) ++
        (areasDes.flatMap Group.entries).map fun e => ⟨"goal".toList, e.1, e.2.1, e.2.2⟩ := by
  have hreadable : ∀ p ∈ bttPieces areas areasDes, '<' ∉ p.1 ∧ '>' ∉ p.1 ∧ '<' ∉ p.2 := by
    intro p hp
    unfold bttPieces at hp
    rcases List.mem_append.mp hp with hp | hp
    · rcases List.mem_append.mp hp with hp | hp
      · rcases List.mem_pair.mp hp with rfl | rfl
        · show '<' ∉ "?xml version=\"1.0\"?".toList ∧ '>' ∉ "?xml version=\"1.0\"?".toList ∧ '<' ∉ []
          decide
        · show '<' ∉ "competition type=\"BTT\"".toList ∧ '>' ∉ "competition type=\"BTT\"".toList ∧
            '<' ∉ []
          decide
      · rcases List.mem_append.mp hp with hp | hp
        · obtain ⟨a, ha, hp⟩ := List.mem_flatMap.mp hp
          exact readable_areaPieces (Or.inl rfl) (hareas a ha) p hp
        · obtain ⟨a, ha, hp⟩ := List.mem_flatMap.mp hp
          exact readable_areaPieces (Or.inr rfl) (hareasDes a ha) p hp
    · rw [List.mem_singleton.mp hp]
      show '<' ∉ "/competition".toList ∧ '>' ∉ "/competition".toList ∧ '<' ∉ []
      decide
  -- the declaration and the tags of the root are no areas
  have hread : readAreas (bttPieces areas areasDes) =
      (areas.map fun a => ("Source".toList, a)) ++
        ((areasDes.map fun a => ("Destination".toList, a)) ++ []) := by
    unfold bttPieces
    rw [List.append_assoc, List.append_assoc]
    show readAreas (areas.flatMap (areaPieces "Source".toList) ++ _) = _
    rw [readAreas_flatMap (Or.inl rfl), readAreas_flatMap (Or.inr rfl)]
    rfl
  unfold xmlEntries
  rw [markup_flatMap hreadable, hread, List.append_nil, List.flatMap_append, areaEntries_flatMap,
    areaEntries_flatMap]
  rfl

/-! ### What the areas of a list say -/

/-- The order that `Collections.sort` establishes. -/
def BttTask.Sorted (L : List BttTask) : Prop := L.IsChain fun a b => a.compareTo b ≤ 0

instance BttTask.instDecidableSorted (L : List BttTask) : Decidable (BttTask.Sorted L) :=
  inferInstanceAs (Decidable (L.IsChain _))

/-- The tasks of one situation. -/
def BttTask.only (situation : Text) (L : List BttTask) : List BttTask :=
  L.filter fun t => t.situation = situation

/-- Tasks at one place in one situation agree in their configuration. -/
def BttTask.OneConfiguration (L : List BttTask) : Prop :=
  ∀ t ∈ L, ∀ u ∈ L, t.situation = u.situation → t.place = u.place →
    t.getConfiguration = u.getConfiguration

instance BttTask.instDecidableOneConfiguration (L : List BttTask) :
    Decidable (BttTask.OneConfiguration L) :=
  inferInstanceAs (Decidable (∀ t ∈ L, ∀ u ∈ L, _ → _ → _))

theorem BttTask.mem_only {situation : Text} {L : List BttTask} {t : BttTask} :
    t ∈ BttTask.only situation L ↔ t ∈ L ∧ t.situation = situation := by
  unfold BttTask.only
  simp

/-- The situations of BTT tasks, in the order of the list. -/
def bttSituations : List Text := ["initial".toList, "goal".toList]

theorem BttTask.idxOf_le_of_compareTo {a b : BttTask} (ha : a.situation ∈ bttSituations)
    (hb : b.situation ∈ bttSituations) (h : a.compareTo b ≤ 0) :
    bttSituations.idxOf a.situation ≤ bttSituations.idxOf b.situation := by
  have horder : ∀ s ∈ bttSituations, ∀ s' ∈ bttSituations,
      bttSituations.idxOf s ≤ bttSituations.idxOf s' ∨ 0 < Java.compareTo s' s := by decide
  rcases horder _ ha _ hb with hle | hpos
  · exact hle
  · have hne : Java.compareTo b.situation a.situation ≠ 0 := by omega
    unfold BttTask.compareTo at h
    rw [if_pos hne] at h
    omega

/-- A sorted list is its initial tasks, then its goal tasks. -/
theorem BttTask.Sorted.eq_blocks {L : List BttTask} (hsorted : BttTask.Sorted L)
    (hL : ∀ t ∈ L, t.situation ∈ bttSituations) :
    L = BttTask.only "initial".toList L ++ BttTask.only "goal".toList L := by
  have hranks := pairwise_rank_of_isChain (fun t : BttTask => bttSituations.idxOf t.situation)
    (fun a ha b hb => BttTask.idxOf_le_of_compareTo (hL a ha) (hL b hb)) hsorted
  have hblocks := eq_flatMap_filter BttTask.situation bttSituations (by decide) hL hranks
  have hflat : (bttSituations.flatMap fun s => BttTask.only s L) =
      BttTask.only "initial".toList L ++ (BttTask.only "goal".toList L ++ []) := rfl
  rw [List.append_nil] at hflat
  exact hblocks.trans hflat

/-- If there is an initial task, then the first one is. -/
theorem BttTask.Sorted.head_initial {btt : BttTask} {itBtt : List BttTask}
    (hsorted : BttTask.Sorted (btt :: itBtt))
    (hL : ∀ t ∈ btt :: itBtt, t.situation ∈ bttSituations)
    (hsome : BttTask.only "initial".toList (btt :: itBtt) ≠ []) :
    btt.situation = "initial".toList := by
  obtain ⟨t, l, hl⟩ := List.exists_cons_of_ne_nil hsome
  have hblocks := hsorted.eq_blocks hL
  rw [hl] at hblocks
  have hhead : btt = t := List.head_eq_of_cons_eq hblocks
  have hmem : t ∈ BttTask.only "initial".toList (btt :: itBtt) := hl ▸ List.mem_cons_self
  rw [hhead]
  exact (BttTask.mem_only.mp hmem).2

/-- If there is a goal task, then the last one is. -/
theorem BttTask.Sorted.getLast_goal {btt : BttTask} {itBtt : List BttTask}
    (hsorted : BttTask.Sorted (btt :: itBtt))
    (hL : ∀ t ∈ btt :: itBtt, t.situation ∈ bttSituations) {t : BttTask} (ht : t ∈ btt :: itBtt)
    (hgoal : t.situation = "goal".toList) :
    ((btt :: itBtt).getLast (List.cons_ne_nil btt itBtt)).situation = "goal".toList := by
  have hne : BttTask.only "goal".toList (btt :: itBtt) ≠ [] :=
    List.ne_nil_of_mem (BttTask.mem_only.mpr ⟨ht, hgoal⟩)
  have hsame : ∀ (l : List BttTask) (hl : l ≠ []), l = BttTask.only "initial".toList
      (btt :: itBtt) ++ BttTask.only "goal".toList (btt :: itBtt) →
      l.getLast hl = (BttTask.only "goal".toList (btt :: itBtt)).getLast hne := by
    rintro l hl rfl
    exact List.getLast_append_of_ne_nil hl hne
  rw [hsame _ _ (hsorted.eq_blocks hL)]
  exact (BttTask.mem_only.mp (List.getLast_mem hne)).2

/-! ### The source and the destination areas -/

/-- With an initial task in front, the sources are the initial tasks and the
    destinations the goal tasks. -/
theorem areas_of_initial {btt : BttTask} {itBtt : List BttTask}
    (hL : ∀ t ∈ btt :: itBtt, t.situation ∈ bttSituations) (hsorted : BttTask.Sorted (btt :: itBtt))
    (hinitial : btt.situation = "initial".toList) :
    bttSource btt.situation (btt :: itBtt) = BttTask.only "initial".toList (btt :: itBtt) ∧
      bttDestination btt.situation
        ((btt :: itBtt).getLast (List.cons_ne_nil btt itBtt)).situation (btt :: itBtt) =
        BttTask.only "goal".toList (btt :: itBtt) := by
  have hdiff : "goal".toList ≠ "initial".toList := by decide
  refine ⟨by rw [hinitial]; rfl, ?_⟩
  unfold bttDestination BttTask.only
  apply List.filter_congr
  intro t ht
  rw [hinitial]
  by_cases hgoal : t.situation = "goal".toList
  · rw [hsorted.getLast_goal hL ht hgoal]
    simp only [hgoal, ne_eq, hdiff, not_false_eq_true, and_self]
  · have hsit : t.situation = "initial".toList := by
      rcases List.mem_pair.mp (hL t ht) with h | h
      · exact h
      · exact absurd h hgoal
    simp only [hsit, ne_eq, not_true_eq_false, false_and, hdiff.symm]

/-- Without one, all tasks are sources. -/
theorem areas_of_goal {btt : BttTask} {itBtt : List BttTask}
    (hgoal : ∀ t ∈ btt :: itBtt, t.situation = "goal".toList) :
    bttDestination btt.situation
      ((btt :: itBtt).getLast (List.cons_ne_nil btt itBtt)).situation (btt :: itBtt) = [] := by
  unfold bttDestination
  rw [List.filter_eq_nil_iff]
  intro t ht
  simp [hgoal t ht, hgoal btt List.mem_cons_self]

/-- A task of the initial or the goal situation, with a place, whose fields
    contain no delimiter. -/
structure BttTask.Plain (t : BttTask) : Prop where
  situation : t.situation = "initial".toList ∨ t.situation = "goal".toList
  place_ne : t.place ≠ []
  place : NoDelimiter t.place
  configuration : NoDelimiter t.configuration
  object : NoDelimiter t.object

instance BttTask.instDecidablePlain (t : BttTask) : Decidable t.Plain :=
  decidable_of_iff ((t.situation = "initial".toList ∨ t.situation = "goal".toList) ∧
      t.place ≠ [] ∧ NoDelimiter t.place ∧ NoDelimiter t.configuration ∧ NoDelimiter t.object)
    ⟨fun ⟨hs, hp, h1, h2, h3⟩ => ⟨hs, hp, h1, h2, h3⟩,
      fun h => ⟨h.situation, h.place_ne, h.place, h.configuration, h.object⟩⟩

theorem BttTask.Plain.situation_mem {t : BttTask} (h : t.Plain) : t.situation ∈ bttSituations :=
  List.mem_pair.mpr h.situation

theorem BttTask.Plain.situation_ne {t : BttTask} (h : t.Plain) : t.situation ≠ [] := by
  have hne : ∀ s ∈ bttSituations, s ≠ [] := by decide
  exact hne t.situation h.situation_mem

theorem BttTask.Plain.fields {t : BttTask} (h : t.Plain) : NoDelimiter t.situation ∧
    NoDelimiter t.place ∧ NoDelimiter t.getConfiguration ∧ NoDelimiter t.object := by
  have hplain : ∀ s ∈ bttSituations, NoDelimiter s := by decide
  exact ⟨hplain t.situation h.situation_mem, h.place, BttTask.getConfiguration_plain h.configuration,
    h.object⟩

/-- The areas of tasks without angle brackets. -/
theorem readableArea_of_mem {L : List BttTask} (hL : ∀ t ∈ L, t.Plain) {a : XmlArea}
    (ha : a ∈ bttAreas L) : ReadableArea a := by
  obtain ⟨t, ht, hkey, hlabel⟩ := exists_of_mem_collect BttTask.place BttTask.getConfiguration
    BttTask.object ha
  have hconfiguration : NoDelimiter a.label := hlabel ▸ (hL t ht).fields.2.2.1
  refine ⟨hkey ▸ (hL t ht).place.notMem rfl, ⟨hconfiguration.notMem rfl, hconfiguration.notMem rfl⟩,
    ?_⟩
  · intro o ho
    obtain ⟨u, hu, rfl⟩ := exists_item_of_mem_collect BttTask.place BttTask.getConfiguration
      BttTask.object ha ho
    exact (hL u hu).object.notMem rfl

/-- What the areas of the tasks of one situation say. -/
def areasEntries (situation : Text) (L : List BttTask) : List Entry :=
  ((bttAreas L).flatMap Group.entries).map fun e => ⟨situation, e.1, e.2.1, e.2.2⟩

/-- The areas of tasks of one situation list their subgoals exactly when the
    tasks at one place agree in their configuration. -/
theorem areasEntries_perm_iff (situation : Text) (L : List BttTask) :
    (areasEntries situation (BttTask.only situation L)).Perm
        ((BttTask.only situation L).map BttTask.entry) ↔
      ∀ t ∈ BttTask.only situation L, ∀ u ∈ BttTask.only situation L, t.place = u.place →
        t.getConfiguration = u.getConfiguration := by
  -- the situation is the same in all entries
  have hinj : Function.Injective fun e : Text × Text × Text =>
      (⟨situation, e.1, e.2.1, e.2.2⟩ : Entry) := by
    rintro ⟨p, c, o⟩ ⟨p', c', o'⟩ h
    simpa using h
  have hlist : (BttTask.only situation L).map BttTask.entry =
      ((BttTask.only situation L).map fun t => (t.place, t.getConfiguration, t.object)).map
        fun e => ⟨situation, e.1, e.2.1, e.2.2⟩ := by
    rw [List.map_map]
    apply List.map_congr_left
    intro t ht
    show BttTask.entry t = ⟨situation, t.place, t.getConfiguration, t.object⟩
    rw [← (BttTask.mem_only.mp ht).2]
    rfl
  unfold areasEntries bttAreas
  rw [hlist, List.map_perm_map_iff hinj, entries_collect_iff]

theorem situation_of_mem_areasEntries {situation : Text} {L : List BttTask} {e : Entry}
    (he : e ∈ areasEntries situation L) : e.situation = situation := by
  obtain ⟨x, -, rfl⟩ := List.mem_map.mp he
  rfl

/-- Two lists with the same two kinds of entries, one kind in front. -/
theorem perm_append_iff {α : Type} (p : α → Bool) {A B C D : List α} (hA : ∀ a ∈ A, p a = true)
    (hC : ∀ a ∈ C, p a = true) (hB : ∀ a ∈ B, p a = false) (hD : ∀ a ∈ D, p a = false) :
    (A ++ B).Perm (C ++ D) ↔ A.Perm C ∧ B.Perm D := by
  -- the filter with `p` takes the first kind out
  have hkeep : ∀ {X Y : List α}, (∀ a ∈ X, p a = true) → (∀ a ∈ Y, p a = false) →
      (X ++ Y).filter p = X := by
    intro X Y hX hY
    rw [List.filter_append, List.filter_eq_self.mpr hX, List.filter_eq_nil_iff.mpr fun a ha => by
      simp [hY a ha], List.append_nil]
  constructor
  · intro h
    have hfirst := h.filter p
    rw [hkeep hA hB, hkeep hC hD] at hfirst
    exact ⟨hfirst, (List.perm_append_left_iff C).mp ((hfirst.symm.append_right B).trans h)⟩
  · rintro ⟨h1, h2⟩
    exact h1.append h2

/-! ### The two messages -/

/-- What is read from the XML message of a list. -/
theorem xmlEntries_bttXml {L : List BttTask} (hne : L ≠ []) (hL : ∀ t ∈ L, t.Plain)
    (hsorted : BttTask.Sorted L) :
    xmlEntries (bttXml xmlDeclaration L) =
      if BttTask.only "initial".toList L = [] then areasEntries "initial".toList L
      else areasEntries "initial".toList (BttTask.only "initial".toList L) ++
        areasEntries "goal".toList (BttTask.only "goal".toList L) := by
  obtain ⟨btt, itBtt, rfl⟩ := List.exists_cons_of_ne_nil hne
  have hsit : ∀ t ∈ btt :: itBtt, t.situation ∈ bttSituations := fun t ht => (hL t ht).situation_mem
  have hreadable : ∀ l : List BttTask, (∀ t ∈ l, t ∈ btt :: itBtt) →
      ∀ a ∈ bttAreas l, ReadableArea a :=
    fun l hl a ha => readableArea_of_mem (fun t ht => hL t (hl t ht)) ha
  have hsourceMem : ∀ startSit, ∀ t ∈ bttSource startSit (btt :: itBtt), t ∈ btt :: itBtt :=
    fun _ _ ht => List.mem_of_mem_filter ht
  have hdestinationMem : ∀ startSit endSit,
      ∀ t ∈ bttDestination startSit endSit (btt :: itBtt), t ∈ btt :: itBtt :=
    fun _ _ _ ht => List.mem_of_mem_filter ht
  -- the reader finds the source areas and the destination areas again
  rw [bttXml_eq_pieces btt itBtt _ _ rfl rfl, xmlEntries_bttPieces
    (hreadable _ (hsourceMem _)) (hreadable _ (hdestinationMem _ _))]
  by_cases hinitial : btt.situation = "initial".toList
  · obtain ⟨hsource, hdestination⟩ := areas_of_initial hsit hsorted hinitial
    rw [hsource, hdestination, if_neg (List.ne_nil_of_mem
      (BttTask.mem_only.mpr ⟨List.mem_cons_self, hinitial⟩))]
    rfl
  · have hnone : BttTask.only "initial".toList (btt :: itBtt) = [] := by
      by_contra hsome
      exact hinitial (hsorted.head_initial hsit hsome)
    have hgoal : ∀ t ∈ btt :: itBtt, t.situation = "goal".toList := by
      intro t ht
      refine (hL t ht).situation.resolve_left fun h => ?_
      exact List.not_mem_nil (hnone ▸ BttTask.mem_only.mpr ⟨ht, h⟩)
    have hsource : bttSource btt.situation (btt :: itBtt) = btt :: itBtt := by
      unfold bttSource
      rw [List.filter_eq_self]
      intro t ht
      rw [hgoal t ht, hgoal btt List.mem_cons_self]
      exact decide_eq_true rfl
    rw [hsource, areas_of_goal hgoal, if_pos hnone]
    exact List.append_nil _

/-- It is enough to compare tasks of one situation. -/
theorem oneConfiguration_of_blocks {L : List BttTask} (hL : ∀ t ∈ L, t.Plain)
    (hinitial : ∀ t ∈ BttTask.only "initial".toList L, ∀ u ∈ BttTask.only "initial".toList L,
      t.place = u.place → t.getConfiguration = u.getConfiguration)
    (hgoal : ∀ t ∈ BttTask.only "goal".toList L, ∀ u ∈ BttTask.only "goal".toList L,
      t.place = u.place → t.getConfiguration = u.getConfiguration) :
    BttTask.OneConfiguration L := by
  intro t ht u hu hsame hplace
  -- two tasks of one situation stand in one block
  rcases (hL t ht).situation with h | h
  · exact hinitial t (BttTask.mem_only.mpr ⟨ht, h⟩) u
      (BttTask.mem_only.mpr ⟨hu, hsame.symm.trans h⟩) hplace
  · exact hgoal t (BttTask.mem_only.mpr ⟨ht, h⟩) u
      (BttTask.mem_only.mpr ⟨hu, hsame.symm.trans h⟩) hplace

theorem oneConfiguration_block {L : List BttTask} (h : BttTask.OneConfiguration L)
    {situation : Text} : ∀ t ∈ BttTask.only situation L, ∀ u ∈ BttTask.only situation L,
      t.place = u.place → t.getConfiguration = u.getConfiguration := by
  intro t ht u hu hplace
  obtain ⟨htL, htsit⟩ := BttTask.mem_only.mp ht
  obtain ⟨huL, husit⟩ := BttTask.mem_only.mp hu
  exact h t htL u huL (htsit.trans husit.symm) hplace

/-- The areas of both situations list the subgoals exactly when the areas of
    each situation do. -/
theorem blocks_perm_iff {L : List BttTask}
    (hblocks : L = BttTask.only "initial".toList L ++ BttTask.only "goal".toList L) :
    (areasEntries "initial".toList (BttTask.only "initial".toList L) ++
        areasEntries "goal".toList (BttTask.only "goal".toList L)).Perm (L.map BttTask.entry) ↔
      (areasEntries "initial".toList (BttTask.only "initial".toList L)).Perm
          ((BttTask.only "initial".toList L).map BttTask.entry) ∧
        (areasEntries "goal".toList (BttTask.only "goal".toList L)).Perm
          ((BttTask.only "goal".toList L).map BttTask.entry) := by
  have hentry : ∀ {situation : Text}, ∀ e ∈ (BttTask.only situation L).map BttTask.entry,
      e.situation = situation := by
    intro situation e he
    obtain ⟨t, ht, rfl⟩ := List.mem_map.mp he
    exact (BttTask.mem_only.mp ht).2
  have hdiff : "goal".toList ≠ "initial".toList := by decide
  have hlist : L.map BttTask.entry = (BttTask.only "initial".toList L).map BttTask.entry ++
      (BttTask.only "goal".toList L).map BttTask.entry := by
    rw [← List.map_append, ← hblocks]
  rw [hlist]
  -- the situation of an entry tells the two kinds apart
  exact perm_append_iff (fun e : Entry => decide (e.situation = "initial".toList))
    (fun e he => decide_eq_true (situation_of_mem_areasEntries he))
    (fun e he => decide_eq_true (hentry e he))
    (fun e he => decide_eq_false (situation_of_mem_areasEntries he ▸ hdiff))
    (fun e he => decide_eq_false (hentry e he ▸ hdiff))

/-- **The two messages.** What is read from the XML message of a sorted list,
    in which no group runs over, is what is read from its standard message
    exactly when the list has an initial task and tasks of one situation at
    one place agree in their configuration. -/
theorem xml_btt_same_iff (tS : TaskSpec) (hne : tS.bttTaskList ≠ [])
    (hL : ∀ t ∈ tS.bttTaskList, t.Plain) (hsorted : BttTask.Sorted tS.bttTaskList)
    (hrun : BttTask.NoRunOver tS.bttTaskList) :
    ∃ xml text, Converges (tS.getTaskSpecXml .btt) (.ok xml) ∧
      Converges (tS.getTaskSpecString .btt) (.ok text) ∧
      ((xmlEntries xml).Perm (documentEntries (readBttMessage text)) ↔
        (∃ t ∈ tS.bttTaskList, t.situation = "initial".toList) ∧
          BttTask.OneConfiguration tS.bttTaskList) := by
  refine ⟨_, _, converges_pure _,
    getTaskSpecString_btt tS fun t ht => ⟨(hL t ht).situation_ne, (hL t ht).place_ne⟩, ?_⟩
  have hsit : ∀ t ∈ tS.bttTaskList, t.situation ∈ bttSituations :=
    fun t ht => (hL t ht).situation_mem
  -- without a running group the standard message says what the list says
  rw [readBttMessage_text (bttDocument_wellFormed fun t ht => (hL t ht).fields),
    (documentEntries_bttDocument_iff tS.bttTaskList).mpr hrun, xmlEntries_bttXml hne hL hsorted]
  by_cases hinitial : BttTask.only "initial".toList tS.bttTaskList = []
  · -- the only situation is printed as the wrong one
    have hnone : ∀ t ∈ tS.bttTaskList, t.situation ≠ "initial".toList := fun t ht h =>
      List.not_mem_nil (hinitial ▸ BttTask.mem_only.mpr ⟨ht, h⟩)
    rw [if_pos hinitial]
    refine iff_of_false (fun hperm => ?_) fun ⟨⟨t, ht, h⟩, _⟩ => hnone t ht h
    obtain ⟨t, L, hlist⟩ := List.exists_cons_of_ne_nil hne
    have hmem : t ∈ tS.bttTaskList := hlist ▸ List.mem_cons_self
    have hentry := hperm.symm.subset (List.mem_map_of_mem (f := BttTask.entry) hmem)
    exact hnone t hmem (situation_of_mem_areasEntries hentry)
  · have hsome : ∃ t ∈ tS.bttTaskList, t.situation = "initial".toList := by
      obtain ⟨t, ht⟩ := List.exists_mem_of_ne_nil _ hinitial
      exact ⟨t, BttTask.mem_only.mp ht⟩
    rw [if_neg hinitial, blocks_perm_iff (hsorted.eq_blocks hsit), areasEntries_perm_iff, areasEntries_perm_iff]
    exact ⟨fun ⟨h1, h2⟩ => ⟨hsome, oneConfiguration_of_blocks hL h1 h2⟩, fun ⟨_, h⟩ =>
      ⟨oneConfiguration_block h, oneConfiguration_block h⟩⟩

theorem xml_btt_same_line :
    ∃ xml text,
      Converges (({ bttTaskList := twoAtOnePlace "line" } : TaskSpec).getTaskSpecXml .btt)
        (.ok xml) ∧
      Converges (({ bttTaskList := twoAtOnePlace "line" } : TaskSpec).getTaskSpecString .btt)
        (.ok text) ∧
      ((xmlEntries xml).Perm (documentEntries (readBttMessage text)) ↔
        (∃ t ∈ twoAtOnePlace "line", t.situation = "initial".toList) ∧
          BttTask.OneConfiguration (twoAtOnePlace "line")) :=
  xml_btt_same_iff { bttTaskList := twoAtOnePlace "line" } (by decide) (by decide) (by decide)
    (by decide)

/-- Two tasks at one place in two configurations. -/
def twoConfigurations : List BttTask :=
  [⟨"initial".toList, "line".toList, "S1".toList, "M20".toList, .init⟩,
    ⟨"initial".toList, "zigzag".toList, "S1".toList, "M30".toList, .init⟩]

/-- The XML message puts both objects under the first configuration. -/
theorem xml_btt_loses_configuration :
    (∀ t ∈ twoConfigurations, t.Plain) ∧ BttTask.Sorted twoConfigurations ∧
      BttTask.NoRunOver twoConfigurations ∧
      Converges (({ bttTaskList := twoConfigurations } : TaskSpec).getTaskSpecXml .btt)
        (.ok (bttXml xmlDeclaration twoConfigurations)) ∧
      Converges (({ bttTaskList := twoConfigurations } : TaskSpec).getTaskSpecString .btt)
        (.ok ("BTT<".toList ++ documentText (bttDocument twoConfigurations) ++ ">".toList)) ∧
      ¬ (xmlEntries (bttXml xmlDeclaration twoConfigurations)).Perm
        (documentEntries (readBttMessage
          ("BTT<".toList ++ documentText (bttDocument twoConfigurations) ++ ">".toList))) := by
  refine ⟨by decide, by decide, by decide, converges_pure _,
    getTaskSpecString_btt { bttTaskList := twoConfigurations } (by decide), ?_⟩
  decide

end RefereeBox
