import RefereeBox.Java

/-! # Task Documents

  What a task message says, without its syntax: situations, in them groups of
  objects at one place in one configuration. `documentText` writes a document
  in the message format and `readDocument` reads it, section by section and
  group by group; `readDocument_documentText` is the round trip.
-/

namespace RefereeBox

/-! ### Documents -/

/-- One subgoal of a message. -/
structure Entry where
  situation : Text
  place : Text
  configuration : Text
  object : Text
deriving DecidableEq, Repr

/-- The same subgoal in another situation. -/
def Entry.under (situation : Text) (e : Entry) : Entry :=
  ⟨situation, e.place, e.configuration, e.object⟩

/-- The objects at one place in one configuration. -/
structure ObjectGroup where
  place : Text
  configuration : Text
  objects : List Text
deriving DecidableEq, Repr

/-- One section of a message. -/
structure Situation where
  name : Text
  groups : List ObjectGroup
deriving DecidableEq, Repr

/-- The subgoals of a section, from left to right. -/
def Situation.entries (s : Situation) : List Entry :=
  s.groups.flatMap fun g => g.objects.map fun object => ⟨s.name, g.place, g.configuration, object⟩

def documentEntries (d : List Situation) : List Entry := d.flatMap Situation.entries

/-! ### Writing -/

/-- `<place,configuration(objects)>` -/
def ObjectGroup.text (g : ObjectGroup) : Text :=
  "<".toList ++ g.place ++ ",".toList ++ g.configuration ++ "(".toList ++
    [','].intercalate g.objects ++ ")>".toList

/-- `<situation>situation(...)` -/
def Situation.text (s : Situation) : Text :=
  s.name ++ "situation(".toList ++ (s.groups.map ObjectGroup.text).flatten ++ ")".toList

/-- The sections, with semicolons between them. -/
def documentText (d : List Situation) : Text := [';'].intercalate (d.map Situation.text)

/-! ### Reading -/

/-- The text in front of the first `c`, and the text behind it. -/
def cutAt (c : Char) (s : Text) : Text × Text :=
  (s.takeWhile (· ≠ c), (s.dropWhile (· ≠ c)).drop 1)

/-- Read `<place,configuration(objects)`. -/
def readGroup (s : Text) : ObjectGroup :=
  let parts := cutAt '(' (s.drop 1)
  let head := cutAt ',' parts.1
  { place := head.1, configuration := head.2, objects := parts.2.dropLast.splitOn ',' }

/-- Read one section: the name in front of `situation(`, then the groups, each
    up to its closing angle bracket. -/
def readSituation (s : Text) : Situation :=
  let parts := cutAt '(' s
  { name := parts.1.take (parts.1.length - "situation".toList.length)
    groups := (parts.2.dropLast.splitOn '>').dropLast.map readGroup }

def readDocument (s : Text) : List Situation :=
  if s = [] then [] else (s.splitOn ';').map readSituation

/-! ### Well-formed documents -/

/-- The delimiters of the format. -/
def isDelimiter : Char → Bool := Java.oneOf "<>(),;"

def NoDelimiter (s : Text) : Prop := ∀ c ∈ s, isDelimiter c = false

instance (s : Text) : Decidable (NoDelimiter s) :=
  inferInstanceAs (Decidable (∀ c ∈ s, isDelimiter c = false))

structure ObjectGroup.WellFormed (g : ObjectGroup) : Prop where
  place : NoDelimiter g.place
  configuration : NoDelimiter g.configuration
  objects : ∀ o ∈ g.objects, NoDelimiter o
  objects_ne : g.objects ≠ []

structure Situation.WellFormed (s : Situation) : Prop where
  name : NoDelimiter s.name
  groups : ∀ g ∈ s.groups, g.WellFormed

theorem NoDelimiter.notMem {s : Text} (h : NoDelimiter s) {c : Char}
    (hc : isDelimiter c = true) : c ∉ s := by
  intro hmem
  rw [h c hmem] at hc
  exact absurd hc (by decide)

/-! ### Round trip -/

theorem cutAt_append {c : Char} {a : Text} (ha : c ∉ a) (b : Text) :
    cutAt c (a ++ c :: b) = (a, b) := by
  have hall : ∀ d ∈ a, decide (d ≠ c) = true := by
    intro d hd
    have : d ≠ c := fun h => ha (h ▸ hd)
    simpa using this
  unfold cutAt
  rw [List.takeWhile_append_of_pos hall, List.dropWhile_append_of_pos hall]
  simp

/-- Splitting at a character that ends every piece leaves an empty piece
    behind the last one. -/
theorem splitOn_flatten {c : Char} (xs : List Text) (hxs : ∀ x ∈ xs, c ∉ x) :
    ((xs.map (· ++ [c])).flatten).splitOn c = xs ++ [[]] := by
  rw [List.splitOn_eq_splitOnP]
  induction xs with
  | nil => simp
  | cons x xs ih =>
    have hx : ∀ d ∈ x, (d == c) = false := by
      intro d hd
      have : d ≠ c := fun h => hxs x List.mem_cons_self (h ▸ hd)
      simpa using this
    rw [List.map_cons, List.flatten_cons, List.append_assoc, List.singleton_append,
      List.splitOnP_append_cons_of_forall_mem hx c (by simp),
      ih fun y hy => hxs y (List.mem_cons_of_mem x hy)]
    rfl

/-- The text of a group without its closing angle bracket. -/
def ObjectGroup.body (g : ObjectGroup) : Text :=
  '<' :: (g.place ++ ',' :: g.configuration) ++ '(' :: ([','].intercalate g.objects ++ [')'])

theorem ObjectGroup.text_eq (g : ObjectGroup) : g.text = g.body ++ ['>'] := by
  unfold text body
  simp

/-- A character that is neither in the pieces nor the separator is not in the
    joined text. -/
theorem notMem_intercalate {c sep : Char} (hsep : c ≠ sep) {xs : List Text}
    (hxs : ∀ x ∈ xs, c ∉ x) : c ∉ [sep].intercalate xs := by
  rw [Java.mem_intercalate_iff hsep]
  exact fun ⟨x, hx, hc⟩ => hxs x hx hc

theorem ObjectGroup.WellFormed.notMem_body {g : ObjectGroup} (h : g.WellFormed) {c : Char}
    (hc : c = '>' ∨ c = ';') : c ∉ g.body := by
  have hdelim : isDelimiter c = true := by rcases hc with rfl | rfl <;> decide
  have hplace := h.place.notMem hdelim
  have hconfiguration := h.configuration.notMem hdelim
  have hobjects : c ∉ [','].intercalate g.objects := by
    apply notMem_intercalate
    · rcases hc with rfl | rfl <;> decide
    · exact fun o ho => (h.objects o ho).notMem hdelim
  unfold ObjectGroup.body
  rcases hc with rfl | rfl <;> simp [hplace, hconfiguration, hobjects]

theorem readGroup_body {g : ObjectGroup} (h : g.WellFormed) : readGroup g.body = g := by
  have hhead : '(' ∉ g.place ++ ',' :: g.configuration := by
    have h1 := h.place.notMem (c := '(') (by decide)
    have h2 := h.configuration.notMem (c := '(') (by decide)
    simp [h1, h2]
  have hobjects : ([','].intercalate g.objects).splitOn ',' = g.objects :=
    List.splitOn_intercalate ',' (fun o ho => (h.objects o ho).notMem (by decide)) h.objects_ne
  -- the first `(` ends the head, and the first comma in it the place
  unfold readGroup ObjectGroup.body
  rw [List.cons_append, List.drop_one, List.tail_cons, cutAt_append hhead]
  simp only [cutAt_append (h.place.notMem (c := ',') (by decide)), List.dropLast_concat, hobjects]

theorem readSituation_text {s : Situation} (h : s.WellFormed) : readSituation s.text = s := by
  have hhead : '(' ∉ s.name ++ "situation".toList := by
    have := h.name.notMem (c := '(') (by decide)
    simp [this]
  have hgroups : (s.groups.map ObjectGroup.text).flatten =
      ((s.groups.map ObjectGroup.body).map (· ++ ['>'])).flatten := by
    rw [List.map_map]
    congr 1
    exact List.map_congr_left fun g _ => g.text_eq
  -- only the closing brackets of the groups are angle brackets of that kind
  have hsplit := splitOn_flatten (c := '>') (s.groups.map ObjectGroup.body) (by
    intro x hx
    obtain ⟨g, hg, rfl⟩ := List.mem_map.mp hx
    exact (h.groups g hg).notMem_body (Or.inl rfl))
  have hread : (s.groups.map ObjectGroup.body).map readGroup = s.groups := by
    rw [List.map_map]
    conv_rhs => rw [← List.map_id s.groups]
    exact List.map_congr_left fun g hg => readGroup_body (h.groups g hg)
  have htext : s.text = (s.name ++ "situation".toList) ++
      '(' :: ((s.groups.map ObjectGroup.text).flatten ++ [')']) := by
    simp [Situation.text]
  unfold readSituation
  rw [htext, cutAt_append hhead]
  simp only [List.dropLast_concat, hgroups, hsplit, hread, List.length_append,
    Nat.add_sub_cancel, List.take_left']

theorem Situation.WellFormed.notMem_text {s : Situation} (h : s.WellFormed) : ';' ∉ s.text := by
  have hname := h.name.notMem (c := ';') (by decide)
  have hgroups : ∀ g ∈ s.groups, ';' ∉ g.text := by
    intro g hg
    have := (h.groups g hg).notMem_body (Or.inr rfl)
    simp [ObjectGroup.text_eq, this]
  unfold Situation.text
  simp only [List.mem_append, not_or]
  refine ⟨⟨⟨hname, by decide⟩, ?_⟩, by decide⟩
  intro hmem
  obtain ⟨x, hx, hc⟩ := List.mem_flatten.mp hmem
  obtain ⟨g, hg, rfl⟩ := List.mem_map.mp hx
  exact hgroups g hg hc

/-- **Round trip**: reading the text of a well-formed document gives the
    document back. -/
theorem readDocument_documentText (d : List Situation) (h : ∀ s ∈ d, s.WellFormed) :
    readDocument (documentText d) = d := by
  by_cases hd : d = []
  · rw [hd]
    rfl
  · -- the semicolons stand between the sections only
    have hsplit : (documentText d).splitOn ';' = d.map Situation.text := by
      apply List.splitOn_intercalate
      · intro x hx
        obtain ⟨s, hs, rfl⟩ := List.mem_map.mp hx
        exact (h s hs).notMem_text
      · simpa using hd
    have hne : documentText d ≠ [] := by
      intro hnil
      rw [hnil] at hsplit
      -- every section has at least its brackets
      obtain ⟨s, d', rfl⟩ := List.exists_cons_of_ne_nil hd
      have hlen := congrArg (fun l => (l.map List.length).sum) hsplit
      simp only [List.map_cons, List.sum_cons, Situation.text, List.length_append] at hlen
      have hname : ("situation(".toList).length = 10 := rfl
      have hnone : (([].splitOn ';' : List Text).map List.length).sum = 0 := rfl
      omega
    unfold readDocument
    rw [if_neg hne, hsplit, List.map_map]
    conv_rhs => rw [← List.map_id d]
    exact List.map_congr_left fun s hs => readSituation_text (h s hs)

/-! ### The fields of a document -/

/-- A property of the name and of every text in the groups. -/
structure Situation.Fields (P : Text → Prop) (s : Situation) : Prop where
  name : P s.name
  place : ∀ g ∈ s.groups, P g.place
  configuration : ∀ g ∈ s.groups, P g.configuration
  objects : ∀ g ∈ s.groups, ∀ o ∈ g.objects, P o

theorem Situation.Fields.wellFormed {s : Situation} (h : s.Fields NoDelimiter)
    (hne : ∀ g ∈ s.groups, g.objects ≠ []) : s.WellFormed :=
  ⟨h.name, fun g hg => ⟨h.place g hg, h.configuration g hg, h.objects g hg, hne g hg⟩⟩

/-- The characters that the format itself writes. -/
def formatChars : Text := "<>(),;situation".toList

/-- A character that is neither in the fields nor written by the format is not
    in the text. -/
theorem Situation.Fields.notMem_text {c : Char} (hc : c ∉ formatChars) {s : Situation}
    (h : s.Fields fun x => c ∉ x) : c ∉ s.text := by
  have hformat : ∀ x : Text, (∀ d ∈ x, d ∈ formatChars) → c ∉ x := fun x hx hmem => hc (hx c hmem)
  have hgroup : ∀ g ∈ s.groups, c ∉ g.text := by
    intro g hg
    have hobjects : c ∉ [','].intercalate g.objects := by
      apply notMem_intercalate _ (h.objects g hg)
      rintro rfl
      exact hc (by decide)
    unfold ObjectGroup.text
    simp only [List.mem_append, not_or]
    exact ⟨⟨⟨⟨⟨⟨hformat _ (by decide), h.place g hg⟩, hformat _ (by decide)⟩, h.configuration g hg⟩,
      hformat _ (by decide)⟩, hobjects⟩, hformat _ (by decide)⟩
  have hgroups : c ∉ (s.groups.map ObjectGroup.text).flatten := by
    rw [List.mem_flatten]
    rintro ⟨x, hx, hmem⟩
    obtain ⟨g, hg, rfl⟩ := List.mem_map.mp hx
    exact hgroup g hg hmem
  unfold Situation.text
  simp only [List.mem_append, not_or]
  exact ⟨⟨⟨h.name, hformat _ (by decide)⟩, hgroups⟩, hformat _ (by decide)⟩

theorem notMem_documentText {c : Char} (hc : c ∉ formatChars) {d : List Situation}
    (h : ∀ s ∈ d, s.Fields fun x => c ∉ x) : c ∉ documentText d := by
  apply notMem_intercalate
  · rintro rfl
    exact hc (by decide)
  · intro x hx
    obtain ⟨s, hs, rfl⟩ := List.mem_map.mp hx
    exact (h s hs).notMem_text hc

/-! ### How a document starts -/

/-- A section with a group starts with its name and the bracket of the group. -/
theorem Situation.exists_text_eq {s : Situation} (h : s.groups ≠ []) :
    ∃ z, s.text = s.name ++ "situation(".toList ++ '<' :: z := by
  obtain ⟨g, gs, hgs⟩ := List.exists_cons_of_ne_nil h
  refine ⟨g.body.drop 1 ++ ['>'] ++ (gs.map ObjectGroup.text).flatten ++ [')'], ?_⟩
  simp [Situation.text, hgs, ObjectGroup.text_eq, ObjectGroup.body]

theorem exists_documentText_cons (s : Situation) (d : List Situation) :
    ∃ z, documentText (s :: d) = s.text ++ z := by
  cases d with
  | nil => exact ⟨[], by simp [documentText]⟩
  | cons s' d =>
    refine ⟨';' :: documentText (s' :: d), ?_⟩
    simp [documentText, List.intercalate_cons_cons]

end RefereeBox
