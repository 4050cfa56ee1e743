import Mathlib.Data.List.Basic

/-! # XML Fragments

  The part of XML that programs write by hand: elements with attributes,
  texts between them, and one root behind the declaration.

  * `Content` is the grammar of what stands between two tags: every element
    in it is closed, in order, under the name that opened it.
  * `IsDocument` is a declaration followed by one root element.
  * `markup` reads the tags of a message, each with the text behind it.
-/

namespace Xml

/-! ### Tags -/

/-- The characters with a meaning of their own. -/
def isSpecial (c : Char) : Bool := "<>&\"'".toList.contains c

def Plain (s : List Char) : Prop := ∀ c ∈ s, isSpecial c = false

instance (s : List Char) : Decidable (Plain s) := List.decidableBAll _ s

/-- A letter, then letters and digits. -/
def isName : List Char → Bool
  | [] => false
  | c :: t => c.isAlpha && t.all Char.isAlphanum

/-- Names and values of the attributes of a tag. -/
abbrev Attributes : Type := List (List Char × List Char)

structure Attributes.WellFormed (attrs : Attributes) : Prop where
  names : ∀ a ∈ attrs, isName a.1 = true
  values : ∀ a ∈ attrs, Plain a.2
  distinct : (attrs.map Prod.fst).Nodup

/-- ` name="value"` -/
def attributeText (a : List Char × List Char) : List Char :=
  " ".toList ++ a.1 ++ "=\"".toList ++ a.2 ++ "\"".toList

def startTag (name : List Char) (attrs : Attributes) : List Char :=
  "<".toList ++ name ++ attrs.flatMap attributeText ++ ">".toList

def endTag (name : List Char) : List Char := "</".toList ++ name ++ ">".toList

def element (name : List Char) (attrs : Attributes) (body : List Char) : List Char :=
  startTag name attrs ++ body ++ endTag name

/-! ### Content -/

/-- Texts and elements, one after the other. -/
inductive Content : List Char → Prop where
  | empty : Content []
  | text {s rest : List Char} : Plain s → Content rest → Content (s ++ rest)
  | element {name body rest : List Char} {attrs : Attributes} :
      isName name = true → attrs.WellFormed → Content body → Content rest →
      Content (element name attrs body ++ rest)

namespace Content

theorem append {s t : List Char} (hs : Content s) (ht : Content t) : Content (s ++ t) := by
  induction hs with
  | empty => exact ht
  | text hplain _ ih =>
    rw [List.append_assoc]
    exact .text hplain ih
  | element hname hattrs hbody _ _ ih =>
    rw [List.append_assoc]
    exact .element hname hattrs hbody ih

theorem of_plain {s : List Char} (hs : Plain s) : Content s := by
  have h := Content.text hs .empty
  rwa [List.append_nil] at h

theorem of_element {name body : List Char} {attrs : Attributes} (hname : isName name = true)
    (hattrs : attrs.WellFormed) (hbody : Content body) : Content (Xml.element name attrs body) := by
  have h := Content.element hname hattrs hbody .empty
  rwa [List.append_nil] at h

/-- Fragments written in a loop. -/
theorem flatMap {α : Type} {l : List α} {f : α → List Char} (hf : ∀ a ∈ l, Content (f a)) :
    Content (l.flatMap f) := by
  induction l with
  | nil => exact .empty
  | cons a l ih =>
    rw [List.flatMap_cons]
    exact (hf a List.mem_cons_self).append (ih fun b hb => hf b (List.mem_cons_of_mem a hb))

end Content

/-! ### Documents -/

/-- The declaration, and one root element with the given name and attributes. -/
def IsDocument (declaration name : List Char) (attrs : Attributes) (s : List Char) : Prop :=
  ∃ body, Content body ∧ s = declaration ++ element name attrs body

/-- Behind the declaration a document goes on with the bracket of its root. -/
theorem IsDocument.head {declaration name s : List Char} {attrs : Attributes}
    (h : IsDocument declaration name attrs (declaration ++ s)) :
    ∃ rest, s = "<".toList ++ name ++ rest := by
  obtain ⟨body, -, hs⟩ := h
  have hs := List.append_cancel_left hs
  refine ⟨attrs.flatMap attributeText ++ ">".toList ++ body ++ endTag name, ?_⟩
  rw [hs]
  simp [element, startTag]

/-! ### Reading the tags -/

/-- The tags, without their brackets, each with the text behind it. -/
def markup (s : List Char) : List (List Char × List Char) :=
  ((s.splitOn '<').drop 1).map fun piece =>
    (piece.takeWhile (· ≠ '>'), (piece.dropWhile (· ≠ '>')).drop 1)

/-- A tag, with the text behind it. -/
def tagText (p : List Char × List Char) : List Char := '<' :: (p.1 ++ '>' :: p.2)

/-- Pieces that each stand behind a bracket. -/
theorem splitOnP_pieces (x : List Char) (xs : List (List Char)) (hx : ∀ y ∈ x :: xs, '<' ∉ y) :
    (x ++ xs.flatMap fun y => '<' :: y).splitOnP (· == '<') = x :: xs := by
  have hplain : ∀ y ∈ x :: xs, ∀ c ∈ y, (c == '<') = false := by
    intro y hy c hc
    have : c ≠ '<' := fun h => hx y hy (h ▸ hc)
    simpa using this
  induction xs generalizing x with
  | nil =>
    rw [List.flatMap_nil, List.append_nil]
    exact List.splitOnP_eq_singleton (hplain x List.mem_cons_self)
  | cons y ys ih =>
    rw [List.flatMap_cons, List.cons_append,
      List.splitOnP_append_cons_of_forall_mem (hplain x List.mem_cons_self) '<' rfl,
      ih y (fun z hz => hx z (List.mem_cons_of_mem x hz))
        (fun z hz => hplain z (List.mem_cons_of_mem x hz))]

/-- **Round trip**: the tags of a written message are read back. -/
theorem markup_flatMap {ps : List (List Char × List Char)}
    (hps : ∀ p ∈ ps, '<' ∉ p.1 ∧ '>' ∉ p.1 ∧ '<' ∉ p.2) : markup (ps.flatMap tagText) = ps := by
  have hsplit : (ps.flatMap tagText).splitOn '<' = [] :: ps.map fun p => p.1 ++ '>' :: p.2 := by
    have hpieces := splitOnP_pieces [] (ps.map fun p => p.1 ++ '>' :: p.2) (by
      intro y hy
      rcases List.mem_cons.mp hy with rfl | hy
      · exact List.not_mem_nil
      · obtain ⟨p, hp, rfl⟩ := List.mem_map.mp hy
        obtain ⟨h1, -, h2⟩ := hps p hp
        simp [h1, h2])
    rw [List.flatMap_map] at hpieces
    exact hpieces
  -- each piece is cut at its own bracket
  have hcut : ∀ p ∈ ps, ((p.1 ++ '>' :: p.2).takeWhile (· ≠ '>'),
      ((p.1 ++ '>' :: p.2).dropWhile (· ≠ '>')).drop 1) = p := by
    intro p hp
    have hall : ∀ c ∈ p.1, decide (c ≠ '>') = true := by
      intro c hc
      have : c ≠ '>' := fun h => (hps p hp).2.1 (h ▸ hc)
      simpa using this
    rw [List.takeWhile_append_of_pos hall, List.dropWhile_append_of_pos hall]
    simp
  unfold markup
  rw [hsplit, List.drop_one, List.tail_cons, List.map_map]
  conv_rhs => rw [← List.map_id ps]
  exact List.map_congr_left hcut

end Xml
