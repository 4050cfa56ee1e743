import RefereeBox.Java

/-! # `java.io.File`

  Absolute path names: a prefix and a sequence of names. As a string they
  stand one after the other, with the separator between the names.
-/

namespace RefereeBox

namespace Java

/-! ### `String.lastIndexOf` -/

/-- `s.lastIndexOf(c)`. -/
def lastIndexOf (c : Char) : Text → Int
  | [] => -1
  | d :: s => if 0 ≤ lastIndexOf c s then lastIndexOf c s + 1 else if d = c then 0 else -1

theorem lastIndexOf_of_notMem {c : Char} {s : Text} (h : c ∉ s) : lastIndexOf c s = -1 := by
  induction s with
  | nil => rfl
  | cons d s ih =>
    obtain ⟨hd, hs⟩ := List.ne_and_not_mem_of_not_mem_cons h
    simp [lastIndexOf, ih hs, Ne.symm hd]

theorem lastIndexOf_append {c : Char} {t : Text} (h : c ∉ t) (s : Text) :
    lastIndexOf c (s ++ c :: t) = s.length := by
  induction s with
  | nil => simp [lastIndexOf, lastIndexOf_of_notMem h]
  | cons d s ih =>
    rw [List.cons_append, lastIndexOf, ih, if_pos (by omega), List.length_cons]
    omega

/-- A text is cut at the last place of a character. -/
theorem exists_append_of_mem {c : Char} {s : Text} (h : c ∈ s) :
    ∃ x y, s = x ++ c :: y ∧ c ∉ y := by
  induction s with
  | nil => exact absurd h List.not_mem_nil
  | cons d s ih =>
    by_cases hs : c ∈ s
    · obtain ⟨x, y, rfl, hy⟩ := ih hs
      exact ⟨d :: x, y, rfl, hy⟩
    · rcases List.mem_cons.mp h with rfl | hmem
      · exact ⟨[], s, rfl, hs⟩
      · exact absurd hmem hs

/-! ### Path names -/

/-- The conventions of a platform: the separator, and the prefix of the absolute
    path names (of those on one drive, where there are several). -/
structure FileSystem where
  separatorChar : Char
  root : Text
  separatorChar_ne : separatorChar ≠ '.'
  separatorChar_isAlphanum : separatorChar.isAlphanum = false

/-- `/` on Unix. -/
def unix : FileSystem := ⟨'/', "/".toList, by decide, by decide⟩

variable {fs : FileSystem}

/-- A name within a path is not empty, and has no separator in it. -/
def FileSystem.IsName (fs : FileSystem) (n : Text) : Prop := n ≠ [] ∧ fs.separatorChar ∉ n

instance (n : Text) : Decidable (fs.IsName n) :=
  inferInstanceAs (Decidable (n ≠ [] ∧ fs.separatorChar ∉ n))

/-- A `File` with an absolute path name. -/
@[ext] structure File (fs : FileSystem) where
  names : List Text
  isName : ∀ n ∈ names, fs.IsName n
deriving DecidableEq

/-- The path of names. -/
def FileSystem.pathOf (fs : FileSystem) (names : List Text) : Text :=
  fs.root ++ [fs.separatorChar].intercalate names

/-- The names in a string, several separators in a row counting as one. -/
def FileSystem.namesOf (fs : FileSystem) (s : Text) : List Text :=
  (s.splitOn fs.separatorChar).filter (· ≠ [])

theorem FileSystem.isName_of_mem_namesOf {s n : Text} (h : n ∈ fs.namesOf s) : fs.IsName n := by
  obtain ⟨hmem, hne⟩ := List.mem_filter.mp h
  refine ⟨by simpa using hne, fun hsep => ?_⟩
  have := not_delim_of_mem_splitOnP hmem _ hsep
  simp at this

namespace File

/-- `new File(pathname)`, for an absolute path name. -/
def ofPath (fs : FileSystem) (pathname : Text) : File fs :=
  ⟨fs.namesOf (pathname.drop fs.root.length), fun _ => FileSystem.isName_of_mem_namesOf⟩

def getPath (f : File fs) : Text := fs.pathOf f.names

/-- An absolute path is left as it is. -/
def getAbsolutePath (f : File fs) : Text := f.getPath

/-- The last name, or the empty string. -/
def getName (f : File fs) : Text := f.names.getLast?.getD []

/-- The path without the last name; `none` is null. -/
def getParent (f : File fs) : Option Text :=
  if f.names = [] then none else some (fs.pathOf f.names.dropLast)

end File

/-! ### From strings to names -/

theorem FileSystem.namesOf_append (fs : FileSystem) (s t : Text) :
    fs.namesOf (s ++ fs.separatorChar :: t) = fs.namesOf s ++ fs.namesOf t := by
  unfold namesOf
  rw [List.splitOn_append_cons_self, List.filter_append]

/-- The names are found again. -/
theorem FileSystem.namesOf_intercalate {names : List Text} (h : ∀ n ∈ names, fs.IsName n) :
    fs.namesOf ([fs.separatorChar].intercalate names) = names := by
  unfold namesOf
  by_cases hnames : names = []
  · rw [hnames]
    rfl
  · rw [List.splitOn_intercalate _ (fun n hn => (h n hn).2) hnames, List.filter_eq_self]
    intro n hn
    simpa using (h n hn).1

theorem FileSystem.namesOf_name {n : Text} (h : fs.IsName n) : fs.namesOf n = [n] := by
  have hone : fs.namesOf ([fs.separatorChar].intercalate [n]) = [n] :=
    FileSystem.namesOf_intercalate (by simpa using h)
  rwa [List.intercalate_singleton] at hone

/-- What is written behind a path belongs to its last name. -/
theorem FileSystem.pathOf_append (fs : FileSystem) (names : List Text) (n t : Text) :
    fs.pathOf (names ++ [n]) ++ t = fs.pathOf (names ++ [n ++ t]) := by
  unfold pathOf
  rw [List.append_assoc]
  congr 1
  induction names with
  | nil => simp
  | cons m names ih =>
    rw [List.cons_append, List.cons_append, List.intercalate_cons_of_ne_nil (by simp),
      List.intercalate_cons_of_ne_nil (by simp), ← ih]
    simp

/-- A name in the directory at names. -/
theorem File.ofPath_child {names : List Text} (h : ∀ n ∈ names, fs.IsName n) {n : Text}
    (hn : fs.IsName n) :
    (File.ofPath fs (fs.pathOf names ++ fs.separatorChar :: n)).names = names ++ [n] := by
  unfold ofPath FileSystem.pathOf
  simp only [List.append_assoc, List.drop_left]
  rw [FileSystem.namesOf_append, FileSystem.namesOf_intercalate h, FileSystem.namesOf_name hn]

theorem File.ofPath_pathOf {names : List Text} (h : ∀ n ∈ names, fs.IsName n) :
    (File.ofPath fs (fs.pathOf names)).names = names := by
  unfold ofPath FileSystem.pathOf
  simp only [List.drop_left]
  exact FileSystem.namesOf_intercalate h

end Java

end RefereeBox
