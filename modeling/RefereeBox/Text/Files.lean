import RefereeBox.Model.Files

/-! # Saved Files are Found Again

  A corrected name ends in a dot and the extension, in whatever letters, and
  has something in front of the dot. All three places where the code looks
  for the extension agree on such a name: the filter, the correction itself,
  and the cut of four characters for the picture.
-/

namespace RefereeBox

open Java

variable {fs : FileSystem} {u : Unicode}

/-! ### The extension of a name -/

/-- A name with something in front of its last dot, and a text behind it that is
    the extension but for the case of its letters. -/
structure IsSavedName (u : Unicode) (name base ext : Text) : Prop where
  eq : name = base ++ '.' :: ext
  base_ne : base ≠ []
  last : '.' ∉ ext
  lower : u.toLowerCase ext = taskSpecExtension

theorem toLowerCase_eq_tsp_iff (u : Unicode) (s : Text) :
    u.toLowerCase s = taskSpecExtension ↔ s.map Char.toLower = taskSpecExtension :=
  u.toLowerCase_eq_iff s taskSpecExtension (by decide)

/-- The extension has three letters in any case. -/
theorem length_of_toLowerCase {ext : Text} (h : u.toLowerCase ext = taskSpecExtension) :
    ext.length = 3 := by
  rw [toLowerCase_eq_tsp_iff] at h
  have := congrArg List.length h
  rwa [List.length_map] at this

theorem drop_behind_dot (base ext : Text) :
    (base ++ '.' :: ext).drop ((base.length : Int) + 1).toNat = ext := by
  have hindex : ((base.length : Int) + 1).toNat = base.length + 1 := by omega
  rw [hindex, ← List.drop_drop, List.drop_left]
  rfl

/-- Such a name has the extension. -/
theorem IsSavedName.getExtension {f : File fs} {base ext : Text}
    (h : IsSavedName u f.getName base ext) : getExtension u f = some taskSpecExtension := by
  have hbase := List.length_pos_iff.mpr h.base_ne
  have hlength := length_of_toLowerCase h.lower
  have hindex := lastIndexOf_append h.last base
  unfold RefereeBox.getExtension
  simp only
  rw [h.eq, hindex, if_pos (by simp; omega)]
  rw [drop_behind_dot, h.lower]

/-- And a name with the extension is of this form. -/
theorem exists_isSavedName {f : File fs} (h : getExtension u f = some taskSpecExtension) :
    ∃ base ext, IsSavedName u f.getName base ext := by
  unfold getExtension at h
  simp only at h
  split at h
  · next hindex =>
    have hdot : '.' ∈ f.getName := by
      by_contra hnot
      rw [lastIndexOf_of_notMem hnot] at hindex
      omega
    obtain ⟨base, ext, heq, hlast⟩ := exists_append_of_mem hdot
    rw [heq, lastIndexOf_append hlast] at hindex h
    rw [drop_behind_dot] at h
    refine ⟨base, ext, heq, ?_, hlast, Option.some.inj h⟩
    exact List.length_pos_iff.mp (by omega)
  · exact absurd h (by simp)

/-! ### The correction -/

/-- A name with an extension behind a dot is a name still. -/
theorem isName_append {name ext : Text} (hname : fs.separatorChar ∉ name)
    (hext : ∀ c ∈ ext, c.isAlphanum = true) : fs.IsName (name ++ '.' :: ext) := by
  refine ⟨by simp, fun hsep => ?_⟩
  rcases List.mem_append.mp hsep with hmem | hmem
  · exact hname hmem
  · rcases List.mem_cons.mp hmem with hdot | hmem
    · exact fs.separatorChar_ne hdot
    · have halnum := hext _ hmem
      rw [fs.separatorChar_isAlphanum] at halnum
      exact absurd halnum (by decide)

/-- The correction keeps the directory, and ends the name as it should. -/
theorem correctFile_names (u : Unicode) {f : File fs} {names : List Text} {name : Text}
    (hnames : f.names = names ++ [name]) :
    ∃ base ext, (correctFile u f).names = names ++ [base ++ '.' :: ext] ∧
      IsSavedName u (correctFile u f).getName base ext := by
  have hname : f.getName = name := by simp [File.getName, hnames]
  have hparent : f.getParent = some (fs.pathOf names) := by simp [File.getParent, hnames]
  have hpath : f.getAbsolutePath = fs.pathOf (names ++ [name]) := by
    unfold File.getAbsolutePath File.getPath
    rw [hnames]
  have hisName : ∀ n ∈ names ++ [name], fs.IsName n := fun n hn => f.isName n (hnames ▸ hn)
  have hnamesOk : ∀ n ∈ names, fs.IsName n := fun n hn => hisName n (by simp [hn])
  have hnameOk : fs.IsName name := hisName name (by simp)
  have hlower : u.toLowerCase taskSpecExtension = taskSpecExtension :=
    (toLowerCase_eq_tsp_iff u _).mpr (by decide)
  -- a file with the extension added to some base
  have hadded : ∀ {g : File fs} {base : Text}, base ≠ [] →
      g.names = names ++ [base ++ '.' :: taskSpecExtension] →
      ∃ base ext, g.names = names ++ [base ++ '.' :: ext] ∧ IsSavedName u g.getName base ext := by
    intro g base hbase hg
    exact ⟨base, taskSpecExtension, hg, by simp [File.getName, hg], hbase, by decide, hlower⟩
  by_cases hext : getExtension u f = some taskSpecExtension
  · -- the name is left as it is
    obtain ⟨base, ext, hsaved⟩ := exists_isSavedName hext
    have hsame : correctFile u f = f := by
      unfold correctFile
      rw [if_neg (not_not.mpr hext)]
    rw [hsame]
    refine ⟨base, ext, ?_, hsaved⟩
    rw [hnames, ← hsaved.eq, hname]
  · by_cases hindex : 0 < lastIndexOf '.' name
    · -- the extension is replaced, or put behind a dot at the end
      have hbase : name.take (lastIndexOf '.' name).toNat ≠ [] := by
        rw [Ne, List.take_eq_nil_iff, not_or]
        exact ⟨by omega, hnameOk.1⟩
      refine hadded hbase ?_
      unfold correctFile
      simp only
      rw [if_pos hext, hname, if_pos hindex, hparent]
      refine File.ofPath_child hnamesOk (isName_append (fun hmem => ?_) (by decide))
      exact hnameOk.2 (List.mem_of_mem_take hmem)
    · -- no dot, or one in front only
      refine hadded hnameOk.1 ?_
      unfold correctFile
      simp only
      rw [if_pos hext, hname, if_neg hindex, hpath, FileSystem.pathOf_append]
      refine File.ofPath_pathOf fun n hn => ?_
      rcases List.mem_append.mp hn with hn | hn
      · exact hnamesOk n hn
      · rw [List.mem_singleton.mp hn]
        exact isName_append hnameOk.2 (by decide)

/-- The picture lies beside the specification. -/
theorem taskSpecMapPath_eq {u : Unicode} {f : File fs} {names : List Text} {base ext : Text}
    (hnames : (correctFile u f).names = names ++ [base ++ '.' :: ext]) (hlength : ext.length = 3) :
    (correctFile u f).getPath = fs.pathOf (names ++ [base]) ++ '.' :: ext ∧
      taskSpecMapPath u f = some (fs.pathOf (names ++ [base ++ '.' :: imageFormat])) := by
  have hpath : (correctFile u f).getPath = fs.pathOf (names ++ [base]) ++ '.' :: ext := by
    unfold File.getPath
    rw [hnames, FileSystem.pathOf_append]
  refine ⟨hpath, ?_⟩
  unfold taskSpecMapPath
  simp only [hpath]
  have hcut : substring (fs.pathOf (names ++ [base]) ++ '.' :: ext) 0
      ((fs.pathOf (names ++ [base]) ++ '.' :: ext).length - 4) =
        some (fs.pathOf (names ++ [base])) := by
    have hlength : ((fs.pathOf (names ++ [base]) ++ '.' :: ext).length : Int) - 4 =
        (fs.pathOf (names ++ [base])).length := by
      rw [List.length_append, List.length_cons, hlength]
      omega
    unfold substring
    rw [hlength, if_pos ⟨by omega, by omega, by rw [List.length_append]; omega⟩]
    simp
  rw [hcut, Option.map_some, FileSystem.pathOf_append]

/-- **Saved files.** For a file with a parent directory, and so with a name, the
    corrected file lies in the same directory, has the extension, is accepted
    and is not corrected again; and what the picture leaves out of its path is
    the dot and the extension, so that it has the same name in front of them. -/
theorem correctFile_saved (u : Unicode) (f : File fs) {dir : Text}
    (hparent : f.getParent = some dir) :
    (correctFile u f).getParent = some dir ∧
      getExtension u (correctFile u f) = some taskSpecExtension ∧
      accept u false (correctFile u f) = true ∧
      correctFile u (correctFile u f) = correctFile u f ∧
      ∃ base ext path, (correctFile u f).getName = base ++ '.' :: ext ∧
        u.toLowerCase ext = taskSpecExtension ∧
        (correctFile u f).getPath = path ++ '.' :: ext ∧
        taskSpecMapPath u f = some (path ++ '.' :: imageFormat) ∧
        (File.ofPath fs (path ++ '.' :: imageFormat)).getParent = some dir ∧
        (File.ofPath fs (path ++ '.' :: imageFormat)).getName = base ++ '.' :: imageFormat := by
  -- the names of the file
  have hne : f.names ≠ [] := by
    intro hnil
    rw [File.getParent, if_pos hnil] at hparent
    exact absurd hparent (by simp)
  have hnames := (List.dropLast_append_getLast hne).symm
  have hdir : fs.pathOf f.names.dropLast = dir := by
    rw [File.getParent, if_neg hne] at hparent
    exact Option.some.inj hparent
  -- those of the corrected file
  obtain ⟨base, ext, hcorrected, hsaved⟩ := correctFile_names u hnames
  have hext := hsaved.getExtension
  obtain ⟨hpath, hmap⟩ := taskSpecMapPath_eq hcorrected (length_of_toLowerCase hsaved.lower)
  have hpicture : (File.ofPath fs (fs.pathOf (f.names.dropLast ++ [base ++ '.' :: imageFormat]))).names =
      f.names.dropLast ++ [base ++ '.' :: imageFormat] := by
    refine File.ofPath_pathOf fun n hn => ?_
    rcases List.mem_append.mp hn with hn | hn
    · exact f.isName n (List.dropLast_subset _ hn)
    · rw [List.mem_singleton.mp hn]
      refine isName_append (fun hmem => ?_) (by decide)
      have hname := (correctFile u f).isName (base ++ '.' :: ext) (by rw [hcorrected]; simp)
      exact hname.2 (List.mem_append_left _ hmem)
  rw [← FileSystem.pathOf_append] at hpicture hmap
  refine ⟨?_, hext, ?_, ?_, base, ext, _, hsaved.eq, hsaved.lower, hpath, hmap, ?_, ?_⟩
  · simp [File.getParent, hcorrected, hdir]
  · simp [accept, hext]
  · rw [correctFile, if_neg (not_not.mpr hext)]
  · simp [File.getParent, hpicture, hdir]
  · simp [File.getName, hpicture]

theorem correctFile_saved_home :
    (File.ofPath unix "/home/task.v2.txt".toList).getParent = some "/home".toList ∧
      (correctFile ascii (File.ofPath unix "/home/task.v2.txt".toList)).getParent =
        some "/home".toList :=
  ⟨by decide, (correctFile_saved ascii (File.ofPath unix "/home/task.v2.txt".toList) (by decide)).1⟩

end RefereeBox
