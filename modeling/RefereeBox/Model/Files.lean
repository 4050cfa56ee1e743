import RefereeBox.Java.File
import RefereeBox.Java.Scanner

/-! # The Files of a Specification

  `Utils` and `TspFilter` of the view, and the name that `Map` gives the
  picture it saves beside the specification.
-/

namespace RefereeBox

open Java

variable {fs : FileSystem}

def taskSpecExtension : Text := "tsp".toList

def imageFormat : Text := "png".toList

/-- `Utils.getExtension(f)`; `none` is null. -/
def getExtension (u : Unicode) (f : File fs) : Option Text :=
  let s := f.getName
  let i := lastIndexOf '.' s
  if 0 < i ∧ i < s.length - 1 then some (u.toLowerCase (s.drop (i + 1).toNat)) else none

/-- `Utils.correctFile(file)`, with which a name is saved. -/
def correctFile (u : Unicode) (file : File fs) : File fs :=
  if getExtension u file ≠ some taskSpecExtension then
    let s := file.getName
    let i := lastIndexOf '.' s
    if 0 < i then
      File.ofPath fs (file.getParent.getD "null".toList ++ fs.separatorChar ::
        (s.take i.toNat ++ '.' :: taskSpecExtension))
    else File.ofPath fs (file.getAbsolutePath ++ '.' :: taskSpecExtension)
  else file

/-- `TspFilter.accept(f)`. -/
def accept (u : Unicode) (isDirectory : Bool) (f : File fs) : Bool :=
  isDirectory ||
    match getExtension u f with
    | some extension => extension = taskSpecExtension
    | none => false

/-- The path that `Map.saveTaskSpecMap(file, ..)` writes to; `none` is the
    exception of `substring`. -/
def taskSpecMapPath (u : Unicode) (file : File fs) : Option Text :=
  let path := (correctFile u file).getPath
  (substring path 0 (path.length - 4)).map fun s => s ++ '.' :: imageFormat

end RefereeBox
