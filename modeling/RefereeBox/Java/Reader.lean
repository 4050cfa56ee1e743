import RefereeBox.Java

/-! # `java.io.BufferedReader`

  Reading a file line by line. A line feed, a carriage return, or a carriage
  return with a line feed behind it ends a line; what stands behind the last
  of them is a line too, unless it is empty.
-/

namespace RefereeBox

namespace Java

/-- The lines that `readLine` returns, one after the other. -/
def readLines : Text → List Text
  | [] => []
  | '\r' :: '\n' :: s => [] :: readLines s
  | c :: s =>
    if c = '\n' ∨ c = '\r' then [] :: readLines s
    else
      match readLines s with
      | [] => [[c]]
      | line :: lines => (c :: line) :: lines

/-- A text without line ends. -/
def OneLine (s : Text) : Prop := '\n' ∉ s ∧ '\r' ∉ s

instance (s : Text) : Decidable (OneLine s) := inferInstanceAs (Decidable (_ ∧ _))

theorem readLines_newline (s : Text) : readLines ('\n' :: s) = [] :: readLines s := by
  rw [readLines.eq_def]
  simp

theorem readLines_cons {c : Char} (hn : c ≠ '\n') (hr : c ≠ '\r') {s line : Text} {lines : List Text}
    (hs : readLines s = line :: lines) : readLines (c :: s) = (c :: line) :: lines := by
  rw [readLines.eq_def]
  simp [hn, hr, hs]

/-- A line with its end in front of the rest of the file. -/
theorem readLines_line {line : Text} (h : OneLine line) (s : Text) :
    readLines (line ++ '\n' :: s) = line :: readLines s := by
  obtain ⟨hn, hr⟩ := h
  induction line with
  | nil => exact readLines_newline s
  | cons c line ih =>
    obtain ⟨hcn, hn⟩ := List.ne_and_not_mem_of_not_mem_cons hn
    obtain ⟨hcr, hr⟩ := List.ne_and_not_mem_of_not_mem_cons hr
    exact readLines_cons (Ne.symm hcn) (Ne.symm hcr) (ih hn hr)

/-- A file of lines with their ends is read as these lines. -/
theorem readLines_lines {lines : List Text} (h : ∀ line ∈ lines, OneLine line) :
    readLines (lines.flatMap fun line => line ++ ['\n']) = lines := by
  induction lines with
  | nil => rfl
  | cons line lines ih =>
    have hline := h line List.mem_cons_self
    have hlines := ih fun l hl => h l (List.mem_cons_of_mem line hl)
    rw [List.flatMap_cons, List.append_assoc, List.singleton_append, readLines_line hline, hlines]

end Java

end RefereeBox
