import LogicGraph.Text.CodeRange

/-!
# Blank characters

Blank characters separate words and pad values. The class is wider than the ASCII one: it holds the
information separators, the next-line control and every space of the general punctuation block, but
neither the zero-width space nor the byte order mark.

## Main definitions

* `LogicGraph.Text.isBlank` — the class.
* `LogicGraph.Text.trim` — a text without the blanks at its two ends.
* `LogicGraph.Text.words` — the maximal runs of characters that are not blank.
* `LogicGraph.Text.oneLine` — the words of a text with one space between two of them.

## Main results

* `LogicGraph.Text.not_isBlank_of_mem_words` — a word holds no blank.
* `LogicGraph.Text.not_mem_oneLine_of_isBlank` — of all blanks, only the space is left in `oneLine`,
  so a text folded this way stays on its line.
-/

namespace LogicGraph.Text

/-- The ranges of blank characters. -/
def blankRanges : List CodeRange :=
  [⟨0x09, 0x0D⟩, ⟨0x1C, 0x20⟩, ⟨0x85, 0x85⟩, ⟨0xA0, 0xA0⟩, ⟨0x1680, 0x1680⟩, ⟨0x2000, 0x200A⟩,
   ⟨0x2028, 0x2029⟩, ⟨0x202F, 0x202F⟩, ⟨0x205F, 0x205F⟩, ⟨0x3000, 0x3000⟩]

/-- Whether a character is blank. -/
def isBlank (c : Char) : Bool :=
  CodeRange.cover blankRanges c

/-- The characters without the blanks in front. -/
def trimLeft (cs : List Char) : List Char :=
  cs.dropWhile isBlank

/-- The characters without the blanks at the end. -/
def trimRight (cs : List Char) : List Char :=
  (cs.reverse.dropWhile isBlank).reverse

/-- The characters without the blanks at either end. -/
def trim (cs : List Char) : List Char :=
  trimRight (trimLeft cs)

/-- The words of a text, in order: its maximal runs of characters that are not blank. -/
def words (cs : List Char) : List (List Char) :=
  (cs.splitOnP isBlank).filter (!·.isEmpty)

/-- A text on one line: its words with one space between two of them. -/
def oneLine (s : String) : String :=
  String.ofList ([' '].intercalate (words s.toList))

/-- The parts of a text split at its blanks hold no blank. -/
theorem not_isBlank_of_mem_splitOnP {cs part : List Char} (h : part ∈ cs.splitOnP isBlank)
    {c : Char} (hc : c ∈ part) : isBlank c = false := by
  induction cs generalizing part with
  | nil => simp_all
  | cons x xs ih =>
    rw [List.splitOnP_cons_eq_if_modifyHead] at h
    split at h
    · rcases List.mem_cons.mp h with rfl | h
      · simp at hc
      · exact ih h hc
    · rename_i hx
      cases hs : xs.splitOnP isBlank with
      | nil => simp [hs] at h
      | cons p ps =>
        rw [hs, List.modifyHead_cons] at h
        rcases List.mem_cons.mp h with rfl | h
        · rcases List.mem_cons.mp hc with rfl | hc
          · simpa using hx
          · exact ih (hs ▸ List.mem_cons_self) hc
        · exact ih (hs ▸ List.mem_cons_of_mem _ h) hc

/-- The words of a text have no blank in them. -/
theorem not_isBlank_of_mem_words {cs w : List Char} (h : w ∈ words cs) {c : Char} (hc : c ∈ w) :
    isBlank c = false :=
  not_isBlank_of_mem_splitOnP (List.mem_filter.mp h).1 hc

/-- A line has no blank in it but the space. -/
theorem not_mem_oneLine_of_isBlank {s : String} {c : Char} (hb : isBlank c = true)
    (hs : c ≠ ' ') : c ∉ (oneLine s).toList := by
  rw [oneLine, String.toList_ofList]
  intro hc
  obtain ⟨w, hw, hcw⟩ : ∃ w, (w = [' '] ∨ w ∈ words s.toList) ∧ c ∈ w := by
    revert hc
    generalize words s.toList = ws
    induction ws with
    | nil => simp [List.intercalate]
    | cons w ws ih =>
      intro hc
      cases ws with
      | nil => exact ⟨w, .inr (by simp), by simpa [List.intercalate] using hc⟩
      | cons v vs =>
        simp only [List.intercalate, List.intersperse_cons_cons, List.flatten_cons,
          List.mem_append] at hc
        rcases hc with hc | hc | hc
        · exact ⟨w, .inr (by simp), hc⟩
        · exact ⟨_, .inl rfl, hc⟩
        · obtain ⟨u, hu, hcu⟩ := ih hc
          exact ⟨u, hu.imp id (List.mem_cons_of_mem _), hcu⟩
  rcases hw with rfl | hw
  · exact hs (by simpa using hcw)
  · simp [not_isBlank_of_mem_words hw hcw] at hb

end LogicGraph.Text
