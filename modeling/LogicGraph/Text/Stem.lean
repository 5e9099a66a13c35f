/-!
# What follows a stem

## Main definitions

* `LogicGraph.Text.afterStem?` — the rest of a text that starts with a stem.
* `LogicGraph.Text.cutAt` — a text cut at the first place of a character.

## Main results

* `LogicGraph.Text.afterStem?_eq_some_iff` — the rest is what the stem has to be followed by to give
  the text.
-/

namespace LogicGraph.Text

/-- The rest of a text that starts with a stem; the stem comes first. -/
def afterStem? : List Char → List Char → Option (List Char)
  | [], cs => some cs
  | _ :: _, [] => none
  | w :: ws, c :: cs => if w = c then afterStem? ws cs else none

/-- What comes after a stem is what is left when the stem is taken off. -/
theorem afterStem?_eq_some_iff {stem cs rest : List Char} :
    afterStem? stem cs = some rest ↔ cs = stem ++ rest := by
  induction stem generalizing cs with
  | nil => simp [afterStem?]
  | cons w ws ih =>
    cases cs with
    | nil => simp [afterStem?]
    | cons c cs =>
      by_cases h : w = c
      · simp [afterStem?, h, ih]
      · simp [afterStem?, h, Ne.symm h]

/-- A text cut at the first place of a character: what stands before it, and behind it if it is
there. -/
def cutAt (mark : Char) (cs : List Char) : List Char × Option (List Char) :=
  let before := cs.takeWhile (· ≠ mark)
  match cs.drop before.length with
  | [] => (cs, none)
  | _ :: rest => (before, some rest)

end LogicGraph.Text
