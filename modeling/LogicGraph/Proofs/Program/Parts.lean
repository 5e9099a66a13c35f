import LogicGraph.Proofs.Program.Print
import LogicGraph.Text.Stem

set_option relaxedAutoImplicit false
set_option autoImplicit false

/-!
# The parts of a body

A body is a tree: statements stand in it, and other statements stand in the bodies of its choices.
Here the tree is laid out flat, as the list of all statements at any depth, each with its depth.
Every line that is printed is a line of one of them, at the depth of that statement. What is to be
said about all lines can therefore be said about one statement after another.

## Main definitions

* `LogicGraph.Stmt.partsAll` — the statements of a body at any depth.
* `LogicGraph.Stmt.HasLine` — the lines of a statement itself, without those of the bodies in it.
* `LogicGraph.indentation` — how many spaces there are in front of a line.
* `LogicGraph.cycleName?` — the node that a line takes for the start of a cycle.

## Main results

* `LogicGraph.Stmt.lines_eq_printAll` — the lines of a body as they are printed.
* `LogicGraph.Stmt.exists_hasLine_of_mem_printAll` — every line belongs to a part.
* `LogicGraph.Stmt.mem_printAll_of_mem_partsAll` — the lines of every part are printed.
* `LogicGraph.Stmt.exists_part_of_mem_lines` — what a line says about depth and cycles is said by a
  part.
-/

namespace LogicGraph

open Text

mutual

/-- A statement with its depth, and all that stands in its bodies. -/
def Stmt.parts (d : Nat) : Stmt → List (Nat × Stmt)
  | .choose subject clauses otherwise =>
    (d, .choose subject clauses otherwise) ::
      (Stmt.partsOfClauses (d + 1) clauses ++ Stmt.partsAll (d + 1) otherwise)
  | s => [(d, s)]

/-- The statements of a body at any depth. -/
def Stmt.partsAll (d : Nat) : List Stmt → List (Nat × Stmt)
  | [] => []
  | s :: rest => s.parts d ++ Stmt.partsAll d rest

/-- The statements in the bodies of clauses at any depth. -/
def Stmt.partsOfClauses (d : Nat) : List (Literal × List Stmt) → List (Nat × Stmt)
  | [] => []
  | (_, body) :: rest => Stmt.partsAll d body ++ Stmt.partsOfClauses d rest

end

namespace Stmt

variable {d : Nat} {p : Nat × Stmt}

/-- The parts of a body are those of its statements. -/
lemma mem_partsAll {body : List Stmt} : p ∈ partsAll d body ↔ ∃ s ∈ body, p ∈ s.parts d := by
  induction body with
  | nil => simp [partsAll]
  | cons s rest ih => simp [partsAll, ih]

/-- The parts of clauses are those of their bodies. -/
lemma mem_partsOfClauses {clauses : List (Literal × List Stmt)} :
    p ∈ partsOfClauses d clauses ↔ ∃ c ∈ clauses, p ∈ partsAll d c.2 := by
  induction clauses with
  | nil => simp [partsOfClauses]
  | cons c rest ih => simp [partsOfClauses, ih]

/-- The parts of bodies one below the other. -/
lemma mem_partsAll_flatten {bodies : List (List Stmt)} :
    p ∈ partsAll d bodies.flatten ↔ ∃ body ∈ bodies, p ∈ partsAll d body := by
  simp only [mem_partsAll, List.mem_flatten]
  constructor
  · rintro ⟨s, ⟨body, hbody, hs⟩, hp⟩
    exact ⟨body, hbody, s, hs, hp⟩
  · rintro ⟨body, hbody, s, hs, hp⟩
    exact ⟨s, ⟨body, hbody, hs⟩, hp⟩

/-- A body that is not empty has the same parts, or a statement that does nothing if there were
none. -/
lemma mem_partsAll_orPass {body : List Stmt} :
    p ∈ partsAll d (orPass body) ↔ p ∈ partsAll d body ∨ body = [] ∧ p = (d, .pass none) := by
  unfold orPass
  split_ifs with h
  · rw [List.isEmpty_iff.mp h]
    simp [partsAll, parts]
  · rw [List.isEmpty_iff] at h
    simp [h]

/-- The parts of a choice. -/
lemma mem_parts_choose {subject : Expr} {clauses : List (Literal × List Stmt)}
    {otherwise : List Stmt} :
    p ∈ (Stmt.choose subject clauses otherwise).parts d ↔
      p = (d, .choose subject clauses otherwise) ∨ (∃ c ∈ clauses, p ∈ partsAll (d + 1) c.2) ∨
        p ∈ partsAll (d + 1) otherwise := by
  rw [parts, List.mem_cons, List.mem_append, mem_partsOfClauses]

/-! ## Lines -/

/-- The lines of a statement itself: of a choice only the heads of its clauses. -/
def HasLine (d : Nat) (line : String) : Stmt → Prop
  | .choose subject clauses _ =>
    (∃ c ∈ clauses, ∃ isFirst, line = indented d (clauseHead isFirst subject c.1)) ∨
    line = indented d "else:"
  | s => line ∈ s.print d

/-- The lines of a body as they are printed. -/
lemma lines_eq_printAll (d : Nat) (body : List Stmt) :
    Stmt.lines d body = Stmt.printAll d body := by
  have h := (Stmt.adds_writeAll (l := { depth := d }) (d := d) rfl body).1
  simpa [Stmt.lines] using h

mutual

/-- Every line of a statement belongs to one of its parts. -/
lemma exists_hasLine_of_mem_print {line : String} (d : Nat) (s : Stmt) (h : line ∈ s.print d) :
    ∃ p ∈ s.parts d, p.2.HasLine p.1 line := by
  cases s with
  | choose subject clauses otherwise =>
    rw [Stmt.print, List.mem_append, List.mem_cons] at h
    rcases h with h | h | h
    · rcases exists_hasLine_of_mem_printClauses d subject true clauses h with hhead | ⟨p, hp, hline⟩
      · exact ⟨_, mem_parts_choose.mpr (.inl rfl), .inl hhead⟩
      · exact ⟨p, mem_parts_choose.mpr (.inr (.inl (mem_partsOfClauses.mp hp))), hline⟩
    · exact ⟨_, mem_parts_choose.mpr (.inl rfl), .inr h⟩
    · obtain ⟨p, hp, hline⟩ := exists_hasLine_of_mem_printAll (d + 1) otherwise h
      exact ⟨p, mem_parts_choose.mpr (.inr (.inr hp)), hline⟩
  | comment | docstring | assign | increment | pass | returnState | returnObservation | returnReset
  | reward | returnStep =>
    exact ⟨(d, _), List.mem_singleton.mpr rfl, h⟩

/-- Every line of a body belongs to one of its parts. -/
lemma exists_hasLine_of_mem_printAll {line : String} (d : Nat) (body : List Stmt)
    (h : line ∈ Stmt.printAll d body) :
    ∃ p ∈ partsAll d body, p.2.HasLine p.1 line := by
  match body with
  | [] => exact absurd h List.not_mem_nil
  | s :: rest =>
    rw [Stmt.printAll, List.mem_append] at h
    rw [partsAll]
    rcases h with h | h
    · obtain ⟨p, hp, hline⟩ := exists_hasLine_of_mem_print d s h
      exact ⟨p, List.mem_append_left _ hp, hline⟩
    · obtain ⟨p, hp, hline⟩ := exists_hasLine_of_mem_printAll d rest h
      exact ⟨p, List.mem_append_right _ hp, hline⟩

/-- Every line of clauses is a head, or belongs to a part of a body. -/
lemma exists_hasLine_of_mem_printClauses {line : String} (d : Nat) (subject : Expr) (isFirst : Bool)
    (clauses : List (Literal × List Stmt))
    (h : line ∈ Stmt.printClauses d subject isFirst clauses) :
    (∃ c ∈ clauses, ∃ isFirst, line = indented d (clauseHead isFirst subject c.1)) ∨
      ∃ p ∈ partsOfClauses (d + 1) clauses, p.2.HasLine p.1 line := by
  match clauses with
  | [] => exact absurd h List.not_mem_nil
  | (lit, body) :: rest =>
    rw [Stmt.printClauses, List.mem_cons, List.mem_append] at h
    rw [partsOfClauses]
    rcases h with h | h | h
    · exact .inl ⟨_, List.mem_cons_self, isFirst, h⟩
    · obtain ⟨p, hp, hline⟩ := exists_hasLine_of_mem_printAll (d + 1) body h
      exact .inr ⟨p, List.mem_append_left _ hp, hline⟩
    · rcases exists_hasLine_of_mem_printClauses d subject false rest h with
        ⟨c, hc, hhead⟩ | ⟨p, hp, hline⟩
      · exact .inl ⟨c, List.mem_cons_of_mem _ hc, hhead⟩
      · exact .inr ⟨p, List.mem_append_right _ hp, hline⟩

end

mutual

/-- The lines of every part of a statement are printed. -/
lemma mem_print_of_mem_parts {line : String} (d : Nat) (s : Stmt) {p : Nat × Stmt}
    (hp : p ∈ s.parts d) (h : line ∈ p.2.print p.1) : line ∈ s.print d := by
  cases s with
  | choose subject clauses otherwise =>
    rw [parts, List.mem_cons, List.mem_append] at hp
    rcases hp with rfl | hp | hp
    · exact h
    · rw [Stmt.print]
      exact List.mem_append_left _ (mem_printClauses_of_mem_parts d subject true clauses hp h)
    · rw [Stmt.print]
      exact List.mem_append_right _
        (List.mem_cons_of_mem _ (mem_printAll_of_mem_partsAll (d + 1) otherwise hp h))
  | comment | docstring | assign | increment | pass | returnState | returnObservation | returnReset
  | reward | returnStep =>
    obtain rfl := List.mem_singleton.mp hp
    exact h

/-- The lines of every part of a body are printed. -/
lemma mem_printAll_of_mem_partsAll {line : String} (d : Nat) (body : List Stmt) {p : Nat × Stmt}
    (hp : p ∈ partsAll d body) (h : line ∈ p.2.print p.1) : line ∈ Stmt.printAll d body := by
  match body with
  | [] => exact absurd hp List.not_mem_nil
  | s :: rest =>
    rw [partsAll, List.mem_append] at hp
    rw [Stmt.printAll]
    rcases hp with hp | hp
    · exact List.mem_append_left _ (mem_print_of_mem_parts d s hp h)
    · exact List.mem_append_right _ (mem_printAll_of_mem_partsAll d rest hp h)

/-- The lines of every part of a clause are printed. -/
lemma mem_printClauses_of_mem_parts {line : String} (d : Nat) (subject : Expr) (isFirst : Bool)
    (clauses : List (Literal × List Stmt)) {p : Nat × Stmt}
    (hp : p ∈ partsOfClauses (d + 1) clauses) (h : line ∈ p.2.print p.1) :
    line ∈ Stmt.printClauses d subject isFirst clauses := by
  match clauses with
  | [] => exact absurd hp List.not_mem_nil
  | (lit, body) :: rest =>
    rw [partsOfClauses, List.mem_append] at hp
    rw [Stmt.printClauses]
    rcases hp with hp | hp
    · exact List.mem_cons_of_mem _
        (List.mem_append_left _ (mem_printAll_of_mem_partsAll (d + 1) body hp h))
    · exact List.mem_cons_of_mem _
        (List.mem_append_right _ (mem_printClauses_of_mem_parts d subject false rest hp h))

end

end Stmt

/-! ## Reading lines -/

/-- How many spaces there are in front of a line. -/
def indentation (line : String) : Nat :=
  (line.toList.takeWhile (· == ' ')).length

/-- The node that a line takes for the start of a cycle: behind white space stand a statement that
does nothing and a remark with the name of the node. -/
def cycleName? (line : String) : Option String :=
  (afterStem? "pass  # cycle: ".toList (line.toList.dropWhile (· == ' '))).map String.ofList

/-- A line has four spaces for each level in front of it, and those that it starts with itself. -/
lemma indentation_indented (d : Nat) (s : String) :
    indentation (indented d s) = 4 * d + indentation s := by
  have htake : (indented d s).toList.takeWhile (· == ' ') =
      List.replicate (4 * d) ' ' ++ s.toList.takeWhile (· == ' ') := by
    rw [indented, String.toList_append, String.toList_ofList]
    exact List.takeWhile_append_of_pos fun c hc => by simp [List.eq_of_mem_replicate hc]
  rw [indentation, htake, List.length_append, List.length_replicate, indentation]

/-- A line names the same node at every depth. -/
lemma cycleName?_indented (d : Nat) (s : String) : cycleName? (indented d s) = cycleName? s := by
  rw [cycleName?, cycleName?, dropWhile_indented]

/-- A text that does not start with a space is not indented. -/
lemma indentation_eq_zero {s : String} {c : Char} {cs : List Char} (hs : s.toList = c :: cs)
    (hc : c ≠ ' ') :
    indentation s = 0 := by
  rw [indentation, hs, List.takeWhile_cons_of_neg (by simpa using hc), List.length_nil]

/-- A text that starts with neither a space nor the statement that does nothing names no node. -/
lemma cycleName?_eq_none {s : String} {c : Char} {cs : List Char} (hs : s.toList = c :: cs)
    (hspace : c ≠ ' ') (hpass : c ≠ 'p') : cycleName? s = none := by
  rw [cycleName?, hs, List.dropWhile_cons_of_neg (by simpa using hspace), Option.map_eq_none_iff]
  exact if_neg (Ne.symm hpass)

/-- The remark about a cycle names its node. -/
lemma cycleName?_remark (name : String) : cycleName? ("pass  # cycle: " ++ name) = some name := by
  have hstem : afterStem? "pass  # cycle: ".toList
      (("pass  # cycle: " ++ name).toList.dropWhile (· == ' ')) =
      some name.toList := by
    rw [afterStem?_eq_some_iff, String.toList_append]
    rfl
  rw [cycleName?, hstem, Option.map_some, String.ofList_toList]

namespace Stmt

/-- Whether a statement is one that carries out a node: it assigns, chooses or does nothing. -/
def carriesOut : Stmt → Bool
  | .assign _ _ _ | .pass _ | .choose _ _ _ => true
  | _ => false

/-- The node that a statement takes for the start of a cycle. -/
def cycle? : Stmt → Option String
  | .pass cycle => cycle
  | _ => none

/-- The lines of a statement that carries out a node are texts at its depth, which do not start with
a space and name the node that the statement does. -/
lemma HasLine.exists_text {d : Nat} {line : String} {s : Stmt} (h : s.HasLine d line)
    (hs : s.carriesOut = true) :
    ∃ text, line = indented d text ∧ indentation text = 0 ∧ cycleName? text = s.cycle? := by
  cases s with
  | assign name rhs remark =>
    have htext : (assignText name rhs remark).toList =
        's' :: (assignText name rhs remark).toList.tail := by
      simp [assignText, variableText]
    exact ⟨_, List.mem_singleton.mp h, indentation_eq_zero htext (by decide),
      cycleName?_eq_none htext (by decide) (by decide)⟩
  | pass cycle =>
    cases cycle with
    | none => exact ⟨"pass", List.mem_singleton.mp h, by decide, by decide⟩
    | some name =>
      have htext : ("pass  # cycle: " ++ name).toList =
          'p' :: ("ass  # cycle: " ++ name).toList := by simp
      exact ⟨_, List.mem_singleton.mp h, indentation_eq_zero htext (by decide),
        cycleName?_remark name⟩
  | choose subject clauses otherwise =>
    rcases h with ⟨c, -, isFirst, rfl⟩ | rfl
    · refine ⟨_, rfl, ?_⟩
      cases isFirst with
      | true =>
        have htext : (clauseHead true subject c.1).toList =
            'i' :: (clauseHead true subject c.1).toList.tail := by
          simp [clauseHead]
        exact ⟨indentation_eq_zero htext (by decide),
          cycleName?_eq_none htext (by decide) (by decide)⟩
      | false =>
        have htext : (clauseHead false subject c.1).toList =
            'e' :: (clauseHead false subject c.1).toList.tail := by
          simp [clauseHead]
        exact ⟨indentation_eq_zero htext (by decide),
          cycleName?_eq_none htext (by decide) (by decide)⟩
    · exact ⟨"else:", rfl, by decide, show cycleName? "else:" = none by decide⟩
  | comment | docstring | increment | returnState | returnObservation | returnReset | reward
  | returnStep => cases hs

/-- The lines of a statement that carries out a node stand at its depth. -/
lemma HasLine.indentation_eq {d : Nat} {line : String} {s : Stmt} (h : s.HasLine d line)
    (hs : s.carriesOut = true) :
    indentation line = 4 * d := by
  obtain ⟨text, rfl, hzero, -⟩ := h.exists_text hs
  rw [indentation_indented, hzero, Nat.add_zero]

/-- The lines of a statement that carries out a node name the start of a cycle if the statement
does. -/
lemma HasLine.cycleName?_eq {d : Nat} {line : String} {s : Stmt} (h : s.HasLine d line)
    (hs : s.carriesOut = true) :
    cycleName? line = s.cycle? := by
  obtain ⟨text, rfl, -, hname⟩ := h.exists_text hs
  rw [cycleName?_indented, hname]

/-- **Every line of a body that carries out nodes** stands at the depth of some part, and names the
start of a cycle if that part does. -/
lemma exists_part_of_mem_lines {d : Nat} {body : List Stmt} {line : String}
    (hbody : ∀ p ∈ partsAll d body, p.2.carriesOut = true) (h : line ∈ Stmt.lines d body) :
    ∃ p ∈ partsAll d body, indentation line = 4 * p.1 ∧ cycleName? line = p.2.cycle? := by
  rw [lines_eq_printAll] at h
  obtain ⟨p, hp, hline⟩ := exists_hasLine_of_mem_printAll d body h
  exact ⟨p, hp, hline.indentation_eq (hbody p hp), hline.cycleName?_eq (hbody p hp)⟩

/-- A part that names the start of a cycle has a line that does so. -/
lemma exists_line_of_mem_parts {d e : Nat} {body : List Stmt} {name : String}
    (h : (e, Stmt.pass (some name)) ∈ partsAll d body) :
    ∃ line ∈ Stmt.lines d body, cycleName? line = some name := by
  have hline : indented e ("pass  # cycle: " ++ name) ∈ Stmt.printAll d body :=
    mem_printAll_of_mem_partsAll d body h (List.mem_singleton.mpr rfl)
  rw [← lines_eq_printAll] at hline
  exact ⟨_, hline, by rw [cycleName?_indented, cycleName?_remark]⟩

end Stmt

end LogicGraph
