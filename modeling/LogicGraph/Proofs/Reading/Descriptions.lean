import LogicGraph.Proofs.Emission.ShownTexts
import LogicGraph.Proofs.Reading.TextLiteral

set_option relaxedAutoImplicit false
set_option autoImplicit false

/-!
# Reading descriptions

The method of a trigger starts with its description, a text literal in triple quotes that shows what
the user calls the trigger. Whatever the user wrote, the literal ends with its closing quotes and
denotes the name of the trigger, folded onto one line and with single quotes in place of double
ones.

## Main definitions

* `LogicGraph.Text.described` — what is written for a character in a description.
* `LogicGraph.Text.singleQuoted` — what is read of it.
* `LogicGraph.Node.description` — the text that the description of a trigger denotes.

## Main results

* `LogicGraph.Text.textFrom?_described_append` — what is written for a character is read as that
  character, or as a single quote.
* `LogicGraph.Text.textLiteral?_description` — a description is read up to its closing quotes.
* `LogicGraph.Target.description_denotes_displayName` — the second line of the method of a trigger
  is its description.

## Design

A description has no double quote, so that its closing quotes can only be the last three characters,
unless a backslash takes the first of them away. Backslashes come in pairs, and a pair is an escape
sequence that stands for one backslash; so no other sequence can start, whatever letters follow.
-/

namespace LogicGraph

namespace Text

/-- What is written for a character in a description. -/
def described (c : Char) : List Char :=
  if c = '\\' then ['\\', '\\'] else if c = '"' then ['\''] else [c]

/-- What is read of a character in a description: the single quote stands for the double one as
well. -/
def singleQuoted (c : Char) : Char :=
  if c = '"' then '\'' else c

/-- A text in a description, character by character. -/
lemma toList_docstringText (s : String) :
    (docstringText s).toList = (oneLine s).toList.flatMap described := by
  rw [docstringText, String.toList_ofList]
  rfl

/-- **What is written for a character in a description is read as that character**, the double quote
apart. A character that ends a line, or that the language does not have, cannot be read at all. -/
lemma textFrom?_described_append {c : Char} (hc : c ∉ ['\x00', '\r', '\n']) (rest : List Char) :
    textFrom? '"' true 0 (described c ++ rest) =
      (textFrom? '"' true 0 rest).map (inFront [singleQuoted c]) := by
  have hpair : ∀ rest, escapeSequence? (['\\'] ++ rest) = some (['\\'], rest) := fun rest => rfl
  by_cases hback : c = '\\'
  · subst hback
    exact textFrom?_backslash (by decide) hpair rest
  · by_cases hquote : c = '"'
    · subst hquote
      exact textFrom?_cons (by decide) (by decide) rest
    · rw [described, if_neg hback, if_neg hquote, singleQuoted, if_neg hquote,
        List.singleton_append]
      exact textFrom?_cons hquote (by simpa [hback] using hc) rest

/-- The characters of a description are read up to the closing quotes. -/
lemma textFrom?_flatMap_described {cs : List Char} (hcs : ∀ c ∈ cs, c ∉ ['\x00', '\r', '\n'])
    (rest : List Char) :
    textFrom? '"' true 0 (cs.flatMap described ++ ("\"\"\"".toList ++ rest)) =
      some (cs.map singleQuoted, rest) := by
  induction cs with
  | nil => simp [textFrom?, closingQuotes, afterStem?]
  | cons c cs ih =>
    obtain ⟨hc, hcs⟩ := List.forall_mem_cons.mp hcs
    rw [List.flatMap_cons, List.append_assoc, textFrom?_described_append hc, ih hcs]
    rfl

/-- A text that has been folded onto one line has no line ends. If it had no null character before,
then it has none now. -/
lemma not_mem_of_mem_oneLine {s : String} (hs : '\x00' ∉ s.toList) :
    ∀ c ∈ (oneLine s).toList, c ∉ ['\x00', '\r', '\n'] := by
  intro c hc hmem
  simp only [List.mem_cons, List.not_mem_nil, or_false] at hmem
  rcases hmem with rfl | rfl | rfl
  · exact hs ((mem_oneLine_iff (by decide)).mp hc)
  · exact not_mem_oneLine_of_isBlank (by decide) (by decide) hc
  · exact not_mem_oneLine_of_isBlank (by decide) (by decide) hc

/-- **A description is read up to its closing quotes**, and nothing behind them is read. It denotes
the fixed words and the text on one line, with single quotes for double ones. -/
lemma textLiteral?_description {s : String} (hs : '\x00' ∉ s.toList) (rest : List Char) :
    textLiteral?
      (("\"\"\"" ++ ("Logic triggered by " ++ docstringText s) ++ "\"\"\"").toList ++ rest) =
      some ("Logic triggered by ".toList ++ (oneLine s).toList.map singleQuoted, rest) := by
  have hwritten : "Logic triggered by ".toList.flatMap described =
      "Logic triggered by ".toList := by decide
  have hsame : "Logic triggered by ".toList.map singleQuoted = "Logic triggered by ".toList := by
    decide
  have hwords : ∀ c ∈ "Logic triggered by ".toList, c ∉ ['\x00', '\r', '\n'] := by decide
  have hread :=
    textFrom?_flatMap_described (List.forall_mem_append.mpr ⟨hwords, not_mem_of_mem_oneLine hs⟩)
      rest
  rw [List.flatMap_append, List.map_append, hwritten, hsame, ← toList_docstringText] at hread
  simp only [String.toList_append, List.append_assoc] at hread ⊢
  exact hread

end Text

open Text

/-- The text that the description of a trigger denotes. -/
def Node.description (n : Node) : List Char :=
  "Logic triggered by ".toList ++ (oneLine n.displayName).toList.map singleQuoted

namespace Target

/-- Every trigger has a method, which is made from the trigger and what it leads to. -/
lemma exists_toMethod_mem_methods {limit : Nat} {g : Graph} {p : Program}
    (h : (Target.event.program limit g).outcome = .ok p) {n : Node} (hn : n ∈ g.nodes)
    (htrigger : n.kind.isTrigger = true) :
    ∃ body, EntryPoint.toMethod ⟨n, triggerMethod (Target.event.nameOf g n), body⟩ ∈ p.methods := by
  have hmem : n ∈ g.nodesOf [.action, .nav] := by
    refine List.mem_filter.mpr ⟨hn, ?_⟩
    revert htrigger
    cases n.kind <;> decide
  simp only [program, eventProgram, Audited.outcome_bind_eq_ok, Audited.outcome_pure,
    Except.ok.injEq] at h
  obtain ⟨-, -, initial, -, entries, hentries, -, -, rfl⟩ := h
  obtain ⟨e, he, hentry⟩ := Audited.exists_mem_mapList hentries hmem
  simp only [Scope.entryPoint, Audited.outcome_bind_eq_ok, Audited.outcome_pure,
    Except.ok.injEq] at hentry
  obtain ⟨body, -, rfl⟩ := hentry
  exact ⟨body, List.mem_cons_of_mem _ (List.mem_map_of_mem he)⟩

/-- **The description of a trigger denotes its name.** Every trigger of an event program has a
method whose second line, behind the white space in front of it, is a text in triple quotes. If no
null character is in what the user calls the trigger, then the language reads this line from the
opening quotes up to the last three characters, and what it reads is the fixed words and the name on
one line, with single quotes for double ones. -/
theorem description_denotes_displayName (limit : Nat) (g : Graph) (p : Program)
    (h : (Target.event.program limit g).outcome = .ok p) :
    p.text = unlines (Target.event.print g.name p.constructor p.methods) ∧
    ∀ n ∈ g.nodes, n.kind.isTrigger = true → '\x00' ∉ n.displayName.toList →
      ∃ m ∈ p.methods, m.name = triggerMethod (Target.event.nameOf g n) ∧
        ∃ written body, m.print = indented 1 m.head ::
          indented 2 ("\"\"\"" ++ written ++ "\"\"\"") :: body ∧
          ∀ rest, textLiteral? (("\"\"\"" ++ written ++ "\"\"\"").toList ++ rest) =
            some (n.description, rest) := by
  refine ⟨by rw [p.text_eq_unlines_print, print_program h], ?_⟩
  intro n hn htrigger hnull
  obtain ⟨body, hm⟩ := exists_toMethod_mem_methods h hn htrigger
  refine ⟨_, hm, rfl, "Logic triggered by " ++ docstringText n.displayName, Stmt.printAll 2 body,
    rfl, ?_⟩
  exact textLiteral?_description hnull

/-- A trigger whose name tries to leave its description and ends with a backslash, and one whose
label is over two lines and starts escape sequences. -/
def hostileTriggers : Graph where
  nodes := [
    { id := "a", kind := .action, customName := some "\"\"\" + evil() #\\" },
    { id := "b", kind := .nav, label := "\\N\x7bx\x7d\\\n\t\\x0 \" \\\\\"" }]
  nodes_nodup := by simp

/-- Both descriptions of `hostileTriggers` are read to their ends. -/
theorem description_hostileTriggers :
    ∃ p, (Target.event.program 2 hostileTriggers).outcome = .ok p ∧
    ∀ n ∈ hostileTriggers.nodes, n.kind.isTrigger = true ∧ '\x00' ∉ n.displayName.toList ∧
      ∃ m ∈ p.methods, m.name = triggerMethod (Target.event.nameOf hostileTriggers n) ∧
        ∃ written body, m.print = indented 1 m.head ::
          indented 2 ("\"\"\"" ++ written ++ "\"\"\"") :: body ∧
          ∀ rest, textLiteral? (("\"\"\"" ++ written ++ "\"\"\"").toList ++ rest) =
            some (n.description, rest) := by
  have hnodes : ∀ n ∈ hostileTriggers.nodes, n.kind.isTrigger = true ∧
      '\x00' ∉ n.displayName.toList := by decide
  refine ⟨_, rfl, fun n hn => ⟨(hnodes n hn).1, (hnodes n hn).2, ?_⟩⟩
  exact (description_denotes_displayName 2 hostileTriggers _ rfl).2 n hn (hnodes n hn).1
    (hnodes n hn).2

end Target

end LogicGraph
