import LogicGraph.Proofs.Document.Loadable
import LogicGraph.Proofs.Emission.ShownTexts
import LogicGraph.Proofs.Number.Numeral

set_option relaxedAutoImplicit false
set_option autoImplicit false

/-!
# How compiling ends

Compiling puts a program together and then has its text read, and reports what it meets on the way.
This module says how it ends, without the notices, on every machine. It should end with the whole
text of the program, or with an error that says that the graph is nested too deeply or that the text
is not accepted. There are three more ways for a graph that has been loaded: the first value of a
variable may have an integer that is too long to be written, a text that the program shows may hold
a null character, and the reader of the generated language may give out.

## Main definitions

* `LogicGraph.Machine.acceptance` — how the reading of a program text ends.
* `LogicGraph.Machine.FindsNull` — a machine whose reader is particular about null characters.
* `LogicGraph.Graph.EndsProperly` — compiling ends in one of the ways in which it should.

## Main results

* `LogicGraph.Machine.outcome_compile` — compiling ends as the program that is put together does, or
  as the reading of its text.
* `LogicGraph.Graph.endsProperly_iff` — when compiling ends in one of the ways in which it should,
  and how it ends otherwise.
-/

namespace LogicGraph

/-! ## Machines -/

namespace Machine

variable {ε : Type}

/-- How the reading of a program text ends: with the text as it is, or with a failure. -/
def acceptance (m : Machine ε) (source : String) : Except (Failure ε) String :=
  match m.readSource source with
  | .accepted => .ok source
  | .fault .nullCharacter => .error .nullInSource
  | .fault f => .error (.compile (.rejected f))
  | .tooDeep => .error (.compile .tooDeep)
  | .broken x => .error (.machine x)

/-- A text is given out as its reading ends. -/
lemma outcome_accept (m : Machine ε) (g : Graph) (t : Target) (source : String) :
    (m.accept g t source).outcome = m.acceptance source := by
  unfold accept acceptance
  cases m.readSource source with
  | accepted => rfl
  | fault f => cases f <;> rfl
  | tooDeep => rfl
  | broken x => rfl

/-- **How compiling ends.** A program that is put together is read, and what keeps it from being put
together is what compiling fails with. -/
lemma outcome_compile (m : Machine ε) (g : Graph) (t : Target) :
    (m.compile g t).outcome =
      match (t.program m.depthLimit g).outcome with
      | .ok p => m.acceptance p.text
      | .error .tooDeep => .error (.compile .tooDeep)
      | .error .longInteger => .error .longInteger := by
  unfold compile
  cases hbuilt : (t.program m.depthLimit g).outcome with
  | ok p =>
    simp only [hbuilt, Audited.outcome_bind, Audited.outcome_report]
    exact m.outcome_accept g t p.text
  | error e =>
    simp only [hbuilt]
    cases e <;> rfl

/-- Asking for a target by its name is compiling for it. -/
lemma compileFor_name (m : Machine ε) (g : Graph) (t : Target) :
    m.compileFor g (.string t.name) = m.compile g t := by
  cases t <;> rfl

/-- How a source is compiled: its graph is loaded and compiled, and an invalid value is the fault of
the graph. -/
lemma outcome_compileSource (m : Machine ε) (t : FileTree) (strict : Bool) (source : GraphSource)
    (requested : Json) :
    (m.compileSource t strict source requested).outcome =
      match (m.load t strict source).outcome with
      | .ok g => (m.compileFor g requested).outcome
      | .error e =>
          .error (if e.isInvalidValue then .compile (.invalidGraph e.message) else e) := by
  simp only [compileSource, blameGraph, Audited.outcome_bind, Audited.mapError]
  cases (m.load t strict source).outcome <;> rfl

/-- A source is compiled to a text if its graph is loaded and compiled to it. -/
lemma outcome_compileSource_eq_ok {m : Machine ε} {t : FileTree} {strict : Bool}
    {source : GraphSource} {requested : Json} {text : String} :
    (m.compileSource t strict source requested).outcome = .ok text ↔
      ∃ g, (m.load t strict source).outcome = .ok g ∧
        (m.compileFor g requested).outcome = .ok text := by
  rw [outcome_compileSource]
  cases (m.load t strict source).outcome <;> simp

/-- The reader of a machine refuses a text over a null character exactly if there is one in it. -/
def FindsNull (m : Machine ε) : Prop :=
  ∀ source, m.readSource source = .fault .nullCharacter ↔ '\x00' ∈ source.toList

/-- How the reading of a text ends: a null character is a failure of its own, what else is not
accepted is an error of compiling, and the reader may give out. -/
lemma acceptance_cases {m : Machine ε} (hm : m.FindsNull) (source : String) :
    ('\x00' ∈ source.toList ∧ m.acceptance source = .error .nullInSource) ∨
    ('\x00' ∉ source.toList ∧
      (m.acceptance source = .ok source ∨
        (∃ e, m.acceptance source = .error (.compile e) ∧ e.reason ∈ ["too_deep", "syntax"]) ∨
        ∃ x, m.readSource source = .broken x ∧ m.acceptance source = .error (.machine x))) := by
  rw [← hm source]
  unfold acceptance
  cases m.readSource source with
  | accepted => simp
  | fault f => cases f <;> simp [CompileError.reason]
  | tooDeep => simp [CompileError.reason]
  | broken x => simp

end Machine

/-! ## The check of a text -/

/-- Only the check for null characters finds one. -/
lemma checkLines_ne_nullCharacter (line count : Nat) (lines : List (List Char)) :
    checkLines line count lines ≠ .error .nullCharacter := by
  induction lines generalizing line count with
  | nil => simp [checkLines]
  | cons cs rest ih =>
    unfold checkLines
    split_ifs
    · simp
    · split
      · simp
      · exact ih _ _

/-- The check finds a null character exactly if there is one. -/
lemma checkSource_eq_nullCharacter_iff {source : String} :
    checkSource source = .error .nullCharacter ↔ '\x00' ∈ source.toList := by
  unfold checkSource
  split_ifs with h
  · simp [h]
  · simp [h, checkLines_ne_nullCharacter]

/-- The check of a text that is made of lines is the check of the lines. -/
lemma checkSource_unlines {ls : List String} (hne : ls ≠ []) (hline : ∀ l ∈ ls, '\n' ∉ l.toList)
    (hnull : ∀ l ∈ ls, '\x00' ∉ l.toList) :
    checkSource (unlines ls) = checkLines 1 0 (ls.map String.toList ++ [[]]) := by
  have hnone : '\x00' ∉ (unlines ls).toList := by
    rw [Text.mem_unlines_iff (by decide)]
    rintro ⟨l, hl, hmem⟩
    exact hnull l hl hmem
  have hlines : ∀ cs ∈ ls.map String.toList, '\n' ∉ cs := by simpa using hline
  have hsplit : (['\n'].intercalate (ls.map String.toList)).splitOnP (· = '\n') =
      ls.map String.toList :=
    List.splitOn_intercalate '\n' hlines (by simpa using hne)
  rw [checkSource, if_neg hnone, unlines, String.toList_append, String.toList_intercalate]
  show checkLines 1 0
    ((['\n'].intercalate (ls.map String.toList) ++ ['\n']).splitOnP (· = '\n')) = _
  rw [List.splitOnP_append_cons _ _ (by simp), hsplit, List.splitOnP_nil]

/-- The reader of a reliable machine is particular about null characters. -/
lemma Machine.findsNull_reliable (ε : Type) : (Machine.reliable ε).FindsNull := by
  intro source
  rw [← checkSource_eq_nullCharacter_iff]
  show Reading.ofCheck (checkSource source) = .fault .nullCharacter ↔ _
  cases checkSource source <;> simp [Reading.ofCheck]

/-- So is the reader of the standard machine. -/
lemma Machine.findsNull_standard : Machine.standard.FindsNull :=
  Machine.findsNull_reliable Empty

/-! ## Cases of loaded graphs -/

/-- The cases of a loaded graph have texts for their values, so they have literals. -/
lemma Graph.Loadable.ofValue?_ne_none {g : Graph} (h : g.Loadable) :
    ∀ n ∈ g.nodes, ∀ c ∈ n.cases, Literal.ofValue? (.text "") c.value ≠ none := by
  intro n hn c hc
  obtain ⟨s, hs⟩ : ∃ s, c.value = .string s := by
    have hload := (h.nodes n hn).cases c hc
    unfold Document.loadCase at hload
    split at hload
    · exact ⟨_, congrArg Case.value (Except.ok.inj hload).symm⟩
    · split_ifs at hload
      exact ⟨_, congrArg Case.value (Except.ok.inj hload).symm⟩
  rw [ne_eq, Literal.ofValue?_eq_none_iff rfl, hs]
  simp [Json.isWritable]

/-! ## The ways in which compiling ends -/

namespace Graph

variable {ε : Type} {m : Machine ε} {g : Graph} {t : Target}

/-- Compiling ends as it should: with the whole text of the program, or with an error that says that
the graph is nested too deeply or that the text is not accepted. -/
def EndsProperly (m : Machine ε) (g : Graph) (t : Target) : Prop :=
  (∃ p, (t.program m.depthLimit g).outcome = .ok p ∧ (m.compile g t).outcome = .ok p.text) ∨
  ∃ e, (m.compile g t).outcome = .error (.compile e) ∧ e.reason ∈ ["too_deep", "syntax"]

/-- **The ways in which compiling ends.** A program cannot be put together for one of two reasons.
If it is, then it is read, and a null character is found first. -/
lemma outcome_compile_cases (hm : m.FindsNull) (g : Graph) (t : Target) :
    ((t.program m.depthLimit g).outcome = .error .longInteger ∧
      (m.compile g t).outcome = .error .longInteger) ∨
    ((t.program m.depthLimit g).outcome = .error .tooDeep ∧
      (m.compile g t).outcome = .error (.compile .tooDeep)) ∨
    ∃ p, (t.program m.depthLimit g).outcome = .ok p ∧
      (('\x00' ∈ p.text.toList ∧ (m.compile g t).outcome = .error .nullInSource) ∨
        ('\x00' ∉ p.text.toList ∧
          ((m.compile g t).outcome = .ok p.text ∨
            (∃ e, (m.compile g t).outcome = .error (.compile e) ∧
              e.reason ∈ ["too_deep", "syntax"]) ∨
            ∃ x, m.readSource p.text = .broken x ∧
              (m.compile g t).outcome = .error (.machine x)))) := by
  rw [m.outcome_compile]
  cases (t.program m.depthLimit g).outcome with
  | ok p => exact .inr (.inr ⟨p, rfl, Machine.acceptance_cases hm p.text⟩)
  | error e =>
    cases e with
    | longInteger => exact .inl ⟨rfl, rfl⟩
    | tooDeep => exact .inr (.inl ⟨rfl, rfl⟩)

/-- Compiling fails over an integer exactly if the program does. -/
lemma outcome_compile_eq_longInteger_iff (hm : m.FindsNull) :
    (m.compile g t).outcome = .error .longInteger ↔
      (t.program m.depthLimit g).outcome = .error .longInteger := by
  rcases g.outcome_compile_cases hm t with
    ⟨hp, hc⟩ | ⟨hp, hc⟩ | ⟨p, hp, ⟨-, hc⟩ | ⟨-, hc | ⟨e, hc, -⟩ | ⟨x, -, hc⟩⟩⟩ <;> simp [hp, hc]

/-- Compiling fails over a null character exactly if there is a program that shows one. -/
lemma outcome_compile_eq_nullInSource_iff (hm : m.FindsNull) :
    (m.compile g t).outcome = .error .nullInSource ↔
      (∃ p, (t.program m.depthLimit g).outcome = .ok p) ∧ Text.Occurs '\x00' (t.shownTexts g) := by
  rcases g.outcome_compile_cases hm t with
    ⟨hp, hc⟩ | ⟨hp, hc⟩ | ⟨p, hp, ⟨hnull, hc⟩ | ⟨hnull, hc | ⟨e, hc, -⟩ | ⟨x, -, hc⟩⟩⟩
  · simp [hp, hc]
  · simp [hp, hc]
  all_goals
    rw [Target.mem_text_iff (by decide) (by decide) hp] at hnull
    simp [hp, hc, hnull]

/-- Compiling fails as the machine exactly if there is a program over which the reader gives out. -/
lemma outcome_compile_eq_machine_iff (hm : m.FindsNull) {x : ε} :
    (m.compile g t).outcome = .error (.machine x) ↔
      ∃ p, (t.program m.depthLimit g).outcome = .ok p ∧ m.readSource p.text = .broken x := by
  rcases g.outcome_compile_cases hm t with
    ⟨hp, hc⟩ | ⟨hp, hc⟩ | ⟨p, hp, ⟨hnull, hc⟩ | ⟨-, hc | ⟨e, hc, -⟩ | ⟨y, hread, hc⟩⟩⟩
  · simp [hp, hc]
  · simp [hp, hc]
  · simp [hp, hc, (hm p.text).mpr hnull]
  · have hnot : m.readSource p.text ≠ .broken x := by
      intro hbroken
      rw [m.outcome_compile, hp] at hc
      simp [Machine.acceptance, hbroken] at hc
    simp [hp, hc, hnot]
  · have hnot : m.readSource p.text ≠ .broken x := by
      intro hbroken
      rw [m.outcome_compile, hp] at hc
      simp [Machine.acceptance, hbroken] at hc
    simp [hp, hc, hnot]
  · simp [hp, hc, hread]

/-- Compiling ends properly exactly if it fails neither over an integer nor over a null character
nor as the machine. -/
lemma endsProperly_iff_ne (hm : m.FindsNull) (g : Graph) (t : Target) :
    g.EndsProperly m t ↔
      (m.compile g t).outcome ≠ .error .longInteger ∧
      (m.compile g t).outcome ≠ .error .nullInSource ∧
        ∀ x, (m.compile g t).outcome ≠ .error (.machine x) := by
  unfold EndsProperly
  rcases g.outcome_compile_cases hm t with
    ⟨hp, hc⟩ | ⟨hp, hc⟩ | ⟨p, hp, ⟨-, hc⟩ | ⟨-, hc | ⟨e, hc, hreason⟩ | ⟨x, -, hc⟩⟩⟩ <;>
    simp_all [CompileError.reason]

/-- A machine goes as deep and reads program texts as a reliable one. -/
structure CompilesReliably (m : Machine ε) : Prop where
  /-- It goes as deep. -/
  depthLimit : m.depthLimit = LogicGraph.depthLimit
  /-- It reads a text as far as the check does. -/
  readSource : ∀ source, m.readSource source = .ofCheck (checkSource source)

/-- A program whose lines are accepted is what its graph is compiled to. -/
lemma outcome_compile_of_checkLines (hm : CompilesReliably m) {p : Program}
    (hp : (t.program depthLimit g).outcome = .ok p) (hne : p.print ≠ [])
    (hline : ∀ l ∈ p.print, '\n' ∉ l.toList) (hnull : ∀ l ∈ p.print, '\x00' ∉ l.toList)
    (hcheck : checkLines 1 0 (p.print.map String.toList ++ [[]]) = .ok ()) :
    (m.compile g t).outcome = .ok p.text := by
  have hchecked : checkSource p.text = .ok () := by
    rw [Program.text_eq_unlines_print, checkSource_unlines hne hline hnull, hcheck]
  rw [Machine.outcome_compile, hm.depthLimit, hp]
  simp only [Machine.acceptance, hm.readSource, hchecked, Reading.ofCheck]

/-- The empty graph is compiled. -/
lemma exists_outcome_compile_empty (hm : CompilesReliably m) :
    ∃ source, (m.compile {} .event).outcome = .ok source :=
  ⟨_, outcome_compile_of_checkLines hm rfl (by decide) (by decide +kernel) (by decide +kernel)
    (toOption_eq_some.mp (by decide +kernel))⟩

/-- The standard machine compiles reliably. -/
lemma compilesReliably_standard : CompilesReliably Machine.standard :=
  ⟨rfl, fun _ => rfl⟩

/-- **When compiling ends as it should.** On a machine whose reader is particular about null
characters, a loaded graph is compiled properly exactly if all integers in the first values of its
variables can be written, and if the graph is nested too deeply or else no text that the program
shows has a null character and the reader does not give out over the program. Compiling fails over
an integer exactly if one cannot be written, over a null character exactly if a program is put
together that shows one, as the machine exactly if the reader gives out over the program, and in no
other way. -/
theorem endsProperly_iff (hm : m.FindsNull) (strict : Bool) (v : Json) (g : Graph)
    (h : (Graph.ofJson strict v).outcome = .ok g) (t : Target) :
    (g.EndsProperly m t ↔
      (∀ n ∈ g.nodes, n.declaresVariable = true → n.value.isWritable = true) ∧
      ((t.program m.depthLimit g).outcome = .error .tooDeep ∨
        ¬ Text.Occurs '\x00' (t.shownTexts g) ∧
        ∀ p x, (t.program m.depthLimit g).outcome = .ok p → m.readSource p.text ≠ .broken x)) ∧
    ((m.compile g t).outcome = .error .longInteger ↔
      ∃ n ∈ g.nodes, n.declaresVariable = true ∧ n.value.isWritable = false) ∧
    ((m.compile g t).outcome = .error .nullInSource ↔
      (∃ p, (t.program m.depthLimit g).outcome = .ok p) ∧ Text.Occurs '\x00' (t.shownTexts g)) ∧
    (∀ x, (m.compile g t).outcome = .error (.machine x) ↔
      ∃ p, (t.program m.depthLimit g).outcome = .ok p ∧ m.readSource p.text = .broken x) ∧
    (g.EndsProperly m t ∨ (m.compile g t).outcome = .error .longInteger ∨
      (m.compile g t).outcome = .error .nullInSource ∨
      ∃ x, (m.compile g t).outcome = .error (.machine x)) := by
  have hprogram : (t.program m.depthLimit g).outcome = .error .longInteger ↔
      ∃ n ∈ g.nodes, n.declaresVariable = true ∧ n.value.isWritable = false := by
    rw [t.outcome_program_eq_longInteger_iff m.depthLimit
      (Graph.loadable_of_ofJson h).ofValue?_ne_none]
    simp only [Literal.ofValue?_eq_none_iff Literal.isWritable_zero]
  have hlong := (outcome_compile_eq_longInteger_iff hm).trans hprogram
  have hnull := outcome_compile_eq_nullInSource_iff (g := g) (t := t) hm
  have hmachine := fun x => outcome_compile_eq_machine_iff (g := g) (t := t) (x := x) hm
  refine ⟨?_, hlong, hnull, hmachine, ?_⟩
  · rw [endsProperly_iff_ne hm, ne_eq, ne_eq, hlong, hnull]
    simp only [ne_eq, hmachine]
    constructor
    · rintro ⟨hwritable, hshown, hunbroken⟩
      refine ⟨fun n hn hd => ?_, ?_⟩
      · by_contra hnot
        exact hwritable ⟨n, hn, hd, Bool.eq_false_iff.mpr hnot⟩
      · cases hp : (t.program m.depthLimit g).outcome with
        | ok p =>
          refine .inr ⟨fun hoccurs => hshown ⟨⟨p, hp⟩, hoccurs⟩, ?_⟩
          rintro p' x ⟨⟩ hbroken
          exact hunbroken x ⟨p, hp, hbroken⟩
        | error e =>
          cases e with
          | tooDeep => exact .inl rfl
          | longInteger => exact absurd (hprogram.mp hp) hwritable
    · rintro ⟨hwritable, hshown⟩
      refine ⟨?_, ?_, ?_⟩
      · rintro ⟨n, hn, hd, hfalse⟩
        rw [hwritable n hn hd] at hfalse
        cases hfalse
      · rintro ⟨⟨p, hp⟩, hoccurs⟩
        rcases hshown with hdeep | ⟨hnone, -⟩
        · rw [hp] at hdeep
          cases hdeep
        · exact hnone hoccurs
      · rintro x ⟨p, hp, hbroken⟩
        rcases hshown with hdeep | ⟨-, hunbroken⟩
        · rw [hp] at hdeep
          cases hdeep
        · exact hunbroken p x hp hbroken
  · by_contra hnot
    push Not at hnot
    exact hnot.1 ((endsProperly_iff_ne hm g t).mpr ⟨hnot.2.1, hnot.2.2.1, hnot.2.2.2⟩)

/-! ## Graphs that are not compiled properly -/

/-- A document with the given name and one node that holds a value. -/
def oneStateDocument (name : String) (data : List (String × Json)) : Json :=
  .object [("name", .string name),
    ("nodes",
      .array [.object [("id", .string "s"), ("type", .string "ui_state"), ("data", .object data)]]),
    ("edges", .array [])]

/-- A graph with the given name and one node that holds a value. -/
def oneState (name : String) (purpose : Option String) (value : Json) : Graph where
  nodes := [{ id := "s", kind := .state, purpose, value }]
  name := name
  nodes_nodup := List.nodup_singleton "s"

/-- For a graph with one node that holds a value, a program is put together if the value can be
written. -/
lemma exists_program_oneState (name : String) (purpose : Option String) {value : Json}
    (hvalue : value.isWritable = true) (t : Target) :
    ∃ p, (t.program depthLimit (oneState name purpose value)).outcome = .ok p := by
  refine t.exists_outcome_program_eq_ok ?_ ?_ ?_
  · show 1 ≤ depthLimit
    decide
  · simp [oneState]
  · simp [oneState, Literal.ofValue?_eq_none_iff Literal.isWritable_zero, hvalue]

/-- A null character in a purpose is shown by an event program and not by a simulation. -/
theorem endsProperly_nullPurpose :
    Machine.standard.FindsNull ∧
    (Graph.ofJson true (oneStateDocument "n" [("purpose", .string "a\x00b")])).outcome =
      .ok (oneState "n" (some "a\x00b") .null) ∧
    (oneState "n" (some "a\x00b") .null).EndsProperly Machine.standard .simulation ∧
    (Machine.standard.compile (oneState "n" (some "a\x00b") .null) .event).outcome =
      .error .nullInSource := by
  have hload : (Graph.ofJson true (oneStateDocument "n" [("purpose", .string "a\x00b")])).outcome =
      .ok (oneState "n" (some "a\x00b") .null) := by rfl
  have hm := Machine.findsNull_standard
  refine ⟨hm, hload, ?_, ?_⟩
  · refine (endsProperly_iff hm true _ _ hload .simulation).1.mpr ⟨by decide, .inr ⟨?_, ?_⟩⟩
    · simp [Text.Occurs, Target.shownTexts, oneState]
    · exact fun p x _ => x.elim
  · refine (endsProperly_iff hm true _ _ hload .event).2.2.1.mpr
      ⟨exists_program_oneState _ _ rfl _, ?_⟩
    exact ⟨"a\x00b", by decide, by decide⟩

/-- A null character in the name of a graph is met for both targets. -/
lemma outcome_compile_nullName (t : Target) :
    (Machine.standard.compile (oneState "a\x00b" none .null) t).outcome = .error .nullInSource := by
  rw [outcome_compile_eq_nullInSource_iff Machine.findsNull_standard]
  refine ⟨exists_program_oneState _ _ rfl t, "a\x00b", ?_, by decide⟩
  cases t <;> simp [Target.shownTexts, oneState]

/-- A value with one digit too many is met for both targets. -/
lemma outcome_compile_longValue (t : Target) :
    (Machine.standard.compile (oneState "n" none (.number (.int (10 ^ Numeral.digitLimit))))
      t).outcome =
      .error .longInteger := by
  rw [outcome_compile_eq_longInteger_iff Machine.findsNull_standard,
    t.outcome_program_eq_longInteger_iff _ (by simp [oneState])]
  refine ⟨_, List.mem_singleton_self _, rfl, ?_⟩
  rw [Literal.ofValue?_eq_none_iff Literal.isWritable_zero, Json.isWritable]
  exact Numeral.withinLimit_pow_digitLimit

/-- **Compiling a loaded graph can end otherwise.** With a null character in its name it fails over
that, and with a value of more digits than are written it fails over the integer. -/
theorem not_endsProperly_oneState :
    (Graph.ofJson true (oneStateDocument "a\x00b" [])).outcome =
      .ok (oneState "a\x00b" none .null) ∧
    (Machine.standard.compile (oneState "a\x00b" none .null) .event).outcome =
      .error .nullInSource ∧
    ¬ (oneState "a\x00b" none .null).EndsProperly Machine.standard .event ∧
    (Graph.ofJson true (oneStateDocument "n"
        [("value", .number (.int (10 ^ Numeral.digitLimit)))])).outcome =
      .ok (oneState "n" none (.number (.int (10 ^ Numeral.digitLimit)))) ∧
    (Machine.standard.compile (oneState "n" none (.number (.int (10 ^ Numeral.digitLimit))))
      .simulation).outcome =
      .error .longInteger ∧
    ¬ (oneState "n" none (.number (.int (10 ^ Numeral.digitLimit)))).EndsProperly
      Machine.standard .simulation := by
  refine ⟨rfl, outcome_compile_nullName .event, ?_, rfl, outcome_compile_longValue .simulation, ?_⟩
  · rw [endsProperly_iff_ne Machine.findsNull_standard, outcome_compile_nullName]
    simp
  · rw [endsProperly_iff_ne Machine.findsNull_standard, outcome_compile_longValue]
    simp

end Graph

end LogicGraph
