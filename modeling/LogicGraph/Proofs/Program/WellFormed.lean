import LogicGraph.Proofs.Naming
import LogicGraph.Proofs.Program.Print

set_option relaxedAutoImplicit false
set_option autoImplicit false

/-!
# Well-formed programs

A tree is well-formed if its names are identifiers, its bodies are not empty, its operations are
among the few that there are, and every text in it stays where it is put: comments and remarks on
one line, descriptions between their quotes, literals sealed. Comments, remarks and descriptions are
the only texts that go into a program as they are. All else that is printed of a well-formed tree is
clean, so a control character in its lines comes from one of these texts; and as they are on one
line, the lines have no line ends inside them.

## Main definitions

* `LogicGraph.Text.IsDescription` — a text that stays between triple quotes.
* `LogicGraph.Stmt.WellFormed`, `LogicGraph.Method.WellFormed` — well-formed trees.
* `LogicGraph.Stmt.freeTexts` — the texts that a statement shows as they are.
* `LogicGraph.Text.Occurs` — a character occurs in some text of a list.

## Main results

* `LogicGraph.Stmt.occurs_print_iff` — where the control characters in the lines of a well-formed
  statement come from.
* `LogicGraph.Method.occurs_print_iff` — the same for methods.
* `LogicGraph.Method.isOneLine_of_mem_print` — every line of a well-formed method is one line.
-/

namespace LogicGraph

open Text

/-- A text that stays between triple quotes: no line end, no double quote, and no backslash that
would take the closing quotes along. -/
def Text.IsDescription (s : String) : Prop :=
  IsOneLine s ∧ '"' ∉ s.toList ∧ s.toList.foldl QuoteState.next (.inside '"') = .inside '"'

/-- The variable of a term is an identifier. -/
def Term.WellFormed : Term → Prop
  | .member name => IsIdentifier name
  | .zero | .one | .noReward => True

/-- The variables of an expression are identifiers, and a sum has at least two summands. -/
def Expr.WellFormed : Expr → Prop
  | .term t => t.WellFormed
  | .sum ts => 2 ≤ ts.length ∧ ∀ t ∈ ts, t.WellFormed

/-- A literal is on one line and what is text in it stays between its quotes. -/
def Literal.WellFormed (l : Literal) : Prop :=
  IsOneLine l.written ∧ IsSealed l.written.toList

/-- The operation of a right-hand side is one of the allowed ones, and its parts are well-formed. -/
def Rhs.WellFormed : Rhs → Prop
  | .literal l => l.WellFormed
  | .expr e => e.WellFormed
  | .arithmetic op a b => op.sign ∈ ["+", "-", "*", "/"] ∧ a.WellFormed ∧ b.WellFormed
  | .comparison op a b => op.sign ∈ ["==", "!=", ">", "<", ">=", "<="] ∧ a.WellFormed ∧ b.WellFormed

mutual

/-- A statement whose names are identifiers, whose texts stay in their place and whose bodies are
not empty. -/
def Stmt.WellFormed : Stmt → Prop
  | .comment s => IsOneLine s
  | .docstring s => IsDescription s
  | .assign name rhs remark => IsIdentifier name ∧ rhs.WellFormed ∧ ∀ r ∈ remark, IsOneLine r
  | .increment name _ => IsIdentifier name
  | .pass cycle => ∀ name ∈ cycle, IsIdentifier name
  | .returnState names => ∀ name ∈ names, IsIdentifier name
  | .returnObservation names => ∀ name ∈ names, IsIdentifier name
  | .returnReset => True
  | .reward e => e.WellFormed
  | .returnStep => True
  | .choose subject clauses otherwise =>
    subject.WellFormed ∧ clauses ≠ [] ∧ Stmt.ClausesWellFormed clauses ∧ otherwise ≠ [] ∧
    Stmt.AllWellFormed otherwise

/-- Statements that are all well-formed. -/
def Stmt.AllWellFormed : List Stmt → Prop
  | [] => True
  | s :: rest => s.WellFormed ∧ Stmt.AllWellFormed rest

/-- Clauses with well-formed literals and bodies, none of which is empty. -/
def Stmt.ClausesWellFormed : List (Literal × List Stmt) → Prop
  | [] => True
  | (lit, body) :: rest =>
    lit.WellFormed ∧ body ≠ [] ∧ Stmt.AllWellFormed body ∧ Stmt.ClausesWellFormed rest

end

/-- A method with identifiers for its name and its parameters and a well-formed body that is not
empty. -/
def Method.WellFormed (m : Method) : Prop :=
  IsIdentifier m.name ∧ (∀ p ∈ m.parameters, IsIdentifier p) ∧ m.body ≠ [] ∧
    Stmt.AllWellFormed m.body

/-- Every literal is well-formed. -/
lemma Literal.wellFormed (l : Literal) : l.WellFormed :=
  ⟨l.isClean_written.isOneLine, l.isSealed_written⟩

/-- Statements are all well-formed if each of them is. -/
lemma Stmt.allWellFormed_iff {body : List Stmt} :
    Stmt.AllWellFormed body ↔ ∀ s ∈ body, s.WellFormed := by
  induction body with
  | nil => simp [Stmt.AllWellFormed]
  | cons s rest ih => rw [Stmt.AllWellFormed, ih, List.forall_mem_cons]

/-! ## Clean parts -/

/-- A variable whose name is an identifier is clean. -/
lemma isClean_variableText {name : String} (h : IsIdentifier name) : IsClean (variableText name) :=
  isClean_append.mpr ⟨by decide, h.isClean⟩

/-- The text of a well-formed term is clean. -/
lemma Term.WellFormed.isClean {t : Term} (h : t.WellFormed) : IsClean t.text := by
  cases t with
  | member name => exact isClean_variableText h
  | zero | one | noReward => decide

/-- The text of a well-formed expression is clean. -/
lemma Expr.WellFormed.isClean {e : Expr} (h : e.WellFormed) : IsClean e.text := by
  cases e with
  | term t => exact Term.WellFormed.isClean h
  | sum ts =>
    have hterms : ∀ s ∈ ts.map Term.text, IsClean s := by
      rw [List.forall_mem_map]
      exact fun t ht => (h.2 t ht).isClean
    rw [Expr.text, sumText, isClean_append, isClean_append]
    exact ⟨⟨by decide, isClean_intercalate (by decide) hterms⟩, by decide⟩

/-- A well-formed right-hand side is clean; literals are so by themselves. -/
lemma Rhs.WellFormed.isClean {r : Rhs} (h : r.WellFormed) : IsClean r.text := by
  cases r with
  | literal l => exact l.isClean_written
  | expr e => exact Expr.WellFormed.isClean h
  | arithmetic op a b =>
    have ha := h.2.1.isClean
    have hb := h.2.2.isClean
    cases op with
    | div =>
      simp only [Rhs.text, isClean_append]
      exact ⟨⟨⟨⟨⟨ha, by decide⟩, hb⟩, by decide⟩, by decide⟩, by decide⟩
    | add | sub | mul =>
      simp only [Rhs.text, isClean_append]
      exact ⟨⟨⟨⟨ha, by decide⟩, by decide⟩, by decide⟩, hb⟩
  | comparison op a b =>
    have ha := h.2.1.isClean
    have hb := h.2.2.isClean
    have hsign : IsClean op.sign := by cases op <;> decide
    simp only [Rhs.text, isClean_append]
    exact ⟨⟨⟨⟨⟨⟨by decide, ha⟩, by decide⟩, hsign⟩, by decide⟩, hb⟩, by decide⟩

/-- The head of a clause is clean. -/
lemma isClean_clauseHead {isFirst : Bool} {subject : Expr} (hsubject : subject.WellFormed)
    (l : Literal) :
    IsClean (clauseHead isFirst subject l) := by
  simp only [clauseHead, isClean_append]
  refine ⟨⟨⟨⟨?_, hsubject.isClean⟩, by decide⟩, l.isClean_written⟩, by decide⟩
  cases isFirst <;> decide

/-- The entry of a variable is clean. -/
lemma isClean_stateEntry {name : String} (h : IsIdentifier name) : IsClean (stateEntry name) := by
  simp only [stateEntry, isClean_append]
  exact ⟨⟨⟨⟨by decide, h.isClean⟩, by decide⟩, isClean_variableText h⟩, by decide⟩

/-- A numeral is clean. -/
lemma isClean_toString_nat (n : Nat) : IsClean (toString n) := by
  intro c hc
  rw [Nat.toString_eq_repr, Nat.toList_repr] at hc
  exact isControl_eq_false (by decide) (isNumeralChar_of_mem_toDigits hc)

/-! ## Where a control character occurs -/

/-- A character occurs in some text of a list. -/
def Text.Occurs (c : Char) (ss : List String) : Prop :=
  ∃ s ∈ ss, c ∈ s.toList

section

variable {c : Char} {s t : String} {ss ts : List String}

/-- No character occurs in no texts. -/
@[simp] lemma Text.occurs_nil : ¬ Occurs c [] := by
  simp [Occurs]

/-- A character occurs in texts if it is in the first or occurs in the others. -/
@[simp] lemma Text.occurs_cons : Occurs c (s :: ss) ↔ c ∈ s.toList ∨ Occurs c ss := by
  simp [Occurs]

/-- A character occurs in two rows of texts if it occurs in one of them. -/
@[simp] lemma Text.occurs_append : Occurs c (ss ++ ts) ↔ Occurs c ss ∨ Occurs c ts := by
  simp [Occurs, or_and_right, exists_or]

/-- A clean text has no control character. -/
lemma Text.IsClean.not_mem (h : IsClean s) (hc : isControl c = true) : c ∉ s.toList := by
  intro hmem
  rw [h c hmem] at hc
  cases hc

/-- No control character occurs in clean texts. -/
lemma Text.not_occurs_of_isClean (h : ∀ s ∈ ss, IsClean s) (hc : isControl c = true) :
    ¬ Occurs c ss := by
  rintro ⟨s, hs, hmem⟩
  exact (h s hs).not_mem hc hmem

/-- What is clean in front of a text does not matter. -/
lemma Text.IsClean.mem_append_iff (h : IsClean s) (hc : isControl c = true) :
    c ∈ (s ++ t).toList ↔ c ∈ t.toList := by
  simp [h.not_mem hc]

/-- What is clean behind a text does not matter. -/
lemma Text.IsClean.mem_append_iff_left (h : IsClean t) (hc : isControl c = true) :
    c ∈ (s ++ t).toList ↔ c ∈ s.toList := by
  simp [h.not_mem hc]

/-- Indenting a line adds no control character. -/
lemma mem_indented_iff (hc : isControl c = true) (d : Nat) :
    c ∈ (indented d s).toList ↔ c ∈ s.toList := by
  refine IsClean.mem_append_iff ?_ hc
  rw [isClean_ofList]
  intro b hb
  rw [(List.mem_replicate.mp hb).2]
  decide

end

mutual

/-- The texts that a statement shows as they are, at any depth: comments, remarks and
descriptions. -/
def Stmt.freeTexts : Stmt → List String
  | .comment s => [s]
  | .docstring s => [s]
  | .assign _ _ remark => remark.toList
  | .choose _ clauses otherwise => Stmt.freeTextsInClauses clauses ++ Stmt.freeTextsIn otherwise
  | .increment _ _ | .pass _ | .returnState _ | .returnObservation _ | .returnReset | .reward _
      | .returnStep => []

/-- The texts that statements show as they are. -/
def Stmt.freeTextsIn : List Stmt → List String
  | [] => []
  | s :: rest => s.freeTexts ++ Stmt.freeTextsIn rest

/-- The texts that the bodies of clauses show as they are. -/
def Stmt.freeTextsInClauses : List (Literal × List Stmt) → List String
  | [] => []
  | (_, body) :: rest => Stmt.freeTextsIn body ++ Stmt.freeTextsInClauses rest

end

/-- The only line of a statement shows what its text shows. -/
lemma occurs_line_iff {c : Char} (hc : isControl c = true) {d : Nat} {s : String} {ts : List String}
    (h : c ∈ s.toList ↔ Occurs c ts) : Occurs c [indented d s] ↔ Occurs c ts := by
  rw [← h, occurs_cons, mem_indented_iff hc]
  simp

/-- A clean line shows nothing. -/
lemma occurs_cleanLine_iff {c : Char} (hc : isControl c = true) {d : Nat} {s : String}
    (h : IsClean s) :
    Occurs c [indented d s] ↔ Occurs c [] :=
  occurs_line_iff hc (by simp [h.not_mem hc])

/-- The control characters of an assignment are those of its remark. -/
lemma mem_assignText_iff {c : Char} (hc : isControl c = true) {name : String} {rhs : Rhs}
    {remark : Option String} (hname : IsIdentifier name) (hrhs : rhs.WellFormed) :
    c ∈ (assignText name rhs remark).toList ↔ Occurs c remark.toList := by
  have hassign : IsClean (variableText name ++ " = " ++ rhs.text) := by
    rw [isClean_append, isClean_append]
    exact ⟨⟨isClean_variableText hname, by decide⟩, hrhs.isClean⟩
  have hsign : IsClean "  # " := by decide
  cases remark with
  | none =>
    show c ∈ (variableText name ++ " = " ++ rhs.text ++ "").toList ↔ _
    rw [hassign.mem_append_iff hc]
    simp
  | some r =>
    show c ∈ (variableText name ++ " = " ++ rhs.text ++ ("  # " ++ r)).toList ↔ _
    rw [hassign.mem_append_iff hc, hsign.mem_append_iff hc]
    simp

mutual

/-- **A control character in the lines of a well-formed statement comes from a text that is shown as
it is**, and every control character there is shown. -/
lemma Stmt.occurs_print_iff {c : Char} (hc : isControl c = true) (d : Nat) (s : Stmt)
    (h : s.WellFormed) :
    Occurs c (s.print d) ↔ Occurs c s.freeTexts := by
  cases s with
  | comment s =>
    have hsign : IsClean "# " := by decide
    refine occurs_line_iff hc ?_
    rw [hsign.mem_append_iff hc]
    simp [Stmt.freeTexts]
  | docstring s =>
    have hquotes : IsClean "\"\"\"" := by decide
    refine occurs_line_iff hc ?_
    rw [hquotes.mem_append_iff_left hc, hquotes.mem_append_iff hc]
    simp [Stmt.freeTexts]
  | assign name rhs remark => exact occurs_line_iff hc (mem_assignText_iff hc h.1 h.2.1)
  | increment name index =>
    refine occurs_cleanLine_iff hc ?_
    simp only [isClean_append]
    exact ⟨⟨⟨⟨by decide, IsIdentifier.isClean h⟩, by decide⟩, isClean_toString_nat index⟩, by
      decide⟩
  | pass cycle =>
    cases cycle with
    | none => exact occurs_cleanLine_iff hc (by decide)
    | some name =>
      exact occurs_cleanLine_iff hc (isClean_append.mpr ⟨by decide, (h name rfl).isClean⟩)
  | returnState names =>
    cases names with
    | nil => exact occurs_cleanLine_iff hc (by decide)
    | cons name names =>
      have hopen : IsClean "return \x7b" := by decide
      have hclose : IsClean "\x7d" := by decide
      have hentries : ¬ Occurs c
          ((name :: names).map fun n => indented (d + 1) (stateEntry n)) := by
        rintro ⟨_, hline, hmem⟩
        obtain ⟨n, hn, rfl⟩ := List.mem_map.mp hline
        exact (isClean_stateEntry (h n hn)).not_mem hc ((mem_indented_iff hc _).mp hmem)
      rw [Stmt.print, List.cons_append, occurs_cons, occurs_append, occurs_cons,
        mem_indented_iff hc, mem_indented_iff hc]
      simp only [hopen.not_mem hc, hentries, hclose.not_mem hc, occurs_nil, or_self, Stmt.freeTexts]
  | returnObservation names =>
    have hentries : ∀ s ∈ names.map variableText, IsClean s := by
      rw [List.forall_mem_map]
      exact fun n hn => isClean_variableText (h n hn)
    refine occurs_cleanLine_iff hc ?_
    simp only [isClean_append]
    exact ⟨⟨by decide, isClean_intercalate (by decide) hentries⟩, by decide⟩
  | returnReset => exact occurs_cleanLine_iff hc (by decide)
  | reward e =>
    refine occurs_cleanLine_iff hc ?_
    simp only [isClean_append]
    exact ⟨⟨by decide, Expr.WellFormed.isClean h⟩, by decide⟩
  | returnStep => exact occurs_cleanLine_iff hc (by decide)
  | choose subject clauses otherwise =>
    obtain ⟨hsubject, -, hclauses, -, hotherwise⟩ := h
    have helse : c ∉ "else:".toList := IsClean.not_mem (by decide) hc
    rw [Stmt.print, Stmt.freeTexts, occurs_append, occurs_append, occurs_cons, mem_indented_iff hc,
      Stmt.occurs_printClauses_iff hc d hsubject clauses hclauses,
      Stmt.occurs_printAll_iff hc (d + 1) otherwise hotherwise]
    simp only [helse, false_or]

/-- The same for statements one below the other. -/
lemma Stmt.occurs_printAll_iff {c : Char} (hc : isControl c = true) (d : Nat) (body : List Stmt)
    (h : Stmt.AllWellFormed body) :
    Occurs c (Stmt.printAll d body) ↔ Occurs c (Stmt.freeTextsIn body) := by
  match body with
  | [] => rfl
  | s :: rest =>
    rw [Stmt.printAll, Stmt.freeTextsIn, occurs_append, occurs_append,
      Stmt.occurs_print_iff hc d s h.1, Stmt.occurs_printAll_iff hc d rest h.2]

/-- The same for clauses. -/
lemma Stmt.occurs_printClauses_iff {c : Char} (hc : isControl c = true) (d : Nat) {subject : Expr}
    (hsubject : subject.WellFormed) {isFirst : Bool} (clauses : List (Literal × List Stmt))
    (h : Stmt.ClausesWellFormed clauses) :
    Occurs c (Stmt.printClauses d subject isFirst clauses) ↔
      Occurs c (Stmt.freeTextsInClauses clauses) := by
  match clauses with
  | [] => rfl
  | (lit, body) :: rest =>
    obtain ⟨-, -, hbody, hrest⟩ := h
    rw [Stmt.printClauses, Stmt.freeTextsInClauses, occurs_cons, occurs_append, occurs_append,
      mem_indented_iff hc, Stmt.occurs_printAll_iff hc (d + 1) body hbody,
      Stmt.occurs_printClauses_iff hc d hsubject rest hrest]
    simp [(isClean_clauseHead hsubject lit).not_mem hc]

end

mutual

/-- The texts that a well-formed statement shows as they are, are on one line. -/
lemma Stmt.isOneLine_of_mem_freeTexts (s : Stmt) (h : s.WellFormed) :
    ∀ t ∈ s.freeTexts, IsOneLine t := by
  cases s with
  | comment s => exact List.forall_mem_singleton.mpr h
  | docstring s => exact List.forall_mem_singleton.mpr h.1
  | assign name rhs remark => exact fun t ht => h.2.2 t (Option.mem_toList.mp ht)
  | increment | pass | returnState | returnObservation | returnReset | reward | returnStep =>
    exact List.forall_mem_nil _
  | choose subject clauses otherwise =>
    rw [Stmt.freeTexts, List.forall_mem_append]
    exact ⟨Stmt.isOneLine_of_mem_freeTextsInClauses clauses h.2.2.1,
      Stmt.isOneLine_of_mem_freeTextsIn otherwise h.2.2.2.2⟩

/-- The texts that well-formed statements show as they are, are on one line. -/
lemma Stmt.isOneLine_of_mem_freeTextsIn (body : List Stmt) (h : Stmt.AllWellFormed body) :
    ∀ t ∈ Stmt.freeTextsIn body, IsOneLine t := by
  match body with
  | [] => exact List.forall_mem_nil _
  | s :: rest =>
    rw [Stmt.freeTextsIn, List.forall_mem_append]
    exact ⟨Stmt.isOneLine_of_mem_freeTexts s h.1, Stmt.isOneLine_of_mem_freeTextsIn rest h.2⟩

/-- The texts that well-formed clauses show as they are, are on one line. -/
lemma Stmt.isOneLine_of_mem_freeTextsInClauses (clauses : List (Literal × List Stmt))
    (h : Stmt.ClausesWellFormed clauses) : ∀ t ∈ Stmt.freeTextsInClauses clauses, IsOneLine t := by
  match clauses with
  | [] => exact List.forall_mem_nil _
  | (_, body) :: rest =>
    rw [Stmt.freeTextsInClauses, List.forall_mem_append]
    exact ⟨Stmt.isOneLine_of_mem_freeTextsIn body h.2.2.1,
      Stmt.isOneLine_of_mem_freeTextsInClauses rest h.2.2.2⟩

end

/-- A control character in the lines of a well-formed method comes from a text in its body that is
shown as it is. -/
lemma Method.occurs_print_iff {c : Char} (hc : isControl c = true) {m : Method} (h : m.WellFormed) :
    Occurs c m.print ↔ Occurs c (Stmt.freeTextsIn m.body) := by
  obtain ⟨hname, hparameters, -, hbody⟩ := h
  have hlist : ∀ p ∈ "self" :: m.parameters, IsClean p := by
    rw [List.forall_mem_cons]
    exact ⟨by decide, fun p hp => (hparameters p hp).isClean⟩
  have hhead : IsClean m.head := by
    simp only [Method.head, isClean_append]
    exact ⟨⟨⟨⟨by decide, hname.isClean⟩, by decide⟩, isClean_intercalate (by decide) hlist⟩, by
      decide⟩
  rw [Method.print, occurs_cons, mem_indented_iff hc, Stmt.occurs_printAll_iff hc 2 m.body hbody]
  simp only [hhead.not_mem hc, false_or]

/-- **Every line of a well-formed method is one line.** -/
lemma Method.isOneLine_of_mem_print {m : Method} (h : m.WellFormed) :
    ∀ line ∈ m.print, IsOneLine line := by
  have hend : ∀ c, isControl c = true → (c = '\n' ∨ c = '\r') →
      ∀ line ∈ m.print, c ∉ line.toList := by
    intro c hc hline line hmem hchar
    obtain ⟨t, ht, hct⟩ := (Method.occurs_print_iff hc h).mp ⟨line, hmem, hchar⟩
    have hone := Stmt.isOneLine_of_mem_freeTextsIn m.body h.2.2.2 t ht c hct
    exact hline.elim hone.1 hone.2
  intro line hmem c hc
  constructor
  · rintro rfl
    exact hend _ (by decide) (.inl rfl) line hmem hc
  · rintro rfl
    exact hend _ (by decide) (.inr rfl) line hmem hc

end LogicGraph
