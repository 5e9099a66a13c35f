import LogicGraph.Proofs.Program.WellFormed

set_option relaxedAutoImplicit false
set_option autoImplicit false

/-!
# Which variables a program uses

The methods of a program read and write variables of their object and call its methods. This module
reads these accesses off the text of a line, as a reader of code does who skips what stands between
quotes and behind a comment sign, and says for every statement which ones its lines have. A literal
has none, whatever text of the user it holds.

## Main definitions

* `LogicGraph.Access` — a variable that is used, or a method that is called.
* `LogicGraph.accesses` — the accesses in a line of code.
* `LogicGraph.assignedName?` — the variable that a line assigns.
* `LogicGraph.Stmt.accesses` — the accesses of a statement.
* `LogicGraph.Text.Reads` — a piece of text with the accesses in it.

## Main results

* `LogicGraph.Literal.quiet_written` — a literal has no access.
* `LogicGraph.Stmt.flatMap_accesses_print` — the accesses in the lines of a statement are those of
  the statement.

## Design

A word is complete only where the next character cannot go on with it. Pieces of text are therefore
read with anything behind them that breaks a word, and a piece that ends with such a break is read
with anything at all behind it.
-/

namespace LogicGraph

/-- A use of the object that a method belongs to. -/
inductive Access where
  /-- A variable of the object is read or written. -/
  | member (name : String)
  /-- A method of the object is called. -/
  | call (name : String)
  deriving DecidableEq, Repr

namespace Text

/-- Whether a character may stand in a word of code: letters, digits, underscores and dots, and all
that is not ASCII. -/
def isWordChar (c : Char) : Bool :=
  c.isAlphanum || c == '_' || c == '.' || 128 ≤ c.toNat

/-- What a word says about the object; `called` tells whether an opening bracket follows. -/
def accessOf (word : List Char) (called : Bool) : List Access :=
  match afterStem? "self.".toList word with
  | some name => [if called then .call (String.ofList name) else .member (String.ofList name)]
  | none => []

/-- The accesses in code that follows the start of a word. -/
def accessesFrom : QuoteState → List Char → List Char → List Access
  | _, word, [] => accessOf word false
  | .bare, word, c :: cs =>
    if isWordChar c then accessesFrom .bare (word ++ [c]) cs
    else accessOf word (c == '(') ++
      if c = '#' then [] else accessesFrom (QuoteState.bare.next c) [] cs
  | q, _, c :: cs => accessesFrom (q.next c) [] cs

/-- The accesses in code that follows a complete word. -/
abbrev scan (cs : List Char) : List Access :=
  accessesFrom .bare [] cs

/-- Code that does not go on with a word in front of it. -/
def Breaks (cs : List Char) : Prop :=
  ∀ c ∈ cs.head?, isWordChar c = false

/-- Code that neither goes on with a word in front of it nor calls it. -/
def Ends (cs : List Char) : Prop :=
  ∀ c ∈ cs.head?, isWordChar c = false ∧ c ≠ '('

/-- A text without accesses, whatever breaks the word at its end. -/
def Quiet (cs : List Char) : Prop :=
  ∀ rest, Breaks rest → scan (cs ++ rest) = scan rest

/-- A text with the given accesses, whatever ends the word at its end. -/
def Reads (cs : List Char) (as : List Access) : Prop :=
  ∀ rest, Ends rest → scan (cs ++ rest) = as ++ scan rest

/-- A text without accesses, whatever stands behind it. -/
def Clears (cs : List Char) : Prop :=
  ∀ rest, scan (cs ++ rest) = scan rest

end Text

/-- The accesses in a line of code. -/
def accesses (line : String) : List Access :=
  Text.scan line.toList

/-- The variable that a line of code assigns: the line starts with it, and the sign of assignment
follows. -/
def assignedName? (line : String) : Option String := do
  let rest ← Text.afterStem? "self.".toList (line.toList.dropWhile (· == ' '))
  let name := rest.takeWhile Text.isWordChar
  let _ ← Text.afterStem? " = ".toList (rest.drop name.length)
  return String.ofList name

namespace Text

/-! ## Words -/

/-- What ends a word breaks it. -/
lemma Ends.breaks {cs : List Char} (h : Ends cs) : Breaks cs :=
  fun c hc => (h c hc).1

/-- Characters of words go on with a word. -/
lemma accessesFrom_append {cs : List Char} (h : ∀ c ∈ cs, isWordChar c = true)
    (word rest : List Char) :
    accessesFrom .bare word (cs ++ rest) = accessesFrom .bare (word ++ cs) rest := by
  induction cs generalizing word with
  | nil => rw [List.nil_append, List.append_nil]
  | cons c cs ih =>
    obtain ⟨hc, hcs⟩ := List.forall_mem_cons.mp h
    rw [List.cons_append, accessesFrom, if_pos hc, ih hcs, List.append_assoc, List.singleton_append]

/-- At a character that breaks it, a word is complete. -/
lemma accessesFrom_cons {c : Char} (hc : isWordChar c = false) (word cs : List Char) :
    accessesFrom .bare word (c :: cs) = accessOf word (c == '(') ++ scan (c :: cs) := by
  have hnil : accessOf [] (c == '(') = [] := rfl
  rw [accessesFrom, scan, accessesFrom, hnil, hc]
  rfl

/-- A word that is not one of the object's says nothing, called or not. -/
lemma accessesFrom_of_foreign {word rest : List Char}
    (hword : afterStem? "self.".toList word = none) (hrest : Breaks rest) :
    accessesFrom .bare word rest = scan rest := by
  have hsilent : ∀ called, accessOf word called = [] := by
    intro called
    rw [accessOf, hword]
  cases rest with
  | nil => rw [accessesFrom, hsilent]; rfl
  | cons c cs => rw [accessesFrom_cons (hrest c rfl), hsilent, List.nil_append]

/-- A word that ends without being called is read as it is. -/
lemma accessesFrom_of_ends {word rest : List Char} (hrest : Ends rest) :
    accessesFrom .bare word rest = accessOf word false ++ scan rest := by
  cases rest with
  | nil => rw [accessesFrom, scan, accessesFrom]; exact (List.append_nil _).symm
  | cons c cs =>
    obtain ⟨hword, hcall⟩ := hrest c rfl
    rw [accessesFrom_cons hword, beq_eq_false_iff_ne.mpr hcall]

/-! ## Texts without accesses -/

/-- A word that is not one of the object's is quiet. -/
lemma quiet_of_foreign {cs : List Char} (h : ∀ c ∈ cs, isWordChar c = true)
    (hforeign : afterStem? "self.".toList cs = none) : Quiet cs := by
  intro rest hrest
  rw [scan, accessesFrom_append h, List.nil_append, accessesFrom_of_foreign hforeign hrest]

/-- Where only quoted text is read, nothing is accessed. -/
lemma accessesFrom_of_bareChars_eq_nil {q : QuoteState} {cs : List Char} (h : bareChars q cs = [])
    (rest : List Char) :
    accessesFrom q [] (cs ++ rest) = accessesFrom (cs.foldl QuoteState.next q) [] rest := by
  induction cs generalizing q with
  | nil => rfl
  | cons c cs ih =>
    rw [bareChars, List.append_eq_nil_iff] at h
    rw [List.cons_append, List.foldl_cons, ← ih h.2]
    cases q with
    | bare =>
      -- outside quotes only a mark can be met, which opens a quoted text
      have hmark : c = '\'' ∨ c = '"' := by
        by_contra hno
        exact absurd h.1 (by simp [QuoteState.next, hno])
      rcases hmark with rfl | rfl <;> rfl
    | inside mark => rfl
    | escaped mark => rfl

/-- Behind an opening mark nothing is read outside quotes before the mark occurs again. -/
lemma bareChars_eq_nil_of_not_mem {mark : Char} {cs : List Char} (h : mark ∉ cs) :
    bareChars (.inside mark) cs = [] ∧ bareChars (.escaped mark) cs = [] := by
  induction cs with
  | nil => exact ⟨rfl, rfl⟩
  | cons c cs ih =>
    rw [List.mem_cons, not_or] at h
    obtain ⟨hinside, hescaped⟩ := ih h.2
    have hnext : bareChars (.inside mark) (c :: cs) =
        bareChars (if c = '\\' then .escaped mark else .inside mark) cs := by
      simp [bareChars, QuoteState.next, Ne.symm h.1]
    refine ⟨?_, hinside⟩
    rw [hnext]
    split_ifs
    · exact hescaped
    · exact hinside

/-- A quoted text is quiet. -/
lemma quiet_quoted (s : String) : Quiet (quoted s).toList := by
  intro rest _
  obtain ⟨hstate, hbare⟩ := closed_quotedChars s.toList
  rw [quoted, String.toList_ofList, scan, accessesFrom_of_bareChars_eq_nil hbare, hstate]

/-- A numeral is quiet: it has no `s`, and so no word of the object. -/
lemma quiet_of_isNumeralChar {cs : List Char} (h : ∀ c ∈ cs, isNumeralChar c = true) :
    Quiet cs := by
  intro rest hrest
  suffices hgen : ∀ word : List Char, 's' ∉ word →
      accessesFrom .bare word (cs ++ rest) = scan rest from
    hgen [] List.not_mem_nil
  have hforeign : ∀ word : List Char, 's' ∉ word → afterStem? "self.".toList word = none := by
    intro word hword
    cases hstem : afterStem? "self.".toList word with
    | none => rfl
    | some name =>
      rw [afterStem?_eq_some_iff] at hstem
      exact absurd (hstem ▸ List.mem_append_left _ (by decide)) hword
  induction cs with
  | nil => exact fun word hword => accessesFrom_of_foreign (hforeign word hword) hrest
  | cons c cs ih =>
    obtain ⟨hc, hcs⟩ := List.forall_mem_cons.mp h
    intro word hword
    have hfixed : ∀ d ∈ ['s', '#', '\'', '"'], isNumeralChar d = false := by decide
    have hne : ∀ d ∈ ['s', '#', '\'', '"'], c ≠ d := by
      rintro d hd rfl
      rw [hfixed c hd] at hc
      cases hc
    by_cases hwordChar : isWordChar c = true
    · rw [List.cons_append, accessesFrom, if_pos hwordChar]
      refine ih hcs (word ++ [c]) ?_
      rw [List.mem_append, List.mem_singleton, not_or]
      exact ⟨hword, (hne 's' (by decide)).symm⟩
    · have hbreak : Breaks (c :: (cs ++ rest)) := by
        intro d hd
        rw [← Option.mem_some_iff.mp hd]
        simpa using hwordChar
      have hnext : QuoteState.bare.next c = .bare := by
        simp [QuoteState.next, hne '\'' (by decide), hne '"' (by decide)]
      rw [List.cons_append, accessesFrom_of_foreign (hforeign word hword) hbreak, scan,
        accessesFrom, if_neg hwordChar, if_neg (hne '#' (by decide)), hnext]
      exact ih hcs [] List.not_mem_nil

/-- Being quiet composes. -/
lemma composes_quiet : Composes Quiet where
  join := by
    intro cs ds c hcs hc hds rest hrest
    have hfixed : ∀ d ∈ ",: ()[]\x7b\x7d".toList, isWordChar d = false ∧ d ≠ '#' ∧
        QuoteState.bare.next d = .bare := by
      decide
    obtain ⟨hword, hcomment, hnext⟩ := hfixed c (by simpa [isSeparator] using hc)
    have hbreak : Breaks (c :: (ds ++ rest)) := by
      intro d hd
      rwa [← Option.mem_some_iff.mp hd]
    rw [List.append_assoc, List.cons_append, hcs _ hbreak, scan, accessesFrom, hword,
      if_neg hcomment, hnext]
    exact hds rest hrest
  numeral := quiet_of_isNumeralChar
  word w hw := by
    have hfixed : ∀ w ∈ literalWords, (∀ c ∈ w.toList, isWordChar c = true) ∧
        afterStem? "self.".toList w.toList = none := by decide
    exact quiet_of_foreign (hfixed w hw).1 (hfixed w hw).2
  quoted := quiet_quoted

end Text

open Text

/-- **A literal has no access**, whatever value it is the literal of. -/
lemma Literal.quiet_written (l : Literal) : Quiet l.written.toList :=
  composes_quiet.written l

/-! ## Pieces of a line -/

namespace Text

/-- A text between two pieces of code: it ends the word in front, has no access, and any word can
start behind it. -/
structure Gap (cs : List Char) : Prop where
  /-- There is something between the pieces. -/
  ne_nil : cs ≠ []
  /-- The word in front ends. -/
  ends : Ends cs
  /-- Any word can start behind. -/
  clears : Clears cs

/-- It is decidable whether the word in front ends. -/
instance (cs : List Char) : Decidable (Ends cs) :=
  inferInstanceAs (Decidable (∀ c ∈ cs.head?, isWordChar c = false ∧ c ≠ '('))

/-- A quiet text has no access. -/
lemma Quiet.reads {cs : List Char} (h : Quiet cs) : Reads cs [] :=
  fun rest hrest => h rest hrest.breaks

section Pieces

variable {cs ds gap : List Char} {as bs : List Access}

/-- A piece behind a text that may have anything behind it. -/
lemma Clears.reads_append (hcs : Clears cs) (hds : Reads ds bs) : Reads (cs ++ ds) bs := by
  intro rest hrest
  rw [List.append_assoc, hcs, hds rest hrest]

/-- A piece behind a piece whose last word it ends. -/
lemma Reads.append (hcs : Reads cs as) (hends : Ends ds) (hne : ds ≠ []) (hds : Reads ds bs) :
    Reads (cs ++ ds) (as ++ bs) := by
  intro rest hrest
  have hends' : Ends (ds ++ rest) := by rwa [Ends, List.head?_append_of_ne_nil _ hne]
  rw [List.append_assoc, hcs _ hends', hds rest hrest, List.append_assoc]

/-- A piece with a gap behind it. -/
lemma Reads.append_gap (hcs : Reads cs as) (hgap : Gap gap) : Reads (cs ++ gap) as := by
  have hreads : Reads gap [] := fun rest _ => hgap.clears rest
  simpa using hcs.append hgap.ends hgap.ne_nil hreads

/-- Two pieces with a gap between them. -/
lemma Reads.append_gap_append (hcs : Reads cs as) (hgap : Gap gap) (hds : Reads ds bs) :
    Reads (cs ++ gap ++ ds) (as ++ bs) := by
  intro rest hrest
  have hends : Ends (gap ++ (ds ++ rest)) := by
    rw [Ends, List.head?_append_of_ne_nil _ hgap.ne_nil]
    exact hgap.ends
  rw [List.append_assoc, List.append_assoc, hcs _ hends, hgap.clears, hds rest hrest,
    List.append_assoc]

/-- The accesses in a line that is one piece. -/
lemma Reads.scan_eq (h : Reads cs as) : scan cs = as := by
  have hline := h [] (by simp [Ends])
  rwa [List.append_nil, show scan [] = [] from rfl, List.append_nil] at hline

end Pieces

/-- Pieces with a gap between each and the next. -/
lemma reads_intercalate {α : Type} {text : α → String} {found : α → List Access} {sep : String}
    (hgap : Gap sep.toList) {parts : List α}
    (hparts : ∀ a ∈ parts, Reads (text a).toList (found a)) :
    Reads (sep.intercalate (parts.map text)).toList (parts.flatMap found) := by
  induction parts with
  | nil => exact fun rest _ => rfl
  | cons a rest ih =>
    obtain ⟨ha, hrest⟩ := List.forall_mem_cons.mp hparts
    cases rest with
    | nil => simpa using ha
    | cons b rest =>
      rw [List.map_cons, List.map_cons, String.intercalate_cons_cons, String.toList_append,
        String.toList_append]
      exact ha.append_gap_append hgap (ih hrest)

/-- A character of an identifier may stand in a word. -/
lemma isWordChar_of_isIdentifierChar {c : Char} (h : isIdentifierChar c = true) :
    isWordChar c = true := by
  simp only [isIdentifierChar, isWordChar, Char.isAlphanum, Char.isAlpha, Bool.or_eq_true] at h ⊢
  tauto

/-- A variable of the object is read off its text. -/
lemma reads_variableText {name : String} (h : IsIdentifier name) :
    Reads (variableText name).toList [.member name] := by
  intro rest hrest
  have hword : ∀ c ∈ (variableText name).toList, isWordChar c = true := by
    rw [variableText, String.toList_append, List.forall_mem_append]
    exact ⟨by decide, fun c hc => isWordChar_of_isIdentifierChar (h.2.1 c hc)⟩
  have haccess : accessOf (variableText name).toList false = [.member name] := by
    have hstem : afterStem? "self.".toList (variableText name).toList = some name.toList :=
      afterStem?_eq_some_iff.mpr (String.toList_append ..)
    rw [accessOf, hstem]
    simp
  rw [scan, accessesFrom_append hword, List.nil_append, accessesFrom_of_ends hrest, haccess]

end Text

/-! ## Statements -/

/-- The accesses of a term. -/
def Term.accesses : Term → List Access
  | .member name => [.member name]
  | .zero | .one | .noReward => []

/-- The accesses of an expression. -/
def Expr.accesses : Expr → List Access
  | .term t => t.accesses
  | .sum ts => ts.flatMap Term.accesses

/-- The accesses of a right-hand side. -/
def Rhs.accesses : Rhs → List Access
  | .literal _ => []
  | .expr e => e.accesses
  | .arithmetic _ a b => a.accesses ++ b.accesses
  | .comparison _ a b => a.accesses ++ b.accesses

mutual

/-- The accesses of a statement, in the order of its text; every clause of a choice reads the
subject again. -/
def Stmt.accesses : Stmt → List Access
  | .comment _ | .docstring _ | .pass _ => []
  | .assign name rhs _ => .member name :: rhs.accesses
  | .increment name _ => [.member name]
  | .returnState names | .returnObservation names => names.map .member
  | .returnReset | .returnStep => [.call "get_observation"]
  | .reward e => e.accesses
  | .choose subject clauses otherwise =>
      Stmt.accessesInClauses subject clauses ++ Stmt.accessesIn otherwise

/-- The accesses of statements. -/
def Stmt.accessesIn : List Stmt → List Access
  | [] => []
  | s :: rest => s.accesses ++ Stmt.accessesIn rest

/-- The accesses of clauses. -/
def Stmt.accessesInClauses (subject : Expr) : List (Literal × List Stmt) → List Access
  | [] => []
  | (_, body) :: rest =>
      subject.accesses ++ Stmt.accessesIn body ++ Stmt.accessesInClauses subject rest

end

/-- The accesses of a term are read off its text. -/
lemma Term.WellFormed.reads {t : Term} (h : t.WellFormed) : Reads t.text.toList t.accesses := by
  have hfixed : ∀ w ∈ ["0", "1.0", "0.0"], Reads w.toList [] := by
    intro w hw
    have hwords : ∀ w ∈ ["0", "1.0", "0.0"], (∀ c ∈ w.toList, isNumeralChar c = true) := by decide
    exact (quiet_of_isNumeralChar (hwords w hw)).reads
  cases t with
  | member name => exact reads_variableText h
  | zero => exact hfixed "0" (by decide)
  | one => exact hfixed "1.0" (by decide)
  | noReward => exact hfixed "0.0" (by decide)

/-- The accesses of an expression are read off its text. -/
lemma Expr.WellFormed.reads {e : Expr} (h : e.WellFormed) : Reads e.text.toList e.accesses := by
  cases e with
  | term t => exact Term.WellFormed.reads h
  | sum ts =>
    have hplus : Gap " + ".toList := ⟨by decide, by decide, fun _ => rfl⟩
    have hclose : Gap ")".toList := ⟨by decide, by decide, fun _ => rfl⟩
    have hopen : Clears "(".toList := fun _ => rfl
    have hterms := reads_intercalate hplus fun t ht => (h.2 t ht).reads
    rw [Expr.text, sumText, String.toList_append, String.toList_append]
    exact (hopen.reads_append hterms).append_gap hclose

/-- The sign of an operation stands between its operands. -/
lemma Arithmetic.gap_sign (op : Arithmetic) : Gap op.sign.toList := by
  cases op <;> exact ⟨by decide, by decide, fun _ => rfl⟩

/-- The sign of a comparison stands between what is compared. -/
lemma Comparison.gap_sign (op : Comparison) : Gap op.sign.toList := by
  cases op <;> exact ⟨by decide, by decide, fun _ => rfl⟩

/-- Two expressions with a sign between them. -/
lemma reads_operation {a b : Expr} {sign : String} (ha : a.WellFormed) (hsign : Gap sign.toList)
    (hb : b.WellFormed) :
    Reads (a.text.toList ++ " ".toList ++ sign.toList ++ " ".toList ++ b.text.toList)
      (a.accesses ++ b.accesses) := by
  have hspace : Gap " ".toList := ⟨by decide, by decide, fun _ => rfl⟩
  exact ((ha.reads.append_gap hspace).append_gap hsign).append_gap_append hspace hb.reads

/-- The accesses of a right-hand side are read off its text. -/
lemma Rhs.WellFormed.reads {r : Rhs} (h : r.WellFormed) : Reads r.text.toList r.accesses := by
  cases r with
  | literal l => exact l.quiet_written.reads
  | expr e => exact Expr.WellFormed.reads h
  | arithmetic op a b =>
    cases op with
    | div =>
      have hover : Gap " / (".toList := ⟨by decide, by decide, fun _ => rfl⟩
      have hguard : Gap (" + ".toList ++ epsilon.toList ++ ")".toList) :=
        ⟨by decide, by decide, fun _ => rfl⟩
      have hreads := (h.2.1.reads.append_gap_append hover h.2.2.reads).append_gap hguard
      simp only [List.append_assoc] at hreads
      simp only [Rhs.text, String.toList_append, List.append_assoc]
      exact hreads
    | add | sub | mul =>
      simp only [Rhs.text, String.toList_append]
      exact reads_operation h.2.1 (Arithmetic.gap_sign _) h.2.2
  | comparison op a b =>
    have hif : Clears "1.0 if ".toList := fun _ => rfl
    have hword : Clears " else ".toList := fun _ => rfl
    have helse : Reads " else 0.0".toList [] :=
      hword.reads_append (quiet_of_isNumeralChar (by decide)).reads
    have hreads :=
      (hif.reads_append (reads_operation h.2.1 op.gap_sign h.2.2)).append (by decide) (by decide)
        helse
    simp only [List.append_assoc, List.append_nil] at hreads
    simp only [Rhs.text, String.toList_append, List.append_assoc]
    exact hreads

/-! ## Lines -/

/-- White space in front of a line has no access. -/
lemma accesses_indented (d : Nat) (s : String) : accesses (indented d s) = accesses s := by
  rw [accesses, indented, String.toList_append, String.toList_ofList]
  induction 4 * d with
  | zero => rfl
  | succ k ih => exact ih

/-- The accesses in a line that is one piece. -/
lemma accesses_eq_of_reads {s : String} {as : List Access} (h : Reads s.toList as) :
    accesses s = as :=
  h.scan_eq

/-- A line that is a piece with a comment behind it. -/
lemma accesses_append_comment {s : String} {as : List Access} (h : Reads s.toList as)
    (remark : String) :
    accesses (s ++ "  # " ++ remark) = as := by
  have hends : Ends ("  # ".toList ++ remark.toList) := by
    rw [Ends, List.head?_append_of_ne_nil _ (by decide)]
    decide
  rw [accesses, String.toList_append, String.toList_append, List.append_assoc, h _ hends]
  exact List.append_nil as

/-- The accesses of an assignment. -/
lemma accesses_assignText {name : String} {rhs : Rhs} (hname : IsIdentifier name)
    (hrhs : rhs.WellFormed) (remark : Option String) :
    accesses (assignText name rhs remark) = .member name :: rhs.accesses := by
  have hgap : Gap " = ".toList := ⟨by decide, by decide, fun _ => rfl⟩
  have hreads : Reads (variableText name ++ " = " ++ rhs.text).toList
      (.member name :: rhs.accesses) := by
    rw [String.toList_append, String.toList_append]
    exact (reads_variableText hname).append_gap_append hgap hrhs.reads
  cases remark with
  | none =>
    rw [assignText, String.append_empty]
    exact accesses_eq_of_reads hreads
  | some r =>
    rw [assignText, ← String.append_assoc]
    exact accesses_append_comment hreads r

/-- The accesses of the entry of a variable in a dictionary; its key stands between quotes. -/
lemma accesses_stateEntry {name : String} (h : IsIdentifier name) :
    accesses (stateEntry name) = [.member name] := by
  have hkey : Clears ("\"".toList ++ name.toList ++ "\": ".toList) := by
    intro rest
    have hinside : StaysInside '"' name.toList := staysInside_of_forall fun c hc => by
      have hchar := h.2.1 c hc
      constructor <;> rintro rfl <;> exact absurd hchar (by decide)
    have hscan := accessesFrom_of_bareChars_eq_nil hinside.2 ("\": ".toList ++ rest)
    rw [hinside.1] at hscan
    rw [List.append_assoc, List.append_assoc]
    exact hscan
  have hcomma : Gap ",".toList := ⟨by decide, by decide, fun _ => rfl⟩
  have hreads := (hkey.reads_append (reads_variableText h)).append_gap hcomma
  refine accesses_eq_of_reads ?_
  simpa only [stateEntry, String.toList_append] using hreads

/-- A description has no access. -/
lemma accesses_docstring {s : String} (h : IsDescription s) :
    accesses ("\"\"\"" ++ s ++ "\"\"\"") = [] := by
  have hscan :=
    accessesFrom_of_bareChars_eq_nil (bareChars_eq_nil_of_not_mem h.2.1).1 "\"\"\"".toList
  rw [h.2.2] at hscan
  rw [accesses, String.toList_append, String.toList_append, List.append_assoc]
  exact hscan

/-- The accesses of the head of a clause. -/
lemma accesses_clauseHead {subject : Expr} (h : subject.WellFormed) (isFirst : Bool) (l : Literal) :
    accesses (clauseHead isFirst subject l) = subject.accesses := by
  have hword : Clears (if isFirst then "if " else "elif ").toList := by
    cases isFirst <;> exact fun _ => rfl
  have hgap : Gap " == ".toList := ⟨by decide, by decide, fun _ => rfl⟩
  have hcolon : Gap ":".toList := ⟨by decide, by decide, fun _ => rfl⟩
  have hreads :=
    ((hword.reads_append h.reads).append_gap_append hgap l.quiet_written.reads).append_gap hcolon
  refine accesses_eq_of_reads ?_
  simpa only [clauseHead, String.toList_append, List.append_nil] using hreads

/-- The accesses of the statement that adds an entry of the action. -/
lemma accesses_increment {name : String} (h : IsIdentifier name) (index : Nat) :
    accesses s!"self.{name} += float(action[{index}])" = [.member name] := by
  have hgap : Gap " += float(action[".toList := ⟨by decide, by decide, fun _ => rfl⟩
  have hclose : Gap "])".toList := ⟨by decide, by decide, fun _ => rfl⟩
  have hindex : Quiet (toString index).toList := quiet_of_isNumeralChar fun c hc => by
    rw [Nat.toString_eq_repr, Nat.toList_repr] at hc
    exact isNumeralChar_of_mem_toDigits hc
  have hreads := ((reads_variableText h).append_gap_append hgap hindex.reads).append_gap hclose
  refine accesses_eq_of_reads ?_
  simp only [variableText, String.toList_append, List.append_nil] at hreads ⊢
  exact hreads

/-- The accesses of the statement that returns variables as an array. -/
lemma accesses_returnObservation {names : List String} (h : ∀ name ∈ names, IsIdentifier name) :
    accesses
      ("return np.array([" ++ ", ".intercalate (names.map variableText) ++ "], dtype=np.float32)") =
      names.map .member := by
  have hopen : Clears "return np.array([".toList := fun _ => rfl
  have hcomma : Gap ", ".toList := ⟨by decide, by decide, fun _ => rfl⟩
  have hclose : Gap "], dtype=np.float32)".toList := ⟨by decide, by decide, fun _ => rfl⟩
  have hnames := reads_intercalate hcomma fun name hname => reads_variableText (h name hname)
  have hreads := (hopen.reads_append hnames).append_gap hclose
  rw [← List.map_eq_flatMap] at hreads
  refine accesses_eq_of_reads ?_
  simpa only [String.toList_append] using hreads

/-- The accesses of the statement that computes the reward. -/
lemma accesses_reward {e : Expr} (h : e.WellFormed) :
    accesses ("reward = float(" ++ e.text ++ ")") = e.accesses := by
  have hopen : Clears "reward = float(".toList := fun _ => rfl
  have hclose : Gap ")".toList := ⟨by decide, by decide, fun _ => rfl⟩
  have hreads := (hopen.reads_append h.reads).append_gap hclose
  refine accesses_eq_of_reads ?_
  simpa only [String.toList_append] using hreads

mutual

/-- **The accesses in the lines of a statement are those of the statement.** -/
lemma Stmt.flatMap_accesses_print {d : Nat} (s : Stmt) (h : s.WellFormed) :
    (s.print d).flatMap LogicGraph.accesses = s.accesses := by
  cases s with
  | comment s =>
    rw [Stmt.print, List.flatMap_singleton, accesses_indented, LogicGraph.accesses,
      String.toList_append]
    rfl
  | docstring s =>
    rw [Stmt.print, List.flatMap_singleton, accesses_indented, accesses_docstring h, Stmt.accesses]
  | assign name rhs remark =>
    rw [Stmt.print, List.flatMap_singleton, accesses_indented, accesses_assignText h.1 h.2.1,
      Stmt.accesses]
  | increment name index =>
    rw [Stmt.print, List.flatMap_singleton, accesses_indented, accesses_increment h, Stmt.accesses]
  | pass cycle =>
    cases cycle with
    | none =>
      rw [Stmt.print, List.flatMap_singleton, accesses_indented]
      rfl
    | some name =>
      rw [Stmt.print, List.flatMap_singleton, accesses_indented, LogicGraph.accesses,
        String.toList_append]
      rfl
  | returnState names =>
    cases names with
    | nil =>
      rw [Stmt.print, List.flatMap_singleton, accesses_indented]
      rfl
    | cons name names =>
      have hentries :
          ((name :: names).map fun n => indented (d + 1) (stateEntry n)).flatMap
            LogicGraph.accesses = (name :: names).map .member := by
        rw [List.flatMap_map, List.map_eq_flatMap]
        refine List.flatMap_congr fun n hn => ?_
        rw [accesses_indented, accesses_stateEntry (h n hn)]
      rw [Stmt.print, List.flatMap_append, List.flatMap_cons, List.flatMap_singleton,
        accesses_indented, accesses_indented, hentries]
      exact List.append_nil _
  | returnObservation names =>
    rw [Stmt.print, List.flatMap_singleton, accesses_indented]
    exact accesses_returnObservation h
  | returnReset =>
    rw [Stmt.print, List.flatMap_singleton, accesses_indented]
    rfl
  | reward e =>
    rw [Stmt.print, List.flatMap_singleton, accesses_indented]
    exact accesses_reward h
  | returnStep =>
    rw [Stmt.print, List.flatMap_singleton, accesses_indented]
    rfl
  | choose subject clauses otherwise =>
    obtain ⟨hsubject, -, hclauses, -, hotherwise⟩ := h
    rw [Stmt.print, List.flatMap_append, List.flatMap_cons,
      Stmt.flatMap_accesses_printClauses hsubject clauses hclauses,
      Stmt.flatMap_accesses_printAll otherwise hotherwise, accesses_indented]
    rfl

/-- The accesses in the lines of statements are those of the statements. -/
lemma Stmt.flatMap_accesses_printAll {d : Nat} (body : List Stmt) (h : Stmt.AllWellFormed body) :
    (Stmt.printAll d body).flatMap LogicGraph.accesses = Stmt.accessesIn body := by
  match body with
  | [] => rfl
  | s :: rest =>
    rw [Stmt.printAll, List.flatMap_append, Stmt.flatMap_accesses_print s h.1,
      Stmt.flatMap_accesses_printAll rest h.2, Stmt.accessesIn]

/-- The accesses in the lines of clauses are those of the clauses. -/
lemma Stmt.flatMap_accesses_printClauses {d : Nat} {subject : Expr} (hsubject : subject.WellFormed)
    {isFirst : Bool} (clauses : List (Literal × List Stmt)) (h : Stmt.ClausesWellFormed clauses) :
    (Stmt.printClauses d subject isFirst clauses).flatMap LogicGraph.accesses =
      Stmt.accessesInClauses subject clauses := by
  match clauses with
  | [] => rfl
  | (lit, body) :: rest =>
    obtain ⟨-, -, hbody, hrest⟩ := h
    rw [Stmt.printClauses, List.flatMap_cons, List.flatMap_append, accesses_indented,
      accesses_clauseHead hsubject, Stmt.flatMap_accesses_printAll body hbody,
      Stmt.flatMap_accesses_printClauses hsubject rest hrest, Stmt.accessesInClauses,
      List.append_assoc]

end

/-- The head of a method has no access. -/
lemma Method.accesses_head {m : Method} (h : m.WellFormed) : LogicGraph.accesses m.head = [] := by
  obtain ⟨hname, hparameters, -⟩ := h
  have hquiet : ∀ s, IsIdentifier s → Quiet s.toList := by
    intro s hs
    refine quiet_of_foreign (fun c hc => isWordChar_of_isIdentifierChar (hs.2.1 c hc)) ?_
    -- the dot of a word of the object is no character of an identifier
    cases hstem : afterStem? "self.".toList s.toList with
    | none => rfl
    | some rest =>
      rw [afterStem?_eq_some_iff] at hstem
      exact absurd (hs.2.1 '.' (hstem ▸ List.mem_append_left _ (by decide))) (by decide)
  have hlist : ∀ p ∈ "self" :: m.parameters, Reads (id p).toList [] := by
    rw [List.forall_mem_cons]
    exact ⟨(hquiet "self" (by decide)).reads, fun p hp => (hquiet p (hparameters p hp)).reads⟩
  have hcomma : Gap ", ".toList := ⟨by decide, by decide, fun _ => rfl⟩
  have hclose : Gap "):".toList := ⟨by decide, by decide, fun _ => rfl⟩
  have hparts := (reads_intercalate hcomma hlist).append_gap hclose
  rw [List.map_id, List.flatMap_eq_nil_iff.mpr fun _ _ => rfl] at hparts
  have hscan : scan
      ("(".toList ++ ((", ".intercalate ("self" :: m.parameters)).toList ++ "):".toList)) = [] :=
    hparts.scan_eq
  rw [LogicGraph.accesses, Method.head]
  simp only [String.toList_append, List.append_assoc]
  refine (hquiet m.name hname _ ?_).trans hscan
  intro c hc
  obtain rfl := Option.mem_some_iff.mp hc
  rfl

/-- The accesses in the lines of a method are those of its body. -/
lemma Method.flatMap_accesses_print {m : Method} (h : m.WellFormed) :
    m.print.flatMap LogicGraph.accesses = Stmt.accessesIn m.body := by
  rw [Method.print, List.flatMap_cons, accesses_indented, Method.accesses_head h,
    Stmt.flatMap_accesses_printAll m.body h.2.2.2, List.nil_append]

example : accesses "if self.a == 'self.b': return self.c(), 1.0  # self.d" =
    [.member "a", .call "c"] := by decide

/-! ## Assigned variables -/

/-- White space in front of a line does not change what it assigns. -/
lemma assignedName?_indented (d : Nat) (s : String) :
    assignedName? (indented d s) = assignedName? s := by
  rw [assignedName?, assignedName?, dropWhile_indented]

/-- The variable of an assignment is read off its text. -/
lemma assignedName?_assignText {name : String} (h : IsIdentifier name) (rhs : Rhs)
    (remark : Option String) :
    assignedName? (assignText name rhs remark) = some name := by
  obtain ⟨rest, hrest⟩ : ∃ rest, assignText name rhs remark = variableText name ++ " = " ++ rest :=
    ⟨_, String.append_assoc ..⟩
  have hword : ∀ c ∈ name.toList, isWordChar c = true :=
    fun c hc => isWordChar_of_isIdentifierChar (h.2.1 c hc)
  have htake : (name.toList ++ (" = ".toList ++ rest.toList)).takeWhile isWordChar =
      name.toList := by
    rw [List.takeWhile_append_of_pos hword]
    exact List.append_nil _
  have hstem : afterStem? "self.".toList
      ((variableText name ++ " = " ++ rest).toList.dropWhile (· == ' ')) =
      some (name.toList ++ (" = ".toList ++ rest.toList)) := by
    rw [afterStem?_eq_some_iff, String.toList_append, String.toList_append, variableText,
      String.toList_append]
    simp
  have hsign : afterStem? " = ".toList (" = ".toList ++ rest.toList) = some rest.toList :=
    afterStem?_eq_some_iff.mpr rfl
  rw [hrest, assignedName?, hstem]
  simp only [Option.bind_eq_bind, Option.bind_some, htake, List.drop_left, hsign]
  exact congrArg some String.ofList_toList

end LogicGraph
