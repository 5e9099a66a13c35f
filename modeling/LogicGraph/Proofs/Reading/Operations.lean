import Mathlib.Algebra.BigOperators.Group.List.Basic
import Mathlib.Algebra.Order.Field.Rat
import LogicGraph.Proofs.Emission.Walk
import LogicGraph.Proofs.Graph.Wiring
import LogicGraph.Proofs.Reading.Grammar

set_option relaxedAutoImplicit false
set_option autoImplicit false

/-!
# The meaning of operations

The statement for a node with an operation is put together as text: the sources of a port with plus
signs between them, in brackets if there are several, and the sign of the operation between the
texts of the two ports. This module reads the text back. By the grammar of expressions it has one
tree, in which the operation has the two sums as its operands, and the value of the tree is the
operation on the sums of the values.

## Main definitions

* `LogicGraph.Grammar.Tree.eval` — the value of an expression in a state, over the rational numbers.
* `LogicGraph.Writes` — a text that is read as a phrase.
* `LogicGraph.Arithmetic.tree`, `LogicGraph.Comparison.tree` — the expression for an operation.
* `LogicGraph.Scope.portTree`, `LogicGraph.Scope.portValue` — the sum of what is wired into a port.
* `LogicGraph.AssignsTree` — an assignment whose right-hand side has one tree.

## Main results

* `LogicGraph.FanIn.writes_reduceTerms` — however many sources a port has, its text is read as their
  sum.
* `LogicGraph.Rhs.writes_arithmetic`, `LogicGraph.Rhs.writes_comparison` — the operations between
  such texts.
* `LogicGraph.Scope.node_assigns_operation` — what the statement for a node means.

## Design

Texts are put together from phrases that bind most tightly: a term alone is one, and a sum of
several is one for its brackets. So the sign between two of them is never taken for part of another
operation.
-/

namespace LogicGraph

open Grammar Text

/-! ## Values -/

/-- The number that a decimal stands for. -/
def Decimal.value (t : Decimal) : ℚ :=
  t.digits * 10 ^ t.exponent

/-- The result of an operation of arithmetic; there is none if the divisor is zero. -/
def Arithmetic.result? : Arithmetic → ℚ → ℚ → Option ℚ
  | add, x, y => some (x + y)
  | sub, x, y => some (x - y)
  | mul, x, y => some (x * y)
  | div, x, y => if y = 0 then none else some (x / y)

/-- Whether a comparison holds. -/
def Comparison.holds : Comparison → ℚ → ℚ → Bool
  | eq, x, y => decide (x = y)
  | ne, x, y => decide (x ≠ y)
  | gt, x, y => decide (y < x)
  | lt, x, y => decide (x < y)
  | ge, x, y => decide (y ≤ x)
  | le, x, y => decide (x ≤ y)

namespace Grammar.Tree

/-- The value of an expression, where `state` has the values of the variables of the object. Numbers
are exact, a comparison has the value one if it holds and zero otherwise, and a test holds if its
value is not zero. -/
def eval (state : String → ℚ) : Tree → Option ℚ
  | name _ => none
  | member object s => if object = name "self" then some (state s) else none
  | number t => some t.value
  | arithmetic op a b => (a.eval state).bind fun x => (b.eval state).bind fun y => op.result? x y
  | comparison op a b =>
      (a.eval state).bind fun x => (b.eval state).map fun y => if op.holds x y then 1 else 0
  | choice test a b => (test.eval state).bind fun x => if x = 0 then b.eval state else a.eval state

/-- The sum of expressions, grouped to the left; zero if there are none. -/
def sum : List Tree → Tree
  | [] => number ⟨0, 0⟩
  | t :: ts => ts.foldl (arithmetic .add) t

/-- The values of expressions are added to the value of the one in front. -/
lemma eval_foldl_add {state : String → ℚ} {ts : List Tree} {xs : List ℚ}
    (h : List.Forall₂ (fun t x => t.eval state = some x) ts xs) {t : Tree} {x : ℚ}
    (ht : t.eval state = some x) :
    (ts.foldl (arithmetic .add) t).eval state = some (x + xs.sum) := by
  induction h generalizing t x with
  | nil => rw [List.foldl_nil, ht, List.sum_nil, add_zero]
  | @cons u y us ys hu _ ih =>
    have hstep : (arithmetic .add t u).eval state = some (x + y) := by
      rw [eval, ht, hu]
      rfl
    rw [List.foldl_cons, ih hstep, List.sum_cons, add_assoc]

/-- The value of a sum is the sum of the values. -/
lemma eval_sum {state : String → ℚ} {ts : List Tree} {xs : List ℚ}
    (h : List.Forall₂ (fun t x => t.eval state = some x) ts xs) :
    (sum ts).eval state = some xs.sum := by
  cases h with
  | nil => simp [sum, eval, Decimal.value]
  | cons ht htail => rw [sum, eval_foldl_add htail ht, List.sum_cons]

end Grammar.Tree

/-! ## Expressions as they are read -/

/-- A text that is read as a phrase with the given tree. -/
def Writes (l : Phrase) (cs : List Char) (t : Tree) : Prop :=
  ∃ ts, Lexes cs ts ∧ Derives l ts t

/-- What binds most tightly may stand everywhere. -/
lemma Writes.loosen {cs : List Char} {t : Tree} (h : Writes .primary cs t) (l : Phrase) :
    Writes l cs t := by
  obtain ⟨ts, hts, ht⟩ := h
  refine ⟨ts, hts, ?_⟩
  cases l with
  | primary => exact ht
  | product => exact ht.primary
  | sum => exact ht.primary.product
  | comparison => exact ht.primary.product.sum
  | expression => exact ht.primary.product.sum.comparison

/-- A sum may stand for an expression. -/
lemma Writes.expression {cs : List Char} {t : Tree} (h : Writes .sum cs t) :
    Writes .expression cs t := by
  obtain ⟨ts, hts, ht⟩ := h
  exact ⟨ts, hts, ht.sum.comparison⟩

/-- An expression in brackets. -/
lemma Writes.bracketed {cs : List Char} {t : Tree} (h : Writes .expression cs t) :
    Writes .primary ('(' :: (cs ++ [')'])) t := by
  obtain ⟨ts, hts, ht⟩ := h
  exact ⟨_, (hts.enclosed (by decide) (by decide)).lexes, ht.brackets⟩

/-- The signs of the operations of arithmetic and of comparisons are signs of the language. -/
lemma Arithmetic.sign_mem_signs (op : Arithmetic) : op.sign ∈ signs := by
  cases op <;> decide

/-- The sign of a comparison is one of the signs. -/
lemma Comparison.sign_mem_signs (op : Comparison) : op.sign ∈ signs := by
  cases op <;> decide

/-- A sum or a difference whose right operand binds most tightly. -/
lemma Writes.add {cs ds : List Char} {a b : Tree} (ha : Writes .sum cs a)
    (hb : Writes .primary ds b) {op : Arithmetic} (hop : op ∈ [.add, .sub]) :
    Writes .sum (cs ++ ' ' :: (op.sign.toList ++ ' ' :: ds)) (.arithmetic op a b) := by
  obtain ⟨ts, hts, ha⟩ := ha
  obtain ⟨us, hus, hb⟩ := hb
  exact ⟨_, hts.join op.sign_mem_signs hus, ha.add hb.primary hop⟩

/-- An operation of arithmetic on two expressions that bind most tightly. -/
lemma Writes.arithmetic {cs ds : List Char} {a b : Tree} (ha : Writes .primary cs a)
    (hb : Writes .primary ds b) (op : Arithmetic) :
    Writes .sum (cs ++ ' ' :: (op.sign.toList ++ ' ' :: ds)) (.arithmetic op a b) := by
  cases op with
  | add | sub => exact (ha.loosen .sum).add hb (by decide)
  | mul | div =>
    obtain ⟨ts, hts, ha⟩ := ha
    obtain ⟨us, hus, hb⟩ := hb
    exact ⟨_, hts.join (Arithmetic.sign_mem_signs _) hus,
      (ha.primary.multiply hb (by decide)).product⟩

/-- A comparison of two expressions that bind most tightly. -/
lemma Writes.compare {cs ds : List Char} {a b : Tree} (ha : Writes .primary cs a)
    (hb : Writes .primary ds b) (op : Comparison) :
    Writes .comparison (cs ++ ' ' :: (op.sign.toList ++ ' ' :: ds)) (.comparison op a b) := by
  obtain ⟨ts, hts, ha⟩ := ha.loosen .sum
  obtain ⟨us, hus, hb⟩ := hb.loosen .sum
  exact ⟨_, hts.join op.sign_mem_signs hus, ha.compare op hb⟩

/-- A choice between two expressions that bind most tightly. -/
lemma Writes.choice {cs ds es : List Char} {test a b : Tree} (ha : Writes .primary cs a)
    (htest : Writes .comparison ds test) (hb : Writes .primary es b) :
    Writes .expression
      (cs ++ ' ' :: ("if".toList ++ ' ' :: (ds ++ ' ' :: ("else".toList ++ ' ' :: es))))
        (.choice test a b) := by
  obtain ⟨ts, hts, ha⟩ := ha.loosen .comparison
  obtain ⟨us, hus, htest⟩ := htest
  obtain ⟨vs, hvs, hb⟩ := hb.loosen .expression
  have hif : Lexes "if".toList [.name "if"] := lexes_name (by decide) (by decide) (by decide)
  have helse : Lexes "else".toList [.name "else"] := lexes_name (by decide) (by decide) (by decide)
  exact ⟨_, hts.spaced (hif.spaced (hus.spaced (helse.spaced hvs))), ha.choice htest hb⟩

/-! ## Terms and sums -/

/-- An identifier is no word of the language. -/
lemma Text.IsIdentifier.not_mem_reservedWords {s : String} (h : IsIdentifier s) :
    s ∉ reservedWords := by
  obtain ⟨hword, hkeyword⟩ := isIdentifier_iff.mp h
  have hcapital : ∀ word ∈ ["None", "True", "False"], ¬ IsWord word := by decide
  intro hs
  rcases List.mem_append.mp (show s ∈ ["None", "True", "False"] ++ keywords from hs) with hs | hs
  · exact hcapital s hs hword
  · exact hkeyword hs

/-- The tree of a term. -/
def Term.tree : Term → Tree
  | .member name => .member (.name "self") name
  | .zero => .number ⟨0, 0⟩
  | .one => .number ⟨10, -1⟩
  | .noReward => .number ⟨0, -1⟩

/-- A term is read as its tree. -/
lemma Term.WellFormed.writes {t : Term} (h : t.WellFormed) :
    Writes .primary t.text.toList t.tree := by
  cases t with
  | member name =>
    have hself : Derives .primary [.name "self"] (.name "self") := .name (by decide)
    exact ⟨_, lexes_variableText h, hself.member (Text.IsIdentifier.not_mem_reservedWords h)⟩
  | zero => exact ⟨_, lexes_toDigits 0, .integer 0⟩
  | one =>
    have hnumeral :=
      Decimal.hasNumeral_pointed ['1'] ['0'] (n := 10) (by decide) (by decide) (by decide) rfl rfl
    exact ⟨_, hnumeral.lexes, .decimal _⟩
  | noReward =>
    have hnumeral :=
      Decimal.hasNumeral_pointed ['0'] ['0'] (n := 0) (by decide) (by decide) (by decide) rfl rfl
    exact ⟨_, hnumeral.lexes, .decimal _⟩

/-- A sum is read from the left. -/
lemma Writes.foldl_add {ts : List Term} (h : ∀ t ∈ ts, t.WellFormed) {cs : List Char} {a : Tree}
    (ha : Writes .sum cs a) :
    Writes .sum (cs ++ ts.flatMap fun t => " + ".toList ++ t.text.toList)
      ((ts.map Term.tree).foldl (.arithmetic .add) a) := by
  induction ts generalizing cs a with
  | nil => simpa using ha
  | cons t ts ih =>
    obtain ⟨ht, hts⟩ := List.forall_mem_cons.mp h
    rw [List.flatMap_cons, ← List.append_assoc, List.map_cons, List.foldl_cons]
    exact ih hts (ha.add ht.writes (show Arithmetic.add ∈ _ by decide))

/-- Texts with a separator between them, as characters. -/
lemma toList_intercalate_cons (sep s : String) (ss : List String) :
    (sep.intercalate (s :: ss)).toList =
      s.toList ++ ss.flatMap fun u => sep.toList ++ u.toList := by
  induction ss generalizing s with
  | nil => simp
  | cons u ss ih =>
    rw [String.intercalate_cons_cons, String.toList_append, String.toList_append, ih,
      List.flatMap_cons, List.append_assoc, List.append_assoc]

/-- The value of a port is read as the sum of its sources, however many there are. -/
lemma FanIn.writes_reduceTerms {ts : List Term} (h : ∀ t ∈ ts, t.WellFormed) :
    Writes .primary (FanIn.sum.reduceTerms .zero ts).text.toList (Tree.sum (ts.map Term.tree)) := by
  match ts with
  | [] => exact Term.WellFormed.writes (t := .zero) trivial
  | [t] => exact (h t List.mem_cons_self).writes
  | t :: u :: rest =>
    obtain ⟨ht, hrest⟩ := List.forall_mem_cons.mp h
    have hsum := ((ht.writes.loosen .sum).foldl_add hrest).expression.bracketed
    have htext : (Expr.sum (t :: u :: rest)).text.toList =
        '(' :: (t.text.toList ++
          ((u :: rest).flatMap fun t => " + ".toList ++ t.text.toList) ++ [')']) := by
      rw [Expr.text, sumText, List.map_cons, String.toList_append, String.toList_append,
        toList_intercalate_cons, List.flatMap_map]
      rfl
    exact htext ▸ hsum

/-! ## Operations -/

/-- The tree of an operation of arithmetic; a divisor is kept away from zero. -/
def Arithmetic.tree (op : Arithmetic) (a b : Tree) : Tree :=
  .arithmetic op a (if op = .div then .arithmetic .add b (.number ⟨1, -8⟩) else b)

/-- The tree of a comparison, with one for true and zero for false. -/
def Comparison.tree (op : Comparison) (a b : Tree) : Tree :=
  .choice (.comparison op a b) (.number ⟨10, -1⟩) (.number ⟨0, -1⟩)

/-- What is added to divisors is read as a number. -/
lemma writes_epsilon : Writes .primary epsilon.toList (.number ⟨1, -8⟩) := by
  refine ⟨[.decimal ⟨1, -8⟩], lexes_numeral (by decide) (by decide) fun rest hrest => ?_,
    .decimal _⟩
  have htake : (epsilon.toList ++ rest).takeWhile Char.isDigit = ['1'] := rfl
  have hdrop : (epsilon.toList ++ rest).dropWhile Char.isDigit = 'e' :: '-' :: '8' :: rest := rfl
  have hexponent := exponentPart_append true (List.cons_ne_nil '8' []) (by decide) hrest
  exact numeral?_of_parts htake hdrop rfl hexponent rfl hrest

/-- An operation of arithmetic is read as its tree. -/
lemma Rhs.writes_arithmetic {a b : Expr} {s t : Tree} (ha : Writes .primary a.text.toList s)
    (hb : Writes .primary b.text.toList t) (op : Arithmetic) :
    Writes .expression (Rhs.arithmetic op a b).text.toList (op.tree s t) := by
  by_cases hop : op = .div
  · subst hop
    have htext : (Rhs.arithmetic .div a b).text.toList =
        a.text.toList ++ ' ' :: (Arithmetic.div.sign.toList ++ ' ' ::
          ('(' :: (b.text.toList ++ ' ' ::
            (Arithmetic.add.sign.toList ++ ' ' :: epsilon.toList) ++ [')']))) := by
      simp [Rhs.text, toString, Arithmetic.sign]
    have hdivisor := (hb.arithmetic writes_epsilon .add).expression.bracketed
    exact htext ▸ (ha.arithmetic hdivisor .div).expression
  · have htext : (Rhs.arithmetic op a b).text.toList =
        a.text.toList ++ ' ' :: (op.sign.toList ++ ' ' :: b.text.toList) := by
      cases op <;> simp_all [Rhs.text, toString]
    rw [htext, Arithmetic.tree, if_neg hop]
    exact (ha.arithmetic hb op).expression

/-- A comparison is read as its tree. -/
lemma Rhs.writes_comparison {a b : Expr} {s t : Tree} (ha : Writes .primary a.text.toList s)
    (hb : Writes .primary b.text.toList t) (op : Comparison) :
    Writes .expression (Rhs.comparison op a b).text.toList (op.tree s t) := by
  have htext : (Rhs.comparison op a b).text.toList =
      Term.one.text.toList ++ ' ' :: ("if".toList ++ ' ' ::
        ((a.text.toList ++ ' ' :: (op.sign.toList ++ ' ' :: b.text.toList)) ++ ' ' ::
          ("else".toList ++ ' ' :: Term.noReward.text.toList))) := by
    simp [Rhs.text, toString, Term.text]
  have hone : Term.one.WellFormed := trivial
  have hzero : Term.noReward.WellFormed := trivial
  exact htext ▸ hone.writes.choice (ha.compare hb op) hzero.writes

/-- The value of an operation of arithmetic. -/
lemma Arithmetic.eval_tree {state : String → ℚ} {a b : Tree} {x y : ℚ} (ha : a.eval state = some x)
    (hb : b.eval state = some y) (op : Arithmetic) :
    (op.tree a b).eval state = op.result? x (if op = .div then y + 10 ^ (-8 : ℤ) else y) := by
  by_cases hop : op = .div
  · simp [tree, hop, Tree.eval, ha, hb, result?, Decimal.value]
  · simp [tree, hop, Tree.eval, ha, hb]

/-- The value of a comparison. -/
lemma Comparison.eval_tree {state : String → ℚ} {a b : Tree} {x y : ℚ} (ha : a.eval state = some x)
    (hb : b.eval state = some y) (op : Comparison) :
    (op.tree a b).eval state = some (if op.holds x y then 1 else 0) := by
  cases h : op.holds x y <;> simp [tree, Tree.eval, ha, hb, h, Decimal.value]

/-! ## The operation of a node -/

/-- The operation that is named by its sign, or the given one if no operation is named. -/
def IsChosen {α : Type} (sign : α → String) (default : α) (s : Option String) (op : α) : Prop :=
  s = some (sign op) ∨ op = default ∧ ∀ other, s ≠ some (sign other)

/-- The first operation in a list of all that has the named sign is the chosen one. -/
lemma isChosen_find? {α : Type} {sign : α → String} {all : List α} (hall : ∀ op, op ∈ all)
    (default : α) (s : Option String) :
    IsChosen sign default s ((all.find? fun op => some (sign op) == s).getD default) := by
  cases h : all.find? fun op => some (sign op) == s with
  | none => exact .inr ⟨rfl, fun op hs => by simpa [hs] using List.find?_eq_none.mp h op (hall op)⟩
  | some op =>
    have hop := List.find?_some h
    exact .inl (eq_of_beq hop).symm

/-- An arithmetic operation is chosen by its sign. -/
lemma Arithmetic.isChosen_ofSign (s : Option String) : IsChosen sign add s (ofSign s) :=
  isChosen_find? (fun op => by cases op <;> decide) add s

/-- A comparison is chosen by its sign. -/
lemma Comparison.isChosen_ofSign (s : Option String) : IsChosen sign eq s (ofSign s) :=
  isChosen_find? (fun op => by cases op <;> decide) eq s

/-- What is read from the nodes that are wired into a port, for each edge in order whose source
exists. -/
def Graph.wired {α : Type} (g : Graph) (id port : String) (read : Node → α) : List α :=
  g.edges.filterMap fun e => if e.target = id ∧
    e.targetHandle = port then (g.node? e.source).map read else none

/-- What is wired to a port without other names are its sources. -/
lemma Graph.wired_eq_map_sources {α : Type} (g : Graph) (id : String) {port : String}
    (hport : portAliases port = [port]) (read : Node → α) :
    g.wired id port read = (g.sources id port).map read := by
  rw [sources_eq_filterMap, hport, List.map_filterMap, wired]
  congr 1
  funext e
  split_ifs <;> simp_all

/-- Statements that are one assignment to the given variable. The line is read as the assignment at
every depth, and the only tree of its right-hand side is the given one. -/
def AssignsTree (body : List Stmt) (name : String) (tree : Tree) : Prop :=
  ∃ rhs ts, body = [.assign name rhs none] ∧ tokens rhs.text.toList = some ts ∧
    (∀ depth, ∃ line, Stmt.lines depth body = [line] ∧
      tokens line.toList = some (.name "self" :: .sign "." :: .name name :: .sign "=" :: ts)) ∧
    ∀ t, Derives .expression ts t ↔ t = tree

/-- An assignment of an expression assigns the tree that it is read as. -/
lemma Writes.assignsTree {rhs : Rhs} {tree : Tree} (h : Writes .expression rhs.text.toList tree)
    {name : String} (hname : IsIdentifier name) :
    AssignsTree [.assign name rhs none] name tree := by
  obtain ⟨ts, hts, htree⟩ := h
  refine ⟨rhs, ts, rfl, hts.tokens_eq, tokens_lines_assign hname hts,
    fun t => ⟨fun ht => ht.unique htree, ?_⟩⟩
  rintro rfl
  exact htree

namespace Scope

variable {s : Scope}

/-- The expression that reads a node: its variable, or a constant if it has none. -/
def valueTree (s : Scope) (n : Node) : Tree :=
  if n.declaresVariable then .member (.name "self") (s.nameOf n)
  else if n.kind.isTrigger then .number ⟨10, -1⟩
  else .number ⟨0, 0⟩

/-- The value of a node: that of its variable, one for a trigger and zero for other nodes without a
variable. -/
def reading (s : Scope) (state : String → ℚ) (n : Node) : ℚ :=
  if n.declaresVariable then state (s.nameOf n) else if n.kind.isTrigger then 1 else 0

/-- The tree of a term for a node is that of its value. -/
lemma tree_valueTerm (n : Node) : (s.valueTerm n).tree = s.valueTree n := by
  unfold valueTerm valueTree
  split_ifs <;> rfl

/-- The value of a node in a state is what the state says of it. -/
lemma eval_valueTree (state : String → ℚ) (n : Node) :
    (s.valueTree n).eval state = some (s.reading state n) := by
  unfold valueTree reading
  split_ifs <;> simp [Tree.eval, Decimal.value]

/-- The sum of the expressions that read what is wired into a port. -/
def portTree (s : Scope) (n : Node) (port : String) : Tree :=
  Tree.sum (s.graph.wired n.id port s.valueTree)

/-- The sum of the values of what is wired into a port. -/
def portValue (s : Scope) (state : String → ℚ) (n : Node) (port : String) : ℚ :=
  (s.graph.wired n.id port (s.reading state)).sum

/-- The value of a port is read as the sum over the edges into it. -/
lemma Named.writes_port (hs : s.Named) {n : Node} {port : String}
    (hport : portAliases port = [port]) :
    Writes .primary (FanIn.sum.reduceTerms .zero (s.sourceTerms n port)).text.toList
      (s.portTree n port) := by
  have htrees : (s.sourceTerms n port).map Term.tree = s.graph.wired n.id port s.valueTree := by
    rw [sourceTerms, List.map_map, Graph.wired_eq_map_sources _ _ hport]
    exact List.map_congr_left fun m _ => tree_valueTerm m
  rw [portTree, ← htrees]
  exact FanIn.writes_reduceTerms hs.wellFormed_of_mem_sourceTerms

/-- The value of a port is the sum of the values of the nodes that are wired into it. -/
lemma eval_portTree (state : String → ℚ) (n : Node) {port : String}
    (hport : portAliases port = [port]) :
    (s.portTree n port).eval state = some (s.portValue state n port) := by
  refine Tree.eval_sum ?_
  rw [Graph.wired_eq_map_sources _ _ hport, Graph.wired_eq_map_sources _ _ hport,
    List.forall₂_map_left_iff, List.forall₂_map_right_iff, List.forall₂_same]
  exact fun m _ => eval_valueTree state m

/-- The walk gives one step for a node that is not on its own way. -/
lemma node_succ {n : Node} (hn : n ∈ s.graph.nodes) {way : List String} (hway : n.id ∉ way)
    (limit : Nat) :
    s.node (limit + 1) way n.id = s.existing (s.node limit (n.id :: way)) n := by
  rw [node, Graph.node?_eq_some_iff.mpr ⟨hn, rfl⟩]
  exact if_neg hway

/-- The statement for an arithmetic node, in two sums. -/
lemma Named.exists_arithmetic (hs : s.Named) (n : Node) :
    ∃ body, (s.arithmetic n).outcome = .ok body ∧
      AssignsTree body (s.nameOf n)
        ((Arithmetic.ofSign n.operation).tree (s.portTree n "a") (s.portTree n "b")) := by
  have ha : Writes .primary _ (s.portTree n "a") := hs.writes_port rfl
  have hb : Writes .primary _ (s.portTree n "b") := hs.writes_port rfl
  exact ⟨_, by simp [arithmetic, inputExpr], (Rhs.writes_arithmetic ha hb _).assignsTree (hs n.id)⟩

/-- The statement for a comparison, in two sums. -/
lemma Named.exists_comparison (hs : s.Named) (n : Node) :
    ∃ body, (s.comparison n).outcome = .ok body ∧
      AssignsTree body (s.nameOf n)
        ((Comparison.ofSign n.operation).tree (s.portTree n "a") (s.portTree n "b")) := by
  have ha : Writes .primary _ (s.portTree n "a") := hs.writes_port rfl
  have hb : Writes .primary _ (s.portTree n "b") := hs.writes_port rfl
  exact ⟨_, by simp [comparison, inputExpr], (Rhs.writes_comparison ha hb _).assignsTree (hs n.id)⟩

/-- **What the statement for a node with an operation means.** The walk gives one assignment to the
variable of the node. Its right-hand side has one tree: the operation of the node, or the first one
if it names none that is allowed, applied to the sums of what is wired into its two ports, in the
order of the edges. In every state its value is the operation on the sums of the values; a divisor
is kept away from zero, and a comparison is one or zero. -/
theorem node_assigns_operation {g : Graph} {n : Node} (hn : n ∈ g.nodes)
    (hkind : n.kind = .math ∨ n.kind = .compare) {way : List String} (hway : n.id ∉ way)
    (r : NameRules) (limit : Nat) :
    let s : Scope := ⟨g, NameTable.ofGraph g r⟩
    ∃ body tree, (s.node (limit + 1) way n.id).outcome = .ok body ∧
      AssignsTree body (s.nameOf n) tree ∧
      (n.kind = .math → ∃ op, IsChosen Arithmetic.sign .add n.operation op ∧
        tree = op.tree (s.portTree n "a") (s.portTree n "b") ∧
        ∀ state, tree.eval state = op.result? (s.portValue state n "a")
          (if op = .div then s.portValue state n "b" + 10 ^ (-8 : ℤ)
            else s.portValue state n "b")) ∧
      (n.kind = .compare → ∃ op, IsChosen Comparison.sign .eq n.operation op ∧
        tree = op.tree (s.portTree n "a") (s.portTree n "b") ∧
        ∀ state, tree.eval state = some
          (if op.holds (s.portValue state n "a") (s.portValue state n "b") then 1 else 0)) := by
  intro s
  have hs : s.Named := named_ofGraph g r
  have ha : ∀ state, (s.portTree n "a").eval state = some (s.portValue state n "a") :=
    fun state => eval_portTree state n rfl
  have hb : ∀ state, (s.portTree n "b").eval state = some (s.portValue state n "b") :=
    fun state => eval_portTree state n rfl
  rw [node_succ (s := s) hn hway]
  rcases hkind with hkind | hkind
  · obtain ⟨body, hbody, hassigns⟩ := hs.exists_arithmetic n
    refine ⟨body, _, by rwa [existing, hkind], hassigns, fun _ => ?_, fun h => by simp [hkind] at h⟩
    exact ⟨_, Arithmetic.isChosen_ofSign _, rfl,
      fun state => Arithmetic.eval_tree (ha state) (hb state) _⟩
  · obtain ⟨body, hbody, hassigns⟩ := hs.exists_comparison n
    refine ⟨body, _, by rwa [existing, hkind], hassigns, fun h => by simp [hkind] at h, fun _ => ?_⟩
    exact ⟨_, Comparison.isChosen_ofSign _, rfl,
      fun state => Comparison.eval_tree (ha state) (hb state) _⟩

/-- A quotient of sums. One of the wires comes from nowhere, one from a trigger, and the first two
nodes ask for one name. -/
def ratioGraph : Graph where
  nodes :=
    [{ id := "x", kind := .state }, { id := "y", kind := .state, customName := some "x" },
      { id := "go", kind := .action },
    { id := "r", kind := .math, operation := some "/" }]
  edges :=
    [⟨"e1", "y", "current_value", "r", "a"⟩, ⟨"e2", "go", "trigger", "r", "b"⟩,
      ⟨"e3", "lost", "out", "r", "a"⟩,
    ⟨"e4", "x", "current_value", "r", "a"⟩, ⟨"e5", "y", "current_value", "r", "b"⟩]
  nodes_nodup := by decide

/-- The quotient in `ratioGraph` is that of the two sums, with the names that the nodes were
given. -/
theorem node_assigns_operation_ratioGraph :
    let n : Node := { id := "r", kind := .math, operation := some "/" }
    let s : Scope := ⟨ratioGraph, NameTable.ofGraph ratioGraph eventRules⟩
    (n ∈ ratioGraph.nodes ∧ n.kind = .math ∧ n.id ∉ ["go"]) ∧
      (s.node 1 ["go"] n.id).outcome.toOption.map (Stmt.lines 2) =
        some ["        self.r = (self.x_2 + self.x) / ((1.0 + self.x_2) + 1e-8)"] ∧
      ∃ body tree, (s.node 1 ["go"] n.id).outcome = .ok body ∧ AssignsTree body (s.nameOf n) tree ∧
        (n.kind = .math → ∃ op, IsChosen Arithmetic.sign .add n.operation op ∧
          tree = op.tree (s.portTree n "a") (s.portTree n "b") ∧
          ∀ state, tree.eval state = op.result? (s.portValue state n "a")
            (if op = .div then s.portValue state n "b" + 10 ^ (-8 : ℤ)
              else s.portValue state n "b")) ∧
        (n.kind = .compare → ∃ op, IsChosen Comparison.sign .eq n.operation op ∧
          tree = op.tree (s.portTree n "a") (s.portTree n "b") ∧
          ∀ state, tree.eval state = some
            (if op.holds (s.portValue state n "a") (s.portValue state n "b") then 1 else 0)) := by
  intro n s
  exact ⟨by decide, rfl, node_assigns_operation (by decide) (by decide) (by decide) eventRules 0⟩

end Scope

end LogicGraph
