import LogicGraph.Proofs.Reading.Tokens

set_option relaxedAutoImplicit false
set_option autoImplicit false

/-!
# The grammar of expressions

The part of the grammar of the generated language that its expressions are written in: names,
numerals, members of objects, brackets, the four operations of arithmetic, comparisons and
conditional expressions. Its rules say which operators bind more tightly than others and that
operators of arithmetic group to the left. By them a sequence of tokens has at most one tree.

## Main definitions

* `LogicGraph.Grammar.Tree` — the trees of expressions.
* `LogicGraph.Grammar.Phrase`, `LogicGraph.Grammar.Derives` — the grammar.
* `LogicGraph.Grammar.parse` — a reader that finds the tree.

## Main results

* `LogicGraph.Grammar.Derives.parse_eq` — the tree of a derivation is the one that the reader finds.
* `LogicGraph.Grammar.Derives.unique` — an expression has one tree.

## Design

The reader keeps a stack of unfinished expressions. An operand is given to the operator in front of
it as soon as an operator follows that does not bind more tightly. So a phrase is read to its tree
in front of everything that does not go on with it, if no operator waits on the stack that binds as
tightly as those of the phrase; this is what the induction over derivations shows.
-/

namespace LogicGraph.Grammar

/-! ## Trees -/

/-- The tree of an expression. -/
inductive Tree where
  /-- A name. -/
  | name (s : String)
  /-- A member of an object. -/
  | member (object : Tree) (s : String)
  /-- A number. -/
  | number (t : Decimal)
  /-- An operation of arithmetic. -/
  | arithmetic (op : Arithmetic) (a b : Tree)
  /-- A comparison. -/
  | comparison (op : Comparison) (a b : Tree)
  /-- The first expression if the test holds, and the second one otherwise. -/
  | choice (test a b : Tree)
  deriving DecidableEq, Repr

/-- An operator with two operands. -/
inductive Operator where
  /-- An operator of arithmetic. -/
  | arithmetic (op : Arithmetic)
  /-- A comparison. -/
  | comparison (op : Comparison)
  deriving DecidableEq, Repr

namespace Operator

/-- How an operator is written. -/
def sign : Operator → String
  | arithmetic op => op.sign
  | comparison op => op.sign

/-- The tree of an operation. -/
def tree : Operator → Tree → Tree → Tree
  | arithmetic op => .arithmetic op
  | comparison op => .comparison op

/-- How tightly an operator binds. -/
def strength : Operator → Nat
  | comparison _ => 1
  | arithmetic .add | arithmetic .sub => 2
  | arithmetic .mul | arithmetic .div => 3

/-- All operators. -/
def all : List Operator :=
  Arithmetic.all.map arithmetic ++ Comparison.all.map comparison

/-- The operator that is written as the given sign. -/
def ofSign? (s : String) : Option Operator :=
  all.find? fun op => op.sign == s

/-- An operator is found by its sign. -/
@[simp] lemma ofSign?_sign (op : Operator) : ofSign? op.sign = some op := by
  cases op with
  | arithmetic op => cases op <;> decide
  | comparison op => cases op <;> decide

/-- Every operator binds. -/
lemma strength_pos (op : Operator) : 1 ≤ op.strength := by
  cases op with
  | arithmetic op => cases op <;> decide
  | comparison op => exact Nat.le_refl 1

end Operator

/-! ## The grammar -/

/-- The words of the language that are no names. -/
def reservedWords : List String :=
  "None" :: "True" :: "False" :: Text.keywords

/-- The kinds of phrases, each with the ones below it, from those that bind most loosely. -/
inductive Phrase where
  /-- A conditional expression or a comparison. -/
  | expression
  /-- A comparison of sums, or a sum. -/
  | comparison
  /-- A sum or a difference of products, or a product. -/
  | sum
  /-- A product or a quotient of primary expressions, or a primary expression. -/
  | product
  /-- A name, a number, a member or an expression in brackets. -/
  | primary
  deriving DecidableEq, Repr

/-- The tokens that make a phrase of a kind, and its tree. Sums and products group to the left;
comparisons do not group, and a conditional expression stands in another one only behind its `else`
or in brackets. -/
inductive Derives : Phrase → List Token → Tree → Prop where
  | name {s : String} (h : s ∉ reservedWords) : Derives .primary [.name s] (.name s)
  | integer (n : Nat) : Derives .primary [.integer n] (.number ⟨n, 0⟩)
  | decimal (t : Decimal) : Derives .primary [.decimal t] (.number t)
  | member {ts : List Token} {t : Tree} {s : String} (h : Derives .primary ts t)
    (hs : s ∉ reservedWords) :
      Derives .primary (ts ++ [.sign ".", .name s]) (.member t s)
  | brackets {ts : List Token} {t : Tree} (h : Derives .expression ts t) :
      Derives .primary (.sign "(" :: (ts ++ [.sign ")"])) t
  | primary {ts : List Token} {t : Tree} (h : Derives .primary ts t) : Derives .product ts t
  | multiply {ts us : List Token} {a b : Tree} {op : Arithmetic} (ha : Derives .product ts a)
    (hb : Derives .primary us b)
      (hop : op ∈ [.mul, .div]) : Derives .product (ts ++ .sign op.sign :: us) (.arithmetic op a b)
  | product {ts : List Token} {t : Tree} (h : Derives .product ts t) : Derives .sum ts t
  | add {ts us : List Token} {a b : Tree} {op : Arithmetic} (ha : Derives .sum ts a)
    (hb : Derives .product us b)
      (hop : op ∈ [.add, .sub]) : Derives .sum (ts ++ .sign op.sign :: us) (.arithmetic op a b)
  | sum {ts : List Token} {t : Tree} (h : Derives .sum ts t) : Derives .comparison ts t
  | compare {ts us : List Token} {a b : Tree} (op : Comparison) (ha : Derives .sum ts a)
    (hb : Derives .sum us b) :
      Derives .comparison (ts ++ .sign op.sign :: us) (.comparison op a b)
  | comparison {ts : List Token} {t : Tree} (h : Derives .comparison ts t) :
      Derives .expression ts t
  | choice {ts us vs : List Token} {test a b : Tree} (ha : Derives .comparison ts a)
    (htest : Derives .comparison us test)
      (hb : Derives .expression vs b) :
      Derives .expression (ts ++ .name "if" :: (us ++ .name "else" :: vs)) (.choice test a b)

/-! ## The reader -/

/-- An unfinished expression. -/
inductive Frame where
  /-- An open bracket. -/
  | bracket
  /-- A left operand and its operator. -/
  | left (a : Tree) (op : Operator)
  /-- The first part of a conditional expression. -/
  | test (a : Tree)
  /-- The first part of a conditional expression and its test. -/
  | otherwise (a test : Tree)
  deriving DecidableEq, Repr

/-- Gives an operand to the operators in front of it that bind at least as tightly as `k` says. -/
def reduce (k : Nat) : List Frame → Tree → List Frame × Tree
  | .left a op :: fs,
      t => if k ≤ op.strength then reduce k fs (op.tree a t) else (.left a op :: fs, t)
  | fs, t => (fs, t)

/-- Gives an operand to everything that waits for one up to the next bracket. -/
def reduceAll : List Frame → Tree → List Frame × Tree
  | .left a op :: fs, t => reduceAll fs (op.tree a t)
  | .otherwise a test :: fs, t => reduceAll fs (.choice test a t)
  | fs, t => (fs, t)

/-- What the reader has in front of it. -/
inductive Focus where
  /-- An operand is to be read. -/
  | none
  /-- An operand has been read. -/
  | operand (t : Tree)
  /-- The name of a member of an operand is to be read. -/
  | point (t : Tree)
  deriving DecidableEq, Repr

/-- What is unfinished after an operand and a word of a conditional expression behind it. -/
def stepWord (fs : List Frame) (t : Tree) (s : String) : Option (List Frame × Focus) :=
  if s = "if" then some (.test t :: fs, .none)
  else
    match fs with
    | .test a :: fs => if s = "else" then some (.otherwise a t :: fs, .none) else none
    | _ => none

/-- What is unfinished after one more token, and what the reader has in front of it then. -/
def step (fs : List Frame) : Focus → Token → Option (List Frame × Focus)
  | .none, .name s => if s ∈ reservedWords then none else some (fs, .operand (.name s))
  | .none, .integer n => some (fs, .operand (.number ⟨n, 0⟩))
  | .none, .decimal t => some (fs, .operand (.number t))
  | .none, .sign s => if s = "(" then some (.bracket :: fs, .none) else none
  | .point t, .name s => if s ∈ reservedWords then none else some (fs, .operand (.member t s))
  | .operand t, .name s => stepWord (reduce 1 fs t).1 (reduce 1 fs t).2 s
  | .operand t, .sign s =>
    if s = "." then some (fs, .point t)
    else if s = ")" then
      match reduceAll fs t with
      | (.bracket :: fs, t) => some (fs, .operand t)
      | _ => none
    else
      (Operator.ofSign? s).map fun op =>
        let (fs, t) := reduce op.strength fs t
        (.left t op :: fs, .none)
  | _, _ => none

/-- The tree of an expression after its last token. -/
def finish (fs : List Frame) : Focus → Option Tree
  | .operand t =>
    match reduceAll fs t with
    | ([], t) => some t
    | _ => none
  | _ => none

/-- The tree of an expression from the tokens that are left of it. -/
def parseFrom (fs : List Frame) (focus : Focus) : List Token → Option Tree
  | [] => finish fs focus
  | t :: ts => (step fs focus t).bind fun (fs, focus) => parseFrom fs focus ts

/-- The tree of an expression. -/
def parse (ts : List Token) : Option Tree :=
  parseFrom [] .none ts

/-! ## What the reader does -/

/-- No operator that binds as tightly as `k` says waits for an operand that is read next. -/
def Waits (k : Nat) (fs : List Frame) : Prop :=
  ∀ a op, fs.head? = some (.left a op) → op.strength < k

/-- Tokens that may stand behind an expression whose operators bind as tightly as `k` says: they do
not go on with it. -/
def Follows (k : Nat) : List Token → Prop
  | [] => True
  | .sign s :: _ => s = ")" ∨ ∃ op : Operator, s = op.sign ∧ op.strength ≤ k
  | .name s :: _ => 1 ≤ k ∧ s ∈ ["if", "else"]
  | _ => False

/-- What does not wait at a strength does not wait at a greater one. -/
lemma Waits.mono {k l : Nat} (hkl : k ≤ l) {fs : List Frame} (h : Waits k fs) : Waits l fs :=
  fun a op hop => Nat.lt_of_lt_of_le (h a op hop) hkl

/-- What may follow at a strength may follow at a greater one. -/
lemma Follows.mono {k l : Nat} (hkl : k ≤ l) {ts : List Token} (h : Follows k ts) :
    Follows l ts := by
  match ts with
  | [] => exact h
  | .sign s :: _ => exact h.imp_right fun ⟨op, hs, hop⟩ => ⟨op, hs, Nat.le_trans hop hkl⟩
  | .name s :: _ => exact h.imp_left fun hk => Nat.le_trans hk hkl
  | .integer _ :: _ | .decimal _ :: _ | .text _ :: _ => exact h

/-- Where no tight operator waits, an operand is given to none. -/
lemma reduce_of_waits {j k : Nat} {fs : List Frame} (h : Waits j fs) (hjk : j ≤ k) (t : Tree) :
    reduce k fs t = (fs, t) := by
  unfold reduce
  split
  · rename_i a op fs
    have := h a op rfl
    rw [if_neg (by omega)]
  · rfl

/-- The parser takes one token after the other. -/
lemma parseFrom_cons {fs fs' : List Frame} {focus focus' : Focus} {t : Token}
    (h : step fs focus t = some (fs', focus')) (ts : List Token) :
    parseFrom fs focus (t :: ts) = parseFrom fs' focus' ts := by
  rw [parseFrom, h, Option.bind_some]

/-- A name is an operand. -/
lemma step_name {s : String} (hs : s ∉ reservedWords) (fs : List Frame) :
    step fs .none (.name s) = some (fs, .operand (.name s)) :=
  if_neg hs

/-- A name behind a point is a member. -/
lemma step_member {s : String} (hs : s ∉ reservedWords) (fs : List Frame) (t : Tree) :
    step fs (.point t) (.name s) = some (fs, .operand (.member t s)) :=
  if_neg hs

/-- An operator takes what binds more strongly as its left operand. -/
lemma step_operator (fs : List Frame) (t : Tree) (op : Operator) :
    step fs (.operand t) (.sign op.sign) =
      some (.left (reduce op.strength fs t).2 op :: (reduce op.strength fs t).1, .none) := by
  have hsign : op.sign ≠ "." ∧ op.sign ≠ ")" := by
    cases op with
    | arithmetic op => cases op <;> decide
    | comparison op => cases op <;> decide
  rw [step, if_neg hsign.1, if_neg hsign.2, Operator.ofSign?_sign]
  rfl

/-- **An operand is given to the operator in front of it** where something follows that does not
bind more tightly. -/
lemma parseFrom_left {k : Nat} {op : Operator} (hop : k ≤ op.strength) {rest : List Token}
    (hrest : Follows k rest) (fs : List Frame) (a b : Tree) :
    parseFrom (.left a op :: fs) (.operand b) rest =
      parseFrom fs (.operand (op.tree a b)) rest := by
  have hreduce : ∀ j ≤ op.strength, reduce j (.left a op :: fs) b = reduce j fs (op.tree a b) := by
    intro j hj
    rw [reduce, if_pos hj]
  match rest with
  | [] => rfl
  | .sign s :: ts =>
    rcases hrest with rfl | ⟨op', rfl, hop'⟩
    · rfl
    · rw [parseFrom, parseFrom, step_operator, step_operator, hreduce _ (Nat.le_trans hop' hop)]
  | .name s :: ts => simp only [parseFrom, step, hreduce 1 op.strength_pos]

/-- An operand is given to the conditional expression that it ends. -/
lemma parseFrom_otherwise {rest : List Token} (hrest : Follows 0 rest) (fs : List Frame)
    (a test b : Tree) :
    parseFrom (.otherwise a test :: fs) (.operand b) rest =
      parseFrom fs (.operand (.choice test a b)) rest := by
  match rest with
  | [] => rfl
  | .sign s :: ts =>
    rcases hrest with rfl | ⟨op, rfl, hop⟩
    · rfl
    · have := op.strength_pos
      omega
  | .name s :: ts => exact absurd hrest.1 (by decide)

/-- How tightly the operators of a phrase bind at least. -/
def Phrase.strength : Phrase → Nat
  | expression => 0
  | comparison => 1
  | sum => 2
  | product => 3
  | primary => 4

/-- The reader makes the tree of a phrase from its tokens, whatever is unfinished in front of it, if
no operator waits there that binds as tightly as those of the phrase, and if what follows does not
go on with the phrase. -/
def IsRead (l : Phrase) (ts : List Token) (t : Tree) : Prop :=
  ∀ fs rest, Waits l.strength fs → (l = .primary ∨ Follows l.strength rest) →
    parseFrom fs .none (ts ++ rest) = parseFrom fs (.operand t) rest

/-- Two phrases with an operator between them are read as the operation, if the one behind binds
more tightly than the operator and the one in front at least as tightly. -/
lemma IsRead.operation {l l₁ l₂ : Phrase} {ts us : List Token} {a b : Tree} (op : Operator)
    (ha : IsRead l₁ ts a) (hb : IsRead l₂ us b) (hl : l.strength = op.strength)
    (h₁ : op.strength ≤ l₁.strength) (h₂ : op.strength < l₂.strength) :
    IsRead l (ts ++ .sign op.sign :: us) (op.tree a b) := by
  intro fs rest hfs hrest
  have hrest : Follows op.strength rest := by
    rcases hrest with rfl | hrest
    · have hprimary : ∀ op : Operator, op.strength < Phrase.primary.strength := by
        rintro (op | op)
        · cases op <;> decide
        · exact show 1 < 4 by decide
      exact absurd hl (hprimary op).ne'
    · exact hl ▸ hrest
  have hwaits : Waits l₂.strength (.left a op :: fs) := by
    rintro _ _ ⟨⟩
    exact h₂
  calc parseFrom fs .none (ts ++ .sign op.sign :: us ++ rest)
      = parseFrom fs .none (ts ++ .sign op.sign :: (us ++ rest)) := by
        rw [List.append_assoc, List.cons_append]
    _ = parseFrom fs (.operand a) (.sign op.sign :: (us ++ rest)) :=
        ha fs _ (hfs.mono (hl ▸ h₁)) (.inr (Or.inr ⟨op, rfl, h₁⟩))
    _ = parseFrom (.left a op :: fs) .none (us ++ rest) := by
        rw [parseFrom, step_operator, reduce_of_waits hfs hl.le, Option.bind_some]
    _ = parseFrom (.left a op :: fs) (.operand b) rest := hb _ rest hwaits (.inr (hrest.mono h₂.le))
    _ = parseFrom fs (.operand (op.tree a b)) rest := parseFrom_left le_rfl hrest fs a b

/-- Three phrases of a conditional expression are read as it. -/
lemma IsRead.choice {ts us vs : List Token} {test a b : Tree} (ha : IsRead .comparison ts a)
    (htest : IsRead .comparison us test) (hb : IsRead .expression vs b) :
    IsRead .expression (ts ++ .name "if" :: (us ++ .name "else" :: vs)) (.choice test a b) := by
  intro fs rest hfs hrest
  have hrest : Follows 0 rest := hrest.resolve_left (by decide)
  have hword : ∀ {s}, s ∈ ["if", "else"] → ∀ ts, Follows 1 (.name s :: ts) :=
    fun hs _ => ⟨le_rfl, hs⟩
  calc parseFrom fs .none (ts ++ .name "if" :: (us ++ .name "else" :: vs) ++ rest)
      = parseFrom fs .none (ts ++ .name "if" :: (us ++ .name "else" :: (vs ++ rest))) := by simp
    _ = parseFrom fs (.operand a) (.name "if" :: (us ++ .name "else" :: (vs ++ rest))) :=
        ha fs _ (hfs.mono (by decide)) (.inr (hword (by decide) _))
    _ = parseFrom (.test a :: fs) .none (us ++ .name "else" :: (vs ++ rest)) := by
        rw [parseFrom, step, reduce_of_waits hfs (by decide)]
        rfl
    _ = parseFrom (.test a :: fs) (.operand test) (.name "else" :: (vs ++ rest)) :=
        htest _ _ (by simp [Waits]) (.inr (hword (by decide) _))
    _ = parseFrom (.otherwise a test :: fs) .none (vs ++ rest) := rfl
    _ = parseFrom (.otherwise a test :: fs) (.operand b) rest :=
      hb _ rest (by simp [Waits]) (.inr hrest)
    _ = parseFrom fs (.operand (.choice test a b)) rest := parseFrom_otherwise hrest fs a test b

/-- A phrase that binds more tightly. -/
lemma IsRead.mono {l l' : Phrase} {ts : List Token} {t : Tree} (hl : l'.strength ≤ l.strength)
    (h : IsRead l ts t) (hne : l' ≠ .primary) : IsRead l' ts t :=
  fun fs rest hfs hrest => h fs rest (hfs.mono hl) (.inr ((hrest.resolve_left hne).mono hl))

/-- **A phrase is read as its tree.** -/
lemma Derives.isRead {l : Phrase} {ts : List Token} {t : Tree} (h : Derives l ts t) :
    IsRead l ts t := by
  induction h with
  | name hs => exact fun fs rest _ _ => parseFrom_cons (step_name hs fs) rest
  | integer n | decimal t => exact fun fs rest _ _ => rfl
  | member _ hs ih =>
    intro fs rest hfs _
    rw [List.append_assoc, ih fs _ hfs (.inl rfl)]
    exact (parseFrom_cons rfl _).trans (parseFrom_cons (step_member hs fs _) rest)
  | brackets _ ih =>
    intro fs rest _ _
    have hinside := ih (.bracket :: fs) (.sign ")" :: rest) (by simp [Waits]) (.inr (Or.inl rfl))
    rw [List.cons_append, List.append_assoc, parseFrom_cons rfl]
    exact hinside.trans (parseFrom_cons rfl rest)
  | primary _ ih | product _ ih | sum _ ih | comparison _ ih =>
    exact ih.mono (by decide) (by decide)
  | multiply _ _ hop iha ihb =>
    rcases List.mem_pair.mp hop with rfl | rfl
    · exact iha.operation (.arithmetic .mul) ihb rfl (by decide) (by decide)
    · exact iha.operation (.arithmetic .div) ihb rfl (by decide) (by decide)
  | add _ _ hop iha ihb =>
    rcases List.mem_pair.mp hop with rfl | rfl
    · exact iha.operation (.arithmetic .add) ihb rfl (by decide) (by decide)
    · exact iha.operation (.arithmetic .sub) ihb rfl (by decide) (by decide)
  | compare op _ _ iha ihb =>
    exact iha.operation (.comparison op) ihb rfl (show 1 ≤ 2 by decide) (show 1 < 2 by decide)
  | choice _ _ _ iha ihtest ihb => exact iha.choice ihtest ihb

/-- **The tree of a derivation is the one that the reader finds.** -/
lemma Derives.parse_eq {ts : List Token} {t : Tree} (h : Derives .expression ts t) :
    parse ts = some t := by
  have hread := h.isRead [] [] (by simp [Waits]) (.inr trivial)
  rw [List.append_nil] at hread
  exact hread

/-- **An expression has one tree.** -/
lemma Derives.unique {ts : List Token} {t u : Tree} (ht : Derives .expression ts t)
    (hu : Derives .expression ts u) : t = u :=
  Option.some.inj (ht.parse_eq.symm.trans hu.parse_eq)

end LogicGraph.Grammar
