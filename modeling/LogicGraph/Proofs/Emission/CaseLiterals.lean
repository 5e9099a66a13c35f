import LogicGraph.Proofs.Document.Faults
import LogicGraph.Proofs.Reading.Literals

set_option relaxedAutoImplicit false
set_option autoImplicit false

/-!
# The literals of cases

The value of a node is a literal as it stands in the document. The value of a case becomes a text
when it is loaded, and the text becomes a literal when it is emitted. A number is read back from its
text, so that both ways lead to one literal; a text is its own text. Only a truth value is lost on
the way: it is a number as the value of a node, and a word as the value of a case.

## Main definitions

* `LogicGraph.Json.isFilled` — a truth value, a number or a text that is not blank.
* `LogicGraph.Literal.Equals` — two literals have the same value.

## Main results

* `LogicGraph.Binary64.readBinary64?_text` — a double is read back from its text.
* `LogicGraph.Literal.ofJson?_plainText` — the text of a value has the literal of the value, truth
  values apart.
* `LogicGraph.Document.case_agrees_iff` — when a case has the literal of its value.
-/

namespace LogicGraph

open Text

/-! ## Numbers from their texts -/

namespace Text

/-- A text without blanks is its own trimmed form. -/
lemma trim_of_not_isBlank {cs : List Char} (h : ∀ c ∈ cs, isBlank c = false) : trim cs = cs := by
  have hkeep : ∀ {ds : List Char}, (∀ c ∈ ds, isBlank c = false) → ds.dropWhile isBlank = ds := by
    intro ds hds
    cases ds with
    | nil => rfl
    | cons d ds => rw [List.dropWhile_cons_of_neg (by simp [hds d List.mem_cons_self])]
  rw [trim, trimLeft, hkeep h, trimRight, hkeep fun c hc => h c (List.mem_reverse.mp hc),
    List.reverse_reverse]

/-- A character of a numeral is not blank. -/
lemma isBlank_of_isNumeralChar {c : Char} (h : isNumeralChar c = true) : isBlank c = false := by
  rw [isNumeralChar, Bool.or_eq_true] at h
  rcases h with h | h
  · rw [Char.isDigit_iff_toNat] at h
    simp only [Char.reduceToNat] at h
    rw [← Bool.not_eq_true, isBlank, CodeRange.cover_iff]
    simp only [blankRanges, List.mem_cons, List.not_mem_nil, or_false, exists_eq_or_imp,
      exists_eq_left]
    omega
  · have hfixed : ∀ d ∈ "+-.aefin".toList, isBlank d = false := by decide
    exact hfixed c (by simpa using h)

/-- A digit has no other lower case. -/
lemma toLower_of_isDigit {c : Char} (hc : c.isDigit = true) : c.toLower = c := by
  rw [Char.isDigit_iff_toNat] at hc
  simp only [Char.reduceToNat] at hc
  unfold Char.toLower
  rw [dif_neg]
  rintro ⟨hupper, -⟩
  have hle : 65 ≤ c.toNat := by simpa using UInt32.le_iff_toNat_le.mp hupper
  omega

/-- A text that starts with a digit is none of the words for doubles that are not finite. -/
lemma map_toLower_ne {cs : List Char} (hcs : ∀ c ∈ cs.head?, c.isDigit = true) {w : String}
    (hw : w ∈ ["inf", "infinity", "nan"]) : cs.map Char.toLower ≠ w.toList := by
  have hstart : ∀ w ∈ ["inf", "infinity", "nan"], ∃ d ∈ w.toList.head?, d.isDigit = false := by simp
  obtain ⟨d, hd, hdigit⟩ := hstart w hw
  intro h
  rw [← h, List.head?_map, Option.mem_def, Option.map_eq_some_iff] at hd
  obtain ⟨c, hc, rfl⟩ := hd
  rw [toLower_of_isDigit (hcs c hc), hcs c hc] at hdigit
  cases hdigit

end Text

namespace Binary64

/-- **A double is read back from its text**, if it is one that numbers are rounded to. -/
lemma readBinary64?_text {x : Binary64} (hx : IsCanonical x) :
    Numeral.readBinary64? x.text.toList = some x := by
  cases x with
  | nan => rfl
  | infinite negative => cases negative <;> rfl
  | finite negative m e =>
    obtain ⟨t, cs, htext, hnumeral, -, hvalue⟩ := exists_hasNumeral_text negative m e
    have hstart := hnumeral.isDigit_of_mem_head?
    rw [htext, Numeral.readBinary64?, Numeral.sign_signChars_append negative hstart]
    simp only [map_toLower_ne hstart (w := "inf") (by decide),
      map_toLower_ne hstart (w := "infinity") (by decide),
      map_toLower_ne hstart (w := "nan") (by decide), or_self, if_false]
    rw [Numeral.decimal?_of_hasNumeral hnumeral, hvalue hx]

/-- The text of a double is no integer. -/
lemma readInt_text_ne_ok (x : Binary64) (n : Int) : Numeral.readInt x.text.toList ≠ .ok n := by
  cases x with
  | nan => exact Numeral.readInt_ne_ok_of_mem rfl (c := 'n') (by decide) (by decide) (by decide) n
  | infinite negative =>
    cases negative <;>
      exact Numeral.readInt_ne_ok_of_mem rfl (c := 'n') (by decide) (by decide) (by decide) n
  | finite negative m e =>
    obtain ⟨t, cs, htext, hnumeral, -⟩ := exists_hasNumeral_text negative m e
    rw [htext]
    exact Numeral.readInt_ne_ok_of_hasNumeral hnumeral negative n

end Binary64

/-! ## Literals from texts -/

/-- A number is the same as itself. -/
lemma Number.sameAs_self (n : Number) : n.sameAs n = true := by
  cases n <;> simp [sameAs, Binary64.sameAs]

namespace Json

/-- Whether a value is a truth value, a number or a text that is not blank. -/
def isFilled : Json → Bool
  | .bool _ | .number _ => true
  | .string s => !(trim s.toList).isEmpty
  | .null | .array _ | .object _ => false

end Json

namespace Literal

/-- A text of characters of numerals is not blank, and its literal is that of the text as it
stands. -/
lemma ofJson?_string_of_isNumeralChar {s : String} (hne : s.toList ≠ [])
    (hs : ∀ c ∈ s.toList, isNumeralChar c = true) :
    ofJson? (.string s) = some (ofText s) ∧ trim s.toList = s.toList := by
  have htrim := trim_of_not_isBlank fun c hc => isBlank_of_isNumeralChar (hs c hc)
  refine ⟨?_, htrim⟩
  rw [ofJson?, htrim, if_neg hne]

/-- The text of an integer that can be written has the integer as its literal. -/
lemma ofJson?_toString {n : Int} (hn : Numeral.withinLimit n = true) :
    ofJson? (.string (toString n)) = some (.int n) := by
  have hne : (toString n).toList ≠ [] := by
    rw [toList_toString_int]
    exact List.append_ne_nil_of_right_ne_nil _ Nat.toDigits_ne_nil
  obtain ⟨hliteral, htrim⟩ := ofJson?_string_of_isNumeralChar hne fun c hc =>
    isNumeralChar_of_mem_int hc
  rw [hliteral, ofText, htrim, Numeral.readInt_toString hn]

/-- The text of a double has the double as its literal. -/
lemma ofJson?_text {x : Binary64} (hx : x.IsCanonical) :
    ofJson? (.string x.text) = some (.float x) := by
  have hne : x.text.toList ≠ [] := by
    intro hnil
    have hread := Binary64.readBinary64?_text hx
    rw [hnil] at hread
    cases hread
  obtain ⟨hliteral, htrim⟩ := ofJson?_string_of_isNumeralChar hne fun c hc =>
    Binary64.isNumeralChar_of_mem_text hc
  rw [hliteral, ofText, htrim]
  cases hint : Numeral.readInt x.text.toList with
  | ok n => exact absurd hint (x.readInt_text_ne_ok n)
  | error fault => rw [Binary64.readBinary64?_text hx]

/-- **The text of a value has the literal of the value**, unless it is a truth value. -/
lemma ofJson?_plainText {v : Json} (hfilled : v.isFilled = true) (hflag : v.isFlag = false)
    (hwritable : v.isWritable = true) (hdouble : ∀ x, v = .number (.float x) → x.IsCanonical) :
    ofJson? (.string v.plainText) = ofJson? v := by
  cases v with
  | string s => rfl
  | number n =>
    cases n with
    | int n => exact ofJson?_toString hwritable
    | float x => exact ofJson?_text (hdouble x rfl)
  | bool b => cases hflag
  | null | array | object => cases hfilled

/-! ## Literals of the same value -/

/-- The number that a literal is, if it is one. -/
def number? : Literal → Option Number
  | .int n => some (.int n)
  | .float x => some (.float x)
  | .text _ | .list _ | .dict _ => none

/-- Two literals, lists and dictionaries apart, have the same value: they are the same text, or the
same number. What is no number is not the same as anything. -/
def Equals (l l' : Literal) : Prop :=
  (∃ s, l = .text s ∧ l' = .text s) ∨
    ∃ m n, l.number? = some m ∧ l'.number? = some n ∧ m ≠ .float .nan ∧ m.sameAs n = true

/-- The literal of a value that is filled has the same value as itself, unless it is no number. -/
lemma equals_self_iff {v : Json} (hfilled : v.isFilled = true) {l : Literal}
    (hl : ofJson? v = some l) :
    l.Equals l ↔ l ≠ .float .nan := by
  have hnumber : ∀ {n : Number}, l.number? = some n → (∀ s, l ≠ .text s) →
      (l.Equals l ↔ n ≠ .float .nan) := by
    intro n hn htext
    constructor
    · rintro (⟨s, hs, -⟩ | ⟨m, -, hm, -, hnan, -⟩)
      · exact absurd hs (htext s)
      · rwa [Option.some.inj (hn.symm.trans hm)]
    · intro hnan
      exact .inr ⟨n, n, hn, hn, hnan, n.sameAs_self⟩
  cases l with
  | int n => simpa using hnumber (n := .int n) rfl (by simp)
  | float x => simpa using hnumber (n := .float x) rfl (by simp)
  | text s => exact iff_of_true (.inl ⟨s, rfl, rfl⟩) (by simp)
  | list items | dict fields =>
    cases v with
    | number n => cases n <;> cases hl
    | string s =>
      simp only [ofJson?, ofText] at hl
      split_ifs at hl
      split at hl
      · cases hl
      · split at hl <;> cases hl
    | bool b => cases hl
    | null | array | object => cases hfilled

/-- A number is not equal to a text. -/
lemma not_equals_text (x : Binary64) (s : String) : ¬ (Literal.float x).Equals (.text s) := by
  rintro (⟨t, ht, -⟩ | ⟨m, n, -, hn, -⟩)
  · cases ht
  · cases hn

/-- A value that is filled has a literal. -/
lemma exists_ofJson? {v : Json} (hfilled : v.isFilled = true) : ∃ l, ofJson? v = some l := by
  cases v with
  | bool b => exact ⟨_, rfl⟩
  | number n => cases n <;> exact ⟨_, rfl⟩
  | string s =>
    rw [Json.isFilled, Bool.not_eq_true', List.isEmpty_eq_false_iff] at hfilled
    exact ⟨_, if_neg hfilled⟩
  | null | array | object => cases hfilled

/-- The literal of a value that can be written does not depend on what stands for a blank value. -/
lemma ofValue?_of_ofJson? (blank : Literal) {v : Json} {l : Literal} (hl : ofJson? v = some l)
    (hwritable : v.isWritable = true) :
    ofValue? blank v = some l := by
  have hsome : ofValue? (.text "") v ≠ none := by
    rw [Ne, ofValue?_eq_none_iff rfl, hwritable]
    decide
  simp only [ofValue?, hl, Option.getD_some] at hsome ⊢
  split_ifs at hsome ⊢
  · rfl
  · exact absurd rfl hsome

/-- The literals for a truth value: a number for the value, a word for its text. -/
lemma ofJson?_bool (b : Bool) :
    ofJson? (.string (Json.bool b).plainText) = some (.text (if b then "True" else "False")) ∧
    (text (if b then "True" else "False")).written ≠
      (float (if b then Binary64.one else Binary64.zero false)).written := by
  cases b with
  | false => exact ⟨by decide, by decide +kernel⟩
  | true => exact ⟨by decide, by decide +kernel⟩

/-- **The text of a value has a literal**, which is that of the value exactly if this is no truth
value. -/
lemma exists_ofJson?_plainText {v : Json} (hfilled : v.isFilled = true)
    (hwritable : v.isWritable = true) (hdouble : ∀ x, v = .number (.float x) → x.IsCanonical)
    {l : Literal} (hl : ofJson? v = some l) :
    ∃ l', ofJson? (.string v.plainText) = some l' ∧ (l'.written = l.written ↔ v.isFlag = false) ∧
      (l.Equals l' ↔ v.isFlag = false ∧ l ≠ .float .nan) := by
  cases hflag : v.isFlag with
  | false =>
    refine ⟨l, (ofJson?_plainText hfilled hflag hwritable hdouble).trans hl, iff_of_true rfl rfl,
      ?_⟩
    rw [equals_self_iff hfilled hl, and_iff_right rfl]
  | true =>
    obtain ⟨b, rfl⟩ := Json.isFlag_iff.mp hflag
    obtain ⟨hword, hwritten⟩ := ofJson?_bool b
    obtain rfl := Option.some.inj hl
    exact ⟨_, hword, iff_of_false hwritten (by decide),
      iff_of_false (not_equals_text _ _) (by simp)⟩

end Literal

/-! ## From documents to statements -/

namespace Scope

variable {s : Scope}

/-- The variable of a node starts with the literal of its value. -/
lemma outcome_initialAssign (s : Scope) (remark : Node → Option String) {n : Node} {l : Literal}
    (h : Literal.ofValue? (.int 0) n.value = some l) :
    (initialAssign s remark n).outcome = .ok (.assign (s.nameOf n) (.literal l) (remark n)) := by
  rw [initialAssign, literal, h]
  rfl

/-- The clauses of a choice compare with the literals of its cases. -/
lemma getElem?_clauses {visit : String → Emission} {id : String} {k : Nat} {cases : List Case}
    {clauses : List (Literal × List Stmt)} (h : (s.clauses visit id k cases).outcome = .ok clauses)
    {i : Nat} {c : Case} (hc : cases[i]? = some c) :
    ∃ l inner, Literal.ofValue? (.text "") c.value = some l ∧ clauses[i]? = some (l, inner) := by
  induction cases generalizing k clauses i with
  | nil => cases hc
  | cons c' rest ih =>
    simp only [Scope.clauses, Audited.outcome_bind_eq_ok, Audited.outcome_pure,
      Except.ok.injEq] at h
    obtain ⟨l, hl, body, -, more, hmore, rfl⟩ := h
    cases i with
    | succ i => exact ih hmore hc
    | zero =>
      obtain rfl := Option.some.inj hc
      refine ⟨l, orPass body, ?_, rfl⟩
      unfold literal at hl
      cases hvalue : Literal.ofValue? (.text "") c'.value with
      | none =>
        rw [hvalue] at hl
        cases hl
      | some l' =>
        rw [hvalue] at hl
        cases hl
        rfl

/-- A choice with cases is a statement whose clauses compare with the literals of the cases. -/
lemma exists_clause_of_choice {visit : String → Emission} {n : Node} {body : List Stmt}
    (h : (s.choice visit n).outcome = .ok body) {i : Nat} {c : Case} (hc : n.cases[i]? = some c) :
    ∃ subject clauses otherwise l inner, body = [.choose subject clauses otherwise] ∧
      Literal.ofValue? (.text "") c.value = some l ∧ clauses[i]? = some (l, inner) := by
  have hne : n.cases.isEmpty = false := by
    rw [List.isEmpty_eq_false_iff]
    intro hnil
    rw [hnil] at hc
    cases hc
  simp only [choice, hne, Bool.false_eq_true, if_false, Audited.outcome_bind_eq_ok,
    Audited.outcome_pure, Except.ok.injEq] at h
  obtain ⟨subject, -, clauses, hclauses, otherwise, -, rfl⟩ := h
  obtain ⟨l, inner, hl, hclause⟩ := getElem?_clauses hclauses hc
  exact ⟨subject, clauses, _, l, inner, rfl, hl, hclause⟩

end Scope

namespace Document

/-- The cases of a loaded node are those of its entry, each loaded. -/
lemma exists_case_of_loadNode {kind : Kind} {e : NodeEntry} {n : Node} (h : loadNode kind e = .ok n)
    {i : Nat} {entry : CaseEntry} (hentry : e.cases[i]? = some entry) :
    ∃ c, n.cases[i]? = some c ∧ loadCase entry = .ok c := by
  unfold loadNode at h
  simp only [bind_eq_ok, mapError_eq_ok, Node.withCases] at h
  obtain ⟨cases, hcases, x, -, y, -, h⟩ := h
  split_ifs at h
  cases h
  obtain ⟨hlength, hget⟩ := List.forall₂_iff_get.mp (mapM_eq_ok.mp hcases)
  obtain ⟨hi, rfl⟩ := List.getElem?_eq_some_iff.mp hentry
  exact ⟨_, List.getElem?_eq_getElem (hlength ▸ hi), hget i hi (hlength ▸ hi)⟩

/-- The value of a case that is filled is loaded as its text. -/
lemma loadCase_of_isFilled {v : Json} (hfilled : v.isFilled = true)
    (hwritable : v.isWritable = true) (id : String) :
    loadCase ⟨id, v⟩ = .ok ⟨id, .string v.plainText⟩ := by
  cases v with
  | null => cases hfilled
  | _ => simp only [loadCase, hwritable, if_true]

/-- **A case has the literal of its value unless this is a truth value.** Let a value be a truth
value, a number or a text that is not blank, where a double is one that numbers are rounded to. If
it is an integer with too many digits, then it can neither be loaded as the value of a case nor be
written as that of a node. Otherwise the variable of every node with this value starts with one
literal, and every clause for a case with this value compares with one literal. The two are written
alike exactly if the value is no truth value; and then a variable that has just been initialised is
equal to the case, unless its value is a NaN.

**Proof sketch.** A value becomes its text when the case is loaded. A number is read back from its
text, and a text is its own, so that the literal of the text is that of the value. The text of a
truth value is a word, which no number is equal to. -/
theorem case_agrees_iff (v : Json) (hfilled : v.isFilled = true)
    (hdouble : ∀ x, v = .number (.float x) → x.IsCanonical) :
    (v.isWritable = false → (∀ id, loadCase ⟨id, v⟩ = .error .longInteger) ∧
      ∀ (s : Scope) (remark : Node → Option String) (n : Node), n.value = v →
        (initialAssign s remark n).outcome = .error .longInteger) ∧
    (v.isWritable = true → ∃ l l' : Literal,
      Literal.ofValue? (.int 0) v = some l ∧
      (∀ (kind : Kind) (e : NodeEntry) (n : Node), loadNode kind e = .ok n → e.value = v →
        ∀ (s : Scope) (remark : Node → Option String),
          (initialAssign s remark n).outcome = .ok (.assign (s.nameOf n) (.literal l) (remark n))) ∧
      (∀ id, ∃ c, loadCase ⟨id, v⟩ = .ok c ∧ Literal.ofValue? (.text "") c.value = some l') ∧
      (∀ (kind : Kind) (e : NodeEntry) (n : Node) (i : Nat) (id : String), loadNode kind e = .ok n →
        e.cases[i]? = some ⟨id, v⟩ → ∀ (s : Scope) (visit : String → Emission) (body : List Stmt),
          (s.choice visit n).outcome = .ok body → ∃ subject clauses otherwise inner,
            body = [.choose subject clauses otherwise] ∧ clauses[i]? = some (l', inner)) ∧
      (l'.written = l.written ↔ v.isFlag = false) ∧
      (l.Equals l' ↔ v.isFlag = false ∧ l ≠ .float .nan)) := by
  constructor
  · intro hlong
    refine ⟨fun id => ?_, fun s remark n hn => ?_⟩
    · rcases loadCase_cases ⟨id, v⟩ with ⟨-, hfails⟩ | ⟨hshort, -⟩
      · exact hfails
      · cases hlong.symm.trans hshort
    · have hnone : Literal.ofValue? (.int 0) n.value = none := by
        rw [hn, Literal.ofValue?_eq_none_iff Literal.isWritable_zero, hlong]
      rw [initialAssign, Scope.literal, hnone]
      rfl
  · intro hwritable
    have hload := loadCase_of_isFilled hfilled hwritable
    obtain ⟨l, hl⟩ := Literal.exists_ofJson? hfilled
    obtain ⟨l', hl', hwritten, hequals⟩ :=
      Literal.exists_ofJson?_plainText hfilled hwritable hdouble hl
    have hvalue := Literal.ofValue?_of_ofJson? (.int 0) hl hwritable
    have hcase := Literal.ofValue?_of_ofJson? (.text "") hl' rfl
    refine ⟨l, l', hvalue, ?_, fun id => ⟨_, hload id, hcase⟩, ?_, hwritten, hequals⟩
    · intro kind e n hn he s remark
      refine Scope.outcome_initialAssign s remark ?_
      rw [value_of_loadNode hn, he, hvalue]
    · intro kind e n i id hn hentry s visit body hbody
      obtain ⟨c, hc, hloaded⟩ := exists_case_of_loadNode hn hentry
      obtain rfl := Except.ok.inj ((hload id).symm.trans hloaded)
      obtain ⟨subject, clauses, otherwise, l'', inner, hchoose, hl'', hclause⟩ :=
        Scope.exists_clause_of_choice hbody hc
      obtain rfl := Option.some.inj (hcase.symm.trans hl'')
      exact ⟨subject, clauses, otherwise, inner, hchoose, hclause⟩

/-- The double nearest to a tenth. -/
def tenth : Json := .number (.float (Binary64.ofDecimal false 1 (-1)))

/-- A variable that starts with a tenth is equal to a case for a tenth. -/
theorem case_agrees_tenth : tenth.isFilled = true ∧ tenth.isWritable = true ∧ ∃ l l' : Literal,
    Literal.ofValue? (.int 0) tenth = some l ∧
    (∀ id, ∃ c, loadCase ⟨id, tenth⟩ = .ok c ∧ Literal.ofValue? (.text "") c.value = some l') ∧
    l'.written = l.written ∧ l.Equals l' := by
  have hdouble : ∀ x, tenth = .number (.float x) → x.IsCanonical := by
    intro x hx
    rw [tenth, Json.number.injEq, Number.float.injEq] at hx
    rw [← hx]
    exact Binary64.isCanonical_ofDecimal _ _ _
  obtain ⟨l, l', hl, -, hcase, -, hwritten, hequals⟩ := (case_agrees_iff tenth rfl hdouble).2 rfl
  refine ⟨rfl, rfl, l, l', hl, hcase, hwritten.mpr rfl, hequals.mpr ⟨rfl, ?_⟩⟩
  obtain rfl := Option.some.inj hl
  decide +kernel

/-- The case for a truth value is a word, while the value is a number: the two are written
differently and are not equal. -/
theorem case_disagrees_true :
    ∃ c l l', loadCase ⟨"c", .bool true⟩ = .ok c ∧ Literal.ofValue? (.text "") c.value = some l' ∧
    Literal.ofValue? (.int 0) (.bool true) = some l ∧ l'.written ≠ l.written ∧ ¬ l.Equals l' := by
  refine ⟨_, _, _, rfl, Literal.ofValue?_of_ofJson? _ (Literal.ofJson?_bool true).1 rfl, rfl,
    (Literal.ofJson?_bool true).2, ?_⟩
  exact Literal.not_equals_text _ _

end Document

end LogicGraph
