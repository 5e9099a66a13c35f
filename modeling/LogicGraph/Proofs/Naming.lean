import Mathlib
import LogicGraph.Naming
import LogicGraph.Proofs.Text.Sealed

set_option relaxedAutoImplicit false
set_option autoImplicit false

/-!
# Identifiers of nodes are identifiers

Whatever a user calls a node, its name in a program is an identifier: lower-case letters, digits and
underscores of ASCII, not led by a digit and no keyword.

## Main definitions

* `LogicGraph.Text.IsWord` — an identifier that may be a keyword.

## Main results

* `LogicGraph.Text.isIdentifier_identifier` — the identifier for a text is one.
* `LogicGraph.NameTable.isIdentifier_name` — every name in the table of a graph is an identifier.

## Design

No keyword has an underscore. A word with an underscore in it is therefore an identifier, which
settles every name that gets a number, a guard or a frame.
-/

namespace LogicGraph

namespace Text

/-- A text that is an identifier unless it is a keyword. -/
def IsWord (s : String) : Prop :=
  s.toList ≠ [] ∧ (∀ c ∈ s.toList, isIdentifierChar c = true) ∧
    ∀ c ∈ s.toList.head?, c.isDigit = false

/-- It is decidable whether a text is a word. -/
instance (s : String) : Decidable (IsWord s) :=
  inferInstanceAs (Decidable (_ ∧ _ ∧ _))

/-- An identifier is a word that is no keyword. -/
lemma isIdentifier_iff {s : String} : IsIdentifier s ↔ IsWord s ∧ s ∉ keywords := by
  simp only [IsIdentifier, IsWord, and_assoc]

/-- A word stays a word with characters of identifiers behind. -/
lemma IsWord.append {s t : String} (hs : IsWord s)
    (ht : ∀ c ∈ t.toList, isIdentifierChar c = true) :
    IsWord (s ++ t) := by
  obtain ⟨hne, hchars, hhead⟩ := hs
  rw [IsWord, String.toList_append]
  refine ⟨by simp [hne], ?_, ?_⟩
  · rw [List.forall_mem_append]
    exact ⟨hchars, ht⟩
  · rw [List.head?_append_of_ne_nil _ hne]
    exact hhead

/-- A word with an underscore is an identifier. -/
lemma IsWord.isIdentifier {s : String} (h : IsWord s) (hu : '_' ∈ s.toList) : IsIdentifier s := by
  have hkeywords : ∀ k ∈ keywords, '_' ∉ k.toList := by decide
  exact isIdentifier_iff.mpr ⟨h, fun hk => hkeywords s hk hu⟩

/-- An identifier is clean. -/
lemma IsIdentifier.isClean {s : String} (h : IsIdentifier s) : IsClean s :=
  fun c hc => isControl_eq_false (by decide) (h.2.1 c hc)

/-- The lower case of a capital letter is a lower-case letter. -/
lemma isLower_toLower {c : Char} (h : c.isUpper = true) : c.toLower.isLower = true := by
  rw [Char.isLower_toLower_eq_isAlpha, Char.isAlpha, h, Bool.true_or]

/-- What a character contributes to an identifier may stand in one. -/
lemma isIdentifierChar_of_mem_identifierChars {c d : Char} (h : d ∈ identifierChars c) :
    isIdentifierChar d = true := by
  unfold identifierChars at h
  split_ifs at h with h₁ h₂ h₃ h₄
  · rw [List.mem_singleton.mp h]
    exact h₁
  · rw [List.mem_singleton.mp h, isIdentifierChar, isLower_toLower h₂]
    rfl
  · rcases List.mem_pair.mp h with rfl | rfl <;> decide
  · rw [List.mem_singleton.mp h]
    decide
  · rw [List.mem_singleton.mp h]
    decide

/-- The guard against a leading digit makes a word of characters of identifiers. -/
lemma isWord_guardDigit {cs : List Char} (hne : cs ≠ []) (h : ∀ c ∈ cs, isIdentifierChar c = true) :
    IsWord (String.ofList (guardDigit cs)) := by
  cases cs with
  | nil => exact absurd rfl hne
  | cons c cs =>
    rw [IsWord, String.toList_ofList, guardDigit]
    split_ifs with hc
    · refine ⟨by simp, ?_, by simp⟩
      rw [List.forall_mem_cons]
      exact ⟨by decide, h⟩
    · exact ⟨by simp, h, by simpa using hc⟩

/-- The guard against keywords makes an identifier of a word. -/
lemma IsWord.isIdentifier_guardKeyword {s : String} (h : IsWord s) :
    IsIdentifier (guardKeyword s) := by
  unfold guardKeyword
  split_ifs with hk
  · exact (h.append (by decide)).isIdentifier (by simp)
  · exact isIdentifier_iff.mpr ⟨h, hk⟩

/-- Every character contributes something. -/
lemma identifierChars_ne_nil (c : Char) : identifierChars c ≠ [] := by
  unfold identifierChars
  split_ifs <;> exact List.cons_ne_nil _ _

/-- A text that is not empty gives an identifier. -/
lemma isIdentifier_cleaned {s : String} (h : s ≠ "") : IsIdentifier (cleaned s) := by
  have hchars : ∀ c ∈ s.toList.flatMap identifierChars, isIdentifierChar c = true := by
    intro c hc
    obtain ⟨d, -, hd⟩ := List.mem_flatMap.mp hc
    exact isIdentifierChar_of_mem_identifierChars hd
  have hne : s.toList.flatMap identifierChars ≠ [] := by
    intro hnil
    obtain ⟨c, hc⟩ := List.exists_mem_of_ne_nil s.toList (by simpa using h)
    exact identifierChars_ne_nil c (List.flatMap_eq_nil_iff.mp hnil c hc)
  exact (isWord_guardDigit hne hchars).isIdentifier_guardKeyword

/-- A text that is not empty gives something. -/
lemma cleaned_ne_empty {s : String} (h : s ≠ "") : cleaned s ≠ "" := by
  intro hempty
  exact (isIdentifier_cleaned h).1 (by rw [hempty]; rfl)

/-- The first of two texts that is not empty, or the identifier of last resort, is an identifier if
the texts are. -/
lemma isIdentifier_orLastResort {s t : String} (hs : s ≠ "" → IsIdentifier s)
    (ht : t ≠ "" → IsIdentifier t) :
    IsIdentifier (if s ≠ "" then s else if t ≠ "" then t else lastResort) := by
  split_ifs with h₁ h₂
  · exact hs h₁
  · exact ht h₂
  · decide

/-- **The identifier for a text is one**, whatever the text and the fallback. -/
lemma isIdentifier_identifier (raw fallback : String) : IsIdentifier (identifier raw fallback) := by
  have hcleaned : ∀ s, cleaned s ≠ "" → IsIdentifier (cleaned s) := by
    intro s hs
    refine isIdentifier_cleaned ?_
    rintro rfl
    exact hs (by decide)
  exact isIdentifier_orLastResort (hcleaned raw) (hcleaned fallback)

end Text

open Text

/-- An identifier with a number behind is an identifier. -/
lemma isIdentifier_numbered {base : String} (h : IsIdentifier base) (k : Nat) :
    IsIdentifier (numbered base k) := by
  have hword := (isIdentifier_iff.mp h).1
  have hdigits : ∀ c ∈ (toString k).toList, isIdentifierChar c = true := by
    intro c hc
    have hdigit : c.isDigit = true := by
      rw [Nat.toString_eq_repr, Nat.toList_repr] at hc
      exact Nat.isDigit_of_mem_toDigits (by decide) (by decide) hc
    simp [isIdentifierChar, hdigit]
  have hguard : ∀ c ∈ "_".toList, isIdentifierChar c = true := by decide
  exact ((hword.append hguard).append hdigits).isIdentifier (by simp)

/-- The identifier for a node that asks for an identifier is one. -/
lemma isIdentifier_claim {base : String} (h : IsIdentifier base) (taken : List String) :
    IsIdentifier (claim taken base) := by
  unfold claim
  split_ifs
  · exact isIdentifier_numbered h _
  · exact h

/-- The first round gives out identifiers. -/
lemma isIdentifier_of_mem_claimAll {taken : List String} {nodes : List Node} {p : Node × String}
    (h : p ∈ claimAll taken nodes) : IsIdentifier p.2 := by
  induction nodes generalizing taken with
  | nil => simp [claimAll] at h
  | cons n rest ih =>
    rw [claimAll] at h
    rcases List.mem_cons.mp h with rfl | h
    · exact isIdentifier_claim (isIdentifier_identifier _ _) taken
    · exact ih h

/-- The second round keeps identifiers or gives out others. -/
lemma isIdentifier_of_mem_yieldHandlers {kinds : List Kind} {handlers taken : List String}
    {named : List (Node × String)} (hnamed : ∀ p ∈ named, IsIdentifier p.2) {p : Node × String}
    (h : p ∈ yieldHandlers kinds handlers taken named) : IsIdentifier p.2 := by
  induction named generalizing taken with
  | nil => simp [yieldHandlers] at h
  | cons q rest ih =>
    obtain ⟨hq, hrest⟩ := List.forall_mem_cons.mp hnamed
    rw [yieldHandlers] at h
    split_ifs at h
    · rcases List.mem_cons.mp h with rfl | h
      · exact hq
      · exact ih hrest h
    · rcases List.mem_cons.mp h with rfl | h
      · exact isIdentifier_claim hq taken
      · exact ih hrest h

/-- Every name that the rules give out is an identifier. -/
lemma NameRules.isIdentifier_of_mem_apply {r : NameRules} {nodes : List Node} {p : Node × String}
    (h : p ∈ r.apply nodes) : IsIdentifier p.2 := by
  unfold NameRules.apply at h
  simp only at h
  split at h
  · exact isIdentifier_of_mem_claimAll h
  · exact isIdentifier_of_mem_yieldHandlers (fun _ => isIdentifier_of_mem_claimAll) h

/-- **Every name in the table of a graph is an identifier**, and so is the name for an id that is
not there. -/
lemma NameTable.isIdentifier_name (g : Graph) (r : NameRules) (id : String) :
    IsIdentifier ((NameTable.ofGraph g r).name id) := by
  unfold NameTable.name
  cases h : (NameTable.ofGraph g r).name? id with
  | none =>
    show IsIdentifier lastResort
    decide
  | some name =>
    obtain ⟨before, behind, hentries, -⟩ := List.lookup_eq_some_iff.mp h
    have hmem : (id, name) ∈ (NameTable.ofGraph g r).entries := by simp [hentries]
    obtain ⟨p, hp, heq⟩ := List.mem_map.mp hmem
    obtain ⟨-, rfl⟩ := Prod.mk.inj heq
    exact NameRules.isIdentifier_of_mem_apply hp

end LogicGraph
