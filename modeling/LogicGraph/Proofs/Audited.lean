import Mathlib.Data.List.Forall2
import LogicGraph.Notice

set_option relaxedAutoImplicit false
set_option autoImplicit false

/-!
# How computations end

What is known about the parts of a computation that has succeeded, with notices and without, and
when two computations end alike.

## Main results

* `LogicGraph.bind_eq_ok`, `LogicGraph.mapM_eq_ok` — computations without notices.
* `LogicGraph.Audited.outcome_bind_eq_ok` — two computations succeed in a row if and only if each of
  them does.
* `LogicGraph.Audited.outcome_mapList_eq_ok` — the same for the members of a list.
* `LogicGraph.Audited.mem_notices_bind` — where the notices of two computations in a row come from.
* `LogicGraph.Audited.outcome_mapList_congr` — computations for two lists end alike if they do so
  member by member.
-/

namespace LogicGraph

variable {ε ε' α β : Type}

/-- What is on the right of two related lists is related to something on the left. -/
lemma exists_of_forall₂_of_mem_right {R : α → β → Prop} {as : List α} {bs : List β} {b : β}
    (h : List.Forall₂ R as bs) (hb : b ∈ bs) : ∃ a ∈ as, R a b := by
  induction h with
  | nil => simp at hb
  | @cons a c as cs hhead _ ih =>
    rcases List.mem_cons.mp hb with rfl | hb
    · exact ⟨a, List.mem_cons_self, hhead⟩
    · obtain ⟨a', ha', hrel⟩ := ih hb
      exact ⟨a', List.mem_cons_of_mem _ ha', hrel⟩

/-- What is on the left of two related lists is related to something on the right. -/
lemma exists_of_forall₂_of_mem_left {R : α → β → Prop} {as : List α} {bs : List β} {a : α}
    (h : List.Forall₂ R as bs) (ha : a ∈ as) : ∃ b ∈ bs, R a b :=
  exists_of_forall₂_of_mem_right h.flip ha

/-- If every member of a list is related to something, then the list is related to a list. -/
lemma exists_forall₂ {R : α → β → Prop} {as : List α} (h : ∀ a ∈ as, ∃ b, R a b) :
    ∃ bs, List.Forall₂ R as bs := by
  induction as with
  | nil => exact ⟨[], .nil⟩
  | cons a as ih =>
    obtain ⟨⟨b, hb⟩, hrest⟩ := List.forall_mem_cons.mp h
    obtain ⟨bs, hbs⟩ := ih hrest
    exact ⟨b :: bs, .cons hb hbs⟩

/-- Two computations without notices succeed in a row if and only if each of them does. -/
@[simp] lemma bind_eq_ok {x : Except ε α} {f : α → Except ε β} {b : β} :
    (x >>= f) = .ok b ↔ ∃ a, x = .ok a ∧ f a = .ok b := by
  cases x <;> simp [bind, Except.bind]

/-- A success goes on as if it were not there. -/
@[simp] lemma ok_bind (a : α) (f : α → Except ε β) : (Except.ok a >>= f) = f a := rfl

/-- Another account of a failure does not change a success. -/
@[simp] lemma mapError_eq_ok {x : Except ε α} {f : ε → ε'} {a : α} :
    x.mapError f = .ok a ↔ x = .ok a := by
  cases x <;> simp [Except.mapError]

/-- Two computations without notices fail in a row if the first of them fails, or the second after
it. -/
lemma bind_eq_error {x : Except ε α} {f : α → Except ε β} {e : ε} :
    (x >>= f) = .error e ↔ x = .error e ∨ ∃ a, x = .ok a ∧ f a = .error e := by
  cases x <;> simp [bind, Except.bind]

/-- Another account of a failure is one of a failure. -/
lemma mapError_eq_error {x : Except ε α} {f : ε → ε'} {e : ε'} :
    x.mapError f = .error e ↔ ∃ e₀, x = .error e₀ ∧ f e₀ = e := by
  cases x <;> simp [Except.mapError]

/-- What is left of a computation without its failure is its result. -/
lemma toOption_eq_some {x : Except ε α} {a : α} : x.toOption = some a ↔ x = .ok a := by
  cases x <;> simp [Except.toOption]

/-- Computations without notices for the members of a list succeed if and only if each of them
does. -/
lemma mapM_eq_ok {f : α → Except ε β} {as : List α} {bs : List β} :
    as.mapM f = .ok bs ↔ List.Forall₂ (fun a b => f a = .ok b) as bs := by
  induction as generalizing bs with
  | nil => simp [pure, Except.pure, eq_comm]
  | cons a as ih =>
    rw [List.mapM_cons]
    simp only [bind_eq_ok, pure, Except.pure, Except.ok.injEq, ih, List.forall₂_cons_left_iff]
    constructor
    · rintro ⟨b, hb, cs, hcs, rfl⟩
      exact ⟨b, cs, hb, hcs, rfl⟩
    · rintro ⟨b, cs, hb, hcs, rfl⟩
      exact ⟨b, hb, cs, hcs, rfl⟩

namespace Audited

/-- Another account of a failure does not change a success. -/
@[simp] lemma outcome_mapError_eq_ok {x : Audited ε α} {f : ε → ε'} {a : α} :
    (x.mapError f).outcome = .ok a ↔ x.outcome = .ok a :=
  mapError_eq_ok

/-- Two computations succeed in a row if and only if each of them does. -/
@[simp] lemma outcome_bind_eq_ok {x : Audited ε α} {f : α → Audited ε β} {b : β} :
    (x >>= f).outcome = .ok b ↔ ∃ a, x.outcome = .ok a ∧ (f a).outcome = .ok b := by
  rw [outcome_bind]
  cases x.outcome <;> simp [Except.bind]

/-- Another account of a failure is one of a failure. -/
lemma outcome_mapError_eq_error {x : Audited ε α} {f : ε → ε'} {e : ε'} :
    (x.mapError f).outcome = .error e ↔ ∃ e₀, x.outcome = .error e₀ ∧ f e₀ = e :=
  mapError_eq_error

/-- Two computations fail in a row if the first of them fails, or the second after it. -/
lemma outcome_bind_eq_error {x : Audited ε α} {f : α → Audited ε β} {e : ε} :
    (x >>= f).outcome = .error e ↔ x.outcome = .error e ∨ ∃ a, x.outcome = .ok a ∧
      (f a).outcome = .error e := by
  rw [outcome_bind]
  exact bind_eq_error

/-- A success without notices goes on as if it were not there. -/
@[simp] lemma lift_ok_bind (a : α) (f : α → Audited ε β) : (lift (.ok a) >>= f) = f a := rfl

/-- A result goes on as if it were not there. -/
@[simp] lemma pure_bind (a : α) (f : α → Audited ε β) : (pure a >>= f) = f a := rfl

/-- The computations for the members of a list succeed if and only if each of them does. -/
lemma outcome_mapList_eq_ok {f : α → Audited ε β} {as : List α} {bs : List β} :
    (mapList f as).outcome = .ok bs ↔ List.Forall₂ (fun a b => (f a).outcome = .ok b) as bs := by
  induction as generalizing bs with
  | nil => simp [mapList, eq_comm]
  | cons a as ih =>
    rw [mapList]
    simp only [outcome_bind_eq_ok, outcome_ok, Except.ok.injEq, ih, List.forall₂_cons_left_iff]
    constructor
    · rintro ⟨b, hb, cs, hcs, rfl⟩
      exact ⟨b, cs, hb, hcs, rfl⟩
    · rintro ⟨b, cs, hb, hcs, rfl⟩
      exact ⟨b, hb, cs, hcs, rfl⟩

/-- Every result of a list comes from a member of the list. -/
lemma exists_of_mem_mapList {f : α → Audited ε β} {as : List α} {bs : List β} {b : β}
    (h : (mapList f as).outcome = .ok bs) (hb : b ∈ bs) : ∃ a ∈ as, (f a).outcome = .ok b := by
  obtain ⟨a, ha, hout⟩ := exists_of_forall₂_of_mem_right (outcome_mapList_eq_ok.mp h) hb
  exact ⟨a, ha, hout⟩

/-- Every member of a list has a result among the results of the list. -/
lemma exists_mem_mapList {f : α → Audited ε β} {as : List α} {bs : List β} {a : α}
    (h : (mapList f as).outcome = .ok bs) (ha : a ∈ as) : ∃ b ∈ bs, (f a).outcome = .ok b := by
  obtain ⟨b, hb, hout⟩ := exists_of_forall₂_of_mem_left (outcome_mapList_eq_ok.mp h) ha
  exact ⟨b, hb, hout⟩

/-- The notices of two computations in a row are those of the first and, if it succeeds, those of
the second. -/
lemma mem_notices_bind {x : Audited ε α} {f : α → Audited ε β} {notice : Notice} :
    notice ∈ (x >>= f).notices ↔ notice ∈ x.notices ∨ ∃ a, x.outcome = .ok a ∧
      notice ∈ (f a).notices := by
  cases hout : x.outcome with
  | ok a =>
    rw [notices_bind_ok hout, List.mem_append]
    simp
  | error e =>
    rw [notices_bind_error hout]
    simp

/-- Every notice for a list comes from a member of the list. -/
lemma exists_of_mem_notices_mapList {f : α → Audited ε β} {as : List α} {notice : Notice}
    (h : notice ∈ (mapList f as).notices) : ∃ a ∈ as, notice ∈ (f a).notices := by
  induction as with
  | nil => cases h
  | cons a as ih =>
    rw [mapList, mem_notices_bind] at h
    rcases h with h | ⟨b, -, h⟩
    · exact ⟨a, List.mem_cons_self, h⟩
    · rcases mem_notices_bind.mp h with h | ⟨bs, -, h⟩
      · obtain ⟨a', ha', hnotice⟩ := ih h
        exact ⟨a', List.mem_cons_of_mem _ ha', hnotice⟩
      · cases h

/-- If the computations for a list succeed, then the notices of each are among theirs. -/
lemma notices_subset_mapList {f : α → Audited ε β} {as : List α} {bs : List β} {a : α}
    (h : (mapList f as).outcome = .ok bs) (ha : a ∈ as) :
    (f a).notices ⊆ (mapList f as).notices := by
  induction as generalizing bs with
  | nil => cases ha
  | cons a' as ih =>
    rw [mapList, outcome_bind_eq_ok] at h
    obtain ⟨b, hb, h⟩ := h
    obtain ⟨cs, hcs, -⟩ := outcome_bind_eq_ok.mp h
    intro notice hnotice
    rw [mapList, mem_notices_bind]
    rcases List.mem_cons.mp ha with rfl | ha
    · exact .inl hnotice
    · exact .inr ⟨b, hb, mem_notices_bind.mpr (.inl (ih hcs ha hnotice))⟩

/-- A result is no error. -/
lemma outcome_pure_ne_error (a : α) (e : ε) : (pure a : Audited ε α).outcome ≠ .error e := by
  simp

/-- A notice is no error. -/
lemma outcome_report_ne_error (ns : List Notice) (e : ε) :
    (report ns : Audited ε Unit).outcome ≠ .error e := by
  simp

/-- Two computations in a row do not end with an error that neither of them ends with. -/
lemma outcome_bind_ne_error {x : Audited ε α} {f : α → Audited ε β} {e : ε}
    (hx : x.outcome ≠ .error e) (hf : ∀ a, (f a).outcome ≠ .error e) :
    (x >>= f).outcome ≠ .error e := by
  rw [outcome_bind]
  cases hout : x.outcome with
  | error e' =>
    rintro ⟨⟩
    exact hx hout
  | ok a => exact hf a

/-- A notice does not change how a computation ends. -/
lemma outcome_report_bind (ns : List Notice) (f : Unit → Audited ε β) :
    (report ns >>= f).outcome = (f ()).outcome := by
  rw [outcome_bind, outcome_report]
  rfl

/-- An error that the second of two computations does not end with is one of the first. -/
lemma outcome_bind_eq_error_iff {x : Audited ε α} {f : α → Audited ε β} {e : ε}
    (hf : ∀ a, x.outcome = .ok a → (f a).outcome ≠ .error e) :
    (x >>= f).outcome = .error e ↔ x.outcome = .error e := by
  rw [outcome_bind]
  cases hout : x.outcome with
  | error e' => simp [Except.bind]
  | ok a =>
    refine ⟨fun h => absurd h (hf a hout), ?_⟩
    rintro ⟨⟩

/-- The computations for the members of a list do not end with an error that none of them ends
with. -/
lemma outcome_mapList_ne_error {f : α → Audited ε β} {as : List α} {e : ε}
    (h : ∀ a ∈ as, (f a).outcome ≠ .error e) :
    (mapList f as).outcome ≠ .error e := by
  induction as with
  | nil => simp [mapList]
  | cons a as ih =>
    obtain ⟨hhead, hrest⟩ := List.forall_mem_cons.mp h
    exact outcome_bind_ne_error hhead fun b => outcome_bind_ne_error (ih hrest) fun bs =>
      outcome_pure_ne_error _ _

/-- What is made of the results for two lists is the same if it is so member by member. -/
lemma outcome_map_mapList_congr {α' β' γ : Type} {f : α → Audited ε β} {f' : α' → Audited ε β'}
    {k : β → γ} {k' : β' → γ} {as : List α} {as' : List α'}
    (h : List.Forall₂ (fun a a' => (f a).outcome.map k = (f' a').outcome.map k') as as') :
    (mapList f as).outcome.map (List.map k) = (mapList f' as').outcome.map (List.map k') := by
  induction h with
  | nil => rfl
  | @cons a a' as as' hhead _ ih =>
    simp only [mapList, outcome_bind, outcome_ok]
    revert hhead ih
    cases (f a).outcome <;> cases (f' a').outcome <;> cases (mapList f as).outcome <;>
      cases (mapList f' as').outcome <;> simp +contextual [Except.map, Except.bind]

/-- The results for two lists are the same if they are so member by member. -/
lemma outcome_mapList_congr {α' : Type} {f : α → Audited ε β} {f' : α' → Audited ε β} {as : List α}
    {as' : List α'} (h : List.Forall₂ (fun a a' => (f a).outcome = (f' a').outcome) as as') :
    (mapList f as).outcome = (mapList f' as').outcome := by
  have hid : List.Forall₂ (fun a a' => (f a).outcome.map id = (f' a').outcome.map id) as as' :=
    h.imp fun _ _ heq => congrArg (Except.map id) heq
  simpa only [List.map_id_fun, Except.map_id, id] using outcome_map_mapList_congr hid

end Audited

end LogicGraph
