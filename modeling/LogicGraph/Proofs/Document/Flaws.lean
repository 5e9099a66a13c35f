import LogicGraph.Document.Load
import LogicGraph.Proofs.Audited

set_option relaxedAutoImplicit false
set_option autoImplicit false

/-!
# Warnings and strict checks

A check meets flaws on its way: nodes of unknown kind, edges without a node at one end, ports that a
node does not have. It reports each of them as a warning, and a strict check fails at the first one.
This module shows that there is no other difference between the two. A strict check reports nothing;
it ends with the first warning of the other check if that has one, and as the other check does if it
has none.

## Main definitions

* `LogicGraph.Audited.warnings` — the warnings of a computation.
* `LogicGraph.Document.stopAt` — how a computation ends that is stopped by the first of some flaws.
* `LogicGraph.Document.StopsAtFlaws` — a computation whose strict form is stopped by the first flaw
  of the other one.

## Main results

* `LogicGraph.Document.StopsAtFlaws.bind` — such computations may be put one after another.
* `LogicGraph.Document.stopsAtFlaws_check` — checks are such computations.
* `LogicGraph.Document.check_strict_of_warnings` — strict checking is checking with warnings made
  fatal.
-/

namespace LogicGraph

/-- The warnings of a computation, in the order in which they are reported. -/
def Audited.warnings {ε α : Type} (x : Audited ε α) : List String :=
  x.notices.filterMap Notice.warning?

namespace Document

section

variable {α β : Type}

/-- How a computation ends that is stopped by the first of some flaws. -/
def stopAt (flaws : List Flaw) (ending : Except CheckError α) : Except CheckError α :=
  match flaws with
  | [] => ending
  | f :: _ => .error (.schema (.flaw f))

/-- A computation in two forms. One reports flaws and nothing else. The strict one reports nothing,
and is stopped by the first flaw that the other one reports. -/
def StopsAtFlaws (x : Bool → Audited CheckError α) : Prop :=
  ∃ flaws : List Flaw, (x false).notices = flaws.map .flaw ∧
    x true = .lift (stopAt flaws (x false).outcome)

/-- A computation that reports nothing and does not depend on strictness. -/
lemma stopsAtFlaws_lift (ending : Except CheckError α) : StopsAtFlaws fun _ => .lift ending :=
  ⟨[], rfl, rfl⟩

/-- A result stops at no flaw. -/
lemma stopsAtFlaws_pure (a : α) : StopsAtFlaws fun _ => pure a :=
  stopsAtFlaws_lift (.ok a)

/-- **Computations that are stopped by flaws may be put one after another.**

**Proof sketch.** If the first of them fails without strictness, then its flaws are all there are.
Otherwise the flaws of the second one follow. The strict form is stopped in the first computation if
that has a flaw, and goes on to the second if it has none. -/
lemma StopsAtFlaws.bind {x : Bool → Audited CheckError α} {f : Bool → α → Audited CheckError β}
    (hx : StopsAtFlaws x) (hf : ∀ a, StopsAtFlaws fun strict => f strict a) :
    StopsAtFlaws fun strict => x strict >>= f strict := by
  obtain ⟨flaws, hflaws, hstrict⟩ := hx
  cases hout : (x false).outcome with
  | error e =>
    refine ⟨flaws, ?_, ?_⟩
    · rw [Audited.notices_bind_error hout, hflaws]
    · beta_reduce
      rw [hstrict, Audited.outcome_bind, hout]
      cases flaws <;> rfl
  | ok a =>
    obtain ⟨more, hmore, hrest⟩ := hf a
    refine ⟨flaws ++ more, ?_, ?_⟩
    · rw [Audited.notices_bind_ok hout, hflaws, hmore, List.map_append]
    · beta_reduce
      rw [hstrict, Audited.outcome_bind, hout]
      cases flaws with
      | nil => exact hrest
      | cons => rfl

/-- Meeting a flaw stops at it. -/
lemma stopsAtFlaws_meet (f : Flaw) : StopsAtFlaws fun strict => meet strict f :=
  ⟨[f], rfl, rfl⟩

end

/-! ## The parts of a check -/

/-- The check of a kind stops at its flaws. -/
lemma stopsAtFlaws_checkKind (i : Nat) (n : NodeEntry) :
    StopsAtFlaws fun strict => checkKind strict i n := by
  unfold checkKind
  cases n.kind? with
  | none => exact stopsAtFlaws_meet _
  | some => exact stopsAtFlaws_pure ()

/-- The check of nodes stops at its flaws. -/
lemma stopsAtFlaws_checkNodes (i : Nat) (seen : List String) (vs : List Json) :
    StopsAtFlaws fun strict => checkNodes strict i seen vs := by
  induction vs generalizing i seen with
  | nil => exact stopsAtFlaws_pure []
  | cons v rest ih =>
    refine .bind (stopsAtFlaws_lift _) fun n => ?_
    refine .bind (stopsAtFlaws_checkKind i n) fun _ => ?_
    exact .bind (ih _ _) fun ns => stopsAtFlaws_pure _

/-- The check of one end of an edge stops at its flaws. -/
lemma stopsAtFlaws_checkEnd (ns : List NodeEntry) (i : Nat) (d : Direction) (id : String)
    (handle : Option String) :
    StopsAtFlaws fun strict => checkEnd strict ns i d id handle := by
  unfold checkEnd
  cases ns.find? (·.id == id) with
  | none => exact stopsAtFlaws_meet _
  | some n =>
    simp only
    cases n.kind? with
    | none => exact stopsAtFlaws_pure ()
    | some kind =>
      cases handle with
      | none => exact stopsAtFlaws_pure ()
      | some port =>
        refine .bind (stopsAtFlaws_lift _) fun there => ?_
        cases there with
        | true => exact stopsAtFlaws_pure ()
        | false => exact stopsAtFlaws_meet _

/-- The check of edges stops at its flaws. -/
lemma stopsAtFlaws_checkEdges (ns : List NodeEntry) (i : Nat) (vs : List Json) :
    StopsAtFlaws fun strict => checkEdges strict ns i vs := by
  induction vs generalizing i with
  | nil => exact stopsAtFlaws_pure []
  | cons v rest ih =>
    refine .bind (stopsAtFlaws_lift _) fun e => ?_
    refine .bind (stopsAtFlaws_checkEnd ns i .output e.source e.sourceHandle) fun _ => ?_
    refine .bind (stopsAtFlaws_checkEnd ns i .input e.target e.targetHandle) fun _ => ?_
    exact .bind (ih _) fun es => stopsAtFlaws_pure _

/-- **A strict check is stopped by the first flaw that the other check reports.** -/
lemma stopsAtFlaws_check (v : Json) : StopsAtFlaws fun strict => check strict v := by
  refine .bind (stopsAtFlaws_lift _) fun top => ?_
  refine .bind (stopsAtFlaws_checkNodes 0 [] top.2.1) fun ns => ?_
  exact .bind (stopsAtFlaws_checkEdges ns 0 top.2.2) fun es => stopsAtFlaws_pure _

/-! ## What follows for warnings -/

section

variable {α : Type} {x : Bool → Audited CheckError α}

/-- The warnings are the messages of the flaws that are met. -/
lemma warnings_eq_map_message {flaws : List Flaw} (h : (x false).notices = flaws.map .flaw) :
    (x false).warnings = flaws.map Flaw.message := by
  rw [Audited.warnings, h, List.filterMap_map, ← List.filterMap_eq_map]
  rfl

/-- A strict computation reports nothing. -/
lemma StopsAtFlaws.notices_true (hx : StopsAtFlaws x) : (x true).notices = [] := by
  obtain ⟨flaws, -, hstrict⟩ := hx
  rw [hstrict]
  rfl

/-- Without a warning, strictness makes no difference to how a computation ends. -/
lemma StopsAtFlaws.outcome_of_warnings_nil (hx : StopsAtFlaws x) (h : (x false).warnings = []) :
    (x true).outcome = (x false).outcome := by
  obtain ⟨flaws, hflaws, hstrict⟩ := hx
  rw [warnings_eq_map_message hflaws, List.map_eq_nil_iff] at h
  rw [hstrict, h]
  rfl

/-- The first warning is what a strict computation fails with. -/
lemma StopsAtFlaws.outcome_of_warnings_cons (hx : StopsAtFlaws x) {w : String} {ws : List String}
    (h : (x false).warnings = w :: ws) :
    ∃ f : Flaw, (x true).outcome = .error (.schema (.flaw f)) ∧ f.message = w := by
  obtain ⟨flaws, hflaws, hstrict⟩ := hx
  rw [warnings_eq_map_message hflaws, List.map_eq_cons_iff] at h
  obtain ⟨f, rest, rfl, hf, -⟩ := h
  exact ⟨f, by rw [hstrict]; rfl, hf⟩

/-- A strict computation ends other than by a flaw exactly if the other one does so without a
warning. -/
lemma StopsAtFlaws.outcome_eq_iff (hx : StopsAtFlaws x) {ending : Except CheckError α}
    (hending : ∀ f, ending ≠ .error (.schema (.flaw f))) :
    (x true).outcome = ending ↔ (x false).outcome = ending ∧ (x false).warnings = [] := by
  cases hwarnings : (x false).warnings with
  | nil => rw [hx.outcome_of_warnings_nil hwarnings, and_iff_left rfl]
  | cons w ws =>
    obtain ⟨f, hf, -⟩ := hx.outcome_of_warnings_cons hwarnings
    rw [hf]
    simpa using (hending f).symm

end

/-- **Strict checking is checking with warnings made fatal.** A strict check reports nothing. If the
other check warns, then the strict one refuses the value with the first warning, and if it does not
warn, then the strict one ends as it does. So a value passes a strict check exactly if it passes the
other one without a warning, and what is loaded strictly is what is loaded otherwise. -/
theorem check_strict_of_warnings (v : Json) :
    (check true v).notices = [] ∧
    (∀ w ws, (check false v).warnings = w :: ws →
      ∃ e : SchemaError, (check true v).outcome = .error (.schema e) ∧ e.message = w) ∧
    ((check false v).warnings = [] → (check true v).outcome = (check false v).outcome) ∧
    (∀ d, (check true v).outcome = .ok d ↔ (check false v).outcome = .ok d ∧
      (check false v).warnings = []) ∧
    ∀ g, (Graph.ofJson true v).outcome = .ok g → (Graph.ofJson false v).outcome = .ok g := by
  have hcheck := stopsAtFlaws_check v
  have haccept : ∀ d, (check true v).outcome = .ok d ↔
      (check false v).outcome = .ok d ∧ (check false v).warnings = [] :=
    fun d => hcheck.outcome_eq_iff (by simp)
  refine ⟨hcheck.notices_true, ?_, hcheck.outcome_of_warnings_nil, haccept, ?_⟩
  · intro w ws hwarnings
    obtain ⟨f, hf, hmessage⟩ := hcheck.outcome_of_warnings_cons hwarnings
    exact ⟨.flaw f, hf, hmessage⟩
  · intro g hg
    simp only [Graph.ofJson, Audited.outcome_bind_eq_ok, Audited.outcome_mapError_eq_ok] at hg ⊢
    obtain ⟨d, hd, hload⟩ := hg
    exact ⟨d, ((haccept d).mp hd).1, hload⟩

/-- A document with a node of unknown kind, an edge that ends nowhere, and an edge that is no
object. -/
def flawedDocument : Json :=
  .object [
    ("nodes", .array [
      .object [("id", .string "x"), ("type", .string "teleporter")],
      .object [("id", .string "m"), ("type", .string "math")]]),
    ("edges", .array [.object [("source", .string "m"), ("target", .string "ghost")], .null])]

/-- A document of one node without flaws. -/
def soundDocument : Json :=
  .object [("nodes", .array [.object [("id", .string "m"), ("type", .string "math")]]),
    ("edges", .array [])]

/-- The check of `flawedDocument` warns twice before it fails, and the strict check fails with the
first warning. For `soundDocument` the two are the same, and so is what is loaded. -/
theorem check_strict_flawedDocument :
    (check false flawedDocument).warnings =
      ["nodes[0]: unknown node type 'teleporter'", "edges[0]: target 'ghost' not found in nodes"] ∧
    (check false flawedDocument).outcome = .error (.schema (.memberNotAnObject (.edge 1))) ∧
    (∃ e : SchemaError, (check true flawedDocument).outcome = .error (.schema e) ∧
      e.message = "nodes[0]: unknown node type 'teleporter'") ∧
    (check false soundDocument).warnings = [] ∧
    (check true soundDocument).outcome = (check false soundDocument).outcome ∧
    ∃ g, (Graph.ofJson true soundDocument).outcome = .ok g ∧
      (Graph.ofJson false soundDocument).outcome = .ok g := by
  have hwarnings : (check false flawedDocument).warnings =
      ["nodes[0]: unknown node type 'teleporter'",
        "edges[0]: target 'ghost' not found in nodes"] := by rfl
  have hsilent : (check false soundDocument).warnings = [] := by rfl
  obtain ⟨-, hfirst, -, -, -⟩ := check_strict_of_warnings flawedDocument
  obtain ⟨-, -, hsame, -, hload⟩ := check_strict_of_warnings soundDocument
  exact ⟨hwarnings, rfl, hfirst _ _ hwarnings, hsilent, hsame hsilent, _, rfl, hload _ rfl⟩

end Document

end LogicGraph
