import LogicGraph.Workspace
import LogicGraph.Proofs.Document.RoundTrip

set_option relaxedAutoImplicit false
set_option autoImplicit false

/-!
# The graphs that a workspace can hold

A workspace starts with the empty graph and changes by actions. Whatever the actions are, and on
whatever machine and with whatever files they are performed, the held graph is loadable, so its
document loads as the same graph.

## Main definitions

* `LogicGraph.Workspace.Reachable` — the workspaces that actions lead to.

## Main results

* `LogicGraph.Action.loadable_of_effect` — a graph that an action puts in place is loadable.
* `LogicGraph.Workspace.Reachable.loadable` — a held graph is loadable.
* `LogicGraph.Workspace.ofJson_toJson_of_reachable` — the document of a held graph loads as the
  graph.

## Design

Files may change between actions and machines may fail at some of them, so each step of a reachable
workspace has a file tree and a machine of its own.
-/

namespace LogicGraph

/-! ## One action -/

variable {ε : Type} {m : Machine ε}

/-- A graph that is loaded from a file is loadable. -/
lemma Graph.loadable_of_graphOfFile {t : FileTree} {strict : Bool} {p : Path} {g : Graph}
    (h : (m.graphOfFile t strict p).outcome = .ok g) : g.Loadable := by
  simp only [Machine.graphOfFile, Audited.outcome_bind_eq_ok, Audited.outcome_mapError_eq_ok] at h
  obtain ⟨v, -, hload⟩ := h
  exact Graph.loadable_of_ofJson hload

/-- A graph that is loaded from a source is loadable. -/
lemma GraphSource.loadable_of_load {t : FileTree} {strict : Bool} {source : GraphSource} {g : Graph}
    (h : (m.load t strict source).outcome = .ok g) : g.Loadable := by
  cases source with
  | document v => exact Graph.loadable_of_ofJson (Audited.outcome_mapError_eq_ok.mp h)
  | file p => exact Graph.loadable_of_graphOfFile h

/-- The graph that a workspace starts with is loadable. -/
lemma loadable_of_seedGraph {t : FileTree} {seed : Option String} {g : Graph}
    (h : (seedGraph m t seed).outcome = .ok g) : g.Loadable := by
  unfold seedGraph at h
  split at h
  · cases h
    exact Graph.loadable_empty
  · simp only [Audited.outcome_bind_eq_ok] at h
    obtain ⟨there, -, h⟩ := h
    cases there with
    | true =>
      simp only [if_true, Audited.outcome_bind_eq_ok, Audited.outcome_pure, Except.ok.injEq] at h
      obtain ⟨g', hfile, -, -, rfl⟩ := h
      exact Graph.loadable_of_graphOfFile hfile
    | false =>
      cases h
      exact Graph.loadable_empty

/-- **A graph that an action puts in place is loadable.** -/
lemma Action.loadable_of_effect {t : FileTree} {held : Graph} {a : Action} {g : Graph}
    {answer : Answer} (h : (a.effect m t held).outcome = .ok (some g, answer)) : g.Loadable := by
  cases a with
  | restart seed =>
    simp only [effect, Audited.outcome_bind_eq_ok, Audited.outcome_pure, Except.ok.injEq,
      Prod.mk.injEq, Option.some.injEq] at h
    obtain ⟨g', hseed, rfl, -⟩ := h
    exact loadable_of_seedGraph hseed
  | replace source strict =>
    simp only [effect, Audited.outcome_bind_eq_ok, Audited.outcome_pure, Except.ok.injEq,
      Prod.mk.injEq, Option.some.injEq] at h
    obtain ⟨g', hload, -, -, rfl, -⟩ := h
    exact GraphSource.loadable_of_load hload
  | importInterface v =>
    simp only [effect, Audited.outcome_bind_eq_ok, Audited.outcome_mapError_eq_ok,
      Audited.outcome_pure, Except.ok.injEq, Prod.mk.injEq, Option.some.injEq] at h
    obtain ⟨g', himport, rfl, -⟩ := h
    exact Graph.loadable_of_ofInterface (by decide) himport
  | clear =>
    cases h
    exact Graph.loadable_empty
  | compile requested source =>
    -- compiling puts no graph in place
    cases source <;>
      simp only [effect, Audited.outcome_bind_eq_ok, Audited.outcome_pure, Except.ok.injEq,
        Prod.mk.injEq, reduceCtorEq, false_and, and_false, exists_false] at h

/-! ## All actions -/

namespace Workspace

/-- The workspaces that actions lead to. -/
inductive Reachable : Workspace → Prop
  /-- A workspace starts with the empty graph. -/
  | start : Reachable {}
  /-- An action is performed on a machine, with the files that are there. -/
  | perform {w : Workspace} {ε : Type} (m : Machine ε) (t : FileTree) (a : Action)
      (h : Reachable w) : Reachable (w.performOn m t a).1

/-- Several actions lead from a reachable workspace to a reachable one. -/
lemma Reachable.performAll {w : Workspace} (h : w.Reachable) (t : FileTree) (as : List Action) :
    (w.performAll t as).Reachable := by
  induction as generalizing w with
  | nil => exact h
  | cons a rest ih => exact ih (h.perform .standard t a)

/-- An action keeps the held graph loadable. -/
lemma loadable_performOn {w : Workspace} (h : w.graph.Loadable) (m : Machine ε) (t : FileTree)
    (a : Action) : (w.performOn m t a).1.graph.Loadable := by
  unfold Workspace.performOn
  simp only
  split
  · rename_i g answer heffect
    exact Action.loadable_of_effect heffect
  · exact h
  · exact h

/-- **A held graph is loadable.** -/
lemma Reachable.loadable {w : Workspace} (h : w.Reachable) : w.graph.Loadable := by
  induction h with
  | start => exact Graph.loadable_empty
  | perform m t a _ ih => exact loadable_performOn ih m t a

/-- **The document of a held graph loads as the graph.** Checking the document finds no node of
unknown type and no edge that ends at no node. -/
theorem ofJson_toJson_of_reachable {w : Workspace} (h : w.Reachable) :
    (Graph.ofJson false w.graph.toJson).outcome = .ok w.graph ∧
      (∀ i name, .flaw (.unknownType i name) ∉ (Document.check false w.graph.toJson).notices) ∧
      ∀ i d id, .flaw (.missingEndpoint i d id) ∉
        (Document.check false w.graph.toJson).notices := by
  have hports := h.loadable.check_toJson.2
  refine ⟨h.loadable.outcome_ofJson_toJson, ?_, ?_⟩
  · intro i name hmem
    obtain ⟨_, _, _, _, heq⟩ := hports _ hmem
    cases heq
  · intro i d id hmem
    obtain ⟨_, _, _, _, heq⟩ := hports _ hmem
    cases heq

/-- A document that loading has to bring into its normal form: one node is of unknown type, and the
edges name neither their ids nor all of their ports. -/
def untidyDocument : Json :=
  .object [
    ("name", .string ""),
    ("nodes", .array [
      .object [("id", .string "fork"), ("type", .string "if_else"),
        ("data",
          .object [("customName", .string ""), ("operation", .string ""), ("isAction", .bool false),
          ("cases",
            .array [.object [("id", .string "c")],
              .object [("id", .string "d"), ("value", .bool true)]])])],
      .object [("id", .string "odd"), ("type", .string "no_such_type")],
      .object [("id", .string "score"), ("type", .string "math"),
        ("data", .object [("purpose", .string "")]),
        ("position", .object [("x", .number (.int 3)), ("y", .number (.float (.zero true)))])]]),
    ("edges", .array [
      .object [("source", .string "fork"), ("target", .string "score"),
        ("sourceHandle", .string "case_out_9")],
      .object [("source", .string "odd"), ("target", .string "score")]])]

/-- The workspace that holds the graph of `untidyDocument`. -/
def untidyWorkspace : Workspace :=
  performAll {}
    {} [.importInterface (.object [("elements", .array [])]),
      .replace (.document untidyDocument) false]

/-- The graph of `untidyDocument` has lost a node and an edge, and its document loads as the same
graph. -/
theorem ofJson_toJson_untidyWorkspace :
    untidyWorkspace.Reachable ∧ untidyWorkspace.graph.nodes.map Node.id = ["fork", "score"] ∧
      untidyWorkspace.graph.edges =
        [⟨"fork:case_out_9→score:a", "fork", "case_out_9", "score", "a"⟩] ∧
      (Graph.ofJson false untidyWorkspace.graph.toJson).outcome = .ok untidyWorkspace.graph ∧
      (∀ i name, .flaw (.unknownType i name) ∉
        (Document.check false untidyWorkspace.graph.toJson).notices) ∧
      ∀ i d id, .flaw (.missingEndpoint i d id) ∉
        (Document.check false untidyWorkspace.graph.toJson).notices :=
  have h : untidyWorkspace.Reachable := Reachable.start.performAll _ _
  ⟨h, by decide +kernel, by decide +kernel, ofJson_toJson_of_reachable h⟩

end Workspace

end LogicGraph
