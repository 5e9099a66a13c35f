import Mathlib.Tactic.Common
import LogicGraph.Program.Basic

set_option relaxedAutoImplicit false
set_option autoImplicit false

/-!
# The lines of a program

Programs are written by a layout that carries its depth along. This module prints the same tree
without a layout: every line is given with the depth it stands at, and the bodies of a statement
stand one level deeper than the statement. The two give the same text.

## Main definitions

* `LogicGraph.indented` — a line at a depth.
* `LogicGraph.Stmt.print`, `LogicGraph.Method.print`, `LogicGraph.Program.print` — the lines of a
  tree.
* `LogicGraph.unlines` — lines as one text.
* `LogicGraph.Layout.Adds` — a layout that has been written to, with what was added.

## Main results

* `LogicGraph.Stmt.adds_write` — a layout writes the lines of a statement and keeps its depth.
* `LogicGraph.Program.text_eq_unlines_print` — the text of a program is made of its lines.
-/

namespace LogicGraph

/-- A line at a depth, four spaces for each level. -/
def indented (d : Nat) (s : String) : String :=
  String.ofList (List.replicate (4 * d) ' ') ++ s

/-- Behind the white space in front of it, a line is the same at every depth. -/
lemma dropWhile_indented (d : Nat) (s : String) :
    (indented d s).toList.dropWhile (· == ' ') = s.toList.dropWhile (· == ' ') := by
  rw [indented, String.toList_append, String.toList_ofList]
  exact List.dropWhile_append_of_pos fun c hc => by simp [List.eq_of_mem_replicate hc]

/-- Lines as one text, each with a line end behind. -/
def unlines (ls : List String) : String :=
  "\n".intercalate ls ++ "\n"

mutual

/-- The lines of a statement at a depth. -/
def Stmt.print (d : Nat) : Stmt → List String
  | .comment s => [indented d ("# " ++ s)]
  | .docstring s => [indented d ("\"\"\"" ++ s ++ "\"\"\"")]
  | .assign name rhs remark => [indented d (assignText name rhs remark)]
  | .increment name index => [indented d s!"self.{name} += float(action[{index}])"]
  | .pass none => [indented d "pass"]
  | .pass (some name) => [indented d ("pass  # cycle: " ++ name)]
  | .returnState [] => [indented d "return \x7b\x7d"]
  | .returnState (name :: names) =>
    indented d "return \x7b" ::
      (name :: names).map (fun n => indented (d + 1) (stateEntry n)) ++ [indented d "\x7d"]
  | .returnObservation names =>
    let entries := ", ".intercalate (names.map variableText)
    [indented d s!"return np.array([{entries}], dtype=np.float32)"]
  | .returnReset => [indented d "return self.get_observation()"]
  | .reward e => [indented d s!"reward = float({e.text})"]
  | .returnStep => [indented d "return self.get_observation(), reward, False, False, \x7b\x7d"]
  | .choose subject clauses otherwise =>
    Stmt.printClauses d subject true clauses ++ indented d "else:" ::
      Stmt.printAll (d + 1) otherwise

/-- The lines of statements one below the other. -/
def Stmt.printAll (d : Nat) : List Stmt → List String
  | [] => []
  | s :: rest => s.print d ++ Stmt.printAll d rest

/-- The lines of clauses one below the other: heads at the depth of the choice, bodies one level
deeper. -/
def Stmt.printClauses (d : Nat) (subject : Expr) (isFirst : Bool) :
    List (Literal × List Stmt) → List String
  | [] => []
  | (lit, body) :: rest =>
    indented d (clauseHead isFirst subject lit) ::
      (Stmt.printAll (d + 1) body ++ Stmt.printClauses d subject false rest)

end

/-- The head of a method. -/
def Method.head (m : Method) : String :=
  let parameters := ", ".intercalate ("self" :: m.parameters)
  s!"def {m.name}({parameters}):"

/-- The lines of a method of a class. -/
def Method.print (m : Method) : List String :=
  indented 1 m.head :: Stmt.printAll 2 m.body

/-- The lines of a class: methods have an empty line between them. -/
def printClass (className : String) (first : Method) (others : List Method) : List String :=
  s!"class {className}:" :: (first.print ++ others.flatMap fun m => "" :: m.print)

/-- The lines of a program. -/
def Program.print (p : Program) : List String :=
  p.header ++ printClass p.className p.constructor p.methods

/-! ## Layouts -/

namespace Layout

/-- A layout adds lines to another one and keeps its depth. -/
def Adds (l l' : Layout) (ls : List String) : Prop :=
  l'.lines.toList = l.lines.toList ++ ls ∧ l'.depth = l.depth

/-- Lines behind lines. -/
lemma Adds.trans {l l' l'' : Layout} {ls ls' : List String} (h : l.Adds l' ls)
    (h' : l'.Adds l'' ls') :
    l.Adds l'' (ls ++ ls') := by
  refine ⟨?_, ?_⟩
  · rw [h'.1, h.1, List.append_assoc]
  · rw [h'.2, h.2]

/-- Writing a line that is not empty adds it at the depth of the layout. -/
lemma adds_line {l : Layout} {d : Nat} (hd : l.depth = d) {s : String} (hs : s ≠ "") :
    l.Adds (l.line s) [indented d s] := by
  refine ⟨?_, depth_line l s⟩
  rw [lines_line, if_neg hs, hd]
  rfl

/-- What is added one level deeper is added. -/
lemma Adds.nest {l l' : Layout} {d : Nat} (hd : l.depth = d) {ls : List String}
    (h : l.deeper.Adds l' ls) :
    l.Adds l'.shallower ls := by
  refine ⟨h.1, ?_⟩
  have hdepth : l'.depth = d + 1 := by rw [h.2, deeper, hd]
  rw [shallower, hd]
  simp only
  omega

/-- At depth zero, writing a line adds it as it is. -/
lemma adds_line_of_depth_eq_zero {l : Layout} (hd : l.depth = 0) (s : String) :
    l.Adds (l.line s) [s] := by
  refine ⟨?_, depth_line l s⟩
  by_cases hs : s = ""
  · rw [lines_line, if_pos hs, hs]
  · rw [lines_line, if_neg hs, hd]
    rfl

/-- A block adds what each of its lines adds. -/
lemma adds_block {l : Layout} {d : Int} (hd : l.depth = d) {f : String → String} {ss : List String}
    (hline : ∀ l : Layout, l.depth = d → ∀ s ∈ ss, l.Adds (l.line s) [f s]) :
    l.Adds (l.block ss) (ss.map f) := by
  induction ss generalizing l with
  | nil => exact ⟨by simp [block], rfl⟩
  | cons s ss ih =>
    have hs := hline l hd s List.mem_cons_self
    exact hs.trans (ih (hs.2.trans hd) fun l hl t ht => hline l hl t (List.mem_cons_of_mem _ ht))

end Layout

open Layout

/-- The statement that returns variables as a dictionary adds its lines. -/
lemma adds_writeState {l : Layout} {d : Nat} (hd : l.depth = d) (names : List String) :
    l.Adds (writeState l names) (Stmt.print d (.returnState names)) := by
  cases names with
  | nil => exact adds_line hd (by decide)
  | cons name names =>
    have hopen : l.Adds (l.line "return \x7b") [indented d "return \x7b"] :=
      adds_line hd (by decide)
    have hdeep : (l.line "return \x7b").deeper.depth = ((d + 1 : Nat) : Int) := by
      rw [deeper, hopen.2, hd]
      rfl
    have hentry : ∀ l : Layout, l.depth = ((d + 1 : Nat) : Int) →
        ∀ s ∈ (name :: names).map stateEntry,
        l.Adds (l.line s) [indented (d + 1) s] := by
      intro l hl s hs
      obtain ⟨n, -, rfl⟩ := List.mem_map.mp hs
      exact adds_line hl (by simp [stateEntry])
    have hbody := (adds_block hdeep hentry).nest (hopen.2.trans hd)
    have hclose := adds_line (hbody.2.trans (hopen.2.trans hd)) (s := "\x7d") (by decide)
    have hall := (hopen.trans hbody).trans hclose
    rw [List.map_map] at hall
    exact hall

mutual

/-- A layout writes the lines of a statement and keeps its depth. -/
lemma Stmt.adds_write {l : Layout} {d : Nat} (hd : l.depth = d) (s : Stmt) :
    l.Adds (s.write l) (s.print d) := by
  cases s with
  | comment s => exact adds_line hd (by simp)
  | docstring s => exact adds_line hd (by simp)
  | assign name rhs remark => exact adds_line hd (by simp [assignText, variableText])
  | increment name index => exact adds_line hd (by simp [variableText])
  | pass cycle =>
    cases cycle with
    | none => exact adds_line hd (by decide)
    | some name => exact adds_line hd (by simp)
  | returnState names => exact adds_writeState hd names
  | returnObservation names => exact adds_line hd (by simp [toString])
  | returnReset => exact adds_line hd (by decide)
  | reward e => exact adds_line hd (by simp [toString])
  | returnStep => exact adds_line hd (by decide)
  | choose subject clauses otherwise =>
    have hclauses := Stmt.adds_writeClauses hd subject true clauses
    have helse := adds_line (hclauses.2.trans hd) (s := "else:") (by decide)
    have hdepth := helse.2.trans (hclauses.2.trans hd)
    have hbody :=
      (Stmt.adds_writeAll (d := d + 1) (by rw [deeper, hdepth]; rfl) otherwise).nest hdepth
    exact hclauses.trans (helse.trans hbody)

/-- A layout writes the lines of statements and keeps its depth. -/
lemma Stmt.adds_writeAll {l : Layout} {d : Nat} (hd : l.depth = d) (body : List Stmt) :
    l.Adds (Stmt.writeAll l body) (Stmt.printAll d body) := by
  match body with
  | [] => exact ⟨by simp [Stmt.writeAll, Stmt.printAll], rfl⟩
  | s :: rest =>
    have hs := Stmt.adds_write hd s
    exact hs.trans (Stmt.adds_writeAll (hs.2.trans hd) rest)

/-- A layout writes the lines of clauses and keeps its depth. -/
lemma Stmt.adds_writeClauses {l : Layout} {d : Nat} (hd : l.depth = d) (subject : Expr)
    (isFirst : Bool) (clauses : List (Literal × List Stmt)) :
    l.Adds (Stmt.writeClauses l subject isFirst clauses)
      (Stmt.printClauses d subject isFirst clauses) := by
  match clauses with
  | [] => exact ⟨by simp [Stmt.writeClauses, Stmt.printClauses], rfl⟩
  | (lit, body) :: rest =>
    have hhead := adds_line hd (s := clauseHead isFirst subject lit) (by simp [clauseHead])
    have hdepth := hhead.2.trans hd
    have hbody := (Stmt.adds_writeAll (d := d + 1) (by rw [deeper, hdepth]; rfl) body).nest hdepth
    have hrest := Stmt.adds_writeClauses (hbody.2.trans hdepth) subject false rest
    exact hhead.trans (hbody.trans hrest)

end

/-- A layout at depth one writes the lines of a method and keeps its depth. -/
lemma Method.adds_write {l : Layout} (hd : l.depth = (1 : Nat)) (m : Method) :
    l.Adds (m.write l) m.print := by
  have hhead := adds_line hd (s := m.head) (by simp [Method.head, toString])
  have hdepth := hhead.2.trans hd
  have hbody := (Stmt.adds_writeAll (d := 2) (by rw [deeper, hdepth]; rfl) m.body).nest hdepth
  exact hhead.trans hbody

/-- Methods with an empty line in front of each are written one below the other. -/
lemma Method.adds_foldl {l : Layout} (hd : l.depth = (1 : Nat)) (ms : List Method) :
    l.Adds (ms.foldl (fun l m => m.write l.blank) l) (ms.flatMap fun m => "" :: m.print) := by
  induction ms generalizing l with
  | nil => exact ⟨by simp, rfl⟩
  | cons m ms ih =>
    have hblank : l.Adds l.blank [""] := ⟨lines_line l "", rfl⟩
    have hm := hblank.trans (m.adds_write (hblank.2.trans hd))
    exact hm.trans (ih (hm.2.trans hd))

/-- **The text of a program is made of its lines.**

**Proof sketch.** The layout starts empty at depth zero and writes the header as it is. The class
line takes it one level deeper, where it stays: every method goes one level down for its body and
comes back. -/
lemma Program.text_eq_unlines_print (p : Program) : p.text = unlines p.print := by
  have hheader : Adds {} (({} : Layout).block p.header) (p.header.map id) :=
    adds_block rfl fun l hl s _ => adds_line_of_depth_eq_zero hl s
  have hclass := hheader.trans (adds_line_of_depth_eq_zero hheader.2 s!"class {p.className}:")
  -- The layout that the first method is written to, one level below the class line.
  let opened := ((({} : Layout).block p.header).line s!"class {p.className}:").deeper
  have hdepth : opened.depth = (1 : Nat) := by
    show (_ : Int) + 1 = _
    rw [hclass.2]
    rfl
  have hfirst : opened.Adds (p.constructor.write opened) p.constructor.print :=
    p.constructor.adds_write hdepth
  have hmethods := hfirst.trans (Method.adds_foldl (hfirst.2.trans hdepth) p.methods)
  have hlines : p.layout.lines.toList = p.print := by
    calc p.layout.lines.toList
        = opened.lines.toList ++
          (p.constructor.print ++ p.methods.flatMap fun m => "" :: m.print) := hmethods.1
      _ = p.print := by
        show (Layout.line _ _).lines.toList ++ _ = _
        rw [hclass.1, List.map_id]
        simp [Program.print, printClass]
  rw [Program.text, Layout.text, hlines, unlines]

/-- The text of a program ends with the lines of its last method. -/
lemma Program.exists_text_eq_unlines_append {p : Program} {last : Method}
    (h : p.methods.getLast? = some last) :
    ∃ before, p.text = unlines (before ++ last.print) := by
  obtain ⟨others, hothers⟩ := List.getLast?_eq_some_iff.mp h
  refine ⟨p.header ++ s!"class {p.className}:" ::
    (p.constructor.print ++ (others.flatMap (fun m => "" :: m.print) ++ [""])), ?_⟩
  rw [p.text_eq_unlines_print, Program.print, printClass, hothers, List.flatMap_append]
  simp

end LogicGraph
