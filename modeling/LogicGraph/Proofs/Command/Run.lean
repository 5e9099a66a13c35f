import LogicGraph.Command.Run
import LogicGraph.Proofs.Compile
import LogicGraph.Proofs.Files.Disk
import LogicGraph.Proofs.Naming

set_option relaxedAutoImplicit false
set_option autoImplicit false

/-!
# What the command delivers

The command goes through the stages of compiling on its own: it checks the file, loads what it has
read, and compiles the graph. What it delivers is nevertheless what compiling the file gives, and it
delivers it to one place: to the output, or to one file whose name is made of letters, digits and
underscores. A run that does not succeed changes no file, unless the machine fails after the file
for the program has been opened: the disk may stop in the middle of it, and the line that says where
the program is may be refused when all of it has been written.

## Main definitions

* `LogicGraph.Command.Options.compiled` — what compiling the file gives.
* `LogicGraph.Command.Stops` — how a run ends at a failure.
* `LogicGraph.Command.Course` — the ways in which the command goes through its stages.
* `LogicGraph.Command.IsProgramName` — the names of files for programs.
* `LogicGraph.Command.Delivery` — what becomes of a program.

## Main results

* `LogicGraph.Command.course_runFile` — every run goes one of these ways.
* `LogicGraph.Command.delivery_deliver` — every program ends up in one of these ways.
* `LogicGraph.Command.executeOn_delivers_compiled` — the command agrees with compiling the file.
* `LogicGraph.Command.executeOn_fails_after_writing` — a run may fail and leave a file, and a name
  of two lines makes five lines of four messages.
-/

namespace LogicGraph

variable {ε : Type}

/-- A machine refuses some text with the given failure. -/
def Machine.Refuses (m : Machine ε) (x : ε) : Prop :=
  ∃ s before text, m.refusal? s before text = some x

/-- A disk stops with the given failure when it has opened some file. -/
def Disk.CutsOff (d : Disk ε) (x : ε) : Prop :=
  ∃ t p bytes count, d.writeFault? t p bytes = some (.cutOff count x)

namespace Command

variable {m : Machine ε} {tree : FileTree} {o : Options} {p : Path}

/-! ## Compiling the file -/

/-- The path of the graph. -/
def Options.path (o : Options) : Path :=
  Path.ofString (o.graph.getD "")

/-- What compiling the file gives, with the target and the strictness of the options. -/
def Options.compiled (o : Options) (m : Machine ε) (tree : FileTree) : Except (Failure ε) String :=
  (m.compileSource tree o.strict (.file o.path) o.requested).outcome

/-- What a file is compiled through: the value that is read and checked, the graph that is loaded,
and the text. -/
structure Compiles (m : Machine ε) (tree : FileTree) (o : Options) (p : Path) (v : Json) (g : Graph)
    (source : String) : Prop where
  /-- The value of the file is a document. -/
  validated : (m.validateFile tree o.strict p).outcome = .ok v
  /-- The document is loaded. -/
  loaded : (Graph.ofJson o.strict v).outcome = .ok g
  /-- The graph is compiled. -/
  compiled : (m.compileFor g o.requested).outcome = .ok source

/-- The bytes of a file are decoded and then read. -/
lemma readJson_eq {bytes : List UInt8} (hfile : m.disk.readFile tree p = .ok bytes) :
    m.readJson tree p = (Utf8.decode bytes).mapError .decode >>= fun cs =>
      (Json.readWithin m.nestingLimit (Utf8.unifyLineEnds cs)).mapError .json := by
  rw [Machine.readJson, hfile]
  rfl

/-- A file with a document is one that is read and whose value is a document. -/
lemma outcome_validateFile_eq_ok {strict : Bool} {v : Json} :
    (m.validateFile tree strict p).outcome = .ok v ↔
      m.readJson tree p = .ok v ∧ ∃ d, (Document.check strict v).outcome = .ok d := by
  simp only [Machine.validateFile, Audited.outcome_bind_eq_ok, Audited.outcome_lift,
    Audited.outcome_mapError_eq_ok, Audited.outcome_pure, Except.ok.injEq]
  constructor
  · rintro ⟨v', hread, d, hcheck, rfl⟩
    exact ⟨hread, d, hcheck⟩
  · rintro ⟨hread, d, hcheck⟩
    exact ⟨v, hread, d, hcheck, rfl⟩

/-- **The stages of the command are those of compiling the file.** The command checks the value
twice, compiling once. -/
lemma compiled_eq_ok {source : String} :
    o.compiled m tree = .ok source ↔ ∃ v g, Compiles m tree o o.path v g source := by
  simp only [Options.compiled, Machine.outcome_compileSource_eq_ok, Machine.load,
    Machine.graphOfFile, Audited.outcome_bind_eq_ok, Audited.outcome_lift,
    Audited.outcome_mapError_eq_ok]
  constructor
  · rintro ⟨g, ⟨v, hread, hload⟩, hcompile⟩
    obtain ⟨d, hcheck⟩ := Graph.exists_check_of_ofJson hload
    exact ⟨v, g, outcome_validateFile_eq_ok.mpr ⟨hread, d, hcheck⟩, hload, hcompile⟩
  · rintro ⟨v, g, hvalid, hload, hcompile⟩
    exact ⟨g, ⟨v, (outcome_validateFile_eq_ok.mp hvalid).1, hload⟩, hcompile⟩

/-- A file whose value is a document is there. -/
lemma isThere_of_validateFile {strict : Bool} {v : Json}
    (h : (m.validateFile tree strict p).outcome = .ok v) : tree.isThere p = .ok true := by
  obtain ⟨hread, -⟩ := outcome_validateFile_eq_ok.mp h
  rw [Machine.readJson, bind_eq_ok] at hread
  obtain ⟨bytes, hbytes, -⟩ := hread
  exact FileTree.isThere_of_readFile (Disk.readFile_eq_ok.mp (mapError_eq_ok.mp hbytes)).1

/-! ## Printing -/

section Printing

variable {s : Stream} {c c' : Console} {texts : List String} {x : ε}

/-- Whether a text has been refused, with what has been printed by then. -/
lemma exists_print_eq {shown : Option ε} (h : (print m s c texts).2 = shown) :
    ∃ c', print m s c texts = (c', shown) :=
  ⟨_, Prod.ext rfl h⟩

/-- A text that is refused is the last. -/
lemma print_cons_of_refused {text : String} (h : m.refusal? s (c.on s) text = some x) :
    print m s c (text :: texts) = (c, some x) := by
  simp only [print, h]

/-- A text that is not refused is printed, and the others come after it. -/
lemma print_cons_of_shown {text : String} (h : m.refusal? s (c.on s) text = none) :
    print m s c (text :: texts) = print m s (c.add s text) texts := by
  simp only [print, h]

/-- Only a refused text keeps texts from being printed. -/
lemma refuses_of_print (h : print m s c texts = (c', some x)) : m.Refuses x := by
  induction texts generalizing c with
  | nil => cases h
  | cons text rest ih =>
    unfold print at h
    split at h
    · next y hy =>
      cases h
      exact ⟨s, _, text, hy⟩
    · exact ih h

/-- More texts are printed where the first of them have been. -/
lemma print_append_of_shown (h : print m s c texts = (c', none)) (more : List String) :
    print m s c (texts ++ more) = print m s c' more := by
  induction texts generalizing c with
  | nil =>
    cases h
    rfl
  | cons text rest ih =>
    rw [List.cons_append, print]
    rw [print] at h
    split at h
    · cases h
    · exact ih h

/-- A text that is refused is refused whatever comes after it. -/
lemma print_append_of_refused (h : print m s c texts = (c', some x)) (more : List String) :
    print m s c (texts ++ more) = (c', some x) := by
  induction texts generalizing c with
  | nil => cases h
  | cons text rest ih =>
    rw [List.cons_append, print]
    rw [print] at h
    split at h
    · exact h
    · exact ih h

/-- Printing on the output touches nothing else. -/
lemma err_of_print {shown : Option ε} (h : print m .out c texts = (c', shown)) :
    c'.err = c.err := by
  induction texts generalizing c with
  | nil =>
    cases h
    rfl
  | cons text rest ih =>
    rw [print] at h
    split at h
    · cases h
      rfl
    · exact (ih h).trans rfl

/-- What has been printed on the output stands there. -/
lemma out_of_print (h : print m .out c texts = (c', none)) :
    c'.out = c.out ++ String.join texts := by
  induction texts generalizing c with
  | nil =>
    cases h
    simp
  | cons text rest ih =>
    rw [print] at h
    split at h
    · cases h
    · rw [ih h, String.join_cons, ← String.append_assoc]
      rfl

/-- Texts that are printed are followed by what comes next. -/
lemma printing_of_shown {ns : List Notice} {next : Console → Run ε}
    (h : print m s c texts = (c', none)) : printing m s tree c ns texts next = next c' := by
  simp only [printing, h]

/-- A text that is refused ends the run. -/
lemma printing_of_refused {ns : List Notice} {next : Console → Run ε}
    (h : print m s c texts = (c', some x)) :
    printing m s tree c ns texts next =
      { console := c', notices := ns, tree, ending := .error (.machine x) } := by
  simp only [printing, h]

end Printing

/-! ## Stages -/

/-- How a run ends at a failure: the files are as they were, and the run ends with code 1 after a
complaint, or as the failure if there is none. A complaint may be refused. -/
structure Stops (m : Machine ε) (tree : FileTree) (e : Failure ε) (complaint : Option String)
    (r : Run ε) : Prop where
  /-- The files are as they were. -/
  tree : r.tree = tree
  /-- A failure that is complained about is dealt with. -/
  ending : r.ending = complaint.elim (.error e) fun s =>
    (m.refusal? .err "" (complaintLine s)).elim (.ok 1) fun x => .error (.machine x)
  /-- The complaint is all that is said about failures. -/
  err : r.ending = .ok 1 → ∃ s, r.console.err = complaintLine s

/-- A run that stops does not succeed. -/
lemma Stops.ending_ne {e : Failure ε} {complaint : Option String} {r : Run ε}
    (h : Stops m tree e complaint r) : r.ending ≠ .ok 0 := by
  rw [h.ending]
  cases complaint with
  | none => simp
  | some s =>
    rw [Option.elim_some]
    cases m.refusal? .err "" (complaintLine s) <;> simp

section Stages

variable {α : Type} {c : Console} {ns : List Notice} {x : Audited (Failure ε) α}
  {complaint? : Failure ε → Option String} {next : α → List Notice → Run ε}

/-- A stage that succeeds goes on with its result. -/
lemma stage_of_ok {a : α} (h : x.outcome = .ok a) :
    stage m tree c ns x complaint? next = next a (ns ++ x.notices) := by
  simp only [stage, h]

/-- A stage that fails stops the run. -/
lemma stops_stage {e : Failure ε} (hc : c.err = "") (h : x.outcome = .error e) :
    Stops m tree e (complaint? e) (stage m tree c ns x complaint? next) := by
  simp only [stage, h]
  cases complaint? e with
  | none => exact ⟨rfl, rfl, by rintro ⟨⟩⟩
  | some s =>
    simp only
    cases hrefused : m.refusal? .err "" (complaintLine s) with
    | none =>
      have hprint : print m .err c [complaintLine s] = (c.add .err (complaintLine s), none) :=
        print_cons_of_shown (by rwa [Console.on, hc])
      rw [printing_of_shown hprint]
      refine ⟨rfl, by rw [Option.elim_some, hrefused, Option.elim_none], fun _ => ⟨s, ?_⟩⟩
      show c.err ++ complaintLine s = complaintLine s
      rw [hc, String.empty_append]
    | some x =>
      have hprint : print m .err c [complaintLine s] = (c, some x) :=
        print_cons_of_refused (by rwa [Console.on, hc])
      rw [printing_of_refused hprint]
      exact ⟨rfl, by rw [Option.elim_some, hrefused, Option.elim_some], by rintro ⟨⟩⟩

/-- A text that is refused stops the run. -/
lemma stops_printing {c' : Console} {texts : List String} {s : Stream} {x : ε}
    {next : Console → Run ε} (h : print m s c texts = (c', some x)) :
    Stops m tree (.machine x) none (printing m s tree c ns texts next) := by
  rw [printing_of_refused h]
  exact ⟨rfl, rfl, by rintro ⟨⟩⟩

end Stages

/-- What is printed about a graph before its program. -/
def progressLines (name target : String) (g : Graph) : List String :=
  headerLines name target ++ countLines g

/-- The ways in which the command goes through its stages: it stops at the first of them that fails
or at the first line that is refused, or delivers the text. -/
inductive Course (m : Machine ε) (tree : FileTree) (o : Options) (p : Path) (r : Run ε) : Prop
  /-- The file is no document. -/
  | invalid {e : Failure ε} (hvalid : (m.validateFile tree o.strict p).outcome = .error e)
      (hstop : Stops m tree e (checkComplaint? e) r)
  /-- A line about what is to be compiled is refused. -/
  | unannounced {v : Json} {c : Console} {x : ε}
      (hvalid : (m.validateFile tree o.strict p).outcome = .ok v)
      (hprint : print m .out {} (headerLines (graphName v p) o.requested.plainText) = (c, some x))
      (hstop : Stops m tree (.machine x) none r)
  /-- The document is not loaded. -/
  | unloaded {v : Json} {c : Console} {e : Document.LoadError}
      (hvalid : (m.validateFile tree o.strict p).outcome = .ok v)
      (hprint : print m .out {} (headerLines (graphName v p) o.requested.plainText) = (c, none))
      (hload : (Graph.ofJson o.strict v).outcome = .error e)
      (hstop : Stops m tree (.load e) (loadComplaint? (.load e : Failure ε)) r)
  /-- A line about the graph is refused. -/
  | uncounted {v : Json} {g : Graph} {c : Console} {x : ε}
      (hvalid : (m.validateFile tree o.strict p).outcome = .ok v)
      (hload : (Graph.ofJson o.strict v).outcome = .ok g)
      (hprint : print m .out {} (progressLines (graphName v p) o.requested.plainText g) =
        (c, some x))
      (hstop : Stops m tree (.machine x) none r)
  /-- The graph is not compiled. -/
  | uncompiled {v : Json} {g : Graph} {c : Console} {e : Failure ε}
      (hvalid : (m.validateFile tree o.strict p).outcome = .ok v)
      (hload : (Graph.ofJson o.strict v).outcome = .ok g)
      (hprint : print m .out {} (progressLines (graphName v p) o.requested.plainText g) = (c, none))
      (hcompile : (m.compileFor g o.requested).outcome = .error e)
      (hstop : Stops m tree e (compileComplaint? e) r)
  /-- The text is delivered. -/
  | delivered {v : Json} {g : Graph} {c : Console} {source : String} {ns : List Notice}
      (hcompiles : Compiles m tree o p v g source)
      (hprint : print m .out {} (progressLines (graphName v p) o.requested.plainText g) = (c, none))
      (hrun : r = deliver m tree o c ns (graphName v p) source)

section Courses

variable {v : Json} {g : Graph} {c : Console} {x : ε}

/-- A file that is no document stops the run. -/
lemma stops_of_validateFile {e : Failure ε}
    (hvalid : (m.validateFile tree o.strict p).outcome = .error e) :
    Stops m tree e (checkComplaint? e) (runFile m tree o p) :=
  stops_stage rfl hvalid

/-- A line about what is to be compiled stops the run if it is refused. -/
lemma stops_of_headerLines (hvalid : (m.validateFile tree o.strict p).outcome = .ok v)
    (hprint : print m .out {} (headerLines (graphName v p) o.requested.plainText) = (c, some x)) :
    Stops m tree (.machine x) none (runFile m tree o p) := by
  rw [runFile, stage_of_ok hvalid]
  exact stops_printing hprint

/-- A document that is not loaded stops the run. -/
lemma stops_of_ofJson {e : Document.LoadError}
    (hvalid : (m.validateFile tree o.strict p).outcome = .ok v)
    (hprint : print m .out {} (headerLines (graphName v p) o.requested.plainText) = (c, none))
    (hload : (Graph.ofJson o.strict v).outcome = .error e) :
    Stops m tree (.load e) (loadComplaint? (.load e : Failure ε)) (runFile m tree o p) := by
  rw [runFile, stage_of_ok hvalid, printing_of_shown hprint]
  exact stops_stage (err_of_print hprint) (Audited.outcome_mapError_eq_error.mpr ⟨e, hload, rfl⟩)

/-- A line about the graph stops the run if it is refused. -/
lemma stops_of_progressLines (hvalid : (m.validateFile tree o.strict p).outcome = .ok v)
    (hload : (Graph.ofJson o.strict v).outcome = .ok g)
    (hprint : print m .out {} (progressLines (graphName v p) o.requested.plainText g) =
      (c, some x)) : Stops m tree (.machine x) none (runFile m tree o p) := by
  obtain ⟨⟨c', shown⟩, hheader⟩ :
    ∃ q, print m .out {} (headerLines (graphName v p) o.requested.plainText) = q := ⟨_, rfl⟩
  cases shown with
  | some y =>
    rw [progressLines, print_append_of_refused hheader] at hprint
    cases hprint
    exact stops_of_headerLines hvalid hheader
  | none =>
    rw [progressLines, print_append_of_shown hheader] at hprint
    rw [runFile, stage_of_ok hvalid, printing_of_shown hheader,
      stage_of_ok (Audited.outcome_mapError_eq_ok.mpr hload)]
    exact stops_printing hprint

/-- A graph about which all lines have been printed is compiled. -/
lemma runFile_of_progressLines (hvalid : (m.validateFile tree o.strict p).outcome = .ok v)
    (hload : (Graph.ofJson o.strict v).outcome = .ok g)
    (hprint : print m .out {} (progressLines (graphName v p) o.requested.plainText g) =
      (c, none)) :
    ∃ ns, runFile m tree o p = stage m tree c ns (m.compileFor g o.requested) compileComplaint?
      fun source ns => deliver m tree o c ns (graphName v p) source := by
  obtain ⟨⟨c', shown⟩, hheader⟩ :
    ∃ q, print m .out {} (headerLines (graphName v p) o.requested.plainText) = q := ⟨_, rfl⟩
  cases shown with
  | some x =>
    rw [progressLines, print_append_of_refused hheader] at hprint
    cases hprint
  | none =>
    rw [progressLines, print_append_of_shown hheader] at hprint
    rw [runFile, stage_of_ok hvalid, printing_of_shown hheader,
      stage_of_ok (Audited.outcome_mapError_eq_ok.mpr hload), printing_of_shown hprint]
    exact ⟨_, rfl⟩

/-- A graph that is not compiled stops the run. -/
lemma stops_of_compileFor {e : Failure ε}
    (hvalid : (m.validateFile tree o.strict p).outcome = .ok v)
    (hload : (Graph.ofJson o.strict v).outcome = .ok g)
    (hprint : print m .out {} (progressLines (graphName v p) o.requested.plainText g) = (c, none))
    (hcompile : (m.compileFor g o.requested).outcome = .error e) :
    Stops m tree e (compileComplaint? e) (runFile m tree o p) := by
  obtain ⟨ns, hrun⟩ := runFile_of_progressLines hvalid hload hprint
  rw [hrun]
  exact stops_stage (err_of_print hprint) hcompile

/-- A graph that is compiled is delivered. -/
lemma runFile_of_compiles {source : String} (hcompiles : Compiles m tree o p v g source)
    (hprint : print m .out {} (progressLines (graphName v p) o.requested.plainText g) =
      (c, none)) : ∃ ns, runFile m tree o p = deliver m tree o c ns (graphName v p) source := by
  obtain ⟨ns, hrun⟩ := runFile_of_progressLines hcompiles.validated hcompiles.loaded hprint
  rw [hrun, stage_of_ok hcompiles.compiled]
  exact ⟨_, rfl⟩

end Courses

/-- **Every run goes through the stages in one of these ways.** -/
lemma course_runFile (m : Machine ε) (tree : FileTree) (o : Options) (p : Path) :
    Course m tree o p (runFile m tree o p) := by
  cases hvalid : (m.validateFile tree o.strict p).outcome with
  | error e => exact .invalid hvalid (stops_of_validateFile hvalid)
  | ok v =>
    obtain ⟨⟨c, shown⟩, hheader⟩ :
      ∃ q, print m .out {} (headerLines (graphName v p) o.requested.plainText) = q := ⟨_, rfl⟩
    cases shown with
    | some x => exact .unannounced hvalid hheader (stops_of_headerLines hvalid hheader)
    | none =>
      cases hload : (Graph.ofJson o.strict v).outcome with
      | error e => exact .unloaded hvalid hheader hload (stops_of_ofJson hvalid hheader hload)
      | ok g =>
        obtain ⟨⟨c', shown⟩, hlines⟩ : ∃ q, print m .out {}
          (progressLines (graphName v p) o.requested.plainText g) = q := ⟨_, rfl⟩
        cases shown with
        | some x =>
          exact .uncounted hvalid hload hlines (stops_of_progressLines hvalid hload hlines)
        | none =>
          cases hcompile : (m.compileFor g o.requested).outcome with
          | error e =>
            exact .uncompiled hvalid hload hlines hcompile
              (stops_of_compileFor hvalid hload hlines hcompile)
          | ok source =>
            obtain ⟨ns, hrun⟩ := runFile_of_compiles ⟨hvalid, hload, hcompile⟩ hlines
            exact .delivered ⟨hvalid, hload, hcompile⟩ hlines hrun

/-! ## Delivery -/

/-- The names of files for programs: a letter or an underscore, letters, digits and underscores, and
the extension. -/
def IsProgramName (s : String) : Prop :=
  ∃ c cs, s.toList = c :: cs ++ ['.', 'p', 'y'] ∧ (c.isLower = true ∨ c = '_') ∧
    ∀ d ∈ cs, d.isLower = true ∨ d.isDigit = true ∨ d = '_'

/-- The file for a graph has such a name, whatever the graph is called. -/
lemma isProgramName_fileName (name : String) : IsProgramName (fileName name) := by
  obtain ⟨hne, hchars, hhead, -⟩ := Text.isIdentifier_identifier name "graph"
  rw [IsProgramName, fileName, String.toList_append]
  obtain ⟨c, cs, hcs⟩ := List.exists_cons_of_ne_nil hne
  rw [hcs] at hchars hhead ⊢
  have hkinds : ∀ d ∈ c :: cs, d.isLower = true ∨ d.isDigit = true ∨ d = '_' := by
    intro d hd
    simpa [Text.isIdentifierChar, or_assoc] using hchars d hd
  have hc : c.isDigit = false := hhead c (by simp)
  refine ⟨c, cs, rfl, ?_, fun d hd => hkinds d (List.mem_cons_of_mem c hd)⟩
  simpa [hc] using hkinds c List.mem_cons_self

/-- Writing a program changes the one file that is named after the graph, or no file. If it fails
after the file has been opened, then the file has a first part of the program. -/
lemma writeProgram_cases (d : Disk ε) (tree : FileTree) (directory : Path) (name source : String) :
    (∃ e left, writeProgram d directory name source tree = .error e left ∧
      left.files = tree.files) ∨
    (∃ x left count, writeProgram d directory name source tree = .error (.inr x) left ∧
      d.CutsOff x ∧
      tree.Wrote left directory (fileName name) (source.toUTF8.toList.take count)) ∨
    ∃ written,
      writeProgram d directory name source tree = .ok (directory.join (fileName name)) written ∧
      tree.Wrote written directory (fileName name) source.toUTF8.toList := by
  have hextends := Disk.extends_makeDirectories d tree directory
  simp only [writeProgram, bind, EStateM.bind, pure, EStateM.pure]
  cases hmade : d.makeDirectories directory tree with
  | error e left =>
    rw [hmade] at hextends
    exact .inl ⟨e, left, rfl, hextends.files⟩
  | ok _ made =>
    rw [hmade] at hextends
    simp only
    rcases d.writeFile_cases made directory (fileName name) source.toUTF8.toList
      (Disk.directoryAt_of_makeDirectories hmade) with
      ⟨e, hfailed⟩ | ⟨count, x, left, hfault, hfailed, hwrote⟩ | ⟨written, hwritten, hwrote⟩
    · rw [hfailed]
      exact .inl ⟨e, made, rfl, hextends.files⟩
    · rw [hfailed]
      exact .inr (.inl ⟨x, left, count, rfl, ⟨made, _, _, count, hfault⟩,
        hwrote.of_files hextends.files⟩)
    · rw [hwritten]
      exact .inr (.inr ⟨written, rfl, hwrote.of_files hextends.files⟩)

/-- What becomes of a program. -/
inductive Delivery (m : Machine ε) (tree : FileTree) (o : Options) (c : Console)
    (name source : String) (r : Run ε) : Prop
  /-- It is printed. -/
  | printed {c' : Console} (hprint : o.printOnly = true)
      (hshown : print m .out c [source ++ "\n"] = (c', none)) (hending : r.ending = .ok 0)
      (hconsole : r.console = c') (htree : r.tree = tree)
  /-- It is refused by the output. -/
  | unprinted {c' : Console} {x : ε} (hprint : o.printOnly = true)
      (hrefused : print m .out c [source ++ "\n"] = (c', some x))
      (hending : r.ending = .error (.machine x)) (htree : r.tree = tree)
  /-- It is not written, and no file is changed. -/
  | unwritten (hprint : o.printOnly = false)
      (hending : r.ending = .error .noDirectory ∨ ∃ e, r.ending = .error (.ofDisk e))
      (hfiles : r.tree.files = tree.files)
  /-- It is written in part. -/
  | cutOff {out : String} {count : Nat} {x : ε} (hprint : o.printOnly = false)
      (hout : o.out = some out) (hcut : m.disk.CutsOff x) (hending : r.ending = .error (.machine x))
      (hwrote : tree.Wrote r.tree (Path.ofString out) (fileName name)
        (source.toUTF8.toList.take count))
  /-- It is written, but the line that says so is refused. -/
  | unreported {out : String} {x : ε} (hprint : o.printOnly = false) (hout : o.out = some out)
      (hrefused : m.Refuses x) (hending : r.ending = .error (.machine x))
      (hwrote : tree.Wrote r.tree (Path.ofString out) (fileName name) source.toUTF8.toList)
  /-- It is written. -/
  | written {out : String} (hprint : o.printOnly = false) (hout : o.out = some out)
      (hending : r.ending = .ok 0)
      (hwrote : tree.Wrote r.tree (Path.ofString out) (fileName name) source.toUTF8.toList)

/-- **Every program ends up in one of these ways.** -/
lemma delivery_deliver (m : Machine ε) (tree : FileTree) (o : Options) (c : Console)
    (ns : List Notice) (name source : String) :
    Delivery m tree o c name source (deliver m tree o c ns name source) := by
  unfold deliver
  cases hprint : o.printOnly with
  | true =>
    rw [if_pos rfl]
    obtain ⟨⟨c', shown⟩, hshown⟩ : ∃ q, print m .out c [source ++ "\n"] = q := ⟨_, rfl⟩
    cases shown with
    | none =>
      rw [printing_of_shown hshown]
      exact .printed hprint hshown rfl rfl rfl
    | some x =>
      rw [printing_of_refused hshown]
      exact .unprinted hprint hshown rfl rfl
  | false =>
    rw [if_neg (by simp)]
    cases hout : o.out with
    | none => exact .unwritten hprint (.inl rfl) rfl
    | some out =>
      simp only
      rcases writeProgram_cases m.disk tree (Path.ofString out) name source with
        ⟨e, left, hwrite, hfiles⟩ | ⟨x, left, count, hwrite, hcut, hwrote⟩ |
        ⟨written, hwrite, hwrote⟩
      · rw [hwrite]
        exact .unwritten hprint (.inr ⟨e, rfl⟩) hfiles
      · rw [hwrite]
        exact .cutOff hprint hout hcut rfl hwrote
      · rw [hwrite]
        simp only
        obtain ⟨⟨c', shown⟩, hshown⟩ : ∃ q, print m .out c
          [progressLine "wrote  " ((Path.ofString out).join (fileName name)).text] = q := ⟨_, rfl⟩
        cases shown with
        | none =>
          rw [printing_of_shown hshown]
          exact .written hprint hout rfl hwrote
        | some x =>
          rw [printing_of_refused hshown]
          exact .unreported hprint hout (refuses_of_print hshown) rfl hwrote

/-! ## Whole runs -/

/-- Options that are understood are carried out. -/
lemma executeOn_eq_runOptions {args : List String} (h : parse args = .run o) :
    executeOn m tree args = runOptions m tree o o.path := by
  rw [executeOn, h]
  rfl

/-- A file that is there is gone through. -/
lemma runOptions_of_isThere (h : tree.isThere p = .ok true) :
    runOptions m tree o p = runFile m tree o p := by
  simp only [runOptions, h]

/-- A run that does not get as far as delivering a text: it does not succeed, the files are as they
were, and if there is a text to be had from compiling the file, then a line has been refused. -/
structure Ends (m : Machine ε) (tree : FileTree) (o : Options) (r : Run ε) : Prop where
  /-- It does not succeed. -/
  ending : r.ending ≠ .ok 0
  /-- Nothing else keeps a text from being delivered. -/
  refused : ∀ source, o.compiled m tree = .ok source →
    ∃ x, r.ending = .error (.machine x) ∧ m.Refuses x
  /-- The files are as they were. -/
  tree : r.tree = tree

/-- A run that stops without a text ends. -/
lemma Stops.ends {e : Failure ε} {complaint : Option String} {r : Run ε}
    (h : Stops m tree e complaint r) (hnone : ∀ source, o.compiled m tree ≠ .ok source) :
    Ends m tree o r :=
  ⟨h.ending_ne, fun source hsource => absurd hsource (hnone source), h.tree⟩

/-- A run that stops at a line that is refused ends. -/
lemma Stops.ends_of_print {c c' : Console} {texts : List String} {x : ε} {r : Run ε}
    (h : Stops m tree (.machine x) none r) (hprint : print m .out c texts = (c', some x)) :
    Ends m tree o r :=
  ⟨h.ending_ne, fun _ _ => ⟨x, h.ending, refuses_of_print hprint⟩, h.tree⟩

/-- **A run with options** ends before it delivers a text, or delivers the text that compiling the
file gives. -/
lemma executeOn_cases {args : List String} (h : parse args = .run o) (m : Machine ε)
    (tree : FileTree) :
    Ends m tree o (executeOn m tree args) ∨
    ∃ v g source c ns, Compiles m tree o o.path v g source ∧
      print m .out {} (progressLines (graphName v o.path) o.requested.plainText g) = (c, none) ∧
      executeOn m tree args = deliver m tree o c ns (graphName v o.path) source := by
  rw [executeOn_eq_runOptions h]
  -- without a document in the file there is no text to be had from compiling it
  have hinvalid : (∀ v, (m.validateFile tree o.strict o.path).outcome ≠ .ok v) →
      ∀ source, o.compiled m tree ≠ .ok source := by
    intro hnone source hsource
    obtain ⟨v, g, hcompiles⟩ := compiled_eq_ok.mp hsource
    exact hnone v hcompiles.validated
  have hthere : tree.isThere o.path ≠ .ok true → ∀ source, o.compiled m tree ≠ .ok source :=
    fun hnot => hinvalid fun v hvalid => hnot (isThere_of_validateFile hvalid)
  unfold runOptions
  split
  · cases course_runFile m tree o o.path with
    | invalid hvalid hstop => exact .inl (hstop.ends (hinvalid fun v => by simp [hvalid]))
    | unannounced hvalid hprint hstop => exact .inl (hstop.ends_of_print hprint)
    | @unloaded v c e hvalid hprint hload hstop =>
      refine .inl (hstop.ends fun source hsource => ?_)
      obtain ⟨v', g, hcompiles⟩ := compiled_eq_ok.mp hsource
      obtain rfl := Except.ok.inj (hvalid.symm.trans hcompiles.validated)
      exact absurd (hload.symm.trans hcompiles.loaded) (by simp)
    | uncounted hvalid hload hprint hstop => exact .inl (hstop.ends_of_print hprint)
    | @uncompiled v g c e hvalid hload hprint hcompile hstop =>
      refine .inl (hstop.ends fun source hsource => ?_)
      obtain ⟨v', g', hcompiles⟩ := compiled_eq_ok.mp hsource
      obtain rfl := Except.ok.inj (hvalid.symm.trans hcompiles.validated)
      obtain rfl := Except.ok.inj (hload.symm.trans hcompiles.loaded)
      exact absurd (hcompile.symm.trans hcompiles.compiled) (by simp)
    | @delivered v g c source ns hcompiles hprint hrun =>
      exact .inr ⟨v, g, source, c, ns, hcompiles, hprint, hrun⟩
  · next hnot =>
    left
    obtain ⟨⟨c, shown⟩, hshown⟩ : ∃ q, print m .err {}
      [complaintLine ("File not found: " ++ o.path.text)] = q := ⟨_, rfl⟩
    have hnone := hthere (by simp [hnot])
    cases shown with
    | none =>
      rw [printing_of_shown hshown]
      exact ⟨by simp, fun source hsource => absurd hsource (hnone source), rfl⟩
    | some x =>
      rw [printing_of_refused hshown]
      exact ⟨by simp, fun source hsource => absurd hsource (hnone source), rfl⟩
  · next e herror =>
    have hnone := hthere (by simp [herror])
    exact .inl ⟨by simp, fun source hsource => absurd hsource (hnone source), rfl⟩

/-- A text that is there is delivered if no line is refused before it. -/
lemma executeOn_of_compiles {args : List String} (h : parse args = .run o) {v : Json} {g : Graph}
    {source : String} (hcompiles : Compiles m tree o o.path v g source)
    (hshown :
      (print m .out {} (progressLines (graphName v o.path) o.requested.plainText g)).2 = none) :
    ∃ c ns,
      print m .out {} (progressLines (graphName v o.path) o.requested.plainText g) = (c, none) ∧
      executeOn m tree args = deliver m tree o c ns (graphName v o.path) source := by
  obtain ⟨c, hlines⟩ := exists_print_eq hshown
  obtain ⟨ns, hrun⟩ := runFile_of_compiles hcompiles hlines
  rw [executeOn_eq_runOptions h,
    runOptions_of_isThere (isThere_of_validateFile hcompiles.validated)]
  exact ⟨c, ns, hlines, hrun⟩

/-- **The command agrees with compiling the file**, on every machine. If it is to print, then it
changes nothing; if it succeeds, then it has printed four messages and the text that compiling the
file gives, and if there is such a text, then only a refused line keeps it from that. If it is to
write, then it succeeds only after it has written the text to one file, in the directory that is
asked for and under a name of its own making; only the options, the files and the machine can keep
it from that. A run that does not succeed changes no file, except for one that ends as a failure of
the machine after that one file has been opened: either the disk has cut the text off, or all of it
is there and a line has been refused. -/
theorem executeOn_delivers_compiled {args : List String} {o : Options} (h : parse args = .run o)
    (m : Machine ε) (tree : FileTree) :
    (o.printOnly = true →
      (executeOn m tree args).tree = tree ∧
      ((executeOn m tree args).ending = .ok 0 →
        ∃ source v g, o.compiled m tree = .ok source ∧ m.readJson tree o.path = .ok v ∧
          (Graph.ofJson o.strict v).outcome = .ok g ∧
          (executeOn m tree args).console.out =
            String.join (progressLines (graphName v o.path) o.requested.plainText g) ++ source ++
              "\n") ∧
      ∀ source, o.compiled m tree = .ok source →
        (executeOn m tree args).ending = .ok 0 ∨
          ∃ x, (executeOn m tree args).ending = .error (.machine x) ∧ m.Refuses x) ∧
    (o.printOnly = false →
      ((executeOn m tree args).ending = .ok 0 →
        ∃ source out name, o.compiled m tree = .ok source ∧ o.out = some out ∧
          IsProgramName name ∧ tree.Wrote (executeOn m tree args).tree (Path.ofString out) name
            source.toUTF8.toList) ∧
      ∀ source, o.compiled m tree = .ok source →
        (executeOn m tree args).ending = .ok 0 ∨
          (executeOn m tree args).ending = .error .noDirectory ∨
          (∃ e, (executeOn m tree args).ending = .error (.file e)) ∨
          ∃ x, (executeOn m tree args).ending = .error (.machine x)) ∧
    ((executeOn m tree args).ending ≠ .ok 0 →
      (executeOn m tree args).tree.files = tree.files ∨
      ∃ x source out name count, (executeOn m tree args).ending = .error (.machine x) ∧
        o.printOnly = false ∧ o.compiled m tree = .ok source ∧ o.out = some out ∧
        IsProgramName name ∧
        tree.Wrote (executeOn m tree args).tree (Path.ofString out) name
          (source.toUTF8.toList.take count) ∧
        (m.disk.CutsOff x ∨ m.Refuses x ∧ source.toUTF8.toList.length ≤ count)) := by
  rcases executeOn_cases h m tree with hends | ⟨v, g, source, c, ns, hcompiles, hlines, hrun⟩
  · refine ⟨fun _ => ⟨hends.tree, fun h0 => absurd h0 hends.ending, ?_⟩,
      fun _ => ⟨fun h0 => absurd h0 hends.ending, ?_⟩, ?_⟩
    · exact fun source hsource => .inr (hends.refused source hsource)
    · intro source hsource
      obtain ⟨x, hx, -⟩ := hends.refused source hsource
      exact .inr (.inr (.inr ⟨x, hx⟩))
    · exact fun _ => .inl (congrArg FileTree.files hends.tree)
  · have hcompiled : o.compiled m tree = .ok source := compiled_eq_ok.mpr ⟨v, g, hcompiles⟩
    have hread := (outcome_validateFile_eq_ok.mp hcompiles.validated).1
    have hname := isProgramName_fileName (graphName v o.path)
    have hdelivery := delivery_deliver m tree o c ns (graphName v o.path) source
    rw [← hrun] at hdelivery
    cases hdelivery with
    | @printed c' hprint hshown hending hconsole htree =>
      refine ⟨fun _ => ⟨htree, fun _ => ⟨source, v, g, hcompiled, hread, hcompiles.loaded, ?_⟩,
        fun _ _ => .inl hending⟩, by simp [hprint], fun hnot => absurd hending hnot⟩
      rw [hconsole, out_of_print ((print_append_of_shown hlines _).trans hshown)]
      simp [String.append_assoc]
    | @unprinted c' x hprint hrefused hending htree =>
      have hne : (executeOn m tree args).ending ≠ .ok 0 := by simp [hending]
      exact ⟨fun _ => ⟨htree, fun h0 => absurd h0 hne,
        fun _ _ => .inr ⟨x, hending, refuses_of_print hrefused⟩⟩, by simp [hprint],
        fun _ => .inl (congrArg FileTree.files htree)⟩
    | unwritten hprint hending hfiles =>
      have hne : (executeOn m tree args).ending ≠ .ok 0 := by
        rcases hending with hending | ⟨e, hending⟩
        · simp [hending]
        · simp [hending]
      refine ⟨by simp [hprint], fun _ => ⟨fun h0 => absurd h0 hne, fun _ _ => .inr ?_⟩,
        fun _ => .inl hfiles⟩
      rcases hending with hending | ⟨e | x, hending⟩
      · exact .inl hending
      · exact .inr (.inl ⟨e, hending⟩)
      · exact .inr (.inr ⟨x, hending⟩)
    | @cutOff out count x hprint hout hcut hending hwrote =>
      refine ⟨by simp [hprint], fun _ => ⟨by simp [hending], fun _ _ => ?_⟩, fun _ => .inr ?_⟩
      · exact .inr (.inr (.inr ⟨x, hending⟩))
      · exact ⟨x, source, out, _, count, hending, hprint, hcompiled, hout, hname, hwrote,
          .inl hcut⟩
    | @unreported out x hprint hout hrefused hending hwrote =>
      refine ⟨by simp [hprint], fun _ => ⟨by simp [hending], fun _ _ => ?_⟩, fun _ => .inr ?_⟩
      · exact .inr (.inr (.inr ⟨x, hending⟩))
      · refine ⟨x, source, out, _, _, hending, hprint, hcompiled, hout, hname, ?_,
          .inr ⟨hrefused, le_rfl⟩⟩
        rwa [List.take_length]
    | @written out hprint hout hending hwrote =>
      exact ⟨by simp [hprint], fun _ => ⟨fun _ => ⟨source, out, _, hcompiled, hout, hname, hwrote⟩,
        fun _ _ => .inl hending⟩, fun hnot => absurd hending hnot⟩

/-! ## Runs on graphs without nodes -/

/-- One file, with the given bytes. -/
def oneFileTree (bytes : List UInt8) : FileTree where
  files := [(["", "g.json"], bytes)]

/-- The options for printing the program of the one file. -/
def printOptions : Options where
  graph := some "g.json"
  printOnly := true

/-- The arguments that stand for these options. -/
lemma parse_printOptions : parse ["g.json", "--print"] = .run printOptions := by decide

/-- A machine that refuses nothing prints everything. -/
lemma print_of_forall_none {s : Stream} {c : Console} {texts : List String}
    (h : ∀ s before text, m.refusal? s before text = none) : (print m s c texts).2 = none := by
  induction texts generalizing c with
  | nil => rfl
  | cons text rest ih =>
    rw [print_cons_of_shown (h _ _ _)]
    exact ih

/-- The value of the one file. -/
lemma readJson_oneFileTree {bytes : List UInt8} {v : Json}
    (hdisk : m.disk.readFault? (oneFileTree bytes) (Path.ofString "g.json") = none)
    (hread : ((Utf8.decode bytes).toOption.bind fun cs =>
      (Json.readWithin m.nestingLimit (Utf8.unifyLineEnds cs)).toOption) = some v) :
    m.readJson (oneFileTree bytes) (Path.ofString "g.json") = .ok v := by
  obtain ⟨cs, hdecode, hvalue⟩ := Option.bind_eq_some_iff.mp hread
  have hfile : m.disk.readFile (oneFileTree bytes) (Path.ofString "g.json") = .ok bytes :=
    Disk.readFile_eq_ok.mpr ⟨rfl, hdisk⟩
  simp only [readJson_eq hfile, bind_eq_ok, mapError_eq_ok]
  exact ⟨cs, toOption_eq_some.mp hdecode, toOption_eq_some.mp hvalue⟩

/-- The one file is compiled if its value is loaded and compiled. -/
lemma compiles_oneFileTree {bytes : List UInt8} {v : Json} {g : Graph} {source : String}
    (hgraph : o.graph = some "g.json") (htarget : o.target = some .event)
    (hread : m.readJson (oneFileTree bytes) (Path.ofString "g.json") = .ok v)
    (hload : (Graph.ofJson o.strict v).outcome = .ok g)
    (hcompile : (m.compile g .event).outcome = .ok source) :
    Compiles m (oneFileTree bytes) o o.path v g source := by
  have hpath : o.path = Path.ofString "g.json" := by rw [Options.path, hgraph, Option.getD_some]
  obtain ⟨d, hcheck⟩ := Graph.exists_check_of_ofJson hload
  refine ⟨outcome_validateFile_eq_ok.mpr ⟨by rwa [hpath], d, hcheck⟩, hload, ?_⟩
  rw [Options.requested, htarget, Machine.compileFor_name, hcompile]

/-- The bytes of a file with the empty graph. -/
def emptyGraphBytes : List UInt8 :=
  "\x7b\"nodes\": [], \"edges\": []\x7d".toUTF8.toList

/-- One file, with the empty graph. -/
def emptyGraphTree : FileTree :=
  oneFileTree emptyGraphBytes

/-- The document in that file. -/
def emptyGraphDocument : Json :=
  .object [("nodes", .array []), ("edges", .array [])]

/-- The document is read on every machine with the usual limit whose disk gives the file. -/
lemma readJson_emptyGraphTree (hlimit : m.nestingLimit = Json.nestingLimit)
    (hdisk : m.disk.readFault? emptyGraphTree (Path.ofString "g.json") = none) :
    m.readJson emptyGraphTree (Path.ofString "g.json") = .ok emptyGraphDocument := by
  apply readJson_oneFileTree hdisk
  rw [hlimit]
  decide +kernel

/-- The empty graph is compiled and delivered, unless a line is refused. -/
lemma executeOn_emptyGraphTree {args : List String} {source : String} (h : parse args = .run o)
    (hgraph : o.graph = some "g.json") (htarget : o.target = some .event)
    (hread : m.readJson emptyGraphTree (Path.ofString "g.json") = .ok emptyGraphDocument)
    (hsource : (m.compile {} .event).outcome = .ok source)
    (hshown : (print m .out {} (progressLines "g" "event" {})).2 = none) :
    o.compiled m emptyGraphTree = .ok source ∧
      ∃ c ns, executeOn m emptyGraphTree args = deliver m emptyGraphTree o c ns "g" source := by
  have hload : (Graph.ofJson o.strict emptyGraphDocument).outcome = .ok {} := by
    cases o.strict <;> rfl
  have hcompiles := compiles_oneFileTree hgraph htarget hread hload hsource
  have hname : graphName emptyGraphDocument o.path = "g" := by
    rw [Options.path, hgraph]
    decide
  have htext : o.requested.plainText = "event" := by
    rw [Options.requested, htarget]
    rfl
  rw [← hname, ← htext] at hshown
  obtain ⟨c, ns, -, hrun⟩ := executeOn_of_compiles h hcompiles hshown
  rw [hname] at hrun
  exact ⟨compiled_eq_ok.mpr ⟨_, _, hcompiles⟩, c, ns, hrun⟩

/-- The empty graph is printed, or written to a file, or not written where a file is in the way. -/
theorem executeOn_delivers_emptyGraph :
    ∃ source,
      ((execute emptyGraphTree ["g.json", "--print"]).ending = .ok 0 ∧
        (execute emptyGraphTree ["g.json", "--print"]).tree = emptyGraphTree ∧
        ∃ lines, lines.length = 4 ∧
          (execute emptyGraphTree ["g.json", "--print"]).console.out =
            String.join lines ++ source ++ "\n") ∧
      ((execute emptyGraphTree ["g.json"]).ending = .ok 0 ∧
        ∃ name, IsProgramName name ∧ emptyGraphTree.Wrote (execute emptyGraphTree ["g.json"]).tree
          (Path.ofString "compiled") name source.toUTF8.toList) ∧
      (execute emptyGraphTree ["g.json", "--out", "g.json"]).ending ≠ .ok 0 ∧
        (execute emptyGraphTree ["g.json", "--out", "g.json"]).tree.files =
          emptyGraphTree.files := by
  obtain ⟨source, hsource⟩ := Graph.exists_outcome_compile_empty Graph.compilesReliably_standard
  have hread := readJson_emptyGraphTree (m := Machine.standard) rfl rfl
  have hshown : (print Machine.standard .out {} (progressLines "g" "event" {})).2 = none :=
    print_of_forall_none fun _ _ _ => rfl
  have hwrite : parse ["g.json"] = .run { graph := some "g.json" } := by decide
  have hblocked : parse ["g.json", "--out", "g.json"] =
      .run { graph := some "g.json", out := some "g.json" } := by decide
  refine ⟨source, ?_, ?_, ?_⟩
  · obtain ⟨hcompiled, c, ns, hrun⟩ :=
      executeOn_emptyGraphTree parse_printOptions rfl rfl hread hsource hshown
    obtain ⟨htree, hout, -⟩ :=
      (executeOn_delivers_compiled parse_printOptions Machine.standard emptyGraphTree).1 rfl
    have hending : (execute emptyGraphTree ["g.json", "--print"]).ending = .ok 0 := by
      rw [execute, hrun]
      rfl
    obtain ⟨source', v, g, hcompiled', -, -, hlines⟩ := hout hending
    obtain rfl : source = source' := Except.ok.inj (hcompiled.symm.trans hcompiled')
    exact ⟨hending, htree, _, rfl, hlines⟩
  · obtain ⟨hcompiled, c, ns, hrun⟩ :=
      executeOn_emptyGraphTree hwrite rfl rfl hread hsource hshown
    have hending : (execute emptyGraphTree ["g.json"]).ending = .ok 0 := by
      rw [execute, hrun]
      rfl
    obtain ⟨source', out, name, hcompiled', hout, hname, hwrote⟩ :=
      ((executeOn_delivers_compiled hwrite Machine.standard emptyGraphTree).2.1 rfl).1 hending
    obtain rfl : source = source' := Except.ok.inj (hcompiled.symm.trans hcompiled')
    cases hout
    exact ⟨hending, name, hname, hwrote⟩
  · obtain ⟨-, c, ns, hrun⟩ := executeOn_emptyGraphTree hblocked rfl rfl hread hsource hshown
    have hending : (execute emptyGraphTree ["g.json", "--out", "g.json"]).ending ≠ .ok 0 := by
      rw [execute, hrun]
      rintro ⟨⟩
    refine ⟨hending, ?_⟩
    rcases (executeOn_delivers_compiled hblocked Machine.standard emptyGraphTree).2.2 hending with
      hfiles | ⟨x, -⟩
    · exact hfiles
    · exact x.elim

/-! ## Runs that fail after they have written -/

/-- A machine that prints nothing but ASCII characters. -/
def asciiMachine : Machine Unit :=
  { Machine.reliable Unit with
    refusal? := fun _ _ text => if text.toList.all (·.val < 128) then none else some () }

/-- A machine whose disk opens files and writes nothing to them. -/
def fullMachine : Machine Unit :=
  { Machine.reliable Unit with
    disk := { Disk.sound with writeFault? := fun _ _ _ => some (.cutOff 0 ()) } }

/-- Two files are not the one file with the empty graph. -/
lemma files_ne_emptyGraphTree {t : FileTree} (h : t.files.length = 2) :
    t.files ≠ emptyGraphTree.files := by
  intro hfiles
  rw [hfiles] at h
  cases h

/-- The bytes of a file with a graph whose name has two lines. -/
def twoLineBytes : List UInt8 :=
  "\x7b\"name\": \"a\\nb\", \"nodes\": [], \"edges\": []\x7d".toUTF8.toList

/-- The document in that file. -/
def twoLineDocument : Json :=
  .object [("name", .string "a\nb"), ("nodes", .array []), ("edges", .array [])]

/-- The graph of that document. -/
def twoLineGraph : Graph where
  name := "a\nb"

/-- A text of so many lines has so many line feeds. -/
lemma count_lineFeed_join {lines : List String} (hline : ∀ l ∈ lines, '\n' ∉ l.toList) :
    (String.join (lines.map (· ++ "\n"))).toList.count '\n' = lines.length := by
  induction lines with
  | nil => rfl
  | cons l rest ih =>
    obtain ⟨hl, hrest⟩ := List.forall_mem_cons.mp hline
    have hend : "\n".toList.count '\n' = 1 := rfl
    rw [List.map_cons, String.join_cons, String.toList_append, String.toList_append,
      List.count_append, List.count_append, List.count_eq_zero.mpr hl, ih hrest, hend,
      List.length_cons]
    omega

/-- The file with that graph is compiled, and its program comes after five lines. -/
lemma executeOn_twoLine : ∃ source,
    printOptions.compiled Machine.standard (oneFileTree twoLineBytes) = .ok source ∧
    (execute (oneFileTree twoLineBytes) ["g.json", "--print"]).ending = .ok 0 ∧
    (execute (oneFileTree twoLineBytes) ["g.json", "--print"]).console.out =
      String.join (progressLines "a\nb" "event" twoLineGraph) ++ source ++ "\n" := by
  obtain ⟨source, hsource⟩ : ∃ source,
      (Machine.standard.compile twoLineGraph .event).outcome = .ok source :=
    ⟨_, Graph.outcome_compile_of_checkLines Graph.compilesReliably_standard rfl (by decide)
      (by decide +kernel) (by decide +kernel) (toOption_eq_some.mp (by decide +kernel))⟩
  have hread : Machine.standard.readJson (oneFileTree twoLineBytes) (Path.ofString "g.json") =
      .ok twoLineDocument := readJson_oneFileTree rfl (by decide +kernel)
  have hcompiles := @compiles_oneFileTree _ _ printOptions _ _ _ _ rfl rfl hread rfl hsource
  have hnone : ∀ s before text, Machine.standard.refusal? s before text = none := fun _ _ _ => rfl
  obtain ⟨c, ns, hlines, hrun⟩ := executeOn_of_compiles parse_printOptions hcompiles
    (print_of_forall_none hnone)
  have hdelivery := delivery_deliver Machine.standard (oneFileTree twoLineBytes) printOptions c ns
    "a\nb" source
  refine ⟨source, compiled_eq_ok.mpr ⟨_, _, hcompiles⟩, ?_⟩
  rw [execute, hrun]
  cases hdelivery with
  | @printed c' hprint hshown hending hconsole htree =>
    refine ⟨hending, hconsole ▸ ?_⟩
    rw [out_of_print ((print_append_of_shown hlines _).trans hshown)]
    show "" ++ String.join (progressLines "a\nb" "event" twoLineGraph ++ [source ++ "\n"]) = _
    simp [String.append_assoc]
  | @unprinted _ x => exact x.elim
  | unwritten hprint | cutOff hprint | unreported hprint | written hprint => cases hprint

/-- **A run may fail and leave a file, and four messages may be five lines.** A name of two lines is
printed as it is, so that the program does not come after four lines. If the line about the written
program cannot be printed, then the run ends as a failure although the program has been written; and
if the disk is full, then it leaves an empty file. -/
theorem executeOn_fails_after_writing :
    (∃ source,
      printOptions.compiled Machine.standard (oneFileTree twoLineBytes) = .ok source ∧
      (execute (oneFileTree twoLineBytes) ["g.json", "--print"]).ending = .ok 0 ∧
      ∀ lines : List String, lines.length = 4 → (∀ l ∈ lines, '\n' ∉ l.toList) →
        (execute (oneFileTree twoLineBytes) ["g.json", "--print"]).console.out ≠
          String.join (lines.map (· ++ "\n")) ++ source ++ "\n") ∧
    ((executeOn asciiMachine emptyGraphTree ["g.json", "--out", "é"]).ending =
        .error (.machine ()) ∧
      (executeOn asciiMachine emptyGraphTree ["g.json", "--out", "é"]).tree.files ≠
        emptyGraphTree.files) ∧
    (executeOn fullMachine emptyGraphTree ["g.json"]).ending = .error (.machine ()) ∧
      (executeOn fullMachine emptyGraphTree ["g.json"]).tree.files ≠ emptyGraphTree.files := by
  refine ⟨?_, ?_, ?_⟩
  · obtain ⟨source, hcompiled, hending, hout⟩ := executeOn_twoLine
    refine ⟨source, hcompiled, hending, fun lines hlength hline heq => ?_⟩
    have hcount := congrArg (fun s : String => s.toList.count '\n') (hout.symm.trans heq)
    have hfive :
        (String.join (progressLines "a\nb" "event" twoLineGraph)).toList.count '\n' = 5 := by
      decide +kernel
    simp only [String.toList_append, List.count_append, hfive, count_lineFeed_join hline,
      hlength] at hcount
    omega
  · obtain ⟨source, hsource⟩ :=
      Graph.exists_outcome_compile_empty (m := asciiMachine) ⟨rfl, fun _ => rfl⟩
    have hread := readJson_emptyGraphTree (m := asciiMachine) rfl rfl
    have hargs : parse ["g.json", "--out", "é"] =
        .run { graph := some "g.json", out := some "é" } := by decide
    obtain ⟨-, c, ns, hrun⟩ := executeOn_emptyGraphTree hargs rfl rfl hread hsource
      (by decide +kernel)
    rw [hrun]
    exact ⟨rfl, files_ne_emptyGraphTree rfl⟩
  · obtain ⟨source, hsource⟩ :=
      Graph.exists_outcome_compile_empty (m := fullMachine) ⟨rfl, fun _ => rfl⟩
    have hread := readJson_emptyGraphTree (m := fullMachine) rfl rfl
    have hargs : parse ["g.json"] = .run { graph := some "g.json" } := by decide
    obtain ⟨-, c, ns, hrun⟩ := executeOn_emptyGraphTree hargs rfl rfl hread hsource
      (print_of_forall_none fun _ _ _ => rfl)
    rw [hrun]
    exact ⟨rfl, files_ne_emptyGraphTree rfl⟩

end Command

end LogicGraph
