import LogicGraph.Proofs.Emission.Members

set_option relaxedAutoImplicit false
set_option autoImplicit false

/-!
# Which texts a program shows

Most texts of a graph go into a program through an identifier or a literal, which leave no control
character of them. The name of the graph is shown in a comment, and an event program also shows the
purposes of its variables in remarks and the names of its triggers in descriptions. These are folded
onto one line, but a control character that is no blank stays. So such a character is in the text of
a program exactly if it is in one of these texts.

## Main definitions

* `LogicGraph.Target.shownTexts` — the texts of a graph that a program for a target shows.

## Main results

* `LogicGraph.Text.mem_oneLine_iff` — folding a text keeps the characters that are no blanks.
* `LogicGraph.Scope.Emits.freeTextsIn_eq_nil` — the walk shows no texts.
* `LogicGraph.Target.mem_text_iff` — which control characters the text of a program has.
-/

namespace LogicGraph

open Text

/-! ## Folded texts -/

namespace Text

variable {c : Char}

/-- The parts of a text split at its blanks have all its characters that are no blanks. -/
lemma exists_mem_splitOnP_iff (hc : isBlank c = false) {cs : List Char} :
    (∃ part ∈ cs.splitOnP isBlank, c ∈ part) ↔ c ∈ cs := by
  induction cs with
  | nil => simp
  | cons x xs ih =>
    rw [List.splitOnP_cons_eq_if_modifyHead]
    split
    · rename_i hx
      have hne : c ≠ x := by
        rintro rfl
        rw [hc] at hx
        cases hx
      simp [ih, hne]
    · cases hs : xs.splitOnP isBlank with
      | nil => exact absurd hs (List.splitOnP_ne_nil _ _)
      | cons part parts =>
        rw [hs, List.exists_mem_cons_iff] at ih
        rw [List.modifyHead_cons, List.exists_mem_cons_iff, List.mem_cons, List.mem_cons, or_assoc,
          ih]

/-- A join has the characters of its parts, and those of the separator. -/
lemma mem_intercalate_iff {sep : List Char} (hc : c ∉ sep) {parts : List (List Char)} :
    c ∈ sep.intercalate parts ↔ ∃ part ∈ parts, c ∈ part := by
  induction parts with
  | nil => simp [List.intercalate]
  | cons part rest ih =>
    cases rest with
    | nil => simp [List.intercalate]
    | cons next rest =>
      rw [List.exists_mem_cons_iff, ← ih]
      simp [List.intercalate, hc]

/-- **Folding a text onto one line keeps the characters that are no blanks.** -/
lemma mem_oneLine_iff (hc : isBlank c = false) {s : String} :
    c ∈ (oneLine s).toList ↔ c ∈ s.toList := by
  have hspace : c ∉ [' '] := by
    rw [List.mem_singleton]
    rintro rfl
    cases hc
  rw [oneLine, String.toList_ofList, mem_intercalate_iff hspace, ← exists_mem_splitOnP_iff hc]
  constructor
  · rintro ⟨w, hw, hcw⟩
    exact ⟨w, (List.mem_filter.mp hw).1, hcw⟩
  · rintro ⟨w, hw, hcw⟩
    refine ⟨w, List.mem_filter.mpr ⟨hw, ?_⟩, hcw⟩
    cases w with
    | nil => cases hcw
    | cons => rfl

/-- A description keeps the control characters that are no blanks. -/
lemma mem_docstringText_iff (hc : isControl c = true) (hb : isBlank c = false) {s : String} :
    c ∈ (docstringText s).toList ↔ c ∈ s.toList := by
  have hne : ∀ d, isControl d = false → c ≠ d := by
    rintro d hd rfl
    rw [hc] at hd
    cases hd
  rw [docstringText, String.toList_ofList, List.mem_flatMap, ← mem_oneLine_iff hb (s := s)]
  constructor
  · rintro ⟨d, hd, hcd⟩
    split_ifs at hcd
    · exact absurd (by simpa using hcd) (hne '\\' (by decide))
    · exact absurd (List.mem_singleton.mp hcd) (hne '\'' (by decide))
    · exact List.mem_singleton.mp hcd ▸ hd
  · intro hmem
    refine ⟨c, hmem, ?_⟩
    rw [if_neg (hne _ (by decide)), if_neg (hne _ (by decide))]
    exact List.mem_singleton_self c

/-- A character other than a line feed is in a text exactly if it is in one of its lines. -/
lemma mem_unlines_iff (hc : c ≠ '\n') {ls : List String} :
    c ∈ (unlines ls).toList ↔ Occurs c ls := by
  have hsep : c ∉ "\n".toList := by simpa using hc
  rw [unlines, String.toList_append, List.mem_append, or_iff_left hsep]
  induction ls with
  | nil => simp
  | cons line rest ih =>
    cases rest with
    | nil => simp
    | cons next rest =>
      rw [String.intercalate_cons_cons, String.toList_append, String.toList_append, List.mem_append,
        List.mem_append, or_iff_left hsep, occurs_cons]
      exact or_congr_right ih

end Text

/-! ## Statements -/

/-- The free texts of statements are those of each of them. -/
lemma Stmt.freeTextsIn_eq_flatMap (body : List Stmt) :
    Stmt.freeTextsIn body = body.flatMap Stmt.freeTexts := by
  induction body with
  | nil => rfl
  | cons s rest ih => rw [Stmt.freeTextsIn, ih, List.flatMap_cons]

/-- The free texts of statements in a row are those of the front and those behind. -/
lemma Stmt.freeTextsIn_append (front behind : List Stmt) :
    Stmt.freeTextsIn (front ++ behind) = Stmt.freeTextsIn front ++ Stmt.freeTextsIn behind := by
  simp only [Stmt.freeTextsIn_eq_flatMap, List.flatMap_append]

/-- A statement that does nothing shows no text. -/
lemma Stmt.freeTextsIn_orPass (body : List Stmt) :
    Stmt.freeTextsIn (orPass body) = Stmt.freeTextsIn body := by
  unfold orPass
  split_ifs with h
  · rw [List.isEmpty_iff.mp h]
    rfl
  · rfl

/-- **The walk shows no texts**: what it writes of a node is its name. -/
lemma Scope.Emits.freeTextsIn_eq_nil {s : Scope} {body : List Stmt} (h : s.Emits body) :
    Stmt.freeTextsIn body = [] := by
  induction h with
  | nil => rfl
  | append _ _ hfront hbehind => rw [Stmt.freeTextsIn_append, hfront, hbehind, List.append_nil]
  | cycle | assignment | arithmetic | comparison => rfl
  | @choice n bodies otherwise _ _ _ _ hbodies hotherwise =>
    have hclauses : Stmt.freeTextsInClauses (bodies.map fun c => (c.1, orPass c.2)) = [] := by
      clear * - hbodies
      induction bodies with
      | nil => rfl
      | cons c rest ih =>
        obtain ⟨hc, hrest⟩ := List.forall_mem_cons.mp hbodies
        rw [List.map_cons, Stmt.freeTextsInClauses, Stmt.freeTextsIn_orPass, hc, ih hrest,
          List.append_nil]
    rw [Stmt.freeTextsIn, Stmt.freeTexts, hclauses, Stmt.freeTextsIn_orPass, hotherwise]
    rfl

/-- First values show the remarks behind them. -/
lemma occurs_initialAssign_iff {s : Scope} {remark : Node → Option String} {nodes : List Node}
    {assigns : List Stmt}
    (h : (Audited.mapList (initialAssign s remark) nodes).outcome = .ok assigns) {c : Char} :
    Occurs c (Stmt.freeTextsIn assigns) ↔ ∃ n ∈ nodes, ∃ r ∈ remark n, c ∈ r.toList := by
  have hrel := forall₂_initialAssign h
  clear h
  induction hrel with
  | nil => simp [Stmt.freeTextsIn]
  | @cons n t nodes assigns hhead _ ih =>
    obtain ⟨l, rfl⟩ := hhead
    rw [Stmt.freeTextsIn, occurs_append, List.exists_mem_cons_iff]
    refine or_congr ?_ ih
    simp [Stmt.freeTexts, Occurs]

/-! ## Programs -/

section

variable {c : Char} {limit : Nat} {g : Graph} {p : Program}

/-- The remarks behind first values show the purposes of the nodes. -/
lemma exists_mem_purposeRemark_iff (hc : isBlank c = false) {n : Node} :
    (∃ r ∈ purposeRemark n, c ∈ r.toList) ↔ ∃ s ∈ n.purpose, c ∈ s.toList := by
  cases hp : n.purpose with
  | none => simp [purposeRemark, hp, nonempty?]
  | some s =>
    by_cases hs : s = ""
    · simp [purposeRemark, hp, nonempty?, hs]
    · simp [purposeRemark, hp, nonempty?, hs, mem_oneLine_iff hc]

/-- The method of a trigger shows the name of the trigger, and what is carried out shows nothing. -/
lemma occurs_toMethod_iff (hc : isControl c = true) (hb : isBlank c = false) {s : Scope}
    {entries : List EntryPoint} (h : (s.entryPoints limit).outcome = .ok entries) {e : EntryPoint}
    (he : e ∈ entries) :
    Occurs c (Stmt.freeTextsIn e.toMethod.body) ↔ c ∈ e.node.displayName.toList := by
  obtain ⟨body, hbody, hemits⟩ := Scope.emits_of_mem_entryPoints h he
  have hwords : IsClean "Logic triggered by " := by decide
  rw [EntryPoint.toMethod, hbody, Stmt.freeTextsIn, Stmt.freeTexts, Stmt.freeTextsIn_orPass,
    hemits.freeTextsIn_eq_nil, List.append_nil, occurs_cons, hwords.mem_append_iff hc,
    mem_docstringText_iff hc hb]
  simp

/-- The entry points of a graph are those of its triggers. -/
lemma exists_mem_entryPoints_iff {s : Scope} {entries : List EntryPoint}
    (h : (s.entryPoints limit).outcome = .ok entries) {P : Node → Prop} :
    (∃ e ∈ entries, P e.node) ↔ ∃ n ∈ s.graph.nodesOf [.action, .nav], P n := by
  have hnode : ∀ {n e}, (s.entryPoint limit n).outcome = .ok e → e.node = n := by
    intro n e hout
    simp only [Scope.entryPoint, Audited.outcome_bind_eq_ok, Audited.outcome_pure,
      Except.ok.injEq] at hout
    obtain ⟨_, -, rfl⟩ := hout
    rfl
  constructor
  · rintro ⟨e, he, hP⟩
    obtain ⟨n, hn, hout⟩ := Audited.exists_of_mem_mapList h he
    exact ⟨n, hn, hnode hout ▸ hP⟩
  · rintro ⟨n, hn, hP⟩
    obtain ⟨e, he, hout⟩ := Audited.exists_mem_mapList h hn
    exact ⟨e, he, (hnode hout).symm ▸ hP⟩

/-- What the methods of an event program show: purposes and names of triggers. -/
lemma occurs_eventProgram_iff (hc : isControl c = true) (hb : isBlank c = false)
    (h : (eventProgram limit g).outcome = .ok p) :
    (∃ m ∈ p.constructor :: p.methods, Occurs c (Stmt.freeTextsIn m.body)) ↔
      (∃ n ∈ g.nodes.filter Node.declaresVariable, ∃ s ∈ n.purpose, c ∈ s.toList) ∨
        ∃ n ∈ g.nodesOf [.action, .nav], c ∈ n.displayName.toList := by
  simp only [eventProgram, eventConstructor, Audited.outcome_bind_eq_ok, Audited.outcome_pure,
    Except.ok.injEq] at h
  obtain ⟨-, -, initial, ⟨assigns, hassigns, rfl⟩, entries, hentries, -, -, rfl⟩ := h
  have hcomment : IsClean "UI State Variables (Mapped from Graph)" := by decide
  have htitle : ∀ declared : List Node, ¬ Occurs c (Stmt.freeTextsIn
      (if declared.isEmpty then [] else [.comment "UI State Variables (Mapped from Graph)"])) := by
    intro declared
    split_ifs
    · exact occurs_nil
    · exact not_occurs_of_isClean (List.forall_mem_singleton.mpr hcomment) hc
  rw [List.exists_mem_cons_iff, List.exists_mem_cons_iff, Stmt.freeTextsIn_orPass,
    Stmt.freeTextsIn_append, occurs_append, or_iff_right (htitle _),
    occurs_initialAssign_iff hassigns]
  refine or_congr (by simp only [exists_mem_purposeRemark_iff hb]) ?_
  rw [← exists_mem_entryPoints_iff hentries]
  simp only [Stmt.freeTextsIn, Stmt.freeTexts, List.append_nil, occurs_nil, false_or, List.mem_map,
    exists_exists_and_eq_and]
  refine exists_congr fun e => and_congr_right fun he => ?_
  exact occurs_toMethod_iff hc hb hentries he

/-- The methods of a simulation show nothing. -/
lemma not_occurs_simulationProgram (h : (simulationProgram limit g).outcome = .ok p) :
    ¬ ∃ m ∈ p.constructor :: p.methods, Occurs c (Stmt.freeTextsIn m.body) := by
  simp only [simulationProgram, Audited.outcome_bind_eq_ok, Audited.outcome_pure,
    Except.ok.injEq] at h
  obtain ⟨-, -, initial, hinitial, reset, hreset, evaluation, hevaluation, reward, -, -, -,
    rfl⟩ := h
  have hactions : ∀ s (nodes : List Node), Stmt.freeTextsIn (actionStmts s nodes) = [] := by
    intro s nodes
    rw [Stmt.freeTextsIn_eq_flatMap, List.flatMap_eq_nil_iff]
    intro t ht
    obtain ⟨i, hi, rfl⟩ := List.mem_mapIdx.mp ht
    rfl
  simp only [List.exists_mem_cons_iff, Stmt.freeTextsIn_orPass, Stmt.freeTextsIn_append,
    occurs_append, occurs_initialAssign_iff hinitial, occurs_initialAssign_iff hreset, hactions,
    (Scope.emits_rootStmts hevaluation).freeTextsIn_eq_nil]
  simp [Stmt.freeTextsIn, Stmt.freeTexts]

end

namespace Target

variable {c : Char} {t : Target}

/-- The texts of a graph that a program for a target shows: its name, and in an event program the
purposes of variables and the names of triggers. -/
def shownTexts (g : Graph) : Target → List String
  | event =>
    g.name :: ((g.nodes.filter Node.declaresVariable).filterMap Node.purpose ++
      (g.nodesOf [.action, .nav]).map Node.displayName)
  | simulation => [g.name]

/-- Of the control characters that are no blanks, only those of the graph's name are in the
preamble. -/
lemma occurs_preamble_iff (hc : isControl c = true) (hb : isBlank c = false) {graphName : String} :
    Occurs c (t.preamble graphName) ↔ c ∈ graphName.toList := by
  obtain ⟨title, rest, heq, htitle, hrest⟩ := t.exists_preamble_eq graphName
  have hgraph : IsClean "# Graph: " := by decide
  rw [heq, occurs_cons, occurs_cons, or_iff_right (htitle.not_mem hc),
    or_iff_left (not_occurs_of_isClean hrest hc), hgraph.mem_append_iff hc, mem_oneLine_iff hb]

/-- What the lines of a program of well-formed methods show. -/
lemma occurs_print_iff (hc : isControl c = true) (hb : isBlank c = false) {graphName : String}
    {first : Method} {others : List Method} (h : ∀ m ∈ first :: others, m.WellFormed) :
    Occurs c (t.print graphName first others) ↔
      c ∈ graphName.toList ∨ ∃ m ∈ first :: others, Occurs c (Stmt.freeTextsIn m.body) := by
  obtain ⟨hfirst, hothers⟩ := List.forall_mem_cons.mp h
  have hrest : Occurs c (others.flatMap fun m => "" :: m.print) ↔
      ∃ m ∈ others, Occurs c (Stmt.freeTextsIn m.body) := by
    clear h
    induction others with
    | nil => simp
    | cons m rest ih =>
      obtain ⟨hm, hrest⟩ := List.forall_mem_cons.mp hothers
      rw [List.flatMap_cons, occurs_append, occurs_cons, Method.occurs_print_iff hc hm, ih hrest,
        List.exists_mem_cons_iff]
      simp
  rw [print, occurs_append, occurs_append, occurs_preamble_iff hc hb,
    Method.occurs_print_iff hc hfirst, hrest, List.exists_mem_cons_iff]

/-- **Which control characters the text of a program has**: apart from blanks, those of the texts
that it shows. -/
lemma mem_text_iff (hc : isControl c = true) (hb : isBlank c = false) {limit : Nat} {g : Graph}
    {p : Program} (h : (t.program limit g).outcome = .ok p) :
    c ∈ p.text.toList ↔ Occurs c (t.shownTexts g) := by
  have hline : c ≠ '\n' := by
    rintro rfl
    cases hb
  rw [p.text_eq_unlines_print, print_program h, mem_unlines_iff hline,
    occurs_print_iff hc hb (wellFormed_of_mem_program h)]
  cases t with
  | event =>
    have hpurposes : Occurs c ((g.nodes.filter Node.declaresVariable).filterMap Node.purpose) ↔
        ∃ n ∈ g.nodes.filter Node.declaresVariable, ∃ s ∈ n.purpose, c ∈ s.toList := by
      constructor
      · rintro ⟨s, hs, hcs⟩
        obtain ⟨n, hn, hp⟩ := List.mem_filterMap.mp hs
        exact ⟨n, hn, s, hp, hcs⟩
      · rintro ⟨n, hn, s, hp, hcs⟩
        exact ⟨s, List.mem_filterMap.mpr ⟨n, hn, hp⟩, hcs⟩
    have hnames : Occurs c ((g.nodesOf [.action, .nav]).map Node.displayName) ↔
        ∃ n ∈ g.nodesOf [.action, .nav], c ∈ n.displayName.toList := by
      simp [Occurs]
    rw [occurs_eventProgram_iff hc hb h, shownTexts, occurs_cons, occurs_append, hpurposes, hnames]
  | simulation =>
    rw [or_iff_left (not_occurs_simulationProgram h), shownTexts, occurs_cons]
    simp

end Target

end LogicGraph
