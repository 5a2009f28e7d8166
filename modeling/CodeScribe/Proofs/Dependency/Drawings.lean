import CodeScribe.Proofs.Dependency.Counts
import CodeScribe.Proofs.Diagram.NodeIds
import Mathlib.Data.List.Forall2
import Mathlib.Data.Set.Function

/-!
# Drawings of dependency graphs

A drawing writes an identifier in place of a file, and an edge whose two identifiers were drawn
before is left out.  So a drawing shows the graph as long as its identifiers keep the files apart.

* `Graph.mermaid_draws_dependencies` — with different digests, every dependency is drawn once;
* `Graph.drawings_keep_apart` — when the identifiers without digests keep the files apart;
* `Graph.marked_paths_collide` — they need not.
-/

namespace CodeScribe.Dependency.Graph

open Mermaid (nodeId shortId digestStart calledBy namedWords)
open Text (isWord)

/-! ### What an analysis leaves behind -/

/-- The graph that an analysis of files leaves behind. -/
def leftBy (r : Readers) (files : List SourceFile) : Graph :=
  match obstacle? files with
  | some _ => stopped r files
  | none => ofFiles r files

theorem wellFormed_leftBy (r : Readers) (files : List SourceFile) :
    (leftBy r files).WellFormed := by
  rw [leftBy]
  split
  · exact
      { paths_nodup := Index.ofFiles_names_nodup r _
        links_nodup := List.Pairwise.nil
        external_nodup := List.Pairwise.nil
        row := by
          intro e he
          cases he
        external_mem := by
          intro s hs
          cases hs }
  · exact wellFormed_ofFiles r files

/-- The identifiers of the indexed files are different. -/
def KeepsApart (g : Graph) (ident : String → String) : Prop :=
  Set.InjOn ident {p | p ∈ g.paths}

/-! ### Lines by key -/

/-- Keep a line unless its key was seen. -/
def keepFirst (st : List String × List String) (e : String × String) : List String × List String :=
  if st.1.contains e.1 then st else (e.1 :: st.1, e.2 :: st.2)

theorem firstOfEach_eq_foldl (lines : List (String × String)) :
    firstOfEach lines = (lines.foldl keepFirst ([], [])).2.reverse := rfl

/-- Lines with new keys are all kept. -/
theorem foldl_keepFirst {lines : List (String × String)} (hkeys : (lines.map (·.1)).Nodup)
    {seen : List String} (hseen : ∀ k ∈ lines.map (·.1), k ∉ seen) (kept : List String) :
    (lines.foldl keepFirst (seen, kept)).2 = (lines.map (·.2)).reverse ++ kept := by
  induction lines generalizing seen kept with
  | nil => rfl
  | cons e lines ih =>
    rw [List.map_cons, List.nodup_cons] at hkeys
    have hnew : keepFirst (seen, kept) e = (e.1 :: seen, e.2 :: kept) := by
      have hkey : e.1 ∉ seen := hseen e.1 (by simp)
      simp [keepFirst, hkey]
    rw [List.foldl_cons, hnew, ih hkeys.2 ?_]
    · simp
    · intro k hk
      rw [List.mem_cons, not_or]
      refine ⟨?_, hseen k (List.mem_cons_of_mem _ hk)⟩
      rintro rfl
      exact hkeys.1 hk

/-- The keys that were seen are those of the lines, each of them once, and as many lines were
kept. -/
theorem seen_foldl_keepFirst (lines : List (String × String)) :
    let out := lines.foldl keepFirst ([], [])
    out.1.Nodup ∧ (∀ k, k ∈ out.1 ↔ k ∈ lines.map (·.1)) ∧ out.2.length = out.1.length := by
  induction lines using List.reverseRecOn with
  | nil => simp
  | append_singleton lines e ih =>
    obtain ⟨hnd, hmem, hlen⟩ := ih
    simp only [List.foldl_append, List.foldl_cons, List.foldl_nil, List.map_append, List.map_cons,
      List.map_nil, List.mem_append, List.mem_singleton]
    rw [keepFirst]
    split
    · rename_i hkey
      have hkey := List.contains_iff_mem.mp hkey
      refine ⟨hnd, fun k => ?_, hlen⟩
      rw [← hmem]
      constructor
      · exact .inl
      · rintro (hk | rfl)
        · exact hk
        · exact hkey
    · rename_i hkey
      have hkey : e.1 ∉ (lines.foldl keepFirst ([], [])).1 := by simpa using hkey
      refine ⟨List.nodup_cons.mpr ⟨hkey, hnd⟩, fun k => ?_, by simp [hlen]⟩
      rw [List.mem_cons, hmem, or_comm]

/-- All lines are kept exactly if no key is repeated. -/
theorem firstOfEach_eq_map_iff {lines : List (String × String)} :
    firstOfEach lines = lines.map (·.2) ↔ (lines.map (·.1)).Nodup := by
  rw [firstOfEach_eq_foldl]
  constructor
  · intro hall
    obtain ⟨hnd, hmem, hlen⟩ := seen_foldl_keepFirst lines
    have hlen' := congrArg List.length hall
    rw [List.length_reverse, List.length_map, hlen] at hlen'
    have hsub : (lines.foldl keepFirst ([], [])).1 ⊆ lines.map (·.1) := fun k hk => (hmem k).mp hk
    have hperm := (hnd.subperm hsub).perm_of_length_le (by rw [List.length_map, hlen'])
    exact hperm.nodup_iff.mp hnd
  · intro hkeys
    rw [foldl_keepFirst hkeys (by simp)]
    simp

/-! ### Edges by their identifiers -/

/-- A character of no word does not occur in an identifier. -/
theorem beq_of_isWord {s : String} (hs : ∀ c ∈ s.toList, isWord c = true) (d : Char)
    (hd : isWord d = false) : ∀ c ∈ s.toList, (c == d) = false := by
  intro c hc
  rw [beq_eq_false_iff_ne]
  rintro rfl
  rw [hs c hc] at hd
  cases hd

/-- The key of an edge between two identifiers. -/
def arrow (a b : String) : String := a ++ "->" ++ b

/-- Both identifiers can be read off an arrow. -/
theorem arrow_inj {a b a' b' : String} (ha : ∀ c ∈ a.toList, isWord c = true)
    (ha' : ∀ c ∈ a'.toList, isWord c = true) (h : arrow a b = arrow a' b') : a = a' ∧ b = b' := by
  have hlist := congrArg String.toList h
  simp only [arrow, String.toList_append, List.append_assoc] at hlist
  obtain ⟨hfirst, hrest⟩ := Chars.cut (beq_of_isWord ha '-' (by decide))
    (beq_of_isWord ha' '-' (by decide)) rfl rfl hlist
  exact ⟨String.toList_inj.mp hfirst, String.toList_inj.mp (List.cons.inj hrest).2⟩

variable {g : Graph} {ident : String → String}

theorem KeepsApart.nodup_ids (h : g.KeepsApart ident) {es : List (String × String)} (hes : es.Nodup)
    (hmem : ∀ e ∈ es, e.1 ∈ g.paths ∧ e.2 ∈ g.paths) :
    (es.map fun e => (ident e.1, ident e.2)).Nodup := by
  refine hes.map_on ?_
  intro e he e' he' hids
  obtain ⟨hfirst, hsecond⟩ := Prod.mk.inj hids
  exact Prod.ext (h (hmem e he).1 (hmem e' he').1 hfirst) (h (hmem e he).2 (hmem e' he').2 hsecond)

/-- Edges with different identifiers are all drawn. -/
theorem firstOfEach_edges (hword : ∀ p, ∀ c ∈ (ident p).toList, isWord c = true)
    (line : String × String → String) (es : List (String × String)) :
    firstOfEach (es.map fun e => (arrow (ident e.1) (ident e.2), line e)) = es.map line ↔
      (es.map fun e => (ident e.1, ident e.2)).Nodup := by
  have hlines : es.map line
      = (es.map fun e => (arrow (ident e.1) (ident e.2), line e)).map (·.2) := by
    rw [List.map_map]
    rfl
  have hkeys : (es.map fun e => (arrow (ident e.1) (ident e.2), line e)).map (·.1)
      = (es.map fun e => (ident e.1, ident e.2)).map fun ids => arrow ids.1 ids.2 := by
    rw [List.map_map, List.map_map]
    rfl
  rw [hlines, firstOfEach_eq_map_iff, hkeys]
  refine ⟨List.Nodup.of_map _, fun hids => hids.map_on ?_⟩
  intro ids hmem ids' hmem' heq
  obtain ⟨e, -, rfl⟩ := List.mem_map.mp hmem
  obtain ⟨e', -, rfl⟩ := List.mem_map.mp hmem'
  obtain ⟨hfirst, hsecond⟩ := arrow_inj (hword e.1) (hword e'.1) heq
  exact Prod.ext hfirst hsecond

/-! ### The drawing with digests -/

theorem keepsApart_nodeId (hdigests : (g.paths.map digestStart).Nodup) : g.KeepsApart nodeId := by
  intro p hp q hq hid
  exact List.inj_on_of_nodup_map hdigests hp hq (Mermaid.digestStart_of_nodeId_eq hid)

def drawnEdge (node : String → String) (e : String × String) : String :=
  "  " ++ node e.1 ++ " --> " ++ node e.2

theorem WellFormed.edges_mem (h : g.WellFormed) :
    ∀ e ∈ g.edges, e.1 ∈ g.paths ∧ e.2 ∈ g.paths := by
  intro e he
  have htarget := h.target ((mem_edges h).mp he)
  exact ⟨htarget.1, htarget.2.1⟩

theorem edgeLines_eq (h : g.WellFormed) (hapart : g.KeepsApart nodeId) :
    g.edgeLines = g.edges.map (drawnEdge g.mermaidNode) := by
  have hlines : g.edgeLines = firstOfEach (g.edges.map fun e =>
      (arrow (nodeId e.1) (nodeId e.2), drawnEdge g.mermaidNode e)) := rfl
  have hword : ∀ p, ∀ c ∈ (nodeId p).toList, isWord c = true :=
    fun p c hc => Mermaid.isWord_of_mem_nodeId hc
  rw [hlines]
  exact (firstOfEach_edges hword _ _).mpr (hapart.nodup_ids h.edges_nodup h.edges_mem)

theorem newline_notMem_drawnEdge (g : Graph) (e : String × String) :
    '\n' ∉ (drawnEdge g.mermaidNode e).toList := by
  have hid (p : String) : '\n' ∉ (nodeId p).toList := by
    intro hmem
    simpa using beq_of_isWord (fun c => Mermaid.isWord_of_mem_nodeId) '\n' (by decide) _ hmem
  have hnode (p : String) : '\n' ∉ (g.mermaidNode p).toList := by
    rw [mermaidNode, Mermaid.node]
    simp [hid p, Mermaid.newline_notMem_label]
  rw [drawnEdge]
  simp [hnode]

/-- The node with which a text goes on can be told from the text. -/
theorem nodeId_of_append {p q : String} {r r' : List Char}
    (h : (nodeId p).toList ++ '[' :: r = (nodeId q).toList ++ '[' :: r') :
    nodeId p = nodeId q ∧ r = r' := by
  have hid (s : String) : ∀ c ∈ (nodeId s).toList, (c == '[') = false :=
    beq_of_isWord (fun c => Mermaid.isWord_of_mem_nodeId) '[' (by decide)
  obtain ⟨hids, hrest⟩ := Chars.cut (hid p) (hid q) rfl rfl h
  exact ⟨String.toList_inj.mp hids, hrest⟩

/-- Both ends of an edge can be told from its line. -/
theorem KeepsApart.drawnEdge_inj (hapart : g.KeepsApart nodeId) {e e' : String × String}
    (he : e.1 ∈ g.paths ∧ e.2 ∈ g.paths) (he' : e'.1 ∈ g.paths ∧ e'.2 ∈ g.paths)
    (h : drawnEdge g.mermaidNode e = drawnEdge g.mermaidNode e') : e = e' := by
  obtain ⟨s, t⟩ := e
  obtain ⟨s', t'⟩ := e'
  have hlist := congrArg String.toList h
  simp only [drawnEdge, mermaidNode, Mermaid.node, String.toList_append, List.append_assoc,
    List.append_cancel_left_eq, show "[\"".toList = ['[', '"'] from rfl, List.cons_append] at hlist
  obtain ⟨hids, hrest⟩ := nodeId_of_append hlist
  obtain rfl : s = s' := hapart he.1 he'.1 hids
  simp only [List.cons.injEq, List.append_cancel_left_eq, true_and] at hrest
  obtain ⟨hids', -⟩ := nodeId_of_append hrest
  obtain rfl : t = t' := hapart he.2 he'.2 hids'
  rfl

/-- **Every dependency is drawn once.**  If the digests of the indexed paths start differently, no
two files share an identifier, and behind its first line the drawing has one line for each
dependency, with the identifiers of its two files. -/
theorem mermaid_draws_dependencies (r : Readers) (files : List SourceFile)
    (hdigests : ((leftBy r files).paths.map digestStart).Nodup) :
    let g := leftBy r files
    Set.InjOn nodeId {p | p ∈ g.paths} ∧
      ∃ (label : String → String) (lines : List String),
        Text.splitOn g.mermaid "\n" = "graph LR" :: lines ∧
        lines = (g.edges.map fun e => "  " ++ Mermaid.node (nodeId e.1) (label e.1) ++ " --> " ++
          Mermaid.node (nodeId e.2) (label e.2)) ∧
        lines.Nodup ∧ (∀ s t, (s, t) ∈ g.edges ↔ t ∈ g.targets s) ∧
        number g.toValue "dependency_count" = lines.length := by
  intro g
  have h : g.WellFormed := wellFormed_leftBy r files
  have hapart : g.KeepsApart nodeId := keepsApart_nodeId hdigests
  let label (p : String) : String := Mermaid.label 120
    (g.displayLabel p ((g.paths.filter fun q => fileName q == fileName p).length > 1))
  refine ⟨hapart, label, g.edges.map (drawnEdge g.mermaidNode), ?_, rfl, ?_, ?_, ?_⟩
  · rw [mermaid, edgeLines_eq h hapart]
    refine Text.lines_join ?_ (List.cons_ne_nil _ _)
    intro line hline
    rcases List.mem_cons.mp hline with rfl | hline
    · decide
    · obtain ⟨e, -, rfl⟩ := List.mem_map.mp hline
      exact newline_notMem_drawnEdge g e
  · refine h.edges_nodup.map_on ?_
    intro e he e' he' hline
    exact hapart.drawnEdge_inj (h.edges_mem e he) (h.edges_mem e' he') hline
  · exact fun s t => mem_edges h
  · rw [List.length_map, length_edges]
    rfl

/-- Two sources in one package, the first of which imports the second. -/
def importsOther : List SourceFile :=
  [.ofTexts "p/A.java" "p/A.java" "A.java" "java" "package p; import p.B; class A \x7b\x7d",
    .ofTexts "p/B.java" "p/B.java" "B.java" "java" "package p; class B \x7b\x7d"]

theorem importsOther_drawn :
    ((leftBy {} importsOther).paths.map digestStart).Nodup ∧
      "p/B.java" ∈ (leftBy {} importsOther).targets "p/A.java" ∧
      ∃ lines, Text.splitOn (leftBy {} importsOther).mermaid "\n" = "graph LR" :: lines ∧
        lines.length = 1 := by
  have hdigests : ((leftBy {} importsOther).paths.map digestStart).Nodup := by decide +kernel
  have hcount : number (leftBy {} importsOther).toValue "dependency_count" = 1 := by decide
  obtain ⟨-, label, lines, hsplit, -, -, -, hlength⟩ :=
    mermaid_draws_dependencies {} importsOther hdigests
  rw [hcount] at hlength
  exact ⟨hdigests, by decide, lines, hsplit, by exact_mod_cast hlength.symm⟩

/-! ### Drawings without digests -/

/-- The characters that all become underscores. -/
def isMark (c : Char) : Bool := c == '/' || c == '\\' || c == '.' || c == '_'

/-- Paths that differ at most in slashes, backslashes, points and underscores. -/
def SameButMarks (p q : String) : Prop :=
  List.Forall₂ (fun c d => c = d ∨ isMark c = true ∧ isMark d = true) p.toList q.toList

theorem dotId_eq_iff {p q : String} : dotId p = dotId q ↔ SameButMarks p q := by
  have hchar (c d : Char) : (if c == '/' || c == '\\' || c == '.' then '_' else c) =
      (if d == '/' || d == '\\' || d == '.' then '_' else d) ↔
        c = d ∨ isMark c = true ∧ isMark d = true := by
    simp only [isMark, Bool.or_eq_true, beq_iff_eq]
    split <;> split <;> grind
  rw [dotId, dotId, String.ofList_inj, ← List.forall₂_eq_eq_eq, List.forall₂_map_left_iff,
    List.forall₂_map_right_iff, SameButMarks]
  simp only [hchar]

theorem shortId_eq_iff {p q : String} :
    shortId p = shortId q ↔ (calledBy p).take 50 = (calledBy q).take 50 := by
  rw [Mermaid.shortId_eq, Mermaid.shortId_eq, String.ofList_inj]

/-- The dependencies that a report shows: five of each of the first twenty files that have any. -/
def shown (g : Graph) : List (String × String) :=
  (g.links.take 20).flatMap fun row => (row.2.take 5).map fun t => (row.1, t)

theorem shown_sublist (g : Graph) : g.shown.Sublist g.edges := by
  have hrows : ∀ rows : Table (List String),
      (rows.flatMap fun row => (row.2.take 5).map fun t => (row.1, t)).Sublist
        (rows.flatMap fun row => row.2.map fun t => (row.1, t)) := by
    intro rows
    induction rows with
    | nil => exact List.Sublist.slnil
    | cons row rows ih =>
      rw [List.flatMap_cons, List.flatMap_cons]
      exact ((List.take_sublist 5 row.2).map _).append ih
  exact (hrows _).trans ((List.take_sublist 20 g.links).flatMap _)

def reportLine (e : String × String) : String := drawnEdge reportNode e ++ "\n"

theorem reportEdges_eq (g : Graph) : g.reportEdges =
    firstOfEach (g.shown.map fun e => (arrow (shortId e.1) (shortId e.2), reportLine e)) := by
  rw [shown, List.map_flatMap]
  simp only [List.map_map]
  rfl

/-- No shown dependency is left out exactly if no two of them have the same identifiers. -/
theorem reportEdges_eq_map_iff (g : Graph) :
    g.reportEdges = g.shown.map reportLine ↔
      (g.shown.map fun e => (shortId e.1, shortId e.2)).Nodup := by
  have hword : ∀ p, ∀ c ∈ (shortId p).toList, isWord c = true :=
    fun p c hc => Mermaid.isWord_of_mem_shortId hc
  rw [reportEdges_eq]
  exact firstOfEach_edges hword reportLine g.shown

/-- **When identifiers without digests keep files apart.**  Two files share a node of the drawing
with quoted identifiers exactly if their paths differ in marks only, and a node of the report
exactly if the spelled words of their paths agree in the first fifty characters.  If no two
indexed files do, no two dependencies share their two nodes and none is left out. -/
theorem drawings_keep_apart (r : Readers) (files : List SourceFile) :
    let g := leftBy r files
    (∀ p ∈ g.paths, ∀ q ∈ g.paths,
      (dotId p = dotId q ↔ SameButMarks p q) ∧
      (shortId p = shortId q ↔ (calledBy p).take 50 = (calledBy q).take 50) ∧
      (calledBy p = calledBy q ↔ namedWords p = namedWords q)) ∧
    (g.KeepsApart dotId →
      (g.paths.map dotId).Nodup ∧ (g.edges.map fun e => (dotId e.1, dotId e.2)).Nodup) ∧
    (g.KeepsApart shortId →
      (g.paths.map shortId).Nodup ∧ g.reportEdges = g.shown.map reportLine) ∧
    (g.reportEdges = g.shown.map reportLine ↔
      (g.shown.map fun e => (shortId e.1, shortId e.2)).Nodup) := by
  intro g
  have h : g.WellFormed := wellFormed_leftBy r files
  have hnodes {ident : String → String} (hapart : g.KeepsApart ident) :
      (g.paths.map ident).Nodup :=
    h.paths_nodup.map_on fun p hp q hq hid => hapart hp hq hid
  have hshown : ∀ e ∈ g.shown, e.1 ∈ g.paths ∧ e.2 ∈ g.paths :=
    fun e he => h.edges_mem e (g.shown_sublist.subset he)
  refine ⟨?_, ?_, ?_, reportEdges_eq_map_iff g⟩
  · exact fun p _ q _ => ⟨dotId_eq_iff, shortId_eq_iff, Mermaid.calledBy_inj⟩
  · exact fun hapart => ⟨hnodes hapart, hapart.nodup_ids h.edges_nodup h.edges_mem⟩
  · intro hapart
    refine ⟨hnodes hapart, (reportEdges_eq_map_iff g).mpr ?_⟩
    exact hapart.nodup_ids (h.edges_nodup.sublist g.shown_sublist) hshown

/-- A source with two dependencies whose paths differ in one mark. -/
def markedPaths : List SourceFile :=
  [.ofTexts "X.java" "X.java" "X.java" "java" "import p.B; import p.C; class X \x7b\x7d",
    .ofTexts "a/b.java" "a/b.java" "b.java" "java" "package p; class B \x7b\x7d",
    .ofTexts "a_b.java" "a_b.java" "a_b.java" "java" "package p; class C \x7b\x7d"]

/-- **Two files drawn as one.**  A slash and an underscore give one identifier, and the second of
two dependencies is left out of the report. -/
theorem marked_paths_collide :
    let g := leftBy {} markedPaths
    "a/b.java" ∈ g.paths ∧ "a_b.java" ∈ g.paths ∧ dotId "a/b.java" = dotId "a_b.java" ∧
      shortId "a/b.java" = shortId "a_b.java" ∧
      g.shown = [("X.java", "a/b.java"), ("X.java", "a_b.java")] ∧
      g.reportEdges = [reportLine ("X.java", "a/b.java")] := by
  decide +kernel

end CodeScribe.Dependency.Graph
