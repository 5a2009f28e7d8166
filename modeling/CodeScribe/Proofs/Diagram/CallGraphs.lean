import CodeScribe.Diagram.CallGraph
import CodeScribe.Proofs.Source.Names

/-!
# What a drawing of calls shows

The calls of a class are collected method by method, each callee once, and drawn line by line.
Methods of one name are collected apart from each other, and the identifiers of nodes are cut to a
length.  So a call is drawn as often as there are methods of the caller's name that make it, and
long names can share a node.

* `CallGraph.drawn_calls` — the drawing of every class of a source;
* `CallGraph.overloads_drawn_twice` — repeated lines and shared nodes do occur.
-/

namespace CodeScribe

namespace Text

theorem nodup_eraseDups (texts : List String) : texts.eraseDups.Nodup := by
  induction texts using List.reverseRecOn with
  | nil => exact List.Pairwise.nil
  | append_singleton texts s ih =>
    rw [List.eraseDups_append]
    by_cases hs : s ∈ texts
    · simpa [List.removeAll, hs] using ih
    · have hnew : ([s].removeAll texts).eraseDups = [s] := by
        simp [List.removeAll, hs, List.eraseDups_cons]
      rw [hnew, List.nodup_append_comm, List.singleton_append, List.nodup_cons]
      exact ⟨fun hmem => hs (List.mem_eraseDups.mp hmem), ih⟩

theorem nodup_sortDistinct (texts : List String) : (sortDistinct texts).Nodup :=
  (List.mergeSort_perm _ _).nodup_iff.mpr (nodup_eraseDups texts)

theorem mem_sortDistinct {texts : List String} {s : String} :
    s ∈ sortDistinct texts ↔ s ∈ texts := by
  rw [sortDistinct, sort, List.mem_mergeSort, List.mem_eraseDups]

end Text

namespace CallGraph

open Pattern Declaration
open Text (isWord MadeOf)

variable {className method a b : String} {g : CallGraph}

/-! ### Edges -/

def callsOf (methods : List Method) (m : Method) : List String :=
  callsIn (methods.map (·.name)) m.body

/-- The number of methods of a name that call a method; several, if they are overloads. -/
def callers (methods : List Method) (caller callee : String) : Nat :=
  methods.countP fun m => m.name == caller && (callsOf methods m).contains callee

theorem nodup_callsOf (methods : List Method) (m : Method) : (callsOf methods m).Nodup :=
  Text.nodup_sortDistinct _

theorem mem_names_of_mem_callsOf {methods : List Method} {m : Method} {callee : String}
    (h : callee ∈ callsOf methods m) : callee ∈ methods.map (·.name) := by
  have hfound := (List.mem_filter.mp (Text.mem_sortDistinct.mp h)).2
  exact List.contains_iff_mem.mp (Bool.and_eq_true_iff.mp hfound).1

/-- The edges of one method: each callee once. -/
theorem count_edges_method (methods : List Method) (m : Method) (caller callee : String) :
    ((callsOf methods m).map fun c => (m.name, c)).count (caller, callee)
      = if m.name == caller && (callsOf methods m).contains callee then 1 else 0 := by
  have hinj : Function.Injective fun c : String => (m.name, c) := by
    intro c d hcd
    exact (Prod.mk.inj hcd).2
  rw [((nodup_callsOf methods m).map hinj).count]
  by_cases hname : m.name = caller
  · subst hname
    simp
  · simp [hname]

/-- A pair stands in the list of edges once for every method of the caller's name that makes the
call. -/
theorem count_edgesOf (methods : List Method) (caller callee : String) :
    (edgesOf methods).count (caller, callee) = callers methods caller callee := by
  -- Callees are looked up among all methods, so only the list that is gone through gets shorter.
  have hsome (some : List Method) :
      (some.flatMap fun m => (callsOf methods m).map fun c => (m.name, c)).count (caller, callee)
        = some.countP fun m => m.name == caller && (callsOf methods m).contains callee := by
    induction some with
    | nil => rfl
    | cons m some ih =>
      rw [List.flatMap_cons, List.count_append, ih, count_edges_method, List.countP_cons,
        Nat.add_comm]
  exact hsome methods

theorem nodup_edgesOf_iff (methods : List Method) :
    (edgesOf methods).Nodup ↔ ∀ caller callee, callers methods caller callee ≤ 1 := by
  rw [List.nodup_iff_count_le_one]
  simp only [Prod.forall, count_edgesOf]

theorem mem_names_of_mem_edgesOf {methods : List Method} {e : String × String}
    (h : e ∈ edgesOf methods) :
    e.1 ∈ methods.map (·.name) ∧ e.2 ∈ methods.map (·.name) := by
  obtain ⟨m, hm, he⟩ := List.mem_flatMap.mp h
  obtain ⟨callee, hcallee, rfl⟩ := List.mem_map.mp he
  exact ⟨List.mem_map_of_mem hm, mem_names_of_mem_callsOf hcallee⟩

/-! ### Names -/

theorem methodsIn_madeOf {body : List Char} {name : String}
    (h : name ∈ (methodsIn className body).map (·.name)) : MadeOf isWord name := by
  have hbody : CSharp.methodPattern.body? 1 = some Pattern.name := by
    simp [CSharp.methodPattern, arguments, numbers]
  obtain ⟨method, hmethod, rfl⟩ := List.mem_map.mp h
  obtain ⟨m, hm, hkept⟩ := List.mem_filterMap.mp hmethod
  dsimp only at hkept
  split at hkept
  · cases hkept
  · obtain rfl := Option.some.inj hkept
    exact (findAll_sound hm).get_span1 hbody

theorem className_madeOf {code : List Char} {m : Match}
    (h : m ∈ CSharp.classPattern.findAll code) : MadeOf isWord (m.get 1) :=
  (findAll_sound h).get_span1 (Language.body_typePatterns .csharp _ List.mem_cons_self)

/-! ### Nodes -/

def label (className method : String) : String := className ++ "." ++ method

theorem toList_label (className method : String) :
    (label className method).toList = className.toList ++ '.' :: method.toList := by
  simp [label]

theorem map_of_madeOf {s : String} (h : MadeOf isWord s) :
    (s.toList.map fun c => if isWord c then c else '_') = s.toList := by
  rw [List.map_congr_left fun c hc => if_pos (h.2 c hc), List.map_id']

/-- An identifier holds the beginning of the class and the method with an underscore between. -/
theorem toList_nodeId (hclass : MadeOf isWord className) (hmethod : MadeOf isWord method) :
    (nodeId (label className method)).toList
      = ((className.toList ++ ['_']) ++ method.toList).take 50 := by
  have hpoint : isWord '.' = false := by decide
  have hchars : ((label className method).toList.map fun c => if isWord c then c else '_')
      = (className.toList ++ ['_']) ++ method.toList := by
    rw [toList_label, List.map_append, List.map_cons, map_of_madeOf hclass, map_of_madeOf hmethod,
      hpoint, if_neg Bool.false_ne_true, List.append_assoc, List.singleton_append]
  rw [nodeId, hchars]
  split
  · rename_i hempty
    rw [String.isEmpty_iff, String.ofList_eq_empty_iff] at hempty
    simp at hempty
  · exact String.toList_ofList

/-- Two methods of a class share an identifier exactly if they agree as far as there is room for
them behind the class. -/
theorem nodeId_eq_iff (hclass : MadeOf isWord className) (ha : MadeOf isWord a)
    (hb : MadeOf isWord b) :
    nodeId (label className a) = nodeId (label className b) ↔
      a.toList.take (49 - className.toList.length)
        = b.toList.take (49 - className.toList.length) := by
  have hroom : 50 - (className.toList ++ ['_']).length = 49 - className.toList.length := by
    rw [List.length_append, List.length_singleton]
    omega
  rw [← String.toList_inj, toList_nodeId hclass ha, toList_nodeId hclass hb]
  generalize className.toList ++ ['_'] = head at hroom ⊢
  rw [List.take_append, List.take_append, hroom, List.append_cancel_left_eq]

/-! ### Lines -/

theorem toList_edgeLine (className a b : String) :
    (edgeLine className (a, b)).toList
      = ([' ', ' '] ++ (nodeId (label className a)).toList ++ ['['])
        ++ '"' :: ((label className a).toList ++ '"' ::
          (("] --> ".toList ++ (nodeId (label className b)).toList ++ ['['])
            ++ '"' :: ((label className b).toList ++ ['"', ']']))) := by
  simp [edgeLine, label]

/-- Where the quotes stand tells what is between them. -/
theorem between_quotes {head head' text text' rest rest' : List Char} (hhead : '"' ∉ head)
    (hhead' : '"' ∉ head') (htext : '"' ∉ text) (htext' : '"' ∉ text')
    (h : head ++ '"' :: (text ++ '"' :: rest) = head' ++ '"' :: (text' ++ '"' :: rest')) :
    text = text' ∧ rest = rest' := by
  obtain ⟨-, h⟩ := Chars.cut_at hhead hhead' h
  exact Chars.cut_at htext htext' h

theorem nodeId_madeOf (hclass : MadeOf isWord className) (hmethod : MadeOf isWord method) :
    MadeOf isWord (nodeId (label className method)) := by
  rw [MadeOf, toList_nodeId hclass hmethod]
  constructor
  · simp
  · intro c hc
    rcases List.mem_append.mp (List.mem_of_mem_take hc) with hc | hc
    · rcases List.mem_append.mp hc with hc | hc
      · exact hclass.2 c hc
      · rw [List.mem_singleton.mp hc]
        decide
    · exact hmethod.2 c hc

theorem label_madeOf (hclass : MadeOf isWord className) (hmethod : MadeOf isWord method) :
    MadeOf isDottedChar (label className method) := by
  rw [MadeOf, toList_label]
  refine ⟨by simp, ?_⟩
  intro c hc
  rw [isDottedChar, Bool.or_eq_true, beq_iff_eq]
  rcases List.mem_append.mp hc with hc | hc
  · exact .inl (hclass.2 c hc)
  · rcases List.mem_cons.mp hc with hc | hc
    · exact .inr hc
    · exact .inl (hmethod.2 c hc)

/-- The line of an edge tells the edge, whatever its identifiers have lost: the labels are whole. -/
theorem edgeLine_inj {a' b' : String} (hclass : MadeOf isWord className) (ha : MadeOf isWord a)
    (hb : MadeOf isWord b) (ha' : MadeOf isWord a') (hb' : MadeOf isWord b')
    (h : edgeLine className (a, b) = edgeLine className (a', b')) : (a, b) = (a', b') := by
  have hid {method : String} (hm : MadeOf isWord method) :
      '"' ∉ (nodeId (label className method)).toList :=
    (nodeId_madeOf hclass hm).not_mem (by decide)
  have hlabel {method : String} (hm : MadeOf isWord method) :
      '"' ∉ (label className method).toList := (label_madeOf hclass hm).not_mem (by decide)
  have hmethod {m m' : String} (heq : (label className m).toList = (label className m').toList) :
      m = m' := by
    rw [toList_label, toList_label, List.append_cancel_left_eq] at heq
    exact String.toList_inj.mp (List.cons.inj heq).2
  have hchars := congrArg String.toList h
  rw [toList_edgeLine, toList_edgeLine] at hchars
  obtain ⟨hfirst, hchars⟩ := between_quotes (by simp [hid ha]) (by simp [hid ha']) (hlabel ha)
    (hlabel ha') hchars
  obtain ⟨hsecond, -⟩ := between_quotes (by simp [hid hb]) (by simp [hid hb']) (hlabel hb)
    (hlabel hb') hchars
  rw [hmethod hfirst, hmethod hsecond]

theorem newline_notMem_edgeLine (hclass : MadeOf isWord className) (ha : MadeOf isWord a)
    (hb : MadeOf isWord b) : '\n' ∉ (edgeLine className (a, b)).toList := by
  have hid {method : String} (hm : MadeOf isWord method) :
      '\n' ∉ (nodeId (label className method)).toList :=
    (nodeId_madeOf hclass hm).not_mem (by decide)
  have hlabel {method : String} (hm : MadeOf isWord method) :
      '\n' ∉ (label className method).toList := (label_madeOf hclass hm).not_mem (by decide)
  rw [toList_edgeLine]
  simp [hid ha, hid hb, hlabel ha, hlabel hb]

/-- A graph between words: its class and the ends of its edges. -/
structure WellNamed (g : CallGraph) : Prop where
  className : MadeOf isWord g.className
  edge : ∀ e ∈ g.edges, MadeOf isWord e.1 ∧ MadeOf isWord e.2

theorem WellNamed.splitOn_mermaid (h : g.WellNamed) :
    Text.splitOn g.mermaid "\n"
      = ["```mermaid", "graph TD"] ++ g.edges.map (edgeLine g.className) ++ ["```"] := by
  refine Text.lines_join ?_ (by simp)
  intro line hline
  simp only [List.mem_append, List.mem_cons, List.not_mem_nil, or_false, List.mem_map] at hline
  rcases hline with ((rfl | rfl) | ⟨e, he, rfl⟩) | rfl
  · decide
  · decide
  · exact newline_notMem_edgeLine h.className (h.edge e he).1 (h.edge e he).2
  · decide

/-- An edge is drawn as often as it is listed. -/
theorem WellNamed.count_edgeLine (h : g.WellNamed) {e : String × String} (he : e ∈ g.edges) :
    (Text.splitOn g.mermaid "\n").count (edgeLine g.className e) = g.edges.count e := by
  have hblank : (edgeLine g.className e).toList.head? = some ' ' := by
    rw [toList_edgeLine]
    rfl
  have hother {line : String} (hline : line.toList.head? ≠ some ' ') :
      edgeLine g.className e ≠ line := by
    rintro rfl
    exact hline hblank
  have hframe : (edgeLine g.className e) ∉ ["```mermaid", "graph TD"] ∧
      (edgeLine g.className e) ∉ ["```"] := by
    simp only [List.mem_cons, List.not_mem_nil, or_false, not_or]
    exact ⟨⟨hother (by decide), hother (by decide)⟩, hother (by decide)⟩
  have hlines : (g.edges.map (edgeLine g.className)).count (edgeLine g.className e)
      = g.edges.count e := by
    rw [List.count, List.count, List.countP_map]
    apply List.countP_congr
    intro e' he'
    simp only [Function.comp_apply, beq_iff_eq]
    constructor
    · intro heq
      exact edgeLine_inj h.className (h.edge e' he').1 (h.edge e' he').2 (h.edge e he).1
        (h.edge e he).2 heq
    · rintro rfl
      rfl
  rw [h.splitOn_mermaid, List.count_append, List.count_append, hlines,
    List.count_eq_zero_of_not_mem hframe.1, List.count_eq_zero_of_not_mem hframe.2]
  omega

/-! ### Classes of a source -/

theorem mem_ofSource {code : List Char} (h : g ∈ ofSource code) :
    ∃ m ∈ CSharp.classPattern.findAll code, g.className = m.get 1 ∧
      g.edges = edgesOf (methodsIn g.className (bodyOf code m)) := by
  obtain ⟨m, hm, rfl⟩ := List.mem_map.mp (List.mem_filter.mp h).1
  exact ⟨m, hm, rfl, rfl⟩

/-- **What is drawn for a class.**  Every graph of a source belongs to one of its classes.  With the
methods that are found in the body of that class:

* a pair is listed as often as there are methods of the caller's name that call the callee, so no
  pair is listed twice exactly if no two overloads call the same method;
* two methods share an identifier exactly if they agree in the characters that fit, behind the
  class and a point, into fifty;
* the drawing has one line for each listed pair, and equal lines for equal pairs only. -/
theorem drawn_calls (code : List Char) (g : CallGraph) (hg : g ∈ ofSource code) :
    ∃ m ∈ CSharp.classPattern.findAll code, g.className = m.get 1 ∧
      (∀ caller callee, g.edges.count (caller, callee)
        = callers (methodsIn g.className (bodyOf code m)) caller callee) ∧
      (g.edges.Nodup ↔ ∀ caller callee,
        callers (methodsIn g.className (bodyOf code m)) caller callee ≤ 1) ∧
      (∀ a ∈ (methodsIn g.className (bodyOf code m)).map (·.name),
        ∀ b ∈ (methodsIn g.className (bodyOf code m)).map (·.name),
          (nodeId (label g.className a) = nodeId (label g.className b) ↔
            a.toList.take (49 - g.className.toList.length)
              = b.toList.take (49 - g.className.toList.length))) ∧
      Text.splitOn g.mermaid "\n"
        = ["```mermaid", "graph TD"] ++ g.edges.map (edgeLine g.className) ++ ["```"] ∧
      ∀ e ∈ g.edges,
        (Text.splitOn g.mermaid "\n").count (edgeLine g.className e) = g.edges.count e := by
  obtain ⟨m, hm, hclass, hedges⟩ := mem_ofSource hg
  have hnamed : g.WellNamed := by
    refine ⟨hclass ▸ className_madeOf hm, ?_⟩
    intro e he
    rw [hedges] at he
    obtain ⟨hcaller, hcallee⟩ := mem_names_of_mem_edgesOf he
    exact ⟨methodsIn_madeOf hcaller, methodsIn_madeOf hcallee⟩
  refine ⟨m, hm, hclass, ?_, ?_, ?_, hnamed.splitOn_mermaid, fun e he => hnamed.count_edgeLine he⟩
  · intro caller callee
    rw [hedges, count_edgesOf]
  · rw [hedges, nodup_edgesOf_iff]
  · intro a ha b hb
    exact nodeId_eq_iff hnamed.className (methodsIn_madeOf ha) (methodsIn_madeOf hb)

/-- A class with two methods of one name that call the same method. -/
def withOverloads : List Char :=
  "class A \x7b void F() \x7b G(); \x7d void F(int x) \x7b G(); \x7d void G() \x7b \x7d \x7d".toList

/-- A class whose name takes up all the room in an identifier. -/
def withLongName : List Char :=
  "class ".toList ++ List.replicate 50 'A' ++
    " \x7b void F() \x7b G(); \x7d void G() \x7b \x7d \x7d".toList

theorem ofSource_withOverloads :
    ∃ g, ofSource withOverloads = [g] ∧ g.className = "A" ∧ g.edges = [("F", "G"), ("F", "G")] := by
  have hgraphs : (ofSource withOverloads).map (fun g => (g.className, g.edges))
      = [("A", [("F", "G"), ("F", "G")])] := by
    delta ofSource edgesOf callsIn Text.sortDistinct
    rw [Text.sort_eq_insertionSort]
    decide
  obtain ⟨g, hg, heq⟩ := List.map_eq_singleton_iff.mp hgraphs
  exact ⟨g, hg, (Prod.mk.inj heq).1, (Prod.mk.inj heq).2⟩

theorem overloads_listed : ∃ g ∈ ofSource withOverloads,
    ("F", "G") ∈ g.edges ∧ g.edges.count ("F", "G") = 2 ∧
      (Text.splitOn g.mermaid "\n").count (edgeLine g.className ("F", "G")) = 2 := by
  obtain ⟨g, hgraphs, -, hedges⟩ := ofSource_withOverloads
  have hg : g ∈ ofSource withOverloads := by
    rw [hgraphs]
    exact List.mem_singleton_self g
  have he : ("F", "G") ∈ g.edges := by
    rw [hedges]
    exact List.mem_cons_self
  have hcount : g.edges.count ("F", "G") = 2 := by
    rw [hedges]
    decide
  obtain ⟨m, -, -, -, -, -, -, hlines⟩ := drawn_calls withOverloads g hg
  exact ⟨g, hg, he, hcount, (hlines _ he).trans hcount⟩

/-- **Calls that are not drawn faithfully.**  Two overloads that make the same call give a repeated
pair, and behind a class name of fifty characters all methods have one identifier. -/
theorem overloads_drawn_twice :
    (∃ g ∈ ofSource withOverloads, ¬ g.edges.Nodup) ∧
      ∃ g ∈ ofSource withLongName, ∃ e ∈ g.edges, e.1 ≠ e.2 ∧
        nodeId (label g.className e.1) = nodeId (label g.className e.2) := by
  constructor
  · obtain ⟨g, hgraphs, -, hedges⟩ := ofSource_withOverloads
    refine ⟨g, by rw [hgraphs]; exact List.mem_singleton_self g, ?_⟩
    rw [hedges]
    decide
  · have hgraphs : (ofSource withLongName).map (fun g => (g.className, g.edges))
        = [(String.ofList (List.replicate 50 'A'), [("F", "G")])] := by
      delta ofSource edgesOf callsIn Text.sortDistinct
      rw [Text.sort_eq_insertionSort]
      decide
    obtain ⟨g, hg, heq⟩ := List.map_eq_singleton_iff.mp hgraphs
    obtain ⟨hclass, hedges⟩ := Prod.mk.inj heq
    refine ⟨g, by rw [hg]; exact List.mem_singleton_self g, ("F", "G"), ?_, by decide, ?_⟩
    · rw [hedges]
      exact List.mem_singleton_self _
    · rw [hclass]
      decide

end CallGraph

end CodeScribe
