import CodeScribe.Proofs.Dependency.WellFormed
import Mathlib.Algebra.BigOperators.Ring.Finset

/-!
# Counting the edges of a dependency graph

An edge is entered once, under its source.  Reports count it three times over: among the
dependencies of its source, among the dependents of its target, and in the list of edges.  This
file shows that the three counts agree.

* `Graph.reported_counts_agree` — the graph of any files, as it is reported.
-/

namespace CodeScribe.Dependency.Graph

/-! ### Counting by keys -/

theorem sum_indicator {β : Type} (p : β → Bool) (l : List β) :
    (l.map fun a => if p a then 1 else 0).sum = l.countP p := by
  induction l with
  | nil => rfl
  | cons a l ih => rw [List.map_cons, List.sum_cons, ih, List.countP_cons, Nat.add_comm]

theorem countP_or {β : Type} {p q : β → Bool} (l : List β)
    (h : ∀ a, p a = true → q a = false) :
    l.countP (fun a => p a || q a) = l.countP p + l.countP q := by
  induction l with
  | nil => rfl
  | cons a l ih =>
    rw [List.countP_cons, List.countP_cons, List.countP_cons, ih]
    cases hp : p a with
    | false => simp [Nat.add_assoc]
    | true =>
      simp [h a hp]
      omega

/-- Items sorted by a key: the numbers of items with each key add up to the number of items whose
key is listed. -/
theorem sum_countP_keys {β : Type} (f : β → String) (xs : List β) {keys : List String}
    (hnd : keys.Nodup) :
    (keys.map fun k => xs.countP (f · == k)).sum = xs.countP fun x => keys.contains (f x) := by
  induction keys with
  | nil => simp
  | cons k keys ih =>
    obtain ⟨hk, hnd⟩ := List.nodup_cons.mp hnd
    have hdisj : ∀ x, (f x == k) = true → keys.contains (f x) = false := by
      intro x hx
      rw [beq_iff_eq.mp hx]
      simpa using hk
    rw [List.map_cons, List.sum_cons, ih hnd, ← countP_or xs hdisj]
    simp only [List.contains_cons]

variable {g : Graph}

/-! ### Edges from both ends -/

/-- Every edge stands once: rows have different sources, and no row repeats a target. -/
theorem WellFormed.edges_nodup (h : g.WellFormed) : g.edges.Nodup := by
  rw [edges, List.nodup_flatMap]
  constructor
  · intro e he
    have hts : e.2.Nodup := (h.row e he).sorted.imp fun hlt => ne_of_lt hlt
    exact hts.map fun a b hab => (Prod.mk.inj hab).2
  · have hnames : g.links.Pairwise fun a b => a.1 ≠ b.1 := List.pairwise_map.mp h.links_nodup
    refine hnames.imp ?_
    intro a b hab e hea heb
    obtain ⟨t, -, rfl⟩ := List.mem_map.mp hea
    obtain ⟨u, -, hu⟩ := List.mem_map.mp heb
    exact hab (Prod.mk.inj hu).1.symm

theorem length_edges : g.edges.length = g.links.total := by
  rw [edges, List.length_flatMap, Table.total_eq_sum]
  simp only [List.length_map]

/-- The edges that start at a file are as many as its targets. -/
theorem countP_source (h : g.WellFormed) (path : String) :
    g.edges.countP (·.1 == path) = (g.targets path).length := by
  rw [edges, List.countP_flatMap, targets, ← Table.sum_length_of_name h.links_nodup path]
  congr 1
  apply List.map_congr_left
  intro e _
  rw [Function.comp_apply, List.countP_map]
  by_cases he : e.1 = path
  · simp [Function.comp_def, he]
  · simp [Function.comp_def, he]

/-- The edges that end at a file are as many as the files that depend on it. -/
theorem countP_target (h : g.WellFormed) (path : String) :
    g.edges.countP (·.2 == path) = g.dependents path := by
  rw [edges, List.countP_flatMap, dependents]
  have hrow : ∀ e ∈ g.links, e.2.countP (· == path) = if e.2.contains path then 1 else 0 := by
    intro e he
    have hts : e.2.Nodup := (h.row e he).sorted.imp fun hlt => ne_of_lt hlt
    rw [← List.count_eq_countP', hts.count]
    simp
  rw [← sum_indicator]
  congr 1
  apply List.map_congr_left
  intro e he
  rw [Function.comp_apply, List.countP_map]
  exact hrow e he

/-- Every edge is counted at exactly one indexed file, whichever end is looked at. -/
theorem sum_countP_paths (h : g.WellFormed) (f : String × String → String)
    (hf : ∀ e ∈ g.edges, f e ∈ g.paths) :
    (g.paths.map fun p => g.edges.countP (f · == p)).sum = g.edges.length := by
  rw [sum_countP_keys f g.edges h.paths_nodup, List.countP_eq_length]
  intro e he
  exact List.contains_iff_mem.mpr (hf e he)

theorem sum_dependencies (h : g.WellFormed) :
    (g.paths.map fun p => (g.coupling p).dependencies).sum = g.edges.length := by
  rw [← sum_countP_paths h (·.1) fun e he => (h.target ((mem_edges h).mp he)).1]
  simp only [countP_source h]
  rfl

theorem sum_dependents (h : g.WellFormed) :
    (g.paths.map fun p => (g.coupling p).dependents).sum = g.edges.length := by
  rw [← sum_countP_paths h (·.2) fun e he => (h.target ((mem_edges h).mp he)).2.1]
  simp only [countP_target h]
  rfl

/-! ### The reported data -/

/-- The part of reported data under a key, nothing if there is none. -/
def part (v : Value) (key : String) : Value := (v.get? key).getD .null

/-- The whole number of reported data under a key, zero if there is none. -/
def number (v : Value) (key : String) : Int := (part v key).int?.getD 0

def ends (v : Value) : Option String × Option String :=
  ((part v "source").text?, (part v "target").text?)

def reportedNodes (analysis : Value) : List Value :=
  (part (part analysis "dependency_map") "nodes").items

def reportedEdges (analysis : Value) : List Value :=
  (part (part analysis "dependency_map") "edges").items

theorem ends_reportedEdges (g : Graph) :
    (reportedEdges g.toValue).map ends = g.edges.map fun e => (some e.1, some e.2) := by
  show (g.edges.map _).map ends = _
  rw [List.map_map]
  rfl

theorem number_reportedNodes (g : Graph) (key : String) (count : Coupling → Nat)
    (h : ∀ path f, number (g.nodeValue path f) key = count (g.coupling path)) :
    ((reportedNodes g.toValue).map (number · key)).sum
      = (g.paths.map fun p => count (g.coupling p)).sum := by
  show ((g.index.files.map _).map (number · key)).sum = _
  rw [List.map_map, paths, Table.names, List.map_map]
  rw [Nat.cast_list_sum, List.map_map]
  simp only [Function.comp_def, h]

/-- **The reported graph of any files.**  Sources, targets and users of outside names are indexed,
no file depends on itself and no target list is empty; every edge is reported once; and the
counts of the nodes add up to the number of edges from either end. -/
theorem reported_counts_agree (r : Readers) (files : List SourceFile) :
    let g := ofFiles r files
    let nodes := reportedNodes g.toValue
    let edges := reportedEdges g.toValue
    (∀ s ts, (s, ts) ∈ g.links → s ∈ g.paths ∧ ts ≠ [] ∧ ∀ t ∈ ts, t ∈ g.paths ∧ t ≠ s) ∧
      (∀ s ∈ g.external.names, s ∈ g.paths) ∧
      (edges.map ends).Nodup ∧
      (∀ s t, (some s, some t) ∈ edges.map ends ↔ t ∈ g.targets s) ∧
      (nodes.map (number · "dependency_count")).sum = edges.length ∧
      (nodes.map (number · "dependent_count")).sum = edges.length ∧
      number g.toValue "dependency_count" = edges.length := by
  intro g nodes edges
  have h : g.WellFormed := wellFormed_ofFiles r files
  have hends : edges.map ends = g.edges.map fun e => (some e.1, some e.2) := ends_reportedEdges g
  have hlen : edges.length = g.edges.length := by
    rw [← List.length_map ends, hends, List.length_map]
  have hinj : Function.Injective fun e : String × String => (some e.1, some e.2) := by
    intro a b hab
    obtain ⟨h1, h2⟩ := Prod.mk.inj hab
    exact Prod.ext (Option.some.inj h1) (Option.some.inj h2)
  refine ⟨?_, h.external_mem, ?_, ?_, ?_, ?_, ?_⟩
  · intro s ts hmem
    have hrow := h.row _ hmem
    exact ⟨hrow.source_mem, hrow.ne_nil, fun t ht => ⟨hrow.target_mem t ht, hrow.target_ne t ht⟩⟩
  · rw [hends]
    exact h.edges_nodup.map hinj
  · intro s t
    rw [hends, ← mem_edges h]
    exact List.mem_map_of_injective (a := (s, t)) hinj
  · rw [number_reportedNodes g _ Coupling.dependencies fun _ _ => rfl, sum_dependencies h, hlen]
  · rw [number_reportedNodes g _ Coupling.dependents fun _ _ => rfl, sum_dependents h, hlen]
  · rw [hlen, length_edges]
    rfl

end CodeScribe.Dependency.Graph
