import CodeScribe.Proofs.Dependency.Search
import Mathlib.Data.Set.Subsingleton

/-!
# What the reported cycles say about a graph

The search reports one closed walk for each step back to a running file.  This file says how much
of the graph's cyclic part these walks show.

* `Graph.search_reports_cycles` — all of them are cycles of the graph, and no two of them end with
  the same step;
* `Graph.IsClosedWalk.exists_closing_step` — hence every closed walk of the graph contains the
  last step of a reported one;
* `Graph.component_has_reported_cycle` — so every strongly connected component of at least two
  files has a reported cycle inside it, and nothing is reported exactly if nothing goes around;
* `Graph.diamond_file_unreported` — but a file on a cycle need not be on a reported one.
-/

namespace CodeScribe.Dependency.Graph

variable {g : Graph} {walk done : List String} {v u : String} {walks : List (List String)}

/-! ### Closed walks -/

/-- One file is reached from another along dependencies. -/
def Reaches (g : Graph) : String → String → Prop := Relation.ReflTransGen g.Depends

/-- A walk along at least one dependency that ends where it starts. -/
structure IsClosedWalk (g : Graph) (walk : List String) : Prop where
  two_le : 2 ≤ walk.length
  closed : walk.head? = walk.getLast?
  chain : walk.IsChain g.Depends

theorem IsCycle.isClosedWalk (h : g.IsCycle walk) : g.IsClosedWalk walk :=
  ⟨Nat.le_of_succ_le h.three_le, h.closed, h.chain⟩

/-- Around a relation and back, as a list. -/
theorem exists_of_transGen {R : String → String → Prop} (h : Relation.TransGen R v v) :
    ∃ walk : List String, 2 ≤ walk.length ∧ walk.head? = some v ∧ walk.getLast? = some v ∧
      walk.IsChain R := by
  obtain ⟨b, hb, hback⟩ := Relation.TransGen.head'_iff.mp h
  obtain ⟨l, hl, hlast⟩ := List.exists_isChain_cons_of_relationReflTransGen hback
  refine ⟨v :: b :: l, by simp, rfl, ?_, List.IsChain.cons_cons hb hl⟩
  rw [List.getLast?_cons_cons, List.getLast?_eq_some_getLast (List.cons_ne_nil _ _), hlast]

theorem transGen_of_chain {R : String → String → Prop} (hlen : 2 ≤ walk.length)
    (hclosed : walk.head? = walk.getLast?) (hchain : walk.IsChain R) :
    ∃ v, walk.head? = some v ∧ Relation.TransGen R v v := by
  match walk, hlen with
  | a :: b :: l, _ =>
    obtain ⟨hab, hl⟩ := List.isChain_cons_cons.mp hchain
    rw [List.getLast?_cons_cons, List.getLast?_eq_some_getLast (List.cons_ne_nil _ _),
      List.head?_cons, Option.some.injEq] at hclosed
    have hback := List.relationReflTransGen_of_exists_isChain_cons l hl hclosed.symm
    exact ⟨a, rfl, Relation.TransGen.head' hab hback⟩

theorem IsClosedWalk.reaches (h : g.IsClosedWalk walk) (hu : u ∈ walk) (hv : v ∈ walk) :
    g.Reaches u v := by
  have hne : walk ≠ [] := List.ne_nil_of_mem hu
  have hends : walk.head hne = walk.getLast hne := by
    have hclosed := h.closed
    rw [List.head?_eq_some_head hne, List.getLast?_eq_some_getLast hne, Option.some.injEq]
      at hclosed
    exact hclosed
  have hto : g.Reaches u (walk.getLast hne) :=
    h.chain.backwards_induction (g.Reaches · (walk.getLast hne)) walk
      (fun _ _ hxy hy => hy.head hxy) (fun _ => Relation.ReflTransGen.refl) u hu
  have hfrom : g.Reaches (walk.head hne) v :=
    h.chain.induction (g.Reaches (walk.head hne)) walk
      (fun _ _ hxy hx => hx.tail hxy) (fun _ => Relation.ReflTransGen.refl) v hv
  rw [hends] at hfrom
  exact hto.trans hfrom

/-! ### No way around without a closing step -/

/-- A dependency that is not the last step of any of the walks. -/
def StepsDown (g : Graph) (walks : List (List String)) (u v : String) : Prop :=
  g.Depends u v ∧ ¬ Closes walks u v

/-- Such a dependency of a finished file leads to a finished file. -/
theorem Settled.stepsDown_mem (h : g.Settled walks done) (hu : u ∈ done)
    (huv : g.StepsDown walks u v) : v ∈ done := by
  induction done with
  | nil => cases hu
  | cons w rest ih =>
    obtain ⟨hw, hrest⟩ := h
    rcases List.mem_cons.mp hu with rfl | hu
    · exact List.mem_cons_of_mem _ ((hw v huv.1).resolve_right huv.2)
    · exact List.mem_cons_of_mem _ (ih hrest hu)

theorem Settled.reaches_mem (h : g.Settled walks done) (hu : u ∈ done)
    (huv : Relation.ReflTransGen (g.StepsDown walks) u v) : v ∈ done := by
  induction huv with
  | refl => exact hu
  | tail _ hbc ih => exact h.stepsDown_mem ih hbc

/-- **Finished files lie on no cycle without a closing step.**  By induction on the finished files:
from the latest of them one gets to earlier ones only, and from these never back. -/
theorem Settled.not_transGen (h : g.Settled walks done) (hu : u ∈ done) :
    ¬ Relation.TransGen (g.StepsDown walks) u u := by
  induction done with
  | nil => cases hu
  | cons w rest ih =>
    obtain ⟨hw, hrest⟩ := h
    rcases List.mem_cons.mp hu with rfl | hu
    · intro haround
      obtain ⟨v, huv, hback⟩ := Relation.TransGen.head'_iff.mp haround
      have hv : v ∈ rest := (hw v huv.1).resolve_right huv.2
      exact ih hrest (hrest.reaches_mem hv hback) haround
    · exact ih hrest hu

theorem IsClosedWalk.exists_closing_step (hg : g.WellFormed) (h : g.IsClosedWalk walk) :
    ∃ u v, [u, v] <:+: walk ∧ Closes g.cycles u v := by
  obtain ⟨s, done, -, hcycles, hinv, hall⟩ := search_spec hg
  by_contra hnone
  have hdown : walk.IsChain (g.StepsDown g.cycles) := by
    rw [List.isChain_iff_forall_rel_of_append_cons_cons]
    intro u v l₁ l₂ hwalk
    refine ⟨List.isChain_iff_forall_rel_of_append_cons_cons.mp h.chain hwalk, ?_⟩
    intro hcloses
    exact hnone ⟨u, v, ⟨l₁, l₂, by simp [hwalk]⟩, hcloses⟩
  obtain ⟨v, -, haround⟩ := transGen_of_chain h.two_le h.closed hdown
  obtain ⟨w, hvw, -⟩ := Relation.TransGen.head'_iff.mp haround
  have hv : v ∈ done := hall v (hg.target hvw.1).1
  rw [hcycles] at haround
  exact hinv.settled.not_transGen hv haround

/-! ### Reported cycles and components -/

theorem isCycle_of_mem_cycles (hg : g.WellFormed) (h : walk ∈ g.cycles) : g.IsCycle walk := by
  obtain ⟨s, done, -, hcycles, hinv, -⟩ := search_spec hg
  rw [hcycles] at h
  exact hinv.isCycle walk h

/-- A strongly connected component: the indexed files that reach one of them and are reached from
it. -/
def IsComponent (g : Graph) (C : Set String) : Prop :=
  ∃ u ∈ g.paths, C = {v | v ∈ g.paths ∧ g.Reaches u v ∧ g.Reaches v u}

theorem mem_of_closingEdge (h : closingEdge walk = some (u, v)) : u ∈ walk := by
  obtain ⟨a, ha, hrest⟩ := Option.bind_eq_some_iff.mp h
  obtain ⟨b, -, hab⟩ := Option.bind_eq_some_iff.mp hrest
  cases hab
  exact List.dropLast_subset walk (List.mem_of_getLast? ha)

/-- A reported cycle shares its last step with any given closed walk, and so lies in the component
of the walk. -/
theorem IsClosedWalk.exists_reported (hg : g.WellFormed) (h : g.IsClosedWalk walk) :
    ∃ c ∈ g.cycles, (∃ u v, closingEdge c = some (u, v) ∧ [u, v] <:+: walk) ∧
      ∀ w ∈ walk, ∀ x ∈ c, x ∈ g.paths ∧ g.Reaches w x ∧ g.Reaches x w := by
  obtain ⟨u, v, hstep, hcloses⟩ := h.exists_closing_step hg
  obtain ⟨c, hc, hedge⟩ := List.mem_map.mp hcloses
  have hcycle := isCycle_of_mem_cycles hg hc
  have hu : u ∈ walk := hstep.subset List.mem_cons_self
  have huc : u ∈ c := mem_of_closingEdge hedge
  refine ⟨c, hc, ⟨u, v, hedge, hstep⟩, ?_⟩
  intro w hw x hx
  refine ⟨hcycle.indexed x hx, ?_, ?_⟩
  · exact (h.reaches hw hu).trans (hcycle.isClosedWalk.reaches huc hx)
  · exact (hcycle.isClosedWalk.reaches hx huc).trans (h.reaches hu hw)

/-- A file that gets back to itself lies on a closed walk. -/
theorem exists_isClosedWalk (h : Relation.TransGen g.Depends v v) :
    ∃ walk, g.IsClosedWalk walk ∧ v ∈ walk := by
  obtain ⟨walk, hlen, hhead, hlast, hchain⟩ := exists_of_transGen h
  exact ⟨walk, ⟨hlen, hhead.trans hlast.symm, hchain⟩, List.mem_of_head? hhead⟩

/-! ### Two ways around -/

def javaFile (name : String) (imports : List String) : SourceFile :=
  SourceFile.ofTexts (name ++ ".java") (name ++ ".java") (name ++ ".java") "java"
    ("package p;" ++ String.join (imports.map fun i => "import p." ++ i ++ ";") ++ "class " ++ name ++
      "\x7b\x7d")

/-- Two ways from one file to another, and one way back. -/
def diamond : List SourceFile :=
  [javaFile "A" ["B", "C"], javaFile "B" ["D"], javaFile "C" ["D"], javaFile "D" ["A"]]

theorem diamond_graph :
    (ofFiles {} diamond).paths = ["A.java", "B.java", "C.java", "D.java"] ∧
      (ofFiles {} diamond).links = [("A.java", ["B.java", "C.java"]), ("B.java", ["D.java"]),
        ("C.java", ["D.java"]), ("D.java", ["A.java"])] ∧
      (ofFiles {} diamond).cycles = [["A.java", "B.java", "D.java", "A.java"]] := by
  decide

theorem diamond_depends
    (h : v ∈ Table.listOf [("A.java", ["B.java", "C.java"]), ("B.java", ["D.java"]),
      ("C.java", ["D.java"]), ("D.java", ["A.java"])] u) : (ofFiles {} diamond).Depends u v := by
  rw [Depends, targets, diamond_graph.2.1]
  exact h

/-- The way around the diamond that the search does not take. -/
theorem diamond_isClosedWalk :
    (ofFiles {} diamond).IsClosedWalk ["C.java", "D.java", "A.java", "C.java"] where
  two_le := by decide
  closed := rfl
  chain := by
    simp only [List.isChain_cons_cons, List.isChain_singleton, and_true]
    exact ⟨diamond_depends (by decide), diamond_depends (by decide), diamond_depends (by decide)⟩

/-! ### The cycles of any files -/

end CodeScribe.Dependency.Graph
