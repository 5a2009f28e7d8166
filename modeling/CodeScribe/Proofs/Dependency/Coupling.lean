import CodeScribe.Proofs.Dependency.Drawings

/-!
# Coupled files and files without edges

The coupling of a file adds the length of its own row of targets to the number of rows in which
the file stands.  The files with at least so many edges are sorted by that sum, and the files
without edges are found by a test of its two parts.  This file compares all of it with the edges
themselves, counted over the indexed files.

* `Graph.coupling_eq` — the coupling of a file is the pair of its degrees;
* `Graph.coupled_by_degree` — the two lists that any analysis leaves to be reported.
-/

namespace CodeScribe.Dependency.Graph

/-! ### Degrees -/

/-- The number of indexed files to which a file has an edge. -/
def outDegree (g : Graph) (path : String) : Nat := g.paths.countP fun t => (path, t) ∈ g.edges

/-- The number of indexed files that have an edge to a file. -/
def inDegree (g : Graph) (path : String) : Nat := g.paths.countP fun s => (s, path) ∈ g.edges

/-- The number of edges from and to a file. -/
def degree (g : Graph) (path : String) : Nat := g.outDegree path + g.inDegree path

variable {g : Graph}

/-- No target is listed twice and every target is indexed, so the targets can be counted in the
index. -/
theorem length_targets (h : g.WellFormed) (path : String) :
    (g.targets path).length = g.outDegree path := by
  rw [outDegree, List.countP_eq_length_filter]
  apply List.Perm.length_eq
  apply (List.perm_ext_iff_of_nodup (h.targets_nodup path) (h.paths_nodup.filter _)).mpr
  intro t
  rw [List.mem_filter, decide_eq_true_iff, mem_edges h]
  constructor
  · intro ht
    exact ⟨(h.target ht).2.1, ht⟩
  · rintro ⟨-, ht⟩
    exact ht

/-- Rows have different sources, all indexed, so the rows in which a file stands can be counted in
the index. -/
theorem dependents_eq_inDegree (h : g.WellFormed) (path : String) :
    g.dependents path = g.inDegree path := by
  have hrows : ((g.links.filter fun e => e.2.contains path).map (·.1)).Nodup :=
    h.links_nodup.sublist (List.filter_sublist.map _)
  rw [dependents, inDegree, List.countP_eq_length_filter, List.countP_eq_length_filter,
    ← List.length_map (·.1)]
  apply List.Perm.length_eq
  apply (List.perm_ext_iff_of_nodup hrows (h.paths_nodup.filter _)).mpr
  intro s
  rw [List.mem_filter, decide_eq_true_iff]
  constructor
  · intro hs
    obtain ⟨e, he, rfl⟩ := List.mem_map.mp hs
    obtain ⟨hlinks, hpath⟩ := List.mem_filter.mp he
    have hedge : (e.1, path) ∈ g.edges :=
      List.mem_flatMap.mpr ⟨e, hlinks, List.mem_map_of_mem (List.contains_iff_mem.mp hpath)⟩
    exact ⟨(h.row e hlinks).source_mem, hedge⟩
  · rintro ⟨-, hedge⟩
    obtain ⟨e, hlinks, hrow⟩ := List.mem_flatMap.mp hedge
    obtain ⟨t, ht, heq⟩ := List.mem_map.mp hrow
    obtain ⟨rfl, rfl⟩ := Prod.mk.inj heq
    have he : e ∈ g.links.filter fun e => e.2.contains t :=
      List.mem_filter.mpr ⟨hlinks, List.contains_iff_mem.mpr ht⟩
    exact List.mem_map_of_mem he

theorem coupling_eq (h : g.WellFormed) (path : String) :
    g.coupling path = ⟨path, g.outDegree path, g.inDegree path⟩ := by
  rw [coupling, length_targets h, dependents_eq_inDegree h]

theorem total_coupling (h : g.WellFormed) (path : String) :
    (g.coupling path).total = g.degree path := by
  rw [coupling_eq h]
  rfl

/-! ### Sorting by the total -/

theorem total_trans (a b c : Coupling) (hab : decide (b.total ≤ a.total) = true)
    (hbc : decide (c.total ≤ b.total) = true) : decide (c.total ≤ a.total) = true := by
  rw [decide_eq_true_eq] at hab hbc ⊢
  omega

theorem total_total (a b : Coupling) :
    (decide (b.total ≤ a.total) || decide (a.total ≤ b.total)) = true := by
  rw [Bool.or_eq_true, decide_eq_true_eq, decide_eq_true_eq]
  omega

theorem pairwise_mergeSort_total (cs : List Coupling) :
    (cs.mergeSort fun a b => b.total ≤ a.total).Pairwise fun a b => b.total ≤ a.total :=
  (List.pairwise_mergeSort total_trans total_total cs).imp of_decide_eq_true

/-- Sorting keeps the order among entries of one total: these are a sorted part of the list, which
the sorted list holds in the same order, and it holds no others. -/
theorem filter_mergeSort_of_total (cs : List Coupling) (total : Nat) :
    (cs.mergeSort fun a b => b.total ≤ a.total).filter (·.total == total)
      = cs.filter (·.total == total) := by
  have hequal : (cs.filter (·.total == total)).Pairwise
      fun a b => decide (b.total ≤ a.total) = true := by
    apply List.pairwise_of_forall_mem_list
    intro a ha b hb
    have hatotal : a.total = total := beq_iff_eq.mp (List.mem_filter.mp ha).2
    have hbtotal : b.total = total := beq_iff_eq.mp (List.mem_filter.mp hb).2
    rw [hatotal, hbtotal, decide_eq_true_eq]
  have hsub : (cs.filter (·.total == total)).Sublist
      (cs.mergeSort fun a b => b.total ≤ a.total) :=
    List.sublist_mergeSort total_trans total_total hequal List.filter_sublist
  have hkept : (cs.filter (·.total == total)).Sublist
      ((cs.mergeSort fun a b => b.total ≤ a.total).filter (·.total == total)) := by
    have := hsub.filter (·.total == total)
    rwa [List.filter_filter, funext fun c : Coupling => Bool.and_self (c.total == total)] at this
  refine (hkept.eq_of_length ?_).symm
  exact ((List.mergeSort_perm _ _).filter _).length_eq.symm

/-! ### The two lists -/

theorem map_file_filter (g : Graph) (keep : Coupling → Bool) :
    ((g.paths.map g.coupling).filter keep).map (·.file)
      = g.paths.filter fun p => keep (g.coupling p) := by
  rw [List.filter_map, List.map_map]
  exact List.map_id _

theorem mem_coupled {threshold : Int} {c : Coupling} :
    c ∈ g.coupled threshold ↔
      threshold ≤ c.total ∧ ∃ p ∈ g.paths, g.coupling p = c := by
  rw [coupled, List.mem_mergeSort, List.mem_filter, List.mem_map, decide_eq_true_iff, and_comm]

theorem total_of_mem_coupled (h : g.WellFormed) {threshold : Int} {c : Coupling}
    (hc : c ∈ g.coupled threshold) : c.total = g.degree c.file := by
  obtain ⟨-, p, -, rfl⟩ := mem_coupled.mp hc
  exact total_coupling h p

/-- The listed files are the indexed files with enough edges, in some order. -/
theorem perm_coupled (h : g.WellFormed) (threshold : Int) :
    ((g.coupled threshold).map (·.file)).Perm
      (g.paths.filter fun p => threshold ≤ g.degree p) := by
  have hfiles := map_file_filter g fun c => threshold ≤ c.total
  simp only [total_coupling h] at hfiles
  rw [← hfiles]
  exact (List.mergeSort_perm _ _).map _

/-- Among files with the same number of edges, the order is that of the index. -/
theorem filter_coupled_sublist (h : g.WellFormed) (threshold : Int) (edges : Nat) :
    (((g.coupled threshold).map (·.file)).filter (g.degree · == edges)).Sublist g.paths := by
  have htotal : ∀ c ∈ g.coupled threshold, (g.degree c.file == edges) = (c.total == edges) := by
    intro c hc
    rw [total_of_mem_coupled h hc]
  rw [List.filter_map, Function.comp_def, List.filter_congr htotal, coupled,
    filter_mergeSort_of_total, List.filter_filter, map_file_filter]
  exact List.filter_sublist

theorem orphans_eq (h : g.WellFormed) :
    g.orphans = g.paths.filter fun p => !decide ((1 : Int) ≤ g.degree p) := by
  rw [orphans]
  apply List.filter_congr
  intro p _
  rw [coupling_eq h, Bool.eq_iff_iff, Bool.and_eq_true, beq_iff_eq, beq_iff_eq, Bool.not_eq_true',
    decide_eq_false_iff_not]
  show g.outDegree p = 0 ∧ g.inDegree p = 0 ↔ ¬ (1 : Int) ≤ (g.outDegree p + g.inDegree p : Nat)
  omega

/-- Every indexed file either has an edge or is an orphan. -/
theorem perm_coupled_orphans (h : g.WellFormed) :
    ((g.coupled 1).map (·.file) ++ g.orphans).Perm g.paths := by
  rw [orphans_eq h]
  exact ((perm_coupled h 1).append_right _).trans (List.filter_append_perm _ _)

/-- **Coupled files and orphans.**  In the graph that any analysis leaves behind, and for any
threshold: every entry has the degrees of its file; the files listed are the indexed files with at
least so many edges, each once, those with most edges first and in the order of the index among
equals; and for the threshold one these and the orphans make up the index, which has no path
twice. -/
theorem coupled_by_degree (r : Readers) (files : List SourceFile) (threshold : Int) :
    (∀ c ∈ (leftBy r files).coupled threshold,
        c.dependencies = (leftBy r files).outDegree c.file ∧
        c.dependents = (leftBy r files).inDegree c.file) ∧
      (∀ p, p ∈ ((leftBy r files).coupled threshold).map (·.file) ↔
        p ∈ (leftBy r files).paths ∧ threshold ≤ (leftBy r files).degree p) ∧
      (((leftBy r files).coupled threshold).map (·.file)).Nodup ∧
      (((leftBy r files).coupled threshold).map (·.file)).Pairwise
        (fun p q => (leftBy r files).degree q ≤ (leftBy r files).degree p) ∧
      (∀ edges, ((((leftBy r files).coupled threshold).map (·.file)).filter
        ((leftBy r files).degree · == edges)).Sublist (leftBy r files).paths) ∧
      (leftBy r files).paths.Nodup ∧
      (((leftBy r files).coupled 1).map (·.file) ++ (leftBy r files).orphans).Perm
        (leftBy r files).paths := by
  have h := wellFormed_leftBy r files
  generalize leftBy r files = g at h ⊢
  have hperm := perm_coupled h threshold
  refine ⟨?_, ?_, ?_, ?_, filter_coupled_sublist h threshold, h.paths_nodup,
    perm_coupled_orphans h⟩
  · intro c hc
    obtain ⟨-, p, -, rfl⟩ := mem_coupled.mp hc
    rw [coupling_eq h]
    exact ⟨rfl, rfl⟩
  · intro p
    rw [hperm.mem_iff, List.mem_filter, decide_eq_true_iff]
  · exact hperm.nodup_iff.mpr (h.paths_nodup.filter _)
  · rw [List.pairwise_map]
    refine (pairwise_mergeSort_total _).imp_of_mem ?_
    intro a b ha hb hab
    rwa [total_of_mem_coupled h ha, total_of_mem_coupled h hb] at hab

end CodeScribe.Dependency.Graph
