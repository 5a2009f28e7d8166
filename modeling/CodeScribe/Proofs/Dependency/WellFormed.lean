import CodeScribe.Analysis.Dependency.Export
import CodeScribe.Proofs.Table
import Mathlib.Data.List.Nodup

/-!
# The invariant of dependency graphs

A graph is built by passing over the files twice: the first pass makes the index, the second one
enters the imports of each file.  Entering an import adds targets to one source or uses from
outside to it, and nothing else; this file turns that into an invariant of every graph of files.

* `Graph.mem_edges`, `Graph.WellFormed.target`, `Graph.WellFormed.targets_nodup` — what it says
  of the targets of a file.
-/

namespace CodeScribe.Dependency

/-! ### The index -/

theorem Index.names_add_nodup {ix : Index} (h : ix.files.names.Nodup) (path : String)
    (f : IndexedFile) : (ix.add path f).files.names.Nodup :=
  Table.nodup_names_alter h path _

/-- No path is indexed twice, however often it is handed in. -/
theorem Index.ofFiles_names_nodup (r : Readers) (files : List SourceFile) :
    (Index.ofFiles r files).files.names.Nodup := by
  rw [Index.ofFiles]
  refine List.foldlRecOn files _ (motive := fun ix : Index => ix.files.names.Nodup)
    List.Pairwise.nil ?_
  intro ix h f _
  split
  · exact Index.names_add_nodup h _ _
  · exact h

namespace Graph

variable {source : String}

/-! ### The invariant -/

/-- A row of the links: an indexed source, and an ascending list of other indexed files. -/
structure Row (paths : List String) (source : String) (ts : List String) : Prop where
  source_mem : source ∈ paths
  ne_nil : ts ≠ []
  sorted : ts.Pairwise (· < ·)
  target_mem : ∀ t ∈ ts, t ∈ paths
  target_ne : ∀ t ∈ ts, t ≠ source

/-- What every graph of files satisfies. -/
structure WellFormed (g : Graph) : Prop where
  paths_nodup : g.paths.Nodup
  links_nodup : g.links.names.Nodup
  external_nodup : g.external.names.Nodup
  row : ∀ e ∈ g.links, Row g.paths e.1 e.2
  external_mem : ∀ s ∈ g.external.names, s ∈ g.paths

theorem Row.insertText {paths ts : List String} {target : String} (h : Row paths source ts)
    (ht : target ∈ paths) (hne : target ≠ source) :
    Row paths source (Table.insertText target ts) where
  source_mem := h.source_mem
  ne_nil := Table.insertText_ne_nil target ts
  sorted := Table.sorted_insertText target h.sorted
  target_mem := by
    intro t hm
    rcases Table.mem_insertText.mp hm with hm | hm
    · exact hm ▸ ht
    · exact h.target_mem t hm
  target_ne := by
    intro t hm
    rcases Table.mem_insertText.mp hm with hm | hm
    · exact hm ▸ hne
    · exact h.target_ne t hm

theorem Row.singleton {paths : List String} {target : String} (hs : source ∈ paths)
    (ht : target ∈ paths) (hne : target ≠ source) : Row paths source [target] where
  source_mem := hs
  ne_nil := List.cons_ne_nil _ _
  sorted := List.pairwise_singleton _ _
  target_mem := by
    intro t hm
    exact List.mem_singleton.mp hm ▸ ht
  target_ne := by
    intro t hm
    exact List.mem_singleton.mp hm ▸ hne

/-! ### Entering imports -/

theorem WellFormed.link {g : Graph} (h : g.WellFormed) {target : String} (hs : source ∈ g.paths)
    (ht : target ∈ g.paths) (hne : target ≠ source) :
    WellFormed { g with links := g.links.addText source target } where
  paths_nodup := h.paths_nodup
  links_nodup := Table.nodup_names_alter h.links_nodup source _
  external_nodup := h.external_nodup
  row := Table.forall_alter h.row (Row.singleton hs ht hne) fun _ hr => hr.insertText ht hne
  external_mem := h.external_mem

theorem WellFormed.linkAll {g : Graph} (h : g.WellFormed) (hs : source ∈ g.paths)
    {targets : List String} (ht : ∀ t ∈ targets, t ∈ g.paths ∧ t ≠ source) :
    WellFormed { g with links := targets.foldl (fun ls t => ls.addText source t) g.links } := by
  induction targets generalizing g with
  | nil => exact h
  | cons t targets ih =>
    obtain ⟨hmem, hne⟩ := ht t List.mem_cons_self
    exact ih (h.link hs hmem hne) hs fun u hu => ht u (List.mem_cons_of_mem _ hu)

theorem WellFormed.useOutside {g : Graph} (h : g.WellFormed) (hs : source ∈ g.paths)
    (text : String) :
    WellFormed { g with external := g.external.addText source text } where
  paths_nodup := h.paths_nodup
  links_nodup := h.links_nodup
  external_nodup := Table.nodup_names_alter h.external_nodup source _
  row := h.row
  external_mem := by
    intro s hm
    rcases Table.mem_names_alter.mp hm with hm | hm
    · exact h.external_mem s hm
    · exact hm ▸ hs

@[simp] theorem addImport_index (language : Language) (source : String) (content : List Char)
    (g : Graph) (text : String) :
    (addImport language source content g text).index = g.index := by
  rw [addImport]
  split
  · rfl
  · split <;> rfl

/-- Entering an import of an indexed file keeps the invariant: what it stands for is filtered by
the index before it is linked. -/
theorem WellFormed.addImport {g : Graph} (h : g.WellFormed) (language : Language)
    (hs : source ∈ g.paths) (content : List Char) (text : String) :
    (addImport language source content g text).WellFormed := by
  rw [Graph.addImport]
  split
  · exact h
  · split
    · exact h.useOutside hs text
    · apply h.linkAll hs
      intro t ht
      obtain ⟨-, hin⟩ := List.mem_filter.mp ht
      rw [Bool.and_eq_true, Table.has_iff, bne_iff_ne] at hin
      exact hin

theorem WellFormed.addImports {g : Graph} (h : g.WellFormed) (language : Language)
    (hs : source ∈ g.paths) (content : List Char) (imports : List String) :
    (imports.foldl (Graph.addImport language source content) g).WellFormed := by
  induction imports generalizing g with
  | nil => exact h
  | cons text imports ih =>
    have hs' : source ∈ (Graph.addImport language source content g text).paths := by
      rw [paths, addImport_index]
      exact hs
    exact ih (h.addImport language hs content text) hs'

/-- Entering the imports of a file keeps the invariant; only an indexed file enters any. -/
theorem WellFormed.addFile {g : Graph} (h : g.WellFormed) (r : Readers) (f : SourceFile) :
    (addFile r g f).WellFormed := by
  rw [Graph.addFile]
  split
  · rename_i language entry _ hentry
    apply h.addImports language
    apply Table.get?_isSome.mp
    rw [hentry]
    rfl
  · exact h

theorem wellFormed_ofFiles (r : Readers) (files : List SourceFile) :
    (ofFiles r files).WellFormed := by
  rw [ofFiles]
  refine List.foldlRecOn files _ (motive := WellFormed) ?_ ?_
  · exact
      { paths_nodup := Index.ofFiles_names_nodup r files
        links_nodup := List.Pairwise.nil
        external_nodup := List.Pairwise.nil
        row := by
          intro e he
          cases he
        external_mem := by
          intro s hs
          cases hs }
  · intro g hg f _
    exact hg.addFile r f

/-! ### Rows and targets -/

variable {g : Graph}

theorem mem_edges (h : g.WellFormed) {target : String} :
    (source, target) ∈ g.edges ↔ target ∈ g.targets source := by
  rw [edges, List.mem_flatMap]
  constructor
  · rintro ⟨⟨s, ts⟩, hmem, ht⟩
    obtain ⟨t, ht, heq⟩ := List.mem_map.mp ht
    cases heq
    rw [targets, Table.listOf_of_mem h.links_nodup hmem]
    exact ht
  · intro ht
    obtain ⟨ts, hmem, ht, -⟩ := Table.mem_listOf ht
    exact ⟨(source, ts), hmem, List.mem_map_of_mem ht⟩

theorem WellFormed.targets_nodup (h : g.WellFormed) (source : String) :
    (g.targets source).Nodup := by
  rw [targets, Table.listOf]
  cases hg : g.links.get? source with
  | none => exact List.Pairwise.nil
  | some ts => exact (h.row _ (Table.mem_of_get? hg)).sorted.imp fun hlt => ne_of_lt hlt

/-- Everything a target satisfies, from the row it stands in. -/
theorem WellFormed.target (h : g.WellFormed) {target : String} (ht : target ∈ g.targets source) :
    source ∈ g.paths ∧ target ∈ g.paths ∧ target ≠ source := by
  obtain ⟨ts, hmem, ht, -⟩ := Table.mem_listOf ht
  have hrow := h.row _ hmem
  exact ⟨hrow.source_mem, hrow.target_mem _ ht, hrow.target_ne _ ht⟩

end Graph

end CodeScribe.Dependency
