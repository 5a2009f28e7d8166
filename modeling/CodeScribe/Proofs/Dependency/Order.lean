import CodeScribe.Proofs.Dependency.Counts
import CodeScribe.Proofs.Dependency.Edges

/-!
# The order of the files

Files come in one after the other, and tables remember the order.  This file shows that for files
with different paths nothing else does: another order gives the same entries under every name.

* `Graph.ofFiles_perm` — so the graphs of the same files agree.
-/

namespace CodeScribe.Dependency

open Text SourceFile

variable {r : Readers} {files files' : List SourceFile}

/-! ### Indexes -/

namespace Index

variable {ix ix' : Index}

/-- Two indexes with the same entries, up to the order of the files of a package. -/
structure Agree (ix ix' : Index) : Prop where
  files : ∀ path, ix.files.get? path = ix'.files.get? path
  types : ∀ name, ix.types.listOf name = ix'.types.listOf name
  packages : ∀ name, (ix.packages.listOf name).Perm (ix'.packages.listOf name)
  has_packages : ∀ name, ix.packages.has name = ix'.packages.has name

/-- The order of files with different paths does not show in the entries of their index. -/
theorem agree_of_perm (hnd : (files.map pathOf).Nodup) (hperm : files.Perm files') :
    Agree (ofFiles r files) (ofFiles r files') := by
  have hentries : (r.entries files).Perm (r.entries files') := hperm.filterMap _
  have hnd' : (files'.map pathOf).Nodup := (hperm.map pathOf).nodup hnd
  constructor
  · intro path
    rw [files_ofFiles hnd, files_ofFiles hnd']
    exact Table.get?_of_perm (hnd.sublist (r.names_entries_sublist files)) hentries path
  · intro name
    apply (ascending_types r files).listOf_eq (ascending_types r files')
    intro p
    simp only [mem_types, hentries.mem_iff]
  · intro name
    rw [listOf_packages, listOf_packages]
    exact (hentries.filter _).map _
  · intro name
    rw [Bool.eq_iff_iff, Index.has_packages, Index.has_packages]
    simp only [hentries.mem_iff]

theorem Agree.typeNames (h : Agree ix ix') : ix.typeNames = ix'.typeNames := by
  funext path
  rw [Index.typeNames, Index.typeNames, h.files]

theorem Agree.mem_resolveUsage (h : Agree ix ix') {name source v : String} {content : List Char} :
    v ∈ ix.resolveUsage name source content ↔ v ∈ ix'.resolveUsage name source content := by
  simp only [Index.mem_resolveUsage, (h.packages name).mem_iff, h.typeNames]

theorem Agree.filesNamed (h : Agree ix ix') : ix.filesNamed = ix'.filesNamed := by
  have htypes : ix.filesOfType = ix'.filesOfType := by
    funext name
    rw [filesOfType, filesOfType, h.types]
  funext name
  rw [Index.filesNamed, Index.filesNamed, htypes]

/-- An import stands for the same files: the search by ending, which goes by the order of the
names, does not decide. -/
theorem perm_resolveImport (h : Agree (ofFiles r files) (ofFiles r files'))
    (language : Option Language) (text : String) :
    ((ofFiles r files).resolveImport language text).Perm
      ((ofFiles r files').resolveImport language text) := by
  rw [resolveImport_eq, resolveImport_eq, h.filesNamed]
  split
  · split
    · exact (h.packages _).map _
    · exact .refl _
  · exact .refl _

end Index

/-! ### Graphs -/

namespace Graph

section Agree

variable (h : Index.Agree (Index.ofFiles r files) (Index.ofFiles r files'))
variable {language : Language} {source text v : String} {content : List Char}
include h

theorem byUsage_eq : (ofFiles r files).byUsage = (ofFiles r files').byUsage := by
  funext language text
  rw [byUsage, byUsage, ofFiles_index, ofFiles_index, h.has_packages]

theorem mem_resolve_iff :
    v ∈ (ofFiles r files).resolve language source content text ↔
      v ∈ (ofFiles r files').resolve language source content text := by
  rw [resolve, resolve, byUsage_eq h, ofFiles_index, ofFiles_index]
  split
  · exact h.mem_resolveUsage
  · have hfound := Index.perm_resolveImport h (some language) text
    -- a single file without a path is found in both orders or in none
    have hempty : (Index.ofFiles r files).resolveImport (some language) text = [""] ↔
        (Index.ofFiles r files').resolveImport (some language) text = [""] := by
      rw [← List.perm_singleton, ← List.perm_singleton]
      exact ⟨hfound.symm.trans, hfound.trans⟩
    simp only [beq_iff_eq, hempty]
    split
    · exact Iff.rfl
    · exact hfound.mem_iff

theorem shows_eq : Shows r (ofFiles r files) = Shows r (ofFiles r files') := by
  funext f language text
  simp only [Shows, importsOf, byUsage_eq h, ofFiles_index, h.files]

theorem mem_paths_iff : v ∈ (ofFiles r files).paths ↔ v ∈ (ofFiles r files').paths := by
  rw [paths, paths, ← Table.get?_isSome, ← Table.get?_isSome, ofFiles_index, ofFiles_index, h.files]

theorem mem_inside_congr :
    v ∈ (ofFiles r files).inside language source content text ↔
      v ∈ (ofFiles r files').inside language source content text := by
  simp only [mem_inside, mem_resolve_iff h, mem_paths_iff h]

theorem isOutside_iff :
    (ofFiles r files).IsOutside language source content text ↔
      (ofFiles r files').IsOutside language source content text := by
  simp only [IsOutside, ne_eq, List.eq_nil_iff_forall_not_mem, mem_resolve_iff h,
    mem_inside_congr h]

end Agree

/-! ### The two tables -/

theorem WellFormed.ascending_links {g : Graph} (h : g.WellFormed) : g.links.Ascending where
  names_nodup := h.links_nodup
  row e he := ⟨(h.row e he).ne_nil, (h.row e he).sorted⟩

theorem ascending_external_addImport {g : Graph} (h : g.external.Ascending) (language : Language)
    (source : String) (content : List Char) (text : String) :
    (addImport language source content g text).external.Ascending := by
  rw [addImport_eq]
  split
  · exact h
  · split
    · exact h.addText source text
    · exact h

/-- Lists of uses from outside are ascending and not empty, too. -/
theorem ascending_external (r : Readers) (files : List SourceFile) :
    (ofFiles r files).external.Ascending := by
  refine List.foldlRecOn files _ (motive := fun g : Graph => g.external.Ascending) .nil ?_
  intro g h f _
  rw [addFile]
  split
  · refine List.foldlRecOn _ _ (motive := fun g : Graph => g.external.Ascending) h ?_
    intro g h text _
    exact ascending_external_addImport h _ _ _ _
  · exact h

theorem get?_links_of_perm (hnd : (files.map pathOf).Nodup) (hperm : files.Perm files')
    (path : String) : (ofFiles r files).links.get? path = (ofFiles r files').links.get? path := by
  have h : Index.Agree (Index.ofFiles r files) (Index.ofFiles r files') :=
    Index.agree_of_perm hnd hperm
  apply (wellFormed_ofFiles r files).ascending_links.get?_congr
    (wellFormed_ofFiles r files').ascending_links
  intro name v
  rw [← targets, ← targets, mem_targets_ofFiles, mem_targets_ofFiles]
  simp only [hperm.mem_iff, shows_eq h, mem_inside_congr h]

theorem get?_external_of_perm (hnd : (files.map pathOf).Nodup) (hperm : files.Perm files')
    (path : String) :
    (ofFiles r files).external.get? path = (ofFiles r files').external.get? path := by
  have h : Index.Agree (Index.ofFiles r files) (Index.ofFiles r files') :=
    Index.agree_of_perm hnd hperm
  apply (ascending_external r files).get?_congr (ascending_external r files')
  intro name x
  rw [mem_external_ofFiles, mem_external_ofFiles]
  simp only [hperm.mem_iff, shows_eq h, isOutside_iff h]

/-- **The order of the files does not matter.**  Files with different paths can be handed in in any
order: the analysis is stopped in none or in both, the same files are indexed with the same
entries, they have the same targets and the same uses from outside, and there are as many
dependencies and the same files without any. -/
theorem ofFiles_perm (hnd : (files.map pathOf).Nodup) (hperm : files.Perm files') :
    let g := ofFiles r files
    let g' := ofFiles r files'
    (obstacle? files = none ↔ obstacle? files' = none) ∧
      g.paths.Perm g'.paths ∧
      (∀ path, g.index.files.get? path = g'.index.files.get? path) ∧
      (∀ path, g.links.get? path = g'.links.get? path) ∧
      (∀ path, g.external.get? path = g'.external.get? path) ∧
      number g.toValue "dependency_count" = number g'.toValue "dependency_count" ∧
      g.orphans.Perm g'.orphans := by
  intro g g'
  have hg : g.WellFormed := wellFormed_ofFiles r files
  have hg' : g'.WellFormed := wellFormed_ofFiles r files'
  have hagree : Index.Agree (Index.ofFiles r files) (Index.ofFiles r files') :=
    Index.agree_of_perm hnd hperm
  have hlinks : g.links.Perm g'.links :=
    Table.perm_of_get? hg.links_nodup hg'.links_nodup (get?_links_of_perm hnd hperm)
  have hpaths : g.paths.Perm g'.paths :=
    (List.perm_ext_iff_of_nodup hg.paths_nodup hg'.paths_nodup).mpr fun _ => mem_paths_iff hagree
  refine ⟨?_, hpaths, ?_, get?_links_of_perm hnd hperm, get?_external_of_perm hnd hperm, ?_, ?_⟩
  · simp [obstacle?, List.find?_eq_none, hperm.mem_iff]
  · intro path
    rw [ofFiles_index, ofFiles_index, hagree.files]
  · show (g.links.total : Int) = g'.links.total
    rw [Table.total_eq_sum, Table.total_eq_sum, (hlinks.map _).sum_eq]
  · have hcoupling : g.coupling = g'.coupling := by
      funext path
      rw [coupling, coupling, targets, targets, dependents, dependents, hlinks.countP_eq,
        Table.listOf, Table.listOf, get?_links_of_perm hnd hperm]
    rw [orphans, orphans, hcoupling]
    exact hpaths.filter _

theorem usesOne_reversed :
    (usesOne.map pathOf).Nodup ∧ usesOne.Perm usesOne.reverse ∧
      (∀ path, (ofFiles {} usesOne).links.get? path
        = (ofFiles {} usesOne.reverse).links.get? path) ∧
      (ofFiles {} usesOne).orphans.Perm (ofFiles {} usesOne.reverse).orphans := by
  have hnd : (usesOne.map pathOf).Nodup := by decide
  have hperm : usesOne.Perm usesOne.reverse := usesOne.reverse_perm.symm
  obtain ⟨-, -, -, hlinks, -, -, horphans⟩ := ofFiles_perm (r := {}) hnd hperm
  exact ⟨hnd, hperm, hlinks, horphans⟩

end Graph

end CodeScribe.Dependency
