import CodeScribe.Proofs.Dependency.Edges

/-!
# Imports are looked up

Finding the files of an import ends with a search for type names that end like the import.  In an
index of files that search has nothing left to find, so imports are resolved by looking names up.

* `Index.import_is_lookup` — an import stands for what is looked up.
-/

namespace CodeScribe

open Text

def SourceFile.PathIsText (f : SourceFile) : Prop :=
  (∃ s, f.relativePath.getD (f.path.getD (.text "")) = .text s) ∨
    (f.relativePath.getD (f.path.getD (.text ""))).isPresent = false

namespace Dependency

open SourceFile

namespace Index

def pathsOfType (ix : Index) (name : String) : List String :=
  (ix.types.listOf name).filter (· != "")

/-- The paths that are looked up for the name of an import: those under the name, or else under its
last part if it has a point, or else in Java those of the package. -/
def lookup (ix : Index) (language : Option Language) (name : String) : List String :=
  if ix.pathsOfType name ≠ [] then ix.pathsOfType name
  else if '.' ∈ name.toList ∧ ix.pathsOfType (lastPiece name ".") ≠ [] then
    ix.pathsOfType (lastPiece name ".")
  else if language = some .java ∧ ix.packages.has name = true then ix.packages.listOf name
  else []

theorem filesOfType_eq (ix : Index) (name : String) :
    ix.filesOfType name = (ix.pathsOfType name).map normalText := rfl

theorem filesOfType_eq_nil {ix : Index} {name : String} :
    ix.filesOfType name = [] ↔ ix.pathsOfType name = [] := by
  rw [filesOfType_eq, List.map_eq_nil_iff]

variable {r : Readers} {files : List SourceFile}

theorem exists_of_mem_lookup {language : Option Language} {name p : String}
    (h : p ∈ (ofFiles r files).lookup language name) : ∃ f ∈ files, pathOf f = p := by
  have hentries {u : IndexedFile} (hu : (p, u) ∈ r.entries files) : ∃ f ∈ files, pathOf f = p := by
    obtain ⟨f, hf, -, hpath⟩ := Readers.mem_entries.mp hu
    exact ⟨f, hf, hpath⟩
  have htypes {n : String} (hp : p ∈ (ofFiles r files).pathsOfType n) :
      ∃ f ∈ files, pathOf f = p := by
    obtain ⟨u, hu, -⟩ := mem_types.mp (List.mem_of_mem_filter hp)
    exact hentries hu
  rw [lookup] at h
  split at h
  · exact htypes h
  · split at h
    · exact htypes h
    · split at h
      · rw [listOf_packages] at h
        obtain ⟨⟨path, u⟩, hu, rfl⟩ := List.mem_map.mp h
        exact hentries (List.mem_of_mem_filter hu)
      · cases h

theorem map_normalText_lookup (hpaths : ∀ f ∈ files, f.PathIsText) (language : Option Language)
    (name : String) :
    ((ofFiles r files).lookup language name).map normalText =
      (ofFiles r files).lookup language name := by
  have hnormal : ∀ p ∈ (ofFiles r files).lookup language name, normalText p = id p := by
    intro p hp
    obtain ⟨f, hf, rfl⟩ := exists_of_mem_lookup hp
    exact normalText_normalPath (hpaths f hf)
  rw [List.map_congr_left hnormal, List.map_id]

/-- Without the search by ending, the files of an import are the paths that are looked up. -/
theorem resolveImport_eq_lookup (language : Option Language) (text : String) :
    (ofFiles r files).resolveImport language text =
      ((ofFiles r files).lookup language (importName text)).map normalText := by
  rw [resolveImport_eq, lookup, filesNamed]
  generalize importName text = name
  by_cases hexact : (ofFiles r files).pathsOfType name = []
  · rw [if_neg (not_not.mpr hexact), if_pos (filesOfType_eq_nil.mpr hexact)]
    by_cases hlast : (ofFiles r files).pathsOfType (lastPiece name ".") = []
    · have hnot : ¬ ('.' ∈ name.toList ∧ (ofFiles r files).pathsOfType (lastPiece name ".") ≠ []) :=
        fun h => h.2 hlast
      rw [if_pos (filesOfType_eq_nil.mpr hlast), if_neg hnot]
      by_cases hjava : language = some .java
      · cases hhas : (ofFiles r files).packages.has name with
        | true => simp [hjava]
        | false => simp [hjava, Table.listOf_of_not_has hhas]
      · simp [hjava]
    · -- without a point, the last part would be the name itself
      have hpoint : '.' ∈ name.toList := by
        by_contra hnone
        rw [lastPiece_of_not_mem hnone] at hlast
        exact hlast hexact
      rw [if_neg (mt filesOfType_eq_nil.mp hlast), if_pos (And.intro hpoint hlast), filesOfType_eq]
  · have hfiles : (ofFiles r files).filesOfType name ≠ [] := mt filesOfType_eq_nil.mp hexact
    rw [if_pos hexact, if_neg hfiles, if_neg hfiles, filesOfType_eq]

/-- What an import stands for is looked up, and the search by ending finds nothing. -/
theorem import_is_lookup (r : Readers) (files : List SourceFile) (language : Option Language)
    (text : String) :
    (ofFiles r files).resolveImport language text =
        ((ofFiles r files).lookup language (importName text)).map normalText ∧
      ((∀ f ∈ files, f.PathIsText) → (ofFiles r files).resolveImport language text =
        (ofFiles r files).lookup language (importName text)) ∧
      ∀ name, (ofFiles r files).pathsOfType name = [] →
        (ofFiles r files).pathsOfType (lastPiece name ".") = [] →
          (ofFiles r files).filesBySuffix name = [] := by
  refine ⟨resolveImport_eq_lookup language text, fun hpaths => ?_, fun name hexact hlast => ?_⟩
  · rw [resolveImport_eq_lookup, map_normalText_lookup hpaths]
  · exact filesBySuffix_eq_nil r files (filesNamed_eq_nil.mpr
      ⟨filesOfType_eq_nil.mpr hexact, filesOfType_eq_nil.mpr hlast⟩)

/-- A Java file and a file in another language with a namespace of the same name. -/
def sameNamespace : List SourceFile :=
  [ofTexts "src/A.java" "src//A.java" "A.java" "java" "package a.b;\nclass A \x7b \x7d",
    ofTexts "B.cs" "B.cs" "B.cs" "csharp" "namespace a.b \x7b interface B \x7b \x7d \x7d"]

theorem pathIsText_sameNamespace : ∀ f ∈ sameNamespace, f.PathIsText := by
  simp [sameNamespace, PathIsText, ofTexts]

theorem sameNamespace_looked_up : (∀ f ∈ sameNamespace, f.PathIsText) ∧
    (ofFiles {} sameNamespace).resolveImport (some .java) " x.B.* " = ["B.cs"] ∧
    (ofFiles {} sameNamespace).resolveImport (some .java) "a.b" = ["src/A.java", "B.cs"] ∧
    (ofFiles {} sameNamespace).resolveImport (some .csharp) "a.b" = [] ∧
    (ofFiles {} sameNamespace).filesBySuffix "b" = [] := by
  have hpaths := pathIsText_sameNamespace
  have hlast := (import_is_lookup {} sameNamespace (some .java) " x.B.* ").2.1 hpaths
  have hpackage := (import_is_lookup {} sameNamespace (some .java) "a.b").2.1 hpaths
  have hnone := (import_is_lookup {} sameNamespace (some .csharp) "a.b").2.1 hpaths
  refine ⟨hpaths, hlast.trans ?_, hpackage.trans ?_, hnone.trans ?_,
    (import_is_lookup {} sameNamespace none "b").2.2 "b" ?_ ?_⟩
  all_goals decide

end Index

end Dependency

end CodeScribe
