import CodeScribe.Proofs.Dependency.Identifiers
import CodeScribe.Proofs.Dependency.Index

/-!
# What imports stand for

An import is looked up as a type, then by its last part, then as a package, and at last by its
ending among all type names in the order in which they came in.  In an index of files the last
search finds nothing that the first two have missed, so the order of the names does not matter.
-/

namespace CodeScribe.Dependency.Index

open Text SourceFile

variable {ix : Index} {name v : String}

/-! ### Types -/

theorem mem_filesOfType :
    v ∈ ix.filesOfType name ↔ ∃ p ∈ ix.types.listOf name, p ≠ "" ∧ normalText p = v := by
  simp [filesOfType, and_assoc]

/-- A file without a path is never found by a type. -/
theorem empty_not_mem_filesOfType (ix : Index) (name : String) : "" ∉ ix.filesOfType name := by
  intro h
  obtain ⟨p, -, hne, hp⟩ := mem_filesOfType.mp h
  exact hne (normalText_eq_empty.mp hp)

theorem eq_empty_of_filesOfType {p : String} (h : ix.filesOfType name = [])
    (hp : p ∈ ix.types.listOf name) : p = "" := by
  by_contra hne
  have hfound : normalText p ∈ ix.filesOfType name := mem_filesOfType.mpr ⟨p, hp, hne, rfl⟩
  rw [h] at hfound
  cases hfound

def filesNamed (ix : Index) (name : String) : List String :=
  if ix.filesOfType name = [] then ix.filesOfType (lastPiece name ".") else ix.filesOfType name

theorem filesNamed_eq_nil :
    ix.filesNamed name = [] ↔
      ix.filesOfType name = [] ∧ ix.filesOfType (lastPiece name ".") = [] := by
  rw [filesNamed]
  split
  · rename_i h
    simp [h]
  · rename_i h
    simp [h]

/-- Without a point, the last part is the name itself. -/
theorem filesNamed_of_last (h : ix.filesOfType name = []) :
    (if Text.contains name "." = true then ix.filesOfType (lastPiece name ".") else [])
      = ix.filesNamed name := by
  rw [filesNamed, if_pos h]
  split
  · rfl
  · rename_i hpoint
    have hmem : '.' ∉ name.toList := fun hmem => hpoint (Chars.contains_singleton.mpr hmem)
    rw [lastPiece_of_not_mem hmem, h]

theorem empty_not_mem_filesNamed (ix : Index) (name : String) : "" ∉ ix.filesNamed name := by
  rw [filesNamed]
  split
  · exact ix.empty_not_mem_filesOfType _
  · exact ix.empty_not_mem_filesOfType _

theorem normalText_of_mem_filesNamed (h : v ∈ ix.filesNamed name) : normalText v = v := by
  have hmem : ∃ n, v ∈ ix.filesOfType n := by
    rw [filesNamed] at h
    split at h
    · exact ⟨_, h⟩
    · exact ⟨_, h⟩
  obtain ⟨n, hn⟩ := hmem
  obtain ⟨p, -, -, rfl⟩ := mem_filesOfType.mp hn
  exact normalText_normalText p

variable (r : Readers) (files : List SourceFile)

/-- A name that ends with a searched one behind a point has the same last part, and whatever is
entered under it is entered under that part. -/
theorem eq_empty_of_endsWith {full p : String} (h : (ofFiles r files).filesNamed name = [])
    (hname : (Text.endsWith full ("." ++ name) || full == name) = true)
    (hp : p ∈ (ofFiles r files).types.listOf full) : p = "" := by
  obtain ⟨hexact, hlast⟩ := filesNamed_eq_nil.mp h
  rw [Bool.or_eq_true, beq_iff_eq] at hname
  rcases hname with hends | rfl
  · obtain ⟨a, ha⟩ := Chars.endsWith_iff.mp hends
    have hfull : full = String.ofList a ++ "." ++ name := by
      rw [← String.toList_inj, ← ha]
      simp
    have hpiece : lastPiece full "." = lastPiece name "." := by rw [hfull, lastPiece_append]
    exact eq_empty_of_filesOfType hlast (hpiece ▸ mem_types_lastPiece hp)
  · exact eq_empty_of_filesOfType hexact hp

/-- The search by ending finds nothing if neither the name nor its last part is known. -/
theorem filesBySuffix_eq_nil (h : (ofFiles r files).filesNamed name = []) :
    (ofFiles r files).filesBySuffix name = [] := by
  rw [filesBySuffix, Option.getD_eq_iff]
  right
  refine ⟨?_, rfl⟩
  rw [List.findSome?_eq_none_iff]
  rintro ⟨full, paths⟩ hmem
  have hlist : (ofFiles r files).types.listOf full = paths :=
    Table.listOf_of_mem (ascending_types r files).names_nodup hmem
  dsimp only
  split
  · rename_i hname
    have hempty : ((paths.filter (· != "")).map normalText).isEmpty = true := by
      rw [List.isEmpty_iff, List.map_eq_nil_iff, List.filter_eq_nil_iff]
      intro p hp
      simp [eq_empty_of_endsWith r files h hname (hlist ▸ hp)]
    rw [hempty, if_pos rfl]
  · rfl

/-- What an import stands for: the files of the type, or of its last part, or of the Java
package. -/
theorem resolveImport_eq (language : Option Language) (text : String) :
    (ofFiles r files).resolveImport language text
      = if (ofFiles r files).filesNamed (importName text) = [] then
          if language = some .java then
            ((ofFiles r files).packages.listOf (importName text)).map normalText
          else []
        else (ofFiles r files).filesNamed (importName text) := by
  simp only [resolveImport]
  generalize importName text = name
  by_cases hexact : (ofFiles r files).filesOfType name = []
  · rw [hexact, filesNamed_of_last hexact]
    by_cases hnamed : (ofFiles r files).filesNamed name = []
    · have hsuffix := filesBySuffix_eq_nil r files hnamed
      cases hhas : (ofFiles r files).packages.has name with
      | false => simp [hnamed, hsuffix, Table.listOf_of_not_has hhas]
      | true =>
        by_cases hjava : language = some .java
        · simp [hnamed, hjava]
        · simp [hnamed, hjava, hsuffix]
    · simp [hnamed]
  · have hnamed : (ofFiles r files).filesNamed name = (ofFiles r files).filesOfType name := by
      rw [filesNamed, if_neg hexact]
    simp [hexact, hnamed]

theorem resolveImport_of_ne_java {language : Option Language} (h : language ≠ some .java)
    (text : String) :
    (ofFiles r files).resolveImport language text
      = (ofFiles r files).filesNamed (importName text) := by
  rw [resolveImport_eq, if_neg h]
  split
  · rename_i hnone
    exact hnone.symm
  · rfl

/-! ### Namespaces -/

/-- The files of a namespace that declare a type which the source mentions and does not
declare. -/
theorem mem_resolveUsage {source : String} {content : List Char} :
    v ∈ ix.resolveUsage name source content ↔
      (∃ p ∈ ix.packages.listOf name, normalText p = v) ∧ v ≠ source ∧
        ∃ c ∈ ix.typeNames v, Mentions content c.toList ∧ c ∉ ix.typeNames source := by
  simp [resolveUsage, mem_identifiers]

end CodeScribe.Dependency.Index
