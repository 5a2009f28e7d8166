import CodeScribe.Proofs.Dependency.WellFormed
import CodeScribe.Proofs.Path
import CodeScribe.Proofs.Source.Names

/-!
# What an index holds

An index is filled file by file.  For files with different paths it can be read off the files that
can be read, and this file says how: what the three tables hold, and what is known about the names
in them.
-/

namespace CodeScribe.Dependency

open Text

variable {r : Readers} {u : IndexedFile}

/-! ### Files that can be read -/

def Readers.entries (r : Readers) (files : List SourceFile) : List (String × IndexedFile) :=
  files.filterMap fun f => (r.index? f).map (pathOf f, ·)

theorem Readers.mem_entries {files : List SourceFile} {path : String} :
    (path, u) ∈ r.entries files ↔ ∃ f ∈ files, r.index? f = some u ∧ pathOf f = path := by
  simp only [entries, List.mem_filterMap, Option.map_eq_some_iff, Prod.mk.injEq]
  constructor
  · rintro ⟨f, hf, u, hu, hpath, rfl⟩
    exact ⟨f, hf, hu, hpath⟩
  · rintro ⟨f, hf, hu, hpath⟩
    exact ⟨f, hf, u, hu, hpath, rfl⟩

theorem Readers.names_entries_sublist (r : Readers) (files : List SourceFile) :
    ((r.entries files).map (·.1)).Sublist (files.map pathOf) := by
  induction files with
  | nil => exact List.Sublist.refl _
  | cons f files ih =>
    rw [entries, List.filterMap_cons]
    cases r.index? f with
    | none => exact ih.cons _
    | some u => exact ih.cons_cons _

/-- Whether a file declares a type under a name, short or full. -/
def IndexedFile.Declares (u : IndexedFile) (name : String) : Prop :=
  ∃ t ∈ u.types, name = t.name ∨ name = t.fullName

namespace Index

variable {r : Readers} {files : List SourceFile} {p name : String}

theorem ofFiles_eq (r : Readers) (files : List SourceFile) :
    ofFiles r files = (r.entries files).foldl (fun ix e => ix.add e.1 e.2) {} := by
  rw [ofFiles, Readers.entries, List.foldl_filterMap]
  congr 1
  funext ix f
  cases r.index? f <;> rfl

/-! ### The three tables -/

theorem files_foldl_add (ix : Index) (es : List (String × IndexedFile))
    (h : (ix.files.names ++ es.map (·.1)).Nodup) :
    (es.foldl (fun ix e => ix.add e.1 e.2) ix).files = ix.files ++ es := by
  induction es generalizing ix with
  | nil => simp
  | cons e es ih =>
    have hadd : (ix.add e.1 e.2).files = ix.files ++ [e] := by
      apply Table.set_of_not_mem
      intro hmem
      exact (List.nodup_append.mp h).2.2 _ hmem _ (by simp) rfl
    rw [List.foldl_cons, ih, hadd, List.append_assoc, List.singleton_append]
    rw [hadd]
    simpa [Table.names] using h

/-- Files with different paths are indexed in their order. -/
theorem files_ofFiles (h : (files.map pathOf).Nodup) :
    (ofFiles r files).files = r.entries files := by
  rw [ofFiles_eq, files_foldl_add]
  · rfl
  · exact h.sublist (r.names_entries_sublist files)

theorem mem_listOf_foldl_addType {path : String} (ts : List TypeName)
    (types : Table (List String)) :
    p ∈ Table.listOf (ts.foldl (addType path) types) name ↔
      p ∈ types.listOf name ∨ p = path ∧ ∃ t ∈ ts, name = t.name ∨ name = t.fullName := by
  induction ts generalizing types with
  | nil => simp
  | cons t ts ih =>
    rw [List.foldl_cons, ih, addType, Table.mem_listOf_addText, Table.mem_listOf_addText]
    simp only [List.exists_mem_cons_iff]
    by_cases hp : p = path
    · simp only [hp, and_true, true_and]
      rw [or_assoc, or_assoc, ← or_assoc (c := ∃ t ∈ ts, _), or_comm (a := name = t.fullName)]
    · simp only [hp, and_false, false_and, or_false]

theorem mem_types_foldl_add (es : List (String × IndexedFile)) (ix : Index) :
    p ∈ (es.foldl (fun ix e => ix.add e.1 e.2) ix).types.listOf name ↔
      p ∈ ix.types.listOf name ∨ ∃ u, (p, u) ∈ es ∧ u.Declares name := by
  induction es generalizing ix with
  | nil => simp
  | cons e es ih =>
    obtain ⟨path, u⟩ := e
    rw [List.foldl_cons, ih, add, mem_listOf_foldl_addType]
    simp only [List.mem_cons, Prod.mk.injEq, or_and_right, exists_or, or_assoc]
    simp [IndexedFile.Declares]

/-- A path is entered under the names, short and full, of the types of its file. -/
theorem mem_types :
    p ∈ (ofFiles r files).types.listOf name ↔
      ∃ u, (p, u) ∈ r.entries files ∧ u.Declares name := by
  rw [ofFiles_eq, mem_types_foldl_add]
  simp [Table.listOf, Table.get?]

theorem ascending_types (r : Readers) (files : List SourceFile) :
    (ofFiles r files).types.Ascending := by
  rw [ofFiles_eq]
  refine List.foldlRecOn _ _ (motive := fun ix : Index => ix.types.Ascending) .nil ?_
  intro ix h e _
  refine List.foldlRecOn e.2.types _ (motive := Table.Ascending) h ?_
  intro types h t _
  exact (h.addText _ _).addText _ _

theorem listOf_packages_foldl_add (name : String) (es : List (String × IndexedFile))
    (ix : Index) :
    (es.foldl (fun ix e => ix.add e.1 e.2) ix).packages.listOf name
      = ix.packages.listOf name ++ (es.filter (·.2.home == some name)).map (·.1) := by
  induction es generalizing ix with
  | nil => simp
  | cons e es ih =>
    rw [List.foldl_cons, ih, add]
    cases hhome : e.2.home with
    | none => simp [hhome]
    | some p =>
      by_cases hp : name = p
      · simp [Table.listOf_push, hhome, hp]
      · simp [Table.listOf_push, hhome, hp, Ne.symm hp]

/-- The paths under a package, in the order of the files. -/
theorem listOf_packages (r : Readers) (files : List SourceFile) (name : String) :
    (ofFiles r files).packages.listOf name
      = ((r.entries files).filter (·.2.home == some name)).map (·.1) := by
  rw [ofFiles_eq, listOf_packages_foldl_add]
  rfl

theorem mem_packages_foldl_add (es : List (String × IndexedFile)) (ix : Index) :
    name ∈ (es.foldl (fun ix e => ix.add e.1 e.2) ix).packages.names ↔
      name ∈ ix.packages.names ∨ ∃ e ∈ es, e.2.home = some name := by
  induction es generalizing ix with
  | nil => simp
  | cons e es ih =>
    rw [List.foldl_cons, ih, add]
    cases hhome : e.2.home with
    | none => simp [hhome]
    | some p =>
      simp only [Table.push, Table.mem_names_alter, List.exists_mem_cons_iff, hhome,
        Option.some.injEq, or_assoc]
      rw [eq_comm (a := p)]

theorem has_packages :
    (ofFiles r files).packages.has name = true ↔
      ∃ e ∈ r.entries files, e.2.home = some name := by
  rw [Table.has_iff, ofFiles_eq, mem_packages_foldl_add]
  simp

end Index

/-! ### Names in an index -/

/-- What reading a source guarantees about the names in its indexed form: type names are words, a
package is not empty and has the characters of packages, and full names are built from both. -/
structure IndexedFile.WellNamed (u : IndexedFile) : Prop where
  name : ∀ t ∈ u.types, MadeOf isWord t.name
  package : ∀ p, u.home = some p → MadeOf u.language.packageChar p
  fullName : ∀ t ∈ u.types, t.fullName = fullName (some u.language) (u.home.getD "") t.name

theorem Readers.exists_of_index? {f : SourceFile} (h : r.index? f = some u) :
    ∃ language facts, r.languageOf? f = some language ∧
      Facts.readContent language r.options f.content = .ok facts ∧
      u = indexed (f.path.getD (.text "")) language facts := by
  obtain ⟨language, hlanguage, h⟩ := Option.bind_eq_some_iff.mp h
  obtain ⟨facts, hfacts, h⟩ := Option.bind_eq_some_iff.mp h
  refine ⟨language, facts, hlanguage, ?_, (Option.some.inj h).symm⟩
  cases hread : Facts.readContent language r.options f.content with
  | error _ => rw [hread] at hfacts; cases hfacts
  | ok facts' => rw [hread] at hfacts; cases hfacts; rfl

theorem home_indexed (source : Value) (language : Language) (facts : Facts) :
    (indexed source language facts).home
      = if facts.package == "" then none else some facts.package := by
  rw [IndexedFile.home, indexed]
  cases language == Language.java <;> simp

theorem Readers.wellNamed {f : SourceFile} (h : r.index? f = some u) : u.WellNamed := by
  obtain ⟨language, facts, -, hread, rfl⟩ := Readers.exists_of_index? h
  have hnames : (∀ n ∈ facts.classMethods.map (·.1) ++ facts.interfaceNames, MadeOf isWord n) ∧
      (facts.package = "" ∨ MadeOf language.packageChar facts.package) := by
    rcases Facts.of_readContent hread with ⟨code, -, rfl⟩ | ⟨-, rfl⟩
    · exact ⟨Facts.typeNames_madeOf _ _ _, Facts.package_madeOf _ _ _⟩
    · exact ⟨by simp [Facts.classMethods, Facts.interfaceNames], .inl rfl⟩
  constructor
  · intro t ht
    obtain ⟨n, hn, rfl⟩ := List.mem_map.mp ht
    exact hnames.1 n hn
  · intro p hp
    rw [home_indexed] at hp
    split at hp
    · cases hp
    · rename_i hne
      cases hp
      exact hnames.2.resolve_left fun hempty => hne (beq_iff_eq.mpr hempty)
  · intro t ht
    obtain ⟨n, hn, rfl⟩ := List.mem_map.mp ht
    rw [home_indexed]
    cases hp : facts.package == "" with
    | true => rw [beq_iff_eq.mp hp]; rfl
    | false => rfl

/-- The shapes of full names: the name alone, a package with a point, a namespace between
backslashes. -/
theorem IndexedFile.WellNamed.fullName_cases (h : u.WellNamed) {t : TypeName} (ht : t ∈ u.types) :
    t.fullName = t.name ∨ (∃ p, u.home = some p ∧ t.fullName = p ++ "." ++ t.name) ∨
      u.language = .php ∧ ∃ p, u.home = some p ∧ t.fullName = "\\" ++ p ++ "\\" ++ t.name := by
  rw [h.fullName t ht]
  cases hhome : u.home with
  | none => exact .inl rfl
  | some p =>
    have hp : (p == "") = false := beq_false_of_ne (h.package p hhome).ne_empty
    cases u.language <;> simp [Dependency.fullName, hp]

theorem IndexedFile.WellNamed.declares_lastPiece (h : u.WellNamed) {name : String}
    (hname : u.Declares name) : u.Declares (lastPiece name ".") := by
  obtain ⟨t, ht, hname⟩ := hname
  have hpoint : '.' ∉ t.name.toList := (h.name t ht).not_mem (by decide)
  have hself : lastPiece t.name "." = t.name := lastPiece_of_not_mem hpoint
  refine ⟨t, ht, ?_⟩
  rcases hname with rfl | rfl
  · exact .inl hself
  · rcases h.fullName_cases ht with hfull | ⟨p, -, hfull⟩ | ⟨hphp, p, hp, hfull⟩
    · exact .inl (by rw [hfull, hself])
    · exact .inl (by rw [hfull, lastPiece_append, hself])
    · -- neither namespaces nor type names have points here
      have hnamespace : '.' ∉ p.toList :=
        (h.package p hp).not_mem (by rw [hphp]; decide)
      have hnone : '.' ∉ t.fullName.toList := by
        rw [hfull]
        simp [hnamespace, hpoint]
      exact .inr (lastPiece_of_not_mem hnone)

namespace Index

/-- What is entered under a name is entered under the last part of the name. -/
theorem mem_types_lastPiece {r : Readers} {files : List SourceFile} {p name : String}
    (h : p ∈ (ofFiles r files).types.listOf name) :
    p ∈ (ofFiles r files).types.listOf (lastPiece name ".") := by
  rw [mem_types] at h ⊢
  obtain ⟨u, hu, hname⟩ := h
  obtain ⟨f, -, hf, -⟩ := Readers.mem_entries.mp hu
  exact ⟨u, hu, (Readers.wellNamed hf).declares_lastPiece hname⟩

end Index

end CodeScribe.Dependency
