import CodeScribe.Proofs.Dependency.Edges

/-!
# Imports of qualified names

A type is entered under its name and under its name with the package.  An import finds it if it is
written like one of the two.

* `Graph.qualified_import_links` — in Java a qualified import links to the file of its type; in PHP
  the name with the namespace is entered with a backslash in front, and an import has to have it.
-/

namespace CodeScribe.Dependency

open Text SourceFile Declaration

/-! ### Names as they are looked up -/

/-- An import that is made of words and one mark between them is looked up as it stands. -/
theorem Index.importName_eq_self {s : String} (mark : Char)
    (h : ∀ c ∈ s.toList, isWord c = true ∨ c = mark) (hblank : isBlank mark = false)
    (hstar : mark ≠ '*') : importName s = s := by
  have htrim : trim s = s := by
    apply trim_eq_self
    intro c hc
    rcases h c hc with hword | rfl
    · exact isBlank_of_isWord hword
    · exact hblank
  have hends : Text.endsWith s ".*" = false := by
    rw [Bool.eq_false_iff]
    intro hends
    have hsuffix : ".*".toList <:+ s.toList := Chars.endsWith_iff.mp hends
    rcases h '*' (hsuffix.subset (by decide)) with hword | hmark
    · exact absurd hword (by decide)
    · exact hstar hmark.symm
  simp only [importName, htrim, hends, if_neg Bool.false_ne_true]

theorem Index.importName_qualified {p c : String} (hp : MadeOf isDottedChar p)
    (hc : MadeOf isWord c) : importName (p ++ "." ++ c) = p ++ "." ++ c := by
  refine importName_eq_self '.' ?_ (by decide) (by decide)
  intro d hd
  simp only [String.toList_append, List.mem_append] at hd
  rcases hd with (hd | hd) | hd
  · simpa [isDottedChar] using hp.2 d hd
  · exact .inr (List.mem_singleton.mp hd)
  · exact .inl (hc.2 d hd)

/-- The names under which the types of a file are entered. -/
theorem IndexedFile.WellNamed.declares_iff {u : IndexedFile} (h : u.WellNamed) {name : String} :
    u.Declares name ↔ ∃ d ∈ u.typeNames,
      name = d ∨ name = Dependency.fullName (some u.language) (u.home.getD "") d := by
  simp only [IndexedFile.Declares, IndexedFile.typeNames, List.mem_map, exists_exists_and_eq_and]
  refine exists_congr fun t => and_congr_right fun ht => ?_
  rw [h.fullName t ht]

theorem Readers.imports_madeOf {r : Readers} {f : SourceFile} {u : IndexedFile}
    (hu : r.index? f = some u) (hphp : u.language = .php) :
    ∀ i ∈ u.imports, MadeOf Php.isPathChar i := by
  obtain ⟨language, facts, -, hread, rfl⟩ := Readers.exists_of_index? hu
  obtain rfl : language = .php := hphp
  rcases Facts.of_readContent hread with ⟨code, -, rfl⟩ | ⟨hconfig, -⟩
  · exact Php.uses_madeOf _ _
  · cases hconfig

namespace Graph

variable {r : Readers} {files : List SourceFile} {f f' : SourceFile} {u v : IndexedFile}

/-- A file with a path is found by exactly the names that it declares. -/
theorem mem_filesOfType_iff (hfiles : HaveNormalPaths files) {path : String}
    (hv : (ofFiles r files).index.files.get? path = some v) (hpath : path ≠ "") {name : String} :
    path ∈ (ofFiles r files).index.filesOfType name ↔ v.Declares name := by
  have hentry := (mem_entries_iff hfiles.distinct).mpr hv
  rw [Index.mem_filesOfType, ofFiles_index]
  constructor
  · rintro ⟨q, hq, -, rfl⟩
    obtain ⟨w, hw, hname⟩ := Index.mem_types.mp hq
    have hw := (mem_entries_iff hfiles.distinct).mp hw
    rw [normalText_of_get? hfiles hw] at hv
    cases hw.symm.trans hv
    exact hname
  · intro hname
    exact ⟨path, Index.mem_types.mpr ⟨v, hentry, hname⟩, hpath, normalText_of_get? hfiles hv⟩

section OneImport

variable {source path text : String} {content : List Char} {language : Language}

/-- Outside of namespaces, an import links to the files it stands for. -/
theorem mem_inside_of_get? (h : importsNamespaces language = false)
    (hv : (ofFiles r files).index.files.get? path = some v) (hpath : path ≠ "")
    (hne : path ≠ source) :
    path ∈ (ofFiles r files).inside language source content text ↔
      path ∈ (ofFiles r files).index.resolveImport (some language) text := by
  have husage : (ofFiles r files).byUsage language text = false := by
    rw [byUsage, h, Bool.false_and]
  rw [mem_inside_of_import husage (.inl hpath)]
  exact and_iff_left ⟨mem_paths_of_get? hv, hne⟩

theorem mem_inside_of_declares (hfiles : HaveNormalPaths files)
    (h : importsNamespaces language = false)
    (hv : (ofFiles r files).index.files.get? path = some v) (hpath : path ≠ "")
    (hne : path ≠ source) (hname : v.Declares (Index.importName text)) :
    path ∈ (ofFiles r files).inside language source content text := by
  have hfound := (mem_filesOfType_iff hfiles hv hpath).mpr hname
  rw [mem_inside_of_get? h hv hpath hne]
  rw [ofFiles_index] at hfound ⊢
  have hnamed : (Index.ofFiles r files).filesNamed (Index.importName text)
      = (Index.ofFiles r files).filesOfType (Index.importName text) := by
    rw [Index.filesNamed, if_neg (List.ne_nil_of_mem hfound)]
  rw [Index.resolveImport_eq, hnamed, if_neg (List.ne_nil_of_mem hfound)]
  exact hfound

/-- In PHP, where names have no points, other imports do not. -/
theorem mem_inside_php (hfiles : HaveNormalPaths files) (htext : MadeOf Php.isPathChar text)
    (hv : (ofFiles r files).index.files.get? path = some v) (hpath : path ≠ "")
    (hne : path ≠ source) :
    path ∈ (ofFiles r files).inside .php source content text ↔ v.Declares text := by
  have hname : Index.importName text = text := by
    refine Index.importName_eq_self '\\' ?_ (by decide) (by decide)
    intro c hc
    simpa [Php.isPathChar] using htext.2 c hc
  have hpoint : lastPiece text "." = text := lastPiece_of_not_mem (htext.not_mem (by decide))
  have hfound : (ofFiles r files).index.resolveImport (some .php) text
      = (ofFiles r files).index.filesOfType text := by
    rw [ofFiles_index, Index.resolveImport_of_ne_java r files (by decide), hname,
      Index.filesNamed, hpoint, ite_self]
  rw [mem_inside_of_get? (by decide) hv hpath hne, hfound, mem_filesOfType_iff hfiles hv hpath]

end OneImport

/-- A name behind a namespace is not written like a name that also has a backslash in front. -/
theorem backslash_ne {p c d : String} (hc : '\\' ∉ c.toList) (hd : '\\' ∉ d.toList) :
    p ++ "\\" ++ c ≠ d ∧ p ++ "\\" ++ c ≠ "\\" ++ p ++ "\\" ++ d := by
  have hc := List.count_eq_zero.mpr hc
  have hd := List.count_eq_zero.mpr hd
  -- all three texts have a different number of backslashes
  constructor
  · intro h
    have hcount := congrArg (fun s : String => s.toList.count '\\') h
    simp [hc, hd] at hcount
  · intro h
    have hcount := congrArg (fun s : String => s.toList.count '\\') h
    simp [hc, hd] at hcount

/-- **Qualified imports.**  In Java, an import of a package and a type of it links to the file of
the type.  In PHP, an import links to the file if it is the name alone or has a backslash in front
of the namespace; the namespace and the name without it are neither. -/
theorem qualified_import_links {p c : String} (hfiles : HaveNormalPaths files) (hf : f ∈ files)
    (hf' : f' ∈ files) (hu : r.index? f = some u) (hv : r.index? f' = some v)
    (hne : pathOf f' ≠ pathOf f) (hpath : pathOf f' ≠ "") (hlanguage : v.language = u.language)
    (hhome : v.home = some p) (hc : c ∈ v.typeNames) :
    let g := ofFiles r files
    (u.language = .java → p ++ "." ++ c ∈ u.imports → pathOf f' ∈ g.targets (pathOf f)) ∧
    (u.language = .php →
      (pathOf f' ∈ g.targets (pathOf f) ↔
        ∃ i ∈ u.imports, ∃ d ∈ v.typeNames, i = d ∨ i = "\\" ++ p ++ "\\" ++ d) ∧
      ∀ d ∈ v.typeNames, p ++ "\\" ++ c ≠ d ∧ p ++ "\\" ++ c ≠ "\\" ++ p ++ "\\" ++ d) := by
  intro g
  have hget := get?_of_index hfiles.distinct hf' hv
  have hnamed := Readers.wellNamed hv
  have hpackage := hnamed.package p hhome
  have hpne : (p == "") = false := beq_false_of_ne hpackage.ne_empty
  have hword : ∀ d ∈ v.typeNames, MadeOf isWord d := by
    intro d hd
    obtain ⟨t, ht, rfl⟩ := List.mem_map.mp hd
    exact hnamed.name t ht
  constructor
  · intro hjava hi
    rw [hlanguage, hjava] at hpackage
    have hname := Index.importName_qualified hpackage (hword c hc)
    rw [mem_targets_of_index hfiles.distinct hf hu]
    refine ⟨_, hi, mem_inside_of_declares hfiles (by rw [hjava]; rfl) hget hpath hne ?_⟩
    rw [hname, hnamed.declares_iff, hlanguage, hjava, hhome]
    refine ⟨c, hc, .inr ?_⟩
    simp [fullName, hpne]
  · intro hphp
    constructor
    · rw [mem_targets_of_index hfiles.distinct hf hu]
      refine exists_congr fun i => and_congr_right fun hi => ?_
      have htext := Readers.imports_madeOf hu hphp i hi
      rw [hphp, mem_inside_php hfiles htext hget hpath hne, hnamed.declares_iff, hlanguage, hphp,
        hhome]
      simp [fullName, hpne]
    · intro d hd
      exact backslash_ne ((hword c hc).not_mem (by decide)) ((hword d hd).not_mem (by decide))

theorem java_class_linked :
    HaveNormalPaths importsBoth ∧ "B.java" ∈ (ofFiles {} importsBoth).targets "A.java" := by
  refine ⟨haveNormalPaths_importsBoth, ?_⟩
  obtain ⟨u, hu, hlanguage, himports⟩ := importsBoth_index
  have hv : (({} : Readers).index? importsBoth[1]).map
      (fun v => (v.language, v.home, v.typeNames)) = some (.java, some "p", ["B"]) := by
    decide
  obtain ⟨v, hv, hfacts⟩ := Option.map_eq_some_iff.mp hv
  simp only [Prod.mk.injEq] at hfacts
  obtain ⟨hlanguage', hhome, htypes⟩ := hfacts
  have hc : "B" ∈ v.typeNames := by simp [htypes]
  refine (qualified_import_links haveNormalPaths_importsBoth (List.getElem_mem _)
    (List.getElem_mem _) hu hv (by decide) (by decide)
    (hlanguage'.trans hlanguage.symm) hhome hc).1 hlanguage ?_
  rw [himports]
  decide

def importsClass : List SourceFile :=
  [ofTexts "B.php" "B.php" "B.php" "php" "<?php namespace Web; use App\\A; class B \x7b\x7d",
    ofTexts "A.php" "A.php" "A.php" "php" "<?php namespace App; class A \x7b\x7d"]

/-- **A qualified import in PHP that does not link.**  The class is entered with a backslash in front
of the namespace, and its import has none there. -/
theorem php_class_unlinked : ∃ u v, ({} : Readers).index? importsClass[0] = some u ∧
    ({} : Readers).index? importsClass[1] = some v ∧ HaveNormalPaths importsClass ∧
    u.language = .php ∧ v.language = .php ∧ v.home = some "App" ∧ v.typeNames = ["A"] ∧
    "App\\A" ∈ u.imports ∧ pathOf importsClass[0] = "B.php" ∧ pathOf importsClass[1] = "A.php" ∧
    "A.php" ∉ (ofFiles {} importsClass).targets "B.php" := by
  have hfiles : HaveNormalPaths importsClass :=
    .of_texts (by decide) (by simp [importsClass, ofTexts])
  have hu : (({} : Readers).index? importsClass[0]).map (fun u => (u.language, u.imports))
      = some (.php, ["App\\A"]) := by
    decide
  have hv : (({} : Readers).index? importsClass[1]).map
      (fun v => (v.language, v.home, v.typeNames)) = some (.php, some "App", ["A"]) := by
    decide
  obtain ⟨u, hu, hfacts⟩ := Option.map_eq_some_iff.mp hu
  obtain ⟨v, hv, hfacts'⟩ := Option.map_eq_some_iff.mp hv
  simp only [Prod.mk.injEq] at hfacts hfacts'
  obtain ⟨hlanguage, himports⟩ := hfacts
  obtain ⟨hlanguage', hhome, htypes⟩ := hfacts'
  refine ⟨u, v, hu, hv, hfiles, hlanguage, hlanguage', hhome, htypes, by simp [himports], ?_⟩
  decide

end Graph

end CodeScribe.Dependency
