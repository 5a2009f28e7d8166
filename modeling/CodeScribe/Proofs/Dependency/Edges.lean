import CodeScribe.Proofs.Dependency.Imports

/-!
# What an import does

An import of a file links the file to others, counts as a use from outside, or is dropped.  This
file says when, in terms of the files that are indexed: their names, their packages, and what the
importing source mentions.

* `Graph.targets_of_namespace_imports` — the edges of a file whose language imports namespaces;
* `Graph.import_traced_iff` — an import leaves a trace exactly if it stands for an indexed file.
-/

namespace CodeScribe.Dependency

open Text SourceFile
open Index (Mentions)

/-! ### Paths -/

/-- Files with different paths, each of which is in normal form. -/
structure HaveNormalPaths (files : List SourceFile) : Prop where
  distinct : (files.map pathOf).Nodup
  normal : ∀ f ∈ files, normalText (pathOf f) = pathOf f

/-- Path texts are made normal, and a path that does not count as given is empty. -/
theorem normalText_normalPath {place : Value}
    (h : (∃ s, place = .text s) ∨ place.isPresent = false) :
    normalText (normalPath place) = normalPath place := by
  rcases h with ⟨s, rfl⟩ | habsent
  · have hpath : normalPath (.text s) = normalText s := by
      rw [normalPath, normalText]
      cases hempty : s.isEmpty <;> simp [Value.isPresent, hempty]
    rw [hpath, normalText_normalText]
  · have hpath : normalPath place = "" := by simp [normalPath, habsent]
    rw [hpath]
    rfl

/-- Only data that is no text can have a path in another form. -/
theorem HaveNormalPaths.of_texts {files : List SourceFile} (hnd : (files.map pathOf).Nodup)
    (h : ∀ f ∈ files, (∃ s, f.relativePath.getD (f.path.getD (.text "")) = .text s) ∨
      (f.relativePath.getD (f.path.getD (.text ""))).isPresent = false) :
    HaveNormalPaths files where
  distinct := hnd
  normal f hf := normalText_normalPath (h f hf)

/-! ### Types and homes -/

def IndexedFile.typeNames (u : IndexedFile) : List String := u.types.map (·.name)

/-- A file uses a type of another one: its text mentions the type, which it does not declare. -/
def IndexedFile.Uses (u : IndexedFile) (content : List Char) (w : IndexedFile) : Prop :=
  ∃ c ∈ w.typeNames, Mentions content c.toList ∧ c ∉ u.typeNames

theorem Index.typeNames_of_get? {ix : Index} {path : String} {w : IndexedFile}
    (h : ix.files.get? path = some w) : ix.typeNames path = w.typeNames := by
  rw [Index.typeNames, h]
  rfl

namespace Graph

variable {u : IndexedFile}

/-- Some indexed file lies in a package or namespace. -/
def HasHome (g : Graph) (name : String) : Prop :=
  ∃ path w, g.index.files.get? path = some w ∧ w.home = some name

variable {r : Readers} {files : List SourceFile} {language : Language} {source text v : String}
  {content : List Char}

theorem mem_packages (hnd : (files.map pathOf).Nodup) {p : String} :
    p ∈ (ofFiles r files).index.packages.listOf text ↔
      ∃ w, (ofFiles r files).index.files.get? p = some w ∧ w.home = some text := by
  simp only [← mem_entries_iff hnd]
  rw [ofFiles_index, Index.listOf_packages]
  simp

theorem byUsage_iff (hnd : (files.map pathOf).Nodup) :
    (ofFiles r files).byUsage language text = true ↔
      importsNamespaces language = true ∧ (ofFiles r files).HasHome text := by
  simp only [HasHome, ← mem_entries_iff hnd]
  rw [byUsage, Bool.and_eq_true, ofFiles_index, Index.has_packages, Prod.exists]

theorem mem_paths_of_get? {g : Graph} {w : IndexedFile} (h : g.index.files.get? v = some w) :
    v ∈ g.paths :=
  Table.get?_isSome.mp (by rw [h]; rfl)

theorem normalText_of_get? (hfiles : HaveNormalPaths files) {w : IndexedFile}
    (h : (ofFiles r files).index.files.get? v = some w) : normalText v = v := by
  obtain ⟨f, hf, -, rfl⟩ := Readers.mem_entries.mp ((mem_entries_iff hfiles.distinct).mpr h)
  exact hfiles.normal f hf

/-! ### Links of one import -/

/-- An imported namespace stands for its other files that declare a used type. -/
theorem mem_resolve_of_usage (hfiles : HaveNormalPaths files)
    (h : (ofFiles r files).byUsage language text = true)
    (hu : (ofFiles r files).index.files.get? source = some u) :
    v ∈ (ofFiles r files).resolve language source content text ↔
      v ≠ source ∧ ∃ w, (ofFiles r files).index.files.get? v = some w ∧
        w.home = some text ∧ u.Uses content w := by
  rw [resolve, if_pos h, Index.mem_resolveUsage, Index.typeNames_of_get? hu]
  constructor
  · rintro ⟨⟨p, hp, rfl⟩, hne, huses⟩
    obtain ⟨w, hw, hhome⟩ := (mem_packages hfiles.distinct).mp hp
    rw [normalText_of_get? hfiles hw] at hne huses ⊢
    rw [Index.typeNames_of_get? hw] at huses
    exact ⟨hne, w, hw, hhome, huses⟩
  · rintro ⟨hne, w, hw, hhome, huses⟩
    rw [Index.typeNames_of_get? hw]
    exact ⟨⟨v, (mem_packages hfiles.distinct).mpr ⟨w, hw, hhome⟩, normalText_of_get? hfiles hw⟩,
      hne, huses⟩

/-- Files that an imported namespace stands for are indexed, and none of them is the source. -/
theorem mem_inside_of_usage (hfiles : HaveNormalPaths files)
    (h : (ofFiles r files).byUsage language text = true)
    (hu : (ofFiles r files).index.files.get? source = some u) :
    v ∈ (ofFiles r files).inside language source content text ↔
      v ∈ (ofFiles r files).resolve language source content text := by
  rw [mem_inside]
  constructor
  · rintro ⟨⟨p, hp, rfl⟩, -⟩
    obtain ⟨-, w, hw, -⟩ := (mem_resolve_of_usage hfiles h hu).mp hp
    rwa [normalText_of_get? hfiles hw]
  · intro hv
    obtain ⟨hne, w, hw, -⟩ := (mem_resolve_of_usage hfiles h hu).mp hv
    exact ⟨⟨v, hv, normalText_of_get? hfiles hw⟩, mem_paths_of_get? hw, hne⟩

theorem normalText_of_mem_resolveImport
    (h : v ∈ (ofFiles r files).index.resolveImport (some language) text) : normalText v = v := by
  rw [ofFiles_index, Index.resolveImport_eq] at h
  split at h
  · split at h
    · obtain ⟨p, -, rfl⟩ := List.mem_map.mp h
      exact normalText_normalText p
    · cases h
  · exact Index.normalText_of_mem_filesNamed h

/-- Only a Java package can stand for a file without a path. -/
theorem empty_not_mem_resolveImport (h : language ≠ .java) :
    "" ∉ (ofFiles r files).index.resolveImport (some language) text := by
  have hjava : some language ≠ some .java := by simpa using h
  rw [ofFiles_index, Index.resolveImport_of_ne_java r files hjava]
  exact Index.empty_not_mem_filesNamed _ _

theorem mem_resolve_of_import (h : (ofFiles r files).byUsage language text = false)
    (hv : v ≠ "" ∨ language ≠ .java) :
    v ∈ (ofFiles r files).resolve language source content text ↔
      v ∈ (ofFiles r files).index.resolveImport (some language) text := by
  rw [resolve, h, if_neg Bool.false_ne_true]
  dsimp only
  split
  · -- a single file without a path was found and is dropped
    rename_i hfound
    rw [beq_iff_eq] at hfound
    have hempty : "" ∈ (ofFiles r files).index.resolveImport (some language) text := by
      rw [hfound]
      exact List.mem_singleton_self ""
    have hv : v ≠ "" := hv.resolve_right fun hjava => empty_not_mem_resolveImport hjava hempty
    simp [hfound, hv]
  · rfl

theorem mem_inside_of_import (h : (ofFiles r files).byUsage language text = false)
    (hv : v ≠ "" ∨ language ≠ .java) :
    v ∈ (ofFiles r files).inside language source content text ↔
      v ∈ (ofFiles r files).index.resolveImport (some language) text ∧
        v ∈ (ofFiles r files).paths ∧ v ≠ source := by
  rw [mem_inside]
  refine and_congr_left fun _ => ?_
  constructor
  · rintro ⟨p, hp, rfl⟩
    have hp' : p ≠ "" ∨ language ≠ .java := hv.imp_left (mt normalText_eq_empty.mpr)
    have hfound := (mem_resolve_of_import h hp').mp hp
    rwa [normalText_of_mem_resolveImport hfound]
  · intro hfound
    exact ⟨v, (mem_resolve_of_import h hv).mpr hfound, normalText_of_mem_resolveImport hfound⟩

/-! ### Languages that import namespaces -/

theorem mem_inside_iff (hfiles : HaveNormalPaths files)
    (hlanguage : importsNamespaces language = true)
    (hu : (ofFiles r files).index.files.get? source = some u) :
    v ∈ (ofFiles r files).inside language source content text ↔
      ((ofFiles r files).HasHome text ∧ v ≠ source ∧
        ∃ w, (ofFiles r files).index.files.get? v = some w ∧ w.home = some text ∧
          u.Uses content w) ∨
      (¬ (ofFiles r files).HasHome text ∧
        v ∈ (ofFiles r files).index.resolveImport (some language) text ∧
          v ∈ (ofFiles r files).paths ∧ v ≠ source) := by
  have husage : (ofFiles r files).byUsage language text = true ↔
      importsNamespaces language = true ∧ (ofFiles r files).HasHome text :=
    byUsage_iff hfiles.distinct
  by_cases hhome : (ofFiles r files).HasHome text
  · have h := husage.mpr ⟨hlanguage, hhome⟩
    rw [mem_inside_of_usage hfiles h hu, mem_resolve_of_usage hfiles h hu]
    simp only [hhome, true_and, not_true_eq_false, false_and, or_false]
  · have h : (ofFiles r files).byUsage language text = false :=
      Bool.eq_false_iff.mpr fun h => hhome (husage.mp h).2
    have hjava : language ≠ .java := by
      rintro rfl
      cases hlanguage
    rw [mem_inside_of_import h (.inr hjava)]
    simp only [hhome, false_and, not_false_eq_true, true_and, false_or]

/-- **The edges of a file whose language imports namespaces.**  An import that is the namespace of
an indexed file links to the other files of that namespace with a type that the source mentions and
does not declare; any other import links to the other indexed files it stands for.  So a file none
of whose types is mentioned is no target on account of its namespace. -/
theorem targets_of_namespace_imports {f : SourceFile} {u : IndexedFile} {code : String}
    (hfiles : HaveNormalPaths files) (hf : f ∈ files) (hu : r.index? f = some u)
    (hlanguage : importsNamespaces u.language = true) (hcode : f.content = some (.text code)) :
    let g := ofFiles r files
    (∀ v, v ∈ g.targets (pathOf f) ↔ ∃ i ∈ u.imports,
      (g.HasHome i ∧ v ≠ pathOf f ∧ ∃ w, g.index.files.get? v = some w ∧ w.home = some i ∧
        ∃ c ∈ w.typeNames, Mentions code.toList c.toList ∧ c ∉ u.typeNames) ∨
      (¬ g.HasHome i ∧ v ∈ g.index.resolveImport (some u.language) i ∧ v ∈ g.paths ∧
        v ≠ pathOf f)) ∧
    ∀ v w, g.index.files.get? v = some w →
      (∀ c ∈ w.typeNames, ¬ Mentions code.toList c.toList) →
      (∀ i ∈ u.imports, ¬ g.HasHome i → v ∉ g.index.resolveImport (some u.language) i) →
      v ∉ g.targets (pathOf f) := by
  intro g
  have hcontent : contentOf f = code.toList := by rw [contentOf, hcode]
  have hget := get?_of_index hfiles.distinct hf hu
  have hedges : ∀ v, v ∈ g.targets (pathOf f) ↔ ∃ i ∈ u.imports,
      (g.HasHome i ∧ v ≠ pathOf f ∧ ∃ w, g.index.files.get? v = some w ∧ w.home = some i ∧
        u.Uses code.toList w) ∨
      (¬ g.HasHome i ∧ v ∈ g.index.resolveImport (some u.language) i ∧ v ∈ g.paths ∧
        v ≠ pathOf f) := by
    intro v
    rw [mem_targets_of_index hfiles.distinct hf hu, hcontent]
    exact exists_congr fun i => and_congr_right fun _ => mem_inside_iff hfiles hlanguage hget
  refine ⟨hedges, ?_⟩
  intro v w hw hnone hname hv
  obtain ⟨i, hi, ⟨-, -, w', hw', -, c, hc, hmentions, -⟩ | ⟨hhome, hfound, -⟩⟩ := (hedges v).mp hv
  · cases hw.symm.trans hw'
    exact hnone c hc hmentions
  · exact hname i hi hhome hfound

/-- A source that imports a namespace of two files and mentions a type of one of them. -/
def usesOne : List SourceFile :=
  [ofTexts "A.cs" "A.cs" "A.cs" "csharp" "using N; class A : B \x7b\x7d",
    ofTexts "B.cs" "B.cs" "B.cs" "csharp" "namespace N; class B \x7b\x7d",
    ofTexts "C.cs" "C.cs" "C.cs" "csharp" "namespace N; class C \x7b\x7d"]

theorem usesOne_targets :
    HaveNormalPaths usesOne ∧ "B.cs" ∈ (ofFiles {} usesOne).targets "A.cs" ∧
      "C.cs" ∉ (ofFiles {} usesOne).targets "A.cs" := by
  have hfiles : HaveNormalPaths usesOne :=
    .of_texts (by decide) (by simp [usesOne, ofTexts])
  have hu : (({} : Readers).index? usesOne[0]).map (fun u => (u.language, u.imports))
      = some (.csharp, ["N"]) := by
    decide
  have hg : ((ofFiles {} usesOne).index.files.get? "C.cs").map (fun w => (w.home, w.typeNames))
      = some (some "N", ["C"]) ∧ "B.cs" ∈ (ofFiles {} usesOne).targets "A.cs" := by
    decide
  obtain ⟨u, hu, hfacts⟩ := Option.map_eq_some_iff.mp hu
  obtain ⟨w, hw, hfacts'⟩ := Option.map_eq_some_iff.mp hg.1
  obtain ⟨hlanguage, himports⟩ := Prod.mk.inj hfacts
  obtain ⟨hhome, htypes⟩ := Prod.mk.inj hfacts'
  refine ⟨hfiles, hg.2, ?_⟩
  refine (targets_of_namespace_imports hfiles (List.getElem_mem _) hu (by rw [hlanguage]; rfl)
    rfl).2 "C.cs" w hw ?_ ?_
  · rw [htypes, List.forall_mem_singleton]
    exact mt Index.mem_identifiers.mpr (by decide)
  · rw [himports, List.forall_mem_singleton]
    exact fun hnone => absurd ⟨"C.cs", w, hw, hhome⟩ hnone

/-! ### Traces of an import -/

/-- A file answers to the name in an import: it declares the type of that name or of its last part,
or lies in the Java package of that name. -/
def Answers (language : Language) (name : String) (w : IndexedFile) : Prop :=
  w.Declares name ∨ w.Declares (lastPiece name ".") ∨ language = .java ∧ w.home = some name

/-- A package has at most one file without a path. -/
theorem packages_of_forall_empty (hnd : (files.map pathOf).Nodup)
    (h : ∀ p ∈ (ofFiles r files).index.packages.listOf text, p = "") :
    (ofFiles r files).index.packages.listOf text = [] ∨
      (ofFiles r files).index.packages.listOf text = [""] := by
  have hnodup : ((ofFiles r files).index.packages.listOf text).Nodup := by
    rw [ofFiles_index, Index.listOf_packages]
    exact (hnd.sublist (r.names_entries_sublist files)).sublist (List.filter_sublist.map _)
  rw [List.eq_replicate_of_mem h] at hnodup ⊢
  rcases Nat.le_one_iff_eq_zero_or_eq_one.mp (List.nodup_replicate.mp hnodup) with hlen | hlen
  · exact .inl (by rw [hlen]; rfl)
  · exact .inr (by rw [hlen]; rfl)

theorem resolveImport_of_forall_empty (hnd : (files.map pathOf).Nodup)
    (h : ∀ v ∈ (ofFiles r files).index.resolveImport (some language) text, v = "") :
    (ofFiles r files).index.resolveImport (some language) text = [] ∨
      (ofFiles r files).index.resolveImport (some language) text = [""] := by
  rw [ofFiles_index, Index.resolveImport_eq] at h ⊢
  revert h
  split
  · split
    · intro h
      have hpackage := packages_of_forall_empty (r := r) hnd fun p hp =>
        normalText_eq_empty.mp (h _ (List.mem_map_of_mem (ofFiles_index r files ▸ hp)))
      rw [ofFiles_index] at hpackage
      rcases hpackage with hpackage | hpackage
      · exact .inl (by rw [hpackage]; rfl)
      · exact .inr (by rw [hpackage]; rfl)
    · exact fun _ => .inl rfl
  · rename_i hnamed
    intro h
    obtain ⟨v, hv⟩ := List.exists_mem_of_ne_nil _ hnamed
    exact absurd (h v hv ▸ hv) (Index.empty_not_mem_filesNamed _ _)

/-- Files without a path do not count: there is at most one, and alone it is dropped. -/
theorem resolve_ne_nil_of_import (hnd : (files.map pathOf).Nodup)
    (h : (ofFiles r files).byUsage language text = false) :
    (ofFiles r files).resolve language source content text ≠ [] ↔
      ∃ v, v ≠ "" ∧ v ∈ (ofFiles r files).index.resolveImport (some language) text := by
  constructor
  · intro hne
    by_contra hnone
    have hempty : ∀ v ∈ (ofFiles r files).index.resolveImport (some language) text, v = "" := by
      intro v hv
      by_contra hne
      exact hnone ⟨v, hne, hv⟩
    apply hne
    rw [resolve, h, if_neg Bool.false_ne_true]
    rcases resolveImport_of_forall_empty hnd hempty with hfound | hfound
    · rw [hfound]; rfl
    · rw [hfound]; rfl
  · rintro ⟨v, hv, hfound⟩
    exact List.ne_nil_of_mem ((mem_resolve_of_import h (.inl hv)).mpr hfound)

theorem filesOfType_ne_nil (hnd : (files.map pathOf).Nodup) :
    (ofFiles r files).index.filesOfType text ≠ [] ↔
      ∃ v w, (ofFiles r files).index.files.get? v = some w ∧ v ≠ "" ∧ w.Declares text := by
  simp only [← mem_entries_iff hnd]
  rw [ofFiles_index]
  constructor
  · intro hne
    obtain ⟨_, hmem⟩ := List.exists_mem_of_ne_nil _ hne
    obtain ⟨v, htype, hv, -⟩ := Index.mem_filesOfType.mp hmem
    obtain ⟨w, hw, hname⟩ := Index.mem_types.mp htype
    exact ⟨v, w, hw, hv, hname⟩
  · rintro ⟨v, w, hw, hv, hname⟩
    have htype := Index.mem_types.mpr ⟨w, hw, hname⟩
    exact List.ne_nil_of_mem (Index.mem_filesOfType.mpr ⟨v, htype, hv, rfl⟩)

theorem filesNamed_ne_nil (hnd : (files.map pathOf).Nodup) :
    (ofFiles r files).index.filesNamed text ≠ [] ↔
      ∃ v w, (ofFiles r files).index.files.get? v = some w ∧ v ≠ "" ∧
        (w.Declares text ∨ w.Declares (lastPiece text ".")) := by
  rw [Ne, Index.filesNamed_eq_nil, not_and_or]
  rw [← Ne, ← Ne, filesOfType_ne_nil hnd, filesOfType_ne_nil hnd]
  simp only [and_or_left, exists_or]

/-- An import stands for a file with a path exactly if such a file answers to its name. -/
theorem exists_resolveImport_iff (hnd : (files.map pathOf).Nodup) :
    (∃ v, v ≠ "" ∧ v ∈ (ofFiles r files).index.resolveImport (some language) text) ↔
      ∃ v w, (ofFiles r files).index.files.get? v = some w ∧ v ≠ "" ∧
        Answers language (Index.importName text) w := by
  have hfound := Index.resolveImport_eq r files (some language) text
  rw [← ofFiles_index] at hfound
  rw [hfound]
  by_cases hnamed : (ofFiles r files).index.filesNamed (Index.importName text) = []
  · -- no type answers, so only the package can
    have hnone : ∀ v w, (ofFiles r files).index.files.get? v = some w → v ≠ "" →
        ¬ w.Declares (Index.importName text) ∧
          ¬ w.Declares (lastPiece (Index.importName text) ".") := by
      intro v w hw hv
      rw [← not_or]
      intro hname
      exact (filesNamed_ne_nil hnd).mpr ⟨v, w, hw, hv, hname⟩ hnamed
    rw [if_pos hnamed]
    constructor
    · rintro ⟨v, hv, hfound⟩
      split at hfound
      · rename_i hjava
        obtain ⟨p, hp, rfl⟩ := List.mem_map.mp hfound
        obtain ⟨w, hw, hhome⟩ := (mem_packages hnd).mp hp
        exact ⟨p, w, hw, mt normalText_eq_empty.mpr hv,
          .inr (.inr ⟨Option.some.inj hjava, hhome⟩)⟩
      · cases hfound
    · rintro ⟨v, w, hw, hv, hname | hname | ⟨rfl, hhome⟩⟩
      · exact absurd hname (hnone v w hw hv).1
      · exact absurd hname (hnone v w hw hv).2
      · rw [if_pos rfl]
        exact ⟨normalText v, mt normalText_eq_empty.mp hv,
          List.mem_map_of_mem ((mem_packages hnd).mpr ⟨w, hw, hhome⟩)⟩
  · rw [if_neg hnamed]
    constructor
    · intro _
      obtain ⟨v, w, hw, hv, hname⟩ := (filesNamed_ne_nil hnd).mp hnamed
      exact ⟨v, w, hw, hv, hname.imp_right .inl⟩
    · intro _
      obtain ⟨v, hv⟩ := List.exists_mem_of_ne_nil _ hnamed
      exact ⟨v, ne_of_mem_of_not_mem hv (Index.empty_not_mem_filesNamed _ _), hv⟩

/-- An import is entered in one of the two tables if it stands for anything. -/
theorem inside_or_isOutside {g : Graph} :
    g.inside language source content text ≠ [] ∨ g.IsOutside language source content text ↔
      g.resolve language source content text ≠ [] := by
  constructor
  · rintro (hinside | hout)
    · intro hnone
      exact hinside (by rw [inside, hnone]; rfl)
    · exact hout.1
  · intro hne
    by_cases hinside : g.inside language source content text = []
    · exact .inr ⟨hne, hinside⟩
    · exact .inl hinside

theorem resolve_ne_nil_iff (hfiles : HaveNormalPaths files)
    (hu : (ofFiles r files).index.files.get? source = some u) :
    let byNamespace := importsNamespaces language = true ∧ (ofFiles r files).HasHome text
    (ofFiles r files).resolve language source content text ≠ [] ↔
      ∃ v w, (ofFiles r files).index.files.get? v = some w ∧
        (byNamespace ∧ v ≠ source ∧ w.home = some text ∧ u.Uses content w ∨
          ¬ byNamespace ∧ v ≠ "" ∧ Answers language (Index.importName text) w) := by
  intro byNamespace
  have husage : (ofFiles r files).byUsage language text = true ↔ byNamespace :=
    byUsage_iff hfiles.distinct
  by_cases hby : byNamespace
  · simp only [hby, true_and, not_true_eq_false, false_and, or_false]
    constructor
    · intro hne
      obtain ⟨v, hv⟩ := List.exists_mem_of_ne_nil _ hne
      obtain ⟨hv, w, hw, huses⟩ := (mem_resolve_of_usage hfiles (husage.mpr hby) hu).mp hv
      exact ⟨v, w, hw, hv, huses⟩
    · rintro ⟨v, w, hw, hv, huses⟩
      exact List.ne_nil_of_mem
        ((mem_resolve_of_usage hfiles (husage.mpr hby) hu).mpr ⟨hv, w, hw, huses⟩)
  · have h : (ofFiles r files).byUsage language text = false :=
      Bool.eq_false_iff.mpr fun h => hby (husage.mp h)
    simp only [hby, false_and, not_false_eq_true, true_and, false_or]
    rw [resolve_ne_nil_of_import hfiles.distinct h, exists_resolveImport_iff hfiles.distinct]

/-- **An import leaves a trace exactly if it stands for an indexed file.**  An imported namespace
has to hold another file with a used type; for any other import some file with a path has to answer
to its name.  An import for which there is no such file neither links the source nor counts as a
use from outside, and no import does both. -/
theorem import_traced_iff {f : SourceFile} {u : IndexedFile} {i : String}
    (hfiles : HaveNormalPaths files) (hf : f ∈ files) (hu : r.index? f = some u)
    (hi : i ∈ u.imports) :
    let g := ofFiles r files
    let byNamespace := importsNamespaces u.language = true ∧ g.HasHome i
    let linked := ∃ v ∈ g.targets (pathOf f),
      v ∈ g.inside u.language (pathOf f) (contentOf f) i
    let outside := i ∈ g.external.listOf (pathOf f)
    (linked ∨ outside ↔ ∃ v w, g.index.files.get? v = some w ∧
      (byNamespace ∧ v ≠ pathOf f ∧ w.home = some i ∧ u.Uses (contentOf f) w ∨
        ¬ byNamespace ∧ v ≠ "" ∧ Answers u.language (Index.importName i) w)) ∧
    ¬ (linked ∧ outside) := by
  intro g byNamespace linked outside
  have hlinked : linked ↔ g.inside u.language (pathOf f) (contentOf f) i ≠ [] := by
    constructor
    · rintro ⟨v, -, hv⟩
      exact List.ne_nil_of_mem hv
    · intro hne
      obtain ⟨v, hv⟩ := List.exists_mem_of_ne_nil _ hne
      exact ⟨v, (mem_targets_of_index hfiles.distinct hf hu).mpr ⟨i, hi, hv⟩, hv⟩
  have houtside : outside ↔ g.IsOutside u.language (pathOf f) (contentOf f) i := by
    rw [show outside ↔ _ from mem_external_of_index hfiles.distinct hf hu]
    exact and_iff_right hi
  rw [hlinked, houtside]
  refine ⟨?_, fun h => h.1 h.2.2⟩
  rw [inside_or_isOutside]
  exact resolve_ne_nil_iff hfiles (get?_of_index hfiles.distinct hf hu)

def importsBoth : List SourceFile :=
  [ofTexts "A.java" "A.java" "A.java" "java" "import p.B; import java.util.List; class A \x7b\x7d",
    ofTexts "B.java" "B.java" "B.java" "java" "package p; class B \x7b\x7d"]

theorem haveNormalPaths_importsBoth : HaveNormalPaths importsBoth :=
  .of_texts (by decide) (by simp [importsBoth, ofTexts])

theorem importsBoth_index : ∃ u, ({} : Readers).index? importsBoth[0] = some u ∧
    u.language = .java ∧ u.imports = ["p.B", "java.util.List"] := by
  have hu : (({} : Readers).index? importsBoth[0]).map (fun u => (u.language, u.imports))
      = some (.java, ["p.B", "java.util.List"]) := by
    decide
  obtain ⟨u, hu, hfacts⟩ := Option.map_eq_some_iff.mp hu
  exact ⟨u, hu, Prod.mk.inj hfacts⟩

theorem inner_import_traced : ∃ u, ({} : Readers).index? importsBoth[0] = some u ∧
    HaveNormalPaths importsBoth ∧ "p.B" ∈ u.imports ∧
    ((∃ v ∈ (ofFiles {} importsBoth).targets "A.java", v ∈ (ofFiles {} importsBoth).inside
        u.language "A.java" (contentOf importsBoth[0]) "p.B") ∨
      "p.B" ∈ (ofFiles {} importsBoth).external.listOf "A.java") := by
  obtain ⟨u, hu, hlanguage, himports⟩ := importsBoth_index
  have hi : "p.B" ∈ u.imports := by simp [himports]
  refine ⟨u, hu, haveNormalPaths_importsBoth, hi, ?_⟩
  refine (import_traced_iff haveNormalPaths_importsBoth (List.getElem_mem _) hu hi).1.mpr ?_
  have hw : ((ofFiles {} importsBoth).index.files.get? "B.java").map (·.types)
      = some [⟨"B", "p.B"⟩] := by
    decide
  obtain ⟨w, hw, htypes⟩ := Option.map_eq_some_iff.mp hw
  refine ⟨"B.java", w, hw, .inr ⟨?_, by decide, .inl ⟨⟨"B", "p.B"⟩, by simp [htypes], .inr ?_⟩⟩⟩
  · rw [hlanguage]
    exact fun h => absurd h.1 (by decide)
  · decide

/-- **An import of a library is lost.**  No file answers to its name, and so it is neither linked
nor kept as a use from outside. -/
theorem outer_import_lost : ∃ u, ({} : Readers).index? importsBoth[0] = some u ∧
    u.language = .java ∧ HaveNormalPaths importsBoth ∧ "java.util.List" ∈ u.imports ∧
    (¬ ∃ v ∈ (ofFiles {} importsBoth).targets "A.java", v ∈ (ofFiles {} importsBoth).inside
        u.language "A.java" (contentOf importsBoth[0]) "java.util.List") ∧
    "java.util.List" ∉ (ofFiles {} importsBoth).external.listOf "A.java" := by
  obtain ⟨u, hu, hlanguage, himports⟩ := importsBoth_index
  refine ⟨u, hu, hlanguage, haveNormalPaths_importsBoth, by simp [himports], ?_⟩
  rw [hlanguage]
  decide

end Graph

end CodeScribe.Dependency
