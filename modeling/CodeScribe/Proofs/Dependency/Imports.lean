import CodeScribe.Proofs.Dependency.Resolve

/-!
# Edges import by import

The second pass over the files enters imports one after the other.  Each of them adds links from its
source to the indexed files it stands for, or a use from outside; nothing is ever taken away, and
what is added depends on the index alone.  So the tables of a graph are unions over all imports.

* `Graph.mem_links_addImport`, `Graph.mem_external_addImport` — the step;
* `Graph.mem_listOf_ofFiles` — the run over all imports of all files, for any table with such a
  step.
-/

namespace CodeScribe.Dependency

open SourceFile

def IndexedFile.imports (u : IndexedFile) : List String := u.facts.importsFor u.language

namespace Graph

variable {g : Graph} {language : Language} {source text v p x : String} {content : List Char}

/-! ### What one import adds -/

def inside (g : Graph) (language : Language) (source : String) (content : List Char)
    (text : String) : List String :=
  ((g.resolve language source content text).map normalText).filter fun p =>
    g.index.files.has p && p != source

/-- An import counts as a use from outside: it stands for something, but for no indexed file other
than the source. -/
def IsOutside (g : Graph) (language : Language) (source : String) (content : List Char)
    (text : String) : Prop :=
  g.resolve language source content text ≠ [] ∧ g.inside language source content text = []

theorem mem_inside :
    v ∈ g.inside language source content text ↔
      (∃ p ∈ g.resolve language source content text, normalText p = v) ∧
        v ∈ g.paths ∧ v ≠ source := by
  rw [inside, List.mem_filter, List.mem_map, Bool.and_eq_true, Table.has_iff, bne_iff_ne, paths]

theorem addImport_eq (language : Language) (source : String) (content : List Char) (g : Graph)
    (text : String) :
    addImport language source content g text
      = if g.resolve language source content text = [] then g
        else if g.inside language source content text = [] then
          { g with external := g.external.addText source text }
        else
          { g with
            links := (g.inside language source content text).foldl
              (fun ls p => ls.addText source p) g.links } := by
  simp only [addImport, List.isEmpty_iff, List.map_eq_nil_iff]
  rfl

theorem mem_links_addImport :
    v ∈ (addImport language source content g text).links.listOf p ↔
      v ∈ g.links.listOf p ∨ p = source ∧ v ∈ g.inside language source content text := by
  rw [addImport_eq]
  split
  · rename_i hnone
    simp [inside, hnone]
  · split
    · rename_i hinside
      simp [hinside]
    · exact Table.mem_listOf_foldl_addText

theorem mem_external_addImport :
    x ∈ (addImport language source content g text).external.listOf p ↔
      x ∈ g.external.listOf p ∨
        p = source ∧ x = text ∧ g.IsOutside language source content text := by
  rw [addImport_eq]
  split
  · rename_i hnone
    simp [IsOutside, hnone]
  · split
    · rename_i hsome hinside
      rw [Table.mem_listOf_addText]
      simp [IsOutside, hsome, hinside]
    · rename_i hinside
      simp [IsOutside, hinside]

/-! ### The run over all imports -/

/-- What an import adds depends on the index alone. -/
theorem inside_congr {g' : Graph} (h : g.index = g'.index) : g.inside = g'.inside := by
  obtain ⟨ix, links, external⟩ := g
  cases h
  rfl

theorem isOutside_congr {g' : Graph} (h : g.index = g'.index) : g.IsOutside = g'.IsOutside := by
  obtain ⟨ix, links, external⟩ := g
  cases h
  rfl

/-- A file shows an import: its language is known, it is indexed, and the import is one that is
looked at. -/
def Shows (r : Readers) (g : Graph) (f : SourceFile) (language : Language) (text : String) : Prop :=
  r.languageOf? f = some language ∧
    ∃ u, g.index.files.get? (pathOf f) = some u ∧ text ∈ g.importsOf language f u

section Run

-- a table of the graph, and what an import adds to the list of its source there
variable {T : Graph → Table (List String)} {r : Readers} {ix : Index}
  {N : Language → String → List Char → String → String → Prop} {p v : String}

def Adds (T : Graph → Table (List String)) (ix : Index)
    (N : Language → String → List Char → String → String → Prop) : Prop :=
  ∀ (g : Graph) (language : Language) (source : String) (content : List Char) (text p v : String),
    g.index = ix →
      (v ∈ (T (addImport language source content g text)).listOf p ↔
        v ∈ (T g).listOf p ∨ p = source ∧ N language source content text v)

theorem mem_listOf_addImports (hT : Adds T ix N) (language : Language) (source : String)
    (content : List Char) (imports : List String) (g : Graph) (hg : g.index = ix) :
    v ∈ (T (imports.foldl (addImport language source content) g)).listOf p ↔
      v ∈ (T g).listOf p ∨
        p = source ∧ ∃ text ∈ imports, N language source content text v := by
  induction imports generalizing g with
  | nil => simp
  | cons text imports ih =>
    have hg' : (addImport language source content g text).index = ix := by
      rw [addImport_index, hg]
    rw [List.foldl_cons, ih _ hg', hT g language source content text p v hg]
    simp only [List.exists_mem_cons_iff, and_or_left, or_assoc]

theorem addImports_index (language : Language) (source : String) (content : List Char)
    (imports : List String) (g : Graph) :
    (imports.foldl (addImport language source content) g).index = g.index :=
  List.foldlRecOn imports _ (motive := fun g' : Graph => g'.index = g.index) rfl
    fun g' h text _ => by rw [addImport_index, h]

@[simp] theorem addFile_index (r : Readers) (g : Graph) (f : SourceFile) :
    (addFile r g f).index = g.index := by
  rw [addFile]
  split
  · exact addImports_index _ _ _ _ _
  · rfl

theorem shows_congr {g g' : Graph} (h : g.index = g'.index) : Shows r g = Shows r g' := by
  obtain ⟨ix, links, external⟩ := g
  cases h
  rfl

theorem mem_listOf_addFile (hT : Adds T ix N) (f : SourceFile) (g : Graph) (hg : g.index = ix) :
    v ∈ (T (addFile r g f)).listOf p ↔
      v ∈ (T g).listOf p ∨ p = pathOf f ∧
        ∃ language text, Shows r g f language text ∧ N language p (contentOf f) text v := by
  rw [addFile]
  cases hlanguage : r.languageOf? f with
  | none => simp [Shows, hlanguage]
  | some language =>
    cases hu : g.index.files.get? (pathOf f) with
    | none => simp [Shows, hu]
    | some u =>
      rw [mem_listOf_addImports hT _ _ _ _ _ hg]
      refine or_congr_right (and_congr_right fun hp => ?_)
      simp [Shows, hlanguage, hu, hp]

/-- The lists of a table hold what the imports of the files add, and nothing else. -/
theorem mem_listOf_addFiles (hT : Adds T ix N) (files : List SourceFile) (g : Graph)
    (hg : g.index = ix) :
    v ∈ (T (files.foldl (addFile r) g)).listOf p ↔
      v ∈ (T g).listOf p ∨ ∃ f ∈ files, pathOf f = p ∧
        ∃ language text, Shows r g f language text ∧ N language p (contentOf f) text v := by
  induction files generalizing g with
  | nil => simp
  | cons f files ih =>
    have hg' : (addFile r g f).index = ix := by rw [addFile_index, hg]
    rw [List.foldl_cons, ih _ hg', mem_listOf_addFile hT f g hg,
      shows_congr (addFile_index r g f), List.exists_mem_cons_iff, or_assoc, eq_comm]

theorem ofFiles_index (r : Readers) (files : List SourceFile) :
    (ofFiles r files).index = Index.ofFiles r files :=
  List.foldlRecOn files _ (motive := fun g : Graph => g.index = Index.ofFiles r files) rfl
    fun g h f _ => by rw [addFile_index, h]

theorem mem_listOf_ofFiles {files : List SourceFile} (hT : Adds T (Index.ofFiles r files) N)
    (hempty : T { index := Index.ofFiles r files } = []) :
    v ∈ (T (ofFiles r files)).listOf p ↔ ∃ f ∈ files, pathOf f = p ∧
      ∃ language text, Shows r (ofFiles r files) f language text ∧
        N language p (contentOf f) text v := by
  have hshows : Shows r (ofFiles r files) = Shows r { index := Index.ofFiles r files } :=
    shows_congr (ofFiles_index r files)
  rw [hshows, ofFiles, mem_listOf_addFiles hT files _ rfl, hempty]
  simp [Table.listOf, Table.get?]

end Run

/-- The targets of a path are the files inside that the imports shown under it stand for. -/
theorem mem_targets_ofFiles {r : Readers} {files : List SourceFile} :
    v ∈ (ofFiles r files).targets p ↔
      ∃ f ∈ files, pathOf f = p ∧ ∃ language text, Shows r (ofFiles r files) f language text ∧
        v ∈ (ofFiles r files).inside language p (contentOf f) text := by
  have hadds : Adds links (Index.ofFiles r files) fun language source content text v =>
      v ∈ (ofFiles r files).inside language source content text := by
    intro g language source content text p v hg
    rw [mem_links_addImport, inside_congr (hg.trans (ofFiles_index r files).symm)]
  exact mem_listOf_ofFiles hadds rfl

/-- The uses from outside of a path are the imports shown under it that count as such. -/
theorem mem_external_ofFiles {r : Readers} {files : List SourceFile} :
    x ∈ (ofFiles r files).external.listOf p ↔
      ∃ f ∈ files, pathOf f = p ∧ ∃ language text, Shows r (ofFiles r files) f language text ∧
        x = text ∧ (ofFiles r files).IsOutside language p (contentOf f) text := by
  have hadds : Adds external (Index.ofFiles r files) fun language source content text x =>
      x = text ∧ (ofFiles r files).IsOutside language source content text := by
    intro g language source content text p x hg
    rw [mem_external_addImport, isOutside_congr (hg.trans (ofFiles_index r files).symm)]
  exact mem_listOf_ofFiles hadds rfl

/-! ### One file -/

variable {r : Readers} {files : List SourceFile} {f : SourceFile} {u : IndexedFile}

/-- All imports of an indexed file are looked at: only a settings file, which has none, can be read
without a text. -/
theorem importsOf_of_index (hu : r.index? f = some u) (g : Graph) :
    g.importsOf u.language f u = u.imports := by
  obtain ⟨language, facts, -, hread, rfl⟩ := Readers.exists_of_index? hu
  show g.importsOf language f (indexed _ language facts) = facts.importsFor language
  rw [importsOf]
  rcases Facts.of_readContent hread with ⟨code, hcode, -⟩ | ⟨rfl, rfl⟩
  · have hsearch : canSearch f = true := by simp [canSearch, hcode]
    rw [hsearch]
    rfl
  · simp [Facts.importsFor]

/-- The entries of the index are the files that can be read, if no path is given twice. -/
theorem mem_entries_iff (hnd : (files.map pathOf).Nodup) {w : IndexedFile} :
    (v, w) ∈ r.entries files ↔ (ofFiles r files).index.files.get? v = some w := by
  rw [ofFiles_index, ← Index.files_ofFiles hnd]
  exact ⟨Table.get?_of_mem (Index.ofFiles_names_nodup r files), Table.mem_of_get?⟩

theorem get?_of_index (hnd : (files.map pathOf).Nodup) (hf : f ∈ files)
    (hu : r.index? f = some u) : (ofFiles r files).index.files.get? (pathOf f) = some u :=
  (mem_entries_iff hnd).mp (Readers.mem_entries.mpr ⟨f, hf, hu, rfl⟩)

theorem shows_of_index (hnd : (files.map pathOf).Nodup) (hf : f ∈ files)
    (hu : r.index? f = some u) :
    Shows r (ofFiles r files) f language text ↔ language = u.language ∧ text ∈ u.imports := by
  have hlanguage : r.languageOf? f = some u.language := by
    obtain ⟨language, facts, hlanguage, -, rfl⟩ := Readers.exists_of_index? hu
    exact hlanguage
  rw [Shows, hlanguage, get?_of_index hnd hf hu, Option.some.injEq]
  constructor
  · rintro ⟨rfl, _, hsome, htext⟩
    cases hsome
    rw [importsOf_of_index hu] at htext
    exact ⟨rfl, htext⟩
  · rintro ⟨rfl, htext⟩
    rw [← importsOf_of_index hu] at htext
    exact ⟨rfl, u, rfl, htext⟩

theorem exists_shows_iff (hnd : (files.map pathOf).Nodup) (hf : f ∈ files)
    (hu : r.index? f = some u) {N : SourceFile → Language → String → Prop} :
    (∃ f' ∈ files, pathOf f' = pathOf f ∧
        ∃ language text, Shows r (ofFiles r files) f' language text ∧ N f' language text) ↔
      ∃ i ∈ u.imports, N f u.language i := by
  constructor
  · rintro ⟨f', hf', hpath, language, text, hshows, hN⟩
    obtain rfl : f' = f := List.inj_on_of_nodup_map hnd hf' hf hpath
    obtain ⟨rfl, htext⟩ := (shows_of_index hnd hf hu).mp hshows
    exact ⟨text, htext, hN⟩
  · rintro ⟨i, hi, hN⟩
    exact ⟨f, hf, rfl, u.language, i, (shows_of_index hnd hf hu).mpr ⟨rfl, hi⟩, hN⟩

/-- The targets of a file, if no path is given twice: what its own imports stand for. -/
theorem mem_targets_of_index (hnd : (files.map pathOf).Nodup) (hf : f ∈ files)
    (hu : r.index? f = some u) :
    v ∈ (ofFiles r files).targets (pathOf f) ↔
      ∃ i ∈ u.imports, v ∈ (ofFiles r files).inside u.language (pathOf f) (contentOf f) i := by
  rw [mem_targets_ofFiles]
  exact exists_shows_iff (N := fun f' language text =>
    v ∈ (ofFiles r files).inside language (pathOf f) (contentOf f') text) hnd hf hu

theorem mem_external_of_index (hnd : (files.map pathOf).Nodup) (hf : f ∈ files)
    (hu : r.index? f = some u) :
    x ∈ (ofFiles r files).external.listOf (pathOf f) ↔
      x ∈ u.imports ∧ (ofFiles r files).IsOutside u.language (pathOf f) (contentOf f) x := by
  rw [mem_external_ofFiles, exists_shows_iff (N := fun f' language text =>
    x = text ∧ (ofFiles r files).IsOutside language (pathOf f) (contentOf f') text) hnd hf hu]
  constructor
  · rintro ⟨i, hi, rfl, hout⟩
    exact ⟨hi, hout⟩
  · rintro ⟨hx, hout⟩
    exact ⟨x, hx, rfl, hout⟩

end Graph

end CodeScribe.Dependency
