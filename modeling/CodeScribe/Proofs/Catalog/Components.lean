import CodeScribe.Proofs.Catalog.Flows
import CodeScribe.Proofs.Dependency.Imports
import CodeScribe.Proofs.Dependency.WellFormed
import CodeScribe.Proofs.Path

/-!
# The components that controllers depend on

A catalog looks up the source of a controller, the sources it depends on, and the classes of these.
It keeps sources by the paths as they come, a dependency graph by their normal forms; and only
classes with the right ending are looked up, though others may count as controllers.

* `mem_dependencies_iff` — which classes come in, by the paths as they come, and by the paths of
  the dependency graph.
-/

namespace CodeScribe.Catalog

open Dependency (pathOf)
open SourceFile (normalText normalText_normalText)

variable {classes : ClassMap} {name d : String}

/-! ### What a catalog takes from a graph -/

/-- The path under which the classes of a file stand. -/
def placeText (f : SourceFile) : String := f.place.text?.getD ""

theorem mem_names_classMap {path : String} (os : List (String × Outline)) (t : ClassMap)
    (h : path ∈ Table.names (os.foldl (fun t (path, o) => Table.set t path o.classes) t)) :
    path ∈ t.names ∨ path ∈ os.map (·.1) := by
  induction os generalizing t with
  | nil => exact .inl h
  | cons o os ih =>
    obtain hmem | hmem := ih _ h
    · obtain hmem | rfl := Table.mem_names_alter.mp hmem
      · exact .inl hmem
      · exact .inr (List.mem_cons_self)
    · exact .inr (List.mem_cons_of_mem _ hmem)

theorem mem_names_of_controllerFile {path : String} (h : controllerFile classes name = some path) :
    path ∈ classes.names := by
  rw [controllerFile] at h
  split at h
  · obtain ⟨entry, hfind, rfl⟩ := Option.map_eq_some_iff.mp h
    exact List.mem_map_of_mem (List.mem_reverse.mp (List.mem_of_find?_eq_some hfind))
  · cases h

/-- Components depend on the targets of sources alone. -/
theorem componentsOf_congr {targets targets' : String → List String}
    (h : ∀ path ∈ classes.names, targets path = targets' path) (name : String) :
    componentsOf classes targets name = componentsOf classes targets' name := by
  rw [componentsOf, componentsOf]
  cases hfile : controllerFile classes name with
  | none => rfl
  | some path => simp only [h path (mem_names_of_controllerFile hfile)]

theorem ofFiles_congr {g g' : Dependency.Graph} {files : List SourceFile}
    (h : ∀ f ∈ files, g.targets (placeText f) = g'.targets (placeText f)) :
    ServiceCatalog.ofFiles (some g) files = ServiceCatalog.ofFiles (some g') files := by
  have hcomponents (name : String) :
      componentsOf ((outlines files).foldl (fun t (path, o) => Table.set t path o.classes) [])
        g.targets name =
      componentsOf ((outlines files).foldl (fun t (path, o) => Table.set t path o.classes) [])
        g'.targets name := by
    refine componentsOf_congr ?_ name
    intro path hpath
    obtain hmem | hmem := mem_names_classMap _ _ hpath
    · cases hmem
    · simp only [outlines, List.map_map, List.mem_map, List.mem_filter] at hmem
      obtain ⟨f, ⟨hf, -⟩, rfl⟩ := hmem
      exact h f hf
  simp only [ServiceCatalog.ofFiles, controllerDependencies, componentGraph, Option.map_some,
    Option.getD_some, hcomponents]

/-! ### The classes of sources -/

def sources (files : List SourceFile) : List SourceFile := files.filter isCSharp

def classesOf (f : SourceFile) : List String := (Outline.ofSource (contentText f).toList).classes

/-- The classes that a catalog looks up. -/
def classMap (files : List SourceFile) : ClassMap :=
  (outlines files).foldl (fun t (path, o) => Table.set t path o.classes) []

/-- The last source with a path: its classes stand under that path. -/
def lastAt (files : List SourceFile) (path : String) : Option SourceFile :=
  (sources files).reverse.find? fun f => placeText f == path

section Classes

variable {files : List SourceFile} {path : String}

theorem lastAt_eq_some {f : SourceFile} (h : lastAt files path = some f) :
    f ∈ sources files ∧ placeText f = path :=
  ⟨List.mem_reverse.mp (List.mem_of_find?_eq_some h), by simpa using List.find?_some h⟩

/-- No path stands twice in the classes, and under each stand those of the last source with it. -/
theorem classMap_spec (files : List SourceFile) :
    (classMap files).names.Nodup ∧
      ∀ path, (classMap files).get? path = (lastAt files path).map classesOf := by
  simp only [classMap, outlines, lastAt, sources]
  induction files.filter isCSharp using List.reverseRecOn with
  | nil => exact ⟨List.nodup_nil, fun _ => rfl⟩
  | append_singleton fs f ih =>
    obtain ⟨hnd, hget⟩ := ih
    rw [List.map_append, List.foldl_append]
    refine ⟨Table.nodup_names_alter hnd _ _, fun path => ?_⟩
    rw [List.map_singleton, List.foldl_cons, List.foldl_nil, List.reverse_append, Table.get?_set,
      hget, List.reverse_singleton, List.singleton_append, List.find?_cons]
    show (if path = placeText f then some (classesOf f) else _) = _
    by_cases hpath : path = placeText f
    · have hsame : (placeText f == path) = true := by simp [hpath]
      rw [if_pos hpath, hsame]
      rfl
    · have hother : (placeText f == path) = false := beq_false_of_ne fun h => hpath h.symm
      rw [if_neg hpath, hother]

theorem mem_listOf_classMap {d : String} :
    d ∈ (classMap files).listOf path ↔ ∃ v, lastAt files path = some v ∧ d ∈ classesOf v := by
  rw [Table.listOf, (classMap_spec files).2]
  cases lastAt files path <;> simp

theorem mem_classMap {e : String × List String} :
    e ∈ classMap files ↔ ∃ v, lastAt files e.1 = some v ∧ e.2 = classesOf v := by
  obtain ⟨hnd, hget⟩ := classMap_spec files
  have hentry : e ∈ classMap files ↔ (classMap files).get? e.1 = some e.2 :=
    ⟨Table.get?_of_mem hnd, Table.mem_of_get?⟩
  rw [hentry, hget, Option.map_eq_some_iff]
  simp only [eq_comm]

/-- Some source declares a class, and no other one does. -/
structure DeclaredOnlyIn (files : List SourceFile) (name : String) (u : SourceFile) : Prop where
  source : u ∈ sources files
  declares : name ∈ classesOf u
  only : ∀ w ∈ sources files, name ∈ classesOf w → w = u

theorem controllerFile_classMap {name : String} {u : SourceFile}
    (hu : DeclaredOnlyIn files name u) :
    controllerFile (classMap files) name = some path ↔
      Text.endsWith name "Controller" = true ∧ lastAt files path = some u := by
  rw [controllerFile]
  by_cases hend : Text.endsWith name "Controller" = true
  · rw [if_pos hend, and_iff_right hend, Option.map_eq_some_iff]
    have hentry {e : String × List String}
        (he : ((classMap files).reverse.find? fun e => e.2.contains name) = some e) :
        lastAt files e.1 = some u := by
      obtain ⟨v, hv, hclasses⟩ :=
        mem_classMap.mp (List.mem_reverse.mp (List.mem_of_find?_eq_some he))
      have hname : name ∈ classesOf v := by
        rw [← hclasses]
        simpa using List.find?_some he
      rw [hv, hu.only v (lastAt_eq_some hv).1 hname]
    constructor
    · rintro ⟨e, he, rfl⟩
      exact hentry he
    · intro hlast
      have hfound : ((classMap files).reverse.find? fun e => e.2.contains name).isSome := by
        rw [List.find?_isSome]
        refine ⟨(path, classesOf u), List.mem_reverse.mpr (mem_classMap.mpr ⟨u, hlast, rfl⟩), ?_⟩
        simpa using hu.declares
      obtain ⟨e, he⟩ := Option.isSome_iff_exists.mp hfound
      exact ⟨e, he, (lastAt_eq_some (hentry he)).2.symm.trans (lastAt_eq_some hlast).2⟩
  · simp [hend]

end Classes

/-! ### The components of controllers -/

theorem mem_listOf_foldl_enter {pairs : List (String × String)} :
    d ∈ (pairs.foldl enter []).listOf name ↔ (name, d) ∈ pairs := by
  have hmem : d ∈ (pairs.filter (·.1 == name)).map (·.2) ↔ (name, d) ∈ pairs := by simp
  rw [← hmem, Table.listOf, get?_foldl_enter]
  dsimp only
  split
  · rename_i hnone
    simp [hnone]
  · rw [Option.getD_some, List.mem_eraseDups]

theorem mem_controllerDependencies {targets : String → List String}
    {controllers : List Controller} :
    d ∈ (controllerDependencies classes targets controllers).listOf name ↔
      (∃ c ∈ controllers, c.name = name) ∧ d ∈ componentsOf classes targets name := by
  have hpairs : controllerDependencies classes targets controllers =
      (controllers.flatMap fun c =>
        (componentsOf classes targets c.name).map fun d => (c.name, d)).foldl enter [] := by
    rw [List.foldl_flatMap, controllerDependencies]
    simp only [List.foldl_map]
    rfl
  rw [hpairs, mem_listOf_foldl_enter]
  simp only [List.mem_flatMap, List.mem_map, Prod.mk.injEq]
  grind

theorem dependencies_ofFiles (g : Dependency.Graph) (files : List SourceFile) :
    (ServiceCatalog.ofFiles (some g) files).dependencies =
      controllerDependencies (classMap files) g.targets
        (ServiceCatalog.ofFiles (some g) files).controllers := rfl

/-- The classes that a controller depends on, by the paths as they come. -/
theorem mem_dependencies_of_places {g : Dependency.Graph} {files : List SourceFile} {c : Controller}
    (hc : c ∈ (ServiceCatalog.ofFiles (some g) files).controllers) {u : SourceFile}
    (hu : DeclaredOnlyIn files c.name u) :
    d ∈ (ServiceCatalog.ofFiles (some g) files).dependencies.listOf c.name ↔
      Text.endsWith c.name "Controller" = true ∧ placeText u ≠ "" ∧
      lastAt files (placeText u) = some u ∧
      ∃ v, lastAt files (placeText v) = some v ∧ placeText v ∈ g.targets (placeText u) ∧
        d ∈ classesOf v ∧ isComponent d = true := by
  have hcontroller : ∃ c' ∈ (ServiceCatalog.ofFiles (some g) files).controllers,
      c'.name = c.name := ⟨c, hc, rfl⟩
  rw [dependencies_ofFiles, mem_controllerDependencies, and_iff_right hcontroller, componentsOf]
  cases hfile : controllerFile (classMap files) c.name with
  | none =>
    refine iff_of_false List.not_mem_nil ?_
    rintro ⟨hend, -, hlast, -⟩
    rw [(controllerFile_classMap hu).mpr ⟨hend, hlast⟩] at hfile
    cases hfile
  | some path =>
    obtain ⟨hend, hlast⟩ := (controllerFile_classMap hu).mp hfile
    obtain rfl := (lastAt_eq_some hlast).2
    dsimp only
    rw [and_iff_right hend, and_iff_right hlast]
    by_cases hempty : placeText u = ""
    · simp [hempty]
    · have hpath : (placeText u == "") = false := beq_false_of_ne hempty
      rw [hpath, if_neg Bool.false_ne_true, and_iff_right hempty]
      simp only [List.mem_flatMap, List.mem_filter, mem_listOf_classMap]
      constructor
      · rintro ⟨t, ht, ⟨v, hv, hd⟩, hcomponent⟩
        obtain rfl := (lastAt_eq_some hv).2
        exact ⟨v, hv, ht, hd, hcomponent⟩
      · rintro ⟨v, hv, ht, hd, hcomponent⟩
        exact ⟨_, ht, ⟨v, hv, hd⟩, hcomponent⟩

/-! ### Paths of a dependency graph -/

/-- Files with different paths, each indexed under the normal form of the path by which a catalog
knows it. -/
structure HaveOnePlace (files : List SourceFile) : Prop where
  distinct : (files.map pathOf).Nodup
  place : ∀ f ∈ files, pathOf f = normalText (placeText f)

section Places

variable {r : Dependency.Readers} {files : List SourceFile} (h : HaveOnePlace files)
  {f : SourceFile}

include h

/-- No other source stands in for one. -/
theorem HaveOnePlace.lastAt_placeText (hf : f ∈ sources files) :
    lastAt files (placeText f) = some f := by
  have hfound : (lastAt files (placeText f)).isSome := by
    rw [lastAt, List.find?_isSome]
    exact ⟨f, List.mem_reverse.mpr hf, beq_self_eq_true _⟩
  obtain ⟨v, hv⟩ := Option.isSome_iff_exists.mp hfound
  obtain ⟨hmem, hplace⟩ := lastAt_eq_some hv
  have hpath : pathOf v = pathOf f := by
    rw [h.place v (List.mem_of_mem_filter hmem), h.place f (List.mem_of_mem_filter hf), hplace]
  rw [hv, List.inj_on_of_nodup_map h.distinct (List.mem_of_mem_filter hmem)
    (List.mem_of_mem_filter hf) hpath]

/-- An indexed path that a catalog knows a file by is the path under which that file is indexed. -/
theorem HaveOnePlace.eq_of_mem_paths (hf : f ∈ files)
    (hpath : placeText f ∈ (Dependency.Graph.ofFiles r files).paths) : placeText f = pathOf f := by
  have hindexed : placeText f ∈ files.map pathOf := by
    rw [Dependency.Graph.paths, Dependency.Graph.ofFiles_index,
      Dependency.Index.files_ofFiles h.distinct] at hpath
    exact (r.names_entries_sublist files).subset hpath
  obtain ⟨w, hw, heq⟩ := List.mem_map.mp hindexed
  calc placeText f = pathOf w := heq.symm
    _ = normalText (pathOf w) := by rw [h.place w hw, normalText_normalText]
    _ = pathOf f := by rw [heq, h.place f hf]

end Places

abbrev ServiceCatalog.analyzed (r : Dependency.Readers) (files : List SourceFile) :
    ServiceCatalog :=
  ServiceCatalog.ofFiles (some (.ofFiles r files)) files

/-- A controller that one source declares depends in the catalog on exactly the services,
repositories, consumers, handlers and interfaces of the sources whose paths, as they come, are
targets of the path of its own source, as it comes; and on nothing unless its name ends as it should
and no later source has the same path.  So if every file is indexed under the normal form of its
path, the sources that the own one depends on are found exactly if both come with their paths in
normal form. -/
theorem mem_dependencies_iff (r : Dependency.Readers) (files : List SourceFile) (c : Controller)
    (u : SourceFile) (d : String) (hc : c ∈ (ServiceCatalog.analyzed r files).controllers)
    (hu : DeclaredOnlyIn files c.name u) :
    (d ∈ (ServiceCatalog.analyzed r files).dependencies.listOf c.name ↔
      Text.endsWith c.name "Controller" = true ∧ placeText u ≠ "" ∧
      lastAt files (placeText u) = some u ∧
      ∃ v, lastAt files (placeText v) = some v ∧
        placeText v ∈ (Dependency.Graph.ofFiles r files).targets (placeText u) ∧
        d ∈ classesOf v ∧ isComponent d = true) ∧
    (HaveOnePlace files →
      (d ∈ (ServiceCatalog.analyzed r files).dependencies.listOf c.name ↔
        Text.endsWith c.name "Controller" = true ∧ pathOf u ≠ "" ∧ placeText u = pathOf u ∧
        ∃ v ∈ sources files, placeText v = pathOf v ∧
          pathOf v ∈ (Dependency.Graph.ofFiles r files).targets (pathOf u) ∧
          d ∈ classesOf v ∧ isComponent d = true)) := by
  refine ⟨mem_dependencies_of_places hc hu, fun hfiles => ?_⟩
  rw [mem_dependencies_of_places hc hu]
  constructor
  · rintro ⟨hend, hne, -, v, hlast, htarget, hd⟩
    have hv := (lastAt_eq_some hlast).1
    obtain ⟨hsource, hpath, -⟩ := (Dependency.Graph.wellFormed_ofFiles r files).target htarget
    have hplace : placeText u = pathOf u :=
      hfiles.eq_of_mem_paths (List.mem_of_mem_filter hu.source) hsource
    have hplace' : placeText v = pathOf v :=
      hfiles.eq_of_mem_paths (List.mem_of_mem_filter hv) hpath
    rw [hplace] at hne
    rw [hplace, hplace'] at htarget
    exact ⟨hend, hne, hplace, v, hv, hplace', htarget, hd⟩
  · rintro ⟨hend, hne, hplace, v, hv, hplace', htarget, hd⟩
    rw [← hplace] at hne
    rw [← hplace, ← hplace'] at htarget
    exact ⟨hend, hne, hfiles.lastAt_placeText hu.source, v, hfiles.lastAt_placeText hv, htarget,
      hd⟩

def userSource (attributes name : String) : SourceFile :=
  .ofTexts "A.cs" "A.cs" "A.cs" "csharp"
    ("using N;\n" ++ attributes ++ "class " ++ name ++ " \x7b SService s; \x7d")

def serviceSource : SourceFile :=
  .ofTexts "S.cs" "S.cs" "S.cs" "csharp" "namespace N \x7b class SService \x7b \x7d \x7d"

def userFiles (attributes name : String) : List SourceFile :=
  [userSource attributes name, serviceSource]

theorem haveOnePlace_userFiles (attributes name : String) :
    HaveOnePlace (userFiles attributes name) where
  distinct := by
    show ["A.cs", "S.cs"].Nodup
    decide
  place := by
    intro f hf
    rcases List.mem_pair.mp hf with rfl | rfl
    · rfl
    · rfl

theorem declaredOnlyIn_userFiles {attributes : String}
    (huser : classesOf (userSource attributes name) = [name]) (hne : name ≠ "SService") :
    DeclaredOnlyIn (userFiles attributes name) name (userSource attributes name) where
  source := List.mem_cons_self
  declares := by simp [huser]
  only := by
    intro w hw hname
    rcases List.mem_pair.mp (List.mem_of_mem_filter hw) with rfl | rfl
    · rfl
    · have hservice : classesOf serviceSource = ["SService"] := by decide
      rw [hservice, List.mem_singleton] at hname
      exact absurd hname hne

theorem service_of_controller_listed :
    ∃ c ∈ (ServiceCatalog.analyzed {} (userFiles "" "OrdersController")).controllers,
      HaveOnePlace (userFiles "" "OrdersController") ∧
      DeclaredOnlyIn (userFiles "" "OrdersController") c.name
        (userSource "" "OrdersController") ∧
      "SService" ∈ (ServiceCatalog.analyzed {}
        (userFiles "" "OrdersController")).dependencies.listOf c.name := by
  have hcontrollers : (ServiceCatalog.analyzed {}
      (userFiles "" "OrdersController")).controllers.map (·.name) = ["OrdersController"] := by
    decide
  have htargets : (Dependency.Graph.ofFiles {} (userFiles "" "OrdersController")).targets "A.cs" =
      ["S.cs"] := by decide
  obtain ⟨c, hc, hname⟩ := List.map_eq_singleton_iff.mp hcontrollers
  have hmem : c ∈ (ServiceCatalog.analyzed {} (userFiles "" "OrdersController")).controllers := by
    simp [hc]
  have honly : DeclaredOnlyIn (userFiles "" "OrdersController") c.name
      (userSource "" "OrdersController") := by
    rw [hname]
    exact declaredOnlyIn_userFiles (by decide) (by decide)
  have hfiles := haveOnePlace_userFiles "" "OrdersController"
  refine ⟨c, hmem, hfiles, honly, ?_⟩
  refine ((mem_dependencies_iff {} _ c _ "SService" hmem honly).2 hfiles).mpr
    ⟨?_, ?_, rfl, serviceSource, List.mem_cons_of_mem _ List.mem_cons_self, rfl, ?_, ?_, ?_⟩
  · rw [hname]
    decide
  · decide
  · show "S.cs" ∈ (Dependency.Graph.ofFiles {} _).targets "A.cs"
    simp [htargets]
  · decide
  · decide

/-- A controller by attribute depends on a service, but its name is not looked up. -/
theorem service_of_controller_lost :
    ∃ c ∈ (ServiceCatalog.analyzed {} (userFiles "[ApiController]\n" "Orders")).controllers,
      HaveOnePlace (userFiles "[ApiController]\n" "Orders") ∧
      DeclaredOnlyIn (userFiles "[ApiController]\n" "Orders") c.name
        (userSource "[ApiController]\n" "Orders") ∧
      pathOf serviceSource ∈ (Dependency.Graph.ofFiles {}
        (userFiles "[ApiController]\n" "Orders")).targets
          (pathOf (userSource "[ApiController]\n" "Orders")) ∧
      "SService" ∈ classesOf serviceSource ∧ isComponent "SService" = true ∧
      (ServiceCatalog.analyzed {}
        (userFiles "[ApiController]\n" "Orders")).dependencies.listOf c.name = [] := by
  have hcontrollers : (ServiceCatalog.analyzed {}
      (userFiles "[ApiController]\n" "Orders")).controllers.map (·.name) = ["Orders"] := by
    decide
  have htargets : (Dependency.Graph.ofFiles {}
      (userFiles "[ApiController]\n" "Orders")).targets "A.cs" = ["S.cs"] := by decide
  obtain ⟨c, hc, hname⟩ := List.map_eq_singleton_iff.mp hcontrollers
  refine ⟨c, by simp [hc], haveOnePlace_userFiles _ _, ?_, ?_, by decide,
    by decide, ?_⟩
  · rw [hname]
    exact declaredOnlyIn_userFiles (by decide) (by decide)
  · show "S.cs" ∈ (Dependency.Graph.ofFiles {} _).targets "A.cs"
    simp [htargets]
  · rw [hname]
    decide

end CodeScribe.Catalog
