import CodeScribe.Catalog.Build
import CodeScribe.Proofs.Source.Names
import CodeScribe.Proofs.Table

/-!
# The method bodies behind endpoints

A catalog keeps the bodies of its endpoints by controller and method, over all classes and all
sources.  This file says which body a flow is made from.

* `flow_begins_with_last_body` — a flow begins with the steps of the last body of its controller
  and method: its own, unless another method of that name follows.
-/

namespace CodeScribe.Catalog

open Pattern Text

variable {e e' : Endpoint}

/-! ### What is extracted -/

def classEndpoints (code : List Char) (m : Match) : List (Endpoint × List Char) :=
  let body := Declaration.bodyOf code m
  if body.isEmpty then []
  else endpointsIn (m.get 2) (resolveRoute (routeIn ((m.chars? 1).getD [])) (m.get 2)) body

/-- The endpoints of a source, each with the body of its method. -/
def extractedFrom (code : List Char) : List (Endpoint × List Char) :=
  (classPattern.findAll code).flatMap (classEndpoints code)

/-- The endpoints of the C# sources among files, each with the body of its method. -/
def extracted (files : List SourceFile) : List (Endpoint × List Char) :=
  (files.filter isCSharp).flatMap fun f => extractedFrom (contentText f).toList

/-- The name under which the body of an endpoint is kept. -/
def Endpoint.key (e : Endpoint) : String := bodyKey e.controller e.method

/-- Bodies with the names under which they are kept. -/
def keyed (xs : List (Endpoint × List Char)) : List (String × List Char) :=
  xs.map fun x => (x.1.key, x.2)

def setAll (t : Table (List Char)) (pairs : List (String × List Char)) : Table (List Char) :=
  pairs.foldl (fun t (key, body) => t.set key body) t

theorem endpoints_addClass (code : List Char) (o : Outline) (m : Match) :
    (o.addClass code m).endpoints = o.endpoints ++ (classEndpoints code m).map (·.1) := by
  rw [Outline.addClass, classEndpoints]
  by_cases hbody : (Declaration.bodyOf code m).isEmpty = true
  · simp [hbody]
  · simp [hbody]

theorem bodies_addClass (code : List Char) (o : Outline) (m : Match) :
    (o.addClass code m).bodies = setAll o.bodies (keyed (classEndpoints code m)) := by
  rw [Outline.addClass, classEndpoints]
  by_cases hbody : (Declaration.bodyOf code m).isEmpty = true
  · simp [hbody, setAll, keyed]
  · simp [hbody, setAll, keyed, List.foldl_map, Endpoint.key]

theorem foldl_addClass (code : List Char) (ms : List Match) (o : Outline) :
    (ms.foldl (Outline.addClass code) o).endpoints =
        o.endpoints ++ (ms.flatMap (classEndpoints code)).map (·.1) ∧
      (ms.foldl (Outline.addClass code) o).bodies =
        setAll o.bodies (keyed (ms.flatMap (classEndpoints code))) := by
  induction ms generalizing o with
  | nil => simp [setAll, keyed]
  | cons m ms ih =>
    obtain ⟨hendpoints, hbodies⟩ := ih (o.addClass code m)
    rw [List.foldl_cons, hendpoints, hbodies, endpoints_addClass, bodies_addClass]
    simp [setAll, keyed]

theorem endpoints_ofSource (code : List Char) :
    (Outline.ofSource code).endpoints = (extractedFrom code).map (·.1) := by
  rw [Outline.ofSource, (foldl_addClass code _ {}).1]
  rfl

theorem bodies_ofSource (code : List Char) :
    (Outline.ofSource code).bodies = setAll [] (keyed (extractedFrom code)) :=
  (foldl_addClass code _ {}).2

/-! ### The last body of a name -/

theorem get?_append (t u : Table (List Char)) (key : String) :
    Table.get? (t ++ u) key = (t.get? key).or (u.get? key) := by
  induction t with
  | nil => rfl
  | cons e t ih =>
    obtain ⟨k, b⟩ := e
    rw [List.cons_append, Table.get?_cons, Table.get?_cons, ih]
    split <;> rfl

/-- Of bodies entered one by one under a name, the last is kept. -/
theorem get?_setAll (t : Table (List Char)) (pairs : List (String × List Char)) (key : String) :
    (setAll t pairs).get? key = (Table.get? pairs.reverse key).or (t.get? key) := by
  induction pairs generalizing t with
  | nil => rfl
  | cons pair pairs ih =>
    obtain ⟨k, b⟩ := pair
    have hfirst : (setAll t ((k, b) :: pairs)).get? key = (setAll (t.set k b) pairs).get? key := rfl
    rw [hfirst, ih, List.reverse_cons, get?_append, Option.or_assoc, Table.set, Table.get?_alter,
      Table.get?_cons]
    split <;> rfl

theorem nodup_names_setAll {t : Table (List Char)} (h : t.names.Nodup)
    (pairs : List (String × List Char)) : (setAll t pairs).names.Nodup := by
  induction pairs generalizing t with
  | nil => exact h
  | cons pair pairs ih => exact ih (Table.nodup_names_alter h _ _)

theorem get?_reverse_bodies (code : List Char) (key : String) :
    Table.get? (Outline.ofSource code).bodies.reverse key =
      Table.get? (keyed (extractedFrom code)).reverse key := by
  have hnodup : (setAll [] (keyed (extractedFrom code))).names.Nodup :=
    nodup_names_setAll (by simp) _
  rw [bodies_ofSource, ← Table.get?_of_perm hnodup (List.reverse_perm _).symm, get?_setAll]
  exact Option.or_none

/-- The last bodies of names do not change if sources are put one behind the other. -/
theorem get?_reverse_flatMap {α : Type} {f g : α → List (String × List Char)} {key : String}
    (h : ∀ a, Table.get? (f a).reverse key = Table.get? (g a).reverse key) (as : List α) :
    Table.get? (as.flatMap f).reverse key = Table.get? (as.flatMap g).reverse key := by
  induction as with
  | nil => rfl
  | cons a as ih =>
    rw [List.flatMap_cons, List.flatMap_cons, List.reverse_append, List.reverse_append,
      get?_append, get?_append, ih, h]

/-! ### Names of endpoints -/

def Endpoint.Named (e : Endpoint) : Prop :=
  ∃ c m, e.controller = some c ∧ e.method = some m ∧ MadeOf isWord c ∧ MadeOf isWord m

theorem named_of_mem_extracted {files : List SourceFile} {x : Endpoint × List Char}
    (h : x ∈ extracted files) : x.1.Named := by
  obtain ⟨f, -, h⟩ := List.mem_flatMap.mp h
  obtain ⟨m, hm, h⟩ := List.mem_flatMap.mp h
  have hclass : MadeOf isWord (m.get 2) := (findAll_sound hm).get_span1
    (by simp [classPattern, numbers]; rfl)
  rw [classEndpoints] at h
  split at h
  · cases h
  · obtain ⟨method, hmethod, h⟩ := List.mem_filterMap.mp h
    obtain ⟨m', -, hmethod⟩ := List.mem_filterMap.mp hmethod
    obtain ⟨n, hn, rfl⟩ := Option.map_eq_some_iff.mp hmethod
    have hname : MadeOf isWord (n.get 1) := (find?_sound hn).get_span1 (by simp [namePattern]; rfl)
    dsimp only at h
    split at h
    · cases h
    · cases h
      exact ⟨m.get 2, n.get 1, rfl, rfl, hclass, hname⟩

/-- Controller and method can be read off the name under which a body is kept. -/
theorem key_inj (he : e.Named) (he' : e'.Named) :
    e.key = e'.key ↔ e.controller = e'.controller ∧ e.method = e'.method := by
  obtain ⟨c, m, hc, hm, -, hword⟩ := he
  obtain ⟨c', m', hc', hm', -, hword'⟩ := he'
  rw [Endpoint.key, Endpoint.key, hc, hm, hc', hm', bodyKey, bodyKey]
  simp only [Option.getD_some, Option.some.injEq]
  constructor
  · intro h
    have hlast := congrArg (lastPiece · ".") h
    simp only [lastPiece_append] at hlast
    rw [lastPiece_of_not_mem (hword.not_mem (by decide)),
      lastPiece_of_not_mem (hword'.not_mem (by decide))] at hlast
    subst hlast
    have hfront := congrArg String.toList h
    simp only [String.toList_append, List.append_cancel_right_eq] at hfront
    exact ⟨String.toList_inj.mp hfront, rfl⟩
  · rintro ⟨rfl, rfl⟩
    rfl

def Endpoint.sameMethod (e e' : Endpoint) : Bool :=
  e.controller == e'.controller && e.method == e'.method

theorem sameMethod_iff (he : e.Named) (he' : e'.Named) :
    e.sameMethod e' = true ↔ e.key = e'.key := by
  rw [key_inj he he', Endpoint.sameMethod, Bool.and_eq_true, beq_iff_eq, beq_iff_eq]

def lastBody (xs : List (Endpoint × List Char)) (e : Endpoint) : List Char :=
  ((xs.reverse.find? fun x => x.1.sameMethod e).map (·.2)).getD []

theorem get?_keyed {xs : List (Endpoint × List Char)} (he : e.Named) (hxs : ∀ x ∈ xs, x.1.Named) :
    Table.get? (keyed xs) e.key = (xs.find? fun x => x.1.sameMethod e).map (·.2) := by
  induction xs with
  | nil => rfl
  | cons x xs ih =>
    obtain ⟨hx, hxs⟩ := List.forall_mem_cons.mp hxs
    have hcons : keyed (x :: xs) = (x.1.key, x.2) :: keyed xs := rfl
    have hsame := sameMethod_iff hx he
    rw [hcons, Table.get?_cons, List.find?_cons, ih hxs]
    by_cases hkey : e.key = x.1.key
    · rw [if_pos hkey, hsame.mpr hkey.symm]
      rfl
    · have hother : x.1.sameMethod e = false :=
        Bool.eq_false_iff.mpr fun h => hkey (hsame.mp h).symm
      rw [if_neg hkey, hother]

/-! ### The catalog -/

def keptBodies (files : List SourceFile) : Table (List Char) :=
  setAll [] (((outlines files).map (·.2)).flatMap (·.bodies))

theorem flows_ofFiles (graph : Option Dependency.Graph) (files : List SourceFile) :
    (ServiceCatalog.ofFiles graph files).flows =
      (ServiceCatalog.ofFiles graph files).endpoints.map (flowOf (keptBodies files)
        (consumersByMessage ((files.filter isCSharp).map contentText))) := rfl

theorem endpoints_ofFiles (graph : Option Dependency.Graph) (files : List SourceFile) :
    (ServiceCatalog.ofFiles graph files).endpoints = (extracted files).map (·.1) := by
  show ((outlines files).map (·.2)).flatMap (·.endpoints) = _
  rw [outlines, List.map_map, List.flatMap_map, extracted, List.map_flatMap]
  exact List.flatMap_congr fun f _ => endpoints_ofSource _

theorem get?_keptBodies {files : List SourceFile} (he : e.Named) :
    ((keptBodies files).get? e.key).getD [] = lastBody (extracted files) e := by
  have hkept : ((outlines files).map (·.2)).flatMap (·.bodies) =
      (files.filter isCSharp).flatMap fun f =>
        (Outline.ofSource (contentText f).toList).bodies := by
    rw [outlines, List.map_map, List.flatMap_map]
    rfl
  have hkeyed : keyed (extracted files) =
      (files.filter isCSharp).flatMap fun f => keyed (extractedFrom (contentText f).toList) :=
    List.map_flatMap ..
  have hnamed : ∀ x ∈ (extracted files).reverse, x.1.Named :=
    fun x hx => named_of_mem_extracted (List.mem_reverse.mp hx)
  have hreverse : (keyed (extracted files)).reverse = keyed (extracted files).reverse :=
    (List.map_reverse ..).symm
  rw [keptBodies, get?_setAll, hkept, get?_reverse_flatMap fun f => get?_reverse_bodies _ _,
    ← hkeyed, hreverse, get?_keyed he hnamed, lastBody]
  exact congrArg (Option.getD · []) Option.or_none

/-- The steps of a flow depend on the endpoint only through its name. -/
theorem steps_flowOf_congr (bodies : Table (List Char)) (consumers : Table (List Consumer))
    (h : e.key = e'.key) :
    (flowOf bodies consumers e).steps = (flowOf bodies consumers e').steps := by
  rw [Endpoint.key, Endpoint.key] at h
  rw [flowOf, flowOf, h]

theorem stepsFor_flows (bodies : Table (List Char)) (consumers : Table (List Consumer))
    {endpoints : List Endpoint} (he : e ∈ endpoints) :
    stepsFor (endpoints.map (flowOf bodies consumers)) e = (flowOf bodies consumers e).steps := by
  have hsome : ((endpoints.map (flowOf bodies consumers)).reverse.find? fun f =>
      bodyKey f.endpoint.controller f.endpoint.method == bodyKey e.controller e.method).isSome := by
    rw [List.find?_isSome]
    exact ⟨flowOf bodies consumers e, by simpa using ⟨e, he, rfl⟩, beq_self_eq_true _⟩
  obtain ⟨f, hf⟩ := Option.isSome_iff_exists.mp hsome
  obtain ⟨e', -, rfl⟩ := List.mem_map.mp (List.mem_reverse.mp (List.mem_of_find?_eq_some hf))
  have hfound := List.find?_some hf
  have hkey : e'.key = e.key := beq_iff_eq.mp hfound
  rw [stepsFor, hf]
  exact steps_flowOf_congr _ _ hkey

/-- Without a later method of the same controller and name, the last body is the own one. -/
theorem lastBody_eq {xs : List (Endpoint × List Char)} {k : Nat} {body : List Char}
    (h : xs[k]? = some (e, body))
    (hlater : ∀ j x, k < j → xs[j]? = some x → x.1.sameMethod e = false) :
    lastBody xs e = body := by
  obtain ⟨hk, hget⟩ := List.getElem?_eq_some_iff.mp h
  have hnone : (xs.drop (k + 1)).reverse.find? (fun x => x.1.sameMethod e) = none := by
    rw [List.find?_eq_none]
    intro x hx
    obtain ⟨j, hj⟩ := List.mem_iff_getElem?.mp (List.mem_reverse.mp hx)
    rw [List.getElem?_drop] at hj
    simp [hlater _ x (by omega) hj]
  have hself : e.sameMethod e = true := by simp [Endpoint.sameMethod]
  rw [lastBody, ← List.take_append_drop k xs, List.drop_eq_getElem_cons hk, hget,
    List.reverse_append, List.reverse_cons, List.append_assoc, List.find?_append, hnone]
  simp [hself]

/-- The catalog's k-th flow and interface description belong to the k-th extracted endpoint and
tell the same steps.  These begin with the steps of the last body extracted for the controller and
method, which is the endpoint's own body if no later one has the same controller and method. -/
theorem flow_begins_with_last_body (graph : Option Dependency.Graph) (files : List SourceFile)
    (k : Nat) (e : Endpoint) (body : List Char) (h : (extracted files)[k]? = some (e, body)) :
    ∃ flow row, (ServiceCatalog.ofFiles graph files).endpoints[k]? = some e ∧
      (ServiceCatalog.ofFiles graph files).flows[k]? = some flow ∧
      (ServiceCatalog.ofFiles graph files).spec[k]? = some row ∧
      flow.endpoint = e ∧ row.endpoint = e ∧ row.steps = flow.steps ∧
      (stepsOf (lastBody (extracted files) e)).1 <+: flow.steps ∧
      ((∀ j x, k < j → (extracted files)[j]? = some x → x.1.sameMethod e = false) →
        (stepsOf body).1 <+: flow.steps) := by
  have hnamed : e.Named := named_of_mem_extracted (List.mem_of_getElem? h)
  have hendpoint : (ServiceCatalog.ofFiles graph files).endpoints[k]? = some e := by
    rw [endpoints_ofFiles, List.getElem?_map, h]
    rfl
  have hlast : (stepsOf (lastBody (extracted files) e)).1 <+: (flowOf (keptBodies files)
      (consumersByMessage ((files.filter isCSharp).map contentText)) e).steps := by
    rw [← get?_keptBodies hnamed]
    exact List.prefix_append _ _
  refine ⟨_, specRow (ServiceCatalog.ofFiles graph files).dependencies
    (ServiceCatalog.ofFiles graph files).flows e, hendpoint, ?_, ?_, rfl, rfl, ?_, hlast, ?_⟩
  · rw [flows_ofFiles, List.getElem?_map, hendpoint]
    rfl
  · show (List.map (specRow _ (ServiceCatalog.ofFiles graph files).flows)
      (ServiceCatalog.ofFiles graph files).endpoints)[k]? = _
    rw [List.getElem?_map, hendpoint]
    rfl
  · rw [specRow, flows_ofFiles]
    exact stepsFor_flows _ _ (List.mem_of_getElem? hendpoint)
  · intro hlater
    rwa [lastBody_eq h hlater] at hlast

def twoMethodSource : SourceFile :=
  .ofTexts "A.cs" "A.cs" "A.cs" "csharp"
    ("class AController \x7b\n[HttpPost]\npublic void Put() \x7b db.Add(1); \x7d\n" ++
      "[HttpGet]\npublic void Get() \x7b \x7d\n\x7d")

theorem two_methods_begin_with_own_steps :
    ∃ e body flow, (extracted [twoMethodSource])[0]? = some (e, body) ∧
      (ServiceCatalog.ofFiles none [twoMethodSource]).flows[0]? = some flow ∧
      (stepsOf body).1 = ["Insert/Update DB"] ∧ (stepsOf body).1 <+: flow.steps := by
  have hfacts : (extracted [twoMethodSource]).map (fun x =>
      (x.1.controller, x.1.method, (stepsOf x.2).1)) =
        [(some "AController", some "Put", ["Insert/Update DB"]),
          (some "AController", some "Get", [])] := by decide +kernel
  obtain ⟨x, xs, hcons, hx, hxs⟩ := List.map_eq_cons_iff.mp hfacts
  obtain ⟨y, rfl, hy⟩ := List.map_eq_singleton_iff.mp hxs
  simp only [Prod.mk.injEq] at hx hy
  have hfirst : (extracted [twoMethodSource])[0]? = some (x.1, x.2) := by rw [hcons]; rfl
  obtain ⟨flow, _, -, hflow, -, -, -, -, -, hown⟩ :=
    flow_begins_with_last_body none [twoMethodSource] 0 x.1 x.2 hfirst
  refine ⟨x.1, x.2, flow, hfirst, hflow, hx.2.2, hown ?_⟩
  intro j z hj hz
  rw [hcons] at hz
  match j with
  | 1 =>
    cases hz
    rw [Endpoint.sameMethod, hx.2.1, hy.2.1]
    simp
  | j + 2 => cases hz

/-- A controller with two methods of one name, of which only the first changes the database. -/
def overloadSource : SourceFile :=
  .ofTexts "A.cs" "A.cs" "A.cs" "csharp"
    ("class AController \x7b\n[HttpGet]\npublic void Get() \x7b db.Add(1); \x7d\n" ++
      "[HttpGet(\"\x7bid\x7d\")]\npublic void Get(int id) \x7b \x7d\n\x7d")

/-- The first flow of two equally named methods does not begin with the steps of its own. -/
theorem overloaded_flow_lacks_own_steps :
    ∃ e body flow, (extracted [overloadSource])[0]? = some (e, body) ∧
      (ServiceCatalog.ofFiles none [overloadSource]).flows[0]? = some flow ∧
      (stepsOf body).1 = ["Insert/Update DB"] ∧ flow.steps = [] ∧
      ¬ (stepsOf body).1 <+: flow.steps := by
  have hbodies : (extracted [overloadSource]).map (fun x => (stepsOf x.2).1) =
      [["Insert/Update DB"], []] := by decide +kernel
  have hflows : (ServiceCatalog.ofFiles none [overloadSource]).flows.map (·.steps) = [[], []] := by
    decide +kernel
  obtain ⟨x, xs, hx, hsteps, -⟩ := List.map_eq_cons_iff.mp hbodies
  obtain ⟨f, fs, hf, hnone, -⟩ := List.map_eq_cons_iff.mp hflows
  refine ⟨x.1, x.2, f, by rw [hx]; rfl, by rw [hf]; rfl, hsteps, hnone, ?_⟩
  rw [hsteps, hnone]
  decide

end CodeScribe.Catalog
