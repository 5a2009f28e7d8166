import CodeScribe.Proofs.Catalog.Components
import CodeScribe.Proofs.Scribe.Creation
import CodeScribe.Proofs.Table
import CodeScribe.Proofs.Text.Basic

/-!
# What a scribe remembers

A scribe is used for one document after another.  With a model whose answers depend on the questions
alone, the text of a document does not tell what came before it, with one exception: a document
after a structure may look controllers up in the dependencies that were found last.

* `Scribe.settles_document`, `Scribe.settles_documentBy` — documents in such worlds have one text;
* `Scribe.earlier_uses_forgotten` — after any number of uses, a scribe writes what a new one writes;
* `Scribe.saved_map_shows` — the exception.
-/

namespace CodeScribe

open Document Work

/-! ### Documents in worlds that match -/

/-- A world with the same disk, in which the same model answers, and whose dependencies are of a
kind. -/
structure World.Matches (w : World) (P : Dependency.Graph → Prop) (v : World) : Prop
    extends w.Alike v where
  disk : v.disk = w.disk
  graph : P v.graph

section

variable {α β : Type} {I : World → Prop}

theorem Document.Settles.bind {x : Work α} {f : α → Work β} {o : Outcome α} (hx : Settles I x o)
    (hf : ∀ a, o = .ok a → ∃ r, Settles I (f a) r) : ∃ r, Settles I (x >>= f) r := by
  cases o with
  | ok a =>
    obtain ⟨r, hr⟩ := hf a rfl
    exact ⟨r, hx.bind_ok hr⟩
  | error fault => exact ⟨.error fault, hx.bind_error⟩

theorem settles_ofOutcome (o : Outcome α) : Settles I (ofOutcome o) o := settles_lift I o

theorem settles_get {f : World → Work α} {o : Outcome α} (h : ∀ v, I v → Settles I (f v) o) :
    Settles I (get >>= f) o := fun v hv => h v hv v hv

end

namespace Document.Maker.Steady

variable {answer own : Prompt → Outcome Value} {I : World → Prop} {mk : Maker (StateM World)}

theorem settles_document (h : mk.Steady I answer own) (extras : Extras)
    (graph : Option Dependency.Graph) (files : List SourceFile) :
    ∃ r, Settles I (mk.document extras graph files) r := by
  have hrel : (Runs.settled I).Rel (mk.document extras graph files)
      ((mk.inMonad (askFixed answer) (askFixed own) untold).document extras graph files) :=
    Runs.rel_document h.ask h.askOwn h.report extras graph files
  exact ⟨_, hrel⟩

theorem settles_documentBy (h : mk.Steady I answer own) (doc : Value)
    (graph : Option Dependency.Graph) (files : List SourceFile) :
    ∃ r, Settles I (mk.documentBy doc graph files) r := by
  have hrel : (Runs.settled I).Rel (mk.documentBy doc graph files)
      ((mk.inMonad (askFixed answer) (askFixed own) untold).documentBy doc graph files) :=
    Runs.rel_documentBy h.ask h.report doc graph files
  exact ⟨_, hrel⟩

end Document.Maker.Steady

namespace Scribe

variable {s : Scribe} {w : World} {P : Dependency.Graph → Prop} {answer : Prompt → Outcome String}

theorem settles_askStandIn (hw : ∀ n p, w.standIn n p = answer p) (p : Prompt) :
    Settles (w.Matches P) (askStandIn p) (answer p) := by
  intro v hv
  refine ⟨?_, { hv with }⟩
  show v.standIn v.asked p = answer p
  rw [hv.standIn, hw]

theorem settles_ask {m : Model} (hm : m.standsIn = true) (hw : ∀ n p, w.standIn n p = answer p)
    (p : Prompt) : Settles (w.Matches P) (m.ask p) ((answer p).map .text) := by
  rw [Model.ask, if_pos hm]
  exact (settles_askStandIn hw p).map Value.text

theorem steady_makerIn (hs : s.model.standsIn = true) (hw : ∀ n p, w.standIn n p = answer p)
    (style : EntryStyle) : (s.makerIn {} w style).Steady (w.Matches P)
      (fun p => (answer p).map .text) (fun p => (answer p).map .text) where
  ask := settles_ask hs hw
  askOwn := settles_ask hs hw
  report _ _ _ := fun _ hv => ⟨rfl, hv⟩

theorem settles_maker_bind {α : Type} {f : Maker (StateM World) → Work α}
    (hf : ∀ style, ∃ r, Settles (w.Matches P) (f (s.makerIn {} w style)) r) :
    ∃ r, Settles (w.Matches P) (s.maker {} >>= f) r := by
  obtain ⟨r, hr⟩ := (settles_ofOutcome (s.styleFor {})).bind fun style _ => hf style
  refine ⟨r, ?_⟩
  rw [maker_bind]
  refine settles_get fun v hv => ?_
  have hmaker (style : EntryStyle) : s.makerIn {} v style = s.makerIn {} w style := by
    rw [makerIn, makerIn, hv.now, hv.disk]
  simpa only [hmaker] using hr

theorem settles_analyse (files : List SourceFile) :
    Settles (w.Matches fun _ => True) (Work.attempt (s.analyse files))
      (.ok (match Dependency.Graph.obstacle? files with
        | some fault => .error fault
        | none => .ok (.ofFiles s.readers files))) := by
  intro v hv
  rw [analyse]
  cases Dependency.Graph.obstacle? files with
  | some fault => exact ⟨rfl, { hv with graph := trivial }⟩
  | none => exact ⟨rfl, { hv with graph := trivial }⟩

theorem settles_document (hs : s.model.standsIn = true) (hw : ∀ n p, w.standIn n p = answer p)
    (files : List SourceFile) :
    ∃ r, Settles (w.Matches fun _ => True) (s.document {} files) r := by
  cases files with
  | nil => exact ⟨_, settles_ofOutcome (.ok emptyDocument)⟩
  | cons f rest =>
    rw [document, List.isEmpty_cons, if_neg Bool.false_ne_true]
    refine (settles_ofOutcome _).bind fun extras _ => ?_
    have hend (graph : Option Dependency.Graph) : ∃ r, Settles (w.Matches fun _ => True)
        (s.maker {} >>= fun mk => mk.document extras graph (f :: rest)) r := by
      refine settles_maker_bind fun style => ?_
      exact (steady_makerIn hs hw style).settles_document extras graph _
    dsimp only
    split
    · refine (settles_analyse (f :: rest)).bind fun graph _ => ?_
      exact (settles_ofOutcome (.ok _)).bind fun graph _ => hend graph
    · exact (settles_ofOutcome (.ok none)).bind fun graph _ => hend graph

/-- Whether controllers are looked up in the dependencies found last. -/
def looksUp (s : Scribe) : Bool :=
  match Config.documentation s.config >>= (·.fieldOr "include_dependency_map" (.bool false)) with
  | .ok wanted => wanted.isPresent
  | .error _ => false

def SameCatalog (s : Scribe) (files : List SourceFile) (g g' : Dependency.Graph) : Prop :=
  s.looksUp = true →
    Catalog.ServiceCatalog.ofFiles (some g') files = Catalog.ServiceCatalog.ofFiles (some g) files

theorem settles_structures : ∃ r, Settles (w.Matches P) structures r := by
  cases hfolder : w.structureFolder with
  | some path =>
    refine ⟨.ok (.folder path), settles_get fun v hv => ?_⟩
    rw [hv.structureFolder, hfolder]
    exact settles_ofOutcome (.ok _)
  | none =>
    refine ⟨.ok (.builtIn w.program), settles_get fun v hv => ?_⟩
    rw [hv.structureFolder, hv.program, hfolder]
    exact settles_ofOutcome (.ok _)

theorem settles_disk : Settles (w.Matches P) Work.disk (.ok w.disk) := by
  refine settles_get fun v hv => ?_
  rw [hv.disk]
  exact settles_ofOutcome (.ok w.disk)

theorem settles_documentBy (hs : s.model.standsIn = true) (hw : ∀ n p, w.standIn n p = answer p)
    (structureName : String) (files : List SourceFile) :
    ∃ r, Settles (w.Matches (s.SameCatalog files w.graph))
      (s.documentBy {} structureName files) r := by
  obtain ⟨folder, hfolder⟩ := settles_structures
  refine hfolder.bind fun folder _ => settles_disk.bind fun disk _ => ?_
  cases folder.load disk structureName with
  | error fault =>
    dsimp only
    split
    · exact ⟨_, settles_ofOutcome (.ok _)⟩
    · exact ⟨_, settles_ofOutcome (.error fault)⟩
  | ok doc =>
    refine (settles_ofOutcome _).bind fun documentation hdocumentation => ?_
    refine (settles_ofOutcome _).bind fun wanted hwanted => ?_
    have hlooks : s.looksUp = wanted.isPresent := by
      rw [looksUp, hdocumentation]
      show (match documentation.fieldOr "include_dependency_map" (.bool false) with
        | .ok wanted => wanted.isPresent
        | .error _ => false) = _
      rw [hwanted]
    have hend : ∃ r, Settles (w.Matches (s.SameCatalog files w.graph)) (s.maker {} >>= fun mk =>
        mk.documentBy doc (if wanted.isPresent then some w.graph else none) files) r :=
      settles_maker_bind fun style => (steady_makerIn hs hw style).settles_documentBy _ _ _
    obtain ⟨r, hr⟩ := hend
    refine ⟨r, settles_get fun v hv => ?_⟩
    have hsame (mk : Maker (StateM World)) :
        mk.documentBy doc (if wanted.isPresent then some v.graph else none) files =
          mk.documentBy doc (if wanted.isPresent then some w.graph else none) files := by
      split
      · rename_i hpresent
        simp only [Maker.documentBy, hv.graph (hlooks.trans hpresent)]
      · rfl
    simpa only [hsame] using hr

/-! ### After any number of uses -/

/-- Documents that are made file by file do not show what a scribe was used for before: with a
model whose answers depend on the questions alone, their text is the one that a scribe created
afterwards writes.  The same holds for documents after a structure, unless controllers are looked up
in the dependencies that the earlier uses found last, and those link one of the files. -/
theorem earlier_uses_forgotten {path : Option String} {provider : Value} {u v₀ : World}
    {s : Scribe} {answer : Prompt → Outcome String} {uses : List Use}
    (hcreate : (create path provider).runIn u = (.ok s, v₀)) (hall : u.standsInForAll = true)
    (hanswer : ∀ n p, u.standIn n p = answer p) (huses : ∀ use ∈ uses, use.Discreet)
    (hsettings : u.disk.SameAt (s.worldAfter uses v₀).disk (Config.fileOf path)) :
    ∃ v, (create path provider).runIn (s.worldAfter uses v₀) = (.ok s, v) ∧
      ∀ files : List SourceFile,
        ((s.document {} files).runIn (s.worldAfter uses v₀)).1 =
          ((s.document {} files).runIn v).1 ∧
        ((s.looksUp = true → ∀ f ∈ files,
            ((s.lastFound? uses).getD {}).targets (Catalog.placeText f) = []) →
          ∀ structureName, ((s.documentBy {} structureName files).runIn (s.worldAfter uses v₀)).1 =
            ((s.documentBy {} structureName files).runIn v).1) := by
  obtain ⟨hcreated, hagain⟩ := create_again hcreate
  have hafter := s.after_uses huses v₀
  generalize hw : s.worldAfter uses v₀ = w at hsettings hafter ⊢
  have hload := Config.load_again hsettings (hafter.environment.trans hcreated.environment)
  obtain ⟨v, hv, hfresh, hdisk⟩ := hagain _ w hafter hload
  have hs : s.model.standsIn = true := (standsIn_create hcreate).trans hall
  have hwanswer (n : Nat) (p : Prompt) : w.standIn n p = answer p := by
    rw [hafter.standIn, hcreated.standIn, hanswer]
  have hlike {P : Dependency.Graph → Prop} (hP : P v.graph) : w.Matches P v :=
    { hfresh.toAlike with disk := hdisk, graph := hP }
  have hself {P : Dependency.Graph → Prop} (hP : P w.graph) : w.Matches P w :=
    { World.Alike.refl w with disk := rfl, graph := hP }
  refine ⟨v, hv, fun files => ⟨?_, fun htargets structureName => ?_⟩⟩
  · obtain ⟨r, hr⟩ := settles_document hs hwanswer files
    exact (hr w (hself trivial)).1.trans (hr v (hlike trivial)).1.symm
  · obtain ⟨r, hr⟩ := settles_documentBy hs hwanswer structureName files
    have hsame : s.SameCatalog files w.graph v.graph := by
      intro hlooks
      refine Catalog.ofFiles_congr fun f hf => ?_
      rw [hfresh.graph, hafter.graph, hcreated.graph]
      exact (htargets hlooks f hf).symm
    exact (hr w (hself fun _ => rfl)).1.trans (hr v (hlike hsame)).1.symm

/-- A world with settings that ask for controllers to be looked up, and a template for their
components. -/
def lookingWorld : World where
  disk := ⟨"/w", [
    (["config.yaml"], .file (.text
      "documentation: \x7binclude_dependency_map: true, template_dir: t\x7d")),
    (["s", "a.yaml"], .file (.text "sections: []")),
    (["t", "default.md"], .file (.text "\x7b\x7b service_catalog.flow_graph \x7d\x7d"))]⟩
  structureFolder := some "s"
  standsInForAll := true
  standIn _ _ := .ok "T"

theorem load_lookingWorld_checked : (match ((Config.load none).runIn lookingWorld).1 with
    | .ok (.map [(.text a, .map [(.text b, .bool c), (.text d, .text e)])]) => decide
      ((a, b, c, d, e) = ("documentation", "include_dependency_map", true, "template_dir", "t"))
    | _ => false) = true := by decide +kernel

theorem load_lookingWorld : (Config.load none).runIn lookingWorld =
    (.ok (.map [(.text "documentation", .map [(.text "include_dependency_map", .bool true),
      (.text "template_dir", .text "t")])]), lookingWorld) := by
  have hread := load_lookingWorld_checked
  split at hread
  case h_1 hload =>
    cases of_decide_eq_true hread
    exact Prod.ext hload (Config.looks_load none lookingWorld)
  case h_2 => cases hread

def handlerSource : SourceFile :=
  .ofTexts "S.cs" "S.cs" "S.cs" "csharp" "namespace N \x7b class SHandler \x7b\x7d \x7d"

def controllerSource : SourceFile :=
  .ofTexts "X.cs" "X.cs" "X.cs" "csharp" "using N;\nclass XController \x7b SHandler s; \x7d"

def mapSaved : List Use := [.saveMap [controllerSource, handlerSource] "json" none]

theorem discreet_mapSaved : ∀ use ∈ mapSaved, use.Discreet := by
  intro use huse
  obtain rfl := List.mem_singleton.mp huse
  trivial

theorem created_lookingWorld : ∃ s v₀, (create none .null).runIn lookingWorld = (.ok s, v₀) ∧
    lookingWorld.disk.SameAt (s.worldAfter mapSaved v₀).disk (Config.fileOf none) ∧
    ((s.lastFound? mapSaved).getD {}).targets (Catalog.placeText handlerSource) = [] := by
  have hchecked : (match (create none .null).runIn lookingWorld with
      | (.ok s, v₀) =>
        let d := (s.worldAfter mapSaved v₀).disk
        decide (d.read? "config.yaml" = lookingWorld.disk.read? "config.yaml") &&
          d.isFolder "config.yaml" == lookingWorld.disk.isFolder "config.yaml" &&
          ((s.lastFound? mapSaved).getD {}).targets (Catalog.placeText handlerSource) == []
      | (.error _, _) => false) = true := by
    rw [create, runIn_bind_ok load_lookingWorld]
    decide +kernel
  cases hcreate : (create none .null).runIn lookingWorld with
  | mk r v₀ =>
    cases r with
    | error fault =>
      rw [hcreate] at hchecked
      cases hchecked
    | ok s =>
      rw [hcreate] at hchecked
      simp only [Bool.and_eq_true, decide_eq_true_eq, beq_iff_eq] at hchecked
      obtain ⟨⟨hread, hfolder⟩, htargets⟩ := hchecked
      exact ⟨s, v₀, rfl, ⟨hread, hfolder⟩, htargets⟩

theorem saved_map_forgotten : ∃ s v₀ v,
    (create none .null).runIn lookingWorld = (.ok s, v₀) ∧
    (create none .null).runIn (s.worldAfter mapSaved v₀) = (.ok s, v) ∧
    ((s.document {} [controllerSource, handlerSource]).runIn (s.worldAfter mapSaved v₀)).1 =
      ((s.document {} [controllerSource, handlerSource]).runIn v).1 ∧
    ((s.documentBy {} "a" [handlerSource]).runIn (s.worldAfter mapSaved v₀)).1 =
      ((s.documentBy {} "a" [handlerSource]).runIn v).1 := by
  obtain ⟨s, v₀, hcreate, hsettings, htargets⟩ := created_lookingWorld
  obtain ⟨v, hv, hsame⟩ := earlier_uses_forgotten hcreate rfl
    (fun _ _ => (rfl : _ = (.ok "T" : Outcome String))) discreet_mapSaved hsettings
  refine ⟨s, v₀, v, hcreate, hv, (hsame _).1, (hsame [handlerSource]).2 ?_ "a"⟩
  intro _ f hf
  obtain rfl := List.mem_singleton.mp hf
  exact htargets

/-- The dependencies that a saved map was made from show in a document after a structure. -/
theorem saved_map_shows : ∃ s v₀ v,
    (create none .null).runIn lookingWorld = (.ok s, v₀) ∧
    (create none .null).runIn (s.worldAfter mapSaved v₀) = (.ok s, v) ∧
    ((s.documentBy {} "a" [controllerSource, handlerSource]).runIn (s.worldAfter mapSaved v₀)).1 ≠
      ((s.documentBy {} "a" [controllerSource, handlerSource]).runIn v).1 := by
  obtain ⟨s, v₀, hcreate, hsettings, -⟩ := created_lookingWorld
  obtain ⟨hcreated, hagain⟩ := create_again hcreate
  have hafter := s.after_uses discreet_mapSaved v₀
  obtain ⟨v, hv, hfresh, hdisk⟩ := hagain _ _ hafter
    (Config.load_again hsettings (hafter.environment.trans hcreated.environment))
  refine ⟨s, v₀, v, hcreate, hv, ?_⟩
  -- The new scribe writes what the old one would write without the dependencies it found.
  have hshows : (match (create none .null).runIn lookingWorld with
      | (.ok s, v₀) =>
        ((s.documentBy {} "a" [controllerSource, handlerSource]).runIn
            (s.worldAfter mapSaved v₀)).1.toOption !=
          ((s.documentBy {} "a" [controllerSource, handlerSource]).runIn
            { s.worldAfter mapSaved v₀ with graph := {} }).1.toOption
      | (.error _, _) => false) = true := by
    rw [create, runIn_bind_ok load_lookingWorld]
    -- Sorting is by recursion that does not evaluate; insertion does.
    delta Scribe.documentBy Maker.documentBy AppSequence.draw Catalog.ServiceCatalog.ofFiles
      Text.sortDistinct
    rw [Text.sort_eq_insertionSort]
    decide +kernel
  rw [hcreate] at hshows
  dsimp only at hshows
  generalize s.worldAfter mapSaved v₀ = w at hafter hfresh hdisk hshows
  have hwanswer (n : Nat) (p : Prompt) : w.standIn n p = .ok "T" := by
    rw [hafter.standIn, hcreated.standIn]
    rfl
  obtain ⟨r, hr⟩ := settles_documentBy (w := { w with graph := {} }) (standsIn_create hcreate)
    hwanswer "a" [controllerSource, handlerSource]
  have hold := (hr _ { World.Alike.refl _ with disk := rfl, graph := fun _ => rfl }).1
  have hnew := (hr v { hfresh.toAlike with
    disk := hdisk, graph := fun _ => by rw [hfresh.graph, Option.getD_some] }).1
  intro heq
  exact bne_iff_ne.mp hshows (congrArg Except.toOption (heq.trans (hnew.trans hold.symm)))

end Scribe

end CodeScribe
