import CodeScribe.Proofs.Document.Isolation
import CodeScribe.Proofs.Workspace.Frames
import CodeScribe.Scribe.Basic

/-!
# What the use of a scribe does to the world

Documents and dependency maps are made one after another with one scribe.  Of all that a document
is made from, only the dependencies found last are different afterwards, and files and folders are
only added.

* `Scribe.finds_document`, `Scribe.finds_documentBy`, `Scribe.finds_saveMap` — what each use of a
  scribe finds;
* `Use`, `Scribe.after_uses` — the world after any number of uses.
-/

namespace CodeScribe

open Document

/-! ### Later worlds -/

/-- Two worlds in which the same model answers, at the same time and in the same place. -/
structure World.Alike (w v : World) : Prop where
  standIn : v.standIn = w.standIn
  standsInForAll : v.standsInForAll = w.standsInForAll
  now : v.now = w.now
  program : v.program = w.program
  structureFolder : v.structureFolder = w.structureFolder
  environment : v.environment = w.environment

theorem World.Alike.refl (w : World) : w.Alike w := ⟨rfl, rfl, rfl, rfl, rfl, rfl⟩

theorem World.Alike.trans {u v w : World} (h : u.Alike v) (h' : v.Alike w) : u.Alike w where
  standIn := h'.standIn.trans h.standIn
  standsInForAll := h'.standsInForAll.trans h.standsInForAll
  now := h'.now.trans h.now
  program := h'.program.trans h.program
  structureFolder := h'.structureFolder.trans h.structureFolder
  environment := h'.environment.trans h.environment

/-- A later world: nothing that a document is made from was taken away, and the dependencies are
those that were found in between, if there was an analysis. -/
structure World.After (found : Option Dependency.Graph) (w w' : World) : Prop
    extends w.Alike w' where
  disk : w.disk.Grows w'.disk
  graph : w'.graph = found.getD w.graph

theorem World.After.refl (w : World) : w.After none w :=
  ⟨World.Alike.refl w, Disk.Grows.refl _, rfl⟩

theorem World.After.trans {f g : Option Dependency.Graph} {w w' w'' : World} (h : w.After f w')
    (h' : w'.After g w'') : w.After (g.or f) w'' where
  toAlike := h.toAlike.trans h'.toAlike
  disk := h.disk.trans h'.disk
  graph := by
    rw [h'.graph, h.graph]
    cases g <;> rfl

/-- Nothing that a document is made from was taken away or found. -/
def World.laterFrame : Frame World where
  rel := World.After none
  refl := World.After.refl
  trans h h' := h.trans h'

namespace Work

variable {α β : Type}

def Finds (found : Option Dependency.Graph) (x : Work α) : Prop :=
  ∀ w : World, w.After found (x.runIn w).2

theorem runIn_bind (x : Work α) (f : α → Work β) (w : World) : (x >>= f).runIn w =
    match x.runIn w with
    | (.ok a, w') => (f a).runIn w'
    | (.error fault, w') => (.error fault, w') := by
  have hrun : (x >>= f).runIn w =
      StateT.run (ExceptT.bindCont f (x.runIn w).1) (x.runIn w).2 := Frame.run_bind x f w
  rw [hrun]
  cases x.runIn w with
  | mk r w' => cases r <;> rfl

theorem ofOutcome_ok_bind (a : α) (f : α → Work β) : ofOutcome (.ok a) >>= f = f a := rfl

theorem Finds.bind {found : Option Dependency.Graph} {x : Work α} {f : α → Work β}
    (hx : Finds found x) (hf : ∀ a, Finds none (f a)) : Finds found (x >>= f) := by
  intro w
  have hafter := hx w
  rw [runIn_bind]
  cases hrun : x.runIn w with
  | mk r w' =>
    rw [hrun] at hafter
    cases r with
    | ok a => exact hafter.trans (hf a w')
    | error fault => exact hafter

theorem Finds.attempt {found : Option Dependency.Graph} {x : Work α} (hx : Finds found x) :
    Finds found (attempt x) := hx

theorem finds_pure (a : α) : Finds none (pure a : Work α) := World.After.refl

theorem finds_ofOutcome (o : Outcome α) : Finds none (ofOutcome o) := World.After.refl

theorem finds_throw (fault : Fault) : Finds none (throw fault : Work α) := World.After.refl

theorem finds_changeDisk {change : Disk → Outcome Disk}
    (h : ∀ d e, change d = .ok e → d.Grows e) : Finds none (changeDisk change) := by
  intro w
  rw [runIn_changeDisk]
  cases hd : change w.disk with
  | ok d => exact { World.After.refl w with disk := h _ _ hd }
  | error fault => exact World.After.refl w

end Work

open Work

/-! ### Making a document -/

theorem Model.finds_ask (m : Model) (p : Prompt) : Finds none (m.ask p) := by
  unfold Model.ask
  split
  · refine Finds.bind ?_ fun text => finds_pure _
    intro w
    exact { World.After.refl w with }
  · refine Finds.bind ?_ fun reply => finds_ofOutcome _
    intro w
    exact { World.After.refl w with }

def Document.Runs.keeping (F : Frame World) : Runs (StateM World) Id where
  rel x _ := ∀ w : World, F.rel w (x.run w).2
  pure _ := F.refl
  bind hx hf w := F.trans (hx w) (hf _ _)

structure Document.Maker.Keeps (F : Frame World) (mk : Maker (StateM World)) : Prop where
  ask : ∀ p, F.Keeps (mk.ask p)
  askOwn : ∀ p, F.Keeps (mk.askOwn p)
  report : ∀ done total name, F.Keeps (mk.report done total name)

namespace Document.Maker.Keeps

variable {F : Frame World} {mk : Maker (StateM World)}

theorem rel_ask (h : mk.Keeps F) (p : Prompt) :
    (Runs.keeping F).Rel (mk.ask p) (askFixed (fun _ => .ok .null) p) := h.ask p

theorem rel_report (h : mk.Keeps F) (done : Nat) (total : Option Nat) (name : Value) :
    (Runs.keeping F).Rel (mk.report done total name) (untold done total name) :=
  h.report done total name

theorem document (h : mk.Keeps F) (extras : Extras) (graph : Option Dependency.Graph)
    (files : List SourceFile) : F.Keeps (mk.document extras graph files) := by
  have hown : ∀ p, (Runs.keeping F).Rel (mk.askOwn p) (askFixed (fun _ => .ok .null) p) := h.askOwn
  exact Runs.rel_document h.rel_ask hown h.rel_report extras graph files

theorem documentBy (h : mk.Keeps F) (doc : Value) (graph : Option Dependency.Graph)
    (files : List SourceFile) : F.Keeps (mk.documentBy doc graph files) := by
  have hrel : (Runs.keeping F).Rel (mk.documentBy doc graph files)
      ((mk.inMonad (askFixed fun _ => .ok .null) (askFixed fun _ => .ok .null) untold).documentBy
        doc graph files) := Runs.rel_documentBy h.rel_ask h.rel_report doc graph files
  exact hrel

end Document.Maker.Keeps

/-- A way to tell progress that keeps what a document is made from. -/
def Choices.Discreet (c : Choices) : Prop :=
  ∀ done total name, Finds none (c.report done total name)

namespace Scribe

variable (s : Scribe)

/-- What an analysis of some files finds. -/
def found (files : List SourceFile) : Dependency.Graph :=
  match Dependency.Graph.obstacle? files with
  | some _ => .stopped s.readers files
  | none => .ofFiles s.readers files

theorem finds_analyse (files : List SourceFile) :
    Finds (some (s.found files)) (s.analyse files) := by
  intro w
  rw [found, analyse]
  cases Dependency.Graph.obstacle? files with
  | some fault => exact { World.After.refl w with graph := rfl }
  | none => exact { World.After.refl w with graph := rfl }

/-- What a document is made with in a world. -/
def makerIn (c : Choices) (w : World) (style : EntryStyle) : Maker (StateM World) where
  ask := (s.modelFor c).ask
  askOwn := s.model.ask
  report := c.report
  style := style
  provider := c.provider.orElse s.provider
  modelName := (s.modelFor c).name
  date := w.now
  fill := s.fillWith w.disk
  template := c.template.orElse s.template

theorem maker_bind {α : Type} (c : Choices) (f : Maker (StateM World) → Work α) :
    s.maker c >>= f = (do
      let w ← get
      let style ← Work.ofOutcome (s.styleFor c)
      f (s.makerIn c w style)) := by
  simp [maker, makerIn]

variable {s} {c : Choices}

section Frames

variable {F : Frame World}

theorem keeps_maker_bind {α : Type} {f : Maker (StateM World) → Work α}
    (hf : ∀ w style, F.Keeps (f (s.makerIn c w style))) : F.Keeps (s.maker c >>= f) := by
  rw [maker_bind]
  exact Frame.keeps_get.bind fun w => (keeps_ofOutcome _).bind fun style => hf w style

variable (hmk : ∀ w style, (s.makerIn c w style).Keeps F) (files : List SourceFile)

include hmk

theorem keeps_document_of_maker (hanalyse : F.Keeps (s.analyse files)) :
    F.Keeps (s.document c files) := by
  have hend (extras : Extras) (graph : Option Dependency.Graph) :
      F.Keeps (s.maker c >>= fun mk => mk.document extras graph files) :=
    keeps_maker_bind fun w style => (hmk w style).document extras graph files
  unfold document
  split
  · exact Frame.keeps_pure _
  · refine (keeps_ofOutcome _).bind fun extras => ?_
    split
    · exact (keeps_attempt hanalyse).bind fun _ => (Frame.keeps_pure _).bind (hend extras)
    · exact (Frame.keeps_pure _).bind (hend extras)

theorem keeps_documentBy_of_maker (structureName : String) :
    F.Keeps (s.documentBy c structureName files) := by
  have hstructures : F.Keeps structures := by
    refine Frame.keeps_get.bind fun w => ?_
    cases w.structureFolder <;> exact Frame.keeps_pure _
  refine hstructures.bind fun folder => keeps_disk.bind fun disk => ?_
  split
  · split
    · exact Frame.keeps_pure _
    · exact Frame.keeps_throw _
  · refine (keeps_ofOutcome _).bind fun documentation => ?_
    refine (keeps_ofOutcome _).bind fun wanted => Frame.keeps_get.bind fun known => ?_
    exact keeps_maker_bind fun w style => (hmk w style).documentBy _ _ _

end Frames

theorem keeps_makerIn (hc : c.Discreet) (w : World) (style : EntryStyle) :
    (s.makerIn c w style).Keeps World.laterFrame := ⟨(s.modelFor c).finds_ask, s.model.finds_ask, hc⟩

/-! ### Uses of a scribe -/

def analysed? (s : Scribe) (files : List SourceFile) : Option Dependency.Graph :=
  match Extras.ofConfig s.config with
  | .ok extras => if extras.wantsAnalysis files then some (s.found files) else none
  | .error _ => none

theorem analysed?_nil : s.analysed? [] = none := by
  rw [analysed?]
  cases Extras.ofConfig s.config with
  | ok extras => simp [Extras.wantsAnalysis]
  | error fault => rfl

theorem finds_document (hc : c.Discreet) (files : List SourceFile) :
    Finds (s.analysed? files) (s.document c files) := by
  cases files with
  | nil =>
    rw [analysed?_nil]
    exact finds_pure _
  | cons f rest =>
    have hend (extras : Extras) (graph : Option Dependency.Graph) :
        World.laterFrame.Keeps (s.maker c >>= fun mk => mk.document extras graph (f :: rest)) :=
      keeps_maker_bind fun w style => (keeps_makerIn hc w style).document extras graph _
    rw [document, List.isEmpty_cons, if_neg Bool.false_ne_true, analysed?]
    cases Extras.ofConfig s.config with
    | error fault => exact finds_throw _
    | ok extras =>
      rw [ofOutcome_ok_bind]
      dsimp only
      split
      · refine Finds.bind (s.finds_analyse (f :: rest)).attempt fun graph => ?_
        exact (finds_pure _).bind fun graph => hend extras graph
      · exact (finds_pure _).bind fun graph => hend extras graph

theorem finds_documentBy (hc : c.Discreet) (structureName : String) (files : List SourceFile) :
    Finds none (s.documentBy c structureName files) :=
  keeps_documentBy_of_maker (keeps_makerIn hc) files structureName

theorem finds_makeParent (path : String) : Finds none (makeParent path) :=
  finds_changeDisk fun _ _ => Disk.grows_makeFolders

theorem finds_outputFolder : Finds none s.outputFolder := by
  refine (finds_ofOutcome _).bind fun folder => ?_
  exact (finds_changeDisk fun _ _ => Disk.grows_makeFolders).bind fun _ => finds_pure _

theorem finds_saveMap (files : List SourceFile) (format : String) (path : Option String) :
    Finds (some (s.found files)) (s.saveMap files format path) := by
  refine (s.finds_analyse files).bind fun graph => ?_
  have hend (file : String) : Finds none (do
      let text ← ofOutcome (mapText graph format)
      makeParent file
      changeDisk fun d => d.write file (Content.text text)
      pure file) := by
    refine (finds_ofOutcome _).bind fun text => (finds_makeParent file).bind fun _ => ?_
    exact (finds_changeDisk fun _ _ => Disk.grows_write).bind fun _ => finds_pure _
  have husual : Finds none (saveMap.usual s format) := finds_outputFolder.bind fun _ => finds_pure _
  cases path with
  | none => exact husual.bind hend
  | some p =>
    dsimp only
    split
    · exact (finds_pure _).bind hend
    · exact husual.bind hend

end Scribe

/-! ### Any number of uses -/

inductive Use where
  | document (choices : Choices) (files : List SourceFile)
  | documentBy (choices : Choices) (structureName : String) (files : List SourceFile)
  | saveMap (files : List SourceFile) (format : String) (path : Option String)

namespace Use

def after (s : Scribe) (w : World) : Use → World
  | document c files => ((s.document c files).runIn w).2
  | documentBy c structureName files => ((s.documentBy c structureName files).runIn w).2
  | saveMap files format path => ((s.saveMap files format path).runIn w).2

def finds? (s : Scribe) : Use → Option Dependency.Graph
  | document _ files => s.analysed? files
  | documentBy _ _ _ => none
  | saveMap files _ _ => some (s.found files)

/-- A use that tells progress without changing what a document is made from. -/
def Discreet : Use → Prop
  | document c _ => c.Discreet
  | documentBy c _ _ => c.Discreet
  | saveMap _ _ _ => True

theorem after_use (s : Scribe) (w : World) {u : Use} (hu : u.Discreet) :
    w.After (u.finds? s) (u.after s w) := by
  cases u with
  | document c files => exact Scribe.finds_document hu files w
  | documentBy c structureName files => exact Scribe.finds_documentBy hu structureName files w
  | saveMap files format path => exact Scribe.finds_saveMap files format path w

end Use

namespace Scribe

def worldAfter (s : Scribe) (uses : List Use) (w : World) : World :=
  uses.foldl (fun w u => u.after s w) w

def lastFound? (s : Scribe) (uses : List Use) : Option Dependency.Graph :=
  uses.reverse.findSome? (·.finds? s)

theorem after_uses (s : Scribe) {uses : List Use} (huses : ∀ u ∈ uses, u.Discreet) (w : World) :
    w.After (s.lastFound? uses) (s.worldAfter uses w) := by
  induction uses generalizing w with
  | nil => exact World.After.refl w
  | cons u rest ih =>
    obtain ⟨hu, hrest⟩ := List.forall_mem_cons.mp huses
    have hlast : s.lastFound? (u :: rest) = (s.lastFound? rest).or (u.finds? s) := by
      simp [lastFound?, List.findSome?_append]
    rw [hlast]
    exact (Use.after_use s w hu).trans (ih hrest _)

end Scribe

end CodeScribe
