import CodeScribe.Page.Whole
import CodeScribe.Proofs.Scribe.Environment
import CodeScribe.Proofs.Table

/-!
# Frames of the page

Showing the page calls elements, remembers values and works in the world.  Apart from what is made
with the chosen model, none of it changes the environment.

* `Page.keeps_call`, `Page.keeps_remember`, `Page.keeps_work`, `Page.keeps_attempt` — single steps;
* `Page.keeps_sidebar`, `Page.keeps_sourceTab`, `Page.keeps_previewTab`, `Page.keeps_findings` —
  the parts of the page;
* `Page.keeps_generate`, `Page.keeps_analyse` — what is made with the chosen model.
-/

namespace CodeScribe

open CodeScribe.Frame World

/-- Whether something was begun that tells of its progress. -/
def Session.begun (s : Session) : Bool := s.calls.any (·.element == "progress")

/-- A later session in which the environment is the same, nothing was begun in between, and some
remembered values are the same. -/
structure Session.Follows (keys : List String) (s t : Session) : Prop where
  environment : t.world.environment = s.world.environment
  begun : t.begun = s.begun
  memory : ∀ key ∈ keys, t.memory.get? key = s.memory.get? key

namespace Page

/-- The frame in which nothing is begun, the environment stays as it is and some remembered values
do. -/
def quiet (keys : List String) : Frame Session where
  rel := Session.Follows keys
  refl _ := ⟨rfl, rfl, fun _ _ => rfl⟩
  trans h h' := ⟨h'.environment.trans h.environment, h'.begun.trans h.begun,
    fun key hkey => (h'.memory key hkey).trans (h.memory key hkey)⟩

variable {α β : Type}

/-! ### Single steps -/

section Steps

variable {F : Frame Session}

@[grind ←] theorem keeps_ofOutcome (o : Outcome α) : F.Keeps (ofOutcome o) := F.refl

@[grind ←] theorem keeps_known (key : String) : F.Keeps (known key) := F.refl

@[grind ←] theorem keeps_entered? (label : String) (options : Table Value) :
    F.Keeps (entered? label options) := F.refl

theorem snd_runIn_attempt (p : Page α) (s : Session) :
    ((attempt p).runIn s).2 = (p.runIn s).2 := by
  rw [runIn, runIn, attempt, ExceptT.run_mk, StateT.run_bind]
  obtain ⟨r, t⟩ := (ExceptT.run p).run s
  cases r with
  | ok a => rfl
  | error h => cases h <;> rfl

@[grind ←] theorem keeps_attempt {p : Page α} (hp : F.Keeps p) : F.Keeps (attempt p) := by
  intro s
  have h := hp s
  rw [← runIn, ← snd_runIn_attempt] at h
  exact h

end Steps

variable {keys : List String}

@[grind ←] theorem keeps_call {element : String} (h : element ≠ "progress") (args : List Value)
    (options : Table Value) : (quiet keys).Keeps (call element args options) :=
  keeps_modify fun s => ⟨rfl, by simp [Session.begun, h], fun _ _ => rfl⟩

@[grind ←] theorem keeps_remember {key : String} (h : key ∉ keys) (v : Value) :
    (quiet keys).Keeps (remember key v) := by
  refine keeps_modify fun s => ⟨rfl, rfl, fun k hk => ?_⟩
  have hne : k ≠ key := fun heq => h (heq ▸ hk)
  exact (Table.get?_set _ _ _ _).trans (if_neg hne)

@[grind ←] theorem keeps_work {w : Work α} (hw : environmentFrame.Keeps w) :
    (quiet keys).Keeps (work w) := fun s => ⟨hw s.world, rfl, fun _ _ => rfl⟩

@[grind ←] theorem keeps_shown {element : String} (h : element ≠ "progress") (s : String) :
    (quiet keys).Keeps (shown element s) := keeps_call h _ _

@[grind ←] theorem keeps_textInput (label : String) (options : Table Value) :
    (quiet keys).Keeps (textInput label options) := by
  unfold textInput
  grind

@[grind ←] theorem keeps_button (label : String) (options : Table Value) :
    (quiet keys).Keeps (button label options) := by
  unfold button
  grind

@[grind ←] theorem keeps_again : (quiet keys).Keeps (again : Page α) := by
  unfold again
  grind

@[grind ←] theorem keeps_details (s : String) : (quiet keys).Keeps (details s) := by
  unfold details
  grind [expander, code]

@[grind ←] theorem keeps_diagram (s : String) : (quiet keys).Keeps (diagram s) := by
  unfold diagram
  grind

@[grind ←] theorem keeps_undrawn (fault : Fault) (s : String) :
    (quiet keys).Keeps (undrawn fault s) := by
  unfold undrawn
  grind [warning, expander, diagramCode]

theorem keeps_html (s : String) : (quiet keys).Keeps (html s) := keeps_call (by decide) _ _

theorem keeps_head : (quiet keys).Keeps head := by
  refine (keeps_call (by decide) _ _).bind fun _ => (keeps_html _).bind fun _ => ?_
  exact (keeps_html _).bind fun _ => (keeps_html _).bind fun _ => keeps_html _

theorem keeps_foot : (quiet keys).Keeps foot :=
  (keeps_shown (by decide) _).bind fun _ => keeps_html _

/-! ### The settings beside the page -/

@[grind ←] theorem keeps_loadConfig : (quiet keys).Keeps loadConfig := by
  have hload (path : Option String) : environmentFrame.Keeps (Config.load path) :=
    (Config.looks_load path).keeps
  unfold loadConfig
  grind

@[grind ←] theorem keeps_modelNames (url : String) : environmentFrame.Keeps (modelNames url) := by
  unfold modelNames
  grind

@[grind ←] theorem keeps_choose (label help : String) (choices : List Value) (index : Nat) :
    (quiet keys).Keeps (choose label help choices index) := by
  unfold choose
  grind

@[grind ←] theorem keeps_chooseProvider (usual : Value) :
    (quiet keys).Keeps (chooseProvider usual) := by
  unfold chooseProvider
  grind

@[grind ←] theorem keeps_chooseStructure : (quiet []).Keeps chooseStructure := by
  unfold chooseStructure
  grind

@[grind ←] theorem keeps_refreshButton (help : String) :
    (quiet keys).Keeps (refreshButton help) := by
  unfold refreshButton
  grind

@[grind ←] theorem keeps_chooseModel (available : List Value) (usual : Value) :
    (quiet keys).Keeps (chooseModel available usual) := by
  unfold chooseModel
  split
  · refine (keeps_shown (by decide) _).bind fun _ => (keeps_textInput _ _).bind fun _ => ?_
    exact (keeps_refreshButton _).bind fun _ => keeps_pure _
  · exact (keeps_choose _ _ _ _).bind fun _ => (keeps_refreshButton _).bind fun _ => keeps_pure _

@[grind ←] theorem keeps_serverSettings (config : Value) :
    (quiet []).Keeps (serverSettings config) := by
  refine (keeps_shown (by decide) _).bind fun _ => ?_
  refine (keeps_work (Work.keeps_env? _)).bind fun address => ?_
  refine (keeps_textInput _ _).bind fun url => ?_
  refine (keeps_work (keeps_modelNames _)).bind fun names => ?_
  refine (keeps_ofOutcome _).bind fun own => (keeps_ofOutcome _).bind fun configured => ?_
  refine (keeps_work (Work.keeps_env? _)).bind fun model => (keeps_chooseModel _ _).bind fun _ => ?_
  exact (keeps_remember (by simp) _).bind fun _ => keeps_remember (by simp) _

@[grind ←] theorem keeps_advancedSettings : (quiet keys).Keeps advancedSettings := by
  unfold advancedSettings
  grind [expander]

theorem keeps_sidebar : (quiet []).Keeps sidebar := by
  refine (keeps_shown (by decide) _).bind fun _ => keeps_loadConfig.bind fun config => ?_
  refine (keeps_ofOutcome _).bind fun usual => (keeps_chooseProvider _).bind fun provider => ?_
  refine keeps_chooseStructure.bind fun _ => ?_
  grind [rule, markdown]

/-! ### The source -/

@[grind ←] theorem keeps_chooseKind : (quiet keys).Keeps chooseKind := by
  unfold chooseKind
  grind

@[grind ←] theorem keeps_storeUpload (name content : String) :
    (quiet keys).Keeps (storeUpload name content) := by
  refine keeps_get_set (fun s => ⟨rfl, rfl, fun _ _ => rfl⟩) fun s => ?_
  refine (keeps_work ?_).bind fun _ => keeps_pure _
  grind

@[grind ←] theorem keeps_chooseUpload : (quiet ["ollama_model"]).Keeps chooseUpload := by
  unfold chooseUpload
  grind [success]

@[grind ←] theorem keeps_chooseFolder : (quiet keys).Keeps chooseFolder := by
  unfold chooseFolder
  grind [success, failure]

@[grind ←] theorem keeps_chooseRepository : (quiet ["ollama_model"]).Keeps chooseRepository := by
  unfold chooseRepository
  grind [info]

@[grind ←] theorem keeps_sourceTab : (quiet ["ollama_model"]).Keeps sourceTab := by
  unfold sourceTab
  grind [markdown]

/-! ### Making a document -/

@[grind ←] theorem keeps_showStep (s : Step) : (quiet keys).Keeps (showStep s) := by
  unfold showStep
  grind [progress, status]

@[grind ←] theorem keeps_workShown {w : Work α} (hw : environmentFrame.Keeps w) :
    (quiet keys).Keeps (workShown w) := by
  refine (keeps_modify fun s => ?_).bind fun _ => ?_
  · exact ⟨rfl, rfl, fun _ _ => rfl⟩
  refine (keeps_attempt (keeps_work hw)).bind fun result => keeps_get.bind fun s => ?_
  exact (keeps_forM keeps_showStep _).bind fun _ => keeps_ofOutcome _

@[grind ←] theorem keeps_sourceOf (c : Chosen) : (quiet keys).Keeps (sourceOf c) := by
  unfold sourceOf
  grind

theorem discreet_countedProgress : Choices.Discreet { report := countedProgress } := by
  intro done total name
  show Work.Finds none (countedProgress done total name)
  unfold countedProgress
  split
  · exact Work.finds_throw _
  · exact fun w => { World.After.refl w with }
  · exact Work.finds_throw _

@[grind ←] theorem keeps_documentOf (scribe : Scribe) (selection : Selection) (source : Source)
    (files : List SourceFile) (doc : Value) :
    environmentFrame.Keeps (documentOf scribe selection source files doc) := by
  have hby := scribe.keeps_documentBy files discreet_countedProgress
  have hfiles (files : List SourceFile) := scribe.keeps_document files discreet_countedProgress
  unfold documentOf
  grind

@[grind ←] theorem keeps_removeUpload (c : Chosen) : (quiet keys).Keeps (removeUpload c) := by
  unfold removeUpload
  grind

theorem keeps_generate (provider : Value) (c : Chosen) :
    (quiet ["ollama_model"]).Keeps (generate provider c) := by
  refine (keeps_work (Scribe.keeps_create _ _)).bind fun scribe => ?_
  refine (keeps_shown (by decide) _).bind fun _ => (keeps_call (by decide) _ _).bind fun _ => ?_
  refine (keeps_sourceOf c).bind fun source => (keeps_ofOutcome _).bind fun selection => ?_
  refine (keeps_work (Source.keeps_read _ _)).bind fun files => ?_
  refine (keeps_remember (by decide) _).bind fun _ => (keeps_call (by decide) _ _).bind fun _ => ?_
  refine (keeps_shown (by decide) _).bind fun _ => (keeps_call (by decide) _ _).bind fun _ => ?_
  refine (keeps_known _).bind fun doc => ?_
  refine (keeps_workShown (keeps_documentOf _ _ _ _ _)).bind fun text => ?_
  refine (keeps_call (by decide) _ _).bind fun _ => (keeps_shown (by decide) _).bind fun _ => ?_
  refine (keeps_call (by decide) _ _).bind fun _ => (keeps_remember (by decide) _).bind fun _ => ?_
  refine (keeps_remember (by decide) _).bind fun _ => (keeps_shown (by decide) _).bind fun _ => ?_
  refine (keeps_call (by decide) _ _).bind fun _ => ?_
  refine (keeps_work (Scribe.keeps_save _ _)).bind fun file => ?_
  refine (keeps_remember (by decide) _).bind fun _ => ?_
  grind [progress, status, success]

theorem keeps_rememberFault (fault : Fault) :
    (quiet ["ollama_model"]).Keeps (rememberFault fault) := by
  unfold rememberFault
  grind

theorem keeps_tellFault (fault : Fault) : (quiet keys).Keeps (tellFault fault) := by
  unfold tellFault
  grind [progress, status, failure]

/-! ### Looking at a document -/

@[grind ←] theorem keeps_listedFile (f : Value) : (quiet keys).Keeps (listedFile f) := by
  unfold listedFile
  grind [text, caption]

@[grind ←] theorem keeps_listedLanguage (group : Value × List Value) :
    (quiet keys).Keeps (listedLanguage group) := by
  have hfiles := keeps_forM (@keeps_listedFile keys) group.2
  unfold listedLanguage
  grind

@[grind ←] theorem keeps_fileList : (quiet keys).Keeps fileList := by
  have hgroups := keeps_forM (@keeps_listedLanguage keys)
  unfold fileList
  grind [markdown]

@[grind ←] theorem keeps_pdfDownload (document fileName : String) :
    (quiet keys).Keeps (pdfDownload document fileName) := by
  refine (keeps_attempt (keeps_work (Pdf.keeps_print _))).bind fun made => ?_
  grind [download, failure, info]

@[grind ←] theorem keeps_pdfButton (document fileName : String) :
    (quiet keys).Keeps (pdfButton document fileName) := by
  have hfound : environmentFrame.Keeps Pdf.requirePrinter := by
    unfold Pdf.requirePrinter
    grind
  have hprinter : (quiet keys).Keeps
      (modify fun s : Session => { s with printer := true } : Page Unit) :=
    keeps_modify fun s => ⟨rfl, rfl, fun _ _ => rfl⟩
  unfold pdfButton
  refine keeps_get.bind fun s => Keeps.either (keeps_pure _) (keeps_attempt (keeps_work hfound)) ?_
  grind [warning, info]

@[grind ←] theorem keeps_metrics (document : String) : (quiet keys).Keeps (metrics document) := by
  unfold metrics
  grind [columns, metric]

@[grind ←] theorem keeps_documentDiagram (s : String) :
    (quiet keys).Keeps (documentDiagram s) := by
  unfold documentDiagram
  grind [diagramHint, info, diagramCode]

@[grind ←] theorem keeps_documentPart (part : List Char) :
    (quiet keys).Keeps (documentPart part) := by
  unfold documentPart
  grind [markdown]

@[grind ←] theorem keeps_documentOnPage (s : String) : (quiet keys).Keeps (document s) :=
  keeps_forM keeps_documentPart _

theorem keeps_preview (made : Value) : (quiet keys).Keeps (preview made) := by
  refine (keeps_known _).bind fun path => (keeps_known _).bind fun kind => ?_
  refine (keeps_shown (by decide) _).bind fun _ => (keeps_ofOutcome _).bind fun text => ?_
  refine (keeps_shown (by decide) _).bind fun _ => keeps_fileList.bind fun _ => ?_
  refine (keeps_shown (by decide) _).bind fun _ => (keeps_metrics _).bind fun _ => ?_
  refine (keeps_call (by decide) _ _).bind fun _ => (keeps_call (by decide) _ _).bind fun _ => ?_
  refine keeps_get.bind fun s => (keeps_pdfButton _ _).bind fun _ => ?_
  grind [rule, markdown]

theorem keeps_previewTab : (quiet keys).Keeps previewTab := by
  have hpreview := @keeps_preview keys
  unfold previewTab
  grind [markdown, info]

/-! ### Looking at dependencies -/

theorem keeps_analyse (provider : Value) : (quiet ["ollama_model"]).Keeps (analyse provider) := by
  refine (keeps_work (Scribe.keeps_create _ _)).bind fun scribe => ?_
  refine (keeps_shown (by decide) _).bind fun _ => (keeps_call (by decide) _ _).bind fun _ => ?_
  refine (keeps_known _).bind fun files => (keeps_ofOutcome _).bind fun files => ?_
  refine (keeps_work (Scribe.keeps_analyse _ _)).bind fun graph => ?_
  refine (keeps_call (by decide) _ _).bind fun _ => (keeps_shown (by decide) _).bind fun _ => ?_
  refine (keeps_remember (by decide) _).bind fun _ => ?_
  refine (keeps_remember (by decide) _).bind fun _ => ?_
  refine (keeps_modify fun s => ?_).bind fun _ => ?_
  · exact ⟨rfl, rfl, fun _ _ => rfl⟩
  grind [progress, status, success]

theorem keeps_signals {line : Value → Page Unit} (hline : ∀ v, (quiet keys).Keeps (line v))
    (title : String) (found : Value) : (quiet keys).Keeps (signals title line found) := by
  have hlines := keeps_forM hline
  unfold signals
  grind [expander]

theorem keeps_signalLine (item : Value) : (quiet keys).Keeps (signalLine item) := by
  unfold signalLine
  grind [text]

theorem keeps_fileLine (item : Value) : (quiet keys).Keeps (fileLine item) := by
  unfold fileLine
  grind [text]

theorem keeps_correlation (map : Value) : (quiet keys).Keeps (correlation map) := by
  refine (keeps_shown (by decide) _).bind fun _ => (keeps_known _).bind fun files => ?_
  refine (keeps_ofOutcome _).bind fun files => (keeps_ofOutcome _).bind fun found => ?_
  refine (keeps_call (by decide) _ _).bind fun _ => (keeps_call (by decide) _ _).bind fun _ => ?_
  refine (keeps_call (by decide) _ _).bind fun _ => (keeps_call (by decide) _ _).bind fun _ => ?_
  refine (keeps_call (by decide) _ _).bind fun _ => ?_
  refine (keeps_signals keeps_signalLine _ _).bind fun _ => ?_
  refine (keeps_signals keeps_signalLine _ _).bind fun _ => ?_
  refine (keeps_signals keeps_fileLine _ _).bind fun _ => ?_
  grind [caption, rule, markdown]

theorem keeps_numbers (analysis : Value) : (quiet keys).Keeps (numbers analysis) := by
  refine (keeps_shown (by decide) _).bind fun _ => (keeps_call (by decide) _ _).bind fun _ => ?_
  refine (keeps_forM (fun entry => ?_) _).bind fun _ => ?_
  · grind [metric]
  · grind [rule, markdown]

@[grind ←] theorem keeps_graphDrawing (s : String) : (quiet keys).Keeps (graphDrawing s) := by
  unfold graphDrawing
  grind [diagramHint, info, expander, diagramCode]

theorem keeps_graphPart (map : Value) : (quiet keys).Keeps (graphPart map) := by
  unfold graphPart
  grind [markdown, info, rule]

theorem keeps_cyclesPart (analysis : Value) : (quiet keys).Keeps (cyclesPart analysis) := by
  have hline (cycle : Value × Nat) : (quiet keys).Keeps (cycleLine cycle) := by
    unfold cycleLine
    grind [code]
  have hlines := keeps_forM hline
  unfold cyclesPart
  grind [markdown, warning]

theorem keeps_orphansPart (analysis : Value) : (quiet keys).Keeps (orphansPart analysis) := by
  have hlines (paths : List Value) :
      (quiet keys).Keeps (paths.forM fun path => text ("• " ++ path.display)) :=
    keeps_forM (fun path => keeps_shown (by decide) _) paths
  unfold orphansPart
  grind [markdown, info, expander]

theorem keeps_coupledPart (analysis : Value) : (quiet keys).Keeps (coupledPart analysis) := by
  have hline (item : Value) : (quiet keys).Keeps (coupledLine item) := by
    unfold coupledLine
    grind [text]
  have hlines := keeps_forM hline
  unfold coupledPart
  grind [markdown, info]

@[grind ←] theorem keeps_exportButton (label key : String) (write : Dependency.Graph → String)
    (handOut : String × String × String × String) :
    (quiet keys).Keeps (exportButton label key write handOut) := by
  unfold exportButton
  grind [download]

theorem keeps_exports : (quiet keys).Keeps exports := by
  unfold exports
  grind [markdown, columns]

theorem keeps_findings (analysis map : Value) : (quiet keys).Keeps (findings analysis map) := by
  refine (keeps_correlation map).bind fun _ => (keeps_numbers analysis).bind fun _ => ?_
  refine (keeps_graphPart map).bind fun _ => (keeps_cyclesPart analysis).bind fun _ => ?_
  refine (keeps_orphansPart analysis).bind fun _ => (keeps_coupledPart analysis).bind fun _ => ?_
  exact (keeps_shown (by decide) _).bind fun _ => keeps_exports

end Page

end CodeScribe
