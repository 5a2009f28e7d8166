import CodeScribe.Pdf.Print
import CodeScribe.Proofs.Scribe.Creation
import CodeScribe.Proofs.Workspace.Frames

/-!
# The environment of a scribe

A scribe reads the environment when it is created and never writes to it: neither creating it, nor
reading a source, nor making, saving or printing a document changes a variable.

* `Scribe.keeps_create`, `Scribe.keeps_document`, `Scribe.keeps_documentBy`, `Scribe.keeps_analyse`,
  `Scribe.keeps_save` — the uses of a scribe.
-/

namespace CodeScribe

open Document CodeScribe.Frame World

def World.environmentFrame : Frame World := .view (·.environment)

theorem World.environmentFrame_overlooks : Overlooks environmentFrame :=
  ⟨fun _ _ => rfl, fun _ _ => rfl, fun _ _ => rfl⟩

namespace Work

variable {α : Type} {F : Frame World} {x : Work α}

theorem Looks.keeps (hx : Looks x) : F.Keeps x := fun w => by
  have hend : F.rel w (x.runIn w).2 := by
    rw [hx w]
    exact F.refl w
  exact hend

theorem Finds.keeps {found : Option Dependency.Graph} (hx : Finds found x) :
    environmentFrame.Keeps x := fun w => (hx w).environment

@[grind ←] theorem keeps_changeDisk (change : Disk → Outcome Disk) :
    environmentFrame.Keeps (changeDisk change) :=
  environmentFrame_overlooks.keeps_changeDisk change

@[grind ←] theorem keeps_send (r : Request) : environmentFrame.Keeps (send r) :=
  keeps_get_set (fun _ => rfl) fun _ => keeps_pure _

end Work

/-! ### Reading -/

namespace World.Overlooks

variable {F : Frame World}

theorem keeps_readRepository (hF : Overlooks F) (s : Selection) (source : String)
    (branch : Option String) : F.Keeps (Repository.read s source branch) := by
  have haccess (source : String) : F.Keeps (Repository.access source branch) :=
    Repository.keeps_access hF.allowsReading source branch fun url =>
      Repository.keeps_fetch hF url _
  refine (haccess source).bind fun path => (haccess path).bind fun folder => ?_
  refine (Work.keeps_ofOutcome _).bind fun _ => ?_
  exact (hF.allowsReading.print _).bind fun _ =>
    Reader.keeps_below hF.allowsReading.toAllowsNotes s folder

theorem keeps_readSource (hF : Overlooks F) (s : Selection) (source : Source) :
    F.Keeps (source.read s) := by
  cases source with
  | file path => exact Reader.keeps_file hF.allowsReading.toAllowsNotes s path
  | folder path => exact Reader.keeps_folder hF.allowsReading.toAllowsNotes s path
  | repository address branch => exact hF.keeps_readRepository s address branch

end World.Overlooks

@[grind ←] theorem Source.keeps_read (s : Selection) (source : Source) :
    environmentFrame.Keeps (source.read s) := environmentFrame_overlooks.keeps_readSource s source

/-! ### Scribes -/

namespace Document.TemplateFolder

theorem keeps_ofSetting (setting : Value) : environmentFrame.Keeps (ofSetting setting) := by
  unfold ofSetting
  grind

theorem keeps_ensureDefault (f : TemplateFolder) : environmentFrame.Keeps f.ensureDefault := by
  unfold ensureDefault
  grind

end Document.TemplateFolder

theorem Model.keeps_openAt (provider settings : Value) :
    environmentFrame.Keeps (openAt provider settings) := by
  refine (Work.keeps_ofOutcome _).bind fun m => ?_
  refine keeps_get_set (fun _ => ?_) fun _ => keeps_pure _
  rfl

namespace Scribe

@[grind ←] theorem keeps_create (configPath : Option String) (provider : Value) :
    environmentFrame.Keeps (create configPath provider) := by
  refine (Config.looks_load _).keeps.bind fun config => ?_
  refine Keeps.either (keeps_pure _) (Work.keeps_ofOutcome _) fun provider => ?_
  refine (Model.keeps_openAt _ _).bind fun model => ?_
  refine (Work.keeps_ofOutcome _).bind fun options => (Work.keeps_ofOutcome _).bind fun on => ?_
  refine (keeps_modify fun _ => ?_).bind fun _ => ?_
  · rfl
  refine (Work.keeps_ofOutcome _).bind fun documentation => ?_
  refine (Work.keeps_ofOutcome _).bind fun setting => ?_
  refine (TemplateFolder.keeps_ofSetting _).bind fun templates => ?_
  refine (Work.keeps_ofOutcome _).bind fun template => ?_
  refine templates.keeps_ensureDefault.bind fun _ => ?_
  refine (Work.keeps_ofOutcome _).bind fun size => (Work.keeps_ofOutcome _).bind fun overlap => ?_
  exact (Work.keeps_ofOutcome _).bind fun streaming => keeps_pure _

variable (s : Scribe) (files : List SourceFile)

@[grind ←] theorem keeps_analyse : environmentFrame.Keeps (s.analyse files) :=
  (s.finds_analyse files).keeps

theorem keeps_document {c : Choices} (hc : c.Discreet) :
    environmentFrame.Keeps (s.document c files) := (finds_document hc files).keeps

theorem keeps_documentBy {c : Choices} (hc : c.Discreet) (name : String) :
    environmentFrame.Keeps (s.documentBy c name files) := (finds_documentBy hc name files).keeps

@[grind ←] theorem keeps_save (text : String) : environmentFrame.Keeps (s.save text none) := by
  unfold save save.usual outputFolder makeParent
  grind

end Scribe

/-! ### Printing -/

namespace Pdf

theorem keeps_changePaper (change : Paper → Paper) :
    environmentFrame.Keeps (changePaper change) := keeps_modify fun _ => rfl

theorem keeps_handIn (page : String) : environmentFrame.Keeps (handIn page) :=
  keeps_modify fun _ => rfl

theorem keeps_drawDiagrams (document : String) :
    environmentFrame.Keeps (drawDiagrams document) := by
  refine (keeps_mapM (fun piece => ?_) _).bind fun shown => keeps_pure _
  unfold drawDiagram
  grind

theorem keeps_printOnce (page : String) : environmentFrame.Keeps (printOnce page) := by
  refine (keeps_handIn page).bind fun _ => keeps_get_set (fun _ => ?_) fun w => ?_
  · rfl
  · have hpaper := keeps_changePaper
    unfold putOn rewind
    grind

theorem keeps_printPlain (page : String) : environmentFrame.Keeps (printPlain page) := by
  have honce := keeps_printOnce
  unfold printPlain
  refine Work.keeps_attempt_bind (honce _) (fun _ => keeps_pure _) fun fault => ?_
  grind

theorem keeps_printStyled (failure : Option String) (page : String) :
    environmentFrame.Keeps (printStyled failure page) := by
  have hpaper := keeps_changePaper
  have hhand := keeps_handIn
  unfold printStyled putOn rewind
  grind

@[grind ←] theorem keeps_print (document : String) :
    environmentFrame.Keeps (print document none) := by
  have hplain := keeps_printPlain
  refine ((keeps_drawDiagrams _).bind fun _ => keeps_pure _).bind fun page => ?_
  refine (keeps_changePaper _).bind fun _ => keeps_get.bind fun w => ?_
  dsimp only
  split
  · refine Work.keeps_attempt_bind (keeps_printStyled _ page) (fun _ => ?_) fun fault => ?_
    · grind
    · grind
  · grind

end Pdf

end CodeScribe
