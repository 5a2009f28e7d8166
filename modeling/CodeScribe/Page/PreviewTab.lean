import CodeScribe.Page.Preview
import CodeScribe.Page.Summary
import CodeScribe.Page.Title
import CodeScribe.Pdf.Print

/-!
# Looking at a document

* `Page.fileList` — the files that the document is about;
* `Page.pdfButton` — the document as a printed file.
-/

namespace CodeScribe.Page

open Text

/-! ### Numbers -/

/-- Commas between groups of three digits, counted from the end. -/
def groupDigits : List Char → List Char
  | a :: b :: c :: d :: rest => a :: b :: c :: ',' :: groupDigits (d :: rest)
  | cs => cs

/-- A number with commas between groups of three digits. -/
def grouped (n : Nat) : String :=
  String.ofList (groupDigits (toString n).toList.reverse).reverse

/-! ### Files -/

def addToLanguage (language f : Value) : List (Value × List Value) → List (Value × List Value)
  | [] => [(language, [f])]
  | (l, fs) :: rest =>
    if l.same language then (l, fs ++ [f]) :: rest else (l, fs) :: addToLanguage language f rest

def filesByLanguage (files : List Value) : Outcome (List (Value × List Value)) :=
  files.foldlM (fun groups f => do
    let language ← (← f.fieldOr "language" (.text "unknown")).asKey
    return addToLanguage language f groups) []

/-- Groups in the order of their languages; only texts can be ordered. -/
def sortGroups (groups : List (Value × List Value)) : Outcome (List (Value × List Value)) :=
  match groups.find? fun g => g.1.text?.isNone with
  | some g => if groups.length ≤ 1 then .ok groups else .error (.notOrdered g.1.kind "str")
  | none => .ok (groups.mergeSort fun a b => atMost a.1.display b.1.display)

def listedFile (f : Value) : Page Unit := do
  let relative ← ofOutcome (f.fieldOrNull "relative_path")
  let place := relative.orElse (← ofOutcome (f.fieldOr "path" (.text "Unknown")))
  let usual := (Path.ofString (← ofOutcome place.asText)).name
  let name ← ofOutcome (f.fieldOr "name" (.text usual))
  text ("• " ++ name.display)
  caption ("  " ++ place.display)

def listedLanguage (group : Value × List Value) : Page Unit := do
  if group.1.same (.text "unknown") then return
  let language ← ofOutcome (group.1.textFor "upper")
  call "expander" [.text (upper language ++ " Files (" ++ toString group.2.length ++ ")")]
    [("expanded", .bool false)]
  group.2.forM listedFile

def fileList : Page Unit := do
  let files ← known "source_files"
  if files.isPresent then
    markdown "#### 📁 Source Files"
    let groups ← ofOutcome do sortGroups (← filesByLanguage (← files.each))
    groups.forM listedLanguage

/-! ### Printed files -/

def pdfDownload (document fileName : String) : Page Unit := do
  let made ← attempt (work (Pdf.print document none))
  match made with
  | .ok paper =>
    download "📄 Download PDF (Confluence Style)" (.bytes paper.bytes) fileName "application/pdf" []
  | .error fault =>
    failure ("❌ PDF generation failed: " ++ fault.message)
    info "💡 Make sure all dependencies are installed: `pip install -r requirements.txt`"
    details Document.traceText

def pdfButton (document fileName : String) : Page Unit := do
  let found ← if (← get).printer then pure (Except.ok ()) else attempt (work Pdf.requirePrinter)
  match found with
  | .ok _ =>
    modify fun s => { s with printer := true }
    pdfDownload document fileName
  | .error fault =>
    warning "⚠️ PDF generation is unavailable in this environment."
    info "💡 Install dependencies: `pip install -r requirements.txt`"
    details fault.message

/-! ### The tab -/

/-- The day of the run in the names of files. -/
def dayText (now : String) : String :=
  match splitOn (take 10 now) "-" with
  | [year, month, day] => day ++ "-" ++ month ++ "-" ++ year
  | _ => now

def metrics (document : String) : Page Unit := do
  columns (.int 4)
  metric "Status" (.text "✅ Ready")
  metric "Documentation Size" (.text (grouped document.length ++ " chars"))
  metric "Lines" (.text (grouped (count document "\n")))
  if (← known "output_file").isPresent then metric "Saved To" (.text "✅ Yes")

/-- A document with everything around it. -/
def preview (made : Value) : Page Unit := do
  let title := projectTitle (← known "source_path") (← known "source_type")
  markdown "#### 📋 Summary"
  let text ← ofOutcome (made.textFor "split")
  info (summary text)
  fileList
  rule
  metrics text
  columns (.int 2)
  download "📥 Download Markdown" (.text text) "technical_documentation.md" "text/markdown" []
  pdfButton text (title ++ "_" ++ dayText (← get).world.now ++ ".pdf")
  rule
  markdown "### Preview"
  call "expander" [.text "📖 View Full Documentation"] [("expanded", .bool true)]
  document text

/-- The part of the page on which a document is looked at. -/
def previewTab : Page Unit := do
  markdown "### Preview & Download"
  let made ← known "generated_docs"
  if made.isPresent then preview made
  else info "👆 Generate documentation first to see preview here."

end CodeScribe.Page
