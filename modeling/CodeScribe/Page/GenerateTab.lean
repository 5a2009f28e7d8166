import CodeScribe.Page.Choice
import CodeScribe.Page.SourceTab

/-!
# Making a document
-/

namespace CodeScribe.Page

/-- How far a bar of progress is: from twenty to ninety. -/
def percent (done total : Nat) : Nat := 20 + ((Decimal.quotient done total).times 70).whole

/-- Progress is told as a part of all, so there must be something to do. -/
def countedProgress : Progress := fun done total name => do
  match total with
  | some 0 => throw .divisionByZero
  | some t => Work.tell ⟨done, some t, name⟩
  | none => throw (.noOperator "/" "int" "NoneType")

def showStep (s : Step) : Page Unit := do
  let total := s.total.getD 0
  progress (percent s.done total)
  status ("🤖 Processing file " ++ toString s.done ++ "/" ++ toString total ++ ": " ++
    s.name.display)

/-- Work that tells of progress, which is shown. -/
def workShown {α : Type} (w : Work α) : Page α := do
  modify fun s => { s with world := { s.world with told := [] } }
  let result ← attempt (work w)
  (← get).world.told.forM showStep
  ofOutcome result

def sourceOf (c : Chosen) : Page Source := do
  let place ← ofOutcome c.place.asText
  match c.kind with
  | .text "Single File" => return .file place
  | .text "Folder" => return .folder place
  | _ => return .repository place (← known "git_branch").text?

/-- The document of the chosen source, after the chosen structure if there is one. -/
def documentOf (scribe : Scribe) (selection : Selection) (source : Source)
    (files : List SourceFile) (doc : Value) : Work String := do
  let choices : Choices := { report := countedProgress }
  if doc.isPresent then
    scribe.documentBy choices (← Work.ofOutcome (doc.textFor "endswith")) files
  else scribe.document choices (← source.read selection)

def removeUpload (c : Chosen) : Page Unit := do
  if !c.kind.same (.text "Single File") then return
  match ← known "temp_source_path" with
  | .text path =>
    if path != "" && (← get).world.disk.isThere (Path.normal path) then
      work (Work.changeDisk fun d => .ok (d.removeTree (Path.ofString path).parent.text))
  | _ => return

def generate (provider : Value) (c : Chosen) : Page Unit := do
  let scribe ← work (Scribe.create none provider)
  status "📖 Reading source code..."
  progress 10
  let source ← sourceOf c
  let selection ← ofOutcome (Selection.ofConfig scribe.config)
  let files ← work (source.read selection)
  remember "source_files" (.list (files.map SourceFile.toValue))
  progress 20
  status ("✅ Found " ++ toString files.length ++
    " file(s). Starting AI documentation generation...")
  call "empty" [] []
  let text ← workShown (documentOf scribe selection source files (← known "doc_structure"))
  call "empty.empty" [] []
  status "✅ Documentation generation complete!"
  progress 90
  remember "generated_docs" (.text text)
  remember "generation_status" (.text "success")
  status "💾 Saving documentation..."
  progress 90
  let file ← work (scribe.save text none)
  remember "output_file" (.text file)
  progress 100
  status "✅ Complete!"
  success "✅ Documentation generated successfully!"
  call "balloons" [] []
  removeUpload c

def rememberFault (fault : Fault) : Page Unit := do
  remember "generation_status" (.text "error")
  remember "error_message" (.text fault.message)

def generateTab (provider : Value) (c : Chosen) : Page Unit := do
  markdown "### Generate Documentation"
  if !c.place.isPresent then
    warning "⚠️ Please select a source in the 'Source Selection' tab first."
    return
  columns (.list [.int 3, .int 1])
  info ("📂 Source: " ++ c.place.display)
  let branch ← known "git_branch"
  if c.kind.same (.text "Git Repository") && branch.isPresent then
    info ("🌿 Branch: " ++ branch.display)
  if ← button "🚀 Generate Documentation" [("type", .text "primary"), wide] then
    remember "source_path" c.place
    remember "source_type" c.kind
    withChoice provider "🔄 Initializing generator..." (generate provider c) rememberFault

end CodeScribe.Page
