import CodeScribe.Pdf.Markup
import CodeScribe.Pdf.Paragraph
import CodeScribe.Pdf.Style
import CodeScribe.Workspace.World

/-!
# Printing documents

* `Pdf.drawDiagrams` — diagrams as pictures, drawn by a server.
-/

namespace CodeScribe.Pdf

open Text Pattern

/-! ### Diagrams -/

def drawingServer : String := "https://kroki.io/mermaid/png"

def drawingRequest (diagram : String) : Request where
  method := "POST"
  url := drawingServer
  data := some diagram
  headers := some (.record [("Content-Type", .text "text/plain")])
  timeout := 10

/-- The address of a picture that a server made, if it made one. -/
def picture? : Reply → Option String
  | .answer 200 _ body => some ("data:image/png;base64," ++ Utf8.base64 (Utf8.encode body))
  | _ => none

def pictureHtml (address : String) : String :=
  "<div class=\"mermaid-diagram\"><img src=\"" ++ address ++ "\" alt=\"Mermaid diagram\" " ++
    "style=\"max-width:100%; height:auto; display:block;\"/></div>"

def diagramBlock : Pattern :=
  lit "```mermaid" ++ blanks ++ group 1 (spanLazy fun _ => true) ++ lit "```"

/-- A diagram as a picture; one that is empty or cannot be drawn stays as it is. -/
def drawDiagram (m : Match) : Work String := do
  let diagram := trim (m.get 1)
  if diagram == "" then return m.text
  match picture? (← Work.send (drawingRequest diagram)) with
  | some address => return pictureHtml address
  | none => return m.text

def drawDiagrams (document : String) : Work String := do
  let cs := document.toList
  let shown ← (pieces 0 (diagramBlock.findAll cs) cs).mapM fun (between, m?) => do
    match m? with
    | some m => return String.ofList between ++ (← drawDiagram m)
    | none => return String.ofList between
  return String.join shown

/-! ### Pages -/

def pageOf (body : String) : String :=
  join "\n" [
    "",
    "        <!DOCTYPE html>",
    "        <html>",
    "        <head>",
    "            <meta charset=\"UTF-8\">",
    "            <title>TechDocGen by IBMC - Technical Documentation</title>",
    "        </head>",
    "        <body>",
    "            " ++ body,
    "        </body>",
    "        </html>",
    "        "]

def page (document : String) : Work String := do
  let document ← drawDiagrams (panels document)
  return pageOf (codeBlocks (layOut document))

/-! ### Printing -/

def changePaper (change : Paper → Paper) : Work Unit :=
  modify fun w => { w with printers := { w.printers with paper := change w.printers.paper } }

def handIn (page : String) : Work Unit :=
  modify fun w => { w with printers := { w.printers with pages := w.printers.pages ++ [page] } }

def putOn (bytes : String) : Work Unit :=
  changePaper fun p =>
    let bytes := Utf8.encode bytes
    ⟨p.bytes.take p.position ++ bytes ++ p.bytes.drop (p.position + bytes.length),
      p.position + bytes.length⟩

def rewind : Work Unit := changePaper fun p => { p with position := 0 }

def printOnce (page : String) : Work Unit := do
  handIn page
  let w ← get
  set { w with printers := { w.printers with results := w.printers.results.drop 1 } }
  match w.printers.results.head?.getD (.printed (.int 0)) with
  | .failure kind reason => throw (.requestFailed kind reason)
  | .printed errors =>
    putOn "%PDF"
    if errors.isPresent then throw (.pdfFailed errors.display)
    rewind

/-- Whether a failure is put down to the cryptography of the printer. -/
def isCryptic (f : Fault) : Bool :=
  contains (lower f.message) "usedforsecurity" || contains (lower f.message) "openssl"

/-- Whether a failure is a wrong use of the cryptography, after which printing is tried again. -/
def canRetry (f : Fault) : Bool := contains (lower f.message) "usedforsecurity"

/-- Whether a failure is about the kind of a value. -/
def isKindFault : Fault → Bool
  | .requestFailed "TypeError" _ => true
  | _ => false

def printPlain (page : String) : Work Unit := do
  let page := withStyle page
  match ← Work.attempt (printOnce page) with
  | .ok _ => return
  | .error fault =>
    if isKindFault fault then
      if canRetry fault then
        match ← Work.attempt (printOnce page) with
        | .ok _ => return
        | .error again => throw (.pdfRetryFailed again.message)
      else throw fault
    else if isCryptic fault then throw (.pdfIncompatible fault.message)
    else throw fault

def printStyled (failure : Option String) (page : String) : Work Unit := do
  handIn page
  match failure with
  | some reason => throw (.failed reason)
  | none =>
    putOn "%WEASY"
    rewind

/-- Print a document on the best printer at hand, also into a file if one is given. -/
def print (document : String) (output : Option String) : Work Paper := do
  let page ← page document
  changePaper fun _ => {}
  let printers := (← get).printers
  match printers.styled with
  | some failure =>
    match ← Work.attempt (printStyled failure page) with
    | .ok _ => pure ()
    | .error fault =>
      if printers.plain then printPlain page else throw (.pdfWithoutFallback fault.message)
  | none => if printers.plain then printPlain page else throw .noPrinter
  match output with
  | some path =>
    if path != "" then
      let bytes := (← get).printers.paper.bytes
      Work.changeDisk (·.write path (.raw bytes))
      rewind
  | none => pure ()
  return (← get).printers.paper

def requirePrinter : Work Unit := do
  let printers := (← get).printers
  if printers.styled.isNone && !printers.plain then
    throw (.noPdfBackend "No module named 'weasyprint'")

end CodeScribe.Pdf
