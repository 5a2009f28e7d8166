import CodeScribe.Data.Value

/-!
# Faults

Everything that can stop a piece of work, by cause.

* `Fault.message` — their wording, the one place where it is written.
-/

namespace CodeScribe

/-- The stage at which a settings text turned out to be malformed. -/
inductive Malformed where
  | reading
  | scanning
  | parsing
  | composing
  | constructing
deriving DecidableEq, Repr

/-- Causes that stop a piece of work. -/
inductive Fault where
  /-- A table lacks a required key. -/
  | missingKey (key : Value)
  /-- Data of this kind does not offer the operation. -/
  | noOperation (kind operation : String)
  /-- Data of this kind has no items to go through. -/
  | notIterable (kind : String)
  /-- Data of this kind holds nothing to look for. -/
  | notSearchable (kind : String)
  /-- Data of this kind cannot be looked into by key. -/
  | notIndexable (kind : String)
  /-- A list or text was looked into by a key of this kind. -/
  | wrongIndex (holder kind : String)
  /-- Data of this kind has no length. -/
  | noLength (kind : String)
  /-- An item that should have been joined to a text is none. -/
  | notJoinable (index : Nat) (kind : String)
  /-- Data of this kind cannot be joined to a text. -/
  | nothingToJoin
  /-- Data of this kind cannot be a key. -/
  | notKey (kind : String)
  /-- Data of two kinds has no order. -/
  | notOrdered (kind other : String)
  /-- A text was needed where data of this kind stands. -/
  | notText (kind : String)
  /-- Data of this kind cannot be appended to a text. -/
  | notAppendable (kind : String)
  /-- An operator does not take data of these two kinds. -/
  | noOperator (operator kind other : String)
  /-- Something else is wrong with the kind of some data. -/
  | wrongKind (problem : String)
  /-- A position lies outside its list. -/
  | outOfRange
  /-- A list lacks a text that was looked for. -/
  | notListed (item : String)
  /-- Work on something nested goes deeper than it may. -/
  | tooDeep
  /-- A name was used that has no meaning there. -/
  | undefinedName (name : String)
  /-- A number was divided by zero. -/
  | divisionByZero
  /-- A settings text is malformed. -/
  | malformed (stage : Malformed) (problem : String)
  /-- A data text is malformed at a position, counted from zero. -/
  | badData (problem : String) (line column pos : Nat)
  /-- A date, time or number in a settings text is impossible. -/
  | badScalar (problem : String)
  /-- Some bytes of a file belong to no character. -/
  | notDecodable
  /-- The chunks of a file come to no end. -/
  | endlessChunks
  /-- A template asks for a part of something undefined. -/
  | undefinedPart
  /-- A template has a statement without its expression. -/
  | missingExpression
  /-- No model provider has this name. -/
  | unknownProvider (name : String)
  /-- The settings switch this model provider off. -/
  | providerDisabled (name : String)
  /-- No kind of source has this name. -/
  | unknownSourceKind (name : String)
  /-- No domain has this name. -/
  | unknownDomain (name : String)
  /-- A domain does not say where its source is. -/
  | domainWithoutSource (name : String)
  /-- No dependency map format has this name. -/
  | unknownFormat (name : String)
  /-- There is no file at a path. -/
  | fileNotFound (path : String)
  /-- There is no folder at a path. -/
  | folderNotFound (path : String)
  /-- A path is no file. -/
  | notAFile (path : String)
  /-- A path is no folder. -/
  | notAFolder (path : String)
  /-- The system found nothing at a path. -/
  | noSuchPath (path : String)
  /-- The system found a folder where it needed a file. -/
  | isAFolder (path : String)
  /-- The system found a file where it needed a folder. -/
  | fileInTheWay (path : String)
  /-- The system found something at a path that was to be made. -/
  | pathExists (path : String)
  /-- No document structure has this name in a folder. -/
  | structureNotFound (name folder : String)
  /-- No template has this name in a folder. -/
  | templateNotFound (name folder : String)
  /-- Text was written to a document that is finished. -/
  | documentClosed
  /-- A repository could not be read. -/
  | repositoryUnavailable (reason : String)
  /-- The support for repositories is missing. -/
  | repositorySupportMissing
  /-- A folder is no repository. -/
  | notARepository (path : String)
  /-- A secure address could not be cloned. -/
  | secureCloneFailed (reason : String)
  /-- Neither the secure nor the web address could be cloned. -/
  | cloneFailed (secure web : String)
  /-- The model server cannot be reached. -/
  | unreachable (server url : String)
  /-- The model server answered with trouble. -/
  | serverTrouble (server reason : String)
  /-- A web request ended with an error status. -/
  | badStatus (status : Int) (reason url : String)
  /-- A web request failed before it was answered. -/
  | requestFailed (kind reason : String)
  /-- Some outside work failed for the given reason. -/
  | failed (reason : String)
  /-- No library can make a PDF. -/
  | noPdfBackend (reason : String)
  /-- There is no printer any more. -/
  | noPrinter
  /-- The PDF backend reported errors. -/
  | pdfFailed (errors : String)
  /-- The PDF backend failed in its hashing, also on a second try. -/
  | pdfRetryFailed (reason : String)
  /-- The PDF backend failed in its cryptography. -/
  | pdfIncompatible (reason : String)
  /-- The preferred PDF backend failed and there is no other. -/
  | pdfWithoutFallback (reason : String)
  /-- A diagram is empty once cleaned. -/
  | emptyDiagram
  /-- Two live displays were opened at once. -/
  | nestedDisplay
  /-- The command was given up. -/
  | aborted
  /-- A command line value is unusable. -/
  | badParameter (problem : String)
  /-- A line for the console closes a style that is not open; the name may be missing. -/
  | unopenedStyle (tag name : String) (position : Nat)

namespace Fault

/-- Kinds of trouble that callers tell apart. -/
inductive Family where
  | key | operation | kind | index | name | division | malformed (stage : Malformed) | data
  | encoding
  | undefined | template | value | missingFile | folder | notFolder | exists | connection
  | failure (kind : String) | runtime | display | support | aborted | parameter
  | style
deriving DecidableEq, Repr

def family : Fault → Family
  | missingKey _ => .key
  | noOperation .. => .operation
  | notIterable _ | notSearchable _ | notIndexable _ | wrongIndex .. | noLength _
  | notJoinable .. | nothingToJoin | notKey _ | notOrdered .. | notText _ | notAppendable _
  | noOperator .. | wrongKind _ => .kind
  | outOfRange => .index
  | undefinedName _ => .name
  | divisionByZero => .division
  | malformed stage _ => .malformed stage
  | badData .. => .data
  | notDecodable => .encoding
  | undefinedPart => .undefined
  | missingExpression => .template
  | badScalar _ | unknownProvider _ | providerDisabled _ | unknownSourceKind _ | unknownDomain _
  | domainWithoutSource _ | unknownFormat _ | endlessChunks | notAFile _ | notAFolder _ | documentClosed
  | repositoryUnavailable _ | notARepository _ | secureCloneFailed _ | cloneFailed ..
  | emptyDiagram | notListed _ => .value
  | fileNotFound _ | folderNotFound _ | noSuchPath _ | structureNotFound ..
  | templateNotFound .. => .missingFile
  | isAFolder _ => .folder
  | fileInTheWay _ => .notFolder
  | pathExists _ => .exists
  | repositorySupportMissing => .support
  | badStatus .. => .failure "HTTPError"
  | requestFailed kind _ => .failure kind
  | unreachable .. | serverTrouble .. | failed _ | noPdfBackend _ | noPrinter | pdfFailed _
  | pdfRetryFailed _ | pdfIncompatible _ | pdfWithoutFallback _ | tooDeep => .runtime
  | nestedDisplay => .display
  | aborted => .aborted
  | badParameter _ => .parameter
  | unopenedStyle .. => .style

def message : Fault → String
  | missingKey key => key.literal
  | noOperation kind operation =>
    "'" ++ kind ++ "' object has no attribute '" ++ operation ++ "'"
  | notIterable kind => "'" ++ kind ++ "' object is not iterable"
  | notSearchable kind => "argument of type '" ++ kind ++ "' is not iterable"
  | notIndexable kind => "'" ++ kind ++ "' object is not subscriptable"
  | wrongIndex holder kind =>
    if holder == "str" then "string indices must be integers, not '" ++ kind ++ "'"
    else holder ++ " indices must be integers or slices, not " ++ kind
  | noLength kind => "object of type '" ++ kind ++ "' has no len()"
  | notJoinable index kind =>
    "sequence item " ++ toString index ++ ": expected str instance, " ++ kind ++ " found"
  | nothingToJoin => "can only join an iterable"
  | notKey kind => "unhashable type: '" ++ kind ++ "'"
  | notOrdered kind other =>
    "'<' not supported between instances of '" ++ kind ++ "' and '" ++ other ++ "'"
  | notText kind => "expected string or bytes-like object, got '" ++ kind ++ "'"
  | notAppendable kind => "can only concatenate str (not \"" ++ kind ++ "\") to str"
  | noOperator operator kind other =>
    "unsupported operand type(s) for " ++ operator ++ ": '" ++ kind ++ "' and '" ++ other ++ "'"
  | wrongKind problem => problem
  | outOfRange => "list index out of range"
  | notListed item => Value.quoted item ++ " is not in list"
  | tooDeep => "maximum recursion depth exceeded"
  | undefinedName name => "name '" ++ name ++ "' is not defined"
  | divisionByZero => "division by zero"
  | malformed _ problem => problem
  | badData problem line column pos =>
    problem ++ ": line " ++ toString (line + 1) ++ " column " ++ toString (column + 1) ++
      " (char " ++ toString pos ++ ")"
  | badScalar problem => problem
  | notDecodable => "invalid start byte"
  | endlessChunks => "The chunks of the file come to no end"
  | undefinedPart => "undefined"
  | missingExpression => "Expected an expression, got 'end of statement block'"
  | unknownProvider name => "Unknown LLM provider: " ++ name ++ ". Supported: ['ollama', 'mcp']"
  | providerDisabled name => "LLM provider " ++ name ++ " is not enabled in configuration"
  | unknownSourceKind name => "Unknown source type: " ++ name
  | unknownDomain name => "Domain '" ++ name ++ "' not found in config.yaml"
  | domainWithoutSource name => "Domain '" ++ name ++ "' missing 'source' or 'path'"
  | unknownFormat name =>
    "Unsupported format: " ++ name ++ ". Use 'json', 'dot', 'mermaid', or 'markdown'"
  | fileNotFound path => "File not found: " ++ path
  | folderNotFound path => "Folder not found: " ++ path
  | notAFile path => "Path is not a file: " ++ path
  | notAFolder path => "Path is not a directory: " ++ path
  | noSuchPath path => "[Errno 2] No such file or directory: " ++ Value.quoted path
  | isAFolder path => "[Errno 21] Is a directory: " ++ Value.quoted path
  | fileInTheWay path => "[Errno 20] Not a directory: " ++ Value.quoted path
  | pathExists path => "[Errno 17] File exists: " ++ Value.quoted path
  | structureNotFound name folder =>
    "Document structure '" ++ name ++ "' not found in " ++ folder
  | templateNotFound name folder =>
    "Template '" ++ name ++ "' not found in " ++ folder ++
      ". Please create a default template or specify a valid template path."
  | documentClosed => "I/O operation on closed file."
  | repositoryUnavailable reason => "Failed to access Git repository: " ++ reason
  | repositorySupportMissing =>
    "GitPython is required for Git repository support. Install it with: pip install GitPython"
  | notARepository path => "not a repo: " ++ path
  | secureCloneFailed reason =>
    "Failed to clone repository via SSH: " ++ reason ++
      ". Please check your SSH configuration or use HTTPS URL."
  | cloneFailed secure web =>
    "Failed to clone repository. SSH error: " ++ secure ++ ". HTTPS error: " ++ web ++
      ". Please check your SSH config or use HTTPS URL."
  | unreachable server url =>
    if server == "MCP" then
      "Could not connect to MCP server at " ++ url ++ ". Make sure the MCP server is running."
    else "Could not connect to " ++ server ++ " at " ++ url ++ ". Make sure " ++ server ++
      " is running."
  | serverTrouble server reason =>
    (if server == "MCP" then "MCP server error: " else server ++ " API error: ") ++ reason
  | badStatus status reason url =>
    toString status ++ (if status < 500 then " Client Error: " else " Server Error: ") ++ reason ++
      " for url: " ++ url
  | requestFailed kind reason => if kind == "KeyError" then Value.quoted reason else reason
  | failed reason => reason
  | noPdfBackend reason =>
    "No PDF generation library available. Please install either:\n" ++
      "  - weasyprint (Linux/Mac): pip install weasyprint\n" ++
      "  - xhtml2pdf (Windows-compatible): pip install xhtml2pdf\n" ++
      "WeasyPrint error: " ++ reason
  | noPrinter => "No PDF generation library available"
  | pdfFailed errors => "PDF generation failed: " ++ errors
  | pdfRetryFailed reason =>
    "PDF generation failed due to OpenSSL compatibility issue. Error: " ++ reason ++
      ". Please try: pip install --upgrade xhtml2pdf reportlab"
  | pdfIncompatible reason =>
    "PDF generation failed due to OpenSSL compatibility issue. " ++
      "Please try: pip install --upgrade xhtml2pdf reportlab. Original error: " ++ reason
  | pdfWithoutFallback reason =>
    "WeasyPrint failed: " ++ reason ++ ". Please install xhtml2pdf as fallback."
  | emptyDiagram => "Empty Mermaid diagram after normalization"
  | nestedDisplay => "Only one live display may be active at once"
  | aborted => ""
  | badParameter problem => problem
  | unopenedStyle tag name position =>
    "closing tag '[" ++ tag ++ "]' at position " ++ toString position ++
      (if name == "" then " has nothing to close" else " doesn't match any open tag")

/-- The wording of a cause, or its kind if there is none. -/
def brief (f : Fault) : String :=
  if f.message != "" then f.message
  else match f with
    | requestFailed kind _ => kind
    | _ => "RuntimeError"

end Fault

/-- A result or the cause that prevented it. -/
abbrev Outcome := Except Fault

end CodeScribe
