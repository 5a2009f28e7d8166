import CodeScribe.Text.Chars

/-!
# Summaries of documents
-/

namespace CodeScribe.Page

open Text

/-- Whether a line belongs to the head of a document. -/
def isHead (line : String) : Bool :=
  (startsWith (trim line) "#" && contains line "Technical Documentation") ||
    contains line "Generated using" || trim line == "---"

/-- Whether enough was gathered: four lines, one of the last three being the end of a sentence. -/
def isEnough (found : List String) : Bool :=
  4 ≤ found.length && (found.drop (found.length - 3)).any (endsWith · ".")

def firstParagraph (found : List String) : List String → List String
  | [] => found
  | line :: rest =>
    if isHead line then firstParagraph found rest
    else if trim line == "" then
      if found.isEmpty then firstParagraph found rest else found
    else if startsWith (trim line) "##" then found
    else
      let found := found ++ [trim line]
      if isEnough found then found else firstParagraph found rest

def summaryLanguages : List String := ["csharp", "fsharp", "java", "php", "vbnet"]

def coverage (document : String) : String :=
  let languages := summaryLanguages.filter fun l => contains document (upper l ++ " Files")
  "This documentation covers " ++ toString (count document "### ") ++ " source file(s) " ++
    (if languages.isEmpty then "" else "written in " ++ join ", " languages ++ ". ") ++
    "The documentation includes detailed explanations of classes, methods, and code structure."

def summary (document : String) : String :=
  if document == "" then "No summary available."
  else
    let found := trim (join " " (firstParagraph [] (splitOn document "\n")))
    if found.length < 50 then coverage document else found

end CodeScribe.Page
