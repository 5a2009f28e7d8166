import CodeScribe.Data.Sha1
import CodeScribe.Text.Pattern

/-!
# Names and labels in drawings
-/

namespace CodeScribe.Mermaid

/-- Drop an underscore in front of another. -/
def squeeze : List Char → List Char
  | '_' :: '_' :: rest => squeeze ('_' :: rest)
  | c :: rest => c :: squeeze rest
  | [] => []

/-- A text as an identifier: word characters only, single underscores between them, and a letter
or underscore in front. -/
def stem (s : String) : List Char :=
  let cs := squeeze (s.toList.map fun c => if Text.isWord c then c else '_')
  match Chars.trimOf (· == '_') cs with
  | [] => []
  | c :: rest => if Text.isLetter c || c == '_' then c :: rest else '_' :: c :: rest

/-- The identifier of a path: its stem, cut to eighty characters, and the start of its digest. -/
def nodeId (path : String) : String :=
  let base := stem path
  let base := if base.isEmpty then "node" else String.ofList (base.take 80)
  base ++ "_" ++ Text.take 10 (Sha1.hex path)

/-- The stem of a text, cut to fifty characters. -/
def shortId (s : String) : String :=
  let base := stem s
  if base.isEmpty then "node" else String.ofList (base.take 50)

/-- A text that can stand between double quotes, cut to a number of characters. -/
def label (limit : Nat) (s : String) : String :=
  let cs := s.toList.flatMap fun c =>
    if c == '\\' then ['\\', '\\'] else if c == '"' then ['\\', '"']
    else if c == '\n' || c == '\r' then [' '] else [c]
  if cs.isEmpty then "file" else String.ofList (cs.take limit)

def node (id label : String) : String := id ++ "[\"" ++ label ++ "\"]"

end CodeScribe.Mermaid
