import CodeScribe.Text.Chars

/-!
# Paths

* `Path.ofString`, `Path.text` — reading drops empty parts and single points, and nothing else.
-/

namespace CodeScribe

/-- A path: its root, which may be empty, and the parts below it. -/
structure Path where
  root : String
  parts : List String
deriving DecidableEq, Repr

namespace Path

/-- The root of a path text: none, one slash, or exactly two. -/
def rootOf (s : String) : String :=
  match s.toList with
  | '/' :: '/' :: '/' :: _ => "/"
  | '/' :: '/' :: _ => "//"
  | '/' :: _ => "/"
  | _ => ""

def ofString (s : String) : Path :=
  ⟨rootOf s, (Text.splitOn s "/").filter fun p => p != "" && p != "."⟩

/-- The text of a path; the empty path is written as a point. -/
def text (p : Path) : String :=
  if p.parts.isEmpty then if p.root == "" then "." else p.root
  else p.root ++ Text.join "/" p.parts

/-- A path text without empty parts and single points. -/
def normal (s : String) : String := (ofString s).text

def name (p : Path) : String := p.parts.getLast?.getD ""

/-- The ending of a name: from its last point on, if something stands on both sides of it. -/
def suffixOf (name : String) : String :=
  let ending := name.toList.reverse.takeWhile (· != '.')
  if ending.length + 1 < name.length && !ending.isEmpty then
    "." ++ String.ofList ending.reverse
  else ""

/-- The ending of the last part. -/
def suffix (p : Path) : String := suffixOf p.name

/-- The last part without its ending. -/
def stem (p : Path) : String := Text.dropRight p.suffix.length p.name

def parent (p : Path) : Path := { p with parts := p.parts.dropLast }

/-- One path below another; a path with a root stands for itself. -/
def append (p q : Path) : Path :=
  if q.root == "" then { p with parts := p.parts ++ q.parts } else q

def below (folder name : String) : String := ((ofString folder).append (ofString name)).text

/-- The rest of a path below another path. -/
def relativeTo? (p base : Path) : Option Path :=
  if p.root == base.root && base.parts.isPrefixOf p.parts then
    some ⟨"", p.parts.drop base.parts.length⟩
  else none

end Path

end CodeScribe
