import CodeScribe.Fault
import CodeScribe.Text.Pattern

/-!
# Styled lines

Lines for the console hold style names in brackets, as in `[bold]yes[/bold]`.  A style is closed by
its name or, with no name, the last one is.  A bracket after a backslash is an ordinary one.

* `StyledLine.plain` — the text of a line without its styles.
-/

namespace CodeScribe.StyledLine

/-- A piece of a line and, for what stands in brackets, its position. -/
inductive Piece where
  | text (chars : List Char)
  | tag (position : Nat) (body : List Char)
deriving DecidableEq, Repr

/-- What a bracketed style can start with. -/
def startsTag (c : Char) : Bool := ('a' ≤ c && c ≤ 'z') || c == '#' || c == '/' || c == '@'

/-- A bracketed style with the backslashes before it. -/
def tagPattern : Pattern :=
  .group 1 (.span (· == '\\')) ++ .char '[' ++
    .group 2 (.one startsTag ++ .spanLazy (· != '[')) ++ .char ']'

/-- The pieces of a bracketed style: of two backslashes one is kept, and a single one makes the
brackets ordinary. -/
def piecesOfMatch (m : Match) : List Piece :=
  let slashes := ((m.chars? 1).getD []).length
  let kept := List.replicate (slashes / 2) '\\'
  let position := m.start + slashes / 2 * 2
  let before := if kept.isEmpty then [] else [Piece.text kept]
  before ++
    if slashes % 2 == 1 then [.text (m.chars.drop slashes)]
    else [.tag position ((m.chars? 2).getD [])]

def pieces (line : List Char) : List Piece :=
  (Pattern.pieces 0 (tagPattern.findAll line) line).flatMap fun (before, m) =>
    (if before.isEmpty then [] else [.text before]) ++ (m.map piecesOfMatch).getD []

/-- The name of a style, regardless of case and of blanks around it. -/
def nameOf (body : List Char) : String :=
  Text.lower (Text.trim (String.ofList (body.takeWhile (· != '='))))

/-- Close a style: the last one opened by the name, or the last one at all. -/
def close (name : String) (opened : List String) : Option (List String) :=
  if name == "" then if opened.isEmpty then none else some (opened.drop 1)
  else if opened.contains name then some (opened.erase name) else none

/-- The text of some pieces, with the styles that are open, the last one first. -/
def textOf : List String → List Piece → Outcome (List Char)
  | _, [] => .ok []
  | opened, .text chars :: rest => do
    return Chars.replace ['\\', '['] ['['] chars ++ (← textOf opened rest)
  | opened, .tag position body :: rest =>
    match body with
    | '/' :: closing =>
      match close (nameOf closing) opened with
      | some opened => textOf opened rest
      | none => .error (.unopenedStyle (String.ofList body) (nameOf closing) position)
    | _ => textOf (nameOf body :: opened) rest

def plain (line : String) : Outcome String := do
  return String.ofList (← textOf [] (pieces line.toList))

end CodeScribe.StyledLine
