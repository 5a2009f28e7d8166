import CodeScribe.Text.Pattern

/-!
# Headings and paragraphs

A document is laid out as headings, paragraphs and ready-made parts, which stand between tags.

* `Pdf.layOut` — a document as the body of a page.
-/

namespace CodeScribe.Pdf

open Text Pattern

/-! ### Lines -/

/-- Put blanks in place of tabs, up to the next multiple of four; `column` is where the text
starts. -/
def expandTabs : Nat → List Char → List Char
  | _, [] => []
  | column, '\t' :: rest =>
    List.replicate (4 - column % 4) ' ' ++ expandTabs (column + (4 - column % 4)) rest
  | _, '\n' :: rest => '\n' :: expandTabs 0 rest
  | column, c :: rest => c :: expandTabs (column + 1) rest

def emptied (line : String) : String := if line.toList.all (· == ' ') then "" else line

/-- The lines of a document, with plain newlines, without tabs and with empty lines emptied. -/
def linesOf (text : String) : List String :=
  let text := replace (replace text "\r\n" "\n") "\r" "\n"
  (splitOn (String.ofList (expandTabs 0 text.toList)) "\n").map emptied

/-! ### Ready-made parts -/

/-- A ready-made part of the page, or text. -/
inductive Piece where
  | part (html : String)
  | text (s : String)
deriving DecidableEq, Repr

/-- The length of a ready-made part: up to the end of the tag that closes as many as were
opened, or all there is.  `seen` characters are behind. -/
def partLength (depth : Nat) (seen : Nat) : List Char → Nat
  | [] => seen
  | c :: rest =>
    if "</div>".toList.isPrefixOf (c :: rest) then
      if depth ≤ 1 then seen + 6 else partLength (depth - 1) (seen + 1) rest
    else if "<div".toList.isPrefixOf (c :: rest) then partLength (depth + 1) (seen + 1) rest
    else partLength depth (seen + 1) rest

def emptyLineNext (cs : List Char) : Bool :=
  ((all [span (· == ' '), char '\n', span (· == ' '), char '\n']).matchStart? cs).isSome

def gathered (before : List Char) : List Piece :=
  if before.isEmpty then [] else [.text (String.ofList before.reverse)]

/-- Cut ready-made parts out of a text.  They start at the start of a line, or where one on the
same line ended.  `skip` characters belong to the part before, `free` says that a part can start
here, and `before` is the text gathered, last character first. -/
def cutParts : Nat → Bool → List Char → List Char → List Piece
  | _, _, before, [] => gathered before
  | skip + 1, free, before, _ :: rest => cutParts skip free before rest
  | 0, free, before, c :: rest =>
    if free && "<div".toList.isPrefixOf (c :: rest) then
      let length := partLength 0 0 (c :: rest)
      let html := (c :: rest).take length
      let html := if emptyLineNext ((c :: rest).drop length) then html ++ ['\n'] else html
      gathered before ++ .part (String.ofList html) :: cutParts (length - 1) true [] rest
    else
      let free := if c == '\n' then true else free && c == ' '
      cutParts 0 free (c :: before) rest

/-- Ready-made parts and the text between them. -/
def piecesOf (lines : List String) : List Piece :=
  cutParts 0 true [] (join "\n" (lines ++ ["", ""])).toList

/-! ### Headings and paragraphs -/

inductive Block where
  | heading (level : Nat) (s : String)
  | paragraph (lines : List String)
deriving DecidableEq, Repr

def headingIn? (line : String) : Option Block :=
  let marks := min 6 (line.toList.takeWhile (· == '#')).length
  if marks == 0 then none
  else some (.heading marks (trim (trimRightOf (· == '#') (drop marks line))))

def paragraphOf (lines : List String) : List Block :=
  if lines.all fun l => trim l == "" then [] else [.paragraph lines]

/-- The headings and paragraphs of lines with no empty line between them. -/
def blocksIn (before : List String) : List String → List Block
  | [] => paragraphOf before
  | line :: rest =>
    match headingIn? line with
    | some h => paragraphOf before ++ h :: blocksIn [] rest
    | none => blocksIn (before ++ [line]) rest

/-- The headings and paragraphs of a text: empty lines end a paragraph. -/
def blocksOf (s : String) : List Block :=
  (splitOn s "\n\n").flatMap fun part => blocksIn [] (splitOn part "\n")

/-! ### Writing -/

def tag : Pattern :=
  char '<' ++ opt (char '/') ++ one (fun c => c.isAlpha) ++ span (noneOf "<>@ ") ++
    opt (char ' ' ++ span (noneOf "<>")) ++ char '>'

/-- A named or numbered character. -/
def entity : Pattern :=
  char '&' ++ (span1 (fun c => c.isAlphanum) <|> (char '#' ++ span1 (fun c => c.isAlphanum))) ++
    char ';'

/-- A character between tags. -/
def shownChar : Char → List Char
  | '&' => "&amp;".toList
  | '<' => "&lt;".toList
  | '>' => "&gt;".toList
  | c => [c]

/-- A line with everything escaped that is neither a tag nor a named character. -/
def shownLine (line : String) : String :=
  let cs := line.toList
  String.ofList <| (pieces 0 ((tag <|> entity).findAll cs) cs).flatMap fun (between, m?) =>
    between.flatMap shownChar ++ (m?.map (·.chars)).getD []

/-- A line before a break, without the two blanks that may mark it. -/
def beforeBreak (line : String) : String := if endsWith line "  " then dropRight 2 line else line

/-- A heading or a paragraph as a part of the page. -/
def Block.html : Block → String
  | heading level s => "<h" ++ toString level ++ ">" ++ shownLine s ++ "</h" ++ toString level ++ ">"
  | paragraph lines =>
    let lines := splitOn (trimLeftOf isBlank (join "\n" lines)) "\n"
    let shown := lines.dropLast.map beforeBreak ++ lines.getLast?.toList
    "<p>" ++ join "<br />\n" (shown.map shownLine) ++ "</p>"

/-- The parts of the page that a piece stands for. -/
def Piece.html : Piece → List String
  | part html => [html]
  | text s => (blocksOf s).map Block.html

def layOut (document : String) : String :=
  trim (join "\n" ((piecesOf (linesOf document)).flatMap Piece.html))

end CodeScribe.Pdf
