import CodeScribe.Document.Template.Basic

/-!
# Reading templates

A template text is cut into plain text and tags; the tags become expressions and statements.
-/

namespace CodeScribe.Document

open Text

/-! ### Pieces -/

inductive Piece where
  | text (cs : List Char)
  | shown (code : List Char)
  | statement (code : List Char)
deriving Repr, DecidableEq

namespace Piece

/-- The text before the next tag, and the tag's mark with all that follows. -/
def untilTag : List Char → List Char × Option (Char × List Char)
  | [] => ([], none)
  | c :: rest =>
    match rest with
    | d :: after =>
      if c == '{' && (d == '{' || d == '%' || d == '#') then ([], some (d, after))
      else let (before, tag) := untilTag rest; (c :: before, tag)
    | [] => ([c], none)

/-- The text before a closing mark with its brace, and all that follows. -/
def untilClose (mark : Char) : List Char → List Char × List Char
  | [] => ([], [])
  | c :: rest =>
    match rest with
    | d :: after =>
      if c == mark && d == '}' then ([], after)
      else let (inside, out) := untilClose mark rest; (c :: inside, out)
    | [] => ([c], [])

/-- Drop the blanks behind the last newline, if nothing else stands there. -/
def dropIndent (atLineStart : Bool) (cs : List Char) : List Char :=
  let tail := cs.reverse.takeWhile (· != '\n')
  if tail.all isBlank && (atLineStart || tail.length < cs.length) then
    cs.take (cs.length - tail.length)
  else cs

/-- Drop one newline; the switch tells whether there was one. -/
def dropNewline : List Char → Bool × List Char
  | '\n' :: rest => (true, rest)
  | cs => (false, cs)

def plain (cs : List Char) : List Piece := if cs.isEmpty then [] else [text cs]

/-- The pieces of a text. -/
def cut : Nat → Bool → List Char → List Piece
  | 0, _, cs => plain cs
  | fuel + 1, atLineStart, cs =>
    match untilTag cs with
    | (before, none) => plain before
    | (before, some (mark, rest)) =>
      if mark == '{' then
        let (code, rest) := untilClose '}' rest
        plain before ++ shown code :: cut fuel false rest
      else
        let (code, rest) := untilClose mark rest
        let (newline, rest) := dropNewline rest
        plain (dropIndent atLineStart before) ++
          (if mark == '%' then [statement code] else []) ++ cut fuel newline rest

/-- The pieces of a template text; a newline at its end is no part of it. -/
def ofChars (cs : List Char) : List Piece :=
  let cs := if cs.getLast? == some '\n' then cs.dropLast else cs
  cut cs.length true cs

end Piece

/-! ### Tokens -/

inductive Token where
  | word (s : String)
  | quoted (s : String)
  | mark (s : String)
deriving Repr, DecidableEq

namespace Token

/-- Marks of two characters. -/
def isPair (c d : Char) : Bool := (c == '=' || c == '!') && d == '='

def scan : Nat → List Char → List Token
  | 0, _ => []
  | _, [] => []
  | fuel + 1, c :: rest =>
    if isBlank c then scan fuel rest
    else if isWord c then
      word (String.ofList (c :: rest.takeWhile isWord)) :: scan fuel (rest.dropWhile isWord)
    else if c == '"' || c == '\'' then
      quoted (String.ofList (rest.takeWhile (· != c))) ::
        scan fuel ((rest.dropWhile (· != c)).drop 1)
    else match rest with
      | d :: after =>
        if isPair c d then mark (String.ofList [c, d]) :: scan fuel after
        else mark (String.singleton c) :: scan fuel rest
      | [] => [mark (String.singleton c)]

def ofChars (cs : List Char) : List Token := scan cs.length cs

end Token

/-! ### Expressions -/

def plainFilters : List (String × Filter) :=
  [("length", .length), ("upper", .upper), ("lower", .lower), ("trim", .trim),
    ("join_paths", .paths), ("format_file_size", .fileSize), ("count_items", .count)]

def filterOf : List Token → Outcome (Filter × List Token)
  | .word "join" :: .mark "(" :: .quoted sep :: .mark ")" :: rest => .ok (.join sep, rest)
  | .word "replace" :: .mark "(" :: .quoted old :: .mark "," :: .quoted new :: .mark ")" :: rest =>
    .ok (.replace old new, rest)
  | .word "default" :: .mark "(" :: .word b :: .mark ")" :: rest => .ok (.fallback (b == "true"), rest)
  | .word name :: rest =>
    match plainFilters.lookup name with
    | some f => .ok (f, rest)
    | none => .error .missingExpression
  | _ => .error .missingExpression

/-- Parts, filters and tests behind an expression. -/
def behind : Nat → Expr → List Token → Outcome (Expr × List Token)
  | fuel + 1, e, .mark "." :: .word "items" :: .mark "(" :: .mark ")" :: rest =>
    behind fuel (.entries e) rest
  | fuel + 1, e, .mark "." :: .word key :: rest => behind fuel (.part e key) rest
  | fuel + 1, e, .mark "|" :: rest => do
    let (f, rest) ← filterOf rest
    behind fuel (.filtered e f) rest
  | fuel + 1, e, .word "is" :: .word "defined" :: rest => behind fuel (.isDefined e) rest
  | fuel + 1, e, .word "is" :: .word "not" :: .word "none" :: rest =>
    behind fuel (.negated (.isNull e)) rest
  | _, e, rest => .ok (e, rest)

mutual

def givenAt : Nat → List Token → Outcome (Expr × List Token)
  | 0, _ => .error .missingExpression
  | fuel + 1, ts => do
    let (e, rest) ← eitherAt fuel ts
    match rest with
    | .word "if" :: rest =>
      let (condition, rest) ← eitherAt fuel rest
      return (.given e condition, rest)
    | _ => return (e, rest)

/-- Alternatives. -/
def eitherAt : Nat → List Token → Outcome (Expr × List Token)
  | 0, _ => .error .missingExpression
  | fuel + 1, ts => do
    let (a, rest) ← bothAt fuel ts
    match rest with
    | .word "or" :: rest =>
      let (b, rest) ← eitherAt fuel rest
      return (.either a b, rest)
    | _ => return (a, rest)

/-- Conjunctions. -/
def bothAt : Nat → List Token → Outcome (Expr × List Token)
  | 0, _ => .error .missingExpression
  | fuel + 1, ts => do
    let (a, rest) ← comparedAt fuel ts
    match rest with
    | .word "and" :: rest =>
      let (b, rest) ← bothAt fuel rest
      return (.both a b, rest)
    | _ => return (a, rest)

/-- Denials and comparisons. -/
def comparedAt : Nat → List Token → Outcome (Expr × List Token)
  | 0, _ => .error .missingExpression
  | fuel + 1, .word "not" :: rest => do
    let (e, rest) ← comparedAt fuel rest
    return (.negated e, rest)
  | fuel + 1, ts => do
    let (a, rest) ← operandAt fuel ts
    match rest with
    | .mark "==" :: rest =>
      let (b, rest) ← operandAt fuel rest
      return (.equal a b, rest)
    | .mark "!=" :: rest =>
      let (b, rest) ← operandAt fuel rest
      return (.negated (.equal a b), rest)
    | _ => return (a, rest)

/-- A name, a literal or an expression in brackets, with what stands behind it. -/
def operandAt : Nat → List Token → Outcome (Expr × List Token)
  | 0, _ => .error .missingExpression
  | fuel + 1, .mark "(" :: rest => do
    let (e, rest) ← givenAt fuel rest
    match rest with
    | .mark ")" :: rest => behind fuel e rest
    | _ => .error .missingExpression
  | fuel + 1, .word w :: rest =>
    behind fuel (if w == "true" then .truth true else if w == "false" then .truth false else .name w)
      rest
  | fuel + 1, .quoted s :: rest => behind fuel (.text s) rest
  | _, _ => .error .missingExpression

end

def Expr.ofTokens (ts : List Token) : Outcome Expr := do
  match ← givenAt (8 * (ts.length + 1)) ts with
  | (e, []) => return e
  | _ => .error .missingExpression

def Expr.ofChars (cs : List Char) : Outcome Expr := ofTokens (Token.ofChars cs)

/-! ### Statements -/

/-- A statement that is not closed yet, with the pieces before it, last first. -/
inductive Opened where
  | branch (condition : Expr) (before : List Node)
  | otherwise (condition : Expr) (yes before : List Node)
  | each (names : List String) (source : Expr) (before : List Node)

/-- The open statements, innermost first, and the pieces since then, last first. -/
structure Reading where
  opened : List Opened
  recent : List Node

def Reading.statement (r : Reading) (ts : List Token) : Outcome Reading :=
  match ts, r.opened with
  | .word "if" :: rest, opened => do
    return ⟨.branch (← Expr.ofTokens rest) r.recent :: opened, []⟩
  | .word "for" :: .word a :: .mark "," :: .word b :: .word "in" :: rest, opened => do
    return ⟨.each [a, b] (← Expr.ofTokens rest) r.recent :: opened, []⟩
  | .word "for" :: .word a :: .word "in" :: rest, opened => do
    return ⟨.each [a] (← Expr.ofTokens rest) r.recent :: opened, []⟩
  | .word "set" :: .word name :: .mark "=" :: rest, opened => do
    return ⟨opened, .assign name (← Expr.ofTokens rest) :: r.recent⟩
  | [.word "else"], .branch c before :: opened =>
    .ok ⟨.otherwise c r.recent.reverse before :: opened, []⟩
  | [.word "endif"], .branch c before :: opened =>
    .ok ⟨opened, .branch c r.recent.reverse [] :: before⟩
  | [.word "endif"], .otherwise c yes before :: opened =>
    .ok ⟨opened, .branch c yes r.recent.reverse :: before⟩
  | [.word "endfor"], .each names source before :: opened =>
    .ok ⟨opened, .each names source r.recent.reverse :: before⟩
  | _, _ => .error .missingExpression

def Reading.piece (r : Reading) : Piece → Outcome Reading
  | .text cs => .ok { r with recent := .text (String.ofList cs) :: r.recent }
  | .shown code => do return { r with recent := .shown (← Expr.ofChars code) :: r.recent }
  | .statement code => r.statement (Token.ofChars code)

/-- The template that a text spells out; every statement must be closed. -/
def Template.ofString (s : String) : Outcome Template := do
  let r ← (Piece.ofChars s.toList).foldlM Reading.piece ⟨[], []⟩
  match r.opened with
  | [] => return ⟨r.recent.reverse⟩
  | _ => .error .missingExpression

end CodeScribe.Document
