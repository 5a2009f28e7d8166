import CodeScribe.Data.Yaml.Trouble

/-!
# Tokens of indented settings texts

The first of three steps from a settings text to data: indentation, indicators and scalars
become a flat list of tokens.

A key is only recognised by the colon behind it, so the scanner remembers for each depth the
last place where a key may have started, and puts the key token there once the colon is found.
-/

namespace CodeScribe.Yaml

inductive Token where
  | directive (name : String) (arguments : List String)
  | documentStart
  | documentEnd
  | streamEnd
  | blockSequenceStart
  | blockMappingStart
  | blockEnd
  | flowSequenceStart
  | flowSequenceEnd
  | flowMappingStart
  | flowMappingEnd
  | blockEntry
  | flowEntry
  | key
  | value
  | again (name : String)
  | anchor (name : String)
  | tag (handle : Option String) (suffix : String)
  | scalar (text : String) (plain : Bool)
  /-- The text cannot be scanned from here on. -/
  | broken (trouble : Trouble)
deriving DecidableEq, Repr

/-! ### The scanner's state -/

/-- A place where a key may have started. -/
structure KeyPlace where
  token : Nat
  required : Bool
  index : Nat
  line : Nat
  column : Nat

/-- The state of the scanner. -/
structure Scan where
  rest : List Char
  index : Nat := 0
  line : Nat := 0
  column : Nat := 0
  flow : Int := 0
  indent : Int := -1
  indents : List Int := []
  keyAllowed : Bool := true
  places : List (Int × KeyPlace) := []
  /-- Where the token starts that is being read. -/
  start : Mark := {}
  tokens : Array (Token × Mark) := #[]

/-- A step of the scanner, or the reason why the text cannot be scanned. -/
abbrev Step := Except Trouble

/-- The end of the text, as a character no text holds. -/
def ending : Char := Char.ofNat 0

def isBreak (c : Char) : Bool :=
  c == '\r' || c == '\n' || c.toNat == 0x85 || c.toNat == 0x2028 || c.toNat == 0x2029

def isBreakOrEnd (c : Char) : Bool := c == ending || isBreak c

/-- Spaces, line breaks and the end of the text. -/
def isSpaceOrEnd (c : Char) : Bool := c == ' ' || isBreakOrEnd c

/-- Spaces, tabs, line breaks and the end of the text. -/
def isGapOrEnd (c : Char) : Bool := c == '\t' || isSpaceOrEnd c

/-- Letters and digits of names, and hyphen and underscore. -/
def isNameChar (c : Char) : Bool := c.isAlphanum || c == '-' || c == '_'

namespace Scan

/-- The character `i` places ahead. -/
def peek (s : Scan) (i : Nat := 0) : Char := (s.rest[i]?).getD ending

/-- Read one character, keeping count of lines and columns. -/
def advance1 (s : Scan) : Scan :=
  match s.rest with
  | [] => s
  | c :: rest =>
    if (isBreak c && c != '\r') || (c == '\r' && rest.head? != some '\n') then
      { s with rest := rest, index := s.index + 1, line := s.line + 1, column := 0 }
    else if c.toNat == 0xFEFF then { s with rest := rest, index := s.index + 1 }
    else { s with rest := rest, index := s.index + 1, column := s.column + 1 }

def advance (s : Scan) : Nat → Scan
  | 0 => s
  | n + 1 => s.advance1.advance n

/-- The characters ahead of a class. -/
def ahead (s : Scan) (p : Char → Bool) : List Char := s.rest.takeWhile p

def skipWhile (s : Scan) (p : Char → Bool) : Scan := s.advance (s.ahead p).length

/-- Read a line break, and what it stands for: a line feed, or itself if it separates lines or
paragraphs, or nothing if there is none. -/
def takeBreak (s : Scan) : List Char × Scan :=
  let c := s.peek
  if c == '\r' || c == '\n' || c.toNat == 0x85 then
    if c == '\r' && s.peek 1 == '\n' then (['\n'], s.advance 2) else (['\n'], s.advance1)
  else if isBreak c then ([c], s.advance1)
  else ([], s)

def atDocumentMark (s : Scan) : Bool :=
  (s.rest.take 3 == ['-', '-', '-'] || s.rest.take 3 == ['.', '.', '.']) && isGapOrEnd (s.peek 3)

def mark (s : Scan) : Mark := ⟨s.line, s.column⟩

/-- There is trouble while something is read that started with the token. -/
def fail {α : Type} (s : Scan) (context problem : String) : Step α :=
  .error { context := some context, start := some s.start, problem, mark := s.mark }

/-- A character stands where something else was expected. -/
def expected {α : Type} (s : Scan) (context what : String) : Step α :=
  s.fail context ("expected " ++ what ++ ", but found " ++ found s.peek)

/-- Something stands where it must not. -/
def refuse {α : Type} (s : Scan) (what : String) : Step α :=
  .error { problem := what ++ " are not allowed here", mark := s.mark }

/-- A key was started but not finished. -/
def unfinished {α : Type} (s : Scan) (place : KeyPlace) : Step α :=
  .error { context := some "while scanning a simple key", start := some ⟨place.line, place.column⟩,
           problem := "could not find expected ':'", mark := s.mark }

def emit (s : Scan) (t : Token) : Scan := { s with tokens := s.tokens.push (t, s.start) }

/-- The open place for a key at the current depth. -/
def place? (s : Scan) : Option KeyPlace := (s.places.find? (·.1 == s.flow)).map (·.2)

/-- Forget the place for a key at the current depth. -/
def dropPlace (s : Scan) : Scan := { s with places := s.places.filter (·.1 != s.flow) }

/-- Close the place for a key at the current depth; a required key must not go unfinished. -/
def closePlace (s : Scan) : Step Scan :=
  match s.place? with
  | some place => if place.required then s.unfinished place else .ok s.dropPlace
  | none => .ok s

/-- Remember that a key may start here. -/
def openPlace (s : Scan) : Step Scan :=
  if s.keyAllowed then do
    let required := s.flow == 0 && s.indent == s.column
    let s ← s.closePlace
    .ok { s with places :=
      (s.flow, ⟨s.tokens.size, required, s.index, s.line, s.column⟩) :: s.places }
  else .ok s

/-- Whether a place is on an earlier line or too far back. -/
def isStale (s : Scan) (p : KeyPlace) : Bool := p.line != s.line || s.index - p.index > 1024

/-- Give up the stale places; a required key must not go unfinished. -/
def dropStale (s : Scan) : Step Scan :=
  match s.places.find? fun p => s.isStale p.2 && p.2.required with
  | some p => s.unfinished p.2
  | none => .ok { s with places := s.places.filter fun p => !s.isStale p.2 }

/-- Close indentations that are deeper than a column, at most `n` of them. -/
def unwindBy (column : Int) : Nat → Scan → Scan
  | 0, s => s
  | n + 1, s =>
    if s.indent > column then
      unwindBy column n { s.emit .blockEnd with
        indent := s.indents.head?.getD (-1), indents := s.indents.tail }
    else s

/-- Close the block collections that are indented deeper than a column. -/
def unwind (s : Scan) (column : Int) : Scan :=
  if s.flow != 0 then s else unwindBy column (s.indents.length + 1) s

/-- Open an indentation, and tell whether it is a new one. -/
def indentTo (s : Scan) (column : Int) : Bool × Scan :=
  if s.indent < column then
    (true, { s with indents := s.indent :: s.indents, indent := column })
  else (false, s)

/-- Put a token before the one at which a key may have started. -/
def insertToken (s : Scan) (p : KeyPlace) (t : Token) : Scan :=
  { s with tokens := (s.tokens.take p.token).push (t, ⟨p.line, p.column⟩) ++
      s.tokens.extract p.token s.tokens.size }

/-! ### Blanks and comments -/

/-- Read spaces, comments and line breaks, at most `n` lines of them. -/
def skipLines : Nat → Scan → Scan
  | 0, s => s
  | n + 1, s =>
    let s := s.skipWhile (· == ' ')
    let s := if s.peek == '#' then s.skipWhile fun c => !isBreak c else s
    match s.takeBreak with
    | ([], s) => s
    | (_, s) => skipLines n (if s.flow == 0 then { s with keyAllowed := true } else s)

def skipToToken (s : Scan) : Scan :=
  let s := if s.index == 0 && s.peek.toNat == 0xFEFF then s.advance1 else s
  skipLines (s.rest.length + 1) s

/-- Read the rest of a line that may only hold a comment. -/
def skipComment (s : Scan) (context : String) : Step Scan :=
  let s := s.skipWhile (· == ' ')
  let s := if s.peek == '#' then s.skipWhile fun c => !isBreak c else s
  if isBreakOrEnd s.peek then .ok s.takeBreak.2
  else s.expected context "a comment or a line break"

/-! ### Directives, names and tags -/

/-- Read characters of a class that must be there. -/
def takeSome (s : Scan) (context what : String) (p : Char → Bool) : Step (String × Scan) :=
  let cs := s.ahead p
  if cs.isEmpty then s.expected context what else .ok (String.ofList cs, s.advance cs.length)

/-- The characters a tag may hold. -/
def isUriChar (c : Char) : Bool :=
  c.isAlphanum || "-;/?:@&=+$,_.!~*'()[]%".toList.contains c

def hexValue? (c : Char) : Option Nat :=
  if c.isDigit then some (c.toNat - 0x30)
  else if 'a' ≤ c && c ≤ 'f' then some (c.toNat - 'a'.toNat + 10)
  else if 'A' ≤ c && c ≤ 'F' then some (c.toNat - 'A'.toNat + 10)
  else none

/-- The number that digits in base sixteen stand for. -/
def hexNumber? : Nat → List Char → Option Nat
  | acc, [] => some acc
  | acc, c :: cs => (hexValue? c).bind fun d => hexNumber? (acc * 16 + d) cs

/-- Undo the percent signs of a tag; nothing if one is not followed by two digits. -/
def unescapeUri : Nat → List Char → Option (List Char)
  | 0, cs => some cs
  | _ + 1, [] => some []
  | n + 1, '%' :: a :: b :: cs => do
    let code ← hexNumber? 0 [a, b]
    return Char.ofNat code :: (← unescapeUri n cs)
  | _ + 1, '%' :: _ => none
  | n + 1, c :: cs => do return c :: (← unescapeUri n cs)

/-- Read the text of a tag, which is part of a thing. -/
def takeUri (s : Scan) (thing : String) : Step (String × Scan) := do
  let (uri, after) ← s.takeSome ("while parsing a " ++ thing) "URI" isUriChar
  match unescapeUri (uri.length + 1) uri.toList with
  | some cs => .ok (String.ofList cs, after)
  | none =>
    s.expected ("while scanning a " ++ thing) "URI escape sequence of 2 hexadecimal numbers"

/-- Read the handle of a tag: a name between exclamation marks, or one such mark. -/
def takeHandle (s : Scan) (thing : String) : Step (String × Scan) :=
  if s.peek != '!' then s.expected ("while scanning a " ++ thing) "'!'"
  else if s.peek 1 == ' ' then .ok ("!", s.advance1)
  else
    let cs := (s.rest.drop 1).takeWhile isNameChar
    if s.peek (cs.length + 1) == '!' then
      .ok (String.ofList ('!' :: cs ++ ['!']), s.advance (cs.length + 2))
    else (s.advance (cs.length + 1)).expected ("while scanning a " ++ thing) "'!'"

def inDirective : String := "while scanning a directive"

/-- Read a directive line behind its percent sign. -/
def takeDirective (s : Scan) : Step (Token × Scan) := do
  let s := s.advance1
  let letters := "alphabetic or numeric character"
  let (name, s) ← s.takeSome inDirective letters isNameChar
  if !isSpaceOrEnd s.peek then s.expected inDirective letters
  if name == "YAML" then
    let s := s.skipWhile (· == ' ')
    let (major, s) ← s.takeSome inDirective "a digit" Char.isDigit
    if s.peek != '.' then s.expected inDirective "a digit or '.'"
    let (minor, s) ← s.advance1.takeSome inDirective "a digit" Char.isDigit
    if !isSpaceOrEnd s.peek then s.expected inDirective "a digit or ' '"
    let s ← s.skipComment inDirective
    .ok (.directive name [major, minor], s)
  else if name == "TAG" then
    let s := s.skipWhile (· == ' ')
    let (handle, s) ← s.takeHandle "directive"
    if s.peek != ' ' then s.expected inDirective "' '"
    let s := s.skipWhile (· == ' ')
    let (uri, s) ← s.takeUri "directive"
    if !isSpaceOrEnd s.peek then s.expected inDirective "' '"
    let s ← s.skipComment inDirective
    .ok (.directive name [handle, uri], s)
  else
    let s := s.skipWhile fun c => !isBreak c
    let s ← s.skipComment inDirective
    .ok (.directive name [], s)

def takeAnchor (s : Scan) : Step (String × Scan) := do
  let context := if s.peek == '*' then "while scanning an alias" else "while scanning an anchor"
  let letters := "alphabetic or numeric character"
  let (name, s) ← s.advance1.takeSome context letters isNameChar
  if isGapOrEnd s.peek || "?:,]%@`".toList.contains s.peek || s.peek.toNat == 0x7D then
    .ok (name, s)
  else s.expected context letters

def takeTag (s : Scan) : Step (Token × Scan) := do
  let c := s.peek 1
  let (token, s) ←
    if c == '<' then do
      let (uri, s) ← (s.advance 2).takeUri "tag"
      if s.peek != '>' then s.expected "while parsing a tag" "'>'"
      .ok (Token.tag none uri, s.advance1)
    else if isGapOrEnd c then .ok (Token.tag none "!", s.advance1)
    else do
      let word := (s.rest.drop 1).takeWhile fun c => !isSpaceOrEnd c
      let (handle, s) ← if word.contains '!' then s.takeHandle "tag" else .ok ("!", s.advance1)
      let (uri, s) ← s.takeUri "tag"
      .ok (Token.tag (some handle) uri, s)
  if isSpaceOrEnd s.peek then .ok (token, s) else s.expected "while scanning a tag" "' '"

/-! ### Scalars -/

/-- Read the blanks before a line of a block scalar, and the empty lines among them. -/
def takeBlockBreaks (indent : Int) : Nat → Scan → List Char × Scan
  | 0, s => ([], s)
  | n + 1, s =>
    let s := s.advance (Nat.min (indent - s.column).toNat (s.ahead (· == ' ')).length)
    match s.takeBreak with
    | ([], s) => ([], s)
    | (b, s) =>
      let (bs, s) := takeBlockBreaks indent n s
      (b ++ bs, s)

/-- Read leading empty lines of a block scalar and find its indentation. -/
def findBlockIndent : Nat → Nat → Scan → List Char × Nat × Scan
  | 0, most, s => ([], most, s)
  | n + 1, most, s =>
    if s.peek == ' ' then
      let s := s.advance1
      findBlockIndent n (Nat.max most s.column) s
    else
      match s.takeBreak with
      | ([], s) => ([], most, s)
      | (b, s) =>
        let (bs, most, s) := findBlockIndent n most s
        (b ++ bs, most, s)

/-- Read the lines of a block scalar: their text, the last line break and the empty lines
behind it. -/
def takeBlockLines (folded : Bool) (indent : Int) :
    Nat → List Char → Scan → List Char × List Char × List Char × Scan
  | 0, breaks, s => ([], [], breaks, s)
  | n + 1, breaks, s =>
    if (s.column : Int) == indent && s.peek != ending then
      let flush := s.peek != ' ' && s.peek != '\t'
      let line := s.ahead fun c => !isBreak c
      let (lineBreak, s) := (s.advance line.length).takeBreak
      let (next, s) := takeBlockBreaks indent (s.rest.length + 1) s
      if (s.column : Int) == indent && s.peek != ending then
        let glue :=
          if folded && lineBreak == ['\n'] && flush && s.peek != ' ' && s.peek != '\t' then
            if next.isEmpty then [' '] else []
          else lineBreak
        let (text, lastBreak, rest, s) := takeBlockLines folded indent n next s
        (breaks ++ line ++ glue ++ text, lastBreak, rest, s)
      else (breaks ++ line, lineBreak, next, s)
    else ([], [], breaks, s)

def inBlockScalar : String := "while scanning a block scalar"

/-- Read a digit that tells how much deeper a block scalar is indented. -/
def takeIncrement (s : Scan) : Step (Option Nat × Scan) :=
  if s.peek.isDigit then
    if s.peek == '0' then
      s.fail inBlockScalar "expected indentation indicator in the range 1-9, but found 0"
    else .ok (some (s.peek.toNat - 0x30), s.advance1)
  else .ok (none, s)

/-- Read a mark that tells what becomes of the last line breaks: kept or removed. -/
def takeChomping (s : Scan) : Option Bool × Scan :=
  if s.peek == '+' then (some true, s.advance1)
  else if s.peek == '-' then (some false, s.advance1)
  else (none, s)

def takeBlockScalar (s : Scan) : Step (String × Scan) := do
  let folded := s.peek == '>'
  let s := s.advance1
  let (chomping, s) := s.takeChomping
  let (increment, s) ← s.takeIncrement
  let (chomping, s) := if chomping.isNone then s.takeChomping else (chomping, s)
  if !isSpaceOrEnd s.peek then
    s.expected inBlockScalar "chomping or indentation indicators"
  let s ← s.skipComment inBlockScalar
  let least := if s.indent + 1 < 1 then 1 else s.indent + 1
  let fuel := s.rest.length + 1
  let (breaks, indent, s) :=
    match increment with
    | none =>
      let (breaks, most, s) := findBlockIndent fuel 0 s
      (breaks, max least (most : Int), s)
    | some n =>
      let indent := least + n - 1
      let (breaks, s) := takeBlockBreaks indent fuel s
      (breaks, indent, s)
  let (text, lastBreak, breaks, s) := takeBlockLines folded indent fuel breaks s
  let text := if chomping == some false then text else text ++ lastBreak
  let text := if chomping == some true then text ++ breaks else text
  .ok (String.ofList text, s)

/-- What a character stands for behind a backslash. -/
def escape? (c : Char) : Option Char :=
  match c with
  | '0' => some (Char.ofNat 0)
  | 'a' => some (Char.ofNat 7)
  | 'b' => some (Char.ofNat 8)
  | 't' => some '\t'
  | '\t' => some '\t'
  | 'n' => some '\n'
  | 'v' => some (Char.ofNat 0xB)
  | 'f' => some (Char.ofNat 0xC)
  | 'r' => some '\r'
  | 'e' => some (Char.ofNat 0x1B)
  | ' ' => some ' '
  | '"' => some '"'
  | '\\' => some '\\'
  | '/' => some '/'
  | 'N' => some (Char.ofNat 0x85)
  | '_' => some (Char.ofNat 0xA0)
  | 'L' => some (Char.ofNat 0x2028)
  | 'P' => some (Char.ofNat 0x2029)
  | _ => none

/-- The number of digits behind a letter that starts a code point. -/
def codeWidth? (c : Char) : Option Nat :=
  match c with
  | 'x' => some 2
  | 'u' => some 4
  | 'U' => some 8
  | _ => none

/-- What is being read in a quoted scalar. -/
def inQuoted : String := "while scanning a quoted scalar"

/-- What is being read behind a backslash. -/
def inDoubleQuoted : String := "while scanning a double-quoted scalar"

/-- Digits in base sixteen were expected; the first that is none is told. -/
def expectedDigits {α : Type} (s : Scan) (width : Nat) : Step α :=
  let c := ((List.range width).map fun i => s.peek i).find? fun c => (hexValue? c).isNone
  s.fail inDoubleQuoted ("expected escape sequence of " ++ toString width ++
    " hexadecimal numbers, but found " ++ found (c.getD ending))

/-- Read the blanks at the start of the following lines of a quoted scalar. -/
def takeQuotedBreaks : Nat → Scan → Step (List Char × Scan)
  | 0, s => .ok ([], s)
  | n + 1, s =>
    if s.atDocumentMark then s.fail inQuoted "found unexpected document separator"
    else
      let s := s.skipWhile fun c => c == ' ' || c == '\t'
      match s.takeBreak with
      | ([], s) => .ok ([], s)
      | (b, s) => do
        let (bs, s) ← takeQuotedBreaks n s
        .ok (b ++ bs, s)

def takeQuoted (double : Bool) (quote : Char) : Nat → Scan → Step (List Char × Scan)
  | 0, s => s.fail inQuoted "found unexpected end of stream"
  | n + 1, s =>
    let c := s.peek
    if c == ending then s.fail inQuoted "found unexpected end of stream"
    else if !double && c == '\'' && s.peek 1 == '\'' then do
      let (text, s) ← takeQuoted double quote n (s.advance 2)
      .ok ('\'' :: text, s)
    else if c == quote then .ok ([], s.advance1)
    else if double && c == '\\' then
      let s := s.advance1
      match escape? s.peek, codeWidth? s.peek with
      | some e, _ => do
        let (text, s) ← takeQuoted double quote n s.advance1
        .ok (e :: text, s)
      | none, some width =>
        let s := s.advance1
        let digits := s.rest.take width
        match hexNumber? 0 digits with
        | some code =>
          if digits.length == width then do
            let (text, s) ← takeQuoted double quote n (s.advance width)
            .ok (Char.ofNat code :: text, s)
          else s.expectedDigits width
        | none => s.expectedDigits width
      | none, none =>
        match s.takeBreak with
        | ([], _) => s.fail inDoubleQuoted ("found unknown escape character " ++ found s.peek)
        | (_, s) => do
          let (bs, s) ← takeQuotedBreaks (s.rest.length + 1) s
          let (text, s) ← takeQuoted double quote n s
          .ok (bs ++ text, s)
    else if c == ' ' || c == '\t' || isBreak c then
      let blanks := s.ahead fun c => c == ' ' || c == '\t'
      let s := s.advance blanks.length
      if s.peek == ending then s.fail inQuoted "found unexpected end of stream"
      else
        match s.takeBreak with
        | ([], s) => do
          let (text, s) ← takeQuoted double quote n s
          .ok (blanks ++ text, s)
        | (b, s) => do
          let (bs, s) ← takeQuotedBreaks (s.rest.length + 1) s
          let (text, s) ← takeQuoted double quote n s
          let glue := if b != ['\n'] then b else if bs.isEmpty then [' '] else []
          .ok (glue ++ bs ++ text, s)
    else do
      let (text, s) ← takeQuoted double quote n s.advance1
      .ok (c :: text, s)

/-- Read the further lines' blanks inside a plain scalar; none if a document mark follows. -/
def takePlainBreaks : Nat → Scan → Option (List Char) × Scan
  | 0, s => (some [], s)
  | n + 1, s =>
    if s.peek == ' ' then takePlainBreaks n s.advance1
    else
      match s.takeBreak with
      | ([], s) => (some [], s)
      | (b, s) =>
        if s.atDocumentMark then (none, s)
        else
          let (bs?, s) := takePlainBreaks n s
          (bs?.map (b ++ ·), s)

/-- Read the blanks between two words of a plain scalar, and what they stand for. -/
def takePlainBlanks (s : Scan) : List Char × Scan :=
  let blanks := s.ahead (· == ' ')
  let s := s.advance blanks.length
  match s.takeBreak with
  | ([], s) => (blanks, s)
  | (b, s) =>
    let s := { s with keyAllowed := true }
    if s.atDocumentMark then ([], s)
    else
      match takePlainBreaks (s.rest.length + 1) s with
      | (none, s) => ([], s)
      | (some bs, s) =>
        ((if b != ['\n'] then b else if bs.isEmpty then [' '] else []) ++ bs, s)

/-- Brackets and braces of flow collections, and the comma. -/
def isFlowMark (c : Char) : Bool :=
  c == ',' || c == '[' || c == ']' || c == '{' || c == '}'

/-- The length of the word of a plain scalar ahead. -/
def plainWord (inFlow : Bool) : List Char → Nat
  | [] => 0
  | c :: rest =>
    let next := rest.head?.getD ending
    if isGapOrEnd c || (c == ':' && (isGapOrEnd next || (inFlow && isFlowMark next))) ||
        (inFlow && (isFlowMark c || c == '?')) then 0
    else plainWord inFlow rest + 1

/-- Read the words of a plain scalar; `blanks` stand before the next one. -/
def takePlain (indent : Int) : Nat → List Char → Scan → List Char × Scan
  | 0, _, s => ([], s)
  | n + 1, blanks, s =>
    if s.peek == '#' then ([], s)
    else
      let length := plainWord (s.flow != 0) s.rest
      if length == 0 then ([], s)
      else
        let word := s.rest.take length
        let s := { s.advance length with keyAllowed := false }
        let (gap, s) := s.takePlainBlanks
        if gap.isEmpty || s.peek == '#' || (s.flow == 0 && (s.column : Int) < indent) then
          (blanks ++ word, s)
        else
          let (text, s) := takePlain indent n gap s
          (blanks ++ word ++ text, s)

/-! ### Fetching tokens -/

/-- A token that ends all block collections and stands on lines of its own. -/
def fetchMark (s : Scan) (t : Token) : Step Scan := do
  let s := s.unwind (-1)
  let s ← s.closePlace
  .ok (({ s with keyAllowed := false }.advance 3).emit t)

def fetchFlowStart (s : Scan) (t : Token) : Step Scan := do
  let s ← s.openPlace
  .ok ({ s with flow := s.flow + 1, keyAllowed := true }.advance1.emit t)

def fetchFlowEnd (s : Scan) (t : Token) : Step Scan := do
  let s ← s.closePlace
  .ok ({ s with flow := s.flow - 1, keyAllowed := false }.advance1.emit t)

def fetchBlockEntry (s : Scan) : Step Scan := do
  let s ← if s.flow != 0 then .ok s
    else if !s.keyAllowed then s.refuse "sequence entries"
    else match s.indentTo s.column with
      | (true, s) => .ok (s.emit .blockSequenceStart)
      | (false, s) => .ok s
  let s ← { s with keyAllowed := true }.closePlace
  .ok (s.advance1.emit .blockEntry)

def fetchKey (s : Scan) : Step Scan := do
  let s ← if s.flow != 0 then .ok s
    else if !s.keyAllowed then s.refuse "mapping keys"
    else match s.indentTo s.column with
      | (true, s) => .ok (s.emit .blockMappingStart)
      | (false, s) => .ok s
  let s ← { s with keyAllowed := s.flow == 0 }.closePlace
  .ok (s.advance1.emit .key)

/-- A value: if a key may have started before it, the key token is put there. -/
def fetchValue (s : Scan) : Step Scan := do
  let s ← match s.place? with
    | some place =>
      let s := s.dropPlace.insertToken place .key
      let s := if s.flow != 0 then s
        else match s.indentTo place.column with
          | (true, s) => s.insertToken place .blockMappingStart
          | (false, s) => s
      .ok { s with keyAllowed := false }
    | none => do
      let s ← if s.flow != 0 then .ok s
        else if !s.keyAllowed then s.refuse "mapping values"
        else match s.indentTo s.column with
          | (true, s) => .ok (s.emit .blockMappingStart)
          | (false, s) => .ok s
      { s with keyAllowed := s.flow == 0 }.closePlace
  .ok (s.advance1.emit .value)

def beforeNode (s : Scan) : Step Scan := do
  let s ← s.openPlace
  .ok { s with keyAllowed := false }

/-- Whether a plain scalar may start here. -/
def atPlain (s : Scan) : Bool :=
  let c := s.peek
  !(isGapOrEnd c || "-?:,[]#&*!|>'\"%@`".toList.contains c || c == '{' || c == '}') ||
    (!isGapOrEnd (s.peek 1) && (c == '-' || (s.flow == 0 && (c == '?' || c == ':'))))

/-- Fetch the next token; the flag tells whether it was the last. -/
def fetch (s : Scan) : Step (Bool × Scan) := do
  let s := s.skipToToken
  let s ← s.dropStale
  let s : Scan := { s with start := s.mark }
  let s := s.unwind s.column
  let c := s.peek
  let more (r : Step Scan) : Step (Bool × Scan) := do return (true, ← r)
  if c == ending then
    let s ← (s.unwind (-1)).closePlace
    .ok (false, s.emit .streamEnd)
  else if c == '%' && s.column == 0 then more do
    let s ← (s.unwind (-1)).closePlace
    let (t, s) ← { s with keyAllowed := false }.takeDirective
    .ok (s.emit t)
  else if s.column == 0 && s.atDocumentMark then
    more (s.fetchMark (if c == '-' then .documentStart else .documentEnd))
  else if c == '[' then more (s.fetchFlowStart .flowSequenceStart)
  else if c == '{' then more (s.fetchFlowStart .flowMappingStart)
  else if c == ']' then more (s.fetchFlowEnd .flowSequenceEnd)
  else if c == '}' then more (s.fetchFlowEnd .flowMappingEnd)
  else if c == ',' then more do
    let s ← { s with keyAllowed := true }.closePlace
    .ok (s.advance1.emit .flowEntry)
  else if c == '-' && isGapOrEnd (s.peek 1) then more s.fetchBlockEntry
  else if c == '?' && (s.flow != 0 || isGapOrEnd (s.peek 1)) then more s.fetchKey
  else if c == ':' && (s.flow != 0 || isGapOrEnd (s.peek 1)) then more s.fetchValue
  else if c == '*' then more do
    let (name, s) ← (← s.beforeNode).takeAnchor
    .ok (s.emit (.again name))
  else if c == '&' then more do
    let (name, s) ← (← s.beforeNode).takeAnchor
    .ok (s.emit (.anchor name))
  else if c == '!' then more do
    let (t, s) ← (← s.beforeNode).takeTag
    .ok (s.emit t)
  else if (c == '|' || c == '>') && s.flow == 0 then more do
    let s ← { s with keyAllowed := true }.closePlace
    let (text, s) ← s.takeBlockScalar
    .ok (s.emit (.scalar text false))
  else if c == '\'' || c == '"' then more do
    let s ← s.beforeNode
    let (text, s) ← takeQuoted (c == '"') c (s.rest.length + 1) s.advance1
    .ok (s.emit (.scalar (String.ofList text) false))
  else if s.atPlain then more do
    let s ← s.beforeNode
    let (text, s) := takePlain (s.indent + 1) (s.rest.length + 1) [] s
    .ok (s.emit (.scalar (String.ofList text) true))
  else .error { context := some "while scanning for the next token", mark := s.mark,
                problem := "found character " ++ found c ++ " that cannot start any token" }

/-- The tokens that were certain before trouble was met: those before the first place that was
still open. -/
def certain (s : Scan) : Array (Token × Mark) :=
  match ((s.places.filter fun p => !s.isStale p.2).map (·.2.token)).min? with
  | some i => s.tokens.take i
  | none => s.tokens

def fetchAll : Nat → Scan → List (Token × Mark)
  | 0, s => s.certain.toList
  | n + 1, s =>
    match s.fetch with
    | .ok (true, s) => fetchAll n s
    | .ok (false, s) => s.tokens.toList
    | .error trouble => (s.certain.push (.broken trouble, trouble.mark)).toList

end Scan

/-- The tokens of a settings text, with the places where they start. -/
def Token.scan (cs : List Char) : List (Token × Mark) :=
  Scan.fetchAll (cs.length + 2) { rest := cs }

end CodeScribe.Yaml
