import CodeScribe.Fault

/-!
# Data texts in braces and brackets

Besides the usual numbers a text may hold `NaN` and the infinities.  A key that is given twice
keeps its first place and its last value.
-/

namespace CodeScribe.Json

/-! ### Reading -/

/-- Trouble at a number of characters before the end of the text. -/
structure Trouble where
  problem : String
  left : Nat

/-- Trouble at the start of the given rest. -/
def trouble {α : Type} (problem : String) (rest : List Char) : Except Trouble α :=
  .error ⟨problem, rest.length⟩

def isGap (c : Char) : Bool := c == ' ' || c == '\t' || c == '\n' || c == '\r'

def skipGap (cs : List Char) : List Char := cs.dropWhile isGap

def hexValue? (c : Char) : Option Nat :=
  if c.isDigit then some (c.toNat - 0x30)
  else if 'a' ≤ c && c ≤ 'f' then some (c.toNat - 'a'.toNat + 10)
  else if 'A' ≤ c && c ≤ 'F' then some (c.toNat - 'A'.toNat + 10)
  else none

/-- The number of four digits in base sixteen at the start of a text. -/
def hex4? : List Char → Option Nat
  | a :: b :: c :: d :: _ => do
    let a ← hexValue? a
    let b ← hexValue? b
    let c ← hexValue? c
    let d ← hexValue? d
    some (((a * 16 + b) * 16 + c) * 16 + d)
  | _ => none

/-- What a character stands for behind a backslash. -/
def escape? : Char → Option Char
  | '"' => some '"'
  | '\\' => some '\\'
  | '/' => some '/'
  | 'b' => some (Char.ofNat 8)
  | 'f' => some (Char.ofNat 0xC)
  | 'n' => some '\n'
  | 'r' => some '\r'
  | 't' => some '\t'
  | _ => none

/-- Read the characters of a text up to its closing quote; `opened` is where it starts. -/
def readText (opened : List Char) : Nat → List Char → Except Trouble (List Char × List Char)
  | 0, _ => trouble "Unterminated string starting at" opened
  | _ + 1, [] => trouble "Unterminated string starting at" opened
  | _ + 1, '"' :: rest => .ok ([], rest)
  | _ + 1, ['\\'] => trouble "Unterminated string starting at" opened
  | n + 1, '\\' :: 'u' :: rest =>
    match hex4? rest with
    | none => trouble "Invalid \\uXXXX escape" ('u' :: rest)
    | some high =>
      let low? := match rest.drop 4 with
        | '\\' :: 'u' :: more =>
          if 0xD800 ≤ high && high ≤ 0xDBFF then
            (hex4? more).bind fun low => if 0xDC00 ≤ low && low ≤ 0xDFFF then some low else none
          else none
        | _ => none
      match low? with
      | some low => do
        let c := Char.ofNat (0x10000 + (high - 0xD800) * 0x400 + (low - 0xDC00))
        let (cs, after) ← readText opened n (rest.drop 10)
        .ok (c :: cs, after)
      | none => do
        let (cs, after) ← readText opened n (rest.drop 4)
        .ok (Char.ofNat high :: cs, after)
  | n + 1, '\\' :: c :: rest =>
    match escape? c with
    | some e => do
      let (cs, after) ← readText opened n rest
      .ok (e :: cs, after)
    | none => trouble "Invalid \\escape" ('\\' :: c :: rest)
  | n + 1, c :: rest =>
    if c.toNat < 0x20 then trouble "Invalid control character at" (c :: rest)
    else do
      let (cs, after) ← readText opened n rest
      .ok (c :: cs, after)

def readNumber? (cs : List Char) : Option (Value × List Char) :=
  let (negative, body) := match cs with
    | '-' :: body => (true, body)
    | body => (false, body)
  let whole := match body with
    | '0' :: _ => ['0']
    | body => body.takeWhile Char.isDigit
  if whole.isEmpty then none
  else
    let rest := body.drop whole.length
    let fraction := match rest with
      | '.' :: digits => digits.takeWhile Char.isDigit
      | _ => []
    let rest := if fraction.isEmpty then rest else rest.drop (fraction.length + 1)
    let exponent := match rest with
      | e :: more =>
        if e == 'e' || e == 'E' then
          let mark := match more with
            | '+' :: _ => ['+']
            | '-' :: _ => ['-']
            | _ => []
          let digits := (more.drop mark.length).takeWhile Char.isDigit
          if digits.isEmpty then [] else e :: mark ++ digits
        else []
      | [] => []
    let rest := rest.drop exponent.length
    if fraction.isEmpty && exponent.isEmpty then
      let n : Int := Decimal.number 0 whole
      some (.int (if negative then -n else n), rest)
    else
      let point := if fraction.isEmpty then [] else '.' :: fraction
      (Decimal.read? (whole ++ point ++ exponent)).map fun x =>
        (.float (if negative then -x else x), rest)

def wordValues : List (List Char × Value) :=
  [("null".toList, .null), ("true".toList, .bool true), ("false".toList, .bool false),
    ("NaN".toList, .float (0 / 0)), ("Infinity".toList, .float (1 / 0)),
    ("-Infinity".toList, .float (-1 / 0))]

def readPlain (cs : List Char) : Except Trouble (Value × List Char) :=
  match wordValues.find? fun (w, _) => w.isPrefixOf cs with
  | some (w, v) => .ok (v, cs.drop w.length)
  | none =>
    match readNumber? cs with
    | some r => .ok r
    | none => trouble "Expecting value" cs

mutual

def readValue : Nat → List Char → Except Trouble (Value × List Char)
  | 0, cs => trouble "Expecting value" cs
  | n + 1, '"' :: rest => do
    let (cs, after) ← readText ('"' :: rest) (n + rest.length + 1) rest
    .ok (.text (String.ofList cs), after)
  | n + 1, '{' :: rest =>
    match skipGap rest with
    | '}' :: after => .ok (.map [], after)
    | rest => do
      let (entries, after) ← readEntries n [] rest
      .ok (.map entries, after)
  | n + 1, '[' :: rest =>
    match skipGap rest with
    | ']' :: after => .ok (.list [], after)
    | rest => do
      let (items, after) ← readItems n rest
      .ok (.list items, after)
  | _ + 1, cs => readPlain cs

/-- Read the entries of a table, the first of which must be there. -/
def readEntries : Nat → List (Value × Value) → List Char →
    Except Trouble (List (Value × Value) × List Char)
  | 0, _, cs => trouble "Expecting value" cs
  | n + 1, entries, '"' :: rest => do
    let (key, after) ← readText ('"' :: rest) (rest.length + 1) rest
    match skipGap after with
    | ':' :: after =>
      let (value, after) ← readValue n (skipGap after)
      let entries := Value.insert (.text (String.ofList key)) value entries
      match skipGap after with
      | '}' :: after => .ok (entries, after)
      | ',' :: after => readEntries n entries (skipGap after)
      | after => trouble "Expecting ',' delimiter" after
    | after => trouble "Expecting ':' delimiter" after
  | _ + 1, _, cs => trouble "Expecting property name enclosed in double quotes" cs

def readItems : Nat → List Char → Except Trouble (List Value × List Char)
  | 0, cs => trouble "Expecting value" cs
  | n + 1, cs => do
    let (item, after) ← readValue n cs
    match skipGap after with
    | ']' :: after => .ok ([item], after)
    | ',' :: after =>
      let (items, after) ← readItems n (skipGap after)
      .ok (item :: items, after)
    | after => trouble "Expecting ',' delimiter" after

end

def Trouble.toFault (cs : List Char) (t : Trouble) : Fault :=
  let before := cs.take (cs.length - t.left)
  .badData t.problem (before.count '\n') (before.reverse.takeWhile (· != '\n')).length before.length

def read (cs : List Char) : Except Trouble Value := do
  if cs.head?.any (·.toNat == 0xFEFF) then
    trouble "Unexpected UTF-8 BOM (decode using utf-8-sig)" cs
  let (v, after) ← readValue (cs.length + 1) (skipGap cs)
  match skipGap after with
  | [] => .ok v
  | rest => trouble "Extra data" rest

/-- The data of a whole text, or the first trouble in it. -/
def parse (text : String) : Outcome Value :=
  (read text.toList).mapError (·.toFault text.toList)

/-! ### Writing -/

def quoteChar (c : Char) : String :=
  if c == '"' then "\\\""
  else if c == '\\' then "\\\\"
  else if c == '\n' then "\\n"
  else if c == '\r' then "\\r"
  else if c == '\t' then "\\t"
  else if c.toNat == 8 then "\\b"
  else if c.toNat == 0xC then "\\f"
  else if c.toNat < 0x20 then "\\u" ++ Value.hex 4 c.toNat
  else String.singleton c

def quoted (s : String) : String := "\"" ++ String.join (s.toList.map quoteChar) ++ "\""

def floatText (x : Float) : String :=
  if x.isNaN then "NaN"
  else if x.isInf then if x < 0 then "-Infinity" else "Infinity"
  else Decimal.plain x

def keyText : Value → String
  | .text s => s
  | .bool b => if b then "true" else "false"
  | .null => "null"
  | .float x => floatText x
  | v => v.display

/-- Items between brackets, each on its own line. -/
def enclosed (opening closing : String) (indent : String) (items : List String) : String :=
  if items.isEmpty then opening ++ closing
  else
    let inner := "\n" ++ indent ++ "  "
    opening ++ inner ++ Text.join ("," ++ inner) items ++ "\n" ++ indent ++ closing

mutual

def renderAt (indent : String) : Value → String
  | .null => "null"
  | .bool b => if b then "true" else "false"
  | .int n => toString n
  | .float x => floatText x
  | .list items => enclosed "[" "]" indent (renderItems (indent ++ "  ") items)
  | .map entries => enclosed "\x7b" "\x7d" indent (renderEntries (indent ++ "  ") entries)
  | v => quoted v.display

def renderItems (indent : String) : List Value → List String
  | [] => []
  | v :: rest => renderAt indent v :: renderItems indent rest

def renderEntries (indent : String) : List (Value × Value) → List String
  | [] => []
  | (k, v) :: rest =>
    (quoted (keyText k) ++ ": " ++ renderAt indent v) :: renderEntries indent rest

end

/-- The text of data, two columns deeper at each level. -/
def render (v : Value) : String := renderAt "" v

end CodeScribe.Json
