import CodeScribe.Data.Record
import CodeScribe.Data.Yaml.Node
import CodeScribe.Text.Pattern

/-!
# Data of settings texts

The last step from a settings text to data: tagged nodes become values.

* `Node.value` — the data a node stands for;

Switches may be written yes, no, on and off, whole numbers in base two, eight, ten, sixteen and
sixty with underscores between digits, and a mapping under the key `<<` lends its entries to the
mapping it stands in.
-/

namespace CodeScribe.Yaml

open CodeScribe.Pattern

/-! ### What plain scalars stand for -/

/-- The characters that settings texts may hold. -/
def isPrintable (c : Char) : Bool :=
  let n := c.toNat
  n == 9 || n == 10 || n == 13 || (0x20 ≤ n && n ≤ 0x7E) || n == 0x85 ||
    (0xA0 ≤ n && n ≤ 0xD7FF) || (0xE000 ≤ n && n ≤ 0xFFFD) || 0x10000 ≤ n

def isDigitOr_ (c : Char) : Bool := c.isDigit || c == '_'

def sign : Pattern := opt (one (among "-+"))

/-- Further places of a number in base sixty. -/
def sixties : Pattern := plus (char ':' ++ opt (one (among "012345")) ++ one Char.isDigit)

def exponent : Pattern := opt (one (among "eE") ++ one (among "-+") ++ span1 Char.isDigit)

def fits (p : Pattern) (s : String) : Bool := ((p ++ textEnd).matchStart? s.toList).isSome

def floatPattern : Pattern := anyOf [
  sign ++ one Char.isDigit ++ span isDigitOr_ ++ char '.' ++ span isDigitOr_ ++ exponent,
  char '.' ++ one Char.isDigit ++ span isDigitOr_ ++ exponent,
  sign ++ one Char.isDigit ++ span isDigitOr_ ++ sixties ++ char '.' ++ span isDigitOr_,
  sign ++ char '.' ++ words ["inf", "Inf", "INF"],
  char '.' ++ words ["nan", "NaN", "NAN"]]

def intPattern : Pattern := anyOf [
  sign ++ lit "0b" ++ span1 (among "01_"),
  sign ++ char '0' ++ span1 (among "01234567_"),
  sign ++ (char '0' <|> one (among "123456789") ++ span isDigitOr_),
  sign ++ lit "0x" ++ span1 (fun c => (Scan.hexValue? c).isSome || c == '_'),
  sign ++ one (among "123456789") ++ span isDigitOr_ ++ sixties]

def twoDigits : Pattern := one Char.isDigit ++ opt (one Char.isDigit)

def bothDigits : Pattern := one Char.isDigit ++ one Char.isDigit

/-- The time of day behind a date, its parts in groups. -/
def timePattern : Pattern :=
  (one (among "Tt") <|> span1 (among " \t")) ++ group 4 twoDigits ++ char ':' ++
    group 5 bothDigits ++ char ':' ++ group 6 bothDigits ++
    opt (char '.' ++ group 7 (span Char.isDigit)) ++
    opt (span (among " \t") ++ group 8 (char 'Z' <|> group 9 (one (among "-+")) ++
      group 10 twoDigits ++ opt (char ':' ++ group 11 bothDigits)))

/-- Dates, with the time of day or in full. -/
def timestampPattern : Pattern :=
  bothDigits ++ bothDigits ++ char '-' ++
    (bothDigits ++ char '-' ++ bothDigits ++ textEnd <|>
      twoDigits ++ char '-' ++ twoDigits ++ timePattern)

/-- Dates and times with their parts in groups. -/
def timestampParts : Pattern :=
  group 1 (bothDigits ++ bothDigits) ++ char '-' ++ group 2 twoDigits ++ char '-' ++
    group 3 twoDigits ++ opt timePattern ++ textEnd

def switches : List (String × Bool) :=
  [("yes", true), ("no", false), ("true", true), ("false", false), ("on", true), ("off", false)]

/-- Whether a text is a switch: all small, all capital or with a capital in front. -/
def isSwitch (s : String) : Bool :=
  switches.any fun (w, _) => s == w || s == w.toUpper || s == w.capitalize

/-- The tag of a plain scalar, by its text. -/
def resolve (s : String) : String :=
  if isSwitch s then coreTag "bool"
  else if fits floatPattern s then coreTag "float"
  else if fits intPattern s then coreTag "int"
  else if s == "<<" then coreTag "merge"
  else if ["~", "null", "Null", "NULL", ""].contains s then coreTag "null"
  else if fits timestampPattern s then coreTag "timestamp"
  else if s == "=" then coreTag "value"
  else coreTag "str"

/-! ### Scalars -/

def digitsIn? (base : Nat) : Nat → List Char → Option Nat
  | acc, [] => some acc
  | acc, c :: cs =>
    (Scan.hexValue? c).bind fun d => if d < base then digitsIn? base (acc * base + d) cs else none

def natIn (base : Nat) (cs : List Char) : Outcome Nat :=
  match if cs.isEmpty then none else digitsIn? base 0 cs with
  | some n => .ok n
  | none => .error (.badScalar ("invalid literal for int() with base " ++ toString base ++ ": " ++
      Value.quoted (String.ofList cs)))

/-- The number whose places in base sixty are given, the highest first. -/
def natInSixty (parts : List (List Char)) : Outcome Nat :=
  parts.foldlM (fun acc p => do return acc * 60 + (← natIn 10 p)) 0

def splitSign : List Char → Bool × List Char
  | '-' :: cs => (true, cs)
  | '+' :: cs => (false, cs)
  | cs => (false, cs)

def wholeOf (s : String) : Outcome Value := do
  let cs := s.toList.filter (· != '_')
  let (negative, cs) := splitSign cs
  let n ← match cs with
    | [] => .error .outOfRange
    | ['0'] => .ok 0
    | '0' :: 'b' :: ds => natIn 2 ds
    | '0' :: 'x' :: ds => natIn 16 ds
    | '0' :: _ => natIn 8 cs
    | _ => if cs.contains ':' then natInSixty (Chars.splitOn [':'] cs) else natIn 10 cs
  .ok (.int (if negative then -(n : Int) else n))

def floatOf (s : String) : Outcome Value := do
  let cs := ((Text.lower s).toList).filter (· != '_')
  let (negative, cs) := splitSign cs
  let signed (x : Float) : Value := .float (if negative then -x else x)
  let read (cs : List Char) : Outcome Float :=
    match Decimal.read? cs with
    | some x => .ok x
    | none =>
      .error (.badScalar ("could not convert string to float: " ++
        Value.quoted (String.ofList cs)))
  if cs == ".inf".toList then .ok (signed (1 / 0))
  else if cs == ".nan".toList then .ok (.float (0 / 0))
  else if cs.contains ':' then
    let parts ← (Chars.splitOn [':'] cs).mapM read
    .ok (signed (parts.reverse.foldl (fun (x, base) d => (x + d * base, base * 60))
      ((0, 1) : Float × Float)).1)
  else return signed (← read cs)

def isLeap (y : Nat) : Bool := y % 4 == 0 && (y % 100 != 0 || y % 400 == 0)

def daysIn (y m : Nat) : Nat :=
  if m == 2 then if isLeap y then 29 else 28
  else if m == 4 || m == 6 || m == 9 || m == 11 then 30 else 31

def dayOf (y m d : Nat) : Outcome Day :=
  if y == 0 then .error (.badScalar "year 0 is out of range")
  else if m == 0 || m > 12 then .error (.badScalar "month must be in 1..12")
  else if d == 0 || d > daysIn y m then .error (.badScalar "day is out of range for month")
  else .ok ⟨y, m, d⟩

/-- A date, or a date with the time of day. -/
def timestampOf (s : String) : Outcome Value :=
  match timestampParts.matchStart? s.toList with
  | none => .error (.noOperation "NoneType" "groupdict")
  | some found => do
    let part (i : Nat) : Nat := Decimal.number 0 ((found.chars? i).getD [])
    match found.chars? 4 with
    | none => return .day (← dayOf (part 1) (part 2) (part 3))
    | some _ =>
      let fraction := ((found.chars? 7).getD []).take 6
      let micros := Decimal.number 0 (fraction ++ List.replicate (6 - fraction.length) '0')
      let offset : Option Int := match found.chars? 9 with
        | some sign =>
          let minutes : Int := part 10 * 60 + part 11
          some (if sign == ['-'] then -minutes else minutes)
        | none => if (found.chars? 8).isSome then some 0 else none
      let day ← dayOf (part 1) (part 2) (part 3)
      if part 4 > 23 then .error (.badScalar "hour must be in 0..23")
      if part 5 > 59 then .error (.badScalar "minute must be in 0..59")
      if part 6 > 59 then .error (.badScalar "second must be in 0..59")
      .ok (.moment ⟨day, part 4, part 5, part 6, micros, offset⟩)

/-- The bits of a letter in base sixty-four. -/
def base64Value? (c : Char) : Option Nat :=
  if c.isUpper then some (c.toNat - 'A'.toNat)
  else if c.isLower then some (c.toNat - 'a'.toNat + 26)
  else if c.isDigit then some (c.toNat - '0'.toNat + 52)
  else if c == '+' then some 62
  else if c == '/' then some 63
  else none

/-- The bytes of groups of four letters. -/
def bytesOf : List Nat → List UInt8
  | a :: b :: c :: d :: rest =>
    UInt8.ofNat (a * 4 + b / 16) :: UInt8.ofNat (b % 16 * 16 + c / 4) ::
      UInt8.ofNat (c % 4 * 64 + d) :: bytesOf rest
  | [a, b, c] => [UInt8.ofNat (a * 4 + b / 16), UInt8.ofNat (b % 16 * 16 + c / 4)]
  | [a, b] => [UInt8.ofNat (a * 4 + b / 16)]
  | _ => []

def unusable {α : Type} : Outcome α :=
  .error (.malformed .constructing "could not construct the data of the text")

/-- Bytes written in base sixty-four. -/
def binaryOf (s : String) : Outcome Value :=
  let letters := s.toList.filter fun c => (base64Value? c).isSome || c == '='
  let digits := letters.filterMap base64Value?
  if letters.length % 4 != 0 || s.toList.any (·.toNat ≥ 128) then unusable
  else .ok (.bytes (bytesOf digits))

def scalarOf (tag s : String) : Outcome Value :=
  if tag == coreTag "str" then .ok (.text s)
  else if tag == coreTag "null" then .ok .null
  else if tag == coreTag "bool" then
    match switches.lookup (Text.lower s) with
    | some b => .ok (.bool b)
    | none => .error (.missingKey (.text (Text.lower s)))
  else if tag == coreTag "int" then wholeOf s
  else if tag == coreTag "float" then floatOf s
  else if tag == coreTag "timestamp" then timestampOf s
  else if tag == coreTag "binary" then binaryOf s
  else unusable

/-! ### Trees -/

def Node.tag : Node → String
  | .scalar tag _ | .sequence tag _ | .mapping tag _ => tag

def pairOf : Value → Outcome Value
  | .map [(k, v)] => .ok (.list [k, v])
  | _ => unusable

mutual

def Node.value : Node → Outcome Value
  | .scalar tag s => scalarOf tag s
  | .sequence tag items => do
    let vs ← valuesOf items
    if tag == coreTag "seq" then .ok (.list vs)
    else if tag == coreTag "omap" || tag == coreTag "pairs" then
      return .list (← vs.mapM pairOf)
    else unusable
  | .mapping tag entries => do
    let (lent, own) ← entriesOf entries
    let table := (lent ++ own).foldl (fun es (k, v) => Value.insert k v es) []
    if tag == coreTag "map" then .ok (.map table)
    else if tag == coreTag "set" then .ok (.list (table.map (·.1)))
    else unusable

def valuesOf : List Node → Outcome (List Value)
  | [] => .ok []
  | n :: rest => do
    let v ← n.value
    return v :: (← valuesOf rest)

/-- The entries of a mapping: those lent by other mappings, and its own. -/
def entriesOf : List (Node × Node) →
    Outcome (List (Value × Value) × List (Value × Value))
  | [] => .ok ([], [])
  | (k, v) :: rest => do
    if k.tag == coreTag "merge" then
      let borrowed ← lentBy v
      let (lent, own) ← entriesOf rest
      .ok (borrowed ++ lent, own)
    else
      let key ← match k with
        | .scalar tag s => if tag == coreTag "value" then .ok (Value.text s) else scalarOf tag s
        | k => k.value
      if !key.isKey then unusable
      let value ← v.value
      let (lent, own) ← entriesOf rest
      .ok (lent, (key, value) :: own)

def lentBy : Node → Outcome (List (Value × Value))
  | .mapping _ entries => do
    let (lent, own) ← entriesOf entries
    .ok (lent ++ own)
  | .sequence _ items => lentByAll items
  | .scalar .. => unusable

/-- The entries that several mappings lend, the first ones taking precedence by standing last. -/
def lentByAll : List Node → Outcome (List (Value × Value))
  | [] => .ok []
  | .mapping _ entries :: rest => do
    let (lent, own) ← entriesOf entries
    return (← lentByAll rest) ++ (lent ++ own)
  | _ :: _ => unusable

end

/-- A character that no settings text may hold, in words. -/
def unacceptable (name : String) (index : Nat) (c : Char) : String :=
  "unacceptable character #x" ++ Value.hex 4 c.toNat ++ ": special characters are not allowed\n" ++
    "  in \"" ++ name ++ "\", position " ++ toString index

/-- The data of a settings text with a name; an empty text is no data. -/
def loadFrom (name text : String) : Outcome Value :=
  let cs := text.toList
  match cs.zipIdx.find? fun (c, _) => !isPrintable c with
  | some (c, i) => .error (.malformed .reading (unacceptable name i c))
  | none =>
    match Node.ofTokens? resolve (Token.scan cs) with
    | .error (stage, trouble) => .error (.malformed stage (trouble.text name))
    | .ok none => .ok .null
    | .ok (some node) => node.value

/-- The data of a settings text without a name. -/
def load (text : String) : Outcome Value := loadFrom "<unicode string>" text

end CodeScribe.Yaml
