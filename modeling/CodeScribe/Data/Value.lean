import CodeScribe.Text.Chars
import CodeScribe.Text.HiddenRanges
import CodeScribe.Data.Decimal

/-!
# Loosely structured data

Settings, message definitions, document structures and the facts of a source file all arrive as
nested lists and tables whose shape nobody checked.  `Value` is that data.

* `Value.get?`, `Value.put` — tables by key; a known key keeps its place.
-/

namespace CodeScribe

/-! ### Dates -/

structure Day where
  year : Nat
  month : Nat
  day : Nat
deriving DecidableEq, Repr

/-- A point in time on a calendar day, with its offset from universal time in minutes if known. -/
structure Moment where
  day : Day
  hour : Nat
  minute : Nat
  second : Nat
  micros : Nat
  offset : Option Int
deriving DecidableEq, Repr

/-- A natural number with leading zeros up to a width. -/
def padded (width n : Nat) : String :=
  let digits := toString n
  Decimal.zeros (width - digits.length) ++ digits

def Day.text (d : Day) : String :=
  padded 4 d.year ++ "-" ++ padded 2 d.month ++ "-" ++ padded 2 d.day

def offsetText (minutes : Int) : String :=
  (if minutes < 0 then "-" else "+") ++ padded 2 (minutes.natAbs / 60) ++ ":" ++
    padded 2 (minutes.natAbs % 60)

/-- Day and time with a separator between them. -/
def Moment.textWith (sep : String) (m : Moment) : String :=
  m.day.text ++ sep ++ padded 2 m.hour ++ ":" ++ padded 2 m.minute ++ ":" ++ padded 2 m.second ++
    (if m.micros == 0 then "" else "." ++ padded 6 m.micros) ++ (m.offset.map offsetText).getD ""

/-! ### Values -/

/-- Loosely structured data. -/
inductive Value where
  | null
  | bool (b : Bool)
  | int (n : Int)
  | float (x : Float)
  | text (s : String)
  | day (d : Day)
  | moment (m : Moment)
  | bytes (bs : List UInt8)
  | list (items : List Value)
  | map (entries : List (Value × Value))
deriving Inhabited

namespace Value

def nat (n : Nat) : Value := int n

def texts (ss : List String) : Value := list (ss.map text)

def record (fields : List (String × Value)) : Value := map (fields.map fun (k, v) => (text k, v))

def optText : Option String → Value
  | some s => text s
  | none => null

/-- Whether a setting counts as given: nothing, a switch that is off, zero and whatever is
empty do not. -/
def isPresent : Value → Bool
  | null => false
  | bool b => b
  | int n => n != 0
  | float x => x != 0
  | text s => !s.isEmpty
  | day _ => true
  | moment _ => true
  | bytes bs => !bs.isEmpty
  | list items => !items.isEmpty
  | map entries => !entries.isEmpty

/-- The number that a switch or number stands for, if it is whole. -/
def whole? : Value → Option Int
  | bool b => some (if b then 1 else 0)
  | int n => some n
  | _ => none

mutual

/-- Equality of data: numbers by value, lists by position, tables by key. -/
def same : Value → Value → Bool
  | null, null => true
  | text a, text b => a == b
  | day a, day b => a == b
  | moment a, moment b => a == b
  | bytes a, bytes b => a == b
  | float a, float b => a == b
  | float a, b => match b.whole? with
    | some n => a == Float.ofInt n
    | none => false
  | list as, b => match b with
    | list bs => sameItems as bs
    | _ => false
  | map as, b => match b with
    | map bs => as.length == bs.length && sameEntries as bs
    | _ => false
  | a, float b => match a.whole? with
    | some n => b == Float.ofInt n
    | none => false
  | a, b => match a.whole?, b.whole? with
    | some m, some n => m == n
    | _, _ => false

/-- Equality of two lists position by position. -/
def sameItems : List Value → List Value → Bool
  | [], [] => true
  | a :: as, b :: bs => same a b && sameItems as bs
  | _, _ => false

/-- Whether every entry of the first table stands in the second. -/
def sameEntries : List (Value × Value) → List (Value × Value) → Bool
  | [], _ => true
  | (k, v) :: as, bs => (bs.any fun e => same k e.1 && same v e.2) && sameEntries as bs

end

/-! ### Tables -/

def lookup (key : Value) : List (Value × Value) → Option Value
  | [] => none
  | (k, v) :: rest => if same k key then some v else lookup key rest

/-- Give a key a value: a known key keeps its place, a new one comes last. -/
def insert (key value : Value) : List (Value × Value) → List (Value × Value)
  | [] => [(key, value)]
  | (k, v) :: rest => if same k key then (k, value) :: rest else (k, v) :: insert key value rest

def get? (v : Value) (key : String) : Option Value :=
  match v with
  | map entries => lookup (text key) entries
  | _ => none

def put (v : Value) (key : String) (value : Value) : Value :=
  match v with
  | map entries => map (insert (text key) value entries)
  | other => other

def items : Value → List Value
  | list vs => vs
  | _ => []

def text? : Value → Option String
  | text s => some s
  | _ => none

def int? : Value → Option Int
  | int n => some n
  | _ => none

def isNull : Value → Bool
  | null => true
  | _ => false

/-! ### Texts of values -/

/-- Hidden characters are written by their code point. -/
def isHidden (c : Char) : Bool :=
  if c.toNat < 0x7F then c.toNat < 0x20 else Text.inRanges Text.hiddenRanges c.toNat

/-- A number in base sixteen with leading zeros up to a width. -/
def hex (width n : Nat) : String :=
  let digits := String.ofList (Nat.toDigits 16 n)
  Decimal.zeros (width - digits.length) ++ digits

def quoteChar (quote : Char) (c : Char) : String :=
  if c == quote || c == '\\' then String.ofList ['\\', c]
  else if c == '\n' then "\\n"
  else if c == '\r' then "\\r"
  else if c == '\t' then "\\t"
  else if isHidden c then
    if c.toNat < 0x100 then "\\x" ++ hex 2 c.toNat
    else if c.toNat < 0x10000 then "\\u" ++ hex 4 c.toNat
    else "\\U" ++ hex 8 c.toNat
  else String.singleton c

/-- A text in single quotes, or in double quotes if it holds single ones only. -/
def quoted (s : String) : String :=
  let quote := if s.toList.contains '\'' && !s.toList.contains '"' then '"' else '\''
  String.singleton quote ++ String.join (s.toList.map (quoteChar quote)) ++ String.singleton quote

/-- Bytes in single quotes, those outside printable ASCII by number. -/
def quotedBytes (bs : List UInt8) : String :=
  let quote := if bs.contains 0x27 && !bs.contains 0x22 then '"' else '\''
  let one (b : UInt8) : String :=
    let c := Char.ofNat b.toNat
    if b.toNat < 0x7F then
      if b.toNat < 0x20 && !(c == '\n' || c == '\r' || c == '\t') then "\\x" ++ hex 2 b.toNat
      else quoteChar quote c
    else "\\x" ++ hex 2 b.toNat
  "b" ++ String.singleton quote ++ String.join (bs.map one) ++ String.singleton quote

/-- Arguments of a date, separated by commas. -/
def Day.arguments (d : Day) : String :=
  toString d.year ++ ", " ++ toString d.month ++ ", " ++ toString d.day

/-- The text of a point in time as written in data. -/
def momentLiteral (m : Moment) : String :=
  let time := toString m.hour ++ ", " ++ toString m.minute ++
    (if m.second == 0 && m.micros == 0 then "" else ", " ++ toString m.second) ++
    (if m.micros == 0 then "" else ", " ++ toString m.micros)
  let zone := match m.offset with
    | none => ""
    | some 0 => ", tzinfo=datetime.timezone.utc"
    | some minutes =>
      let day := if minutes < 0 then "days=-1, " else ""
      let seconds := ((minutes * 60) % 86400).toNat
      ", tzinfo=datetime.timezone(datetime.timedelta(" ++ day ++ "seconds=" ++ toString seconds ++
        "))"
  "datetime.datetime(" ++ Day.arguments m.day ++ ", " ++ time ++ zone ++ ")"

mutual

def literal : Value → String
  | null => "None"
  | bool b => if b then "True" else "False"
  | int n => toString n
  | float x => Decimal.plain x
  | text s => quoted s
  | day d => "datetime.date(" ++ Day.arguments d ++ ")"
  | moment m => momentLiteral m
  | bytes bs => quotedBytes bs
  | list items => "[" ++ Text.join ", " (literals items) ++ "]"
  | map entries => "\x7b" ++ Text.join ", " (entryLiterals entries) ++ "\x7d"

def literals : List Value → List String
  | [] => []
  | v :: rest => literal v :: literals rest

def entryLiterals : List (Value × Value) → List String
  | [] => []
  | (k, v) :: rest => (literal k ++ ": " ++ literal v) :: entryLiterals rest

end

/-- The text of a value as shown: texts and dates stand for themselves. -/
def display : Value → String
  | text s => s
  | day d => d.text
  | moment m => m.textWith " "
  | v => v.literal

end Value

end CodeScribe
