import CodeScribe.Text.LetterRanges
import CodeScribe.Text.CaseTables

/-!
# Character classes and case

The classes that scanning and cleaning text rely on, and the case mappings of single
characters and whole texts.  ASCII is decided by comparison; everything above it is looked up
in the range tables.

* `isLetter`, `isAlnum`, `isDecimal`, `isWord`, `isBlank`, `endsLine` — the classes.
-/

namespace CodeScribe.Text

/-! ### Range tables -/

/-- The index of the last entry whose key is at most `n`, searched between `lo` and `hi`. -/
def lastAtMost (key : Nat → Nat) (n : Nat) : Nat → Nat → Nat → Option Nat
  | 0, _, _ => none
  | fuel + 1, lo, hi =>
    if lo < hi then
      let mid := (lo + hi) / 2
      if key mid ≤ n then
        match lastAtMost key n fuel (mid + 1) hi with
        | some i => some i
        | none => some mid
      else lastAtMost key n fuel lo mid
    else none

/-- Membership of a code point in an ascending table of closed ranges. -/
def inRanges (table : Array (Nat × Nat)) (n : Nat) : Bool :=
  match lastAtMost (fun i => (table.getD i (0, 0)).1) n 32 0 table.size with
  | some i => n ≤ (table.getD i (0, 0)).2
  | none => false

/-! ### Classes -/

def isLetter (c : Char) : Bool :=
  if c.toNat < 0x80 then c.isAlpha else inRanges letterRanges c.toNat

def decimalValue? (c : Char) : Option Nat :=
  if c.toNat < 0x80 then
    if c.isDigit then some (c.toNat - 0x30) else none
  else
    match lastAtMost (fun i => decimalZeros.getD i 0) c.toNat 32 0 decimalZeros.size with
    | some i =>
      let value := c.toNat - decimalZeros.getD i 0
      if value < 10 then some value else none
    | none => none

/-- Decimal digits of every positional digit system. -/
def isDecimal (c : Char) : Bool :=
  (decimalValue? c).isSome

/-- Letters and characters with a numeric value. -/
def isAlnum (c : Char) : Bool :=
  if c.toNat < 0x80 then c.isAlphanum
  else inRanges letterRanges c.toNat || inRanges numberRanges c.toNat

/-- Characters of identifiers: letters, numbers and the underscore. -/
def isWord (c : Char) : Bool :=
  isAlnum c || c == '_'

/-- White space, the separators of text included. -/
def isBlank (c : Char) : Bool :=
  let n := c.toNat
  if n < 0x80 then n == 0x20 || (0x09 ≤ n && n ≤ 0x0D) || (0x1C ≤ n && n ≤ 0x1F)
  else
    n == 0x85 || n == 0xA0 || n == 0x1680 || (0x2000 ≤ n && n ≤ 0x200A) || n == 0x2028 ||
      n == 0x2029 || n == 0x202F || n == 0x205F || n == 0x3000

/-- Characters that end a line of text; a carriage return followed by a line feed ends one. -/
def endsLine (c : Char) : Bool :=
  let n := c.toNat
  (0x0A ≤ n && n ≤ 0x0D) || (0x1C ≤ n && n ≤ 0x1E) || n == 0x85 || n == 0x2028 || n == 0x2029

/-! ### Case -/

/-- The shift that a table of runs gives a code point, zero outside every run. -/
def shiftOf (table : Array CaseShift) (n : Nat) : Int :=
  match lastAtMost (fun i => ((table[i]?).map (·.first)).getD 0) n 32 0 table.size with
  | some i =>
    match table[i]? with
    | some run => if n ≤ run.last && (n - run.first) % run.stride == 0 then run.shift else 0
    | none => 0
  | none => 0

/-- The lower case of one character, when one character can hold it. -/
def lowerChar (c : Char) : Char :=
  if c.toNat < 0x80 then c.toLower
  else Char.ofNat (c.toNat + shiftOf lowerShifts c.toNat).toNat

/-- The upper case of one character, possibly several characters long. -/
def upperChars (c : Char) : List Char :=
  if c.toNat < 0x80 then [c.toUpper]
  else
    match longUppers.find? (·.1 == c.toNat) with
    | some (_, long) => long.map Char.ofNat
    | none => [Char.ofNat (c.toNat + shiftOf upperShifts c.toNat).toNat]

def isCased (c : Char) : Bool := inRanges casedRanges c.toNat

/-- Characters that are looked through when the neighbours of a sigma are asked for. -/
def isCaseIgnorable (c : Char) : Bool := inRanges caseIgnorableRanges c.toNat

/-- Whether the first character of a text that is not looked through has case. -/
def casedNext : List Char → Bool
  | [] => false
  | c :: rest => if isCaseIgnorable c then casedNext rest else isCased c

/-- Lower case, given the characters already read in reverse: a sigma at the end of a word
takes its final shape, and a dotted capital I keeps its dot. -/
def lowerFrom : List Char → List Char → List Char
  | _, [] => []
  | read, c :: rest =>
    let low :=
      if c.toNat == 0x3A3 then
        if casedNext read && !casedNext rest then [Char.ofNat 0x3C2] else [Char.ofNat 0x3C3]
      else if c.toNat == 0x130 then [Char.ofNat 0x69, Char.ofNat 0x307]
      else [lowerChar c]
    low ++ lowerFrom (c :: read) rest

def lowerChars (cs : List Char) : List Char := lowerFrom [] cs

def lower (s : String) : String := String.ofList (lowerChars s.toList)

def upper (s : String) : String := String.ofList (s.toList.flatMap upperChars)

/-- Equality of characters when case is ignored: equal lower cases, or lower cases that are
shapes of one letter. -/
def sameLetter (a b : Char) : Bool :=
  let x := lowerChar a
  let y := lowerChar b
  x == y || (caseMates.any fun mates => mates.contains x.toNat && mates.contains y.toNat)

end CodeScribe.Text
