import CodeScribe.Text.Chars

/-!
# Name patterns

A name pattern is a text in which a star stands for any characters, a question mark for one, and
a bracket for one of several.  Stars do not stop at slashes.

* `Glob.fits` — whether a whole text fits a pattern.
-/

namespace CodeScribe.Glob

/-- What a piece of a pattern stands for. -/
inductive Item where
  | anything
  | one
  | char (c : Char)
  /-- A character inside, or outside, of some ranges. -/
  | among (outside : Bool) (ranges : List (Char × Char))
  | never
deriving DecidableEq, Repr

/-- Whether a character is one that a piece stands for. -/
def Item.accepts : Item → Char → Bool
  | anything, _ => true
  | one, _ => true
  | char d, c => c == d
  | among outside ranges, c =>
    (ranges.any fun (low, high) => low.toNat ≤ c.toNat && c.toNat ≤ high.toNat) != outside
  | never, _ => false

/-! ### Brackets -/

/-- The place of the first hyphen from a place on. -/
def hyphenFrom? (start : Nat) (cs : List Char) : Option Nat :=
  ((cs.drop start).findIdx? (· == '-')).map (· + start)

/-- The pieces of a bracket between the hyphens that make ranges; a hyphen at the end is a
character. -/
def pieces : Nat → Nat → List Char → List (List Char)
  | 0, _, cs => [cs]
  | fuel + 1, start, cs =>
    match hyphenFrom? start cs with
    | none => [cs]
    | some k =>
      if (cs.drop (k + 1)).isEmpty then [cs.take k ++ ['-']]
      else cs.take k :: pieces fuel 2 (cs.drop (k + 1))

/-- Drop the ranges that run backwards. -/
def withoutEmpty (chunks : List (List Char)) : List (List Char) :=
  chunks.foldr (fun c kept =>
    match kept with
    | [] => [c]
    | d :: rest =>
      match c.getLast?, d.head? with
      | some low, some high =>
        if high.toNat < low.toNat then (c.dropLast ++ d.tail) :: rest else c :: kept
      | _, _ => c :: kept) []

/-- The ranges that the pieces of a bracket make, single characters included. -/
def rangesOf : List (List Char) → List (Char × Char)
  | [] => []
  | c :: rest =>
    let inner := match rest with
      | [] => c
      | _ => c.dropLast
    let joint := match rest with
      | d :: _ => match c.getLast?, d.head? with
        | some low, some high => [(low, high)]
        | _, _ => []
      | [] => []
    inner.map (fun x => (x, x)) ++ joint ++ rangesOf rest

/-- What the text inside of a bracket stands for. -/
def bracket (inside : List Char) : Item :=
  let start := if inside.head? == some '!' then 2 else 1
  match withoutEmpty (pieces inside.length start inside) with
  | [[]] => .never
  | [['!']] => .one
  | ('!' :: c) :: rest => .among true (rangesOf (c :: rest))
  | chunks => .among false (rangesOf chunks)

/-- The text inside of a bracket and what follows it, if the bracket is closed. -/
def closed? (cs : List Char) : Option (List Char × List Char) :=
  let head := match cs with
    | '!' :: ']' :: _ => 2
    | '!' :: _ => 1
    | ']' :: _ => 1
    | _ => 0
  let tail := cs.drop head
  let inside := tail.takeWhile (· != ']')
  if inside.length < tail.length then some (cs.take head ++ inside, tail.drop (inside.length + 1))
  else none

/-! ### Patterns -/

def scan : Nat → List Char → List Item
  | 0, _ => []
  | _, [] => []
  | fuel + 1, c :: rest =>
    if c == '*' then
      match scan fuel rest with
      | .anything :: items => .anything :: items
      | items => .anything :: items
    else if c == '?' then .one :: scan fuel rest
    else if c == '[' then
      match closed? rest with
      | some (inside, after) => bracket inside :: scan fuel after
      | none => .char c :: scan fuel rest
    else .char c :: scan fuel rest

def ofChars (cs : List Char) : List Item := scan cs.length cs

/-- Whether some end of a text passes a test. -/
def someEnd (test : List Char → Bool) : List Char → Bool
  | [] => test []
  | c :: rest => test (c :: rest) || someEnd test rest

/-- Whether a whole text fits the pieces of a pattern. -/
def fitsItems : List Item → List Char → Bool
  | [], cs => cs.isEmpty
  | .anything :: items, cs => someEnd (fitsItems items) cs
  | item :: items, cs =>
    match cs with
    | [] => false
    | c :: rest => item.accepts c && fitsItems items rest

def fits (pattern text : String) : Bool := fitsItems (ofChars pattern.toList) text.toList

end CodeScribe.Glob
