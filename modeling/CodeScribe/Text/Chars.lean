import CodeScribe.Text.Alphabet

/-!
# Texts as lists of characters

Cutting, searching and replacing on `List Char`, and the same operations on `String`.

* the definitions of the same names in `Text` — the operations on strings.

Separators and searched texts are taken to be non-empty wherever they are replaced or split on.
-/

namespace CodeScribe.Chars

open CodeScribe.Text (isBlank endsLine)

/-! ### Trimming -/

/-- Drop the leading characters of a class. -/
def trimLeftOf (p : Char → Bool) (cs : List Char) : List Char := cs.dropWhile p

/-- Drop the trailing characters of a class. -/
def trimRightOf (p : Char → Bool) (cs : List Char) : List Char :=
  (cs.reverse.dropWhile p).reverse

/-- Drop the leading and trailing characters of a class. -/
def trimOf (p : Char → Bool) (cs : List Char) : List Char := trimRightOf p (trimLeftOf p cs)

/-- Drop leading and trailing white space. -/
def trim (cs : List Char) : List Char := trimOf isBlank cs

/-! ### Searching -/

def endsWith (cs tail : List Char) : Bool := tail.reverse.isPrefixOf cs.reverse

/-- The first position at which `needle` occurs. -/
def find? (needle : List Char) : List Char → Option Nat
  | [] => if needle.isEmpty then some 0 else none
  | c :: rest =>
    if needle.isPrefixOf (c :: rest) then some 0 else (find? needle rest).map (· + 1)

/-- The first position, not before `start`, at which `needle` occurs. -/
def findFrom? (needle : List Char) (start : Nat) (cs : List Char) : Option Nat :=
  (find? needle (cs.drop start)).map (· + start)

def contains (cs needle : List Char) : Bool := (find? needle cs).isSome

/-- Count the occurrences of a non-empty text that do not overlap, skipping `skip` characters. -/
def countFrom (needle : List Char) : Nat → List Char → Nat
  | _, [] => 0
  | skip + 1, _ :: rest => countFrom needle skip rest
  | 0, c :: rest =>
    if needle.isPrefixOf (c :: rest) then countFrom needle (needle.length - 1) rest + 1
    else countFrom needle 0 rest

/-- The number of occurrences of a non-empty text that do not overlap. -/
def count (needle cs : List Char) : Nat := countFrom needle 0 cs

/-! ### Replacing and splitting -/

/-- Replace from left to right, skipping `skip` characters of the last occurrence. -/
def replaceFrom (old new : List Char) : Nat → List Char → List Char
  | _, [] => []
  | skip + 1, _ :: rest => replaceFrom old new skip rest
  | 0, c :: rest =>
    if old.isPrefixOf (c :: rest) then new ++ replaceFrom old new (old.length - 1) rest
    else c :: replaceFrom old new 0 rest

/-- Replace every occurrence of a non-empty text. -/
def replace (old new cs : List Char) : List Char := replaceFrom old new 0 cs

/-- Split from left to right; `piece` is the current piece in reverse. -/
def splitFrom (sep : List Char) : Nat → List Char → List Char → List (List Char)
  | _, piece, [] => [piece.reverse]
  | skip + 1, piece, _ :: rest => splitFrom sep skip piece rest
  | 0, piece, c :: rest =>
    if sep.isPrefixOf (c :: rest) then
      piece.reverse :: splitFrom sep (sep.length - 1) [] rest
    else splitFrom sep 0 (c :: piece) rest

/-- The pieces between the occurrences of a non-empty separator; there is always one. -/
def splitOn (sep cs : List Char) : List (List Char) := splitFrom sep 0 [] cs

/-- The lines of a text, given the current line in reverse and whether a line feed would only
complete the last line end. -/
def linesFrom : Bool → List Char → List Char → List (List Char)
  | _, line, [] => if line.isEmpty then [] else [line.reverse]
  | afterReturn, line, c :: rest =>
    if afterReturn && c == '\n' then linesFrom false line rest
    else if endsLine c then line.reverse :: linesFrom (c == '\r') [] rest
    else linesFrom false (c :: line) rest

/-- The lines of a text without their ends; a final line end opens no further line. -/
def lines (cs : List Char) : List (List Char) := linesFrom false [] cs

end CodeScribe.Chars

namespace CodeScribe.Text

/-- Drop leading and trailing white space. -/
def trim (s : String) : String := String.ofList (Chars.trim s.toList)

/-- Drop trailing white space. -/
def trimRight (s : String) : String := String.ofList (Chars.trimRightOf isBlank s.toList)

/-- Drop the leading and trailing characters of a class. -/
def trimOf (p : Char → Bool) (s : String) : String := String.ofList (Chars.trimOf p s.toList)

/-- Drop the leading characters of a class. -/
def trimLeftOf (p : Char → Bool) (s : String) : String :=
  String.ofList (Chars.trimLeftOf p s.toList)

/-- Drop the trailing characters of a class. -/
def trimRightOf (p : Char → Bool) (s : String) : String :=
  String.ofList (Chars.trimRightOf p s.toList)

def startsWith (s head : String) : Bool := head.toList.isPrefixOf s.toList

def endsWith (s tail : String) : Bool := Chars.endsWith s.toList tail.toList

def contains (s needle : String) : Bool := Chars.contains s.toList needle.toList

/-- Replace every occurrence of a non-empty text. -/
def replace (s old new : String) : String :=
  String.ofList (Chars.replace old.toList new.toList s.toList)

/-- The pieces between the occurrences of a non-empty separator. -/
def splitOn (s sep : String) : List String :=
  (Chars.splitOn sep.toList s.toList).map String.ofList

def lines (s : String) : List String := (Chars.lines s.toList).map String.ofList

/-- The number of occurrences of a non-empty text that do not overlap. -/
def count (s needle : String) : Nat := Chars.count needle.toList s.toList

def take (n : Nat) (s : String) : String := String.ofList (s.toList.take n)

def drop (n : Nat) (s : String) : String := String.ofList (s.toList.drop n)

def dropRight (n : Nat) (s : String) : String :=
  String.ofList (s.toList.take (s.length - n))

/-- The piece after the last occurrence of a separator, or the whole text. -/
def lastPiece (s sep : String) : String := ((splitOn s sep).getLast?).getD s

/-- Texts put one after the other with a separator between them. -/
def join (sep : String) (pieces : List String) : String := String.intercalate sep pieces

/-- Ascending order of texts by code point. -/
def atMost (a b : String) : Bool := !(decide (b < a))

/-- Texts in ascending order by code point. -/
def sort (texts : List String) : List String := texts.mergeSort atMost

/-- Distinct texts in ascending order by code point. -/
def sortDistinct (texts : List String) : List String := (sort texts.eraseDups)

end CodeScribe.Text
