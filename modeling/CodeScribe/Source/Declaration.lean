import CodeScribe.Source.Block
import CodeScribe.Data.Value

/-!
# Declarations

What several languages declare, and the pieces their declarations are made of.

* `modifier`, `typeText`, `arguments` — pieces of declaration patterns;
* `modifiersIn`, `listed` — what a matched declaration says about modifiers and other types.
-/

namespace CodeScribe

/-- What a reader of sources is to include. -/
structure ReadOptions where
  comments : Bool := true
  imports : Bool := true

/-- A function or method. -/
structure Routine where
  name : String
  signature : String
  modifiers : List String := []

/-- A field or property. -/
structure Variable where
  name : String
  type : String
  modifiers : List String := []

structure Enumeration where
  name : String
  constants : List String

namespace Declaration

open Pattern

def isTypeChar (c : Char) : Bool := Text.isWord c || Text.isBlank c || among "<>,[]" c

def isListChar (c : Char) : Bool := Text.isWord c || Text.isBlank c || c == ','

def isDottedChar (c : Char) : Bool := Text.isWord c || c == '.'

/-- A modifier, which may be missing, and white space. -/
def modifier (ws : List String) : Pattern := opt (words ws) ++ blanks

/-- A modifier in any case, which may be missing, and white space. -/
def modifierAnyCase (ws : List String) : Pattern := opt (wordsAnyCase ws) ++ blanks

def arguments : Pattern := char '(' ++ span (· != ')') ++ char ')'

/-- A type in front of a name, which may be missing. -/
def typeBefore : Pattern := opt (span1 isTypeChar ++ blanks1)

def modifiersIn (ws : List String) (declaration : List Char) : List String :=
  ws.filter fun w => Chars.contains declaration w.toList

def modifiersInAnyCase (ws : List String) (declaration : List Char) : List String :=
  let low := Text.lowerChars declaration
  ws.filter fun w => Chars.contains low (Text.lower w).toList

/-- The items of a list with commas, none if there is no list. -/
def listed (text? : Option (List Char)) : List String :=
  match text? with
  | some (c :: cs) => (Chars.splitOn [','] (c :: cs)).map fun p => String.ofList (Chars.trim p)
  | _ => []

def headOf (declaration : List Char) : String :=
  String.ofList (Chars.trim (declaration.takeWhile (· != '{')))

/-- A matched text without surrounding white space. -/
def trimmed (cs : List Char) : String := String.ofList (Chars.trim cs)

/-- The block in braces that the last character of a match opens. -/
def bodyOf (code : List Char) (m : Match) : List Char := Block.braces code (m.stop - 1)

end Declaration

/-! ### As data -/

def Routine.toValue (r : Routine) : Value :=
  .record [("name", .text r.name), ("signature", .text r.signature),
    ("modifiers", .texts r.modifiers)]

def Routine.plainValue (r : Routine) : Value :=
  .record [("name", .text r.name), ("signature", .text r.signature)]

def Variable.toValue (v : Variable) : Value :=
  .record [("name", .text v.name), ("type", .text v.type), ("modifiers", .texts v.modifiers)]

def Variable.plainValue (v : Variable) : Value :=
  .record [("name", .text v.name), ("type", .text v.type)]

def Enumeration.toValue (e : Enumeration) : Value :=
  .record [("name", .text e.name), ("constants", .texts e.constants)]

def Value.listOf {α : Type} (toValue : α → Value) (items : List α) : Value :=
  .list (items.map toValue)

end CodeScribe
