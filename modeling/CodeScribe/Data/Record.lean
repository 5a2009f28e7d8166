import CodeScribe.Fault

/-!
# Reading loosely structured data

Access to data whose shape is only known once it is looked at.  Every access either succeeds or
names what is wrong with the data it met.

* `Value.kind` — the name of a value's kind;
* `Value.each`, `Value.size`, `Value.joined`, `Value.holds` — going through items.
-/

namespace CodeScribe.Value

def kind : Value → String
  | null => "NoneType"
  | bool _ => "bool"
  | int _ => "int"
  | float _ => "float"
  | text _ => "str"
  | day _ => "datetime.date"
  | moment _ => "datetime.datetime"
  | bytes _ => "bytes"
  | list _ => "list"
  | map _ => "dict"

/-- Whether a value may be a key: lists and tables may not. -/
def isKey : Value → Bool
  | list _ => false
  | map _ => false
  | _ => true

def asKey (v : Value) : Outcome Value :=
  if v.isKey then .ok v else .error (.notKey v.kind)

/-- The entries of a table, for an operation of tables. -/
def entriesFor (operation : String) : Value → Outcome (List (Value × Value))
  | map entries => .ok entries
  | v => .error (.noOperation v.kind operation)

def field (v : Value) (key : String) : Outcome (Option Value) := do
  return lookup (text key) (← v.entriesFor "get")

def fieldOr (v : Value) (key : String) (default : Value) : Outcome Value := do
  return (← v.field key).getD default

/-- The value of a key of a table, or else nothing. -/
def fieldOrNull (v : Value) (key : String) : Outcome Value := v.fieldOr key null

def require (v : Value) (key : String) : Outcome Value :=
  match v with
  | map entries =>
    match lookup (text key) entries with
    | some value => .ok value
    | none => .error (.missingKey (text key))
  | list _ => .error (.wrongIndex "list" "str")
  | text _ => .error (.wrongIndex "str" "str")
  | other => .error (.notIndexable other.kind)

/-- The items of a list, the characters of a text or the keys of a table. -/
def each : Value → Outcome (List Value)
  | list items => .ok items
  | text s => .ok (s.toList.map fun c => text (String.singleton c))
  | map entries => .ok (entries.map (·.1))
  | bytes bs => .ok (bs.map fun b => int b.toNat)
  | v => .error (.notIterable v.kind)

/-- The number of items, characters or entries. -/
def size : Value → Outcome Nat
  | list items => .ok items.length
  | text s => .ok s.length
  | map entries => .ok entries.length
  | bytes bs => .ok bs.length
  | v => .error (.noLength v.kind)

/-- Texts from a position on; anything else cannot be joined. -/
def textsFrom : Nat → List Value → Outcome (List String)
  | _, [] => .ok []
  | i, text s :: rest => do return s :: (← textsFrom (i + 1) rest)
  | i, v :: _ => .error (.notJoinable i v.kind)

def joined (sep : String) (v : Value) : Outcome String :=
  match v.each with
  | .ok items => do return Text.join sep (← textsFrom 0 items)
  | .error _ => .error .nothingToJoin

/-- Whether a list has an item, a table a key or a text a part. -/
def holds (v : Value) (key : String) : Outcome Bool :=
  match v with
  | map entries => .ok (lookup (text key) entries).isSome
  | list items => .ok (items.any (same (text key)))
  | text s => .ok (Text.contains s key)
  | other => .error (.notSearchable other.kind)

def textFor (operation : String) : Value → Outcome String
  | text s => .ok s
  | v => .error (.noOperation v.kind operation)

/-- A text that is searched for a pattern. -/
def asText : Value → Outcome String
  | text s => .ok s
  | v => .error (.notText v.kind)

/-- The value, unless it does not count as given. -/
def orElse (v default : Value) : Value := if v.isPresent then v else default

end CodeScribe.Value
