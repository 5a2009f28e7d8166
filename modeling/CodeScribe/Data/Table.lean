import CodeScribe.Text.Chars

/-!
# Tables in entry order
-/

namespace CodeScribe

/-- Entries by name, in the order in which the names came in. -/
abbrev Table (α : Type) := List (String × α)

namespace Table

variable {α : Type}

def get? (t : Table α) (name : String) : Option α := t.lookup name

/-- Change the entry of a name; a new name comes last. -/
def alter (t : Table α) (name : String) (change : Option α → α) : Table α :=
  match t with
  | [] => [(name, change none)]
  | (k, a) :: rest =>
    if k == name then (k, change (some a)) :: rest else (k, a) :: alter rest name change

def set (t : Table α) (name : String) (a : α) : Table α := t.alter name fun _ => a

def names (t : Table α) : List String := t.map (·.1)

def has (t : Table α) (name : String) : Bool := (t.get? name).isSome

/-- Put a text into an ascending list without repetition. -/
def insertText (s : String) : List String → List String
  | [] => [s]
  | t :: rest => if s < t then s :: t :: rest else if s == t then t :: rest else t :: insertText s rest

def addText (t : Table (List String)) (name s : String) : Table (List String) :=
  t.alter name fun ss => insertText s (ss.getD [])

/-- Put a text behind the list of a name. -/
def push (t : Table (List String)) (name s : String) : Table (List String) :=
  t.alter name fun ss => ss.getD [] ++ [s]

def listOf (t : Table (List String)) (name : String) : List String := (t.get? name).getD []

def total (t : Table (List String)) : Nat := t.foldl (fun n entry => n + entry.2.length) 0

end Table

end CodeScribe
