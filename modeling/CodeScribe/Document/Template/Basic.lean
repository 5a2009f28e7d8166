import CodeScribe.Data.Record

/-!
# Templates

A template is text with places to fill.  The language has the few forms that documentation
templates need: values with filters, choices, repetitions and assignments.
-/

namespace CodeScribe.Document

/-- What a value can be put through. -/
inductive Filter where
  | length
  | join (sep : String)
  | upper
  | lower
  | trim
  | replace (old new : String)
  /-- A switch for what is undefined. -/
  | fallback (b : Bool)
  /-- Paths as a bulleted list. -/
  | paths
  /-- A number of bytes in a readable unit. -/
  | fileSize
  /-- The number of items, zero for what does not count as given. -/
  | count
deriving Repr, DecidableEq

/-- What can be shown, tested or gone through. -/
inductive Expr where
  | name (n : String)
  | text (s : String)
  | truth (b : Bool)
  /-- A part of a table by its key. -/
  | part (e : Expr) (key : String)
  /-- Keys and values of a table, pair by pair. -/
  | entries (e : Expr)
  | filtered (e : Expr) (f : Filter)
  | negated (e : Expr)
  | both (a b : Expr)
  | either (a b : Expr)
  | equal (a b : Expr)
  | isDefined (e : Expr)
  | isNull (e : Expr)
  /-- A value under a condition, undefined without it. -/
  | given (e condition : Expr)
deriving Repr, DecidableEq

/-- A piece of a template. -/
inductive Node where
  | text (s : String)
  | shown (e : Expr)
  | assign (name : String) (e : Expr)
  | branch (condition : Expr) (yes no : List Node)
  | each (names : List String) (source : Expr) (body : List Node)

/-- A template: its pieces in order. -/
structure Template where
  nodes : List Node

end CodeScribe.Document
