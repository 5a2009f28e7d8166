import CodeScribe.Data.Value

/-!
# Trouble with settings texts
-/

namespace CodeScribe.Yaml

/-- A place in a text: line and column, counted from zero. -/
structure Mark where
  line : Nat := 0
  column : Nat := 0
deriving DecidableEq, Repr, Inhabited

/-- A place in a named text, in words. -/
def Mark.place (name : String) (m : Mark) : String :=
  "  in \"" ++ name ++ "\", line " ++ toString (m.line + 1) ++ ", column " ++ toString (m.column + 1)

/-- What is wrong with a text: what was being read and where it started, and the problem and
where it is. -/
structure Trouble where
  context : Option String := none
  start : Option Mark := none
  problem : String
  mark : Mark
deriving DecidableEq, Repr

/-- The wording of a trouble; the start is left out where the problem is. -/
def Trouble.text (name : String) (t : Trouble) : String :=
  let start := (t.start.filter (· != t.mark)).map (Mark.place name)
  Text.join "\n" (t.context.toList ++ start.toList ++ [t.problem, t.mark.place name])

def found (c : Char) : String := Value.quoted (String.singleton c)

end CodeScribe.Yaml
