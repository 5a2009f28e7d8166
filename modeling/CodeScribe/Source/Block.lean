import CodeScribe.Text.Pattern

/-!
# Blocks of source text
-/

namespace CodeScribe.Block

/-- The text up to the brace that closes the outermost of `depth` open braces, counting the
braces on the way. -/
def closed : Nat → List Char → Option (List Char)
  | _, [] => none
  | depth, c :: rest =>
    if c == '{' then (closed (depth + 1) rest).map (c :: ·)
    else if c == '}' then
      if depth ≤ 1 then some [c] else (closed (depth - 1) rest).map (c :: ·)
    else (closed depth rest).map (c :: ·)

/-- The block in braces at the start of a text, empty if there is none or it is not closed. -/
def leading (cs : List Char) : List Char :=
  match cs with
  | '{' :: _ => (closed 0 cs).getD []
  | _ => []

/-- The block in braces at a position, empty if there is none or it is not closed. -/
def braces (cs : List Char) (pos : Nat) : List Char := leading (cs.drop pos)

/-- The first block in braces at or after a position. -/
def bracesAfter (cs : List Char) (pos : Nat) : List Char :=
  leading ((cs.drop pos).dropWhile (· != '{'))

/-- The text from a position to the next place where a pattern fits, empty if there is none. -/
def upTo (stop : Pattern) (cs : List Char) (pos : Nat) : List Char :=
  let rest := cs.drop pos
  match stop.find? rest with
  | some m => rest.take m.start
  | none => []

end CodeScribe.Block
