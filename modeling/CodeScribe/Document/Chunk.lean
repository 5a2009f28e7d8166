import CodeScribe.Data.Record

/-!
# Cutting large files into chunks

A text longer than a given size is cut into chunks of that size, each but the first starting some
characters before the end of the one before it.
-/

namespace CodeScribe.Chunk

/-- Where a chunk stops that starts at a place. -/
def stop (length : Nat) (size : Int) (start : Int) : Int := min length (start + size)

/-- Where the chunk after the one at a place starts; none follows one that reaches the end. -/
def next? (length : Nat) (size : Int) (overlap : Nat) (start : Int) : Option Int :=
  if stop length size start < length then some (stop length size start - overlap) else none

/-- The characters between two places. -/
def slice (cs : List Char) (start stop : Int) : List Char :=
  (cs.drop start.toNat).take (stop - start).toNat

/-- The chunks from a place on, if they come to an end in a number of turns. -/
def cut (cs : List Char) (size : Int) (overlap : Nat) : Nat → Int → Option (List (List Char))
  | 0, _ => none
  | turns + 1, start =>
    if start < cs.length then
      let chunk := slice cs start (stop cs.length size start)
      match next? cs.length size overlap start with
      | some after => (cut cs size overlap turns after).map (chunk :: ·)
      | none => some [chunk]
    else some []

/-- The chunks of a text; size zero means that it is not cut. -/
def split (cs : List Char) (size : Int) (overlap : Nat) : Option (List (List Char)) :=
  if size = 0 ∨ (cs.length : Int) ≤ size then some [cs]
  else cut cs size overlap (cs.length + 1) 0

/-- A place in a text was no whole number. -/
def notAnIndex : Fault :=
  .wrongKind "slice indices must be integers or None or have an __index__ method"

/-- The number of characters that chunks share; a negative one counts as zero. -/
def overlapOf (v : Value) : Outcome Nat :=
  match v.orElse (.int 0) with
  | .int n => .ok n.toNat
  | .bool b => .ok (if b then 1 else 0)
  | .float x => if x < 0 then .ok 0 else .error notAnIndex
  | other => .error (.notOrdered "int" other.kind)

/-- The chunks of what a file holds.  Without a size, it stays whole whatever it is. -/
def ofContent (content size overlap : Value) : Outcome (List Value) := do
  if !size.isPresent then return [content]
  let length ← content.size
  match content, size.whole? with
  | .text s, some n =>
    if (length : Int) ≤ n then return [content]
    match split s.toList n (← overlapOf overlap) with
    | some chunks => return chunks.map fun c => .text (String.ofList c)
    | none => .error .endlessChunks
  | _, some _ => return [content]
  | _, none =>
    match size with
    | .float x =>
      if Float.ofNat length ≤ x then return [content] else .error notAnIndex
    | other => .error (.notOrdered "int" other.kind)

end CodeScribe.Chunk
