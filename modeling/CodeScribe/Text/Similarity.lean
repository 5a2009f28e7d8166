import CodeScribe.Text.Chars

/-!
# Similar texts

How much two texts have in common, measured by the stretches that they share: the longest one
first, then the longest ones on both sides of it, and so on.
-/

namespace CodeScribe.Similarity

/-- The number of characters that two texts start with alike. -/
def commonHead : List Char → List Char → Nat
  | a :: as, b :: bs => if a == b then commonHead as bs + 1 else 0
  | _, _ => 0

/-- A stretch that two texts share: where it starts in both, and its length. -/
structure Stretch where
  left : Nat := 0
  right : Nat := 0
  length : Nat := 0
deriving DecidableEq, Repr

/-- The longest stretch that two texts share, the first one of several. -/
def longest (a b : List Char) : Stretch :=
  (List.range a.length).foldl (fun best i =>
    (List.range b.length).foldl (fun best j =>
      let length := commonHead (a.drop i) (b.drop j)
      if best.length < length then ⟨i, j, length⟩ else best) best) {}

/-- The number of characters in shared stretches, looked for at most `fuel` levels deep. -/
def sharedWithin : Nat → List Char → List Char → Nat
  | 0, _, _ => 0
  | fuel + 1, a, b =>
    let s := longest a b
    if s.length == 0 then 0
    else s.length + sharedWithin fuel (a.take s.left) (b.take s.right) +
      sharedWithin fuel (a.drop (s.left + s.length)) (b.drop (s.right + s.length))

/-- The number of characters in shared stretches; each level uses up a character at least. -/
def shared (a b : List Char) : Nat := sharedWithin (a.length + 1) a b

/-- How alike two texts are: twice the shared characters over all characters. -/
structure Likeness where
  name : String
  shared : Nat
  total : Nat
deriving DecidableEq, Repr

def likeness (word name : String) : Likeness :=
  ⟨name, shared name.toList word.toList, name.length + word.length⟩

namespace Likeness

/-- Whether at least three fifths of the characters are shared. -/
def isClose (x : Likeness) : Bool := 3 * x.total ≤ 10 * x.shared

/-- Whether one likeness comes before another: the larger first, and of equal ones the later
name. -/
def before (x y : Likeness) : Bool :=
  let a := x.shared * y.total
  let b := y.shared * x.total
  b < a || (a == b && Text.atMost y.name x.name)

end Likeness

/-- The names that a word may have been meant for, at most three, in order. -/
def closest (word : String) (names : List String) : List String :=
  let close := (names.map (likeness word)).filter Likeness.isClose
  Text.sort (((close.mergeSort Likeness.before).take 3).map (·.name))

end CodeScribe.Similarity
