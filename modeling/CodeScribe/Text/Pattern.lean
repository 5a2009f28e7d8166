import CodeScribe.Text.Chars

/-!
# Patterns

Text patterns with ordered choice, greedy and lazy repetition and numbered groups, and the
matcher that finds the first way, in order of preference, in which a pattern fits.

The matcher is total: repetition of one character class follows the text, repetition of a whole
pattern must advance at every turn and is bounded by the characters that are left.
-/

namespace CodeScribe

open CodeScribe.Text (isWord isBlank sameLetter)

/-! ### Places in a text -/

/-- A stretch of text: the characters from its start on, and where it starts and stops. -/
structure Span where
  start : Nat
  stop : Nat
  tail : List Char

def Span.chars (s : Span) : List Char := s.tail.take (s.stop - s.start)

/-- A place in a text. -/
structure Cursor where
  before : Option Char
  pos : Nat
  rest : List Char
  groups : List (Nat × Span)

namespace Cursor

def start (cs : List Char) : Cursor := ⟨none, 0, cs, []⟩

/-- The place after the next character. -/
def step (s : Cursor) (c : Char) (rest : List Char) : Cursor :=
  { s with before := some c, pos := s.pos + 1, rest := rest }

/-- Record a group that began at `from'` and ends here. -/
def close (s : Cursor) (i : Nat) (opened : Cursor) : Cursor :=
  { s with groups := (i, ⟨opened.pos, s.pos, opened.rest⟩) :: s.groups }

/-- Whether exactly one of the two neighbours of a place belongs to a word. -/
def atWordEdge (s : Cursor) : Bool :=
  (s.before.any isWord) != (s.rest.head?.any isWord)

end Cursor

/-! ### Patterns and their matcher -/

inductive Pattern where
  /-- The empty text. -/
  | nothing
  /-- One character of a class. -/
  | one (accept : Char → Bool)
  /-- Any number of characters of a class, as many as possible first. -/
  | span (accept : Char → Bool)
  /-- Any number of characters of a class, as few as possible first. -/
  | spanLazy (accept : Char → Bool)
  /-- One pattern after the other. -/
  | seq (a b : Pattern)
  /-- The first pattern, or else the second. -/
  | alt (a b : Pattern)
  /-- Any number of turns of a pattern, as many as possible first. -/
  | star (p : Pattern)
  /-- A pattern whose text is recorded under a number. -/
  | group (i : Nat) (p : Pattern)
  /-- A condition on the place, reading nothing. -/
  | test (holds : Cursor → Bool)
  /-- A pattern that has to fit here, reading nothing. -/
  | ahead (p : Pattern)

namespace Pattern

/-- Read as many characters of a class as possible, and fewer as long as `k` refuses. -/
def runSpan {α : Type} (accept : Char → Bool) (k : Cursor → Option α)
    (groups : List (Nat × Span)) : Option Char → Nat → List Char → Option α
  | before, pos, [] => k ⟨before, pos, [], groups⟩
  | before, pos, c :: rest =>
    if accept c then
      match runSpan accept k groups (some c) (pos + 1) rest with
      | some a => some a
      | none => k ⟨before, pos, c :: rest, groups⟩
    else k ⟨before, pos, c :: rest, groups⟩

/-- Read as few characters of a class as possible, and more as long as `k` refuses. -/
def runLazy {α : Type} (accept : Char → Bool) (k : Cursor → Option α)
    (groups : List (Nat × Span)) : Option Char → Nat → List Char → Option α
  | before, pos, [] => k ⟨before, pos, [], groups⟩
  | before, pos, c :: rest =>
    match k ⟨before, pos, c :: rest, groups⟩ with
    | some a => some a
    | none => if accept c then runLazy accept k groups (some c) (pos + 1) rest else none

/-- Take turns that each advance, as many as possible and at most `turns`, and fewer as long as
`k` refuses. -/
def runStar {α : Type} (turn : (Cursor → Option α) → Cursor → Option α)
    (k : Cursor → Option α) : Nat → Cursor → Option α
  | 0, s => k s
  | turns + 1, s =>
    match turn (fun s' => if s.pos < s'.pos then runStar turn k turns s' else none) s with
    | some a => some a
    | none => k s

/-- Try the ways in which a pattern fits at a cursor, best first, and give the first answer that
`k` has for the place behind one. -/
def run {α : Type} : Pattern → (Cursor → Option α) → Cursor → Option α
  | nothing, k, s => k s
  | one accept, k, s =>
    match s.rest with
    | [] => none
    | c :: rest => if accept c then k (s.step c rest) else none
  | span accept, k, s => runSpan accept k s.groups s.before s.pos s.rest
  | spanLazy accept, k, s => runLazy accept k s.groups s.before s.pos s.rest
  | seq a b, k, s => a.run (fun s' => b.run k s') s
  | alt a b, k, s =>
    match a.run k s with
    | some r => some r
    | none => b.run k s
  | star p, k, s => runStar (fun k' s' => p.run k' s') k s.rest.length s
  | group i p, k, s => p.run (fun s' => k (s'.close i s)) s
  | test holds, k, s => if holds s then k s else none
  | ahead p, k, s =>
    match p.run (fun s' => some s'.groups) s with
    | some groups => k { s with groups := groups }
    | none => none

/-! ### Building patterns -/

instance : Append Pattern := ⟨seq⟩

instance : OrElse Pattern := ⟨fun a b => alt a (b ())⟩

def char (c : Char) : Pattern := one (· == c)

def all : List Pattern → Pattern
  | [] => nothing
  | [p] => p
  | p :: ps => p ++ all ps

def lit (s : String) : Pattern := all (s.toList.map char)

/-- A given text, upper and lower case alike. -/
def litAnyCase (s : String) : Pattern := all (s.toList.map fun c => one (sameLetter c))

def anyOf : List Pattern → Pattern
  | [] => test fun _ => false
  | [p] => p
  | p :: ps => p <|> anyOf ps

/-- One of the given texts, the first that fits. -/
def words (ss : List String) : Pattern := anyOf (ss.map lit)

/-- One of the given texts, upper and lower case alike, the first that fits. -/
def wordsAnyCase (ss : List String) : Pattern := anyOf (ss.map litAnyCase)

def opt (p : Pattern) : Pattern := p <|> nothing

/-- At least one character of a class, as many as possible first. -/
def span1 (accept : Char → Bool) : Pattern := one accept ++ span accept

/-- At least one turn of a pattern, as many as possible first. -/
def plus (p : Pattern) : Pattern := p ++ star p

def blanks : Pattern := span isBlank

def blanks1 : Pattern := span1 isBlank

def name : Pattern := span1 isWord

def noneOf (s : String) (c : Char) : Bool := !s.toList.contains c

def among (s : String) (c : Char) : Bool := s.toList.contains c

def wordEdge : Pattern := test Cursor.atWordEdge

def textStart : Pattern := test fun s => s.before.isNone

def lineStart : Pattern := test fun s => s.before.all (· == '\n')

def lineEnd : Pattern := test fun s => s.rest.head?.all (· == '\n')

/-- The end of the text, a final line feed left aside. -/
def textEnd : Pattern := test fun s => s.rest == [] || s.rest == ['\n']

end Pattern

/-! ### Matches -/

/-- Where and how a pattern fits. -/
structure Match where
  whole : Span
  groups : List (Nat × Span)

namespace Match

def start (m : Match) : Nat := m.whole.start

def stop (m : Match) : Nat := m.whole.stop

def chars (m : Match) : List Char := m.whole.chars

def text (m : Match) : String := String.ofList m.chars

/-- The text of a group, if the group took part in the match. -/
def chars? (m : Match) (i : Nat) : Option (List Char) :=
  (m.groups.find? (·.1 == i)).map (·.2.chars)

/-- The text of a group, if the group took part in the match. -/
def get? (m : Match) (i : Nat) : Option String := (m.chars? i).map String.ofList

/-- The text of a group, empty if the group took no part in the match. -/
def get (m : Match) (i : Nat) : String := (m.get? i).getD ""

end Match

namespace Pattern

/-- The best way in which a pattern fits at a cursor. -/
def matchAt? (p : Pattern) (s : Cursor) : Option Match :=
  p.run (fun s' => some ⟨⟨s.pos, s'.pos, s.rest⟩, s'.groups⟩) s

/-- The best way in which a pattern fits at the start of a text. -/
def matchStart? (p : Pattern) (cs : List Char) : Option Match := p.matchAt? (Cursor.start cs)

def findFrom? (p : Pattern) : Option Char → Nat → List Char → Option Match
  | before, pos, [] => p.matchAt? ⟨before, pos, [], []⟩
  | before, pos, c :: rest =>
    match p.matchAt? ⟨before, pos, c :: rest, []⟩ with
    | some m => some m
    | none => findFrom? p (some c) (pos + 1) rest

/-- The leftmost place at which a pattern fits. -/
def find? (p : Pattern) (cs : List Char) : Option Match := p.findFrom? none 0 cs

def occursIn (p : Pattern) (cs : List Char) : Bool := (p.find? cs).isSome

/-- Search on from a place after skipping `skip` characters. -/
def scan (p : Pattern) : Nat → Option Char → Nat → List Char → List Match
  | _, before, pos, [] => (p.matchAt? ⟨before, pos, [], []⟩).toList
  | skip + 1, _, pos, c :: rest => scan p skip (some c) (pos + 1) rest
  | 0, before, pos, c :: rest =>
    match p.matchAt? ⟨before, pos, c :: rest, []⟩ with
    | some m => m :: scan p (m.stop - m.start - 1) (some c) (pos + 1) rest
    | none => scan p 0 (some c) (pos + 1) rest

/-- All matches from left to right, each starting where the one before stopped at the earliest. -/
def findAll (p : Pattern) (cs : List Char) : List Match := p.scan 0 none 0 cs

def findGroup (p : Pattern) (i : Nat) (cs : List Char) : List String :=
  (p.findAll cs).map (·.get i)

/-- The pieces of a text between matches and the matches, in order; `pos` is where `cs` starts. -/
def pieces : Nat → List Match → List Char → List (List Char × Option Match)
  | _, [], cs => [(cs, none)]
  | pos, m :: ms, cs =>
    (cs.take (m.start - pos), some m) :: pieces m.stop ms (cs.drop (m.stop - pos))

def replaceAll (p : Pattern) (new : Match → List Char) (cs : List Char) : List Char :=
  (pieces 0 (p.findAll cs) cs).flatMap fun (between, m?) =>
    between ++ (m?.map new).getD []

def removeAll (p : Pattern) (cs : List Char) : List Char := p.replaceAll (fun _ => []) cs

/-- The pieces between matches with the matched texts between them. -/
def splitKeeping (p : Pattern) (cs : List Char) : List (List Char) :=
  (pieces 0 (p.findAll cs) cs).flatMap fun (between, m?) =>
    between :: (m?.map fun m => [m.chars]).getD []

end Pattern

end CodeScribe
