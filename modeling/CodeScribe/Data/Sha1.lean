/-!
# A short digest of bytes

* `Sha1.digest` — the five words of a message's digest;

A message is padded to blocks of sixteen words; each block is stretched to eighty words, which
are mixed into five words of state one after the other.
-/

namespace CodeScribe.Sha1

structure State where
  a : UInt32
  b : UInt32
  c : UInt32
  d : UInt32
  e : UInt32

def State.initial : State := ⟨0x67452301, 0xEFCDAB89, 0x98BADCFE, 0x10325476, 0xC3D2E1F0⟩

/-- The sum of two states, word by word. -/
def State.add (s t : State) : State := ⟨s.a + t.a, s.b + t.b, s.c + t.c, s.d + t.d, s.e + t.e⟩

def turn (n : UInt32) (w : UInt32) : UInt32 := (w <<< n) ||| (w >>> (32 - n))

/-- Mix one word into the state; `i` is its number in the block. -/
def mix (s : State) (i : Nat) (w : UInt32) : State :=
  let (f, k) : UInt32 × UInt32 :=
    if i < 20 then ((s.b &&& s.c) ||| (~~~s.b &&& s.d), 0x5A827999)
    else if i < 40 then (s.b ^^^ s.c ^^^ s.d, 0x6ED9EBA1)
    else if i < 60 then ((s.b &&& s.c) ||| (s.b &&& s.d) ||| (s.c &&& s.d), 0x8F1BBCDC)
    else (s.b ^^^ s.c ^^^ s.d, 0xCA62C1D6)
  ⟨turn 5 s.a + f + s.e + k + w, s.a, turn 30 s.b, s.c, s.d⟩

/-- Stretch the words of a block by `n` words, the last word first. -/
def stretch : Nat → List UInt32 → List UInt32
  | 0, ws => ws
  | n + 1, ws =>
    let at' (i : Nat) : UInt32 := (ws[i]?).getD 0
    stretch n (turn 1 (at' 2 ^^^ at' 7 ^^^ at' 13 ^^^ at' 15) :: ws)

/-- Mix the words of a block into the state, from number `i` on. -/
def mixAll : Nat → List UInt32 → State → State
  | _, [], s => s
  | i, w :: ws, s => mixAll (i + 1) ws (mix s i w)

def block (s : State) (ws : List UInt32) : State :=
  s.add (mixAll 0 (stretch 64 ws.reverse).reverse s)

/-- The bytes of a number, `n` of them, the highest first. -/
def bytesOf : Nat → Nat → List UInt8
  | 0, _ => []
  | n + 1, x => UInt8.ofNat (x / Nat.pow 256 n % 256) :: bytesOf n x

/-- A message with its end mark, zeros up to whole blocks, and its length in bits. -/
def padded (bytes : List UInt8) : List UInt8 :=
  let zeros := (119 - bytes.length % 64) % 64
  bytes ++ 0x80 :: List.replicate zeros 0 ++ bytesOf 8 (bytes.length * 8)

/-- The words that bytes stand for, four bytes each. -/
def wordsOf : List UInt8 → List UInt32
  | a :: b :: c :: d :: rest =>
    (a.toUInt32 <<< 24 ||| b.toUInt32 <<< 16 ||| c.toUInt32 <<< 8 ||| d.toUInt32) :: wordsOf rest
  | _ => []

def blocks : Nat → List UInt32 → State → State
  | 0, _, s => s
  | n + 1, ws, s => if ws.isEmpty then s else blocks n (ws.drop 16) (block s (ws.take 16))

def digest (bytes : List UInt8) : State :=
  let ws := wordsOf (padded bytes)
  blocks (ws.length / 16) ws .initial

def wordHex (w : UInt32) : String :=
  let digits := Nat.toDigits 16 w.toNat
  String.ofList (List.replicate (8 - digits.length) '0' ++ digits)

def hex (s : String) : String :=
  let d := digest s.toUTF8.toList
  wordHex d.a ++ wordHex d.b ++ wordHex d.c ++ wordHex d.d ++ wordHex d.e

end CodeScribe.Sha1
