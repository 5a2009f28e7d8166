import CodeScribe.Text.Chars

/-!
# Bytes and texts
-/

namespace CodeScribe.Utf8

/-- The six bits of a byte inside a character. -/
def inner? (b : UInt8) : Option Nat :=
  if 0x80 ≤ b.toNat && b.toNat < 0xC0 then some (b.toNat - 0x80) else none

/-- The character at the start of some bytes and the number of its bytes. -/
def first? : List UInt8 → Option (Char × Nat)
  | [] => none
  | a :: rest =>
    let n := a.toNat
    if n < 0x80 then some (Char.ofNat n, 1)
    else if n < 0xC2 then none
    else if n < 0xE0 then
      match rest with
      | b :: _ => (inner? b).map fun y => (Char.ofNat ((n - 0xC0) * 64 + y), 2)
      | _ => none
    else if n < 0xF0 then
      match rest with
      | b :: c :: _ =>
        match inner? b, inner? c with
        | some y, some z =>
          let code := (n - 0xE0) * 4096 + y * 64 + z
          if code < 0x800 || (0xD800 ≤ code && code < 0xE000) then none
          else some (Char.ofNat code, 3)
        | _, _ => none
      | _ => none
    else if n < 0xF5 then
      match rest with
      | b :: c :: d :: _ =>
        match inner? b, inner? c, inner? d with
        | some x, some y, some z =>
          let code := (n - 0xF0) * 262144 + x * 4096 + y * 64 + z
          if code < 0x10000 || 0x110000 ≤ code then none else some (Char.ofNat code, 4)
        | _, _, _ => none
      | _ => none
    else none

/-- The characters of some bytes; the first bytes up to a count belong to a character that has
been read. -/
def decodeFrom : Nat → List UInt8 → List Char
  | _, [] => []
  | skip + 1, _ :: rest => decodeFrom skip rest
  | 0, b :: rest =>
    match first? (b :: rest) with
    | some (c, size) => c :: decodeFrom (size - 1) rest
    | none => decodeFrom 0 rest

/-- The text of some bytes, without the bytes that belong to no character. -/
def decode (bs : List UInt8) : String := String.ofList (decodeFrom 0 bs)

def encode (s : String) : List UInt8 := s.toUTF8.toList

/-- Whether every byte belongs to a character. -/
def isClean (bs : List UInt8) : Bool := (decode bs).utf8ByteSize == bs.length

/-- A text with plain newlines in place of carriage returns, alone or before a newline. -/
def unixChars : List Char → List Char
  | '\r' :: '\n' :: rest => '\n' :: unixChars rest
  | '\r' :: rest => '\n' :: unixChars rest
  | c :: rest => c :: unixChars rest
  | [] => []

/-- A text with plain newlines only. -/
def unixLines (s : String) : String :=
  if s.toList.contains '\r' then String.ofList (unixChars s.toList) else s

def base64Char (n : Nat) : Char :=
  if n < 26 then Char.ofNat (65 + n)
  else if n < 52 then Char.ofNat (97 + (n - 26))
  else if n < 62 then Char.ofNat (48 + (n - 52))
  else if n == 62 then '+' else '/'

/-- Bytes in groups of six bits, filled up with equality signs. -/
def base64Chars : List UInt8 → List Char
  | a :: b :: c :: rest =>
    let n := a.toNat * 65536 + b.toNat * 256 + c.toNat
    base64Char (n / 262144) :: base64Char (n / 4096 % 64) :: base64Char (n / 64 % 64) ::
      base64Char (n % 64) :: base64Chars rest
  | [a, b] =>
    let n := a.toNat * 65536 + b.toNat * 256
    [base64Char (n / 262144), base64Char (n / 4096 % 64), base64Char (n / 64 % 64), '=']
  | [a] =>
    let n := a.toNat * 65536
    [base64Char (n / 262144), base64Char (n / 4096 % 64), '=', '=']
  | [] => []

/-- Bytes in groups of six bits. -/
def base64 (bs : List UInt8) : String := String.ofList (base64Chars bs)

end CodeScribe.Utf8
