/-!
# Decimal texts of binary floating point numbers

A finite number is `m · 2 ^ q` for integers `m` and `q`; every decision below is made on these
in exact arithmetic.

* `Decimal.split` — the sign, `m` and `q` of a number;
* `Decimal.plain` — the text of a number: shortest digits, positional between `10⁻⁴` and `10¹⁶`,
  at least one digit on both sides of the point.
-/

namespace CodeScribe.Decimal

/-! ### Exact value -/

/-- The sign of a finite number and the integers of `m · 2 ^ q`. -/
structure Parts where
  negative : Bool
  m : Nat
  q : Int

def split (x : Float) : Parts :=
  let bits := x.toBits.toNat
  let exponent : Nat := bits / Nat.pow 2 52 % Nat.pow 2 11
  let fraction : Nat := bits % Nat.pow 2 52
  let negative := bits / Nat.pow 2 63 == 1
  if exponent == 0 then ⟨negative, fraction, -1074⟩
  else ⟨negative, fraction + Nat.pow 2 52, (exponent : Int) - 1075⟩

def pow2 (k : Int) : Nat := Nat.pow 2 k.toNat

def pow10 (k : Int) : Nat := Nat.pow 10 k.toNat

/-! ### Rounding -/

/-- The quotient of two natural numbers, a half going to the even neighbour. -/
def roundHalfEven (num den : Nat) : Nat :=
  let low := num / den
  let twice := 2 * (num % den)
  if twice < den then low
  else if den < twice then low + 1
  else if low % 2 == 0 then low else low + 1

/-- The number nearest to the positive quotient of two natural numbers: `m` has fifty-three binary
digits, or fewer if the quotient is very small. -/
def quotient (num den : Nat) : Parts :=
  let lead : Int := (num.log2 : Int) - den.log2
  let lead := if num * pow2 (-lead) < den * pow2 lead then lead - 1 else lead
  let q := max (lead - 52) (-1074)
  ⟨false, roundHalfEven (num * pow2 (-q)) (den * pow2 q), q⟩

/-- The number nearest to a multiple of a positive number. -/
def Parts.times (p : Parts) (n : Nat) : Parts := quotient (p.m * n * pow2 p.q) (pow2 (-p.q))

def Parts.whole (p : Parts) : Nat := p.m * pow2 p.q / pow2 (-p.q)

/-! ### Shortest digits -/

/-- The least `j ≤ fuel` with `den ≤ num · 10 ^ j`. -/
def scaleUp (den : Nat) : Nat → Nat → Nat
  | 0, _ => 0
  | fuel + 1, num => if den ≤ num then 0 else scaleUp den fuel (num * 10) + 1

/-- The power of ten that the leading digit of the positive quotient `num / den` stands for. -/
def leadingPower (num den : Nat) : Int :=
  if den ≤ num then (((Nat.toDigits 10 (num / den)).length : Int) - 1)
  else -(scaleUp den 400 num : Int)

/-- A decimal number `digits · 10 ^ power`. -/
structure Digits where
  digits : Nat
  power : Int

/-- The shortest decimal inside the rounding interval of `m · 2 ^ q`, trying `count` digits, then
one more, up to `fuel` times. -/
def searchDigits (num low high den : Nat) (closed : Bool) (lead : Int) :
    Nat → Nat → Option Digits
  | 0, _ => none
  | fuel + 1, count =>
    let power := lead - count + 1
    let up := pow10 power
    let down := pow10 (-power)
    let below := num * down / (den * up)
    let inside (d : Nat) : Bool :=
      let scaled := d * up * den
      if closed then low * down ≤ scaled && scaled ≤ high * down
      else low * down < scaled && scaled < high * down
    let gapBelow := num * down - below * up * den
    let gapAbove := (below + 1) * up * den - num * down
    let above : Digits :=
      if below + 1 == Nat.pow 10 count then ⟨1, power + count⟩ else ⟨below + 1, power⟩
    match inside below, inside (below + 1) with
    | true, true =>
      some (if gapBelow < gapAbove || (gapBelow == gapAbove && below % 2 == 0) then ⟨below, power⟩
        else above)
    | true, false => some ⟨below, power⟩
    | false, true => some above
    | false, false => searchDigits num low high den closed lead fuel (count + 1)

/-- The fewest digits that read back as `m · 2 ^ q`, for positive `m`. -/
def shortest (m : Nat) (q : Int) : Digits :=
  let up := pow2 (q - 2)
  let den := pow2 (2 - q)
  let lowGap := if m == Nat.pow 2 52 && q > -1074 then 1 else 2
  let num := 4 * m * up
  let low := (4 * m - lowGap) * up
  let high := (4 * m + 2) * up
  let lead := leadingPower num den
  (searchDigits num low high den (m % 2 == 0) lead 20 1).getD ⟨m, q⟩

/-! ### Texts -/

def zeros (n : Nat) : String := String.ofList (List.replicate n '0')

/-- An exponent with its sign and at least two digits. -/
def exponentText (e : Int) : String :=
  let digits := toString e.natAbs
  (if e < 0 then "-" else "+") ++ (if digits.length < 2 then "0" ++ digits else digits)

def Digits.text (d : Digits) : String :=
  let ds := toString d.digits
  let lead := d.power + (ds.length - 1 : Nat)
  if -4 ≤ lead && lead < 16 then
    if d.power ≥ 0 then ds ++ zeros d.power.toNat ++ ".0"
    else if lead ≥ 0 then
      let whole := lead.toNat + 1
      String.ofList (ds.toList.take whole) ++ "." ++ String.ofList (ds.toList.drop whole)
    else "0." ++ zeros ((-lead).toNat - 1) ++ ds
  else
    let head := String.ofList (ds.toList.take 1)
    let tail := String.ofList (ds.toList.drop 1)
    head ++ (if tail.isEmpty then "" else "." ++ tail) ++ "e" ++ exponentText lead

def plain (x : Float) : String :=
  if x.isNaN then "nan"
  else if x.isInf then (if x < 0 then "-inf" else "inf")
  else
    let p := split x
    let body := if p.m == 0 then "0.0" else (shortest p.m p.q).text
    if p.negative then "-" ++ body else body

/-- The text of a number with a fixed, positive number of places. -/
def fixed (places : Nat) (x : Float) : String :=
  if x.isNaN then "nan"
  else if x.isInf then (if x < 0 then "-inf" else "inf")
  else
    let p := split x
    let scaled := roundHalfEven (p.m * pow2 p.q * Nat.pow 10 places) (pow2 (-p.q))
    let whole := toString (scaled / Nat.pow 10 places)
    let part := toString (scaled % Nat.pow 10 places)
    (if p.negative then "-" else "") ++ whole ++ "." ++ zeros (places - part.length) ++ part

/-! ### Reading -/

/-- The number that decimal digits stand for, after `acc`. -/
def number (acc : Nat) : List Char → Nat
  | [] => acc
  | c :: cs => number (acc * 10 + (c.toNat - 0x30)) cs

def nearest (mantissa : Nat) (power : Int) : Float :=
  let size := power + (Nat.toDigits 10 mantissa).length
  if mantissa == 0 || size < -400 then 0
  else if size > 400 then 1 / 0
  else Float.ofScientific mantissa (power < 0) power.natAbs

/-- The number written as digits with at most one point among them and maybe an exponent. -/
def read? (cs : List Char) : Option Float :=
  let whole := cs.takeWhile Char.isDigit
  let rest := cs.drop whole.length
  let (fraction, rest) := match rest with
    | '.' :: rest => (rest.takeWhile Char.isDigit, rest.dropWhile Char.isDigit)
    | rest => ([], rest)
  let mantissa := number 0 (whole ++ fraction)
  let places : Int := fraction.length
  if whole.isEmpty && fraction.isEmpty then none
  else match rest with
    | [] => some (nearest mantissa (-places))
    | e :: rest =>
      if e == 'e' || e == 'E' then
        let (negative, digits) := match rest with
          | '-' :: digits => (true, digits)
          | '+' :: digits => (false, digits)
          | digits => (false, digits)
        if digits.isEmpty || digits.any (fun c => !c.isDigit) then none
        else
          let power : Int := number 0 digits
          some (nearest mantissa ((if negative then -power else power) - places))
      else none

end CodeScribe.Decimal
