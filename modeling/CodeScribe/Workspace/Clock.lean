import CodeScribe.Data.Value

/-!
# The clock
-/

namespace CodeScribe

/-- A calendar day by its number, counted from the first day of 1970.  Days are counted in periods
of four hundred years that start with a March, so that the leap day ends a year. -/
def Day.ofNumber (n : Nat) : Day :=
  let shifted := n + 719468
  let inPeriod := shifted % 146097
  let year := (inPeriod - inPeriod / 1460 + inPeriod / 36524 - inPeriod / 146096) / 365
  let inYear := inPeriod - (365 * year + year / 4 - year / 100)
  let month := (5 * inYear + 2) / 153
  let day := inYear - (153 * month + 2) / 5 + 1
  let startsYear := 10 ≤ month
  { year := shifted / 146097 * 400 + year + if startsYear then 1 else 0
    month := if startsYear then month - 9 else month + 3
    day }

/-- A point in universal time by its seconds since the start of 1970. -/
def Moment.ofSeconds (n : Nat) : Moment where
  day := Day.ofNumber (n / 86400)
  hour := n % 86400 / 3600
  minute := n % 3600 / 60
  second := n % 60
  micros := 0
  offset := none

end CodeScribe
