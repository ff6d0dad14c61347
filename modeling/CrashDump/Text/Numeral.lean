/-!
# Numerals

Reads numbers written in a given base. A sign may lead, at least one digit must follow, nothing
else may stand in the text, and a number outside its bounds is refused rather than cut.
-/
namespace CrashDump.Numeral

/-- The value of a digit; beyond nine, letters of either case count on from ten. -/
def digit? (base : Nat) (c : Char) : Option Nat :=
  let value :=
    if '0' ≤ c ∧ c ≤ '9' then some (c.toNat - '0'.toNat)
    else if 'a' ≤ c ∧ c ≤ 'z' then some (c.toNat - 'a'.toNat + 10)
    else if 'A' ≤ c ∧ c ≤ 'Z' then some (c.toNat - 'A'.toNat + 10)
    else none
  value.filter (· < base)

/-- The number whose digits are given, highest first. -/
def ofDigits (base : Nat) (digits : List Nat) : Nat :=
  digits.foldl (fun n d => n * base + d) 0

/-- One digit or more, and nothing else. -/
def natural? (base : Nat) (text : List Char) : Option Nat :=
  if text.isEmpty then none else (text.mapM (digit? base)).map (ofDigits base)

/-- A number below `bound`, after an optional plus. -/
def unsigned? (base bound : Nat) (text : List Char) : Option Nat :=
  let digits := match text with
    | '+' :: digits => digits
    | _ => text
  (natural? base digits).filter (· < bound)

/-- A number from `-bound` up to but not including `bound`, after an optional sign. -/
def signed? (base bound : Nat) (text : List Char) : Option Int :=
  match text with
  | '-' :: digits => (natural? base digits).bind fun n =>
      if n ≤ bound then some (-(n : Int)) else none
  | _ => (unsigned? base bound text).map Int.ofNat

end CrashDump.Numeral
