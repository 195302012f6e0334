import OpcuaEdge.Lib.CString
import OpcuaEdge.Lib.Double

/-!
# Numbers in C strings: `strtoul`, `strtol`, `strtod`, `%.3f`

The conversions of ISO C in the "C" locale, with a 64-bit `unsigned long`. Each result carries
the value, the text from `end` on, whether a conversion was performed (`end != text`) and
whether `errno` was set to `ERANGE`.
-/

namespace CStr

/-- What a conversion gives: the number, the text behind it, whether there was a number at all, and
whether it was out of range. -/
structure Conversion (α : Type) where
  value : α
  rest : Bytes
  converted : Bool
  erange : Bool

/-- `isspace`, in the C locale. -/
def isSpace (c : UInt8) : Bool := c = 32 || (9 ≤ c && c ≤ 13)

/-- `isdigit`. -/
def isDigit (c : UInt8) : Bool := 48 ≤ c && c ≤ 57

/-- `tolower`. -/
def toLower (c : UInt8) : UInt8 := if 65 ≤ c ∧ c ≤ 90 then c + 32 else c

/-- The value of a hexadecimal digit; decimal digits are the ones below ten. -/
def digitValue (c : UInt8) : Nat :=
  if isDigit c then c.toNat - 48 else (toLower c).toNat - 87

/-- `isxdigit`. -/
def isHexDigit (c : UInt8) : Bool := isDigit c || (97 ≤ toLower c && toLower c ≤ 102)

/-- The number written by a list of digits, most significant first. -/
def numeral (base : Nat) (digits : Bytes) : Nat :=
  digits.foldl (fun acc c => acc * base + digitValue c) 0

/-- An optional sign: whether it is a minus, and the text after it. -/
def takeSign : Bytes → Bool × Bytes
  | [] => (false, [])
  | c :: rest =>
    if c = 45 then (true, rest) else if c = 43 then (false, rest) else (false, c :: rest)

/-! ## `strtoul`

White space, a sign, digits. A minus sign negates in the unsigned type, which is why a large
negative number comes out small. -/

/-- `ULONG_MAX`. -/
def ulongMax : Nat := 2 ^ 64 - 1

/-- `strtoul(text, &end, 10)`. A minus sign negates modulo `2 ^ 64`; digits denoting more than
`ULONG_MAX` give `ULONG_MAX` and `ERANGE`. -/
def strtoul (text : Bytes) : Conversion Nat :=
  let signed := takeSign (text.dropWhile isSpace)
  let digits := signed.2.takeWhile isDigit
  let rest := signed.2.dropWhile isDigit
  let n := numeral 10 digits
  -- without a digit there is no conversion, and `end` goes back to the start of the text
  if digits = [] then { value := 0, rest := text, converted := false, erange := false }
  else if ulongMax < n then { value := ulongMax, rest, converted := true, erange := true }
  else
    { value := if signed.1 then (2 ^ 64 - n) % 2 ^ 64 else n
      rest, converted := true, erange := false }

/-! ## `strtol`

As `strtoul`, into a signed type. -/

/-- `LONG_MIN`. -/
def longMin : Int := -2 ^ 63

/-- `LONG_MAX`. -/
def longMax : Int := 2 ^ 63 - 1

/-- The value of `strtol(text, 0, 10)`: numbers out of range give the nearest bound, and a text
that is no number gives 0. -/
def strtol (text : Bytes) : Int :=
  let signed := takeSign (text.dropWhile isSpace)
  let n : Int := numeral 10 (signed.2.takeWhile isDigit)
  max longMin (min longMax (if signed.1 then -n else n))

/-! ## `strtod`

Decimal and hexadecimal numbers, infinities and NaNs. The decimal value is exact here and not
rounded. -/

/-- `m * base ^ e`. -/
def scaled (m base : Nat) : Int → ℚ
  | .ofNat k => (m * base ^ k : Nat)
  | .negSucc k => mkRat m (base ^ (k + 1))

/-- Digits with an optional point and at least one digit: their number without the point, how
many stand after it, and the rest of the text. -/
def mantissa (isDig : UInt8 → Bool) (base : Nat) (text : Bytes) : Option (Nat × Nat × Bytes) :=
  let whole := text.takeWhile isDig
  let tail := text.dropWhile isDig
  let point := tail.head? = some 46
  let frac := if point then tail.tail.takeWhile isDig else []
  let rest := if point then tail.tail.dropWhile isDig else tail
  if whole = [] ∧ frac = [] then none else some (numeral base (whole ++ frac), frac.length, rest)

/-- An exponent part after its marker letter, absent unless it has a digit. -/
def exponentPart (marker : UInt8) (text : Bytes) : Int × Bytes :=
  match text with
  | [] => (0, [])
  | c :: rest =>
    let signed := takeSign rest
    let digits := signed.2.takeWhile isDigit
    if toLower c = marker ∧ digits ≠ [] then
      (if signed.1 then -(numeral 10 digits : Int) else numeral 10 digits,
        signed.2.dropWhile isDigit)
    else (0, text)

/-- Strips `pat`, given in lower case, without regard to case. -/
def stripNoCase (pat text : Bytes) : Option Bytes :=
  if (text.take pat.length).map toLower = pat then some (text.drop pat.length) else none

/-- The text after the optional parenthesised tag of a NaN. -/
def skipNanTag (text : Bytes) : Bytes :=
  let word := fun c => isDigit c || (97 ≤ toLower c && toLower c ≤ 122) || c = 95
  match text with
  | 40 :: rest =>
    match rest.dropWhile word with
    | 41 :: after => after
    | _ => text
  | _ => text

/-- A finite result: `HUGE_VAL` and `ERANGE` where rounding to the nearest double overflows, and
`ERANGE` where the value is below the normal range and not a multiple of the smallest double. -/
def finiteResult (neg : Bool) (q : ℚ) (rest : Bytes) : Conversion Double :=
  if (2 : ℚ) ^ 1024 - 2 ^ 970 ≤ q then
    { value := .inf neg, rest, converted := true, erange := true }
  else
    { value := .fin (if neg then -q else q), rest, converted := true
      erange := decide (0 < q ∧ q * 2 ^ 1022 < 1 ∧ (q * 2 ^ 1074).den ≠ 1) }

/-- The number after white space and sign: decimal, or hexadecimal after `0x`. A `0x` without a
hexadecimal digit behind it is the number `0` followed by an `x`. -/
def strtodNumber (text : Bytes) : Option (ℚ × Bytes) :=
  let hex := (stripNoCase (lit "0x") text).bind (mantissa isHexDigit 16)
  match hex with
  | some (m, frac, rest) =>
    -- a hexadecimal exponent counts binary places
    let e := exponentPart 112 rest
    some (scaled m 2 (e.1 - 4 * frac), e.2)
  | none =>
    match mantissa isDigit 10 text with
    | some (m, frac, rest) =>
      let e := exponentPart 101 rest
      some (scaled m 10 (e.1 - frac), e.2)
    | none => none

/-- `strtod(text, &end)`. -/
def strtod (text : Bytes) : Conversion Double :=
  let signed := takeSign (text.dropWhile isSpace)
  match stripNoCase (lit "infinity") signed.2, stripNoCase (lit "inf") signed.2,
      stripNoCase (lit "nan") signed.2, strtodNumber signed.2 with
  | some rest, _, _, _ => { value := .inf signed.1, rest, converted := true, erange := false }
  | none, some rest, _, _ => { value := .inf signed.1, rest, converted := true, erange := false }
  | none, none, some rest, _ =>
    { value := .nan, rest := skipNanTag rest, converted := true, erange := false }
  | none, none, none, some (q, rest) => finiteResult signed.1 q rest
  | none, none, none, none => { value := .fin 0, rest := text, converted := false, erange := false }

/-! ## `%.3f`

The integer part, a point, three digits. -/

/-- A natural number in decimal digits. -/
def decimal (n : Nat) : Bytes := (Nat.toDigits 10 n).map fun c => c.toNat.toUInt8

/-- Round half to even. -/
def roundHalfEven (q : ℚ) : Nat :=
  let n := ⌊q⌋.toNat
  let twice := 2 * (q - n)
  if twice < 1 ∨ (twice = 1 ∧ n % 2 = 0) then n else n + 1

/-- `printf("%.3f")`. -/
def formatFixed3 : Double → Bytes
  | .fin q =>
    let n := roundHalfEven (|q| * 1000)
    let frac := decimal (n % 1000)
    (if q < 0 then lit "-" else []) ++ decimal (n / 1000) ++ lit "."
      ++ List.replicate (3 - frac.length) 48 ++ frac
  | .inf neg => (if neg then lit "-" else []) ++ lit "inf"
  | .nan => lit "nan"

end CStr
