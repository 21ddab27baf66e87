import HicnTransport.Hiperf.Trace

/-!
# The string conversions of the options

`hiperf` reads its numeric options through `std::stoul`, `std::stoull`, `std::stod` and
`std::stof`. Each calls `strtoul` or `strtod` and throws `std::invalid_argument` when no number
begins the string and `std::out_of_range` when the C function reports `ERANGE`; text after the
number is ignored.

`strtoul` reads blanks, a sign and decimal digits, and negates modulo `2^64` after a minus sign.
`strtod` reads blanks, a sign and then a decimal number with an optional fraction and exponent, a
hexadecimal one after `0x` with an optional binary exponent, `inf` or `infinity`, or `nan` with an
optional tag in parentheses, all in any case. Floating values are kept exact: a value beyond the
largest finite value of the type, or nonzero and below its smallest normal value, is out of range.
-/

namespace HicnTransport.Hiperf

/-- The exceptions the conversions throw, with their `what()` text. -/
inductive CppException
  | invalidArgument (what : String)
  | outOfRange (what : String)
  | runtimeError (what : String)
  deriving DecidableEq, Repr

/-- What `strtoul` reads in base 10: after blanks, a sign and a nonempty run of digits; whether
the sign is a minus, the digits' value and the rest, or `none` when no digit follows. -/
def scanUnsigned (s : List Char) : Option (Bool × ℕ × List Char) :=
  let signed := readSign (s.dropWhile isSpace)
  let digits := signed.2.takeWhile Char.isDigit
  if digits.isEmpty then none
  else some (signed.1, decimalValue digits, signed.2.dropWhile Char.isDigit)

/-- `std::stoul` and `std::stoull`, named `name`, on an LP64 host where both return 64 bits. -/
def stoUnsigned (name : String) (str : List Char) : Except CppException (BitVec 64) :=
  match scanUnsigned str with
  | none => .error (.invalidArgument name)
  | some (negative, v, _) =>
    if 2 ^ 64 ≤ v then .error (.outOfRange name)
    else .ok (if negative then -BitVec.ofNat 64 v else BitVec.ofNat 64 v)

def stoul (str : List Char) : Except CppException (BitVec 64) := stoUnsigned "stoul" str

def stoull (str : List Char) : Except CppException (BitVec 64) := stoUnsigned "stoull" str

/-- A `float` or a `double` as `strtof` and `strtod` return it: a finite value, kept exact
without the rounding to the type's precision, an infinity, or a NaN. -/
inductive FloatValue
  | finite (q : ℚ)
  | inf (negative : Bool)
  | nan
  deriving DecidableEq, Repr

/-- The value negated, as a minus sign before it does. -/
def FloatValue.neg : FloatValue → FloatValue
  | .finite q => .finite (-q)
  | .inf negative => .inf (!negative)
  | .nan => .nan

/-- The value of a decimal or a hexadecimal digit. -/
def hexDigitValue (c : Char) : ℕ :=
  if c.isDigit then c.toNat - '0'.toNat else c.toLower.toNat - 'a'.toNat + 10

/-- `isxdigit`. -/
def isHexDigit (c : Char) : Bool := c.isDigit || "abcdefABCDEF".toList.contains c

/-- The digits of a significand in base `base`, with an optional point and at least one digit: their
value as an integer, the number after the point, and the rest. -/
def scanSignificand (isDigitIn : Char → Bool) (base : ℕ) (r : List Char) :
    Option (ℕ × ℕ × List Char) :=
  let intDigits := r.takeWhile isDigitIn
  let frac : List Char × List Char :=
    match r.dropWhile isDigitIn with
    | '.' :: r' => (r'.takeWhile isDigitIn, r'.dropWhile isDigitIn)
    | r' => ([], r')
  if intDigits.isEmpty && frac.1.isEmpty then none
  else
    some ((intDigits ++ frac.1).foldl (fun n d => base * n + hexDigitValue d) 0, frac.1.length,
      frac.2)

/-- The exponent after a significand: one of the marks, an optional sign and at least one decimal
digit. Without a digit the exponent is 0 and nothing is read. -/
def scanExponent (marks : List Char) : List Char → ℤ × List Char
  | [] => (0, [])
  | m :: r =>
    let signed := readSign r
    let digits := signed.2.takeWhile Char.isDigit
    if marks.contains m && !digits.isEmpty then
      (if signed.1 then -(decimalValue digits : ℤ) else decimalValue digits,
        signed.2.dropWhile Char.isDigit)
    else (0, m :: r)

/-- The exact value `m * base ^ e`. -/
def scaled (m base : ℕ) (e : ℤ) : ℚ :=
  if 0 ≤ e then ((m * base ^ e.toNat : ℕ) : ℚ) else (m : ℚ) / ((base ^ (-e).toNat : ℕ) : ℚ)

/-- A decimal floating number: a significand and a power of 10 after `e` or `E`. -/
def scanDecimalFloat (r : List Char) : Option (ℚ × List Char) :=
  (scanSignificand Char.isDigit 10 r).map fun (m, f, r') =>
    (scaled m 10 ((scanExponent ['e', 'E'] r').1 - f), (scanExponent ['e', 'E'] r').2)

/-- A hexadecimal floating number after `0x`: a significand and a power of 2 after `p` or `P`. -/
def scanHexFloat (r : List Char) : Option (ℚ × List Char) :=
  (scanSignificand isHexDigit 16 r).map fun (m, f, r') =>
    (scaled m 2 ((scanExponent ['p', 'P'] r').1 - 4 * f), (scanExponent ['p', 'P'] r').2)

/-- A character of the tag of `nan(...)`. -/
def isNanTagChar (c : Char) : Bool := c.isAlphanum || c == '_'

/-- `inf` or `infinity`, and `nan` with an optional tag in parentheses, in any case. -/
def scanSpecial (r : List Char) : Option (FloatValue × List Char) :=
  let lower := r.map Char.toLower
  if "infinity".toList.isPrefixOf lower then some (.inf false, r.drop 8)
  else if "inf".toList.isPrefixOf lower then some (.inf false, r.drop 3)
  else if "nan".toList.isPrefixOf lower then
    match r.drop 3 with
    | '(' :: r' =>
      match r'.dropWhile isNanTagChar with
      | ')' :: r'' => some (.nan, r'')
      | _ => some (.nan, r.drop 3)
    | _ => some (.nan, r.drop 3)
  else none

/-- A hexadecimal floating number after `0x` or `0X`. -/
def scanHexPrefixed : List Char → Option (ℚ × List Char)
  | '0' :: x :: r => if x = 'x' ∨ x = 'X' then scanHexFloat r else none
  | _ => none

/-- What `strtod` reads after blanks and a sign: a hexadecimal or decimal number, an infinity or a
NaN, with the rest; `none` when no number begins the string. -/
def scanFloat (s : List Char) : Option (FloatValue × List Char) :=
  let signed := readSign (s.dropWhile isSpace)
  let number :=
    ((scanHexPrefixed signed.2 <|> scanDecimalFloat signed.2).map fun (q, rest) =>
      (FloatValue.finite q, rest)) <|> scanSpecial signed.2
  number.map fun (v, rest) => (if signed.1 then v.neg else v, rest)

/-- `ERANGE` for a type whose largest finite value is `maxFinite` and smallest normal value
`1 / minDen`. -/
def FloatValue.outOfRange (maxFinite minDen : ℕ) : FloatValue → Bool
  | .finite q =>
    decide (maxFinite * q.den < q.num.natAbs) ||
      (q.num != 0 && decide (q.num.natAbs * minDen < q.den))
  | _ => false

/-- `std::stof` and `std::stod`, named `name`, for a type whose largest finite value is
`maxFinite` and smallest normal value `1 / minDen`. -/
def stoFloating (name : String) (maxFinite minDen : ℕ) (str : List Char) :
    Except CppException FloatValue :=
  match scanFloat str with
  | none => .error (.invalidArgument name)
  | some (v, _) => if v.outOfRange maxFinite minDen then .error (.outOfRange name) else .ok v

/-- `FLT_MAX`. -/
def floatMax : ℕ := (2 ^ 24 - 1) * 2 ^ 104

/-- `FLT_MIN` is `1 / floatMinDen`. -/
def floatMinDen : ℕ := 2 ^ 126

/-- `DBL_MAX`, written out so that a conversion can be evaluated. -/
def doubleMax : ℕ :=
  179769313486231570814527423731704356798070567525844996598917476803157260780028538760589558632766878171540458953514382464234321326889464182768467546703537516986049910576551282076245490090389328944075868508455133942304583236903222948165808559332123348274797826204144723168738177180919299881250404026184124858368

/-- `DBL_MIN` is `1 / doubleMinDen`, written out as `doubleMax` is. -/
def doubleMinDen : ℕ :=
  44942328371557897693232629769725618340449424473557664318357520289433168951375240783177119330601884005280028469967848339414697442203604155623211857659868531094441973356216371319075554900311523529863270738021251442209537670585615720368478277635206809290837627671146574559986811484619929076208839082406056034304

theorem scaled_zero (m base : ℕ) : scaled m base 0 = m := by
  simp [scaled]

theorem scanSignificand_digits {ds : List Char} (hds : ds ≠ [])
    (hdig : ∀ c ∈ ds, c.isDigit = true) :
    scanSignificand Char.isDigit 10 ds = some (decimalValue ds, 0, []) := by
  have hd : ds.dropWhile Char.isDigit = [] := List.dropWhile_eq_nil_iff.2 hdig
  have hvalue : ds.foldl (fun n d => 10 * n + hexDigitValue d) 0 = decimalValue ds :=
    List.foldl_ext _ _ _ fun n d hd => by simp [hexDigitValue, hdig d hd]
  simp [scanSignificand, List.takeWhile_eq_self_iff.2 hdig, hd, hds, hvalue]

theorem scanHexPrefixed_of_digits {ds : List Char} (hdig : ∀ c ∈ ds, c.isDigit = true) :
    scanHexPrefixed ds = none := by
  unfold scanHexPrefixed
  split
  · have hx := hdig _ (List.mem_cons_of_mem _ (List.mem_cons_self _ _))
    rw [if_neg]
    rintro (rfl | rfl) <;> exact absurd hx (by decide)
  · rfl

theorem scanFloat_of_digits {s ds : List Char} {negative : Bool}
    (hs : readSign (s.dropWhile isSpace) = (negative, ds)) (hds : ds ≠ [])
    (hdig : ∀ c ∈ ds, c.isDigit = true) :
    scanFloat s = some ((if negative then FloatValue.neg else id)
      (.finite (decimalValue ds)), []) := by
  have hdec : scanDecimalFloat ds = some ((decimalValue ds : ℚ), []) := by
    simp [scanDecimalFloat, scanSignificand_digits hds hdig, scanExponent, scaled_zero]
  simp only [scanFloat, hs, scanHexPrefixed_of_digits hdig, hdec]
  cases negative <;> rfl

@[simp] theorem outOfRange_neg (v : FloatValue) (maxFinite minDen : ℕ) :
    v.neg.outOfRange maxFinite minDen = v.outOfRange maxFinite minDen := by
  cases v with
  | finite q =>
    have hzero : (-q.num == 0) = (q.num == 0) := by rw [Bool.eq_iff_iff]; simp
    simp [FloatValue.neg, FloatValue.outOfRange, bne, hzero]
  | inf negative => rfl
  | nan => rfl

theorem outOfRange_natCast (n : ℕ) {maxFinite minDen : ℕ} (hmin : 0 < minDen) :
    (FloatValue.finite n).outOfRange maxFinite minDen = decide (maxFinite < n) := by
  simp [FloatValue.outOfRange]
  omega

theorem stoFloating_of_digits (name : String) (maxFinite : ℕ) {minDen : ℕ} (hmin : 0 < minDen)
    {s ds : List Char} {negative : Bool} (hs : readSign (s.dropWhile isSpace) = (negative, ds))
    (hds : ds ≠ []) (hdig : ∀ c ∈ ds, c.isDigit = true) :
    stoFloating name maxFinite minDen s =
      if maxFinite < decimalValue ds then .error (.outOfRange name)
      else .ok ((if negative then FloatValue.neg else id) (.finite (decimalValue ds))) := by
  have hrange : ((if negative then FloatValue.neg else id)
      (FloatValue.finite (decimalValue ds))).outOfRange maxFinite minDen =
        decide (maxFinite < decimalValue ds) := by
    cases negative <;> simp [outOfRange_natCast _ hmin]
  simp only [stoFloating, scanFloat_of_digits hs hds hdig, hrange, decide_eq_true_eq]

def stof (str : List Char) : Except CppException FloatValue :=
  stoFloating "stof" floatMax floatMinDen str

def stod (str : List Char) : Except CppException FloatValue :=
  stoFloating "stod" doubleMax doubleMinDen str

end HicnTransport.Hiperf
