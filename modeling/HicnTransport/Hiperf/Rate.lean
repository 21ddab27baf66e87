import HicnTransport.Hiperf.Conversions

/-!
# The production rate of the RTC server

`Rate` keeps the rate in kbps as a `float`. Its constructor from a string and its `operator=` read
it the same way: the string must contain `kbps`, and `std::stof` reads the number before the
first occurrence, so that whatever `stof` accepts is a rate, zero, a negative value, an infinity
and a NaN included. `getMicrosecondsForPacket` divides the bits of a packet by the rate and
rounds the quotient to a `uint32_t` of microseconds. That conversion is undefined unless the
rounded value fits: a zero rate makes the quotient infinite or NaN, and a negative one makes it
negative.
-/

namespace HicnTransport.Hiperf

/-- `std::string::find`: the first position of `pat` in `s`. -/
def find (s pat : List Char) : Option ℕ :=
  match s with
  | [] => if pat.isEmpty then some 0 else none
  | c :: s' => if pat.isPrefixOf (c :: s') then some 0 else (find s' pat).map (· + 1)

/-- The production rate, `rate_kbps_`. -/
structure Rate where
  rateKbps : FloatValue
  deriving DecidableEq, Repr

/-- `Rate()`. -/
def Rate.init : Rate := ⟨.finite 0⟩

/-- The body of `Rate(const std::string &)` and of `operator=`: the rate `stof` reads before the
first `kbps`, or `std::runtime_error` when there is none. -/
def Rate.read (rate : List Char) : Except CppException Rate :=
  match find rate "kbps".toList with
  | some found => (stof (rate.take found)).map Rate.mk
  | none => .error (.runtimeError ("Format " ++ String.mk rate ++ " not correct"))

/-- `Rate(const std::string &)`. -/
def Rate.ofString (rate : List Char) : Except CppException Rate := Rate.read rate

/-- `operator=(const std::string &)`: the rate read replaces the old one; a throw leaves the old
one in place and leaves the assignment. -/
def Rate.assign (_ : Rate) (rate : List Char) : Except CppException Rate := Rate.read rate

/-- `std::round`: to the nearest integer, halfway cases away from zero. -/
def roundHalfAway (x : ℚ) : ℤ := if 0 ≤ x then ⌊x + 1 / 2⌋ else -⌊-x + 1 / 2⌋

/-- The conversion of an integral value to `uint32_t`, defined only when the value fits. -/
def toUInt32 (z : ℤ) : Option (BitVec 32) :=
  if 0 ≤ z ∧ z < 2 ^ 32 then some (BitVec.ofInt 32 z) else none

/-- `getMicrosecondsForPacket`: the packet's bits over the rate in kbps, rounded to a `uint32_t`
of microseconds, kept exact; `none` where the conversion is undefined. -/
def Rate.getMicrosecondsForPacket (r : Rate) (packetSize : ℕ) : Option (BitVec 32) :=
  match r.rateKbps with
  | .finite q => if q = 0 then none else toUInt32 (roundHalfAway (packetSize * 1000 * 8 / q))
  | .inf _ => some 0
  | .nan => none

theorem find_append_self (pat rest : List Char) : find (pat ++ rest) pat = some 0 := by
  cases pat with
  | nil => cases rest <;> rfl
  | cons c pat => simp [find, List.isPrefixOf_iff_prefix]

theorem find_append_of_not_mem {pre : List Char} {c : Char} (h : c ∉ pre) (pat s : List Char) :
    find (pre ++ s) (c :: pat) = (find s (c :: pat)).map (· + pre.length) := by
  induction pre with
  | nil => simp
  | cons d pre ih =>
    have hcd : c ≠ d := fun hcd => h (hcd ▸ List.mem_cons_self _ _)
    rw [List.cons_append, find, ih (fun hc => h (List.mem_cons_of_mem _ hc))]
    simp [hcd, Option.map_map, Function.comp_def, Nat.add_assoc]

theorem read_append_kbps {pre : List Char} (h : 'k' ∉ pre) (rest : List Char) :
    Rate.read (pre ++ "kbps".toList ++ rest) = (stof pre).map Rate.mk := by
  have hkbps : "kbps".toList = 'k' :: "bps".toList := rfl
  rw [Rate.read, List.append_assoc, hkbps, find_append_of_not_mem h, ← hkbps,
    find_append_self]
  simp [List.take_left']

theorem read_decimal_kbps (n : ℕ) (negative : Bool) (hn : n ≤ floatMax) :
    Rate.read ((if negative then ['-'] else []) ++ decimalDigits n ++ "kbps".toList) =
      .ok ⟨.finite (if negative then -(n : ℚ) else n)⟩ := by
  have hdig := fun c (hc : c ∈ decimalDigits n) => isDigit_of_mem_decimalDigits hc
  obtain ⟨d, ds, hds⟩ := List.exists_cons_of_ne_nil (decimalDigits_ne_nil n)
  have hd := hdig d (hds ▸ List.mem_cons_self _ _)
  have hk : 'k' ∉ (if negative then ['-'] else []) ++ decimalDigits n := by
    intro hk
    rcases List.mem_append.1 hk with hk | hk
    · cases negative <;> simp at hk
    · exact absurd (hdig _ hk) (by decide)
  have hs : readSign (((if negative then ['-'] else []) ++ decimalDigits n).dropWhile isSpace) =
      (negative, decimalDigits n) := by
    cases negative
    · simp [hds, List.dropWhile_cons, isSpace_of_isDigit hd, readSign_of_isDigit hd]
    · simp [List.dropWhile_cons, show isSpace '-' = false from rfl, readSign]
  have hstof := stoFloating_of_digits "stof" floatMax
    (by norm_num [floatMinDen] : 0 < floatMinDen) hs
    (decimalDigits_ne_nil n) hdig
  rw [← List.append_nil (_ ++ "kbps".toList), read_append_kbps hk, stof, hstof,
    decimalValue_decimalDigits, if_neg (by omega)]
  cases negative <;> rfl

theorem roundHalfAway_le_neg_one {x : ℚ} (hx : x ≤ -1 / 2) : roundHalfAway x ≤ -1 := by
  rw [roundHalfAway, if_neg (by linarith), neg_le_neg_iff]
  exact Int.le_floor.2 (by push_cast; linarith)

theorem getMicrosecondsForPacket_zero_rate (packetSize : ℕ) :
    (Rate.mk (.finite 0)).getMicrosecondsForPacket packetSize = none := by
  simp [Rate.getMicrosecondsForPacket]

theorem getMicrosecondsForPacket_of_neg {q : ℚ} (hq : q < 0) {packetSize : ℕ}
    (hsize : -q ≤ 16000 * packetSize) :
    (Rate.mk (.finite q)).getMicrosecondsForPacket packetSize = none := by
  have hx : (packetSize * 1000 * 8 / q : ℚ) ≤ -1 / 2 := by
    rw [div_le_iff_of_neg hq]
    linarith
  have hround := roundHalfAway_le_neg_one hx
  simp [Rate.getMicrosecondsForPacket, hq.ne, toUInt32]
  omega

end HicnTransport.Hiperf
