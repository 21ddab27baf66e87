import Mathlib.Tactic

/-!
# Trace-driven RTC production

With `-T <file>` the hiperf server reads a trace of `(timestamp, size)` pairs, one per line,
through `parseTraceFile`, and replays it: every tick of `rtc_timer_` runs
`sendRTCContentObjectCallbackWithTrace`, which produces a datagram as long as the current entry
says (at most the payload and 1400 bytes), schedules the next tick after the difference of the
next two timestamps, and moves `trace_index_` on, back to the first entry after the last. The
difference is a `uint64_t` that the timer reads as signed microseconds.

`parseTraceFile` fails only on a file it cannot open: an empty file gives an empty trace, and the
first tick then reads `trace_[0]` of an empty vector. On a nonempty trace with nondecreasing
timestamps whose gaps fit the timer's signed nanoseconds every tick does what the replay is meant
to do.
-/

namespace HicnTransport.Hiperf

/-- `packet_t`. -/
structure PacketT where
  timestamp : BitVec 64
  size : BitVec 32
  deriving DecidableEq, Repr, Inhabited

/-- The `istringstream` a line is read through: the characters left, `failbit` and `eofbit`. -/
structure LineStream where
  rest : List Char
  fail : Bool
  eof : Bool
  deriving DecidableEq, Repr

/-- `isspace` in the classic locale. -/
def isSpace (c : Char) : Bool :=
  c == ' ' || c == '\t' || c == '\n' || c == '\x0b' || c == '\x0c' || c == '\r'

/-- The value of a string of decimal digits. -/
def decimalValue (digits : List Char) : ℕ :=
  digits.foldl (fun n d => 10 * n + (d.toNat - '0'.toNat)) 0

/-- The optional sign `num_get` reads before the digits: whether it is a minus, and what
follows. -/
def readSign : List Char → Bool × List Char
  | '-' :: r => (true, r)
  | '+' :: r => (false, r)
  | r => (false, r)

/-- libstdc++'s `operator>>` into a `w`-bit unsigned integer in base 10: sign and digits read,
`failbit` on no digit or overflow, a minus sign negating modulo `2^w`. -/
def extractUnsigned (w : ℕ) (s : LineStream) : Option (BitVec w) × LineStream :=
  if s.fail || s.eof then (none, { s with fail := true })
  else
    let r := s.rest.dropWhile isSpace
    if r.isEmpty then (none, ⟨[], true, true⟩)
    else
      let signed := readSign r
      let digits := signed.2.takeWhile Char.isDigit
      let r := signed.2.dropWhile Char.isDigit
      if digits.isEmpty then (some 0, ⟨r, true, r.isEmpty⟩)
      else if 2 ^ w ≤ decimalValue digits then (some (BitVec.allOnes w), ⟨r, true, r.isEmpty⟩)
      else
        let v := BitVec.ofNat w (decimalValue digits)
        (some (if signed.1 then -v else v), ⟨r, false, r.isEmpty⟩)

/-- `iss >> packet.timestamp >> packet.size` on one line, into a `packet_t` that holds `uninit`
before, the value of an uninitialised local. -/
def parseLine (uninit : PacketT) (line : List Char) : PacketT :=
  let t := extractUnsigned 64 ⟨line, false, false⟩
  let z := extractUnsigned 32 t.2
  ⟨t.1.getD uninit.timestamp, z.1.getD uninit.size⟩

/-- The lines `std::getline` reads: one per newline, and a last one without newline when the
file does not end with one. -/
def getlines (content : List Char) : List (List Char) :=
  let parts := content.splitOn '\n'
  if parts.getLast? = some [] then parts.dropLast else parts

/-- `parseTraceFile`: `none` is a file that cannot be opened. Every line read appends a packet to
`trace_`; `uninit i` is what the uninitialised `packet_t` of line `i` holds. -/
def parseTraceFile (file : Option (List Char)) (uninit : ℕ → PacketT) (trace : List PacketT) :
    ℤ × List PacketT :=
  match file with
  | none => (-1, trace)
  | some content => (0, trace ++ (getlines content).mapIdx fun i line => parseLine (uninit i) line)

/-- A number in decimal, as `operator<<` writes it. -/
def decimalDigits (n : ℕ) : List Char :=
  if n = 0 then ['0'] else ((Nat.digits 10 n).map Nat.digitChar).reverse

/-- The line a trace recorder writes for a packet: the timestamp and the size in decimal. -/
def traceLine (p : PacketT) : List Char :=
  decimalDigits p.timestamp.toNat ++ ' ' :: decimalDigits p.size.toNat

/-- A trace file: the packets' lines, each ended by a newline. -/
def renderTrace (trace : List PacketT) : List Char :=
  ['\n'].intercalate (trace.map traceLine ++ [[]])

theorem digitChar_spec : ∀ d, d < 10 →
    (Nat.digitChar d).isDigit = true ∧ (Nat.digitChar d).toNat - '0'.toNat = d := by
  decide

theorem isSpace_of_isDigit {c : Char} (h : c.isDigit = true) : isSpace c = false := by
  by_contra hs
  simp only [isSpace, Bool.not_eq_false, Bool.or_eq_true, beq_iff_eq] at hs
  rcases hs with ((((hs | hs) | hs) | hs) | hs) | hs <;> subst hs <;> exact absurd h (by decide)

theorem readSign_of_isDigit {c : Char} (h : c.isDigit = true) (r : List Char) :
    readSign (c :: r) = (false, c :: r) := by
  have h1 : c ≠ '-' := by rintro rfl; exact absurd h (by decide)
  have h2 : c ≠ '+' := by rintro rfl; exact absurd h (by decide)
  unfold readSign
  split <;> simp_all

theorem isDigit_of_mem_decimalDigits {n : ℕ} {c : Char} (h : c ∈ decimalDigits n) :
    c.isDigit = true := by
  unfold decimalDigits at h
  split at h
  · rw [List.mem_singleton.1 h]; rfl
  · obtain ⟨d, hd, rfl⟩ := List.mem_map.1 (List.mem_reverse.1 h)
    exact (digitChar_spec d (Nat.digits_lt_base (by norm_num) hd)).1

theorem decimalDigits_ne_nil (n : ℕ) : decimalDigits n ≠ [] := by
  unfold decimalDigits
  split
  · simp
  · simpa using Nat.digits_ne_nil_iff_ne_zero.2 ‹_›

theorem foldr_digitChar (L : List ℕ) (h : ∀ d ∈ L, d < 10) :
    (L.map Nat.digitChar).foldr (fun c n => 10 * n + (c.toNat - '0'.toNat)) 0 =
      Nat.ofDigits 10 L := by
  induction L with
  | nil => rfl
  | cons d L ih =>
    rw [List.map_cons, List.foldr_cons, ih (fun x hx => h x (List.mem_cons_of_mem _ hx)),
      (digitChar_spec d (h d (List.mem_cons_self _ _))).2, Nat.ofDigits_cons]
    ring

theorem decimalValue_decimalDigits (n : ℕ) : decimalValue (decimalDigits n) = n := by
  unfold decimalDigits
  split
  · subst n; rfl
  · rw [decimalValue, List.foldl_reverse,
      foldr_digitChar _ (fun d hd => Nat.digits_lt_base (by norm_num) hd), Nat.ofDigits_digits]

theorem extractUnsigned_digits (w : ℕ) (blanks ds rest : List Char)
    (hb : ∀ c ∈ blanks, isSpace c = true) (hds : ds ≠ []) (hdig : ∀ c ∈ ds, c.isDigit = true)
    (hrest : ∀ c ∈ rest.head?, c.isDigit = false) (hlt : decimalValue ds < 2 ^ w) :
    extractUnsigned w ⟨blanks ++ (ds ++ rest), false, false⟩ =
      (some (BitVec.ofNat w (decimalValue ds)), ⟨rest, false, rest.isEmpty⟩) := by
  obtain ⟨c, cs, rfl⟩ := List.exists_cons_of_ne_nil hds
  have hc := hdig c (List.mem_cons_self _ _)
  have hstop : rest.takeWhile Char.isDigit = [] ∧ rest.dropWhile Char.isDigit = rest := by
    cases rest with
    | nil => exact ⟨rfl, rfl⟩
    | cons r rs =>
      have hr := hrest r rfl
      exact ⟨List.takeWhile_cons_of_neg (by simp [hr]), List.dropWhile_cons_of_neg (by simp [hr])⟩
  have hdrop : (blanks ++ c :: (cs ++ rest)).dropWhile isSpace = c :: (cs ++ rest) := by
    rw [List.dropWhile_append_of_pos hb,
      List.dropWhile_cons_of_neg (by simp [isSpace_of_isDigit hc])]
  have htake : (c :: (cs ++ rest)).takeWhile Char.isDigit = c :: cs := by
    rw [← List.cons_append, List.takeWhile_append_of_pos hdig, hstop.1, List.append_nil]
  have hdropd : (c :: (cs ++ rest)).dropWhile Char.isDigit = rest := by
    rw [← List.cons_append, List.dropWhile_append_of_pos hdig, hstop.2]
  simp only [List.cons_append, extractUnsigned, Bool.false_or, Bool.false_eq_true, if_false,
    hdrop, readSign_of_isDigit hc, htake, hdropd, List.isEmpty_cons, not_le.2 hlt]

/-- A line that is exactly a decimal timestamp below `2^64`, one blank and a decimal size below
`2^32`, standing for the packet `p`. -/
def IsTraceLine (line : List Char) (p : PacketT) : Prop :=
  ∃ ts sz, line = ts ++ ' ' :: sz ∧ ts ≠ [] ∧ sz ≠ [] ∧ (∀ c ∈ ts, c.isDigit = true) ∧
    (∀ c ∈ sz, c.isDigit = true) ∧ decimalValue ts = p.timestamp.toNat ∧
    decimalValue sz = p.size.toNat

theorem parseLine_of_isTraceLine {line : List Char} {p : PacketT} (h : IsTraceLine line p)
    (uninit : PacketT) : parseLine uninit line = p := by
  obtain ⟨ts, sz, rfl, hts, hsz, hdt, hds, hvt, hvs⟩ := h
  have h1 := extractUnsigned_digits 64 [] ts (' ' :: sz) (by simp) hts hdt
    (fun c hc => by cases hc; rfl) (hvt ▸ p.timestamp.isLt)
  have h2 := extractUnsigned_digits 32 [' '] sz [] (by simp [isSpace]) hsz hds (by simp)
    (hvs ▸ p.size.isLt)
  rw [List.nil_append] at h1
  rw [List.append_nil, List.singleton_append] at h2
  simp only [parseLine, h1, List.isEmpty_cons, h2, Option.getD_some, hvt, hvs,
    BitVec.ofNat_toNat, BitVec.setWidth_eq]

theorem mapIdx_parseLine {lines : List (List Char)} {ps : List PacketT}
    (h : List.Forall₂ IsTraceLine lines ps) (uninit : ℕ → PacketT) :
    lines.mapIdx (fun i line => parseLine (uninit i) line) = ps := by
  induction h generalizing uninit with
  | nil => rfl
  | cons hl _ ih => rw [List.mapIdx_cons, parseLine_of_isTraceLine hl, ih]

theorem isTraceLine_traceLine (p : PacketT) : IsTraceLine (traceLine p) p :=
  ⟨_, _, rfl, decimalDigits_ne_nil _, decimalDigits_ne_nil _,
    fun _ hc => isDigit_of_mem_decimalDigits hc, fun _ hc => isDigit_of_mem_decimalDigits hc,
    decimalValue_decimalDigits _, decimalValue_decimalDigits _⟩

theorem getlines_renderTrace (trace : List PacketT) :
    getlines (renderTrace trace) = trace.map traceLine := by
  have hnl : ∀ l ∈ trace.map traceLine ++ [[]], '\n' ∉ l := by
    intro l hl hn
    simp only [List.mem_append, List.mem_map, List.mem_singleton] at hl
    rcases hl with ⟨p, -, rfl⟩ | rfl
    · simp only [traceLine, List.mem_append, List.mem_cons] at hn
      rcases hn with hn | hn | hn
      · exact absurd (isDigit_of_mem_decimalDigits hn) (by decide)
      · exact absurd hn (by decide)
      · exact absurd (isDigit_of_mem_decimalDigits hn) (by decide)
    · exact List.not_mem_nil _ hn
  have hsplit : (['\n'].intercalate (trace.map traceLine ++ [[]])).splitOn '\n' =
      trace.map traceLine ++ [[]] := List.splitOn_intercalate _ _ hnl (by simp)
  rw [getlines, renderTrace, hsplit]
  simp

/-- Every trace written one packet a line, in decimal, is read back as it was written. -/
theorem parseTraceFile_renderTrace (trace : List PacketT) (uninit : ℕ → PacketT) :
    parseTraceFile (some (renderTrace trace)) uninit [] = (0, trace) := by
  simp only [parseTraceFile, getlines_renderTrace, List.nil_append, Prod.mk.injEq, true_and]
  exact mapIdx_parseLine (List.forall₂_map_left_iff.2
    (List.forall₂_same.2 fun p _ => isTraceLine_traceLine p)) uninit

/-- `ERROR_SETUP`. -/
def errorSetup : ℤ := -5

/-- `run` in trace-based mode up to `io_service_.run()`: `ERROR_SETUP` without a readable trace
file, otherwise the trace it replays. -/
def runTraceBased (traceFile : Option String) (files : String → Option (List Char))
    (uninit : ℕ → PacketT) (trace : List PacketT) : Except ℤ (List PacketT) :=
  match traceFile with
  | none => .error errorSetup
  | some path =>
    if (parseTraceFile (files path) uninit trace).1 < 0 then .error errorSetup
    else .ok (parseTraceFile (files path) uninit trace).2

/-- `run` replays every readable file whatever its lines hold: missing sizes stay uninitialised,
missing numbers read 0, a minus sign wraps, and trailing text is ignored. -/
theorem malformed_trace_accepted (path : String) (content : List Char) (uninit : ℕ → PacketT) :
    (∃ trace, runTraceBased (some path) (fun _ => some content) uninit [] = .ok trace) ∧
    runTraceBased (some path) (fun _ => some "5\nabc\n-1 7 junk\n".toList) uninit [] =
      .ok [⟨5, (uninit 0).size⟩, ⟨0, (uninit 1).size⟩, ⟨0xffffffffffffffff#64, 7⟩] :=
  ⟨⟨_, rfl⟩, rfl⟩

/-- What stops a tick: reading `trace_` past its end, or `% trace_.size()` on an empty trace. -/
inductive Fault
  | indexOutOfRange
  | divisionByZero
  deriving DecidableEq, Repr

/-- What one tick does: the length of the datagram it produces, the microseconds until the next
tick, and the new `trace_index_`. -/
structure Tick where
  packetLen : BitVec 32
  scheduleNext : BitVec 64
  traceIndex : BitVec 32
  deriving DecidableEq, Repr, Inhabited

/-- `sendRTCContentObjectCallbackWithTrace` on a tick that completed with success; every payload
holds `payload_size_` bytes. -/
def sendRTCContentObjectCallbackWithTrace (payloadSize : ℕ) (trace : List PacketT)
    (traceIndex : BitVec 32) : Except Fault Tick :=
  match trace.get? traceIndex.toNat with
  | none => .error .indexOutOfRange
  | some p =>
    let packetLen := if payloadSize < p.size.toNat then BitVec.ofNat 32 payloadSize else p.size
    let packetLen := if 1400 < packetLen then 1400 else packetLen
    let nextIndex := traceIndex + 1
    let scheduleNext := if nextIndex.toNat < trace.length then
        (trace.getD nextIndex.toNat p).timestamp - p.timestamp
      else 1000
    if trace.length = 0 then .error .divisionByZero
    else .ok ⟨packetLen, scheduleNext, BitVec.ofNat 32 (nextIndex.toNat % trace.length)⟩

/-- `rtc_timer_.expires_from_now(std::chrono::microseconds(schedule_next))`: the signed count in
nanoseconds, 0 when negative (the timer fires at once), `none` on signed overflow. -/
def timerWait (scheduleNext : BitVec 64) : Option ℕ :=
  if -2 ^ 63 ≤ scheduleNext.toInt * 1000 ∧ scheduleNext.toInt * 1000 < 2 ^ 63 then
    some (scheduleNext.toInt * 1000).toNat
  else none

theorem timerWait_of_lt {x : BitVec 64} (h : 1000 * x.toNat < 2 ^ 63) :
    timerWait x = some (1000 * x.toNat) := by
  have hx : x.toInt = x.toNat := by
    rw [BitVec.toInt_eq_toNat_cond, if_pos (by omega)]
  rw [timerWait, hx, if_pos (by omega)]
  congr 1
  omega

/-- `n` ticks from `trace_index_ = i`: what each did, or the fault that stopped them. -/
def ticks (payloadSize : ℕ) (trace : List PacketT) : ℕ → BitVec 32 → Except Fault (List Tick)
  | 0, _ => .ok []
  | n + 1, i =>
    match sendRTCContentObjectCallbackWithTrace payloadSize trace i with
    | .error e => .error e
    | .ok t => (ticks payloadSize trace n t.traceIndex).map (t :: ·)

/-- What the replay is meant to do on entry `j`: `min(size, payload, 1400)` bytes, the next tick
after the next timestamp difference (1000 µs after the last entry), an index inside the trace. -/
def TickSpec (payloadSize : ℕ) (trace : List PacketT) (j : ℕ) (t : Tick) : Prop :=
  t.packetLen.toNat = min (min (trace.getD j default).size.toNat payloadSize) 1400 ∧
    t.scheduleNext.toNat = (if j + 1 < trace.length then
      (trace.getD (j + 1) default).timestamp.toNat - (trace.getD j default).timestamp.toNat
      else 1000) ∧
    t.traceIndex.toNat < trace.length

/-- The replay law for `n` ticks from the start: none faults, and tick `k` does what entry
`k mod size` asks. -/
def ReplayLaw (payloadSize : ℕ) (trace : List PacketT) (n : ℕ) : Prop :=
  ∃ ts, ticks payloadSize trace n 0 = .ok ts ∧ ts.length = n ∧
    ∀ k < n, TickSpec payloadSize trace (k % trace.length) (ts.getD k default)

/-- The timer law for `n` ticks from the start: the timer each tick arms waits a thousand
nanoseconds for every microsecond the tick computed. -/
def TimerLaw (payloadSize : ℕ) (trace : List PacketT) (n : ℕ) : Prop :=
  ∀ ts, ticks payloadSize trace n 0 = .ok ts →
    ∀ t ∈ ts, timerWait t.scheduleNext = some (1000 * t.scheduleNext.toNat)

section Replay

variable {payloadSize : ℕ} {trace : List PacketT}

/-- Every gap between consecutive timestamps fits the steady clock's signed nanoseconds. -/
def GapsFitTimer (trace : List PacketT) : Prop :=
  ∀ j, j + 1 < trace.length → 1000 * ((trace.getD (j + 1) default).timestamp.toNat -
    (trace.getD j default).timestamp.toNat) < 2 ^ 63

/-- Every timestamp is at most the next one. -/
def TimestampsSorted (trace : List PacketT) : Prop :=
  ∀ j, j + 1 < trace.length →
    (trace.getD j default).timestamp ≤ (trace.getD (j + 1) default).timestamp

theorem tick_of_lt_length (hlen : trace.length < 2 ^ 32) (hpay : payloadSize < 2 ^ 32) {j : ℕ}
    (hj : j < trace.length) :
    ∃ t, sendRTCContentObjectCallbackWithTrace payloadSize trace (BitVec.ofNat 32 j) = .ok t ∧
      t.packetLen.toNat = min (min (trace.getD j default).size.toNat payloadSize) 1400 ∧
      t.scheduleNext = (if j + 1 < trace.length then
        (trace.getD (j + 1) default).timestamp - (trace.getD j default).timestamp else 1000) ∧
      t.traceIndex = BitVec.ofNat 32 ((j + 1) % trace.length) := by
  have hj32 : (BitVec.ofNat 32 j).toNat = j := by
    rw [BitVec.toNat_ofNat]; exact Nat.mod_eq_of_lt (by omega)
  have hnext : (BitVec.ofNat 32 j + 1).toNat = j + 1 := by
    rw [BitVec.toNat_add, hj32, show (1 : BitVec 32).toNat = 1 from rfl]
    exact Nat.mod_eq_of_lt (by omega)
  have hget : trace.get? j = some (trace.getD j default) := by
    rw [List.get?_eq_getElem?, List.getElem?_eq_getElem hj, List.getD_eq_getElem _ _ hj]
  have hne : trace.length ≠ 0 := by omega
  simp only [sendRTCContentObjectCallbackWithTrace, hj32, hget, hnext, hne, if_false]
  refine ⟨_, rfl, ?_, ?_, rfl⟩
  · have hs := (trace.getD j default).size.isLt
    have h1400 : (1400 : BitVec 32).toNat = 1400 := rfl
    have hp : (BitVec.ofNat 32 payloadSize).toNat = payloadSize := by
      rw [BitVec.toNat_ofNat]; exact Nat.mod_eq_of_lt hpay
    split_ifs <;> simp only [BitVec.lt_def, h1400, hp] at * <;> omega
  · dsimp only
    split_ifs with h
    · rw [List.getD_eq_getElem _ _ h, List.getD_eq_getElem _ _ h]
    · rfl

theorem tick_spec (hlen : trace.length < 2 ^ 32) (hpay : payloadSize < 2 ^ 32)
    (hsorted : TimestampsSorted trace) {j : ℕ} (hj : j < trace.length) :
    ∃ t, sendRTCContentObjectCallbackWithTrace payloadSize trace (BitVec.ofNat 32 j) = .ok t ∧
      TickSpec payloadSize trace j t ∧ t.traceIndex = BitVec.ofNat 32 ((j + 1) % trace.length) := by
  obtain ⟨t, ht, hpl, hsn, hidx⟩ := tick_of_lt_length hlen hpay hj
  refine ⟨t, ht, ⟨hpl, ?_, ?_⟩, hidx⟩
  · rw [hsn]
    split_ifs with h
    · have hs := BitVec.le_def.1 (hsorted j h)
      rw [BitVec.toNat_sub]
      omega
    · rfl
  · rw [hidx, BitVec.toNat_ofNat]
    exact lt_of_le_of_lt (Nat.mod_le _ _) (Nat.mod_lt _ (by omega))

theorem ticks_spec (hlen : trace.length < 2 ^ 32) (hpay : payloadSize < 2 ^ 32)
    (hsorted : TimestampsSorted trace) :
    ∀ n j, j < trace.length → ∃ ts, ticks payloadSize trace n (BitVec.ofNat 32 j) = .ok ts ∧
      ts.length = n ∧ ∀ k < n, TickSpec payloadSize trace ((j + k) % trace.length) (ts.getD k default)
  | 0, _, _ => ⟨[], rfl, rfl, fun _ h => absurd h (Nat.not_lt_zero _)⟩
  | n + 1, j, hj => by
    obtain ⟨t, ht, hspec, hidx⟩ := tick_spec hlen hpay hsorted hj
    obtain ⟨ts, hts, hlen', hall⟩ :=
      ticks_spec hlen hpay hsorted n ((j + 1) % trace.length) (Nat.mod_lt _ (by omega))
    refine ⟨t :: ts, by simp [ticks, ht, hidx, hts, Except.map], by simp [hlen'], fun k hk => ?_⟩
    cases k with
    | zero => simpa [Nat.mod_eq_of_lt hj] using hspec
    | succ k =>
      have e : ((j + 1) % trace.length + k) % trace.length = (j + (k + 1)) % trace.length := by
        rw [Nat.mod_add_mod, Nat.add_right_comm, Nat.add_assoc]
      simpa [e] using hall k (by omega)

/-- On a nonempty trace with nondecreasing timestamps whose gaps fit the timer, every number of
ticks replays the trace as meant and the timer waits what each tick computed. -/
theorem replayLaw_of_sorted (hne : trace ≠ []) (hlen : trace.length < 2 ^ 32)
    (hpay : payloadSize < 2 ^ 32) (hsorted : TimestampsSorted trace) (hgaps : GapsFitTimer trace)
    (n : ℕ) : ReplayLaw payloadSize trace n ∧ TimerLaw payloadSize trace n := by
  obtain ⟨ts, hts, hlen', hall⟩ :=
    ticks_spec hlen hpay hsorted n 0 (List.length_pos.2 hne)
  refine ⟨⟨ts, hts, hlen', fun k hk => by simpa using hall k hk⟩, fun ts' hts' t ht => ?_⟩
  obtain rfl : ts = ts' := Except.ok.inj (hts.symm.trans hts')
  obtain ⟨k, hk, rfl⟩ := List.getElem_of_mem ht
  have hspec := (hall k (hlen' ▸ hk)).2.1
  rw [List.getD_eq_getElem _ _ hk] at hspec
  refine timerWait_of_lt ?_
  rw [hspec]
  split_ifs with h
  · exact hgaps _ h
  · norm_num

theorem replayLaw_two_entries :
    [(⟨1, 100⟩ : PacketT), ⟨5, 200⟩] ≠ [] ∧ [(⟨1, 100⟩ : PacketT), ⟨5, 200⟩].length < 2 ^ 32 ∧
      1400 < 2 ^ 32 ∧ TimestampsSorted [⟨1, 100⟩, ⟨5, 200⟩] ∧
      GapsFitTimer [⟨1, 100⟩, ⟨5, 200⟩] ∧
      ReplayLaw 1400 [⟨1, 100⟩, ⟨5, 200⟩] 3 ∧ TimerLaw 1400 [⟨1, 100⟩, ⟨5, 200⟩] 3 := by
  have hs : TimestampsSorted [⟨1, 100⟩, ⟨5, 200⟩] := fun j hj => by
    obtain rfl : j = 0 := by simp at hj; omega
    decide
  have hg : GapsFitTimer [⟨1, 100⟩, ⟨5, 200⟩] := fun j hj => by
    obtain rfl : j = 0 := by simp at hj; omega
    decide
  exact ⟨by decide, by decide, by decide, hs, hg,
    replayLaw_of_sorted (by decide) (by decide) (by decide) hs hg 3⟩

end Replay

/-- An empty trace file is accepted and its first tick reads `trace_[0]` past the end; decreasing
timestamps wrap `schedule_next` to `2^64 - 1`, which the timer reads as -1 µs. -/
theorem empty_trace_accepted (uninit : ℕ → PacketT) (payloadSize : ℕ) :
    (parseTraceFile (some []) uninit [] = (0, []) ∧
      ticks payloadSize [] 1 0 = .error .indexOutOfRange ∧ ¬ ReplayLaw payloadSize [] 1) ∧
    (parseTraceFile (some "2 100\n1 100\n".toList) uninit [] = (0, [⟨2, 100⟩, ⟨1, 100⟩]) ∧
      ticks 1400 [⟨2, 100⟩, ⟨1, 100⟩] 1 0 = .ok [⟨100, 0xffffffffffffffff#64, 1⟩] ∧
      ¬ ReplayLaw 1400 [⟨2, 100⟩, ⟨1, 100⟩] 1) := by
  have hempty : ticks payloadSize [] 1 0 = .error .indexOutOfRange := rfl
  have hwrap : ticks 1400 [⟨2, 100⟩, ⟨1, 100⟩] 1 0 = .ok [⟨100, 0xffffffffffffffff#64, 1⟩] := rfl
  refine ⟨⟨rfl, hempty, fun ⟨ts, h, _⟩ => ?_⟩, ⟨rfl, hwrap, fun ⟨ts, h, _, hall⟩ => ?_⟩⟩
  · rw [hempty] at h
    cases h
  · rw [hwrap] at h
    cases h
    exact absurd (hall 0 (by decide)).2.1 (by decide)

end HicnTransport.Hiperf
