import HicnTransport.Hiperf.Rate
import HicnTransport.Hiperf.Getopt

/-!
# The command line of `hiperf`

`main` reads its options with `getopt` (see `HicnTransport.Hiperf.getopt`) and handles each in a
`switch`.

The option loop keeps two counters. `role` loses one for every `-S` and gains one for every `-C`;
`options` is set to 1 by every client-specific option and to -1 by every server-specific one.
After the loop `main` refuses a positive `options` with a negative role, a negative `options`
with a positive role, and a zero role. It then takes the first operand as the name and runs the
client when the role is positive and the server when it is negative. Nothing else about `-S` and
`-C` is checked: the role is the count of `-C` less the count of `-S`, and the option class is the
class of the last classified option, so a command line with both `-S` and `-C`, or with options
of both roles, gets through.

A conversion that throws (`stoul`, `stoull`, `stod`, the `Rate` assignment of `-B`) is not caught:
it leaves `main` and ends the program through `std::terminate`. This is the loop outside Windows,
whose `optstring` also has `-D`, `-I` and `-T`. An argument vector is bounded by `ARG_MAX`, far
below the 2^31 options that would overflow `int`, so the counters are integers.
-/

namespace HicnTransport.Hiperf

/-- The `optstring` of `main` outside Windows. -/
def optString : List Char := "DSCf:b:d:W:RM:c:vA:s:rmlK:k:y:p:hi:xE:P:B:ItL:z:T:F:".toList

/-- `auth::CryptoHashType`, which `-y` chooses. -/
inductive CryptoHashType
  | sha256
  | sha512
  | crc32c
  deriving DecidableEq, Repr

/-- The fields of `ClientConfiguration` that `main` sets. `name` and `producerPrefix` keep the text
that `main` gives to `Name` and `Prefix`. -/
structure ClientConfiguration where
  name : List Char
  beta : FloatValue
  dropFactor : FloatValue
  window : FloatValue
  producerCertificate : List Char
  passphrase : List Char
  receiveBufferSize : BitVec 64
  reportIntervalMilliseconds : BitVec 32
  rtc : Bool
  testMode : Bool
  secure : Bool
  producerPrefix : Option (List Char)
  interestLifetime : BitVec 32
  deriving DecidableEq, Repr

/-- `ClientConfiguration()`. -/
def ClientConfiguration.init : ClientConfiguration where
  name := "b001::abcd".toList
  beta := .finite (-1)
  dropFactor := .finite (-1)
  window := .finite (-1)
  producerCertificate := []
  passphrase := []
  receiveBufferSize := 128 * 1024
  reportIntervalMilliseconds := 1000
  rtc := false
  testMode := false
  secure := false
  producerPrefix := none
  interestLifetime := 500

/-- The fields of `ServerConfiguration` that `main` sets. `name` keeps the text that `main` gives
to `Prefix`. -/
structure ServerConfiguration where
  name : List Char
  virtualProducer : Bool
  manifest : Bool
  liveProduction : Bool
  sign : Bool
  downloadSize : BitVec 32
  hashAlgorithm : CryptoHashType
  keystoreName : List Char
  passphrase : List Char
  keystorePassword : List Char
  multiphaseProduce : Bool
  rtc : Bool
  interactive : Bool
  traceBased : Bool
  traceFile : Option (List Char)
  productionRate : Rate
  payloadSize : BitVec 64
  secure : Bool
  deriving DecidableEq, Repr

/-- `ServerConfiguration()`; its rate is the one `Rate("2048kbps")` reads. -/
def ServerConfiguration.init : ServerConfiguration where
  name := "b001::abcd/64".toList
  virtualProducer := true
  manifest := false
  liveProduction := false
  sign := false
  downloadSize := 20 * 1024 * 1024
  hashAlgorithm := .sha256
  keystoreName := []
  passphrase := []
  keystorePassword := "cisco".toList
  multiphaseProduce := false
  rtc := false
  interactive := false
  traceBased := false
  traceFile := none
  productionRate := ⟨.finite 2048⟩
  payloadSize := 1400
  secure := false

/-- The locals of `main` that the option loop sets. -/
structure MainState where
  daemon : Bool
  role : ℤ
  options : ℤ
  logFile : Option (List Char)
  ioModuleName : List Char
  confFile : List Char
  client : ClientConfiguration
  server : ServerConfiguration
  deriving DecidableEq, Repr

/-- The locals of `main` before the loop. -/
def MainState.init : MainState :=
  ⟨false, 0, 0, none, "hicnlight_module".toList, [], .init, .init⟩

/-- How `main` ends: `EXIT_FAILURE` after `usage()`, with the message printed before it; an
exception leaving `main`; or the client or the server built from the configuration and run. -/
inductive MainOutcome
  | exitFailure (message : List Char)
  | terminate (e : CppException)
  | runClient (st : MainState)
  | runServer (st : MainState)
  deriving DecidableEq, Repr

/-- A conversion whose exception leaves `main`. -/
def orTerminate {α : Type} (x : Except CppException α) (k : α → MainState) :
    Except MainOutcome MainState :=
  match x with
  | .ok v => .ok (k v)
  | .error e => .error (.terminate e)

/-- `strncasecmp(s, pat, n) == 0` for a lowercase `pat` of `n` characters or more. -/
def strncasecmpEq (s pat : List Char) (n : ℕ) : Bool :=
  (s.take n).map Char.toLower == pat.take n

/-- The hash algorithm `-y` chooses. An unknown name leaves the algorithm as it is, after the
message that SHA 256 is used. -/
def hashAlgorithmOf (arg : List Char) (current : CryptoHashType) : CryptoHashType :=
  if strncasecmpEq arg "sha256".toList 6 then .sha256
  else if strncasecmpEq arg "sha512".toList 6 then .sha512
  else if strncasecmpEq arg "crc32".toList 5 then .crc32c
  else current

/-- One pass of the `switch` in `main`'s option loop on the value `getopt` returned. -/
def handleOption (st : MainState) (opt : Char) (optarg : Option (List Char)) :
    Except MainOutcome MainState :=
  let arg := optarg.getD []
  match opt with
  -- Common
  | 'D' => .ok { st with daemon := true }
  | 'I' => .ok { st with server := { st.server with interactive := true, traceBased := false } }
  | 'T' => .ok { st with
      server := { st.server with interactive := false, traceBased := true, traceFile := arg } }
  | 'f' => .ok { st with logFile := arg }
  | 'R' => .ok { st with
      client := { st.client with rtc := true }
      server := { st.server with rtc := true } }
  | 'z' => .ok { st with ioModuleName := arg }
  | 'F' => .ok { st with confFile := arg }
  -- Server or Client
  | 'S' => .ok { st with role := st.role - 1 }
  | 'C' => .ok { st with role := st.role + 1 }
  | 'k' => .ok { st with
      server := { st.server with passphrase := arg, sign := true }
      client := { st.client with passphrase := arg } }
  -- Client specific
  | 'b' => orTerminate (stod arg) fun v => { st with
      client := { st.client with beta := v }
      options := 1 }
  | 'd' => orTerminate (stod arg) fun v => { st with
      client := { st.client with dropFactor := v }
      options := 1 }
  | 'W' => orTerminate (stod arg) fun v => { st with
      client := { st.client with window := v }
      options := 1 }
  | 'M' => orTerminate (stoull arg) fun v => { st with
      client := { st.client with receiveBufferSize := v }
      options := 1 }
  | 'P' => .ok { st with client := { st.client with producerPrefix := arg, secure := true } }
  | 'c' => .ok { st with
      client := { st.client with producerCertificate := arg }
      options := 1 }
  | 'i' => orTerminate (stoul arg) fun v => { st with
      client := { st.client with reportIntervalMilliseconds := v.setWidth 32 }
      options := 1 }
  | 't' => .ok { st with
      client := { st.client with testMode := true }
      options := 1 }
  | 'L' => orTerminate (stoul arg) fun v => { st with
      client := { st.client with interestLifetime := v.setWidth 32 }
      options := 1 }
  -- Server specific
  | 'A' => orTerminate (stoul arg) fun v => { st with
      server := { st.server with downloadSize := v.setWidth 32 }
      options := -1 }
  | 's' => orTerminate (stoul arg) fun v => { st with
      server := { st.server with payloadSize := v }
      options := -1 }
  | 'r' => .ok { st with
      server := { st.server with virtualProducer := false }
      options := -1 }
  | 'm' => .ok { st with
      server := { st.server with manifest := true }
      options := -1 }
  | 'l' => .ok { st with
      server := { st.server with liveProduction := true }
      options := -1 }
  | 'K' => .ok { st with
      server := { st.server with keystoreName := arg, sign := true }
      options := -1 }
  | 'y' => .ok { st with
      server := { st.server with hashAlgorithm := hashAlgorithmOf arg st.server.hashAlgorithm }
      options := -1 }
  | 'p' => .ok { st with
      server := { st.server with keystorePassword := arg }
      options := -1 }
  | 'x' => .ok { st with
      server := { st.server with multiphaseProduce := true }
      options := -1 }
  | 'B' => orTerminate (st.server.productionRate.assign (arg.map Char.toLower)) fun r => { st with
      server := { st.server with productionRate := r }
      options := -1 }
  | 'E' => .ok { st with server := { st.server with keystoreName := arg, secure := true } }
  | _ => .error (.exitFailure [])

/-- The option loop of `main`: the options `getopt` returns, in order, until one ends `main`. -/
def optionLoop (st : MainState) : List (Char × Option (List Char)) → Except MainOutcome MainState
  | [] => .ok st
  | (opt, optarg) :: opts =>
    match handleOption st opt optarg with
    | .ok st' => optionLoop st' opts
    | .error e => .error e

/-- `main` on the elements of `argv` after the program's name, up to the point where it runs the
client or the server. -/
def main (argv : List String) : MainOutcome :=
  match optionLoop MainState.init (getopt optString (argv.map String.toList)).1 with
  | .error e => e
  | .ok st =>
    if st.options > 0 ∧ st.role < 0 then
      .exitFailure "Client options cannot be used when using the software in server mode".toList
    else if st.options < 0 ∧ st.role > 0 then
      .exitFailure "Server options cannot be used when using the software in client mode".toList
    else if st.role = 0 then
      .exitFailure "Please specify if running hiperf as client or server.".toList
    else
      match (getopt optString (argv.map String.toList)).2 with
      | [] => .exitFailure "Please specify the name/prefix to use.".toList
      | name :: _ =>
        if st.role > 0 then .runClient { st with client := { st.client with name := name } }
        else .runServer { st with server := { st.server with name := name } }

/-- What an option does to `role`. -/
def roleStep (c : Char) : ℤ := if c = 'S' then -1 else if c = 'C' then 1 else 0

/-- The client-specific options, which set `options` to 1. -/
def clientOptions : List Char := "bdWMcitL".toList

/-- The server-specific options, which set `options` to -1. -/
def serverOptions : List Char := "AsrmlKypxB".toList

/-- What an option does to `options`. -/
def optionsStep (options : ℤ) (c : Char) : ℤ :=
  if c ∈ clientOptions then 1 else if c ∈ serverOptions then -1 else options

/-- Whether an option sets `options`. -/
def isClassified (c : Char) : Bool := decide (c ∈ clientOptions ∨ c ∈ serverOptions)

theorem orTerminate_eq_ok {α : Type} {x : Except CppException α} {k : α → MainState}
    {st' : MainState} (h : orTerminate x k = .ok st') : ∃ v, k v = st' := by
  cases x with
  | ok v => exact ⟨v, Except.ok.inj h⟩
  | error e => cases h

theorem handleOption_counters {st st' : MainState} {opt : Char} {optarg : Option (List Char)}
    (h : handleOption st opt optarg = .ok st') :
    st'.role = st.role + roleStep opt ∧ st'.options = optionsStep st.options opt := by
  unfold handleOption at h
  split at h <;> first | obtain ⟨v, rfl⟩ := orTerminate_eq_ok h | cases h
  all_goals constructor <;> simp [roleStep, optionsStep, clientOptions, serverOptions] <;> omega

theorem optionLoop_counters {st st' : MainState} {opts : List (Char × Option (List Char))}
    (h : optionLoop st opts = .ok st') :
    st'.role = st.role + (opts.map fun o => roleStep o.1).sum ∧
      st'.options = (opts.map Prod.fst).foldl optionsStep st.options := by
  induction opts generalizing st with
  | nil => cases h; simp
  | cons o opts ih =>
    simp only [optionLoop] at h
    split at h
    · next st₁ h₁ =>
      obtain ⟨hrole, hoptions⟩ := handleOption_counters h₁
      obtain ⟨ih₁, ih₂⟩ := ih h
      refine ⟨?_, ?_⟩
      · rw [ih₁, hrole, List.map_cons, List.sum_cons, add_assoc]
      · rw [ih₂, hoptions, List.map_cons, List.foldl_cons]
    · cases h

theorem sum_roleStep (cs : List Char) :
    (cs.map roleStep).sum = cs.count 'C' - cs.count 'S' := by
  induction cs with
  | nil => rfl
  | cons c cs ih =>
    rw [List.map_cons, List.sum_cons, ih, List.count_cons, List.count_cons]
    by_cases hS : c = 'S'
    · subst hS; simp [roleStep]; omega
    · by_cases hC : c = 'C'
      · subst hC; simp [roleStep]; omega
      · simp [roleStep, hS, hC]

theorem foldl_optionsStep (cs : List Char) (o : ℤ) :
    cs.foldl optionsStep o = ((cs.filter isClassified).getLast?.map (optionsStep 0)).getD o := by
  induction cs using List.reverseRecOn with
  | nil => rfl
  | append_singleton cs c ih =>
    rw [List.foldl_append, List.foldl_cons, List.foldl_nil, ih, List.filter_append]
    by_cases hc : isClassified c = true
    · have hstep : ∀ x, optionsStep x c = optionsStep 0 c := by
        simp only [isClassified, decide_eq_true_eq] at hc
        rcases hc with hc | hc <;> simp [optionsStep, hc]
      simp [List.filter_cons, hc, hstep]
    · have hstep : ∀ x, optionsStep x c = x := by
        simp only [isClassified, decide_eq_true_eq, not_or] at hc
        simp [optionsStep, hc.1, hc.2]
      simp [List.filter_cons, hc, hstep]

theorem optionLoop_init_counters {opts : List (Char × Option (List Char))} {st : MainState}
    (h : optionLoop MainState.init opts = .ok st) :
    st.role = (opts.map Prod.fst).count 'C' - (opts.map Prod.fst).count 'S' ∧
      st.options =
        (((opts.map Prod.fst).filter isClassified).getLast?.map (optionsStep 0)).getD 0 := by
  obtain ⟨hrole, hoptions⟩ := optionLoop_counters h
  rw [← sum_roleStep, List.map_map]
  exact ⟨by rw [hrole]; exact zero_add _, by rw [hoptions]; exact foldl_optionsStep _ _⟩

theorem main_of_optionLoop {argv : List String} {st : MainState} {name : List Char}
    {operands : List (List Char)}
    (h : optionLoop MainState.init (getopt optString (argv.map String.toList)).1 = .ok st)
    (hname : (getopt optString (argv.map String.toList)).2 = name :: operands) :
    (st.role < 0 → st.options ≤ 0 →
      main argv = .runServer { st with server := { st.server with name := name } }) ∧
    (0 < st.role → 0 ≤ st.options →
      main argv = .runClient { st with client := { st.client with name := name } }) := by
  refine ⟨fun hrole hoptions => ?_, fun hrole hoptions => ?_⟩ <;> simp only [main, h, hname]
  · rw [if_neg (by omega), if_neg (by omega), if_neg (by omega), if_neg (by omega)]
  · rw [if_neg (by omega), if_neg (by omega), if_neg (by omega), if_pos hrole]

/-- On a command line of separate options then operands, `main` runs the server or the client as
the role counts and the class of the last option decide. -/
theorem main_of_rendered {argv : List String} {opts : List (Char × Option (List Char))}
    {name : List Char} {operands : List (List Char)} {st : MainState}
    (hargv : argv.map String.toList = renderOptions opts ++ name :: operands)
    (hopts : ∀ o ∈ opts, WellFormedOption optString o)
    (hoperands : ∀ a ∈ name :: operands, IsOperand a)
    (h : optionLoop MainState.init opts = .ok st) :
    ((opts.map Prod.fst).count 'C' < (opts.map Prod.fst).count 'S' →
      (((opts.map Prod.fst).filter isClassified).getLast?.map (optionsStep 0)).getD 0 ≤ 0 →
      main argv = .runServer { st with server := { st.server with name := name } }) ∧
    ((opts.map Prod.fst).count 'S' < (opts.map Prod.fst).count 'C' →
      0 ≤ (((opts.map Prod.fst).filter isClassified).getLast?.map (optionsStep 0)).getD 0 →
      main argv = .runClient { st with client := { st.client with name := name } }) := by
  have hget := getopt_renderOptions optString hopts hoperands
  rw [← hargv] at hget
  obtain ⟨hrole, hoptions⟩ := optionLoop_init_counters h
  have hmain := main_of_optionLoop (by rw [hget]; exact h) (by rw [hget])
  refine ⟨fun hS hcl => hmain.1 (by omega) (hoptions ▸ hcl),
    fun hC hcl => hmain.2 (by omega) (hoptions ▸ hcl)⟩

theorem main_of_rendered_server :
    ["-S", "b001::abcd/64"].map String.toList =
        renderOptions [('S', none)] ++ ["b001::abcd/64".toList] ∧
      (∀ o ∈ [('S', (none : Option (List Char)))], WellFormedOption optString o) ∧
      (∀ a ∈ ["b001::abcd/64".toList], IsOperand a) ∧
      ∃ st, optionLoop MainState.init [('S', none)] = .ok st ∧
        (([('S', (none : Option (List Char)))].map Prod.fst).count 'C' <
            ([('S', (none : Option (List Char)))].map Prod.fst).count 'S' →
          ((([('S', (none : Option (List Char)))].map Prod.fst).filter isClassified).getLast?.map
            (optionsStep 0)).getD 0 ≤ 0 →
          main ["-S", "b001::abcd/64"] =
            .runServer { st with server := { st.server with name := "b001::abcd/64".toList } }) ∧
        (([('S', (none : Option (List Char)))].map Prod.fst).count 'S' <
            ([('S', (none : Option (List Char)))].map Prod.fst).count 'C' →
          0 ≤ ((([('S', (none : Option (List Char)))].map Prod.fst).filter isClassified).getLast?.map
            (optionsStep 0)).getD 0 →
          main ["-S", "b001::abcd/64"] =
            .runClient { st with client := { st.client with name := "b001::abcd/64".toList } }) := by
  have hopts : ∀ o ∈ [('S', (none : Option (List Char)))], WellFormedOption optString o := by
    intro o ho
    rw [List.mem_singleton.1 ho]
    exact ⟨by decide, by decide, by decide⟩
  have hoperands : ∀ a ∈ ["b001::abcd/64".toList], IsOperand a := by
    intro a ha c cs h
    rw [List.mem_singleton.1 ha] at h
    cases h
  exact ⟨rfl, hopts, hoperands, _, rfl, main_of_rendered rfl hopts hoperands rfl⟩

/-- `main` runs a role whatever other roles and options come with it, and a command line of one
role still ends in `std::terminate` when a conversion throws. -/
theorem mixed_roles_run :
    (∃ st, main ["-S", "-S", "-C", "b001::abcd/64"] = .runServer st) ∧
    (∃ st, main ["-S", "-W", "4", "-A", "1000", "b001::abcd/64"] = .runServer st ∧
      st.client.window = .finite 4) ∧
    (∃ st, main ["-C", "-A", "1000", "-W", "4", "b001::abcd"] = .runClient st ∧
      st.server.downloadSize = 1000) ∧
    main ["-C", "-i", "abc", "b001::abcd"] = .terminate (.invalidArgument "stoul") :=
  ⟨⟨_, rfl⟩, ⟨_, rfl, rfl⟩, ⟨_, rfl, rfl⟩, rfl⟩

/-- `0kbps`, negative rates and `infkbps` are accepted as rates, and a zero or negative rate leaves
the interval of a packet undefined; `main` takes `-B 0KBPS` for a server. -/
theorem zero_rate_accepted :
    (∀ (n : Fin (2 ^ 24)) (negative : Bool),
      Rate.ofString ((if negative then ['-'] else []) ++ decimalDigits n ++ "kbps".toList) =
        .ok ⟨.finite (if negative then -(n : ℚ) else n)⟩) ∧
    Rate.ofString "infkbps".toList = .ok ⟨.inf false⟩ ∧
    (∀ packetSize, (Rate.mk (.finite 0)).getMicrosecondsForPacket packetSize = none) ∧
    (∀ packetSize, (Rate.mk (.finite (-5))).getMicrosecondsForPacket (packetSize + 1) = none) ∧
    ∃ st, main ["-S", "-B", "0KBPS", "b001::abcd/64"] = .runServer st ∧
      st.server.productionRate = ⟨.finite 0⟩ := by
  refine ⟨fun n negative => read_decimal_kbps n negative ?_, rfl,
    getMicrosecondsForPacket_zero_rate, fun packetSize => ?_, ⟨_, rfl, rfl⟩⟩
  · have := n.isLt
    norm_num [floatMax] at this ⊢
    omega
  · exact getMicrosecondsForPacket_of_neg (by norm_num) (by push_cast; linarith)

end HicnTransport.Hiperf
