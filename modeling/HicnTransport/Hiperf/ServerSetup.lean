import HicnTransport.Hiperf.Options
import HicnTransport.Hiperf.ContentRing

/-!
# Setting the server up

`HIperfServer::setup` chooses the production protocol and the signer, sets the data packet size,
and installs the server's handlers on the producer socket: none in RTC mode, where `run` starts
the RTC timer instead; `virtualProcessInterest` with the virtual producer; `asyncProcessInterest`
with live production; and otherwise it produces the whole content once, at suffix 0. Whether the
socket accepts an option is decided by the socket, which is not under src/, so it is a
parameter, as is the address family of the configured prefix.

The handlers of the two modes exclude each other: on every configuration that `setup` and `run`
accept, the ring of content objects receives ticks only or interests only, and it refines the
fresh-payload server on every run.
-/

namespace HicnTransport.Hiperf

/-- `ProductionProtocolAlgorithms`. -/
inductive ProductionProtocol
  | byteStream
  | rtcProd
  deriving DecidableEq, Repr

/-- The signer `setup` gives the socket: a `SymmetricSigner` over the passphrase, or the signer of
the identity in the keystore. -/
inductive SignerChoice
  | symmetric (passphrase : List Char)
  | identity (keystoreName : List Char)
  deriving DecidableEq, Repr

/-- The socket options whose result `setup` asks for. -/
inductive SocketOption
  | signer
  | contentObjectExpiryTime
  | makeManifest
  | outputBufferSize
  | cacheMiss
  | contentProduced
  deriving DecidableEq, Repr

/-- The `CACHE_MISS` callbacks `setup` installs. -/
inductive InterestHandler
  | asyncProcessInterest
  | virtualProcessInterest
  deriving DecidableEq, Repr

/-- What `setup` leaves on the producer socket: protocol, signer, `DATA_PACKET_SIZE`, the options
it sets, whether it produced the content, and the `CACHE_MISS` and `CONTENT_PRODUCED` callbacks. -/
structure ProducerSetup where
  productionProtocol : ProductionProtocol
  signer : Option SignerChoice
  dataPacketSize : BitVec 32
  makeManifest : Option Bool
  outputBufferSize : Option (BitVec 32)
  producedAtSetup : Bool
  cacheMiss : Option InterestHandler
  contentProduced : Bool
  deriving DecidableEq, Repr

/-- What `run` starts before `io_service_.run()` in RTC mode: reading lines for `handleInput`,
the replay of a trace, or constant-rate ticks. -/
inductive RtcStart
  | interactive
  | traceReplay (trace : List PacketT)
  | constantRate
  deriving DecidableEq, Repr

namespace ServerConfiguration

variable (conf : ServerConfiguration)

/-- The signer of `setup`: with `sign`, over the passphrase if there is one, else from the
keystore if one is named, else `ERROR_SETUP`. -/
def signerChoice : Except ℤ (Option SignerChoice) :=
  if conf.sign then
    if conf.passphrase ≠ [] then .ok (some (.symmetric conf.passphrase))
    else if conf.keystoreName ≠ [] then .ok (some (.identity conf.keystoreName))
    else .error errorSetup
  else .ok none

/-- `(uint32_t)(payload_size_ + rtc_header_size + (AF_INET ? 40 : 60))`, the sum taken in
`size_t`. -/
def dataPacketSize (family : AddressFamily) : BitVec 32 :=
  (conf.payloadSize +
    BitVec.ofNat 64 ((if conf.rtc then 12 else 0) + if family = .inet then 40 else 60)).setWidth 32

/-- The handlers part of `setup`: nothing in RTC mode; otherwise the options, then the content
produced at once, `asyncProcessInterest`, or with the virtual producer `virtualProcessInterest`. -/
def installHandlers (accepts : SocketOption → Bool) (base : ProducerSetup) :
    Except ℤ ProducerSetup :=
  if conf.rtc then .ok base
  else if !conf.virtualProducer then
    if !accepts .contentObjectExpiryTime then .error errorSetup
    else if !accepts .makeManifest then .error errorSetup
    else if !accepts .outputBufferSize then .error errorSetup
    else if !conf.liveProduction then
      .ok { base with
        makeManifest := some conf.manifest
        outputBufferSize := some 200000
        producedAtSetup := true
        contentProduced := accepts .contentProduced }
    else if !accepts .cacheMiss then .error errorSetup
    else
      .ok { base with
        makeManifest := some conf.manifest
        outputBufferSize := some 200000
        cacheMiss := some .asyncProcessInterest
        contentProduced := accepts .contentProduced }
  else if !accepts .outputBufferSize then .error errorSetup
  else if !accepts .cacheMiss then .error errorSetup
  else
    .ok { base with
      outputBufferSize := some 0
      cacheMiss := some .virtualProcessInterest
      contentProduced := accepts .contentProduced }

end ServerConfiguration

/-- `HIperfServer::setup` for a prefix of family `family`, on a socket that sets option `o` when
`accepts o`: `ERROR_SETUP`, or what it leaves on the socket. -/
def ServerConfiguration.setup (conf : ServerConfiguration) (family : AddressFamily)
    (accepts : SocketOption → Bool) : Except ℤ ProducerSetup :=
  match conf.signerChoice with
  | .error e => .error e
  | .ok signer =>
    if conf.sign ∧ !accepts .signer then .error errorSetup
    else
      conf.installHandlers accepts
        ⟨if conf.rtc then .rtcProd else .byteStream, signer, conf.dataPacketSize family, none, none,
          false, none, false⟩

/-- `HIperfServer::run` up to `io_service_.run()`: in RTC mode the handler it starts, the trace
read from `files` in trace-based mode; `ERROR_SETUP` when there is no trace to read. -/
def ServerConfiguration.run (conf : ServerConfiguration) (files : String → Option (List Char))
    (uninit : ℕ → PacketT) : Except ℤ (Option RtcStart) :=
  if conf.rtc then
    if conf.interactive then .ok (some .interactive)
    else if conf.traceBased then
      match runTraceBased (conf.traceFile.map String.mk) files uninit [] with
      | .error e => .error e
      | .ok trace => .ok (some (.traceReplay trace))
    else .ok (some .constantRate)
  else .ok none

/-- `configuration_.trace_` once `run` has started: the trace it replays, or empty. -/
def RtcStart.trace : Option RtcStart → List PacketT
  | some (.traceReplay trace) => trace
  | _ => []

/-- Whether the installed handlers receive an event of the ring: constant-rate or trace ticks once
started, interests through `virtualProcessInterest`. -/
def ProducerSetup.receives (su : ProducerSetup) (start : Option RtcStart) : RingEvent → Bool
  | .rtcTick _ => start == some .interactive || start == some .constantRate
  | .traceTick _ => match start with
    | some (.traceReplay _) => true
    | _ => false
  | .interest _ => su.cacheMiss == some .virtualProcessInterest

namespace ServerConfiguration

variable {conf : ServerConfiguration} {family : AddressFamily} {accepts : SocketOption → Bool}
  {files : String → Option (List Char)} {uninit : ℕ → PacketT}

theorem cacheMiss_of_setup_rtc {su : ProducerSetup} (hsetup : conf.setup family accepts = .ok su)
    (hrtc : conf.rtc = true) : su.cacheMiss = none := by
  unfold setup at hsetup
  split at hsetup
  · cases hsetup
  · split_ifs at hsetup
    simp only [installHandlers, hrtc, if_true, Except.ok.injEq] at hsetup
    rw [← hsetup]

theorem run_of_not_rtc (hrtc : conf.rtc = false) : conf.run files uninit = .ok none := by
  simp [run, hrtc]

theorem isTick_of_receives {su : ProducerSetup} {start : Option RtcStart}
    (hsetup : conf.setup family accepts = .ok su) (hrun : conf.run files uninit = .ok start)
    {e : RingEvent} (he : su.receives start e = true) : e.isTick = conf.rtc := by
  cases hrtc : conf.rtc
  · obtain rfl : start = none := by rw [run_of_not_rtc hrtc] at hrun; cases hrun; rfl
    cases e <;> simp_all [ProducerSetup.receives, RingEvent.isTick]
  · cases e <;> simp_all [ProducerSetup.receives, RingEvent.isTick, cacheMiss_of_setup_rtc hsetup hrtc]

end ServerConfiguration

/-- On every configuration `setup` and `run` accept, the handlers receive ticks exactly in RTC mode,
and every run of them refines the fresh-payload server. -/
theorem configured_ring_refines_fresh (conf : ServerConfiguration) (family : AddressFamily)
    (accepts : SocketOption → Bool) (files : String → Option (List Char)) (uninit : ℕ → PacketT)
    {su : ProducerSetup} {start : Option RtcStart} (hsetup : conf.setup family accepts = .ok su)
    (hrun : conf.run files uninit = .ok start) (o : ByteOrder) (name : Name) (es : List RingEvent)
    (hes : ∀ e ∈ es, su.receives start e = true) :
    (∀ e, su.receives start e = true → e.isTick = conf.rtc) ∧
      (ContentRing.run o (RtcStart.trace start) (ContentRing.init name conf.payloadSize.toNat)
          es).map (fun q => (q.1, q.2.traceIndex)) =
        freshRun o conf.payloadSize.toNat (RtcStart.trace start) 0 es :=
  have htick := fun e => ServerConfiguration.isTick_of_receives (e := e) hsetup hrun
  ⟨htick, run_refines _ (fresh_init name !conf.rtc) fun e he => by
    rw [Bool.not_not]
    exact htick e (hes e he)⟩

theorem configured_ring_refines_fresh_default :
    ∃ su start, ServerConfiguration.init.setup .inet6 (fun _ => true) = .ok su ∧
      ServerConfiguration.init.run (fun _ => none) (fun _ => ⟨0, 0⟩) = .ok start ∧
      (∀ e ∈ [RingEvent.interest ⟨⟨.inet6, List.replicate 16 0, 7⟩, []⟩],
        su.receives start e = true) ∧
      (∀ e, su.receives start e = true → e.isTick = ServerConfiguration.init.rtc) ∧
      (ContentRing.run .little (RtcStart.trace start)
          (ContentRing.init ⟨.inet6, List.replicate 16 0, 0⟩
            ServerConfiguration.init.payloadSize.toNat)
          [.interest ⟨⟨.inet6, List.replicate 16 0, 7⟩, []⟩]).map
          (fun q => (q.1, q.2.traceIndex)) =
        freshRun .little ServerConfiguration.init.payloadSize.toNat (RtcStart.trace start) 0
          [.interest ⟨⟨.inet6, List.replicate 16 0, 7⟩, []⟩] :=
  ⟨_, _, rfl, rfl, by decide,
    configured_ring_refines_fresh .init .inet6 (fun _ => true) (fun _ => none) (fun _ => ⟨0, 0⟩)
      rfl rfl .little _ _ (by decide)⟩

end HicnTransport.Hiperf
