import HicnTransport.Hiperf.Trace
import HicnTransport.Hiperf.RtcClient

/-!
# Test mode end to end

In test mode the RTC server copies its clock into the first eight bytes of the payload of every
datagram, and the client reads them back at payload offset 12, past the 12-byte header the RTC
producer puts in front, which the server's `setup` counts in the data packet size. The client
takes a payload of 16 bytes for a NACK.

A datagram of eight bytes or more therefore arrives as data, and the client reads the timestamp
the server wrote. A datagram of four bytes, which `-s 4` or a trace line of size 4 makes, arrives
as 16 bytes and is taken for a NACK; a datagram shorter than eight bytes carries only part of the
timestamp.
-/

namespace HicnTransport.Hiperf

/-- Modelled from the spec: the header the RTC producer puts in front of every datagram, twelve
bytes. -/
structure RtcHeader where
  bytes : List (BitVec 8)
  length_eq : bytes.length = 12

/-- The payload of every content object of the server: `payload_size_` bytes `'X'`. -/
def contentPayload (payloadSize : ℕ) : List (BitVec 8) := List.replicate payloadSize 0x58

/-- The payload after `std::memcpy(payload->writableData(), &now, 8)`: the clock in host order
over its first eight bytes, only what lies inside a shorter payload kept. -/
def stampPayload (o : ByteOrder) (now : BitVec 64) (payload : List (BitVec 8)) :
    List (BitVec 8) :=
  (o.store 8 now.toNat ++ payload.drop 8).take payload.length

/-- The bytes `sendRTCContentObjectCallback` hands to `produceDatagram` at `now`: the stamped
payload, at most 1400 bytes of it. -/
def rtcDatagram (o : ByteOrder) (payloadSize : ℕ) (now : BitVec 64) : List (BitVec 8) :=
  let payload := stampPayload o now (contentPayload payloadSize)
  payload.take (if payload.length < 1400 then payload.length else 1400)

/-- The bytes `sendRTCContentObjectCallbackWithTrace` hands to `produceDatagram` on a tick: the
stamped payload, as many bytes of it as the tick's `packet_len`. -/
def traceDatagram (o : ByteOrder) (payloadSize : ℕ) (now : BitVec 64) (t : Tick) :
    List (BitVec 8) :=
  (stampPayload o now (contentPayload payloadSize)).take t.packetLen.toNat

/-- The content object the client's checker sees for a datagram: the header, then the datagram. -/
def received (hdr : RtcHeader) (suffix : BitVec 32) (datagram : List (BitVec 8)) :
    ContentObject :=
  ⟨suffix, hdr.bytes ++ datagram⟩

@[simp] theorem length_contentPayload (payloadSize : ℕ) :
    (contentPayload payloadSize).length = payloadSize :=
  List.length_replicate _ _

@[simp] theorem length_stampPayload (o : ByteOrder) (now : BitVec 64) (payload : List (BitVec 8)) :
    (stampPayload o now payload).length = payload.length := by
  simp only [stampPayload, List.length_take, List.length_append, length_store, List.length_drop]
  omega

theorem rtcDatagram_eq (o : ByteOrder) (payloadSize : ℕ) (now : BitVec 64) :
    rtcDatagram o payloadSize now =
      (stampPayload o now (contentPayload payloadSize)).take (min payloadSize 1400) := by
  simp only [rtcDatagram, length_stampPayload, length_contentPayload]
  congr 1
  split_ifs <;> omega

theorem take_eight_stampPayload (o : ByteOrder) (now : BitVec 64) (payload : List (BitVec 8))
    {len : ℕ} (h8 : 8 ≤ len) (hlen : len ≤ payload.length) :
    ((stampPayload o now payload).take len).take 8 = o.store 8 now.toNat := by
  rw [List.take_take, min_eq_left h8, stampPayload, List.take_take, min_eq_left (by omega),
    List.take_append_of_le_length (by simp), List.take_of_length_le (by simp)]

theorem isData_received (hdr : RtcHeader) (suffix : BitVec 32) (datagram : List (BitVec 8))
    (h1400 : datagram.length ≤ 1400) :
    (received hdr suffix datagram).isData = decide (datagram.length ≠ 4) := by
  have hlen : (received hdr suffix datagram).payload.length = 12 + datagram.length := by
    simp [received, hdr.length_eq]
  rw [ContentObject.isData, hlen]
  by_cases h4 : datagram.length = 4
  · simp [h4]
  · have hne : BitVec.ofNat 32 (12 + datagram.length) ≠ 16 := by
      intro heq
      have h := congrArg BitVec.toNat heq
      rw [BitVec.toNat_ofNat, Nat.mod_eq_of_lt (by omega)] at h
      exact h4 (by have : (16 : BitVec 32).toNat = 16 := rfl; omega)
    simpa [h4] using hne

theorem senderTimeStamp_received (o : ByteOrder) (hdr : RtcHeader) (suffix : BitVec 32)
    (datagram : List (BitVec 8)) :
    RtcClient.senderTimeStamp o (received hdr suffix datagram).payload =
      BitVec.ofNat 64 (o.load (datagram.take 8)) := by
  simp only [RtcClient.senderTimeStamp, received, List.drop_left' hdr.length_eq]

theorem stamped_datagram_read_back (o : ByteOrder) (hdr : RtcHeader) (suffix : BitVec 32)
    (now nowClient : BitVec 64) (payloadSize len : ℕ) (h8 : 8 ≤ len) (hlen : len ≤ payloadSize)
    (h1400 : len ≤ 1400) :
    (received hdr suffix ((stampPayload o now (contentPayload payloadSize)).take len)).isData =
        true ∧
      RtcClient.senderTimeStamp o
          (received hdr suffix ((stampPayload o now (contentPayload payloadSize)).take len)).payload =
        now ∧
      RtcClient.newDelay o nowClient
          (received hdr suffix ((stampPayload o now (contentPayload payloadSize)).take len)).payload =
        ((nowClient.toNat : ℤ) - now.toNat : ℤ) := by
  have hl : ((stampPayload o now (contentPayload payloadSize)).take len).length = len := by
    simp only [List.length_take, length_stampPayload, length_contentPayload]
    omega
  have hts : RtcClient.senderTimeStamp o
      (received hdr suffix ((stampPayload o now (contentPayload payloadSize)).take len)).payload =
      now := by
    rw [senderTimeStamp_received, take_eight_stampPayload o now _ h8 (by simpa using hlen),
      load_store, Nat.mod_eq_of_lt (by simpa using now.isLt), BitVec.ofNat_toNat,
      BitVec.setWidth_eq]
  refine ⟨?_, hts, ?_⟩
  · rw [isData_received _ _ _ (by rw [hl]; exact h1400), hl, decide_eq_true_eq]
    omega
  · rw [RtcClient.newDelay_eq_sub, hts]

theorem rtcDatagram_read_back (o : ByteOrder) (hdr : RtcHeader) (suffix : BitVec 32)
    (now : BitVec 64) (payloadSize : ℕ) (h8 : 8 ≤ payloadSize) :
    (received hdr suffix (rtcDatagram o payloadSize now)).isData = true ∧
      RtcClient.senderTimeStamp o (received hdr suffix (rtcDatagram o payloadSize now)).payload =
        now := by
  rw [rtcDatagram_eq]
  have h := stamped_datagram_read_back o hdr suffix now 0 payloadSize (min payloadSize 1400)
    (by omega) (min_le_left _ _) (min_le_right _ _)
  exact ⟨h.1, h.2.1⟩

/-- With `-s 4` every datagram arrives as a 16-byte payload the checker takes for a NACK; with
`-s 5` the client reads three bytes past the datagram. -/
theorem short_payload_misread :
    (∀ (o : ByteOrder) (hdr : RtcHeader) (suffix : BitVec 32) (now : BitVec 64),
      (received hdr suffix (rtcDatagram o 4 now)).isData = false) ∧
    (sendRTCContentObjectCallbackWithTrace 1400 [⟨0, 4⟩] 0).map Tick.packetLen = .ok 4 ∧
    RtcClient.senderTimeStamp .little
      (received ⟨List.replicate 12 0, rfl⟩ 0 (rtcDatagram .little 5 0x10000000000)).payload ≠
        0x10000000000 := by
  refine ⟨fun o hdr suffix now => ?_, rfl, by decide⟩
  rw [isData_received _ _ _ (by simp [rtcDatagram_eq])]
  simp [rtcDatagram_eq]

end HicnTransport.Hiperf
