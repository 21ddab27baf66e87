import HicnTransport.Core.Bytes

/-!
# The RTC NACK payload

A producer that cannot serve an RTC interest answers with a 16-byte NACK payload: the
timestamp, the production rate and the production segment. `nack_packet_t` lays the three
fields out in memory with no padding and converts each with `_htonll` or `htonl` on the way
in and `_ntohll` or `ntohl` on the way out. The setters followed by the getters give the
triple back, the 16 bytes are its network-order encoding, and every 16-byte payload read and
written back is left as it was, on a host of either byte order.
-/

namespace HicnTransport.Hiperf

/-- The eight bytes `_ntohll` writes into its result, shifted out of the argument most
significant first. -/
def ntohllBytes (x : BitVec 64) : List (BitVec 8) :=
  [(x >>> 56).setWidth 8, (x >>> 48).setWidth 8, (x >>> 40).setWidth 8, (x >>> 32).setWidth 8,
    (x >>> 24).setWidth 8, (x >>> 16).setWidth 8, (x >>> 8).setWidth 8, (x >>> 0).setWidth 8]

/-- `_ntohll`: the 64-bit value whose bytes in memory are `ntohllBytes x`. -/
def ntohll (o : ByteOrder) (x : BitVec 64) : BitVec 64 :=
  BitVec.ofNat 64 (o.load (ntohllBytes x))

/-- `_htonll` returns `_ntohll` of its argument. -/
def htonll (o : ByteOrder) (x : BitVec 64) : BitVec 64 := ntohll o x

/-- `nack_packet_t`: the fields as the host holds them in memory. -/
structure NackPacket where
  timestamp : BitVec 64
  prodRate : BitVec 32
  prodSeg : BitVec 32
  deriving DecidableEq, Repr

namespace NackPacket

variable (o : ByteOrder) (p : NackPacket)

def getTimestamp : BitVec 64 := ntohll o p.timestamp

def setTimestamp (time : BitVec 64) : NackPacket := { p with timestamp := htonll o time }

def getProductionRate : BitVec 32 := ntohl o p.prodRate

def setProductionRate (rate : BitVec 32) : NackPacket := { p with prodRate := htonl o rate }

def getProductionSegement : BitVec 32 := ntohl o p.prodSeg

def setProductionSegement (seg : BitVec 32) : NackPacket := { p with prodSeg := htonl o seg }

/-- The 16 bytes of the struct in memory: offsets 0, 8 and 12. -/
def bytes : List (BitVec 8) :=
  o.store 8 p.timestamp.toNat ++ o.store 4 p.prodRate.toNat ++ o.store 4 p.prodSeg.toNat

/-- The struct a payload is read as through `(nack_packet_t *) payload->data()`. -/
def ofBytes (bs : List (BitVec 8)) : NackPacket where
  timestamp := BitVec.ofNat 64 (o.load (bs.take 8))
  prodRate := BitVec.ofNat 32 (o.load ((bs.drop 8).take 4))
  prodSeg := BitVec.ofNat 32 (o.load ((bs.drop 12).take 4))

end NackPacket

theorem ntohllBytes_eq (x : BitVec 64) : ntohllBytes x = bytesBE 8 x.toNat := by
  simp only [ntohllBytes, bytesBE, bytesLE, List.reverse_cons, List.reverse_nil, List.nil_append,
    List.cons_append, List.singleton_append, Nat.div_div_eq_div_mul, List.cons.injEq, and_true]
  refine ⟨?_, ?_, ?_, ?_, ?_, ?_, ?_, ?_⟩ <;>
  · apply BitVec.eq_of_toNat_eq
    simp [BitVec.toNat_setWidth, BitVec.toNat_ushiftRight, Nat.shiftRight_eq_div_pow]

theorem ntohll_toNat (o : ByteOrder) (x : BitVec 64) :
    (ntohll o x).toNat = o.load (bytesBE 8 x.toNat) := by
  have h := load_lt o (bytesBE 8 x.toNat)
  rw [length_bytesBE] at h
  rw [ntohll, ntohllBytes_eq, BitVec.toNat_ofNat]
  exact Nat.mod_eq_of_lt (by simpa using h)

theorem htonl_toNat (o : ByteOrder) (x : BitVec 32) :
    (htonl o x).toNat = o.load (bytesBE 4 x.toNat) := by
  have h := load_lt o (bytesBE 4 x.toNat)
  rw [length_bytesBE] at h
  rw [htonl, BitVec.toNat_ofNat]
  exact Nat.mod_eq_of_lt (by simpa using h)

@[simp] theorem ntohll_ntohll (o : ByteOrder) (x : BitVec 64) : ntohll o (ntohll o x) = x := by
  apply BitVec.eq_of_toNat_eq
  rw [ntohll_toNat, ntohll_toNat, load_bytesBE_load_bytesBE]
  exact Nat.mod_eq_of_lt (by simpa using x.isLt)

@[simp] theorem htonl_htonl (o : ByteOrder) (x : BitVec 32) : htonl o (htonl o x) = x := by
  apply BitVec.eq_of_toNat_eq
  rw [htonl_toNat, htonl_toNat, load_bytesBE_load_bytesBE]
  exact Nat.mod_eq_of_lt (by simpa using x.isLt)

theorem store_ntohll (o : ByteOrder) (x : BitVec 64) :
    o.store 8 (ntohll o x).toNat = bytesBE 8 x.toNat := by
  rw [ntohll_toNat, store_load_bytesBE]

theorem store_htonl (o : ByteOrder) (x : BitVec 32) :
    o.store 4 (htonl o x).toNat = bytesBE 4 x.toNat := by
  rw [htonl_toNat, store_load_bytesBE]

namespace NackPacket

variable (o : ByteOrder) (p : NackPacket)

@[simp] theorem getTimestamp_setTimestamp (t : BitVec 64) :
    (p.setTimestamp o t).getTimestamp o = t := by
  simp [getTimestamp, setTimestamp, htonll]

@[simp] theorem getProductionRate_setProductionRate (r : BitVec 32) :
    (p.setProductionRate o r).getProductionRate o = r := by
  simp [getProductionRate, setProductionRate, ntohl]

@[simp] theorem getProductionSegement_setProductionSegement (s : BitVec 32) :
    (p.setProductionSegement o s).getProductionSegement o = s := by
  simp [getProductionSegement, setProductionSegement, ntohl]

theorem bytes_set (t : BitVec 64) (r s : BitVec 32) :
    (((p.setTimestamp o t).setProductionRate o r).setProductionSegement o s).bytes o =
      bytesBE 8 t.toNat ++ bytesBE 4 r.toNat ++ bytesBE 4 s.toNat := by
  simp only [bytes, setProductionSegement, setProductionRate, setTimestamp, htonll,
    store_ntohll, store_htonl]

theorem bytesBE_ntohll_ofNat_load (bs : List (BitVec 8)) (h : bs.length = 8) :
    bytesBE 8 (ntohll o (BitVec.ofNat 64 (o.load bs))).toNat = bs := by
  have hl := load_lt o bs
  have hb := bytesBE_load_bytesBE_load o bs
  rw [h] at hb
  rwa [ntohll_toNat, BitVec.toNat_ofNat, Nat.mod_eq_of_lt (by simpa [h] using hl)]

theorem bytesBE_htonl_ofNat_load (bs : List (BitVec 8)) (h : bs.length = 4) :
    bytesBE 4 (htonl o (BitVec.ofNat 32 (o.load bs))).toNat = bs := by
  have hl := load_lt o bs
  have hb := bytesBE_load_bytesBE_load o bs
  rw [h] at hb
  rwa [htonl_toNat, BitVec.toNat_ofNat, Nat.mod_eq_of_lt (by simpa [h] using hl)]

theorem take_append_fields {α : Type} (bs : List α) (h : bs.length = 16) :
    bs.take 8 ++ (bs.drop 8).take 4 ++ (bs.drop 12).take 4 = bs := by
  have h12 : (bs.drop 8).drop 4 = bs.drop 12 := by rw [List.drop_drop]
  calc bs.take 8 ++ (bs.drop 8).take 4 ++ (bs.drop 12).take 4
      = bs.take 8 ++ ((bs.drop 8).take 4 ++ (bs.drop 8).drop 4) := by
        rw [h12, List.take_of_length_le (show (bs.drop 12).length ≤ 4 by simp [h]),
          List.append_assoc]
    _ = bs := by rw [List.take_append_drop, List.take_append_drop]

end NackPacket

/-- On both host orders a NACK written with the setters reads back through the getters as the
big-endian timestamp, rate and segment, and every 16-byte payload re-encodes to itself. -/
theorem nack_packet_roundtrip (o : ByteOrder) :
    (∀ (p : NackPacket) (t : BitVec 64) (r s : BitVec 32),
      let q := ((p.setTimestamp o t).setProductionRate o r).setProductionSegement o s
      (q.getTimestamp o, q.getProductionRate o, q.getProductionSegement o) = (t, r, s) ∧
        q.bytes o = bytesBE 8 t.toNat ++ bytesBE 4 r.toNat ++ bytesBE 4 s.toNat) ∧
    (∀ (p : NackPacket) (b : Fin 16 → BitVec 8),
      let d := NackPacket.ofBytes o (List.ofFn b)
      (((p.setTimestamp o (d.getTimestamp o)).setProductionRate o
        (d.getProductionRate o)).setProductionSegement o (d.getProductionSegement o)).bytes o =
        List.ofFn b) := by
  refine ⟨fun p t r s => ⟨?_, NackPacket.bytes_set o p t r s⟩, fun p b => ?_⟩
  · simp [NackPacket.setProductionSegement, NackPacket.setProductionRate,
      NackPacket.getTimestamp, NackPacket.getProductionRate, NackPacket.setTimestamp, htonll,
      NackPacket.getProductionSegement, ntohl]
  · have hlen : (List.ofFn b).length = 16 := List.length_ofFn b
    show NackPacket.bytes o _ = _
    rw [NackPacket.bytes_set]
    simp only [NackPacket.getTimestamp, NackPacket.getProductionRate,
      NackPacket.getProductionSegement, NackPacket.ofBytes, ntohl]
    rw [NackPacket.bytesBE_ntohll_ofNat_load o _ (by simp [hlen]),
      NackPacket.bytesBE_htonl_ofNat_load o _ (by simp [hlen]),
      NackPacket.bytesBE_htonl_ofNat_load o _ (by simp [hlen])]
    exact NackPacket.take_append_fields _ hlen

end HicnTransport.Hiperf
