import HicnTransport.Core.Name

/-!
# The key-id extension of the TLS producer

During the handshake `addHicnKeyIdCb` draws a 32-bit key id, sends the client a prefix made of
the producer's prefix and the key id (`out_ip`), and registers a prefix that grafts the key id
onto the producer's prefix. The client names its interests after the first; the producer is
reachable under the second. `out_ip` carries the key id right after the first `l / 8` bytes of
the prefix, the registered prefix in the 32-bit word `l / 32`. For a length that is a multiple
of 32 the two agree, and both are the first `l` bits of the prefix followed by the key id; for
a `/48` they differ.
-/

namespace HicnTransport.Implementation

/-- What `addHicnKeyIdCb` produces for extension type 100: the prefix sent to the client in
the extension and the prefix the socket registers. -/
structure KeyIdExtension where
  outIp : IpPrefix
  registered : IpPrefix
  deriving DecidableEq, Repr

/-- An address buffer zero but for its 32-bit word `w`, which holds `b`. An IPv4 buffer is taken to
be the four address bytes; `ip_address_t`, which places them, is not under src/. -/
def wordBuffer (f : AddressFamily) (w : ℕ) (b : Fin 4 → BitVec 8) : List (BitVec 8) :=
  List.ofFn fun j : Fin f.addressLength =>
    if h : 4 * w ≤ j.val ∧ j.val < 4 * w + 4 then b ⟨j.val - 4 * w, by omega⟩ else 0

/-- The address buffer of `out_ip`: the first `l / 8` bytes of the prefix, then the four bytes
of `key_id_`, then what `malloc` left there. -/
def outIpAddress (pfx : IpPrefix) (keyId : Fin 4 → BitVec 8) (uninit : ℕ → BitVec 8) :
    List (BitVec 8) :=
  List.ofFn fun j : Fin pfx.family.addressLength =>
    if j.val < pfx.len / 8 then pfx.address.getD j 0
    else if h : j.val < pfx.len / 8 + 4 then keyId ⟨j.val - pfx.len / 8, by omega⟩ else uninit j

theorem length_wordBuffer (f : AddressFamily) (w : ℕ) (b : Fin 4 → BitVec 8) :
    (wordBuffer f w b).length = f.addressLength := List.length_ofFn _

/-- `TLSProducerSocket::addHicnKeyIdCb` for extension type 100 on the first namespace `pfx`, with
`key_id_` from `RAND_bytes` and the uninitialised bytes of `out_ip`. -/
def addHicnKeyIdCb (pfx : IpPrefix) (keyId : Fin 4 → BitVec 8) (uninit : ℕ → BitVec 8) :
    Except String KeyIdExtension :=
  if pfx.len > pfx.family.addressBits - 32 then
    .error "Not enough space in the content name to add key_id"
  else
    .ok
      { outIp := ⟨pfx.family, outIpAddress pfx keyId uninit, pfx.len + 32, List.length_ofFn _⟩
        registered :=
          ⟨pfx.family, maskAndGraft (wordBuffer pfx.family (pfx.len / 32) fun _ => BitVec.allOnes 8)
            (wordBuffer pfx.family (pfx.len / 32) keyId) pfx.address, pfx.len + 32, by
              simp [length_maskAndGraft, length_wordBuffer, pfx.address_length]⟩ }

/-- Bit `i` of the first `l` bits of the prefix followed by the key id. -/
def keyedBit (pfx : IpPrefix) (keyId : Fin 4 → BitVec 8) (i : ℕ) : Bool :=
  if i < pfx.len then addressBit pfx.address i else addressBit (List.ofFn keyId) (i - pfx.len)

/-- The extension's prefix and the registered one agree on their first `l + 32` bits: the prefix's
first `l` bits, then the key id. -/
def KeyIdLaw (pfx : IpPrefix) (keyId : Fin 4 → BitVec 8) (uninit : ℕ → BitVec 8) : Prop :=
  ∃ e, addHicnKeyIdCb pfx keyId uninit = .ok e ∧ ∀ i < pfx.len + 32,
    addressBit e.outIp.address i = addressBit e.registered.address i ∧
      addressBit e.registered.address i = keyedBit pfx keyId i

theorem four_le_addressLength (f : AddressFamily) : 4 ≤ f.addressLength := by
  cases f <;> decide

section

variable (pfx : IpPrefix) (keyId : Fin 4 → BitVec 8) (uninit : ℕ → BitVec 8)

theorem getD_wordBuffer (f : AddressFamily) (w : ℕ) (b : Fin 4 → BitVec 8) {j : ℕ}
    (hj : j < f.addressLength) :
    (wordBuffer f w b).getD j 0 =
      if h : 4 * w ≤ j ∧ j < 4 * w + 4 then b ⟨j - 4 * w, by omega⟩ else 0 :=
  getD_ofFn _ hj

theorem getD_outIpAddress {j : ℕ} (hj : j < pfx.family.addressLength) :
    (outIpAddress pfx keyId uninit).getD j 0 =
      if j < pfx.len / 8 then pfx.address.getD j 0
      else if h : j < pfx.len / 8 + 4 then keyId ⟨j - pfx.len / 8, by omega⟩ else uninit j :=
  getD_ofFn _ hj

theorem getD_registered {j : ℕ} (hj : j < pfx.family.addressLength) :
    (maskAndGraft (wordBuffer pfx.family (pfx.len / 32) fun _ => BitVec.allOnes 8)
        (wordBuffer pfx.family (pfx.len / 32) keyId) pfx.address).getD j 0 =
      if h : 4 * (pfx.len / 32) ≤ j ∧ j < 4 * (pfx.len / 32) + 4 then
        keyId ⟨j - 4 * (pfx.len / 32), by omega⟩
      else pfx.address.getD j 0 := by
  rw [getD_maskAndGraft (by rwa [length_wordBuffer]) (by rwa [length_wordBuffer])
    (by rwa [pfx.address_length]), getD_wordBuffer _ _ _ hj, getD_wordBuffer _ _ _ hj]
  by_cases h : 4 * (pfx.len / 32) ≤ j ∧ j < 4 * (pfx.len / 32) + 4
  · simp only [dif_pos h]
    rw [BitVec.not_allOnes, BitVec.and_zero, BitVec.zero_or, BitVec.and_allOnes]
  · simp only [dif_neg h]
    exact (congrArg (· ||| 0#8) BitVec.and_allOnes).trans BitVec.or_zero

/-- For a prefix length that is a multiple of 32 the key id sits in the same bytes of both
prefixes, right after the first `l` bits of the producer's prefix. -/
theorem keyIdLaw_of_aligned (hl : pfx.len ≤ pfx.family.addressBits - 32)
    (h32 : pfx.len % 32 = 0) : KeyIdLaw pfx keyId uninit := by
  have h4 := four_le_addressLength pfx.family
  have hlen : pfx.len / 8 + 4 ≤ pfx.family.addressLength := by
    simp only [AddressFamily.addressBits] at hl; omega
  have hw : 4 * (pfx.len / 32) = pfx.len / 8 := by omega
  refine ⟨_, if_neg (by simp only [AddressFamily.addressBits] at hl ⊢; omega), fun i hi => ?_⟩
  simp only [addressBit, keyedBit]
  rw [getD_outIpAddress _ _ _ (by omega), getD_registered _ _ (by omega)]
  by_cases hil : i < pfx.len
  · have hb : ¬ (4 * (pfx.len / 32) ≤ i / 8 ∧ i / 8 < 4 * (pfx.len / 32) + 4) := by omega
    simp only [if_pos (show i / 8 < pfx.len / 8 by omega), dif_neg hb, if_pos hil, and_self]
  · have hb : 4 * (pfx.len / 32) ≤ i / 8 ∧ i / 8 < 4 * (pfx.len / 32) + 4 := by omega
    have hk : (List.ofFn keyId).getD ((i - pfx.len) / 8) 0 = keyId ⟨i / 8 - pfx.len / 8, by omega⟩ := by
      rw [getD_ofFn _ (by omega)]; congr 2; omega
    simp only [if_neg (show ¬ i / 8 < pfx.len / 8 by omega), dif_pos (show i / 8 < pfx.len / 8 + 4 by omega),
      dif_pos hb, if_neg hil, hk, show (i - pfx.len) % 8 = i % 8 by omega]
    constructor <;> congr 3 <;> omega

theorem keyIdLaw_slash64 :
    (⟨.inet6, [0xb0, 0x01, 0x0d, 0xb8, 0, 1, 0, 2, 0, 0, 0, 0, 0, 0, 0, 0], 64, rfl⟩ :
        IpPrefix).len ≤
        (⟨.inet6, [0xb0, 0x01, 0x0d, 0xb8, 0, 1, 0, 2, 0, 0, 0, 0, 0, 0, 0, 0], 64, rfl⟩ :
          IpPrefix).family.addressBits - 32 ∧
      (⟨.inet6, [0xb0, 0x01, 0x0d, 0xb8, 0, 1, 0, 2, 0, 0, 0, 0, 0, 0, 0, 0], 64, rfl⟩ :
        IpPrefix).len % 32 = 0 ∧
      KeyIdLaw ⟨.inet6, [0xb0, 0x01, 0x0d, 0xb8, 0, 1, 0, 2, 0, 0, 0, 0, 0, 0, 0, 0], 64, rfl⟩
        ![0xde, 0xad, 0xbe, 0xef] (fun i => BitVec.ofNat 8 i) :=
  ⟨by decide, by decide, keyIdLaw_of_aligned _ _ _ (by decide) (by decide)⟩

end

/-- The IPv6 prefix `b001::/48`. -/
def slash48 : IpPrefix :=
  ⟨.inet6, [0xb0, 0x01, 0, 0, 0, 0, 0, 0, 0, 0, 0, 0, 0, 0, 0, 0], 48, rfl⟩

/-- On `b001::/48` with key id `de ad be ef` the client gets `b001:0:0:dead:beef::/80` and the
producer registers `b001:0:dead:beef::/80`. -/
theorem keyId_slash48_mismatch :
    ∃ e, addHicnKeyIdCb slash48 ![0xde, 0xad, 0xbe, 0xef] (fun _ => 0) = .ok e ∧
      e.outIp.address.take 10 = [0xb0, 0x01, 0, 0, 0, 0, 0xde, 0xad, 0xbe, 0xef] ∧
      e.registered.address.take 10 = [0xb0, 0x01, 0, 0, 0xde, 0xad, 0xbe, 0xef, 0, 0] ∧
      ¬ KeyIdLaw slash48 ![0xde, 0xad, 0xbe, 0xef] (fun _ => 0) := by
  refine ⟨_, rfl, by decide, by decide, ?_⟩
  rintro ⟨e, he, h⟩
  cases he
  exact absurd (h 32 (by decide)).1 (by decide)

end HicnTransport.Implementation
