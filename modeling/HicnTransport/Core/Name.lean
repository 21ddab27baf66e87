import HicnTransport.Core.Bytes

/-!
# Names, prefixes and interests

An hICN name is an IPv4 or IPv6 address followed by a 32-bit suffix, and a prefix is an address
with a length in bits. Addresses are the bytes of the family's buffer in network order, and bit
`i` of an address is bit `7 - i % 8` of its byte `i / 8`, so that a prefix of length `l` is the
first `l` bits. The mask-and-graft of `Prefix::getName` replaces the masked bits of a name by
those of a component.
-/

namespace HicnTransport

/-- `AF_INET` or `AF_INET6`. -/
inductive AddressFamily
  | inet
  | inet6
  deriving DecidableEq, Repr

namespace AddressFamily

/-- `IPV4_ADDR_LEN` and `IPV6_ADDR_LEN`: the bytes of an address of the family. -/
def addressLength : AddressFamily → ℕ
  | .inet => 4
  | .inet6 => 16

/-- `IPV4_ADDR_LEN_BITS` and `IPV6_ADDR_LEN_BITS`. -/
def addressBits (f : AddressFamily) : ℕ := 8 * f.addressLength

end AddressFamily

/-- An address prefix, the `ip_prefix_t` of the packet library and the `Prefix` of the
transport: a family, the bytes of its address buffer, and a length in bits. -/
structure IpPrefix where
  family : AddressFamily
  address : List (BitVec 8)
  len : ℕ
  address_length : address.length = family.addressLength
  deriving DecidableEq, Repr

/-- A content name: an address and the segment suffix. -/
structure Name where
  family : AddressFamily
  address : List (BitVec 8)
  suffix : BitVec 32
  deriving DecidableEq, Repr

/-- An interest as the producer sees it: its name and the bytes of its payload. -/
structure Interest where
  name : Name
  payload : List (BitVec 8)
  deriving DecidableEq, Repr

/-- Bit `i` of an address, counted from the most significant bit of its first byte. -/
def addressBit (a : List (BitVec 8)) (i : ℕ) : Bool := (a.getD (i / 8) 0).getMsbD (i % 8)

/-- Modelled from the spec, not under src/: `Prefix::getName(mask, components, content_name)`,
each bit from the component where the mask is set and from the name elsewhere. -/
def maskAndGraft : List (BitVec 8) → List (BitVec 8) → List (BitVec 8) → List (BitVec 8)
  | m :: mask, c :: components, n :: name =>
    ((n &&& ~~~m) ||| (c &&& m)) :: maskAndGraft mask components name
  | _, _, _ => []

theorem length_maskAndGraft : ∀ mask components name : List (BitVec 8),
    (maskAndGraft mask components name).length =
      min mask.length (min components.length name.length)
  | _ :: mask, _ :: components, _ :: name => by
    simp only [maskAndGraft, List.length_cons, length_maskAndGraft mask components name]
    omega
  | [], _, _ => by simp [maskAndGraft]
  | _ :: _, [], _ => by simp [maskAndGraft]
  | _ :: _, _ :: _, [] => by simp [maskAndGraft]

theorem getD_maskAndGraft : ∀ {mask components name : List (BitVec 8)} {j : ℕ},
    j < mask.length → j < components.length → j < name.length →
    (maskAndGraft mask components name).getD j 0 =
      (name.getD j 0 &&& ~~~mask.getD j 0) ||| (components.getD j 0 &&& mask.getD j 0)
  | _ :: _, _ :: _, _ :: _, 0, _, _, _ => rfl
  | _ :: _, _ :: _, _ :: _, j + 1, hm, hc, hn => by
    simp only [List.length_cons, Nat.add_lt_add_iff_right] at hm hc hn
    simp only [maskAndGraft, List.getD_cons_succ]
    exact getD_maskAndGraft hm hc hn

theorem getD_ofFn {n : ℕ} (f : Fin n → BitVec 8) {j : ℕ} (h : j < n) :
    (List.ofFn f).getD j 0 = f ⟨j, h⟩ := by
  simp [List.getD_eq_getElem, h]

end HicnTransport
