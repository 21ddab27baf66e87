import Mathlib.Tactic

/-!
# Fixed-width integers and their bytes in memory

The programs move `uint32_t` and `uint64_t` values through byte buffers: the NACK payload of the
RTC producer, the timestamp copied into every RTC datagram, the key id of the TLS extension.
Which bytes a value occupies depends on the host, so the host byte order is a parameter of
every load and store. Bytes are `BitVec 8`; a `w`-byte integer is read and written through
its natural number value.
-/

namespace HicnTransport

/-- Byte order of the host the program runs on. -/
inductive ByteOrder
  | little
  | big
  deriving DecidableEq, Repr

/-- The `w` least significant bytes of `n`, least significant first. -/
def bytesLE : ℕ → ℕ → List (BitVec 8)
  | 0, _ => []
  | w + 1, n => BitVec.ofNat 8 n :: bytesLE w (n / 256)

/-- The natural number whose bytes are listed least significant first. -/
def valueLE : List (BitVec 8) → ℕ
  | [] => 0
  | b :: bs => b.toNat + 256 * valueLE bs

/-- The `w` least significant bytes of `n` in network order, most significant first. -/
def bytesBE (w n : ℕ) : List (BitVec 8) := (bytesLE w n).reverse

/-- The natural number whose bytes are listed in network order. -/
def valueBE (bs : List (BitVec 8)) : ℕ := valueLE bs.reverse

/-- The bytes a host stores in memory for a `w`-byte integer. -/
def ByteOrder.store : ByteOrder → ℕ → ℕ → List (BitVec 8)
  | .little, w, n => bytesLE w n
  | .big, w, n => bytesBE w n

/-- The integer a host reads from bytes in memory. -/
def ByteOrder.load : ByteOrder → List (BitVec 8) → ℕ
  | .little, bs => valueLE bs
  | .big, bs => valueBE bs

/-- `htonl`: the 32-bit value whose bytes in memory are those of `x` in network order.
The same map is `ntohl`. -/
def htonl (o : ByteOrder) (x : BitVec 32) : BitVec 32 :=
  BitVec.ofNat 32 (o.load (bytesBE 4 x.toNat))

/-- `ntohl` undoes `htonl`; on either host the two are the same map. -/
def ntohl (o : ByteOrder) (x : BitVec 32) : BitVec 32 := htonl o x

@[simp] theorem length_bytesLE (w n : ℕ) : (bytesLE w n).length = w := by
  induction w generalizing n with
  | zero => rfl
  | succ w ih => simp [bytesLE, ih]

@[simp] theorem length_bytesBE (w n : ℕ) : (bytesBE w n).length = w := by
  simp [bytesBE]

@[simp] theorem length_store (o : ByteOrder) (w n : ℕ) : (o.store w n).length = w := by
  cases o <;> simp [ByteOrder.store]

theorem valueLE_bytesLE (w n : ℕ) : valueLE (bytesLE w n) = n % 256 ^ w := by
  induction w generalizing n with
  | zero => simp [bytesLE, valueLE, Nat.mod_one]
  | succ w ih =>
    rw [bytesLE, valueLE, ih, BitVec.toNat_ofNat, show 256 ^ (w + 1) = 256 * 256 ^ w from
      pow_succ' 256 w, Nat.mod_mul]

theorem valueLE_lt (bs : List (BitVec 8)) : valueLE bs < 256 ^ bs.length := by
  induction bs with
  | nil => simp [valueLE]
  | cons b bs ih =>
    have hb : b.toNat < 256 := b.isLt
    simp only [valueLE, List.length_cons, pow_succ]
    omega

theorem bytesLE_valueLE (bs : List (BitVec 8)) : bytesLE bs.length (valueLE bs) = bs := by
  induction bs with
  | nil => rfl
  | cons b bs ih =>
    have hb : b.toNat < 256 := b.isLt
    simp only [List.length_cons, bytesLE, valueLE, List.cons.injEq]
    constructor
    · apply BitVec.eq_of_toNat_eq
      simp only [BitVec.toNat_ofNat]
      omega
    · rw [show (b.toNat + 256 * valueLE bs) / 256 = valueLE bs by omega, ih]

theorem valueBE_bytesBE (w n : ℕ) : valueBE (bytesBE w n) = n % 256 ^ w := by
  simp [valueBE, bytesBE, valueLE_bytesLE]

theorem bytesBE_valueBE (bs : List (BitVec 8)) : bytesBE bs.length (valueBE bs) = bs := by
  simpa [bytesBE, valueBE] using congrArg List.reverse (bytesLE_valueLE bs.reverse)

theorem load_lt (o : ByteOrder) (bs : List (BitVec 8)) : o.load bs < 256 ^ bs.length := by
  cases o
  · exact valueLE_lt bs
  · simpa [ByteOrder.load, valueBE] using valueLE_lt bs.reverse

theorem load_store (o : ByteOrder) (w n : ℕ) : o.load (o.store w n) = n % 256 ^ w := by
  cases o
  · exact valueLE_bytesLE w n
  · exact valueBE_bytesBE w n

theorem store_load (o : ByteOrder) (bs : List (BitVec 8)) : o.store bs.length (o.load bs) = bs := by
  cases o
  · exact bytesLE_valueLE bs
  · exact bytesBE_valueBE bs

theorem load_bytesBE_load_bytesBE (o : ByteOrder) (w n : ℕ) :
    o.load (bytesBE w (o.load (bytesBE w n))) = n % 256 ^ w := by
  cases o
  · have h := bytesLE_valueLE (bytesLE w n).reverse
    rw [List.length_reverse, length_bytesLE] at h
    simp only [ByteOrder.load, bytesBE, h, List.reverse_reverse, valueLE_bytesLE]
  · simp only [ByteOrder.load, valueBE_bytesBE, Nat.mod_mod]

theorem store_load_bytesBE (o : ByteOrder) (w n : ℕ) :
    o.store w (o.load (bytesBE w n)) = bytesBE w n := by
  simpa using store_load o (bytesBE w n)

theorem bytesBE_load_bytesBE_load (o : ByteOrder) (bs : List (BitVec 8)) :
    bytesBE bs.length (o.load (bytesBE bs.length (o.load bs))) = bs := by
  have h := store_load_bytesBE o bs.length (o.load (bytesBE bs.length (o.load bs)))
  rw [load_bytesBE_load_bytesBE, Nat.mod_eq_of_lt (load_lt o bs), store_load] at h
  exact h.symm

end HicnTransport
