import Mathlib.Tactic

/-!
# Integers in memory

The object representation of an integer on a little-endian host: `bytes n x` are
the `n` bytes of the unsigned value `x`, the lowest first, and `value` reads them
back. A variable of a C++ integer type of `w` bits is a `BitVec w`; whether it is
signed only matters where it is converted, by `setWidth` or by `signExtend`.

`bigEndian n x` is the encoding of the integer `x` in `n` bytes, two's
complement, highest byte first. It is stated over the integers, and compared
with the memory picture afterwards.
-/

namespace Muduo.Lib

/-- The lowest `n` bytes of `x`, lowest first. -/
def bytes : Nat → Nat → List UInt8
  | 0, _ => []
  | n + 1, x => UInt8.ofNat x :: bytes n (x / 256)

/-- The number whose bytes these are, lowest first. -/
def value : List UInt8 → Nat
  | [] => 0
  | b :: bs => b.toNat + 256 * value bs

/-- The `n`-byte two's complement encoding of `x`, highest byte first. -/
def bigEndian : Nat → Int → List UInt8
  | 0, _ => []
  | n + 1, x => bigEndian n (x / 256) ++ [UInt8.ofNat (x % 256).toNat]

section Memory

variable {w : Nat}

/-- `sizeof(x)`. -/
def sizeof (_ : BitVec w) : Nat := w / 8

/-- `reinterpret_cast<const char*>(&x)`, all `sizeof(x)` bytes of it. -/
def objectBytes (x : BitVec w) : List UInt8 := bytes (w / 8) x.toNat

/-- The variable of `w` bits that `memcpy` fills with these bytes. -/
def ofObjectBytes (w : Nat) (bs : List UInt8) : BitVec w := BitVec.ofNat w (value bs)

/-- The bytes in the opposite order: `htobe` and `betoh` on a little-endian
host. -/
def byteSwap (x : BitVec w) : BitVec w := ofObjectBytes w (objectBytes x).reverse

end Memory

/-! ## Bytes and numbers -/

@[simp] theorem length_bytes (n x : Nat) : (bytes n x).length = n := by
  induction n generalizing x with
  | zero => rfl
  | succ n ih => rw [bytes, List.length_cons, ih]

@[simp] theorem length_bigEndian (n : Nat) (x : Int) : (bigEndian n x).length = n := by
  induction n generalizing x with
  | zero => rfl
  | succ n ih => rw [bigEndian, List.length_append, ih, List.length_singleton]

theorem bytes_value (bs : List UInt8) : bytes bs.length (value bs) = bs := by
  induction bs with
  | nil => rfl
  | cons b bs ih =>
      have hb := b.toNat_lt
      have hlow : UInt8.ofNat (b.toNat + 256 * value bs) = b := by
        apply UInt8.toNat_inj.mp
        rw [UInt8.toNat_ofNat']
        omega
      have hhigh : (b.toNat + 256 * value bs) / 256 = value bs := by omega
      rw [value, List.length_cons, bytes, hlow, hhigh, ih]

theorem value_bytes (n x : Nat) : value (bytes n x) = x % 256 ^ n := by
  induction n generalizing x with
  | zero => rw [Nat.pow_zero, Nat.mod_one]; rfl
  | succ n ih =>
      have hlow : (UInt8.ofNat x).toNat = x % 256 := UInt8.toNat_ofNat'
      rw [bytes, value, ih, hlow, Nat.pow_succ, Nat.mul_comm (256 ^ n), Nat.mod_mul]

/-- The lowest bytes of a number are those of its residue. -/
theorem bytes_mod (n x : Nat) : bytes n (x % 256 ^ n) = bytes n x := by
  have h := bytes_value (bytes n x)
  rw [length_bytes, value_bytes] at h
  exact h

/-- More bytes of the same number begin with fewer. -/
theorem take_bytes {m n : Nat} (h : m ≤ n) (x : Nat) : (bytes n x).take m = bytes m x := by
  induction m generalizing n x with
  | zero => rfl
  | succ m ih =>
      cases n with
      | zero => omega
      | succ n => rw [bytes, bytes, List.take_succ_cons, ih (by omega)]

/-- The residue of an integer, split at its lowest byte. -/
private theorem emod_mul_256 (x : Int) {m : Int} (hm : 0 < m) :
    x % (256 * m) = 256 * (x / 256 % m) + x % 256 := by
  have hq₀ := Int.emod_nonneg (x / 256) (Int.ne_of_gt hm)
  have hq₁ := Int.emod_lt_of_pos (x / 256) hm
  have hsplit : x = 256 * (x / 256 % m) + x % 256 + 256 * m * (x / 256 / m) := by
    have hx := Int.mul_ediv_add_emod x 256
    have hq := Int.mul_ediv_add_emod (x / 256) m
    linear_combination -hx - 256 * hq
  conv_lhs => rw [hsplit]
  rw [Int.add_mul_emod_self_left]
  exact Int.emod_eq_of_lt (by omega) (by omega)

/-- The encoding of an integer is that of its residue, the highest byte first. -/
theorem bigEndian_eq (n : Nat) (x : Int) :
    bigEndian n x = (bytes n (x % (256 ^ n : Nat)).toNat).reverse := by
  induction n generalizing x with
  | zero => rfl
  | succ n ih =>
      have hm : 0 < (256 ^ n : Nat) := Nat.pow_pos (by omega)
      have hres : (x % (256 ^ (n + 1) : Nat)).toNat =
          256 * (x / 256 % (256 ^ n : Nat)).toNat + (x % 256).toNat := by
        have h := emod_mul_256 x (m := (256 ^ n : Nat)) (by omega)
        have hq := Int.emod_nonneg (x / 256) (b := (256 ^ n : Nat)) (by omega)
        rw [Nat.pow_succ, Nat.mul_comm, Nat.cast_mul, Nat.cast_ofNat, h]
        omega
      have hlow : UInt8.ofNat (x % (256 ^ (n + 1) : Nat)).toNat = UInt8.ofNat (x % 256).toNat := by
        apply UInt8.toNat_inj.mp
        rw [UInt8.toNat_ofNat', UInt8.toNat_ofNat', hres]
        omega
      have hhigh : (x % (256 ^ (n + 1) : Nat)).toNat / 256 = (x / 256 % (256 ^ n : Nat)).toNat := by
        rw [hres]
        omega
      rw [bigEndian, bytes, List.reverse_cons, hlow, hhigh, ih]

/-! ## Variables in memory -/

section Variables

variable {w : Nat}

@[simp] theorem length_objectBytes (x : BitVec w) : (objectBytes x).length = w / 8 :=
  length_bytes _ _

theorem pow_bytes (hw : w % 8 = 0) : 256 ^ (w / 8) = 2 ^ w := by
  rw [show (256 : Nat) = 2 ^ 8 from rfl, ← Nat.pow_mul]
  congr 1
  omega

/-- The bytes of a variable of whole bytes determine it. -/
theorem ofObjectBytes_objectBytes (hw : w % 8 = 0) (x : BitVec w) :
    ofObjectBytes w (objectBytes x) = x := by
  rw [ofObjectBytes, objectBytes, value_bytes, pow_bytes hw, Nat.mod_eq_of_lt x.isLt,
    BitVec.ofNat_toNat, BitVec.setWidth_eq]

theorem objectBytes_ofObjectBytes {bs : List UInt8} (hw : w = 8 * bs.length) :
    objectBytes (ofObjectBytes w bs) = bs := by
  have hn : w / 8 = bs.length := by omega
  have hpow : 256 ^ bs.length = 2 ^ w := hn ▸ pow_bytes (by omega)
  rw [objectBytes, ofObjectBytes, BitVec.toNat_ofNat, ← hpow, hn, bytes_mod, bytes_value]

theorem objectBytes_byteSwap (hw : w % 8 = 0) (x : BitVec w) :
    objectBytes (byteSwap x) = (objectBytes x).reverse := by
  refine objectBytes_ofObjectBytes ?_
  rw [List.length_reverse, length_objectBytes]
  omega

/-- What `memcpy` and `betoh` make of bytes is what they hold in reverse. -/
theorem byteSwap_ofObjectBytes {bs : List UInt8} (hw : w = 8 * bs.length) :
    byteSwap (ofObjectBytes w bs) = ofObjectBytes w bs.reverse := by
  rw [byteSwap, objectBytes_ofObjectBytes hw]

/-- A swapped variable holds the big-endian encoding of its signed value. -/
theorem objectBytes_byteSwap_eq (hw : w % 8 = 0) (x : BitVec w) :
    objectBytes (byteSwap x) = bigEndian (w / 8) x.toInt := by
  have hres : (x.toInt % (256 ^ (w / 8) : Nat)).toNat = x.toNat := by
    rw [pow_bytes hw, BitVec.toInt_eq_toNat_bmod, Int.bmod_emod, ← Int.natCast_emod, Int.toNat_natCast]
    exact Nat.mod_eq_of_lt x.isLt
  rw [objectBytes_byteSwap hw, bigEndian_eq, hres]
  rfl

end Variables

end Muduo.Lib
