import Muduo.Buffer.Wf
import Muduo.Lib.Bytes
import Muduo.Lib.System

/-!
# Integers in a buffer (`Buffer.h`, `Endian.h`)

The functions that put integers into a buffer in network byte order and take them
out again, on a little-endian host. Their local variables are bit vectors of the
declared widths, and each conversion between declared types is written out: the
functions differ in little else.

`Endian.h` has no `hostToNetwork8`; a byte has no order, so it is the identity.
-/

namespace Muduo

open Lib

namespace Sockets

def hostToNetwork64 (host64 : BitVec 64) : BitVec 64 := byteSwap host64

def hostToNetwork32 (host32 : BitVec 32) : BitVec 32 := byteSwap host32

def hostToNetwork16 (host16 : BitVec 16) : BitVec 16 := byteSwap host16

def hostToNetwork8 (host8 : BitVec 8) : BitVec 8 := host8

def networkToHost64 (net64 : BitVec 64) : BitVec 64 := byteSwap net64

def networkToHost32 (net32 : BitVec 32) : BitVec 32 := byteSwap net32

def networkToHost16 (net16 : BitVec 16) : BitVec 16 := byteSwap net16

end Sockets

namespace Buffer

open Sockets

/-! ## Appending -/

def appendInt64 (b : Buffer) (x : BitVec 64) : Except Assert Buffer :=
  let be64 := hostToNetwork64 x
  b.append ((objectBytes be64).take (sizeof x))

def appendInt32 (b : Buffer) (x : BitVec 32) : Except Assert Buffer :=
  let be32 := hostToNetwork32 x
  b.append ((objectBytes be32).take (sizeof x))

/-- The local variable is an `int64_t`, of which the first two bytes are used. -/
def appendInt16 (b : Buffer) (x : BitVec 16) : Except Assert Buffer :=
  let be16 : BitVec 64 := (hostToNetwork16 x).setWidth 64
  b.append ((objectBytes be16).take (sizeof x))

def appendInt8 (b : Buffer) (x : BitVec 8) : Except Assert Buffer :=
  let be8 := hostToNetwork8 x
  b.append ((objectBytes be8).take (sizeof x))

/-! ## Peeking and reading -/

/-- `assert(readableBytes() >= sizeof(be)); memcpy(&be, peek(), sizeof(be))`, for
a variable of `w` bits. -/
def peekObject (b : Buffer) (e : Assert) (w : Nat) : Except Assert (BitVec w) := do
  check e (w / 8 ≤ b.readableBytes)
  return ofObjectBytes w (Vec.slice b.buffer b.readerIndex (w / 8))

/-- `peekInt64`, which is declared to return an `int32_t`. -/
def peekInt64 (b : Buffer) : Except Assert (BitVec 32) := do
  let be64 ← b.peekObject .peekInt64Len 64
  return (networkToHost64 be64).setWidth 32

def peekInt32 (b : Buffer) : Except Assert (BitVec 32) := do
  let be32 ← b.peekObject .peekInt32Len 32
  return networkToHost32 be32

def peekInt16 (b : Buffer) : Except Assert (BitVec 16) := do
  let be16 ← b.peekObject .peekInt16Len 16
  return networkToHost16 be16

/-- `peekInt8`, which is declared to return an `int16_t`. -/
def peekInt8 (b : Buffer) : Except Assert (BitVec 16) := do
  let x ← b.peekObject .peekInt8Len 8
  return x.signExtend 16

def retrieveInt64 (b : Buffer) : Except Assert Buffer := b.retrieve 8

def retrieveInt32 (b : Buffer) : Except Assert Buffer := b.retrieve 4

def retrieveInt16 (b : Buffer) : Except Assert Buffer := b.retrieve 2

def retrieveInt8 (b : Buffer) : Except Assert Buffer := b.retrieve 1

/-- The body the four `readInt` functions share: `int64_t result = peekInt();
retrieveInt(); return result`. -/
def readWith {w : Nat} (peek : Except Assert (BitVec w)) (retrieve : Except Assert Buffer) :
    Except Assert (BitVec 64 × Buffer) := do
  let result := (← peek).signExtend 64
  let b ← retrieve
  return (result, b)

def readInt64 (b : Buffer) : Except Assert (BitVec 64 × Buffer) :=
  readWith b.peekInt64 b.retrieveInt64

def readInt32 (b : Buffer) : Except Assert (BitVec 64 × Buffer) :=
  readWith b.peekInt32 b.retrieveInt32

def readInt16 (b : Buffer) : Except Assert (BitVec 64 × Buffer) :=
  readWith b.peekInt16 b.retrieveInt16

def readInt8 (b : Buffer) : Except Assert (BitVec 64 × Buffer) :=
  readWith b.peekInt8 b.retrieveInt8

/-! ## Prepending -/

def prependInt32 (b : Buffer) (x : BitVec 32) : Except Assert Buffer :=
  let be32 := hostToNetwork32 x
  b.prepend ((objectBytes be32).take (sizeof be32))

/-- The local variable is an `int32_t`, and all of it is prepended. -/
def prependInt16 (b : Buffer) (x : BitVec 16) : Except Assert Buffer :=
  let be16 : BitVec 32 := (hostToNetwork16 x).setWidth 32
  b.prepend ((objectBytes be16).take (sizeof be16))

def prependInt8 (b : Buffer) (x : BitVec 8) : Except Assert Buffer :=
  b.prepend ((objectBytes x).take (sizeof x))

/-! ## What the functions do -/

section Encodings

/-- The bytes of a variable in network order. -/
theorem take_objectBytes_byteSwap {w : Nat} (hw : w % 8 = 0) (x : BitVec w) :
    (objectBytes (byteSwap x)).take (w / 8) = bigEndian (w / 8) x.toInt := by
  rw [objectBytes_byteSwap_eq hw, List.take_of_length_le (by simp)]

/-- Widening an unsigned variable leaves its first bytes as they were. -/
theorem take_objectBytes_setWidth {v w : Nat} (hvw : v ≤ w) (x : BitVec v) :
    (objectBytes (x.setWidth w)).take (v / 8) = objectBytes x := by
  have hlt : x.toNat < 2 ^ w := lt_of_lt_of_le x.isLt (Nat.pow_le_pow_right (by omega) hvw)
  rw [objectBytes, take_bytes (Nat.div_le_div_right hvw), BitVec.toNat_setWidth,
    Nat.mod_eq_of_lt hlt, objectBytes]

theorem objectBytes_byte (x : BitVec 8) : objectBytes x = bigEndian 1 x.toInt := by
  have h := objectBytes_byteSwap_eq (by omega) x
  rw [objectBytes_byteSwap (by omega)] at h
  exact h

variable (b : Buffer)

theorem appendInt64_eq (x : BitVec 64) : b.appendInt64 x = b.append (bigEndian 8 x.toInt) :=
  congrArg b.append (take_objectBytes_byteSwap (by omega) x)

theorem appendInt32_eq (x : BitVec 32) : b.appendInt32 x = b.append (bigEndian 4 x.toInt) :=
  congrArg b.append (take_objectBytes_byteSwap (by omega) x)

theorem appendInt16_eq (x : BitVec 16) : b.appendInt16 x = b.append (bigEndian 2 x.toInt) := by
  have h := take_objectBytes_setWidth (w := 64) (by omega) (hostToNetwork16 x)
  exact congrArg b.append (h.trans (objectBytes_byteSwap_eq (by omega) x))

theorem appendInt8_eq (x : BitVec 8) : b.appendInt8 x = b.append (bigEndian 1 x.toInt) :=
  congrArg b.append (objectBytes_byte x)

theorem prependInt32_eq (x : BitVec 32) : b.prependInt32 x = b.prepend (bigEndian 4 x.toInt) :=
  congrArg b.prepend (take_objectBytes_byteSwap (by omega) x)

theorem prependInt8_eq (x : BitVec 8) : b.prependInt8 x = b.prepend (bigEndian 1 x.toInt) :=
  congrArg b.prepend (objectBytes_byte x)

end Encodings

section Reading

variable {b : Buffer} {w : Nat} {front rest : List Byte}

/-- The variable is filled with the first readable bytes. -/
theorem peekObject_eq (h : b.Wf) (e : Assert) (hreadable : b.readable = front ++ rest)
    (hfront : front.length = w / 8) : b.peekObject e w = .ok (ofObjectBytes w front) := by
  have hlen : w / 8 ≤ b.readableBytes := by
    rw [← h.length_readable, hreadable, List.length_append]
    omega
  have hslice : Vec.slice b.buffer b.readerIndex (w / 8) = front := by
    have htake := congrArg (List.take (w / 8)) hreadable
    rw [readable, Vec.take_slice, Nat.min_eq_left hlen] at htake
    rw [htake, ← hfront, List.take_left]
  rw [peekObject, check_of e hlen, ok_bind, hslice]
  rfl

/-- Swapping what was read gives the integer that the bytes encode. -/
theorem byteSwap_ofObjectBytes_bigEndian (hw : w % 8 = 0) (x : BitVec w) :
    byteSwap (ofObjectBytes w (bigEndian (w / 8) x.toInt)) = x := by
  rw [byteSwap_ofObjectBytes (by rw [length_bigEndian]; omega), ← objectBytes_byteSwap_eq hw,
    objectBytes_byteSwap hw, List.reverse_reverse, ofObjectBytes_objectBytes hw]

theorem peekInt64_eq (h : b.Wf) (x : BitVec 64) (hb : b.readable = bigEndian 8 x.toInt ++ rest) :
    b.peekInt64 = .ok (x.setWidth 32) := by
  rw [peekInt64, peekObject_eq h _ hb (by simp), ok_bind]
  exact congrArg (fun v => Except.ok (BitVec.setWidth 32 v))
    (byteSwap_ofObjectBytes_bigEndian (by omega) x)

theorem peekInt32_eq (h : b.Wf) (x : BitVec 32) (hb : b.readable = bigEndian 4 x.toInt ++ rest) :
    b.peekInt32 = .ok x := by
  rw [peekInt32, peekObject_eq h _ hb (by simp), ok_bind]
  exact congrArg Except.ok (byteSwap_ofObjectBytes_bigEndian (by omega) x)

theorem peekInt16_eq (h : b.Wf) (x : BitVec 16) (hb : b.readable = bigEndian 2 x.toInt ++ rest) :
    b.peekInt16 = .ok x := by
  rw [peekInt16, peekObject_eq h _ hb (by simp), ok_bind]
  exact congrArg Except.ok (byteSwap_ofObjectBytes_bigEndian (by omega) x)

theorem peekInt8_eq (h : b.Wf) (x : BitVec 8) (hb : b.readable = bigEndian 1 x.toInt ++ rest) :
    b.peekInt8 = .ok (x.signExtend 16) := by
  have hx : ofObjectBytes 8 (bigEndian 1 x.toInt) = x := by
    rw [← objectBytes_byte, ofObjectBytes_objectBytes (by omega)]
  rw [peekInt8, peekObject_eq h _ hb (by simp), ok_bind, hx]
  rfl

/-- A read returns what was peeked, sign-extended, and takes the encoding away. -/
theorem readWith_spec (h : b.Wf) {v : BitVec w} {peek : Except Assert (BitVec w)} {len : Nat}
    (hpeek : peek = .ok v) (hb : b.readable = front ++ rest) (hfront : front.length = len) :
    Lands (readWith peek (b.retrieve len)) fun r =>
      r.1 = v.signExtend 64 ∧ Keeps b r.2 rest := by
  have hlen : len ≤ b.readableBytes := by
    rw [← h.length_readable, hb, List.length_append]
    omega
  rw [readWith, hpeek, ok_bind]
  refine (retrieve_spec h hlen).bind fun b' hb' => .ok ⟨rfl, ?_⟩
  rw [hb, ← hfront, List.drop_left] at hb'
  exact hb'

end Reading

end Buffer
end Muduo
