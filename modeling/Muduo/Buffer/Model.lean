import Muduo.Lib.Outcome
import Muduo.Lib.Vec

/-!
# The I/O buffer (`Buffer.h`)

A `std::vector<char>` with two indices into it:

    0      <=      readerIndex   <=   writerIndex    <=     size
    | prependable     |    readable      |     writable       |

Sizes are natural numbers. Every `assert` of the class is kept as a `check`
that names it, so an operation of the model returns exactly when the code
passes its assertions.
-/

namespace Muduo

open Lib

/-- One `char` of a buffer. -/
abbrev Byte := UInt8

/-- The data members of `Buffer`. -/
structure Buffer where
  buffer : List Byte
  readerIndex : Nat
  writerIndex : Nat
  deriving DecidableEq, Repr

namespace Buffer

/-- The assertions of `Buffer.h`, one constructor each. -/
inductive Assert
  | ctorReadable | ctorWritable | ctorPrependable
  | retrieveLen | retrieveUntilPeek | retrieveUntilBeginWrite | retrieveAsStringLen
  | ensureWritableBytes | hasWrittenLen | unwriteLen | prependLen
  | makeSpaceReaderIndex | makeSpaceReadable
  | peekInt64Len | peekInt32Len | peekInt16Len | peekInt8Len
  deriving DecidableEq, Repr

def kCheapPrepend : Nat := 8

def kInitialSize : Nat := 1024

def readableBytes (b : Buffer) : Nat := b.writerIndex - b.readerIndex

def writableBytes (b : Buffer) : Nat := b.buffer.length - b.writerIndex

def prependableBytes (b : Buffer) : Nat := b.readerIndex

/-- `Buffer(initialSize)`. -/
def new (initialSize : Nat) : Except Assert Buffer := do
  let b : Buffer :=
    { buffer := List.replicate (kCheapPrepend + initialSize) 0
      readerIndex := kCheapPrepend
      writerIndex := kCheapPrepend }
  check .ctorReadable (b.readableBytes = 0)
  check .ctorWritable (b.writableBytes = initialSize)
  check .ctorPrependable (b.prependableBytes = kCheapPrepend)
  return b

/-- `swap`: both buffers trade their storage and their indices. -/
def swap (b rhs : Buffer) : Buffer × Buffer :=
  ({ buffer := rhs.buffer, readerIndex := rhs.readerIndex, writerIndex := rhs.writerIndex },
   { buffer := b.buffer, readerIndex := b.readerIndex, writerIndex := b.writerIndex })

/-! ## Taking bytes out -/

def retrieveAll (b : Buffer) : Buffer :=
  { b with readerIndex := kCheapPrepend, writerIndex := kCheapPrepend }

def retrieve (b : Buffer) (len : Nat) : Except Assert Buffer := do
  check .retrieveLen (len ≤ b.readableBytes)
  if len < b.readableBytes then
    return { b with readerIndex := b.readerIndex + len }
  else
    return b.retrieveAll

/-- `retrieveUntil(end)`; the pointer is given by its distance from `begin()`. -/
def retrieveUntil (b : Buffer) (endPtr : Int) : Except Assert Buffer := do
  check .retrieveUntilPeek ((b.readerIndex : Int) ≤ endPtr)
  check .retrieveUntilBeginWrite (endPtr ≤ (b.writerIndex : Int))
  b.retrieve (endPtr - b.readerIndex).toNat

def retrieveAsString (b : Buffer) (len : Nat) : Except Assert (List Byte × Buffer) := do
  check .retrieveAsStringLen (len ≤ b.readableBytes)
  let result := Vec.slice b.buffer b.readerIndex len
  let b' ← b.retrieve len
  return (result, b')

def unwrite (b : Buffer) (len : Nat) : Except Assert Buffer := do
  check .unwriteLen (len ≤ b.readableBytes)
  return { b with writerIndex := b.writerIndex - len }

/-! ## Putting bytes in -/

/-- `makeSpace(len)`: grow the vector, or move the readable bytes down to
`kCheapPrepend` when the room in front and behind is enough together. -/
def makeSpace (b : Buffer) (len : Nat) : Except Assert Buffer :=
  if b.writableBytes + b.prependableBytes < len + kCheapPrepend then
    .ok { b with buffer := Vec.resize b.buffer (b.writerIndex + len) 0 }
  else do
    check .makeSpaceReaderIndex (kCheapPrepend < b.readerIndex)
    let readable := b.readableBytes
    let b' : Buffer :=
      { buffer := Vec.copyWithin b.buffer b.readerIndex kCheapPrepend
          (b.writerIndex - b.readerIndex)
        readerIndex := kCheapPrepend
        writerIndex := kCheapPrepend + readable }
    check .makeSpaceReadable (readable = b'.readableBytes)
    return b'

def ensureWritableBytes (b : Buffer) (len : Nat) : Except Assert Buffer := do
  let b' ← (if b.writableBytes < len then b.makeSpace len else .ok b : Except Assert Buffer)
  check .ensureWritableBytes (len ≤ b'.writableBytes)
  return b'

def hasWritten (b : Buffer) (len : Nat) : Except Assert Buffer := do
  check .hasWrittenLen (len ≤ b.writableBytes)
  return { b with writerIndex := b.writerIndex + len }

/-- `append(data, len)`, the range being the bytes of `data`. -/
def append (b : Buffer) (data : List Byte) : Except Assert Buffer := do
  let b' ← b.ensureWritableBytes data.length
  hasWritten { b' with buffer := Vec.copyTo b'.buffer b'.writerIndex data } data.length

def prepend (b : Buffer) (data : List Byte) : Except Assert Buffer := do
  check .prependLen (data.length ≤ b.prependableBytes)
  let readerIndex := b.readerIndex - data.length
  return { b with readerIndex, buffer := Vec.copyTo b.buffer readerIndex data }

/-- `static_cast<int>(n)` of a `size_t`. -/
def castInt (n : Nat) : Int := Int.bmod n (2 ^ 32)

/-- `toStringPiece()`: the bytes at `peek()`, as many as the `int` length says. -/
def toStringPiece (b : Buffer) : List Byte :=
  Vec.slice b.buffer b.readerIndex (castInt b.readableBytes).toNat

/-- `shrink(reserve)`: the old storage dies with the local `other`. -/
def shrink (b : Buffer) (reserve : Nat) : Except Assert Buffer := do
  let other ← new kInitialSize
  let other ← other.ensureWritableBytes (b.readableBytes + reserve)
  let other ← other.append b.toStringPiece
  return (b.swap other).1

end Buffer
end Muduo
