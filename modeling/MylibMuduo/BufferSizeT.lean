import Mathlib.Algebra.Group.Int.Defs
import Mathlib.Algebra.Group.Nat.Defs
import MylibMuduo.Buffer

/-!
# The buffer in size_t

The functions of `Buffer.h` and `Buffer.cc` with every sum and difference taken in `size_t`, which
wraps. `Buffer` counts the same bytes by natural numbers. The vector of a buffer and its two
indices are the same data on both sides.
-/

namespace MylibMuduo

/-- The value of `n` as a `size_t`. -/
def sizeT (n : Int) : Nat := (n % 2 ^ 64).toNat

lemma sizeT_add {m n : Nat} (h : m + n < 2 ^ 64) : sizeT (m + n) = m + n := by
  unfold sizeT
  omega

lemma sizeT_sub {m n : Nat} (hle : n ≤ m) (h : m < 2 ^ 64) : sizeT (m - n) = m - n := by
  unfold sizeT
  omega

namespace Buffer.SizeT

/-- `Buffer::Buffer(initial_size)`. -/
def make (initialSize : Nat) : Buffer :=
  ⟨List.replicate (sizeT (kCheapPrepend + initialSize)) 0, kCheapPrepend, kCheapPrepend⟩

def readableBytes (b : Buffer) : Nat := sizeT (b.writeIndex - b.readIndex)

def writeableBytes (b : Buffer) : Nat := sizeT (b.buffer.length - b.writeIndex)

/-- The test of `makeSpace`: the free space does not hold `len` more bytes. -/
def outOfSpace (b : Buffer) (len : Nat) : Bool :=
  decide (sizeT (b.prependableBytes + writeableBytes b) < sizeT (len + kCheapPrepend))

def makeSpace (b : Buffer) (len : Nat) : Buffer :=
  if outOfSpace b len then
    { b with buffer := resize b.buffer (sizeT (b.writeIndex + len)) }
  else
    { buffer := copyTo b.buffer kCheapPrepend (b.peek (readableBytes b))
      readIndex := kCheapPrepend
      writeIndex := sizeT (kCheapPrepend + readableBytes b) }

def ensureWriteableBytes (b : Buffer) (len : Nat) : Buffer :=
  if writeableBytes b < len then makeSpace b len else b

def append (b : Buffer) (str : Bytes) : Buffer :=
  let b := ensureWriteableBytes b str.length
  { b with
    buffer := copyTo b.buffer b.writeIndex str
    writeIndex := sizeT (b.writeIndex + str.length) }

def retrieve (b : Buffer) (len : Nat) : Buffer :=
  if len < readableBytes b then { b with readIndex := sizeT (b.readIndex + len) } else b.retrieveAll

/-- The total length of the iovecs that `readFd` passes to `readv`. -/
def readvCapacity (b : Buffer) : Nat :=
  if kExtraBufferSize < writeableBytes b then writeableBytes b
  else writeableBytes b + kExtraBufferSize

/-- `Buffer::readFd` on the result of its `readv`. -/
def readFd (b : Buffer) : ReadvResult → Buffer
  | .err _ => b
  | .ok data =>
    let filled := copyTo b.buffer b.writeIndex (data.take (writeableBytes b))
    if data.length ≤ writeableBytes b then
      { b with buffer := filled, writeIndex := sizeT (b.writeIndex + data.length) }
    else
      append { b with buffer := filled, writeIndex := b.buffer.length }
        (data.drop (writeableBytes b))

end Buffer.SizeT

end MylibMuduo
