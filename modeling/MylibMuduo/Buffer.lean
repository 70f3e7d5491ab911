import Mathlib.Tactic.Common

/-!
# Buffer

The vector of bytes with a read and a write index that `Buffer.h` and `Buffer.cc` define.
The bytes before `readIndex` are prependable, those from `readIndex` to `writeIndex` are
readable and the rest is writable. Byte counts are natural numbers here; `Buffer.SizeT` takes the
same sums in `size_t` and agrees with these functions as long as they fit.
-/

namespace MylibMuduo

abbrev Bytes := List UInt8

def kCheapPrepend : Nat := 8

def kInitialSize : Nat := 1024

/-- The size of the stack buffer of `Buffer::readFd`. -/
def kExtraBufferSize : Nat := 65536

/-- `errno` as far as the library looks at it. -/
inductive Errno where
  | ewouldblock | epipe | econnreset
  | other (code : Nat)
  deriving DecidableEq, Repr

/-- The result of `write` or `sendfile`: a count, or -1 with `errno`. -/
inductive SysResult where
  | ok (n : Nat)
  | err (e : Errno)
  deriving DecidableEq, Repr

/-- The result of `readv`: the bytes delivered (none at end of file), or -1 with `errno`. -/
inductive ReadvResult where
  | ok (data : Bytes)
  | err (e : Errno)
  deriving DecidableEq, Repr

structure Buffer where
  buffer : Bytes
  readIndex : Nat
  writeIndex : Nat
  deriving DecidableEq, Repr

/-- `std::vector::resize`. -/
def resize (v : Bytes) (n : Nat) : Bytes := v.take n ++ List.replicate (n - v.length) 0

/-- `std::copy` of `src` to the position `pos` of a vector. -/
def copyTo (v : Bytes) (pos : Nat) (src : Bytes) : Bytes :=
  v.take pos ++ src ++ v.drop (pos + src.length)

/-- `std::string(p, len)` for a pointer `p` to the position `pos` of a vector; `none` if the bytes are
not all in the vector, where the source is undefined. -/
def stringAt (v : Bytes) (pos len : Nat) : Option Bytes :=
  if pos + len ≤ v.length then some ((v.drop pos).take len) else none

namespace Buffer

/-- `Buffer::Buffer(initial_size)`. -/
def make (initialSize : Nat) : Buffer :=
  ⟨List.replicate (kCheapPrepend + initialSize) 0, kCheapPrepend, kCheapPrepend⟩

def readableBytes (b : Buffer) : Nat := b.writeIndex - b.readIndex

def writeableBytes (b : Buffer) : Nat := b.buffer.length - b.writeIndex

def prependableBytes (b : Buffer) : Nat := b.readIndex

/-- `len` bytes from `peek()`. -/
def peek (b : Buffer) (len : Nat) : Bytes := (b.buffer.drop b.readIndex).take len

/-- The readable region. -/
def readable (b : Buffer) : Bytes := b.peek b.readableBytes

def makeSpace (b : Buffer) (len : Nat) : Buffer :=
  if b.prependableBytes + b.writeableBytes < len + kCheapPrepend then
    { b with buffer := resize b.buffer (b.writeIndex + len) }
  else
    { buffer := copyTo b.buffer kCheapPrepend b.readable
      readIndex := kCheapPrepend
      writeIndex := kCheapPrepend + b.readableBytes }

def ensureWriteableBytes (b : Buffer) (len : Nat) : Buffer :=
  if b.writeableBytes < len then b.makeSpace len else b

def append (b : Buffer) (str : Bytes) : Buffer :=
  let b := b.ensureWriteableBytes str.length
  { b with
    buffer := copyTo b.buffer b.writeIndex str
    writeIndex := b.writeIndex + str.length }

def retrieveAll (b : Buffer) : Buffer :=
  { b with readIndex := kCheapPrepend, writeIndex := kCheapPrepend }

def retrieve (b : Buffer) (len : Nat) : Buffer :=
  if len < b.readableBytes then { b with readIndex := b.readIndex + len } else b.retrieveAll

def retrieveAsString (b : Buffer) (len : Nat) : Bytes × Buffer := (b.peek len, b.retrieve len)

/-- `retrieveAsString` with its reads checked against the end of the vector. -/
def retrieveAsStringChecked (b : Buffer) (len : Nat) : Option (Bytes × Buffer) :=
  (stringAt b.buffer b.readIndex len).map fun data => (data, b.retrieve len)

def retrieveAllAsString (b : Buffer) : Bytes × Buffer := b.retrieveAsString b.readableBytes

/-- The total length of the iovecs that `readFd` passes to `readv`. -/
def readvCapacity (b : Buffer) : Nat :=
  if kExtraBufferSize < b.writeableBytes then b.writeableBytes
  else b.writeableBytes + kExtraBufferSize

/-- `Buffer::readFd` on the result of its `readv`. -/
def readFd (b : Buffer) : ReadvResult → Buffer
  | .err _ => b
  | .ok data =>
    let filled := copyTo b.buffer b.writeIndex (data.take b.writeableBytes)
    if data.length ≤ b.writeableBytes then
      { b with buffer := filled, writeIndex := b.writeIndex + data.length }
    else
      append { b with buffer := filled, writeIndex := b.buffer.length }
        (data.drop b.writeableBytes)

end Buffer

end MylibMuduo
