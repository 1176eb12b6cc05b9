import YulGasRules.Machine.UInt256

/-!
# Byte arrays and word encodings

The byte-level part of the machine memory: big-endian encodings of words, and
the padded reads and growing writes through which every memory instruction goes.
-/

namespace YulGasRules

/-- The foreign functions of the interpreter whose code is linked in from
outside; `KEC` is the Keccak-256 hash. -/
class FFI where
  KEC : ByteArray → ByteArray

/-- `n` zero bytes.  The foreign function takes a `size_t`, here of 64 bits, so
a length is truncated on the way in. -/
def FFI.zeroes (n : UInt64) : ByteArray := ⟨Array.replicate n.toNat 0⟩

/-- Convert from a list of little-endian bytes to a natural number. -/
def fromBytes' : List UInt8 → Nat
  | [] => 0
  | b :: bs => b.toNat + 2 ^ 8 * fromBytes' bs

/-- The number that bytes stand for, from the most significant one on. -/
def fromBytesBigEndian (bytes : List UInt8) : Nat := fromBytes' bytes.reverse

def fromByteArrayBigEndian (bytes : ByteArray) : Nat := fromBytesBigEndian bytes.toList

/-- Convert a natural number into a list of little-endian bytes. -/
def toBytes' : Nat → List UInt8
  | 0 => []
  | n + 1 => UInt8.ofNat ((n + 1) % UInt8.size) :: toBytes' ((n + 1) / UInt8.size)
termination_by n => n
decreasing_by exact Nat.div_lt_self (Nat.succ_pos n) (by decide)

/-- The bytes of a number, without leading zeros. -/
def toBytesBigEndian (n : Nat) : List UInt8 := (toBytes' n).reverse

/-- Big-endian bytes of a number, without leading zeros. -/
def BE (n : Nat) : ByteArray := (toBytesBigEndian n).toByteArray

/-- The 32 big-endian bytes of a word. -/
def UInt256.toByteArray (val : UInt256) : ByteArray :=
  let b := BE val.toNat
  FFI.zeroes (.ofNat (32 - b.size)) ++ b

/-- The word that an array of bytes stands for. -/
def uInt256OfByteArray (arr : ByteArray) : UInt256 :=
  .ofNat <| fromBytes' arr.data.toList.reverse

end YulGasRules

namespace ByteArray

open YulGasRules

/-- A part of an array, with zeros for what lies past its end. -/
def readBytes (source : ByteArray) (start size : Nat) : ByteArray :=
  let read :=
    if start < 2 ^ 64 && size < 2 ^ 64 then source.copySlice start empty 0 size
    else ⟨⟨source.toList.drop start |>.take size⟩⟩
  read ++ FFI.zeroes (.ofNat (size - read.size))

/-- A part of an array, cut off at its end. -/
def readWithoutPadding (source : ByteArray) (addr len : Nat) : ByteArray :=
  if addr ≥ source.size then empty
  else
    let len := min len source.size
    source.extract addr (addr + len)

/-- Read `len` bytes, with zeros past the end.  From `2^64` on the source gives
up with its default value. -/
def readWithPadding (source : ByteArray) (addr len : Nat) : ByteArray :=
  if len ≥ 2 ^ 64 then default
  else
    let read := source.readWithoutPadding addr len
    read ++ FFI.zeroes (.ofNat (len - read.size))

/-- Write `len` bytes of `source` into `dest`, growing `dest` where the target
lies past its end. -/
def write (source : ByteArray) (sourceAddr : Nat) (dest : ByteArray)
    (destAddr len : Nat) : ByteArray :=
  if len = 0 then dest
  else if sourceAddr ≥ source.size then
    let len := min len (dest.size - destAddr)
    let destAddr := min destAddr dest.size
    (FFI.zeroes (.ofNat len)).copySlice 0 dest destAddr len
  else
    let practicalLen := min len (source.size - sourceAddr)
    let endPaddingAddr := min dest.size (destAddr + len)
    let sourcePaddingLength := endPaddingAddr - (destAddr + practicalLen)
    let sourcePadding := FFI.zeroes (.ofNat sourcePaddingLength)
    let destPaddingLength := destAddr - dest.size
    let destPadding := FFI.zeroes (.ofNat destPaddingLength)
    (source ++ sourcePadding).copySlice sourceAddr (dest ++ destPadding)
      destAddr (practicalLen + sourcePaddingLength)

end ByteArray
