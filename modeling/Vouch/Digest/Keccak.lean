import Vouch.Bytes
import Vouch.Pieces

/-! Keccak-256 with the padding that came before SHA-3, and truncation.

The state is five by five lanes of 64 bits. A message is padded by a one byte and a
final high bit to blocks of 136 bytes, each added into the first lanes before the
permutation of 24 rounds. Type ids and property hashes are the low bits of the digest
read as a big-endian integer: `truncated_lt` bounds them. -/
namespace Vouch.Digest.Keccak

/-- Lane `(x, y)` stands at `x + 5 * y`. -/
abbrev State := Vector UInt64 25

def blockLength : Nat := 136

def roundConstants : List UInt64 := [
  0x0000000000000001, 0x0000000000008082, 0x800000000000808a, 0x8000000080008000,
  0x000000000000808b, 0x0000000080000001, 0x8000000080008081, 0x8000000000008009,
  0x000000000000008a, 0x0000000000000088, 0x0000000080008009, 0x000000008000000a,
  0x000000008000808b, 0x800000000000008b, 0x8000000000008089, 0x8000000000008003,
  0x8000000000008002, 0x8000000000000080, 0x000000000000800a, 0x800000008000000a,
  0x8000000080008081, 0x8000000000008080, 0x0000000080000001, 0x8000000080008008]

/-- How far each lane is rotated, lane `(x, y)` at `x + 5 * y`. -/
def offsets : Vector UInt64 25 :=
  #v[0, 1, 62, 28, 27, 36, 44, 6, 55, 20, 3, 10, 43, 25, 39, 41, 45, 15, 21, 8, 18, 2, 61, 56, 14]

def rotateLeft (x n : UInt64) : UInt64 :=
  (x <<< n) ||| (x >>> (64 - n))

/-- The entry at `(x, y)`, both taken modulo five. -/
def lane (s : State) (x y : Nat) : UInt64 :=
  s.get ⟨x % 5 + 5 * (y % 5), by omega⟩

/-- The state whose lane `(x, y)` is `f x y`. -/
def ofLanes (f : Nat → Nat → UInt64) : State :=
  Vector.ofFn fun i => f (i.val % 5) (i.val / 5)

/-- The parity of a column. -/
def parity (s : State) (x : Nat) : UInt64 :=
  lane s x 0 ^^^ lane s x 1 ^^^ lane s x 2 ^^^ lane s x 3 ^^^ lane s x 4

/-- Adds to every lane the parities of the two columns beside it, one of them rotated. -/
def spread (s : State) : State :=
  let parities : Vector UInt64 5 := Vector.ofFn fun x => parity s x.val
  let column (x : Nat) : UInt64 := parities.get ⟨x % 5, by omega⟩
  ofLanes fun x y => lane s x y ^^^ column (x + 4) ^^^ rotateLeft (column (x + 1)) 1

/-- Rotates the lanes and moves them to their new places. -/
def turn (s : State) : State :=
  ofLanes fun x y => rotateLeft (lane s (x + 3 * y) x) (lane offsets (x + 3 * y) x)

/-- Adds to every lane a product of the next two in its row. -/
def bend (s : State) : State :=
  ofLanes fun x y => lane s x y ^^^ (~~~lane s (x + 1) y &&& lane s (x + 2) y)

def round (s : State) (constant : UInt64) : State :=
  let t := bend (turn (spread s))
  t.set 0 (lane t 0 0 ^^^ constant)

def permute (s : State) : State :=
  roundConstants.foldl round s

/-- Adds a block into the first lanes, eight bytes a lane, least significant first. -/
def addBlock (s : State) (block : List UInt8) : State :=
  Vector.ofFn fun i =>
    s.get i ^^^ UInt64.ofNat (Bytes.ofLittleEndian ((block.drop (8 * i.val)).take 8))

/-- One bit behind the message and one at the end of the last block. -/
def padded (message : List UInt8) : List UInt8 :=
  let room := blockLength - message.length % blockLength
  if room = 1 then message ++ [0x81]
  else message ++ 0x01 :: List.replicate (room - 2) 0 ++ [0x80]

/-- The digest, 32 bytes. -/
def hash (message : List UInt8) : List UInt8 :=
  let s := (pieces blockLength (by decide) (padded message)).foldl
    (fun s block => permute (addBlock s block)) (Vector.replicate 25 0)
  (s.toList.take 4).flatMap fun w => Bytes.toLittleEndian 8 w.toNat

/-- The low bits of the digest. -/
def truncated (message : List UInt8) (bits : Nat) : Nat :=
  Bytes.ofBigEndian (hash message) % 2 ^ bits

theorem truncated_lt (message : List UInt8) (bits : Nat) : truncated message bits < 2 ^ bits :=
  Nat.mod_lt _ (Nat.pow_pos (by decide))

end Vouch.Digest.Keccak
