import OttQuic.Lib.BigEndian
import OttQuic.Lib.BlockHash

/-!
# SHA-1 as the standard defines it (FIPS 180)

The message is padded as a whole and cut into blocks of 64 bytes; each block gives a schedule of 80 words, and 80
rounds over them are added to the five words of the hash value.
-/

namespace Fips180

open BigEndian BlockHash

/-- The rotation to the left. -/
def rotl (n : Nat) (x : UInt32) : UInt32 := ⟨x.toBitVec.rotateLeft n⟩

def ch (x y z : UInt32) : UInt32 := (x &&& y) ^^^ (~~~x &&& z)

def parity (x y z : UInt32) : UInt32 := x ^^^ y ^^^ z

def maj (x y z : UInt32) : UInt32 := (x &&& y) ^^^ (x &&& z) ^^^ (y &&& z)

/-- The function of round `t`. -/
def f (t : Nat) : UInt32 → UInt32 → UInt32 → UInt32 :=
  if t < 20 then ch else if t < 40 then parity else if t < 60 then maj else parity

/-- The constant of round `t`. -/
def constant (t : Nat) : UInt32 :=
  if t < 20 then 0x5A827999 else if t < 40 then 0x6ED9EBA1 else if t < 60 then 0x8F1BBCDC else 0xCA62C1D6

/-- A hash value. -/
structure Words where
  a : UInt32
  b : UInt32
  c : UInt32
  d : UInt32
  e : UInt32
  deriving DecidableEq

def initial : Words := ⟨0x67452301, 0xEFCDAB89, 0x98BADCFE, 0x10325476, 0xC3D2E1F0⟩

/-- The words of a block. -/
def word (block : List UInt8) (t : Nat) : UInt32 := UInt32.ofNat (ofBigEndian ((block.drop (4 * t)).take 4))

/-- The message schedule. -/
def schedule (block : List UInt8) (t : Nat) : UInt32 :=
  if t < 16 then word block t
  else rotl 1 (schedule block (t - 3) ^^^ schedule block (t - 8) ^^^ schedule block (t - 14) ^^^ schedule block (t - 16))

def round (block : List UInt8) (h : Words) (t : Nat) : Words :=
  ⟨rotl 5 h.a + f t h.b h.c h.d + h.e + constant t + schedule block t, h.a, rotl 30 h.b, h.c, h.d⟩

/-- The hash value after a block. -/
def compress (h : Words) (block : List UInt8) : Words :=
  let r := (List.range 80).foldl (round block) h
  ⟨h.a + r.a, h.b + r.b, h.c + r.c, h.d + r.d, h.e + r.e⟩

/-- The zeros between the marker and the length. -/
def zeros (n : Nat) : Nat := (119 - n % 64) % 64

/-- What is appended to a message of `n` bytes. -/
def padding (n : Nat) : List UInt8 := 0x80 :: (List.replicate (zeros n) 0 ++ bigEndian 8 (8 * n))

def pad (message : List UInt8) : List UInt8 := message ++ padding message.length

def digest (h : Words) : List UInt8 := [h.a, h.b, h.c, h.d, h.e].flatMap fun x => bigEndian 4 x.toNat

/-- **SHA-1**. -/
def sha1 (message : List UInt8) : List UInt8 := digest (hashBlocks compress 64 initial (pad message))

@[simp] theorem sha1_length (message : List UInt8) : (sha1 message).length = 20 := rfl

theorem zeros_eq_iff {n z : Nat} (hz : z < 64) : zeros n = z ↔ (n + 1 + z) % 64 = 56 := by
  rw [zeros]
  omega

end Fips180
