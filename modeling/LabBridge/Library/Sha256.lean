import LabBridge.Library.ByteText

/-!
# The SHA-256 digest

The digest of a byte string, as its lower-case hexadecimal text. Words are 32-bit machine
integers; the message schedule keeps its newest word first.
-/

namespace Sha256

open ByteText

/-- The round constants. -/
def roundConstants : List UInt32 := [
  0x428a2f98, 0x71374491, 0xb5c0fbcf, 0xe9b5dba5, 0x3956c25b, 0x59f111f1, 0x923f82a4, 0xab1c5ed5,
  0xd807aa98, 0x12835b01, 0x243185be, 0x550c7dc3, 0x72be5d74, 0x80deb1fe, 0x9bdc06a7, 0xc19bf174,
  0xe49b69c1, 0xefbe4786, 0x0fc19dc6, 0x240ca1cc, 0x2de92c6f, 0x4a7484aa, 0x5cb0a9dc, 0x76f988da,
  0x983e5152, 0xa831c66d, 0xb00327c8, 0xbf597fc7, 0xc6e00bf3, 0xd5a79147, 0x06ca6351, 0x14292967,
  0x27b70a85, 0x2e1b2138, 0x4d2c6dfc, 0x53380d13, 0x650a7354, 0x766a0abb, 0x81c2c92e, 0x92722c85,
  0xa2bfe8a1, 0xa81a664b, 0xc24b8b70, 0xc76c51a3, 0xd192e819, 0xd6990624, 0xf40e3585, 0x106aa070,
  0x19a4c116, 0x1e376c08, 0x2748774c, 0x34b0bcb5, 0x391c0cb3, 0x4ed8aa4a, 0x5b9cca4f, 0x682e6ff3,
  0x748f82ee, 0x78a5636f, 0x84c87814, 0x8cc70208, 0x90befffa, 0xa4506ceb, 0xbef9a3f7, 0xc67178f2]

/-- The eight working words. -/
structure State where
  a : UInt32
  b : UInt32
  c : UInt32
  d : UInt32
  e : UInt32
  f : UInt32
  g : UInt32
  h : UInt32

/-- The words a digest starts from. -/
def State.initial : State :=
  ⟨0x6a09e667, 0xbb67ae85, 0x3c6ef372, 0xa54ff53a, 0x510e527f, 0x9b05688c, 0x1f83d9ab, 0x5be0cd19⟩

/-- Rotate a word to the right. -/
def rotateRight (word : UInt32) (count : UInt32) : UInt32 :=
  (word >>> count) ||| (word <<< (32 - count))

/-- One round with its constant and schedule word. -/
def State.round (s : State) (constant word : UInt32) : State :=
  let sum := rotateRight s.e 6 ^^^ rotateRight s.e 11 ^^^ rotateRight s.e 25
  let choice := (s.e &&& s.f) ^^^ (~~~s.e &&& s.g)
  let first := s.h + sum + choice + constant + word
  let sum := rotateRight s.a 2 ^^^ rotateRight s.a 13 ^^^ rotateRight s.a 22
  let majority := (s.a &&& s.b) ^^^ (s.a &&& s.c) ^^^ (s.b &&& s.c)
  ⟨first + (sum + majority), s.a, s.b, s.c, s.d + first, s.e, s.f, s.g⟩

/-- Add two states word by word. -/
def State.add (s t : State) : State :=
  ⟨s.a + t.a, s.b + t.b, s.c + t.c, s.d + t.d, s.e + t.e, s.f + t.f, s.g + t.g, s.h + t.h⟩

/-- Extend a schedule, newest word first. -/
def extend : ℕ → List UInt32 → List UInt32
  | 0, words => words
  | count + 1, words =>
    let recent := words.getD 1 0
    let old := words.getD 14 0
    let small := rotateRight old 7 ^^^ rotateRight old 18 ^^^ (old >>> 3)
    let large := rotateRight recent 17 ^^^ rotateRight recent 19 ^^^ (recent >>> 10)
    extend count ((words.getD 15 0 + small + words.getD 6 0 + large) :: words)

/-- The word of four bytes. -/
def wordOf (a b c d : UInt8) : UInt32 :=
  (a.toUInt32 <<< 24) ||| (b.toUInt32 <<< 16) ||| (c.toUInt32 <<< 8) ||| d.toUInt32

/-- The words of a byte string. -/
def wordsOf : Bytes → List UInt32
  | a :: b :: c :: d :: rest => wordOf a b c d :: wordsOf rest
  | _ => []

/-- Work one block of sixteen words into a state. -/
def State.compress (s : State) (block : List UInt32) : State :=
  let words := (extend 48 block.reverse).reverse
  s.add ((roundConstants.zip words).foldl (fun state step => state.round step.1 step.2) s)

/-- Work a number of blocks into a state. -/
def State.absorb : ℕ → List UInt32 → State → State
  | 0, _, s => s
  | blocks + 1, words, s => absorb blocks (words.drop 16) (s.compress (words.take 16))

/-- The eight bytes of a bit length. -/
def lengthBytes (bits : ℕ) : Bytes :=
  [56, 48, 40, 32, 24, 16, 8, 0].map fun shift => UInt8.ofNat (bits >>> shift)

/-- A message with its padding. -/
def padded (message : Bytes) : Bytes :=
  message ++ [0x80] ++ List.replicate ((119 - message.length % 64) % 64) 0 ++
    lengthBytes (8 * message.length)

/-- The words of a digest. -/
def digest (message : Bytes) : List UInt32 :=
  let words := wordsOf (padded message)
  let s := State.absorb (words.length / 16) words .initial
  [s.a, s.b, s.c, s.d, s.e, s.f, s.g, s.h]

/-- A lower-case hexadecimal digit. -/
def digit (n : Fin 16) : UInt8 := if n.val < 10 then UInt8.ofNat (48 + n) else UInt8.ofNat (87 + n)

/-- The eight digits of a word. -/
def wordHex (word : UInt32) : Bytes :=
  [28, 24, 20, 16, 12, 8, 4, 0].map fun shift => digit (Fin.ofNat 16 (word.toNat >>> shift))

/-- `sha256_hex`. -/
def sha256Hex (message : Bytes) : Bytes := (digest message).flatMap wordHex

/-- A digest has sixty-four digits. -/
theorem length_sha256Hex (message : Bytes) : (sha256Hex message).length = 64 := rfl

/-- A digest is plain ASCII. -/
theorem ascii_sha256Hex (message : Bytes) : ∀ b ∈ sha256Hex message, 0 < b ∧ b < 128 := by
  intro b hb
  obtain ⟨word, -, hb⟩ := List.mem_flatMap.mp hb
  obtain ⟨shift, -, rfl⟩ := List.mem_map.mp hb
  exact (by decide : ∀ n : Fin 16, 0 < digit n ∧ digit n < 128) _

example : sha256Hex (text "abc") =
    text "ba7816bf8f01cfea414140de5dae2223b00361a396177a9cb410ff61f20015ad" := by decide +kernel

end Sha256
