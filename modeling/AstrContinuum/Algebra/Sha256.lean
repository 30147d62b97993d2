import Mathlib.Algebra.GroupWithZero.Nat

/-!
# SHA-256

The digest of a text in UTF-8, as 64 hexadecimal digits. A word of 32 bits is a number below `2 ^ 32`:
what is added or shifted is cut back to 32 bits where it is kept.
-/

namespace Sha256

/-! ## Words -/

/-- A word turned to the right by some bits. -/
def rotateRight (count word : Nat) : Nat :=
  (word >>> count) ||| (word <<< (32 - count)) % 2 ^ 32

/-- Where a bit of `x` is set the bit of `y`, else the bit of `z`. -/
def choose (x y z : Nat) : Nat :=
  (x &&& y) ^^^ ((2 ^ 32 - 1 - x) &&& z)

/-- The bit that two of the three words have. -/
def majority (x y z : Nat) : Nat :=
  (x &&& y) ^^^ (x &&& z) ^^^ (y &&& z)

/-- The number that some bytes stand for, the highest first. -/
def bigEndian (bytes : List Nat) : Nat :=
  bytes.foldl (fun number byte => number * 256 + byte) 0

/-! ## A block -/

/-- The eight words that a digest is made of. -/
structure State where
  a : Nat
  b : Nat
  c : Nat
  d : Nat
  e : Nat
  f : Nat
  g : Nat
  h : Nat

/-- The state before the first block. -/
def State.start : State :=
  ⟨0x6a09e667, 0xbb67ae85, 0x3c6ef372, 0xa54ff53a, 0x510e527f, 0x9b05688c, 0x1f83d9ab, 0x5be0cd19⟩

/-- One constant a round. -/
def roundConstants : List Nat :=
  [0x428a2f98, 0x71374491, 0xb5c0fbcf, 0xe9b5dba5, 0x3956c25b, 0x59f111f1, 0x923f82a4, 0xab1c5ed5,
   0xd807aa98, 0x12835b01, 0x243185be, 0x550c7dc3, 0x72be5d74, 0x80deb1fe, 0x9bdc06a7, 0xc19bf174,
   0xe49b69c1, 0xefbe4786, 0x0fc19dc6, 0x240ca1cc, 0x2de92c6f, 0x4a7484aa, 0x5cb0a9dc, 0x76f988da,
   0x983e5152, 0xa831c66d, 0xb00327c8, 0xbf597fc7, 0xc6e00bf3, 0xd5a79147, 0x06ca6351, 0x14292967,
   0x27b70a85, 0x2e1b2138, 0x4d2c6dfc, 0x53380d13, 0x650a7354, 0x766a0abb, 0x81c2c92e, 0x92722c85,
   0xa2bfe8a1, 0xa81a664b, 0xc24b8b70, 0xc76c51a3, 0xd192e819, 0xd6990624, 0xf40e3585, 0x106aa070,
   0x19a4c116, 0x1e376c08, 0x2748774c, 0x34b0bcb5, 0x391c0cb3, 0x4ed8aa4a, 0x5b9cca4f, 0x682e6ff3,
   0x748f82ee, 0x78a5636f, 0x84c87814, 0x8cc70208, 0x90befffa, 0xa4506ceb, 0xbef9a3f7, 0xc67178f2]

/-- One round of the compression. -/
def State.round (s : State) (constant word : Nat) : State :=
  let first := s.h + (rotateRight 6 s.e ^^^ rotateRight 11 s.e ^^^ rotateRight 25 s.e) +
    choose s.e s.f s.g + constant + word
  let second := (rotateRight 2 s.a ^^^ rotateRight 13 s.a ^^^ rotateRight 22 s.a) +
    majority s.a s.b s.c
  ⟨(first + second) % 2 ^ 32, s.a, s.b, s.c, (s.d + first) % 2 ^ 32, s.e, s.f, s.g⟩

/-- The word that follows some words of the schedule, of which the newest stands first. -/
def nextWord (words : List Nat) : Nat :=
  let early := words.getD 14 0
  let late := words.getD 1 0
  (words.getD 15 0 + (rotateRight 7 early ^^^ rotateRight 18 early ^^^ early >>> 3) +
    words.getD 6 0 + (rotateRight 17 late ^^^ rotateRight 19 late ^^^ late >>> 10)) % 2 ^ 32

/-- The schedule with some more words, the oldest first. -/
def schedule : Nat → List Nat → List Nat
  | 0, words => words.reverse
  | count + 1, words => schedule count (nextWord words :: words)

/-- Two states, word by word. -/
def State.add (s t : State) : State :=
  ⟨(s.a + t.a) % 2 ^ 32, (s.b + t.b) % 2 ^ 32, (s.c + t.c) % 2 ^ 32, (s.d + t.d) % 2 ^ 32,
   (s.e + t.e) % 2 ^ 32, (s.f + t.f) % 2 ^ 32, (s.g + t.g) % 2 ^ 32, (s.h + t.h) % 2 ^ 32⟩

/-- The state after a block of sixteen words. -/
def State.compress (s : State) (block : List Nat) : State :=
  s.add ((roundConstants.zip (schedule 48 block.reverse)).foldl
    (fun t entry => t.round entry.1 entry.2) s)

/-! ## A text -/

/-- A list in so many parts of one size. -/
def parts (size : Nat) : Nat → List Nat → List (List Nat)
  | 0, _ => []
  | count + 1, list => list.take size :: parts size count (list.drop size)

/-- The bytes of a message, filled up to whole blocks with its length in bits at the end. -/
def pad (bytes : List Nat) : List Nat :=
  bytes ++ 0x80 :: List.replicate ((119 - bytes.length % 64) % 64) 0 ++
    (List.range 8).map fun i => bytes.length * 8 / 256 ^ (7 - i) % 256

/-- The state after all blocks of a message. -/
def digest (bytes : List Nat) : State :=
  let padded := pad bytes
  (parts 64 (padded.length / 64) padded).foldl
    (fun s block => s.compress ((parts 4 16 block).map bigEndian)) State.start

/-- The sixteen digits. -/
def hexDigits : List Char :=
  ['0', '1', '2', '3', '4', '5', '6', '7', '8', '9', 'a', 'b', 'c', 'd', 'e', 'f']

/-- A word in eight digits. -/
def hexWord (word : Nat) : List Char :=
  (List.range 8).map fun i => hexDigits.getD (word / 16 ^ (7 - i) % 16) '0'

/-- A state in 64 digits. -/
def State.hex (s : State) : List Char :=
  hexWord s.a ++ hexWord s.b ++ hexWord s.c ++ hexWord s.d ++ hexWord s.e ++ hexWord s.f ++
    hexWord s.g ++ hexWord s.h

/-- The digest of a text in UTF-8. -/
def hexdigest (text : String) : String :=
  String.ofList (digest (text.toUTF8.data.toList.map UInt8.toNat)).hex

/-! ## The form of a digest -/

/-- A word is written in eight digits. -/
@[simp] theorem hexWord_length (word : Nat) : (hexWord word).length = 8 := by
  simp [hexWord]

/-- A word is written in digits only. -/
theorem mem_hexWord {word : Nat} {c : Char} (h : c ∈ hexWord word) : c ∈ hexDigits := by
  have hall : ∀ n ∈ List.range 16, hexDigits.getD n '0' ∈ hexDigits := by decide +kernel
  obtain ⟨i, _, rfl⟩ := List.mem_map.mp h
  exact hall _ (List.mem_range.mpr (Nat.mod_lt _ (by decide)))

/-- A digest has 64 characters. -/
theorem hexdigest_length (text : String) : (hexdigest text).length = 64 := by
  simp [hexdigest, State.hex]

/-- A digest has hexadecimal digits only. -/
theorem mem_hexdigest {text : String} {c : Char} (h : c ∈ (hexdigest text).toList) :
    c ∈ hexDigits := by
  simp only [hexdigest, State.hex, String.toList_ofList, List.mem_append] at h
  obtain ((((((h | h) | h) | h) | h) | h) | h) | h := h <;> exact mem_hexWord h

example : hexdigest "abc" =
    "ba7816bf8f01cfea414140de5dae2223b00361a396177a9cb410ff61f20015ad" := by
  decide +kernel

end Sha256
