import Drawing.Text.Quoted

/-!
# `Drawing/Text/Digest.lean` — the digest of a text

SHA-256 of the UTF-8 bytes of a text. A message is padded to whole blocks of sixteen words; each block is
stretched to a schedule of sixty-four words, and each word of the schedule turns the state once. The state
after a block is added to the one before it, word by word.

`shortDigest` keeps the first eight bytes, enough to tell texts apart in a cache key.
-/

namespace Drawing.Digest

/-- The constants of the rounds: the first 32 bits of the fractional parts of the cube roots of the first
sixty-four primes. -/
def roundConstants : List UInt32 := [
  0x428a2f98, 0x71374491, 0xb5c0fbcf, 0xe9b5dba5, 0x3956c25b, 0x59f111f1, 0x923f82a4, 0xab1c5ed5,
  0xd807aa98, 0x12835b01, 0x243185be, 0x550c7dc3, 0x72be5d74, 0x80deb1fe, 0x9bdc06a7, 0xc19bf174,
  0xe49b69c1, 0xefbe4786, 0x0fc19dc6, 0x240ca1cc, 0x2de92c6f, 0x4a7484aa, 0x5cb0a9dc, 0x76f988da,
  0x983e5152, 0xa831c66d, 0xb00327c8, 0xbf597fc7, 0xc6e00bf3, 0xd5a79147, 0x06ca6351, 0x14292967,
  0x27b70a85, 0x2e1b2138, 0x4d2c6dfc, 0x53380d13, 0x650a7354, 0x766a0abb, 0x81c2c92e, 0x92722c85,
  0xa2bfe8a1, 0xa81a664b, 0xc24b8b70, 0xc76c51a3, 0xd192e819, 0xd6990624, 0xf40e3585, 0x106aa070,
  0x19a4c116, 0x1e376c08, 0x2748774c, 0x34b0bcb5, 0x391c0cb3, 0x4ed8aa4a, 0x5b9cca4f, 0x682e6ff3,
  0x748f82ee, 0x78a5636f, 0x84c87814, 0x8cc70208, 0x90befffa, 0xa4506ceb, 0xbef9a3f7, 0xc67178f2]

/-- The state of the digest: eight words. -/
structure State where
  a : UInt32
  b : UInt32
  c : UInt32
  d : UInt32
  e : UInt32
  f : UInt32
  g : UInt32
  h : UInt32

/-- The state before the first block: the first 32 bits of the fractional parts of the square roots of the
first eight primes. -/
def State.start : State :=
  ⟨0x6a09e667, 0xbb67ae85, 0x3c6ef372, 0xa54ff53a, 0x510e527f, 0x9b05688c, 0x1f83d9ab, 0x5be0cd19⟩

def State.words (s : State) : List UInt32 := [s.a, s.b, s.c, s.d, s.e, s.f, s.g, s.h]

/-- The sum of two states, word by word. -/
def State.add (s t : State) : State :=
  ⟨s.a + t.a, s.b + t.b, s.c + t.c, s.d + t.d, s.e + t.e, s.f + t.f, s.g + t.g, s.h + t.h⟩

/-- A word rotated to the right. -/
def rotate (x : UInt32) (n : UInt32) : UInt32 := (x >>> n) ||| (x <<< (32 - n))

/-- One turn of the state by a word of the schedule with its constant added. -/
def State.turn (s : State) (word : UInt32) : State :=
  let mixE := rotate s.e 6 ^^^ rotate s.e 11 ^^^ rotate s.e 25
  let choice := (s.e &&& s.f) ^^^ ((~~~s.e) &&& s.g)
  let first := s.h + mixE + choice + word
  let mixA := rotate s.a 2 ^^^ rotate s.a 13 ^^^ rotate s.a 22
  let majority := (s.a &&& s.b) ^^^ (s.a &&& s.c) ^^^ (s.b &&& s.c)
  ⟨first + mixA + majority, s.a, s.b, s.c, s.d + first, s.e, s.f, s.g⟩

/-- The next word of a schedule, given the ones before it in reverse. -/
def nextWord (before : List UInt32) : UInt32 :=
  let back (n : Nat) : UInt32 := before.getD (n - 1) 0
  let x := back 15
  let y := back 2
  back 16 + (rotate x 7 ^^^ rotate x 18 ^^^ (x >>> 3)) + back 7 +
    (rotate y 17 ^^^ rotate y 19 ^^^ (y >>> 10))

/-- A reversed schedule with a number of further words. -/
def extendSchedule : Nat → List UInt32 → List UInt32
  | 0, ws => ws
  | n + 1, ws => extendSchedule n (nextWord ws :: ws)

/-- The schedule of a block of sixteen words. -/
def schedule (block : List UInt32) : List UInt32 := (extendSchedule 48 block.reverse).reverse

def State.absorb (s : State) (block : List UInt32) : State :=
  (((schedule block).zip roundConstants).foldl (fun t (w, k) => t.turn (w + k)) s).add s

/-- The byte of a number at a place counted from the right. -/
def byteAt (n place : Nat) : UInt8 := UInt8.ofNat (n >>> (8 * place))

/-- The bytes of a message with what fills it up to whole blocks: a one bit, zeros, and its length in
bits as eight bytes. -/
def padded (bytes : List UInt8) : List UInt8 :=
  -- Nine bytes of the last block are set: one holds the bit, eight the length.
  let zeros := (119 - bytes.length % 64) % 64
  bytes ++ 0x80 :: List.replicate zeros 0 ++ [7, 6, 5, 4, 3, 2, 1, 0].map (byteAt (8 * bytes.length))

/-- Four bytes as a word, the first one on the left. -/
def wordsOf : List UInt8 → List UInt32
  | a :: b :: c :: d :: rest =>
    ((a.toUInt32 <<< 24) ||| (b.toUInt32 <<< 16) ||| (c.toUInt32 <<< 8) ||| d.toUInt32) :: wordsOf rest
  | _ => []

/-- The state after all blocks of a message; `fuel` bounds their number. -/
def absorbAll (fuel : Nat) (s : State) (words : List UInt32) : State :=
  match fuel, words with
  | 0, _ => s
  | _, [] => s
  | fuel + 1, words => absorbAll fuel (s.absorb (words.take 16)) (words.drop 16)

/-- The digest of some bytes as words. -/
def digestWords (bytes : List UInt8) : List UInt32 :=
  let words := wordsOf (padded bytes)
  (absorbAll words.length State.start words).words

/-- The digest of a text in hexadecimal digits. -/
def text (s : String) : String :=
  String.ofList ((digestWords s.toUTF8.toList).flatMap fun w => hexText 8 w.toNat)

end Drawing.Digest

namespace Drawing

/-- The first sixteen digits of a text's digest. -/
def shortDigest (s : String) : String := String.ofList ((Digest.text s).toList.take 16)

end Drawing
