/-!
# Digests

The digest of 256 bits by which the content of artifacts is told apart.
-/

namespace ModCatalog.Digest.Sha256

/-- The chaining state: eight words. -/
structure State where
  a : UInt32
  b : UInt32
  c : UInt32
  d : UInt32
  e : UInt32
  f : UInt32
  g : UInt32
  h : UInt32
deriving DecidableEq, Repr

def initial : State :=
  ⟨0x6a09e667, 0xbb67ae85, 0x3c6ef372, 0xa54ff53a, 0x510e527f, 0x9b05688c, 0x1f83d9ab, 0x5be0cd19⟩

def roundConstants : Array UInt32 := #[
  0x428a2f98, 0x71374491, 0xb5c0fbcf, 0xe9b5dba5, 0x3956c25b, 0x59f111f1, 0x923f82a4, 0xab1c5ed5,
  0xd807aa98, 0x12835b01, 0x243185be, 0x550c7dc3, 0x72be5d74, 0x80deb1fe, 0x9bdc06a7, 0xc19bf174,
  0xe49b69c1, 0xefbe4786, 0x0fc19dc6, 0x240ca1cc, 0x2de92c6f, 0x4a7484aa, 0x5cb0a9dc, 0x76f988da,
  0x983e5152, 0xa831c66d, 0xb00327c8, 0xbf597fc7, 0xc6e00bf3, 0xd5a79147, 0x06ca6351, 0x14292967,
  0x27b70a85, 0x2e1b2138, 0x4d2c6dfc, 0x53380d13, 0x650a7354, 0x766a0abb, 0x81c2c92e, 0x92722c85,
  0xa2bfe8a1, 0xa81a664b, 0xc24b8b70, 0xc76c51a3, 0xd192e819, 0xd6990624, 0xf40e3585, 0x106aa070,
  0x19a4c116, 0x1e376c08, 0x2748774c, 0x34b0bcb5, 0x391c0cb3, 0x4ed8aa4a, 0x5b9cca4f, 0x682e6ff3,
  0x748f82ee, 0x78a5636f, 0x84c87814, 0x8cc70208, 0x90befffa, 0xa4506ceb, 0xbef9a3f7, 0xc67178f2]

def rotate (word count : UInt32) : UInt32 := (word >>> count) ||| (word <<< (32 - count))

def lowerSigma0 (x : UInt32) : UInt32 := rotate x 7 ^^^ rotate x 18 ^^^ (x >>> 3)

def lowerSigma1 (x : UInt32) : UInt32 := rotate x 17 ^^^ rotate x 19 ^^^ (x >>> 10)

/-- The word of four bytes at an offset, most significant byte first. -/
def wordAt (bytes : ByteArray) (offset : Nat) : UInt32 :=
  ((bytes.get! offset).toUInt32 <<< 24) ||| ((bytes.get! (offset + 1)).toUInt32 <<< 16) |||
    ((bytes.get! (offset + 2)).toUInt32 <<< 8) ||| (bytes.get! (offset + 3)).toUInt32

/-- Append words to a schedule, each from four earlier ones. -/
def extend : Nat → Array UInt32 → Array UInt32
  | 0, words => words
  | count + 1, words =>
      let n := words.size
      extend count (words.push (words.getD (n - 16) 0 + lowerSigma0 (words.getD (n - 15) 0) +
        words.getD (n - 7) 0 + lowerSigma1 (words.getD (n - 2) 0)))

/-- The 64 words that a block gives to the rounds. -/
def schedule (bytes : ByteArray) (offset : Nat) : Array UInt32 :=
  extend 48 ((Array.range 16).map fun i => wordAt bytes (offset + 4 * i))

def step (s : State) (constant word : UInt32) : State :=
  let sigma1 := rotate s.e 6 ^^^ rotate s.e 11 ^^^ rotate s.e 25
  let choice := (s.e &&& s.f) ^^^ (~~~s.e &&& s.g)
  let t1 := s.h + sigma1 + choice + constant + word
  let sigma0 := rotate s.a 2 ^^^ rotate s.a 13 ^^^ rotate s.a 22
  let majority := (s.a &&& s.b) ^^^ (s.a &&& s.c) ^^^ (s.b &&& s.c)
  ⟨t1 + (sigma0 + majority), s.a, s.b, s.c, s.d + t1, s.e, s.f, s.g⟩

/-- The sum of two states, word by word. -/
def State.add (x y : State) : State :=
  ⟨x.a + y.a, x.b + y.b, x.c + y.c, x.d + y.d, x.e + y.e, x.f + y.f, x.g + y.g, x.h + y.h⟩

/-- Take one block of 64 bytes into the state. -/
def compress (bytes : ByteArray) (s : State) (offset : Nat) : State :=
  let words := schedule bytes offset
  s.add ((List.range 64).foldl
    (fun s i => step s (roundConstants.getD i 0) (words.getD i 0)) s)

/-- The bytes of a number, most significant first. -/
def bigEndian (width n : Nat) : List UInt8 :=
  (List.range width).map fun i => UInt8.ofNat (n >>> (8 * (width - 1 - i)))

/-- The message with its padding: a one bit, zeros, and the length in bits. -/
def pad (message : ByteArray) : ByteArray :=
  let zeros := (55 + 64 - message.size % 64) % 64
  message ++
    ⟨((0x80 : UInt8) :: (List.replicate zeros 0 ++ bigEndian 8 (8 * message.size))).toArray⟩

def finalState (message : ByteArray) : State :=
  let padded := pad message
  (List.range (padded.size / 64)).foldl (fun s i => compress padded s (64 * i)) initial

def State.words (s : State) : List UInt32 := [s.a, s.b, s.c, s.d, s.e, s.f, s.g, s.h]

def digest (message : ByteArray) : List UInt8 :=
  (finalState message).words.flatMap fun word => bigEndian 4 word.toNat

theorem length_digest (message : ByteArray) : (digest message).length = 32 := rfl

end ModCatalog.Digest.Sha256
