import Mathlib.Algebra.Ring.Nat
import StarkBallot.Runtime.Rust

/-! SHA-256, computable. The development never looks inside the hash: every result is about an arbitrary
    function from messages to 32 bytes. This is the function the programs call, for running the model on
    concrete inputs. Words are naturals below `2 ^ 32`; one block is 64 rounds over a sliding window of
    sixteen message words. -/

namespace StarkBallot.Sha256

def word : ℕ := 4294967296

def rotr (x n : ℕ) : ℕ := (x >>> n ||| x <<< (32 - n)) % word

def roundConstants : List ℕ :=
  [0x428a2f98, 0x71374491, 0xb5c0fbcf, 0xe9b5dba5, 0x3956c25b, 0x59f111f1, 0x923f82a4, 0xab1c5ed5,
   0xd807aa98, 0x12835b01, 0x243185be, 0x550c7dc3, 0x72be5d74, 0x80deb1fe, 0x9bdc06a7, 0xc19bf174,
   0xe49b69c1, 0xefbe4786, 0x0fc19dc6, 0x240ca1cc, 0x2de92c6f, 0x4a7484aa, 0x5cb0a9dc, 0x76f988da,
   0x983e5152, 0xa831c66d, 0xb00327c8, 0xbf597fc7, 0xc6e00bf3, 0xd5a79147, 0x06ca6351, 0x14292967,
   0x27b70a85, 0x2e1b2138, 0x4d2c6dfc, 0x53380d13, 0x650a7354, 0x766a0abb, 0x81c2c92e, 0x92722c85,
   0xa2bfe8a1, 0xa81a664b, 0xc24b8b70, 0xc76c51a3, 0xd192e819, 0xd6990624, 0xf40e3585, 0x106aa070,
   0x19a4c116, 0x1e376c08, 0x2748774c, 0x34b0bcb5, 0x391c0cb3, 0x4ed8aa4a, 0x5b9cca4f, 0x682e6ff3,
   0x748f82ee, 0x78a5636f, 0x84c87814, 0x8cc70208, 0x90befffa, 0xa4506ceb, 0xbef9a3f7, 0xc67178f2]

/-- The eight working variables. -/
structure Registers where
  a : ℕ
  b : ℕ
  c : ℕ
  d : ℕ
  e : ℕ
  f : ℕ
  g : ℕ
  h : ℕ

def initial : Registers :=
  ⟨0x6a09e667, 0xbb67ae85, 0x3c6ef372, 0xa54ff53a, 0x510e527f, 0x9b05688c, 0x1f83d9ab, 0x5be0cd19⟩

def round (r : Registers) (k w : ℕ) : Registers :=
  let s1 := rotr r.e 6 ^^^ rotr r.e 11 ^^^ rotr r.e 25
  let ch := (r.e &&& r.f) ^^^ ((word - 1 - r.e) &&& r.g)
  let t1 := r.h + s1 + ch + k + w
  let s0 := rotr r.a 2 ^^^ rotr r.a 13 ^^^ rotr r.a 22
  let maj := (r.a &&& r.b) ^^^ (r.a &&& r.c) ^^^ (r.b &&& r.c)
  ⟨(t1 + s0 + maj) % word, r.a, r.b, r.c, (r.d + t1) % word, r.e, r.f, r.g⟩

/-- One round for each constant; the window drops its first word and gains the next schedule word. -/
def rounds : List ℕ → Registers → List ℕ → Registers
  | k :: ks, r, w :: window =>
    let w1 := window.getD 0 0
    let w14 := window.getD 13 0
    let next := (w + (rotr w1 7 ^^^ rotr w1 18 ^^^ w1 >>> 3) + window.getD 8 0 +
      (rotr w14 17 ^^^ rotr w14 19 ^^^ w14 >>> 10)) % word
    rounds ks (round r k w) (window ++ [next])
  | _, r, _ => r

/-- Big-endian words of a block. -/
def words : List UInt8 → List ℕ
  | a :: b :: c :: d :: rest =>
    (a.toNat * 16777216 + b.toNat * 65536 + c.toNat * 256 + d.toNat) :: words rest
  | _ => []

def compress (r : Registers) (block : List UInt8) : Registers :=
  let t := rounds roundConstants r (words block)
  ⟨(r.a + t.a) % word, (r.b + t.b) % word, (r.c + t.c) % word, (r.d + t.d) % word,
   (r.e + t.e) % word, (r.f + t.f) % word, (r.g + t.g) % word, (r.h + t.h) % word⟩

/-- `width` bytes of `n`, most significant first. -/
def bigEndian (width n : ℕ) : List UInt8 :=
  (List.range width).map fun i => UInt8.ofNat (n / 256 ^ (width - 1 - i) % 256)

def pad (message : List UInt8) : List UInt8 :=
  message ++ [0x80] ++ List.replicate ((119 - message.length % 64) % 64) 0 ++
    bigEndian 8 (message.length * 8)

def absorb : ℕ → Registers → List UInt8 → Registers
  | 0, r, _ => r
  | blocks + 1, r, message => absorb blocks (compress r (message.take 64)) (message.drop 64)

def output (r : Registers) : List UInt8 :=
  [r.a, r.b, r.c, r.d, r.e, r.f, r.g, r.h].flatMap (bigEndian 4)

theorem output_length (r : Registers) : (output r).length = 32 := by simp [output, bigEndian]

/-- The SHA-256 digest of a message. -/
def digest (message : List UInt8) : Bytes 32 :=
  ⟨output (absorb ((pad message).length / 64) initial (pad message)), output_length _⟩

example : (digest (ascii "abc")).toList.take 4 = [0xba, 0x78, 0x16, 0xbf] := by decide

end StarkBallot.Sha256
