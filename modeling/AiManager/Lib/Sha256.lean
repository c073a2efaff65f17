import Mathlib.Algebra.Order.Ring.Int
import Mathlib.Tactic.Common

/-! # SHA-256

The hash of a text in UTF-8, in lower-case hexadecimal. Words are natural numbers below 2^32. -/

namespace AiManager.Lib.Sha256

def word (n : Nat) : Nat := n % 2 ^ 32

def rotr (n x : Nat) : Nat := word ((x >>> n) ||| (x <<< (32 - n)))

/-- Fractional parts of the cube roots of the first 64 primes. -/
def roundConstants : List Nat :=
  [0x428a2f98, 0x71374491, 0xb5c0fbcf, 0xe9b5dba5, 0x3956c25b, 0x59f111f1, 0x923f82a4, 0xab1c5ed5,
    0xd807aa98, 0x12835b01, 0x243185be, 0x550c7dc3, 0x72be5d74, 0x80deb1fe, 0x9bdc06a7, 0xc19bf174,
    0xe49b69c1, 0xefbe4786, 0x0fc19dc6, 0x240ca1cc, 0x2de92c6f, 0x4a7484aa, 0x5cb0a9dc, 0x76f988da,
    0x983e5152, 0xa831c66d, 0xb00327c8, 0xbf597fc7, 0xc6e00bf3, 0xd5a79147, 0x06ca6351, 0x14292967,
    0x27b70a85, 0x2e1b2138, 0x4d2c6dfc, 0x53380d13, 0x650a7354, 0x766a0abb, 0x81c2c92e, 0x92722c85,
    0xa2bfe8a1, 0xa81a664b, 0xc24b8b70, 0xc76c51a3, 0xd192e819, 0xd6990624, 0xf40e3585, 0x106aa070,
    0x19a4c116, 0x1e376c08, 0x2748774c, 0x34b0bcb5, 0x391c0cb3, 0x4ed8aa4a, 0x5b9cca4f, 0x682e6ff3,
    0x748f82ee, 0x78a5636f, 0x84c87814, 0x8cc70208, 0x90befffa, 0xa4506ceb, 0xbef9a3f7, 0xc67178f2]

/-- The chaining value: eight words. -/
structure Chain where
  a : Nat
  b : Nat
  c : Nat
  d : Nat
  e : Nat
  f : Nat
  g : Nat
  h : Nat

def initial : Chain :=
  ⟨0x6a09e667, 0xbb67ae85, 0x3c6ef372, 0xa54ff53a, 0x510e527f, 0x9b05688c, 0x1f83d9ab, 0x5be0cd19⟩

def bytesOf (s : String) : List Nat :=
  (s.toList.flatMap String.utf8EncodeChar).map UInt8.toNat

/-- The message, a one bit, zeros, and the length in bits as 64 bits: a multiple of 64 bytes. -/
def padding (bytes : List Nat) : List Nat :=
  let length := bytes.length * 8
  bytes ++ 0x80 :: List.replicate ((119 - bytes.length % 64) % 64) 0
    ++ (List.range 8).map fun i => length >>> (56 - 8 * i) % 256

/-- Big-endian words of a block. -/
def wordsOf : List Nat → List Nat
  | w :: x :: y :: z :: rest => (((w * 256 + x) * 256 + y) * 256 + z) :: wordsOf rest
  | _ => []

def scheduleWord (prev : List Nat) : Nat :=
  -- `prev` is the schedule so far, newest word first
  let w15 := prev.getD 14 0
  let w2 := prev.getD 1 0
  let s0 := rotr 7 w15 ^^^ rotr 18 w15 ^^^ (w15 >>> 3)
  let s1 := rotr 17 w2 ^^^ rotr 19 w2 ^^^ (w2 >>> 10)
  word (prev.getD 15 0 + s0 + prev.getD 6 0 + s1)

def extend : Nat → List Nat → List Nat
  | 0, prev => prev
  | n + 1, prev => extend n (scheduleWord prev :: prev)

def round (v : Chain) (kw : Nat × Nat) : Chain :=
  let s1 := rotr 6 v.e ^^^ rotr 11 v.e ^^^ rotr 25 v.e
  let ch := (v.e &&& v.f) ^^^ ((2 ^ 32 - 1 - v.e) &&& v.g)
  let t1 := v.h + s1 + ch + kw.1 + kw.2
  let s0 := rotr 2 v.a ^^^ rotr 13 v.a ^^^ rotr 22 v.a
  let maj := (v.a &&& v.b) ^^^ (v.a &&& v.c) ^^^ (v.b &&& v.c)
  ⟨word (t1 + s0 + maj), v.a, v.b, v.c, word (v.d + t1), v.e, v.f, v.g⟩

def compress (v : Chain) (block : List Nat) : Chain :=
  let schedule := (extend 48 (wordsOf block).reverse).reverse
  let r := (roundConstants.zip schedule).foldl round v
  ⟨word (v.a + r.a), word (v.b + r.b), word (v.c + r.c), word (v.d + r.d), word (v.e + r.e),
    word (v.f + r.f), word (v.g + r.g), word (v.h + r.h)⟩

/-- The blocks of a padded message, `n` of them. -/
def blocks : Nat → List Nat → List (List Nat)
  | 0, _ => []
  | n + 1, bytes => bytes.take 64 :: blocks n (bytes.drop 64)

def digest (bytes : List Nat) : Chain :=
  let padded := padding bytes
  (blocks (padded.length / 64) padded).foldl compress initial

def hexDigits : List Char :=
  ['0', '1', '2', '3', '4', '5', '6', '7', '8', '9', 'a', 'b', 'c', 'd', 'e', 'f']

def hexWord (n : Nat) : List Char :=
  (List.range 8).map fun i => hexDigits.getD (n >>> (28 - 4 * i) % 16) '0'

/-- `hex::encode` of the SHA-256 digest of a text. -/
def hex (s : String) : String :=
  let v := digest (bytesOf s)
  String.ofList ([v.a, v.b, v.c, v.d, v.e, v.f, v.g, v.h].flatMap hexWord)

set_option maxRecDepth 20000 in
example : hex "abc" = "ba7816bf8f01cfea414140de5dae2223b00361a396177a9cb410ff61f20015ad" := by
  decide +kernel

end AiManager.Lib.Sha256
