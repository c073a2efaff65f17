import AiManager.Lib.Percent
import AiManager.Lib.Sha256
import Mathlib.Data.List.GetD

/-! # Keyed hashes, and bytes as text

HMAC-SHA256 over bytes, and what a reader makes of bytes that may not be UTF-8. -/

namespace AiManager.Lib

/-! ## Keyed hashes -/

namespace Sha256

/-- The four bytes of a word, the highest first. -/
def bytesOfWord (w : Nat) : List Nat := [w >>> 24 % 256, w >>> 16 % 256, w >>> 8 % 256, w % 256]

def digestBytes (bytes : List Nat) : List Nat :=
  let v := digest bytes
  [v.a, v.b, v.c, v.d, v.e, v.f, v.g, v.h].flatMap bytesOfWord

/-- A byte in hexadecimal. -/
def hexByte (b : Nat) : List Char := [hexDigits.getD (b / 16) '0', hexDigits.getD (b % 16) '0']

/-- `hex::encode` -/
def hexBytes (bytes : List Nat) : String := String.ofList (bytes.flatMap hexByte)

theorem mem_hexBytes {bytes : List Nat} {c : Char} (h : c ∈ (hexBytes bytes).toList) : c ∈ hexDigits := by
  have hdigit : ∀ n, hexDigits.getD n '0' ∈ hexDigits := by
    intro n
    by_cases hn : n < hexDigits.length
    · rw [List.getD_eq_getElem _ _ hn]
      exact List.getElem_mem hn
    · rw [List.getD_eq_default _ _ (Nat.le_of_not_lt hn)]
      decide
  rw [hexBytes, String.toList_ofList, List.mem_flatMap] at h
  obtain ⟨b, -, hc⟩ := h
  rcases List.mem_cons.mp hc with rfl | hc
  · exact hdigit _
  · rcases List.mem_singleton.mp hc with rfl
    exact hdigit _

end Sha256

namespace Hmac

open Sha256

/-- The key as one block of 64 bytes; a longer one is hashed first. -/
def blockKey (key : List Nat) : List Nat :=
  let key := if 64 < key.length then digestBytes key else key
  key ++ List.replicate (64 - key.length) 0

/-- `HMAC-SHA256(key, message)` -/
def sha256 (key message : List Nat) : List Nat :=
  digestBytes ((blockKey key).map (· ^^^ 0x5c) ++ digestBytes ((blockKey key).map (· ^^^ 0x36) ++ message))

set_option maxRecDepth 20000 in
example : hexBytes (sha256 (bytesOf "key") (bytesOf "The quick brown fox jumps over the lazy dog")) =
    "f7bc83f430538424b13298e6aa6fb143ef4d59a14946175997479dbc2d1a3cd8" := by decide +kernel

end Hmac

/-! ## Bytes as text -/

namespace Utf8

/-- How many bytes a character has that starts with this one; 0 if none does. -/
def charWidth (b : UInt8) : Nat :=
  if b.toNat < 0x80 then 1
  else if 0xC2 ≤ b.toNat ∧ b.toNat ≤ 0xDF then 2
  else if 0xE0 ≤ b.toNat ∧ b.toNat ≤ 0xEF then 3
  else if 0xF0 ≤ b.toNat ∧ b.toNat ≤ 0xF4 then 4
  else 0

def isContinuation (b : UInt8) : Bool := 0x80 ≤ b.toNat ∧ b.toNat ≤ 0xBF

/-- The second byte is one that may follow the first. -/
def mayFollow (b next : UInt8) : Bool :=
  match b.toNat with
  | 0xE0 => 0xA0 ≤ next.toNat ∧ next.toNat ≤ 0xBF
  | 0xED => 0x80 ≤ next.toNat ∧ next.toNat ≤ 0x9F
  | 0xF0 => 0x90 ≤ next.toNat ∧ next.toNat ≤ 0xBF
  | 0xF4 => 0x80 ≤ next.toNat ∧ next.toNat ≤ 0x8F
  | _ => isContinuation next

/-- The character at the head, or `U+FFFD` for what is none, and how many of the following bytes belong to it. -/
def lossyChunk (b : UInt8) (bs : List UInt8) : Char × Nat :=
  let tail (b : UInt8) := b.toNat % 64
  match charWidth b, bs with
  | 1, _ => (Char.ofNat b.toNat, 0)
  | 2, b₁ :: _ => if isContinuation b₁ then (Char.ofNat (b.toNat % 32 * 64 + tail b₁), 1) else ('\uFFFD', 0)
  | 3, b₁ :: rest =>
    if mayFollow b b₁ then
      match rest with
      | b₂ :: _ =>
        if isContinuation b₂ then (Char.ofNat ((b.toNat % 16 * 64 + tail b₁) * 64 + tail b₂), 2) else ('\uFFFD', 1)
      | [] => ('\uFFFD', 1)
    else ('\uFFFD', 0)
  | 4, b₁ :: rest =>
    if mayFollow b b₁ then
      match rest with
      | b₂ :: rest =>
        if isContinuation b₂ then
          match rest with
          | b₃ :: _ =>
            if isContinuation b₃ then
              (Char.ofNat (((b.toNat % 8 * 64 + tail b₁) * 64 + tail b₂) * 64 + tail b₃), 3)
            else ('\uFFFD', 2)
          | [] => ('\uFFFD', 2)
        else ('\uFFFD', 1)
      | [] => ('\uFFFD', 1)
    else ('\uFFFD', 0)
  | _, _ => ('\uFFFD', 0)

/-- The rest of a text, after some bytes that belong to the character before. -/
def lossyChars : Nat → List UInt8 → List Char
  | _, [] => []
  | n + 1, _ :: bs => lossyChars n bs
  | 0, b :: bs =>
    let (c, more) := lossyChunk b bs
    c :: lossyChars more bs

/-- `String::from_utf8_lossy` -/
def lossy (bs : List UInt8) : String := String.ofList (lossyChars 0 bs)

example : lossy [0x48, 0xE2, 0x82, 0xAC, 0xF0, 0x90, 0x41, 0xFF] = "H€\uFFFDA\uFFFD" := by decide

end Utf8

end AiManager.Lib
