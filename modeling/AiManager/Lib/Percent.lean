import Mathlib.Data.List.Basic
import Mathlib.Tactic.IntervalCases

/-! # Percent coding

A text is sent as the bytes of its UTF-8 form, and a byte that is not kept as it is becomes a percent sign and two
hexadecimal digits. Reading back undoes this byte by byte; only the bytes together are a text again. -/

namespace AiManager.Lib

/-! ## Texts and their bytes -/

namespace Utf8

def bytes (cs : List Char) : List UInt8 := cs.flatMap String.utf8EncodeChar

/-- The text of some bytes, if they are UTF-8. -/
def text (bs : List UInt8) : Option String := String.fromUTF8? bs.toByteArray

def isAscii (c : Char) : Bool := c.toNat < 128

@[simp]
theorem bytes_nil : bytes [] = [] := rfl

@[simp]
theorem bytes_cons (c : Char) (cs : List Char) : bytes (c :: cs) = String.utf8EncodeChar c ++ bytes cs := rfl

theorem toByteArray_bytes (s : String) : (bytes s.toList).toByteArray = s.toByteArray := String.utf8Encode_toList

theorem text_bytes (s : String) : text (bytes s.toList) = some s := by
  have hvalid : (bytes s.toList).toByteArray.IsValidUTF8 := by
    rw [toByteArray_bytes]
    exact s.isValidUTF8
  rw [text, String.fromUTF8?, dif_pos hvalid]
  exact congrArg some (String.toByteArray_inj.mp (toByteArray_bytes s))

/-- Bytes are read as a text only if they are its bytes. -/
theorem text_eq_some_iff {bs : List UInt8} {s : String} : text bs = some s ↔ bs = bytes s.toList := by
  constructor
  · intro h
    rw [text, String.fromUTF8?] at h
    split at h
    · next hvalid =>
      have hs : s.toByteArray = bs.toByteArray := congrArg String.toByteArray (Option.some.inj h).symm
      rw [← toByteArray_bytes] at hs
      rw [← List.toList_data_toByteArray (l := bs), ← hs, List.toList_data_toByteArray]
    · cases h
  · rintro rfl
    exact text_bytes s

/-! ### One byte a character -/

theorem utf8EncodeChar_of_isAscii {c : Char} (h : isAscii c) :
    String.utf8EncodeChar c = [UInt8.ofNat c.toNat] := by
  have hle : c.val.toNat ≤ 0x7f := Nat.le_of_lt_succ (of_decide_eq_true h)
  show (if c.val.toNat ≤ 0x7f then _ else _) = _
  rw [if_pos hle]
  rfl

theorem bytes_of_isAscii {cs : List Char} (h : ∀ c ∈ cs, isAscii c) :
    bytes cs = cs.map fun c => UInt8.ofNat c.toNat := by
  induction cs with
  | nil => rfl
  | cons c cs ih =>
    rw [bytes_cons, utf8EncodeChar_of_isAscii (h c List.mem_cons_self),
      ih fun c hc => h c (List.mem_cons_of_mem _ hc)]
    rfl

theorem utf8Size_eq_one_iff {c : Char} : c.utf8Size = 1 ↔ isAscii c := by
  rw [Char.utf8Size_eq_one_iff, isAscii, decide_eq_true_iff, UInt32.le_iff_toNat_le]
  exact Nat.lt_succ_iff.symm

theorem length_le_length_bytes (cs : List Char) : cs.length ≤ (bytes cs).length := by
  induction cs with
  | nil => exact Nat.le_refl 0
  | cons c cs ih =>
    rw [bytes_cons, List.length_append, String.length_utf8EncodeChar, List.length_cons]
    have := c.utf8Size_pos
    omega

/-- A text with as many bytes as characters is ASCII. -/
theorem isAscii_of_length {cs : List Char} (h : (bytes cs).length = cs.length) : ∀ c ∈ cs, isAscii c := by
  induction cs with
  | nil => intro c hc; cases hc
  | cons c cs ih =>
    rw [bytes_cons, List.length_append, String.length_utf8EncodeChar, List.length_cons] at h
    have hpos := c.utf8Size_pos
    have hle := length_le_length_bytes cs
    have hone : c.utf8Size = 1 := by omega
    intro c' hc'
    rcases List.mem_cons.mp hc' with rfl | hc'
    · exact utf8Size_eq_one_iff.mp hone
    · exact ih (by omega) c' hc'

/-! ### Where a character starts -/

/-- A byte that does not continue a character. -/
def starts (b : UInt8) : Bool := b.toNat < 128 || 192 ≤ b.toNat

theorem starts_of_isAscii {c : Char} (h : isAscii c) : starts (UInt8.ofNat c.toNat) := by
  have hlt : c.toNat < 128 := of_decide_eq_true h
  rw [starts, UInt8.toNat_ofNat', Nat.mod_eq_of_lt (by omega), decide_eq_true hlt, Bool.true_or]

/-- Only a character of its own has an ASCII byte; in the others one byte starts the character and the rest continue
it. -/
theorem exists_utf8EncodeChar {c : Char} (h : isAscii c = false) :
    ∃ b bs, String.utf8EncodeChar c = b :: bs ∧ 192 ≤ b.toNat ∧ ∀ b' ∈ bs, 128 ≤ b'.toNat ∧ starts b' = false := by
  have hle : ¬c.val.toNat ≤ 0x7f := fun hle => of_decide_eq_false h (Nat.lt_succ_of_le hle)
  have hnil : ∀ b' ∈ ([] : List UInt8), 128 ≤ b'.toNat ∧ starts b' = false := fun b' hb' => by cases hb'
  have hcons : ∀ n bs, (∀ b' ∈ bs, 128 ≤ b'.toNat ∧ starts b' = false) →
      ∀ b' ∈ UInt8.ofNat (n % 64 + 128) :: bs, 128 ≤ b'.toNat ∧ starts b' = false := by
    intro n bs hbs
    have := Nat.mod_lt n (show 0 < 64 by decide)
    refine List.forall_mem_cons.mpr ⟨?_, hbs⟩
    rw [starts, Bool.or_eq_false_iff, decide_eq_false_iff_not, decide_eq_false_iff_not, UInt8.toNat_ofNat',
      Nat.mod_eq_of_lt (by omega)]
    omega
  have hfirst : ∀ n k l, k + l ≤ 256 → 192 ≤ l → 0 < k → 192 ≤ (UInt8.ofNat (n % k + l)).toNat := by
    intro n k l hkl hl hk
    have := Nat.mod_lt n hk
    rw [UInt8.toNat_ofNat', Nat.mod_eq_of_lt (by omega)]
    omega
  unfold String.utf8EncodeChar
  simp only [hle, if_false]
  split
  · exact ⟨_, _, rfl, hfirst _ _ _ (by decide) (by decide) (by decide), hcons _ _ hnil⟩
  · split
    · exact ⟨_, _, rfl, hfirst _ _ _ (by decide) (by decide) (by decide), hcons _ _ (hcons _ _ hnil)⟩
    · exact ⟨_, _, rfl, hfirst _ _ _ (by decide) (by decide) (by decide),
        hcons _ _ (hcons _ _ (hcons _ _ hnil))⟩

/-- Of the bytes of a character the first one starts it. -/
theorem utf8EncodeChar_eq_cons (c : Char) :
    ∃ b bs, String.utf8EncodeChar c = b :: bs ∧ starts b = true ∧ ∀ b' ∈ bs, starts b' = false := by
  cases h : isAscii c with
  | true => exact ⟨_, [], utf8EncodeChar_of_isAscii h, starts_of_isAscii h, List.forall_mem_nil _⟩
  | false =>
    obtain ⟨b, bs, hb, hfirst, hrest⟩ := exists_utf8EncodeChar h
    refine ⟨b, bs, hb, ?_, fun b' hb' => (hrest b' hb').2⟩
    rw [starts, decide_eq_true hfirst, Bool.or_true]

/-- No text begins with a byte that continues a character. -/
theorem text_of_continuation {b : UInt8} (h : starts b = false) (bs : List UInt8) : text (b :: bs) = none := by
  cases htext : text (b :: bs) with
  | none => rfl
  | some s =>
    have hbytes := text_eq_some_iff.mp htext
    cases hs : s.toList with
    | nil =>
      rw [hs] at hbytes
      cases hbytes
    | cons c cs =>
      obtain ⟨b', bs', hb', hstarts, -⟩ := utf8EncodeChar_eq_cons c
      rw [hs, bytes_cons, hb'] at hbytes
      rw [(List.cons.inj hbytes).1, hstarts] at h
      cases h

/-! ### A part of a text -/

theorem char_eq_of_append_eq {c d : Char} {bs bs' : List UInt8}
    (h : String.utf8EncodeChar c ++ bs = String.utf8EncodeChar d ++ bs') : c = d := by
  have hdecode : ∀ (e : Char) (rest : List UInt8),
      (String.utf8EncodeChar e ++ rest).toByteArray.utf8DecodeChar? 0 = some e := by
    intro e rest
    rw [List.toByteArray_append]
    exact ByteArray.utf8DecodeChar?_utf8EncodeChar_append
  have hc := hdecode c bs
  rw [h, hdecode d bs'] at hc
  exact (Option.some.inj hc).symm

theorem prefix_of_bytes {xs ys : List Char} (h : bytes xs <+: bytes ys) : xs <+: ys := by
  induction xs generalizing ys with
  | nil => exact List.nil_prefix
  | cons x xs ih =>
    obtain ⟨rest, hrest⟩ := h
    rw [bytes_cons, List.append_assoc] at hrest
    cases ys with
    | nil =>
      obtain ⟨b, bs, hb, -⟩ := utf8EncodeChar_eq_cons x
      rw [hb] at hrest
      cases hrest
    | cons y ys =>
      rw [bytes_cons] at hrest
      obtain rfl := char_eq_of_append_eq hrest
      exact List.cons_prefix_cons.mpr ⟨rfl, ih ⟨rest, List.append_cancel_left hrest⟩⟩

/-- Where a byte starts a character, the text is split too. -/
theorem split_of_starts {ys : List Char} {before after : List UInt8} {b : UInt8} (hb : starts b = true)
    (h : bytes ys = before ++ b :: after) :
    ∃ ys₁ ys₂, ys = ys₁ ++ ys₂ ∧ bytes ys₂ = b :: after := by
  induction ys generalizing before with
  | nil => exact absurd h.symm (List.append_ne_nil_of_right_ne_nil _ (List.cons_ne_nil _ _))
  | cons y ys ih =>
    cases before with
    | nil => exact ⟨[], y :: ys, rfl, h⟩
    | cons b₀ before =>
      obtain ⟨b₁, bs, hy, -, hbs⟩ := utf8EncodeChar_eq_cons y
      rw [bytes_cons, hy, List.cons_append, List.cons_append] at h
      have hrest := (List.cons.inj h).2
      have hsplit : ∃ before', bytes ys = before' ++ b :: after := by
        rcases List.append_eq_append_iff.mp hrest with ⟨as, -, has⟩ | ⟨as, has, hafter⟩
        · exact ⟨as, has⟩
        · cases as with
          | nil => exact ⟨[], hafter.symm⟩
          | cons b' as =>
            -- `b` would continue the character `y`
            obtain rfl := (List.cons.inj hafter).1
            have hmem : b ∈ bs := by
              rw [has]
              exact List.mem_append_right _ List.mem_cons_self
            rw [hbs b hmem] at hb
            cases hb
      obtain ⟨before', hbefore⟩ := hsplit
      obtain ⟨ys₁, ys₂, rfl, hys₂⟩ := ih hbefore
      exact ⟨y :: ys₁, ys₂, rfl, hys₂⟩

/-- What is a part of the bytes is a part of the text. -/
theorem infix_of_bytes {xs ys : List Char} (h : bytes xs <:+: bytes ys) : xs <:+: ys := by
  cases xs with
  | nil => exact List.nil_infix
  | cons x xs =>
    obtain ⟨before, after, hys⟩ := h
    obtain ⟨b, bs, hx, hb, -⟩ := utf8EncodeChar_eq_cons x
    have hbytes : bytes (x :: xs) = b :: (bs ++ bytes xs) := by
      rw [bytes_cons, hx]
      rfl
    rw [hbytes, List.append_assoc, List.cons_append] at hys
    obtain ⟨ys₁, ys₂, rfl, hys₂⟩ := split_of_starts hb hys.symm
    have hstart : bytes (x :: xs) <+: bytes ys₂ := ⟨after, by rw [hys₂, hbytes]; rfl⟩
    exact (prefix_of_bytes hstart).isInfix.trans (List.suffix_append ys₁ ys₂).isInfix

end Utf8

/-! ## Escapes -/

namespace Percent

def digit (n : Nat) : Char := "0123456789ABCDEF".toList.getD n '0'

def value (c : Char) : Option Nat :=
  if '0' ≤ c ∧ c ≤ '9' then some (c.toNat - '0'.toNat)
  else if 'A' ≤ c ∧ c ≤ 'F' then some (c.toNat - 'A'.toNat + 10)
  else if 'a' ≤ c ∧ c ≤ 'f' then some (c.toNat - 'a'.toNat + 10)
  else none

def escape (b : UInt8) : List Char := ['%', digit (b.toNat / 16), digit (b.toNat % 16)]

def encode (keep : UInt8 → Bool) (bs : List UInt8) : List Char :=
  bs.flatMap fun b => if keep b then [Char.ofNat b.toNat] else escape b

/-- A percent sign without two digits after it stands for itself. -/
def decode : List Char → List UInt8
  | c :: hi :: lo :: cs =>
    if c = '%' then
      match value hi, value lo with
      | some h, some l => UInt8.ofNat (h * 16 + l) :: decode cs
      | _, _ => String.utf8EncodeChar c ++ decode (hi :: lo :: cs)
    else String.utf8EncodeChar c ++ decode (hi :: lo :: cs)
  | cs => Utf8.bytes cs

theorem toNat_ofNat {n : Nat} (h : n < 128) : (Char.ofNat n).toNat = n := by
  have hvalid : n.isValidChar := .inl (by omega)
  rw [Char.ofNat, dif_pos hvalid]
  rfl

theorem value_digit {n : Nat} (h : n < 16) : value (digit n) = some n := by
  interval_cases n <;> rfl

theorem decode_escape (b : UInt8) (cs : List Char) : decode (escape b ++ cs) = b :: decode cs := by
  have hb := b.toNat_lt
  show decode ('%' :: digit (b.toNat / 16) :: digit (b.toNat % 16) :: cs) = _
  rw [decode, if_pos rfl, value_digit (by omega), value_digit (by omega)]
  have hval : b.toNat / 16 * 16 + b.toNat % 16 = b.toNat := by omega
  show UInt8.ofNat (b.toNat / 16 * 16 + b.toNat % 16) :: decode cs = _
  rw [hval, UInt8.ofNat_toNat]

theorem decode_cons_of_ne {c : Char} (h : c ≠ '%') (cs : List Char) :
    decode (c :: cs) = String.utf8EncodeChar c ++ decode cs := by
  match cs with
  | [] => rfl
  | [_] => rfl
  | hi :: lo :: cs => rw [decode, if_neg h]

section Encode
variable {keep : UInt8 → Bool}

/-- What is kept must be ASCII and not the percent sign. -/
theorem decode_encode (hkeep : ∀ b, keep b → b.toNat < 128 ∧ Char.ofNat b.toNat ≠ '%') (bs : List UInt8)
    (cs : List Char) : decode (encode keep bs ++ cs) = bs ++ decode cs := by
  induction bs with
  | nil => rfl
  | cons b bs ih =>
    have hstep : encode keep (b :: bs) ++ cs =
        (if keep b then [Char.ofNat b.toNat] else escape b) ++ (encode keep bs ++ cs) := by
      rw [← List.append_assoc]
      rfl
    rw [hstep]
    by_cases hb : keep b
    · obtain ⟨hlt, hne⟩ := hkeep b hb
      have hnat : (Char.ofNat b.toNat).toNat = b.toNat := toNat_ofNat hlt
      have hascii : Utf8.isAscii (Char.ofNat b.toNat) := decide_eq_true (hnat.symm ▸ hlt)
      rw [if_pos hb, List.singleton_append, decode_cons_of_ne hne, Utf8.utf8EncodeChar_of_isAscii hascii, hnat,
        UInt8.ofNat_toNat, ih]
      rfl
    · rw [if_neg hb, decode_escape, ih]
      rfl

end Encode

/-- A form writes a space as a plus sign. -/
def formKeeps (b : UInt8) : Bool :=
  let c := Char.ofNat b.toNat
  b.toNat < 128 && (c.isAlphanum || ['*', '-', '.', '_'].contains c)

def formEncode (s : String) : String :=
  String.ofList ((encode (fun b => b = 32 || formKeeps b) (Utf8.bytes s.toList)).map fun c => if c = ' ' then '+' else c)

/-- What a text that is percent coded says. -/
def text (s : String) : Option String := Utf8.text (decode s.toList)

end Percent

end AiManager.Lib
