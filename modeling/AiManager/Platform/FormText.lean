import AiManager.Lib.Percent
import AiManager.Lib.Text

/-! # Reading form text

A Slack interaction comes as a form, and the name of a person stands in a path. The decoder goes over the bytes of the
text, cuts the two digits of an escape out of it, and takes each byte for a character. -/

namespace AiManager.Platform

open Lib

/-! ## The decoder -/

/-- `u8::from_str_radix(hex, 16)` for two bytes of text; a sign may stand in front. -/
def fromStrRadix (hi lo : UInt8) : Option UInt8 :=
  if hi = 43 then (Percent.value (Char.ofNat lo.toNat)).map UInt8.ofNat
  else
    match Percent.value (Char.ofNat hi.toNat), Percent.value (Char.ofNat lo.toNat) with
    | some h, some l => some (UInt8.ofNat (h * 16 + l))
    | _, _ => none

/-- A character starts at the place, or it is the end. -/
def isCharBoundary : List UInt8 → Bool
  | [] => true
  | b :: _ => Utf8.starts b

/-- No value where a slice cuts a character, for that is a panic. -/
def decodeLoop : List UInt8 → Option (List Char)
  | b :: hi :: lo :: rest =>
    if b = 37 then
      if isCharBoundary (hi :: lo :: rest) && isCharBoundary rest then
        match fromStrRadix hi lo with
        | some v => (decodeLoop rest).map (Char.ofNat v.toNat :: ·)
        | none => (decodeLoop (hi :: lo :: rest)).map (Char.ofNat b.toNat :: ·)
      else none
    else (decodeLoop (hi :: lo :: rest)).map (Char.ofNat b.toNat :: ·)
  -- no escape fits
  | bs => some (bs.map fun b => Char.ofNat b.toNat)

/-- `s.replace('+', " ")` -/
def plusToSpace (cs : List Char) : List Char := cs.map fun c => if c = '+' then ' ' else c

def urlencodingDecode (s : String) : Option String :=
  (decodeLoop (Utf8.bytes (plusToSpace s.toList))).map String.ofList

/-- The payload of an interaction: the field of the form, or the whole body. -/
def interactionPayload (body : String) : Option String :=
  match Text.stripPrefix body "payload=" with
  | some rest => urlencodingDecode rest
  | none => some body

/-! ## Where the decoder panics -/

/-- The second byte after a percent sign is not the last one of a character. -/
def cutsCharacter : List Char → Bool
  | c :: d :: _ => Utf8.isAscii c && !Utf8.isAscii d || 3 ≤ c.utf8Size
  | [c] => 3 ≤ c.utf8Size
  | [] => false

/-- Some escape ends within a character. -/
def CutsCharacter (cs : List Char) : Prop := ∃ rest, ('%' :: rest) <:+ cs ∧ cutsCharacter rest

theorem cutsCharacter_cons {c : Char} {cs : List Char} :
    CutsCharacter (c :: cs) ↔ (c = '%' ∧ cutsCharacter cs) ∨ CutsCharacter cs := by
  constructor
  · rintro ⟨rest, hsuffix, hcuts⟩
    rcases List.suffix_cons_iff.mp hsuffix with heq | hsuffix
    · obtain ⟨rfl, rfl⟩ := List.cons.inj heq
      exact .inl ⟨rfl, hcuts⟩
    · exact .inr ⟨rest, hsuffix, hcuts⟩
  · rintro (⟨rfl, hcuts⟩ | ⟨rest, hsuffix, hcuts⟩)
    · exact ⟨cs, List.suffix_refl _, hcuts⟩
    · exact ⟨rest, hsuffix.trans (List.suffix_cons c cs), hcuts⟩

theorem not_cutsCharacter_nil : ¬CutsCharacter [] := by
  rintro ⟨rest, hsuffix, -⟩
  cases List.suffix_nil.mp hsuffix

/-! ### One byte -/

theorem decodeLoop_cons_of_ne {b : UInt8} (h : b ≠ 37) (bs : List UInt8) :
    decodeLoop (b :: bs) = (decodeLoop bs).map (Char.ofNat b.toNat :: ·) := by
  match bs with
  | [] => rfl
  | [_] => rfl
  | hi :: lo :: bs => rw [decodeLoop, if_neg h]

theorem decodeLoop_append_of_ne {bs : List UInt8} (h : ∀ b ∈ bs, b ≠ 37) (bs' : List UInt8) :
    decodeLoop (bs ++ bs') = (decodeLoop bs').map (bs.map (fun b => Char.ofNat b.toNat) ++ ·) := by
  induction bs with
  | nil =>
    cases h' : decodeLoop bs'
    · rw [List.nil_append, h', Option.map_none]
    · rw [List.nil_append, h', Option.map_some]
      rfl
  | cons b bs ih =>
    rw [List.cons_append, decodeLoop_cons_of_ne (h b List.mem_cons_self),
      ih fun b hb => h b (List.mem_cons_of_mem _ hb), Option.map_map]
    rfl

/-- A digit is an ASCII character. -/
theorem value_eq_none {b : UInt8} (h : 128 ≤ b.toNat) : Percent.value (Char.ofNat b.toNat) = none := by
  have hb := b.toNat_lt
  generalize b.toNat = n at h hb
  have hall : ∀ n < 256, 128 ≤ n → Percent.value (Char.ofNat n) = none := by decide +kernel
  exact hall n hb h

theorem fromStrRadix_eq_none {hi : UInt8} (h : 128 ≤ hi.toNat) (lo : UInt8) : fromStrRadix hi lo = none := by
  have hne : hi ≠ 43 := by
    rintro rfl
    exact absurd h (by decide)
  rw [fromStrRadix, if_neg hne, value_eq_none h]

/-- No percent sign is part of an escape. -/
theorem ne_percent_of_fromStrRadix {hi lo v : UInt8} (h : fromStrRadix hi lo = some v) : hi ≠ 37 ∧ lo ≠ 37 := by
  have hnone : Percent.value (Char.ofNat (37 : UInt8).toNat) = none := by decide
  rw [fromStrRadix] at h
  split at h
  · next hi43 =>
    refine ⟨by rw [hi43]; decide, ?_⟩
    rintro rfl
    rw [hnone] at h
    cases h
  · split at h
    · next hhi hlo =>
      constructor
      · rintro rfl
        cases hnone.symm.trans hhi
      · rintro rfl
        cases hnone.symm.trans hlo
    · cases h

/-! ### One character -/

theorem ne_percent_of_mem {c : Char} (hc : c ≠ '%') : ∀ b ∈ String.utf8EncodeChar c, b ≠ 37 := by
  intro b hb
  cases hascii : Utf8.isAscii c
  · obtain ⟨b₀, bs, henc, hb₀, hbs⟩ := Utf8.exists_utf8EncodeChar hascii
    rw [henc] at hb
    rintro rfl
    rcases List.mem_cons.mp hb with rfl | hb
    · exact absurd hb₀ (by decide)
    · exact absurd (hbs _ hb).1 (by decide)
  · rw [Utf8.utf8EncodeChar_of_isAscii hascii, List.mem_singleton] at hb
    have hlt : c.toNat < 128 := of_decide_eq_true hascii
    rintro rfl
    apply hc
    have hnat := congrArg UInt8.toNat hb
    rw [UInt8.toNat_ofNat', Nat.mod_eq_of_lt (by omega)] at hnat
    exact Char.toNat_inj.mp hnat.symm

theorem isCharBoundary_bytes (cs : List Char) : isCharBoundary (Utf8.bytes cs) := by
  cases cs with
  | nil => rfl
  | cons c cs =>
    cases hascii : Utf8.isAscii c
    · obtain ⟨b, bs, henc, hb, -⟩ := Utf8.exists_utf8EncodeChar hascii
      rw [Utf8.bytes_cons, henc]
      exact Bool.or_eq_true_iff.mpr (.inr (decide_eq_true hb))
    · rw [Utf8.bytes_cons, Utf8.utf8EncodeChar_of_isAscii hascii]
      exact Utf8.starts_of_isAscii hascii

/-- A character of several bytes, by how many come after the second one. -/
theorem exists_of_not_isAscii {c : Char} (h : Utf8.isAscii c = false) :
    ∃ hi lo bs, String.utf8EncodeChar c = hi :: lo :: bs ∧ 192 ≤ hi.toNat ∧ Utf8.starts lo = false ∧
      (∀ b ∈ bs, Utf8.starts b = false) ∧ (3 ≤ c.utf8Size ↔ bs ≠ []) := by
  obtain ⟨hi, tail, henc, hhi, htail⟩ := Utf8.exists_utf8EncodeChar h
  have hsize : c.utf8Size = tail.length + 1 := by rw [← String.length_utf8EncodeChar, henc, List.length_cons]
  cases tail with
  | nil => exact absurd (Utf8.utf8Size_eq_one_iff.mp hsize) (Bool.eq_false_iff.mp h)
  | cons lo bs =>
    refine ⟨hi, lo, bs, henc, hhi, (htail lo List.mem_cons_self).2,
      fun b hb => (htail b (List.mem_cons_of_mem _ hb)).2, ?_⟩
    rw [hsize, List.length_cons, ← List.length_pos_iff]
    omega

theorem cutsCharacter_of_not_isAscii {c : Char} (h : Utf8.isAscii c = false) (cs : List Char) :
    cutsCharacter (c :: cs) = decide (3 ≤ c.utf8Size) := by
  cases cs with
  | nil => rfl
  | cons d cs => rw [cutsCharacter, h, Bool.false_and, Bool.false_or]

theorem cutsCharacter_of_isAscii {c d : Char} (h : Utf8.isAscii c) (cs : List Char) :
    cutsCharacter (c :: d :: cs) = !Utf8.isAscii d := by
  have hsize := Utf8.utf8Size_eq_one_iff.mpr h
  rw [cutsCharacter, h, Bool.true_and, hsize]
  exact Bool.or_false _

/-! ### A percent sign -/

/-- Nothing comes of an escape that cuts a character. -/
theorem decodeLoop_percent_of_cuts {cs : List Char} (h : cutsCharacter cs) :
    decodeLoop (37 :: Utf8.bytes cs) = none := by
  cases cs with
  | nil => cases h
  | cons c cs =>
    cases hascii : Utf8.isAscii c
    · obtain ⟨hi, lo, bs, henc, -, -, hbs, hsize⟩ := exists_of_not_isAscii hascii
      rw [cutsCharacter_of_not_isAscii hascii, decide_eq_true_iff, hsize] at h
      obtain ⟨b, bs, rfl⟩ := List.exists_cons_of_ne_nil h
      have hcut : isCharBoundary (b :: bs ++ Utf8.bytes cs) = false := hbs b List.mem_cons_self
      rw [Utf8.bytes_cons, henc]
      show decodeLoop (37 :: hi :: lo :: (b :: bs ++ Utf8.bytes cs)) = none
      rw [decodeLoop, if_pos rfl, hcut, Bool.and_false]
      rfl
    · cases cs with
      | nil =>
        have hsize := Utf8.utf8Size_eq_one_iff.mpr hascii
        rw [cutsCharacter, hsize] at h
        cases h
      | cons d cs =>
        rw [cutsCharacter_of_isAscii hascii, Bool.not_eq_true'] at h
        obtain ⟨hi, lo, bs, henc, -, hlo, -⟩ := exists_of_not_isAscii h
        have hcut : isCharBoundary (lo :: bs ++ Utf8.bytes cs) = false := hlo
        rw [Utf8.bytes_cons, Utf8.utf8EncodeChar_of_isAscii hascii, Utf8.bytes_cons, henc]
        show decodeLoop (37 :: _ :: hi :: (lo :: bs ++ Utf8.bytes cs)) = none
        rw [decodeLoop, if_pos rfl, hcut, Bool.and_false]
        rfl

/-- Otherwise the percent sign stands for itself, or two characters are read as one. -/
theorem decodeLoop_percent {cs : List Char} (h : cutsCharacter cs = false) :
    decodeLoop (37 :: Utf8.bytes cs) = (decodeLoop (Utf8.bytes cs)).map ('%' :: ·) ∨
      ∃ c d rest v, cs = c :: d :: rest ∧ c ≠ '%' ∧ d ≠ '%' ∧
        decodeLoop (37 :: Utf8.bytes cs) = (decodeLoop (Utf8.bytes rest)).map (v :: ·) := by
  cases cs with
  | nil => exact .inl rfl
  | cons c cs =>
    cases hascii : Utf8.isAscii c
    · obtain ⟨hi, lo, bs, henc, hhi, -, -, hsize⟩ := exists_of_not_isAscii hascii
      rw [cutsCharacter_of_not_isAscii hascii, decide_eq_false_iff_not, hsize, not_not] at h
      left
      rw [Utf8.bytes_cons, henc, h]
      show decodeLoop (37 :: hi :: lo :: Utf8.bytes cs) = _
      have hfirst : isCharBoundary (hi :: lo :: Utf8.bytes cs) = true :=
        Bool.or_eq_true_iff.mpr (.inr (decide_eq_true hhi))
      rw [decodeLoop, if_pos rfl, hfirst, isCharBoundary_bytes, fromStrRadix_eq_none (by omega)]
      rfl
    · cases cs with
      | nil =>
        left
        rw [Utf8.bytes_cons, Utf8.utf8EncodeChar_of_isAscii hascii]
        rfl
      | cons d cs =>
        rw [cutsCharacter_of_isAscii hascii, Bool.not_eq_false'] at h
        have hstep : decodeLoop (37 :: Utf8.bytes (c :: d :: cs)) =
            match fromStrRadix (UInt8.ofNat c.toNat) (UInt8.ofNat d.toNat) with
            | some v => (decodeLoop (Utf8.bytes cs)).map (Char.ofNat v.toNat :: ·)
            | none => (decodeLoop (Utf8.bytes (c :: d :: cs))).map ('%' :: ·) := by
          rw [Utf8.bytes_cons, Utf8.bytes_cons, Utf8.utf8EncodeChar_of_isAscii hascii,
            Utf8.utf8EncodeChar_of_isAscii h]
          show decodeLoop (37 :: UInt8.ofNat c.toNat :: UInt8.ofNat d.toNat :: Utf8.bytes cs) = _
          have hfirst : isCharBoundary (UInt8.ofNat c.toNat :: UInt8.ofNat d.toNat :: Utf8.bytes cs) = true :=
            Utf8.starts_of_isAscii hascii
          rw [decodeLoop, if_pos rfl, hfirst, isCharBoundary_bytes]
          rfl
        rw [hstep]
        cases hradix : fromStrRadix (UInt8.ofNat c.toNat) (UInt8.ofNat d.toNat) with
        | none => exact .inl rfl
        | some v =>
          obtain ⟨hc, hd⟩ := ne_percent_of_fromStrRadix hradix
          refine .inr ⟨c, d, cs, Char.ofNat v.toNat, rfl, ?_, ?_, rfl⟩
          · rintro rfl
            exact hc rfl
          · rintro rfl
            exact hd rfl

/-! ### The text -/

/-- The decoder panics exactly at an escape that ends within a character. -/
theorem decodeLoop_eq_none_iff (cs : List Char) : decodeLoop (Utf8.bytes cs) = none ↔ CutsCharacter cs := by
  induction hn : cs.length using Nat.strong_induction_on generalizing cs with
  | _ n ih =>
    subst hn
    cases cs with
    | nil => exact iff_of_false (Option.some_ne_none _) not_cutsCharacter_nil
    | cons c cs =>
      have htail := ih cs.length (Nat.lt_succ_self _) cs rfl
      rw [cutsCharacter_cons]
      by_cases hc : c = '%'
      · subst hc
        show decodeLoop (37 :: Utf8.bytes cs) = none ↔ _
        cases hcuts : cutsCharacter cs
        · have hrest : (('%' = '%' ∧ false = true) ∨ CutsCharacter cs) ↔ CutsCharacter cs := by simp
          rw [hrest]
          rcases decodeLoop_percent hcuts with hstep | ⟨d, e, rest, v, rfl, hd, he, hstep⟩
          · rw [hstep, Option.map_eq_none_iff, htail]
          · rw [hstep, Option.map_eq_none_iff,
              ih rest.length (by simp only [List.length_cons]; omega) rest rfl, cutsCharacter_cons, cutsCharacter_cons]
            simp [hd, he]
        · simp [decodeLoop_percent_of_cuts hcuts]
      · rw [Utf8.bytes_cons, decodeLoop_append_of_ne (ne_percent_of_mem hc), Option.map_eq_none_iff, htail]
        simp [hc]

theorem utf8Size_plus (c : Char) :
    (if c = '+' then ' ' else c).utf8Size = c.utf8Size ∧ Utf8.isAscii (if c = '+' then ' ' else c) = Utf8.isAscii c := by
  by_cases h : c = '+'
  · subst h
    decide
  · rw [if_neg h]
    exact ⟨rfl, rfl⟩

theorem cutsCharacter_plusToSpace (cs : List Char) : cutsCharacter (plusToSpace cs) = cutsCharacter cs := by
  match cs with
  | [] => rfl
  | [c] =>
    show decide (3 ≤ (if c = '+' then ' ' else c).utf8Size) = _
    rw [(utf8Size_plus c).1]
    rfl
  | c :: d :: cs =>
    show (Utf8.isAscii (if c = '+' then ' ' else c) && !Utf8.isAscii (if d = '+' then ' ' else d) ||
      decide (3 ≤ (if c = '+' then ' ' else c).utf8Size)) = _
    rw [(utf8Size_plus c).1, (utf8Size_plus c).2, (utf8Size_plus d).2]
    rfl

theorem cutsCharacter_plus_iff (cs : List Char) : CutsCharacter (plusToSpace cs) ↔ CutsCharacter cs := by
  induction cs with
  | nil => exact Iff.rfl
  | cons c cs ih =>
    have hpercent : (if c = '+' then ' ' else c) = '%' ↔ c = '%' := by
      split
      · next h => simp [h]
      · rfl
    show CutsCharacter ((if c = '+' then ' ' else c) :: plusToSpace cs) ↔ _
    rw [cutsCharacter_cons, cutsCharacter_cons, hpercent, cutsCharacter_plusToSpace, ih]

/-! ## Reading a form back -/

/-- The escape of a byte is read as one character. -/
theorem decodeLoop_escape (b : UInt8) (cs : List Char) :
    decodeLoop (Utf8.bytes (Percent.escape b ++ cs)) =
      (decodeLoop (Utf8.bytes cs)).map (Char.ofNat b.toNat :: ·) := by
  have hdigit : ∀ n < 16, Utf8.isAscii (Percent.digit n) ∧
      UInt8.ofNat (Percent.digit n).toNat ≠ 43 ∧
      Percent.value (Char.ofNat (UInt8.ofNat (Percent.digit n).toNat).toNat) = some n := by decide
  have hb := b.toNat_lt
  obtain ⟨hascii, hne, hval⟩ := hdigit (b.toNat / 16) (by omega)
  obtain ⟨hascii', -, hval'⟩ := hdigit (b.toNat % 16) (by omega)
  have hradix : fromStrRadix (UInt8.ofNat (Percent.digit (b.toNat / 16)).toNat)
      (UInt8.ofNat (Percent.digit (b.toNat % 16)).toNat) = some b := by
    have hsum : b.toNat / 16 * 16 + b.toNat % 16 = b.toNat := by omega
    rw [fromStrRadix, if_neg hne, hval, hval']
    show some (UInt8.ofNat (b.toNat / 16 * 16 + b.toNat % 16)) = some b
    rw [hsum, UInt8.ofNat_toNat]
  have hfirst : isCharBoundary (UInt8.ofNat (Percent.digit (b.toNat / 16)).toNat ::
      UInt8.ofNat (Percent.digit (b.toNat % 16)).toNat :: Utf8.bytes cs) = true := Utf8.starts_of_isAscii hascii
  rw [Percent.escape, List.cons_append, List.cons_append, List.singleton_append, Utf8.bytes_cons, Utf8.bytes_cons,
    Utf8.bytes_cons, Utf8.utf8EncodeChar_of_isAscii hascii, Utf8.utf8EncodeChar_of_isAscii hascii']
  show decodeLoop (37 :: UInt8.ofNat (Percent.digit (b.toNat / 16)).toNat ::
    UInt8.ofNat (Percent.digit (b.toNat % 16)).toNat :: Utf8.bytes cs) = _
  rw [decodeLoop, if_pos rfl, hfirst, isCharBoundary_bytes, hradix]
  rfl

section Encoded
variable {keep : UInt8 → Bool}

/-- Of a percent coded text each byte is read as one character. -/
theorem decodeLoop_encode (hkeep : ∀ b, keep b → b.toNat < 128 ∧ Char.ofNat b.toNat ≠ '%') (bs : List UInt8) :
    decodeLoop (Utf8.bytes (Percent.encode keep bs)) = some (bs.map fun b => Char.ofNat b.toNat) := by
  induction bs with
  | nil => rfl
  | cons b bs ih =>
    rw [Percent.encode, List.flatMap_cons]
    show decodeLoop (Utf8.bytes (_ ++ Percent.encode keep bs)) = _
    by_cases hb : keep b
    · obtain ⟨hlt, hne⟩ := hkeep b hb
      have hnat := Percent.toNat_ofNat hlt
      have hascii : Utf8.isAscii (Char.ofNat b.toNat) := decide_eq_true (hnat.symm ▸ hlt)
      rw [if_pos hb, List.singleton_append, Utf8.bytes_cons, decodeLoop_append_of_ne (ne_percent_of_mem hne),
        Utf8.utf8EncodeChar_of_isAscii hascii, hnat, UInt8.ofNat_toNat, ih]
      rfl
    · rw [if_neg hb, decodeLoop_escape, ih]
      rfl

end Encoded

/-- What a form keeps of a text: anything that is not a plus sign or a percent sign. -/
theorem formKeeps_plain {b : UInt8} (h : (b = 32 || Percent.formKeeps b) = true) :
    b.toNat < 128 ∧ Char.ofNat b.toNat ≠ '%' ∧ Char.ofNat b.toNat ≠ '+' := by
  have hb := b.toNat_lt
  have hall : ∀ n < 256, (UInt8.ofNat n = 32 || Percent.formKeeps (UInt8.ofNat n)) = true →
      n < 128 ∧ Char.ofNat n ≠ '%' ∧ Char.ofNat n ≠ '+' := by decide +kernel
  exact hall b.toNat hb (by rw [UInt8.ofNat_toNat]; exact h)

/-- The plus signs of a form are its spaces. -/
theorem plusToSpace_formEncode (s : String) :
    plusToSpace (Percent.formEncode s).toList =
      Percent.encode (fun b => b = 32 || Percent.formKeeps b) (Utf8.bytes s.toList) := by
  have hplus : ∀ c ∈ Percent.encode (fun b => b = 32 || Percent.formKeeps b) (Utf8.bytes s.toList), c ≠ '+' := by
    intro c hc
    obtain ⟨b, -, hc⟩ := List.mem_flatMap.mp hc
    by_cases hb : (b = 32 || Percent.formKeeps b) = true
    · rw [if_pos hb, List.mem_singleton] at hc
      rw [hc]
      exact (formKeeps_plain hb).2.2
    · have hlt := b.toNat_lt
      have hdigit : ∀ n < 16, Percent.digit n ≠ '+' := by decide
      rw [if_neg hb, Percent.escape] at hc
      simp only [List.mem_cons, List.not_mem_nil, or_false] at hc
      rcases hc with rfl | rfl | rfl
      · decide
      · exact hdigit _ (by omega)
      · exact hdigit _ (by omega)
  rw [plusToSpace, Percent.formEncode, String.toList_ofList, List.map_map]
  conv_rhs => rw [← List.map_id (Percent.encode _ _)]
  apply List.map_congr_left
  intro c hc
  by_cases hspace : c = ' '
  · subst hspace
    rfl
  · show (if (if c = ' ' then '+' else c) = '+' then ' ' else (if c = ' ' then '+' else c)) = c
    rw [if_neg hspace, if_neg (hplus c hc)]

/-- Each byte of the text arrives as a character. -/
theorem urlencodingDecode_formEncode (s : String) :
    urlencodingDecode (Percent.formEncode s) =
      some (String.ofList ((Utf8.bytes s.toList).map fun b => Char.ofNat b.toNat)) := by
  rw [urlencodingDecode, plusToSpace_formEncode,
    decodeLoop_encode fun b hb => ⟨(formKeeps_plain hb).1, (formKeeps_plain hb).2.1⟩]
  rfl

/-- A text arrives unchanged exactly if it is ASCII. -/
theorem urlencodingDecode_formEncode_iff (s : String) :
    urlencodingDecode (Percent.formEncode s) = some s ↔ ∀ c ∈ s.toList, Utf8.isAscii c := by
  rw [urlencodingDecode_formEncode, Option.some_inj]
  constructor
  · intro h
    apply Utf8.isAscii_of_length
    have hlen := congrArg (fun s => s.toList.length) h
    rwa [String.toList_ofList, List.length_map] at hlen
  · intro h
    apply String.toList_injective
    rw [String.toList_ofList, Utf8.bytes_of_isAscii h, List.map_map]
    conv_rhs => rw [← List.map_id s.toList]
    apply List.map_congr_left
    intro c hc
    have hlt : c.toNat < 128 := of_decide_eq_true (h c hc)
    show Char.ofNat (UInt8.ofNat c.toNat).toNat = c
    rw [UInt8.toNat_ofNat', Nat.mod_eq_of_lt (by omega), Char.ofNat_toNat]

theorem interactionPayload_form (s : String) :
    interactionPayload ("payload=" ++ Percent.formEncode s) = urlencodingDecode (Percent.formEncode s) := by
  rw [interactionPayload, Text.stripPrefix_append]

/-- The decoder returns unless an escape ends within a character; an ASCII text, and no other, arrives unchanged. -/
theorem urlencodingDecode_iff (s : String) :
    ((urlencodingDecode s).isSome ↔ ¬CutsCharacter s.toList) ∧
      (urlencodingDecode (Percent.formEncode s) = some s ∧
          interactionPayload ("payload=" ++ Percent.formEncode s) = some s ↔
        ∀ c ∈ s.toList, Utf8.isAscii c) := by
  constructor
  · rw [urlencodingDecode, Option.isSome_map, Option.isSome_iff_ne_none, ne_eq, decodeLoop_eq_none_iff,
      cutsCharacter_plus_iff]
  · rw [interactionPayload_form, and_self]
    exact urlencodingDecode_formEncode_iff s

/-- A panic at a lone percent sign, and a name that arrives as other characters. -/
theorem urlencodingDecode_fails :
    urlencodingDecode "100%€" = none ∧ urlencodingDecode (Percent.formEncode "José") = some "JosÃ©" ∧
      ¬∀ s, (urlencodingDecode s).isSome ∧ urlencodingDecode (Percent.formEncode s) = some s := by
  have hpanic : urlencodingDecode "100%€" = none := by decide
  refine ⟨hpanic, by decide, ?_⟩
  intro h
  have hsome := (h "100%€").1
  rw [hpanic] at hsome
  cases hsome

end AiManager.Platform
