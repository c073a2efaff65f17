import Mathlib.Algebra.Order.Ring.Int
import Mathlib.Data.List.DropRight
import Mathlib.Tactic.Common

/-! # Text

String operations of a systems language, on the list of characters, so that they evaluate. -/

namespace AiManager.Lib.Text

/-- `part` stands somewhere in the list. -/
def isInfix (part : List Char) : List Char → Bool
  | [] => part.isEmpty
  | c :: cs => part.isPrefixOf (c :: cs) || isInfix part cs

/-- `s.contains(part)` -/
def contains (s part : String) : Bool := isInfix part.toList s.toList

/-- `s.starts_with(part)` -/
def startsWith (s part : String) : Bool := part.toList.isPrefixOf s.toList

/-- `s.ends_with(part)` -/
def endsWith (s part : String) : Bool := part.toList.isSuffixOf s.toList

/-- `s.strip_prefix(part)` -/
def stripPrefix (s part : String) : Option String :=
  if startsWith s part then some (String.ofList (s.toList.drop part.toList.length)) else none

@[simp] theorem startsWith_append (p s : String) : startsWith (p ++ s) p = true := by
  simp [startsWith, List.isPrefixOf_iff_prefix]

theorem stripPrefix_append (p s : String) : stripPrefix (p ++ s) p = some s := by
  simp [stripPrefix]

theorem isInfix_iff {part cs : List Char} : isInfix part cs = true ↔ part <:+: cs := by
  induction cs with
  | nil => simp [isInfix]
  | cons c cs ih => simp [isInfix, ih, List.infix_cons_iff, List.isPrefixOf_iff_prefix]

/-- A part without the separator is on one side of it. -/
theorem infix_append_cons_iff {part xs ys : List Char} {c : Char} (hc : c ∉ part) :
    part <:+: xs ++ c :: ys ↔ part <:+: xs ∨ part <:+: ys := by
  have hstart : ∀ xs, part <+: xs ++ c :: ys → part <+: xs := by
    intro xs h
    rcases List.prefix_or_prefix_of_prefix h (List.prefix_append xs (c :: ys)) with hpart | ⟨t, ht⟩
    · exact hpart
    · cases t with
      | nil => exact ⟨[], by rw [← ht, List.append_nil, List.append_nil]⟩
      | cons d t =>
        rw [← ht, List.prefix_append_right_inj, List.cons_prefix_cons] at h
        rw [← ht, h.1] at hc
        exact absurd (List.mem_append_right _ List.mem_cons_self) hc
  induction xs with
  | nil =>
    rw [List.nil_append, List.infix_cons_iff]
    refine or_congr_left ⟨fun h => ?_, fun h => ?_⟩
    · exact (hstart [] h).isInfix
    · rw [List.infix_nil.mp h]
      exact List.nil_prefix
  | cons x xs ih =>
    have hhere : part <+: x :: (xs ++ c :: ys) ↔ part <+: x :: xs :=
      ⟨hstart (x :: xs), fun h => h.trans (List.prefix_append (x :: xs) (c :: ys))⟩
    rw [List.cons_append, List.infix_cons_iff, List.infix_cons_iff, or_assoc]
    exact or_congr hhere ih

theorem contains_append {p s part : String} {xs : List Char} {c : Char} (hp : p.toList = xs ++ [c])
    (hc : c ∉ part.toList) :
    contains (p ++ s) part = (isInfix part.toList xs || contains s part) := by
  rw [Bool.eq_iff_iff, Bool.or_eq_true, contains, contains, isInfix_iff, isInfix_iff, isInfix_iff,
    String.toList_append, hp, List.append_assoc]
  exact infix_append_cons_iff hc

/-- Characters with the Unicode property `White_Space`. -/
def isWhitespace (c : Char) : Bool :=
  let n := c.toNat
  (9 ≤ n && n ≤ 13) || n == 0x20 || n == 0x85 || n == 0xA0 || n == 0x1680 ||
    (0x2000 ≤ n && n ≤ 0x200A) || n == 0x2028 || n == 0x2029 || n == 0x202F || n == 0x205F ||
    n == 0x3000

def trimChars (cs : List Char) : List Char :=
  ((cs.dropWhile isWhitespace).reverse.dropWhile isWhitespace).reverse

theorem trimChars_trimChars (cs : List Char) : trimChars (trimChars cs) = trimChars cs := by
  have hfront : (trimChars cs).dropWhile isWhitespace = trimChars cs := by
    rw [List.dropWhile_eq_self_iff]
    intro hpos
    have hstart : trimChars cs <+: cs.dropWhile isWhitespace := List.rdropWhile_prefix _ _
    rw [hstart.getElem hpos]
    exact List.dropWhile_get_zero_not isWhitespace cs _
  show ((trimChars cs).dropWhile isWhitespace).rdropWhile isWhitespace = _
  rw [hfront]
  exact List.rdropWhile_idempotent isWhitespace _

/-- `s.trim()` -/
def trim (s : String) : String := String.ofList (trimChars s.toList)

theorem trim_trim (s : String) : trim (trim s) = trim s := by
  unfold trim
  rw [String.toList_ofList, trimChars_trimChars]

/-- The maximal runs of characters without whitespace. -/
def wordsOf : List Char → List Char → List (List Char)
  | word, [] => if word.isEmpty then [] else [word.reverse]
  | word, c :: cs =>
    if isWhitespace c then
      if word.isEmpty then wordsOf [] cs else word.reverse :: wordsOf [] cs
    else wordsOf (c :: word) cs

theorem not_isWhitespace_of_mem_wordsOf {cs w acc : List Char} (hacc : ∀ c ∈ acc, ¬ isWhitespace c)
    (hw : w ∈ wordsOf acc cs) : ∀ c ∈ w, ¬ isWhitespace c := by
  have hword : ∀ {acc : List Char}, (∀ c ∈ acc, ¬ isWhitespace c) → ∀ c ∈ acc.reverse, ¬ isWhitespace c :=
    fun h c hc => h c (List.mem_reverse.mp hc)
  induction cs generalizing acc with
  | nil =>
    rw [wordsOf] at hw
    split_ifs at hw
    · cases hw
    · rw [List.mem_singleton.mp hw]
      exact hword hacc
  | cons c cs ih =>
    rw [wordsOf] at hw
    split_ifs at hw with hc hempty
    · exact ih (List.forall_mem_nil _) hw
    · rcases List.mem_cons.mp hw with rfl | hw
      · exact hword hacc
      · exact ih (List.forall_mem_nil _) hw
    · exact ih (List.forall_mem_cons.mpr ⟨hc, hacc⟩) hw

/-- `s.split_whitespace()` -/
def splitWhitespace (s : String) : List String := (wordsOf [] s.toList).map String.ofList

def splitChars (sep : Char) : List Char → List (List Char)
  | [] => [[]]
  | c :: cs =>
    if c = sep then [] :: splitChars sep cs
    else
      match splitChars sep cs with
      | [] => [[c]]
      | part :: parts => (c :: part) :: parts

/-- `s.split(sep)` -/
def split (s : String) (sep : Char) : List String := (splitChars sep s.toList).map String.ofList

theorem head_splitChars (sep : Char) (cs : List Char) :
    (splitChars sep cs).head? = some (cs.takeWhile (· ≠ sep)) := by
  induction cs with
  | nil => rfl
  | cons c cs ih =>
    unfold splitChars
    by_cases hc : c = sep
    · rw [if_pos hc, List.takeWhile_cons_of_neg (by simp [hc])]
      rfl
    · rw [if_neg hc, List.takeWhile_cons_of_pos (by simp [hc])]
      obtain ⟨rest, hrest⟩ := List.head?_eq_some_iff.mp ih
      rw [hrest]
      rfl

/-- The first part goes up to the first separator. -/
theorem head_split (s : String) (sep : Char) :
    (split s sep).head? = some (String.ofList (s.toList.takeWhile (· ≠ sep))) := by
  unfold split
  rw [List.head?_map, head_splitChars]
  rfl

def beforeChars (part : List Char) : List Char → Option (List Char)
  | [] => if part.isEmpty then some [] else none
  | c :: cs =>
    if part.isPrefixOf (c :: cs) then some [] else (beforeChars part cs).map (c :: ·)

/-- What stands before the first `part`: `s.find(part)`, and the slice up to there. -/
def before (s part : String) : Option String :=
  (beforeChars part.toList s.toList).map String.ofList

/-- What stands after the first `part`. -/
def after (s part : String) : Option String :=
  (before s part).map fun p => String.ofList (s.toList.drop (p.toList.length + part.toList.length))

/-- `s.trim_matches(p)` -/
def trimMatches (p : Char → Bool) (s : String) : String :=
  String.ofList (((s.toList.dropWhile p).reverse.dropWhile p).reverse)

/-- At most `n` times. -/
def stripRepeated (part : List Char) : Nat → List Char → List Char
  | 0, cs => cs
  | n + 1, cs =>
    if part.isPrefixOf cs then stripRepeated part n (cs.drop part.length) else cs

/-- `s.trim_start_matches(part)`, for a `part` that is not empty. -/
def trimStartMatches (s part : String) : String :=
  String.ofList (stripRepeated part.toList s.toList.length s.toList)

/-- `s.trim_end_matches(part)`, for a `part` that is not empty. -/
def trimEndMatches (s part : String) : String :=
  String.ofList (stripRepeated part.toList.reverse s.toList.length s.toList.reverse).reverse

/-- `s.lines().next()`; a carriage return before the line feed stays. -/
def firstLine (s : String) : String := String.ofList (s.toList.takeWhile (· ≠ '\n'))

/-- `s.chars().take(n)` -/
def take (n : Nat) (s : String) : String := String.ofList (s.toList.take n)

/-- `s.len()`: the bytes in UTF-8. -/
def byteLength (s : String) : Nat := (s.toList.map Char.utf8Size).sum

def lowerChar (c : Char) : Char :=
  if 'A' ≤ c ∧ c ≤ 'Z' then Char.ofNat (c.toNat + 32) else c

/-- `s.to_ascii_lowercase()` -/
def toAsciiLowercase (s : String) : String := String.ofList (s.toList.map lowerChar)

theorem lowerChar_lowerChar (c : Char) : lowerChar (lowerChar c) = lowerChar c := by
  have hletters : ∀ k < 26, lowerChar (Char.ofNat (65 + k + 32)) = Char.ofNat (65 + k + 32) := by decide
  by_cases hc : 'A' ≤ c ∧ c ≤ 'Z'
  · have hlow : 65 ≤ c.toNat := hc.1
    have hhigh : c.toNat ≤ 90 := hc.2
    have hlower : lowerChar c = Char.ofNat (65 + (c.toNat - 65) + 32) := by
      unfold lowerChar
      rw [if_pos hc, Nat.add_sub_cancel' hlow]
    rw [hlower]
    exact hletters _ (by omega)
  · have hsame : lowerChar c = c := if_neg hc
    rw [hsame, hsame]

theorem toAsciiLowercase_toAsciiLowercase (s : String) : toAsciiLowercase (toAsciiLowercase s) = toAsciiLowercase s := by
  unfold toAsciiLowercase
  rw [String.toList_ofList, List.map_map]
  congr 1
  exact List.map_congr_left fun c _ => lowerChar_lowerChar c

def upperChar (c : Char) : Char :=
  if 'a' ≤ c ∧ c ≤ 'z' then Char.ofNat (c.toNat - 32) else c

/-- `s.to_ascii_uppercase()` -/
def toAsciiUppercase (s : String) : String := String.ofList (s.toList.map upperChar)

/-- `a.eq_ignore_ascii_case(b)` -/
def eqIgnoreAsciiCase (a b : String) : Bool := toAsciiLowercase a = toAsciiLowercase b

/-- `parts.join(sep)` -/
def join (sep : String) : List String → String
  | [] => ""
  | [s] => s
  | s :: t :: rest => s ++ sep ++ join sep (t :: rest)

theorem toList_join (sep : String) (parts : List String) :
    (join sep parts).toList = sep.toList.intercalate (parts.map String.toList) := by
  induction parts with
  | nil => rfl
  | cons s parts ih =>
    cases parts with
    | nil => exact List.intercalate_singleton.symm
    | cons t rest =>
      rw [join, String.toList_append, String.toList_append, ih]
      exact List.intercalate_cons_cons.symm

example : splitWhitespace " a  bc\td " = ["a", "bc", "d"] := by decide

end AiManager.Lib.Text
