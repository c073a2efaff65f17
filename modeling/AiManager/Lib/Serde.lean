import AiManager.Lib.Instant
import AiManager.Lib.Json

/-! # Records as JSON objects

A record is written as an object with one field for each of its own, and read field by field: a field that is not known
is ignored, one that is there twice is an error, and one that is missing is an error too, or has a default. What was
written is read back (`required_of_mem`, `orDefault_of_mem`). -/

namespace AiManager.Lib.Json
variable {α : Type}

/-- The value of a field, if it is there; nothing where the field is there twice, or there are no fields. -/
def field (name : String) : Json → Option (Option Json)
  | .obj fields =>
    match fields.filter fun f => f.1 = name with
    | [] => some none
    | [f] => some (some f.2)
    | _ => none
  | _ => none

def required (read : Json → Option α) (name : String) (j : Json) : Option α :=
  match j.field name with
  | some (some v) => read v
  | _ => none

/-- `#[serde(default)]` -/
def orDefault (read : Json → Option α) (default : α) (name : String) (j : Json) : Option α :=
  match j.field name with
  | some (some v) => read v
  | some none => some default
  | none => none

/-- No field is there twice. -/
def Distinct (fields : List (String × Json)) : Prop := (fields.map Prod.fst).Nodup

instance (fields : List (String × Json)) : Decidable (Distinct fields) := inferInstanceAs (Decidable (List.Nodup _))

theorem Distinct.of_names {fields : List (String × Json)} (names : List String) (h : fields.map Prod.fst = names)
    (hnames : names.Nodup) : Distinct fields := by
  unfold Distinct
  rw [h]
  exact hnames

section Fields
variable {fields : List (String × Json)} {name : String} {v : Json}

theorem field_of_mem (hdistinct : Distinct fields) (h : (name, v) ∈ fields) :
    (Json.obj fields).field name = some (some v) := by
  have honly : fields.filter (fun f => f.1 = name) = [(name, v)] := by
    induction fields with
    | nil => cases h
    | cons f fs ih =>
      obtain ⟨hnew, hrest⟩ := List.nodup_cons.mp hdistinct
      rcases List.mem_cons.mp h with rfl | hmem
      · have hnone : fs.filter (fun f => f.1 = name) = [] := by
          rw [List.filter_eq_nil_iff]
          intro f hf hname
          exact hnew (List.mem_map.mpr ⟨f, hf, of_decide_eq_true hname⟩)
        rw [List.filter_cons_of_pos (by simp), hnone]
      · have hne : f.1 ≠ name := by
          rintro rfl
          exact hnew (List.mem_map.mpr ⟨_, hmem, rfl⟩)
        rw [List.filter_cons_of_neg (by simpa using hne)]
        exact ih hrest hmem
  unfold field
  dsimp only
  rw [honly]

theorem field_of_notMem (h : name ∉ fields.map Prod.fst) : (Json.obj fields).field name = some none := by
  have hnone : fields.filter (fun f => f.1 = name) = [] := by
    rw [List.filter_eq_nil_iff]
    intro f hf hname
    exact h (List.mem_map.mpr ⟨f, hf, of_decide_eq_true hname⟩)
  unfold field
  dsimp only
  rw [hnone]

variable (read : Json → Option α)

theorem required_of_mem (hdistinct : Distinct fields) (h : (name, v) ∈ fields) :
    (Json.obj fields).required read name = read v := by
  unfold required
  rw [field_of_mem hdistinct h]

theorem orDefault_of_mem (default : α) (hdistinct : Distinct fields) (h : (name, v) ∈ fields) :
    (Json.obj fields).orDefault read default name = read v := by
  unfold orDefault
  rw [field_of_mem hdistinct h]

/-- The field at a place of what was written. -/
theorem required_at {written : List (String × Json)} (hdistinct : Distinct fields) (hwritten : written ⊆ fields) (i : ℕ)
    (h : written[i]? = some (name, v)) : (Json.obj fields).required read name = read v :=
  required_of_mem read hdistinct (hwritten (List.mem_of_getElem? h))

theorem orDefault_at {written : List (String × Json)} (default : α) (hdistinct : Distinct fields)
    (hwritten : written ⊆ fields) (i : ℕ) (h : written[i]? = some (name, v)) :
    (Json.obj fields).orDefault read default name = read v :=
  orDefault_of_mem read default hdistinct (hwritten (List.mem_of_getElem? h))

theorem required_of_notMem (h : name ∉ fields.map Prod.fst) : (Json.obj fields).required read name = none := by
  unfold required
  rw [field_of_notMem h]

end Fields

/-! ## Values -/

def ofNat (n : Nat) : Json := .num n 0

/-- A nonnegative integer of 64 bits. -/
def readU64 (j : Json) : Option Nat := j.asU64.filter fun n => n < 2 ^ 64

theorem readU64_ofNat {n : Nat} (h : n < 2 ^ 64) : (ofNat n).readU64 = some n := by
  unfold readU64
  show Option.filter _ (some n) = _
  rw [Option.filter_some, if_pos (decide_eq_true h)]

def readStrings (j : Json) : Option (List String) := j.asArray.bind fun items => items.mapM asStr

theorem readStrings_ofStrings (xs : List String) : (ofStrings xs).readStrings = some xs := by
  show List.mapM asStr (xs.map .str) = some xs
  induction xs with
  | nil => rfl
  | cons x xs ih =>
    rw [List.map_cons, List.mapM_cons, ih]
    rfl

end AiManager.Lib.Json

/-! ## Times in UTC -/

namespace AiManager.Lib

namespace DateTime

/-- `2026-07-16T00:00:00.123Z` -/
def toRfc3339Z (t : DateTime) : String :=
  t.dayText ++ "T" ++ t.clockText ++ ":" ++ padded 2 (t.secondOfDay % 60)
    ++ fractionText ((t % nanosPerSecond).toNat) ++ "Z"

/-- The year needs four digits. -/
def UtcYear (t : DateTime) : Prop := 0 ≤ (civil (t / nanosPerDay)).1 ∧ (civil (t / nanosPerDay)).1 ≤ 9999

instance (t : DateTime) : Decidable t.UtcYear := inferInstanceAs (Decidable (_ ∧ _))

end DateTime

namespace Instant

open DateTime

/-- In nanoseconds; a leap second is taken for the one after it. -/
def toDateTime (t : Instant) : DateTime := t.secs * nanosPerSecond + t.nanos

theorem toDateTime_ofDateTime (t : DateTime) : (ofDateTime t).toDateTime = t := by
  have hnanos : ((t % nanosPerSecond).toNat : Int) = t % nanosPerSecond :=
    Int.toNat_of_nonneg (Int.emod_nonneg _ (by decide))
  show t / nanosPerSecond * nanosPerSecond + ((t % nanosPerSecond).toNat : Int) = t
  rw [hnanos]
  exact Int.ediv_mul_add_emod t nanosPerSecond

/-- The clock in UTC is the clock at UTC+05:30 of five and a half hours before. -/
def shifted (t : DateTime) : Instant := ofDateTime (t - 19800 * nanosPerSecond)

theorem istDay_shifted (t : DateTime) : (shifted t).istDay = t / nanosPerDay := by
  change @Eq Int (((t - 19800 * 1000000000) / 1000000000 + 19800) / 86400) (t / 86400000000000)
  omega

theorem istSecondOfDay_shifted (t : DateTime) : (shifted t).istSecondOfDay = t.secondOfDay := by
  change (((t - 19800 * 1000000000) / 1000000000 + 19800) % 86400).toNat = (t % 86400000000000).toNat / 1000000000
  omega

theorem nanos_shifted (t : DateTime) : (shifted t).nanos = (t % nanosPerSecond).toNat := by
  change ((t - 19800 * 1000000000) % 1000000000).toNat = (t % 1000000000).toNat
  omega

theorem nanos_shifted_lt (t : DateTime) : (shifted t).nanos < 1000000000 := by
  rw [nanos_shifted]
  change (t % 1000000000).toNat < 1000000000
  omega

theorem istSecond_shifted (t : DateTime) : (shifted t).istSecond = t.secondOfDay % 60 := by
  unfold istSecond
  rw [istSecondOfDay_shifted, Nat.div_eq_of_lt (nanos_shifted_lt t), Nat.add_zero]

theorem toList_toRfc3339Z {t : DateTime} (h : t.UtcYear) : t.toRfc3339Z.toList =
    digits 4 (civil (shifted t).istDay).1.toNat ++ '-' :: (digits 2 (civil (shifted t).istDay).2.1 ++ '-' ::
      (digits 2 (civil (shifted t).istDay).2.2 ++ 'T' :: (digits 2 ((shifted t).istSecondOfDay / 3600) ++ ':' ::
        (digits 2 ((shifted t).istSecondOfDay / 60 % 60) ++ ':' :: (digits 2 (shifted t).istSecond ++
          ((fractionText (shifted t).nanos).toList ++ ['Z'])))))) := by
  have hday := (shifted t).istSecondOfDay_lt
  have hbounds := civil_bounds (t / nanosPerDay)
  rw [istDay_shifted, istSecond_shifted, nanos_shifted]
  rw [istSecondOfDay_shifted] at hday ⊢
  unfold DateTime.UtcYear at h
  unfold toRfc3339Z dayText clockText
  generalize civil (t / nanosPerDay) = date at h hbounds ⊢
  obtain ⟨y, m, d⟩ := date
  dsimp only at h hbounds ⊢
  rw [yearText, if_pos h]
  simp only [String.toList_append]
  rw [toList_padded (by omega), toList_padded (by omega), toList_padded (by omega), toList_padded (by omega),
    toList_padded (by omega), toList_padded (by omega)]
  simp only [List.append_assoc]
  rfl

/-- The text of a time in UTC names it. -/
theorem readRfc3339_toRfc3339Z {t : DateTime} (h : t.UtcYear) : readRfc3339 t.toRfc3339Z = some (ofDateTime t) := by
  have hyear : 0 ≤ (civil (shifted t).istDay).1 ∧ (civil (shifted t).istDay).1 ≤ 9999 := by
    rw [istDay_shifted]
    exact h
  have hread := readFraction_fractionText (nanos_shifted_lt t) (c := 'Z') rfl (by decide) []
  have hoffset : readOffset ['Z'] = some 0 := by decide
  have hsecs := (shifted t).secs_eq
  have hzero : (shifted t).nanos / 1000000000 = 0 := Nat.div_eq_of_lt (nanos_shifted_lt t)
  unfold readRfc3339
  rw [toList_toRfc3339Z h, readDate_digits hyear.1 hyear.2]
  dsimp only [Option.bind_eq_bind, Option.bind_some]
  rw [skip_cons]
  dsimp only [Option.bind_some]
  rw [readClock_digits (shifted t)]
  dsimp only [Option.bind_some]
  rw [hread]
  dsimp only [Option.bind_some]
  rw [hoffset]
  dsimp only [Option.bind_some]
  rw [hzero, ← hsecs, nanos_shifted]
  have hshift : (shifted t).secs + 19800 - 0 = (ofDateTime t).secs := by
    change @Eq Int ((t - 19800 * 1000000000) / 1000000000 + 19800 - 0) (t / 1000000000)
    omega
  have hnanos : (t % nanosPerSecond).toNat = (ofDateTime t).nanos := rfl
  rw [hshift, Nat.mul_zero, Nat.zero_add, hnanos, ofSeconds_eq]

end Instant

namespace Json

/-- A time, as its text. -/
def ofTime (t : DateTime) : Json := .str t.toRfc3339Z

def readTime (j : Json) : Option DateTime := (j.asStr.bind Instant.readRfc3339).map Instant.toDateTime

theorem readTime_ofTime {t : DateTime} (h : t.UtcYear) : (ofTime t).readTime = some t := by
  unfold readTime ofTime asStr
  rw [Option.bind_some, Instant.readRfc3339_toRfc3339Z h, Option.map_some, Instant.toDateTime_ofDateTime]

end Json

/-! ## Text -/

/-- How values are written as bytes, and what is read from bytes. -/
structure JsonBytes where
  toVec : Json → List UInt8
  fromSlice : List UInt8 → Option Json

/-- What is written of the value is read as the value. -/
def JsonBytes.Keeps (text : JsonBytes) (j : Json) : Prop := text.fromSlice (text.toVec j) = some j

end AiManager.Lib
