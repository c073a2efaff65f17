import Mathlib.Tactic.Common

/-! # Instants

An instant is a number of nanoseconds since the Unix epoch, in UTC. The calendar is the proleptic
Gregorian one. -/

namespace AiManager.Lib

/-- Nanoseconds since 1970-01-01T00:00:00Z. -/
abbrev DateTime := Int

namespace DateTime

def nanosPerSecond : Int := 1000000000
def nanosPerMinute : Int := 60 * nanosPerSecond
def nanosPerHour : Int := 60 * nanosPerMinute
def nanosPerDay : Int := 24 * nanosPerHour

/-- Year, month and day of the `days`-th day after the epoch. Years are counted from March here, in
eras of 400 years, so that the leap day is the last one of its year. -/
def civil (days : Int) : Int × Nat × Nat :=
  let z := days + 719468
  let era := z / 146097
  let doe := (z % 146097).toNat
  let yoe := (doe - doe / 1460 + doe / 36524 - doe / 146096) / 365
  let doy := doe - (365 * yoe + yoe / 4 - yoe / 100)
  let mp := (5 * doy + 2) / 153
  let d := doy - (153 * mp + 2) / 5 + 1
  let m := if mp < 10 then mp + 3 else mp - 9
  let y := (yoe : Int) + era * 400
  (if m ≤ 2 then y + 1 else y, m, d)

/-- The instant at a precision of milliseconds; the rest is cut off. -/
def truncMillis (t : DateTime) : DateTime := t / 1000000 * 1000000

/-- The instant at a precision of microseconds. -/
def truncMicros (t : DateTime) : DateTime := t / 1000 * 1000

theorem truncMicros_truncMicros (t : DateTime) : truncMicros (truncMicros t) = truncMicros t := by
  unfold truncMicros
  rw [Int.mul_ediv_cancel _ (by decide)]

/-- Year and month, `toYYYYMM`. -/
def yearMonth (t : DateTime) : Int × Nat :=
  let (y, m, _) := civil (t / nanosPerDay)
  (y, m)

/-- A number in decimal, padded with zeros on the left. -/
def padded (width n : Nat) : String :=
  let digits := toString n
  String.ofList (List.replicate (width - digits.length) '0') ++ digits

/-- Four digits, or a sign and at least five characters outside 0 to 9999. -/
def yearText (y : Int) : String :=
  if 0 ≤ y ∧ y ≤ 9999 then padded 4 y.toNat
  else if y < 0 then "-" ++ padded 4 y.natAbs
  else "+" ++ padded 4 y.toNat

/-- Fraction of a second: nothing, milliseconds, microseconds or nanoseconds, as needed. -/
def fractionText (nanos : Nat) : String :=
  if nanos = 0 then ""
  else if nanos % 1000000 = 0 then "." ++ padded 3 (nanos / 1000000)
  else if nanos % 1000 = 0 then "." ++ padded 6 (nanos / 1000)
  else "." ++ padded 9 nanos

/-- The calendar day, `%Y-%m-%d`. -/
def dayText (t : DateTime) : String :=
  let (y, m, d) := civil (t / nanosPerDay)
  yearText y ++ "-" ++ padded 2 m ++ "-" ++ padded 2 d

/-- Seconds since the start of the day. -/
def secondOfDay (t : DateTime) : Nat := (t % nanosPerDay).toNat / nanosPerSecond.toNat

/-- The time of the day, `%H:%M`. -/
def clockText (t : DateTime) : String :=
  padded 2 (t.secondOfDay / 3600) ++ ":" ++ padded 2 (t.secondOfDay / 60 % 60)

/-- `to_rfc3339()` of a UTC instant. -/
def toRfc3339 (t : DateTime) : String :=
  t.dayText ++ "T" ++ t.clockText ++ ":" ++ padded 2 (t.secondOfDay % 60)
    ++ fractionText ((t % nanosPerSecond).toNat) ++ "+00:00"

example : toRfc3339 1784160000123000000 = "2026-07-16T00:00:00.123+00:00" := by decide

/-! ## India Standard Time -/

/-- The instant whose UTC fields are the fields of `t` at UTC+05:30. -/
def toIst (t : DateTime) : DateTime := t + 19800 * nanosPerSecond

/-- `2026-08-13T17:30:00+05:30` -/
def formatIstRfc3339 (t : DateTime) : String :=
  t.toIst.dayText ++ "T" ++ t.toIst.clockText ++ ":" ++ padded 2 (t.toIst.secondOfDay % 60)
    ++ fractionText ((t % nanosPerSecond).toNat) ++ "+05:30"

/-- `2026-08-13 17:30 IST` -/
def formatIstList (t : DateTime) : String := t.toIst.dayText ++ " " ++ t.toIst.clockText ++ " IST"

/-- `08-13 17:30 IST` -/
def formatIstCompact (t : DateTime) : String :=
  let (_, m, d) := civil (t.toIst / nanosPerDay)
  padded 2 m ++ "-" ++ padded 2 d ++ " " ++ t.toIst.clockText ++ " IST"

end DateTime

end AiManager.Lib
