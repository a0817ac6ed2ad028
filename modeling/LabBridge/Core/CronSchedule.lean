import LabBridge.Library.ByteText
import LabBridge.Library.CivilTime

/-!
# Cron schedules

A schedule accepts values in each of five fields of a UTC minute. The next accepted minute is
searched for eight years from the minute behind a time. Times are nanoseconds from the epoch on
a clock of 64 bits: sums that overflow wrap around. Durations are rounded towards zero, as the
conversions of the source do.
-/

namespace LabBridge.Core

open ByteText CivilTime

/-- A point of the system clock in nanoseconds. -/
abbrev SystemTime := ℤ

/-- The count that a sum comes to on the clock, which has 64 bits. -/
def wrapped (count : ℤ) : ℤ := (count + 2 ^ 63) % 2 ^ 64 - 2 ^ 63

/-- A count that the clock can show. -/
def OnClock (time : ℤ) : Prop := -2 ^ 63 ≤ time ∧ time < 2 ^ 63

instance (time : ℤ) : Decidable (OnClock time) := inferInstanceAs (Decidable (_ ∧ _))

/-- What wraps is on the clock. -/
theorem onClock_wrapped (count : ℤ) : OnClock (wrapped count) := by
  unfold OnClock wrapped
  omega

/-- A count on the clock stays as it is. -/
theorem wrapped_eq_self {count : ℤ} (h : OnClock count) : wrapped count = count := by
  unfold OnClock at h
  unfold wrapped
  omega

/-- A count behind the end of the clock starts again at its beginning. -/
theorem wrapped_of_overflow {count : ℤ} (hlow : 2 ^ 63 ≤ count) (hhigh : count < 2 ^ 63 + 2 ^ 64) :
    wrapped count = count - 2 ^ 64 := by
  unfold wrapped
  omega

/-- A positive count does not grow when it wraps. -/
theorem wrapped_le {count : ℤ} (h : 0 ≤ count) : wrapped count ≤ count := by
  unfold wrapped
  omega

/-- A count that was wrapped on the way wraps to the same. -/
theorem wrapped_add (count more : ℤ) : wrapped (wrapped count + more) = wrapped (count + more) := by
  unfold wrapped
  omega

/-- The nanoseconds of a second. -/
def nanosecondsPerSecond : ℤ := 1000000000

/-- The nanoseconds of a minute. -/
def nanosecondsPerMinute : ℤ := 60000000000

/-- The fields of a UTC time that a schedule looks at, in the order of an expression. -/
def utcParts (time : SystemTime) : List ℤ :=
  let seconds := time.tdiv nanosecondsPerSecond
  let days := seconds / 86400
  let date := civilFromDays days
  [seconds % 3600 / 60, seconds % 86400 / 3600, date.day, date.month, weekday days]

/-- The least value, the greatest value and the name of each field. -/
def cronFields : List (ℕ × ℕ × Bytes) :=
  [(0, 59, text "minute"), (0, 23, text "hour"), (1, 31, text "day-of-month"),
    (1, 12, text "month"), (0, 6, text "day-of-week")]

/-- A schedule: the accepted values of each field. -/
structure CronSchedule where
  accepted : List (List ℕ)
  deriving DecidableEq

/-- White space of the C locale. -/
def isSpaceByte (b : UInt8) : Bool := b == 32 || (9 ≤ b && b ≤ 13)

/-- The parts of an expression between white space. -/
def splitFields : Bytes → Bytes → List Bytes
  | current, [] => if current.isEmpty then [] else [current]
  | current, b :: rest =>
    if isSpaceByte b then
      if current.isEmpty then splitFields [] rest else current :: splitFields [] rest
    else splitFields (current ++ [b]) rest

/-- A decimal number, which may not grow too large on the way. -/
def parseDecimal (value fieldName : Bytes) : Except Bytes ℕ :=
  if value.isEmpty ∨ ¬value.all fun b => IsDigit b then
    .error (text "cron " ++ fieldName ++ text " must be '*', '*/N', or an integer")
  else
    value.foldlM (fun result b =>
      if 1000 < result then .error (text "cron " ++ fieldName ++ text " is out of range")
      else .ok (result * 10 + (b.toNat - 48))) 0

/-- The values from one on in steps, up to another one. -/
def steppedValues (minimum maximum step : ℕ) : List ℕ :=
  (List.range (maximum + 1)).filter fun value => minimum ≤ value ∧ (value - minimum) % step = 0

/-- The accepted values of one field. -/
def parseField (field : ℕ × ℕ × Bytes) (value : Bytes) : Except Bytes (List ℕ) :=
  let minimum := field.1
  let maximum := field.2.1
  let name := field.2.2
  if value = text "*" then .ok (steppedValues minimum maximum 1)
  else if 2 < value.length ∧ value.take 2 = text "*/" then do
    let step ← parseDecimal (value.drop 2) name
    if step = 0 ∨ maximum - minimum + 1 < step then
      throw (text "cron " ++ name ++ text " step is out of range")
    pure (steppedValues minimum maximum step)
  else do
    let accepted ← parseDecimal value name
    if accepted < minimum ∨ maximum < accepted then
      throw (text "cron " ++ name ++ text " is out of range")
    pure [accepted]

namespace CronSchedule

/-- `CronSchedule::parse`; the error is the text of the exception. -/
def parse (expression : Bytes) : Except Bytes CronSchedule := do
  let values := splitFields [] expression
  if values.length ≠ 5 then
    throw (text "cron expression must contain exactly five fields")
  let accepted ← (cronFields.zip values).mapM fun field => parseField field.1 field.2
  pure ⟨accepted⟩

variable (schedule : CronSchedule)

/-- `CronSchedule::matches`. -/
def accepts (time : SystemTime) : Bool :=
  (schedule.accepted.zip (utcParts time)).all fun field => field.1.any fun value =>
    (value : ℤ) == field.2

/-- `next_minute`: the minute behind a time. -/
def nextMinute (time : ℤ) : ℤ :=
  let elapsed := time.tdiv nanosecondsPerSecond
  let minute := if 0 ≤ elapsed then elapsed.tdiv 60 else (elapsed - 59).tdiv 60
  wrapped ((minute + 1) * nanosecondsPerMinute)

/-- The minutes that are searched. -/
def searchLimit : ℕ := 8 * 366 * 24 * 60

/-- The last candidate of a search behind a time. -/
def searchEnd (time : ℤ) : ℤ :=
  wrapped (nextMinute time + searchLimit * nanosecondsPerMinute)

/-- The first accepted candidate from one on, up to the end of a search. -/
def searchFrom (stop : ℤ) : ℕ → ℤ → Option ℤ
  | 0, _ => none
  | fuel + 1, candidate =>
    if candidate ≤ stop then
      if schedule.accepts candidate then some candidate
      else searchFrom stop fuel (wrapped (candidate + nanosecondsPerMinute))
    else none

/-- More candidates than any search looks at: where the last one is the last whole minute of the
clock, the search goes on from its beginning, five times at most. -/
def searchFuel : ℕ := 2 ^ 31

/-- `CronSchedule::next_after`. -/
def nextAfter (time : ℤ) : Option ℤ :=
  schedule.searchFrom (searchEnd time) searchFuel (nextMinute time)

end CronSchedule

example : (CronSchedule.parse (text " */20 3 * *\t0 ")).toOption.map CronSchedule.accepted =
    some [[0, 20, 40], [3], List.range' 1 31, List.range' 1 12, [0]] := by decide +kernel

end LabBridge.Core
