import TransparentCa.Throwable

/- `java.time` at nanosecond resolution: an instant is a number of nanoseconds since the
   epoch inside the range of `Instant`, a duration any number of nanoseconds. -/
namespace Java

def instantMin : Int := -31557014167219200 * 10^9
def instantMax : Int := 31556889864403199 * 10^9 + 999999999

abbrev Instant := { n : Int // instantMin ≤ n ∧ n ≤ instantMax }

instance (t t' : Instant) : Decidable (t < t') := inferInstanceAs (Decidable (t.val < t'.val))

instance (t t' : Instant) : Decidable (t ≤ t') := inferInstanceAs (Decidable (t.val ≤ t'.val))

abbrev Duration := Int

def nanosPerSecond : Int := 10^9

/-- Whether a number of seconds fits Java's `long`. -/
def fitsLong (seconds : Int) : Bool := -2^63 ≤ seconds && seconds < 2^63

/-- `t.plus(d)`: `ArithmeticException` when the seconds overflow a `long`,
`DateTimeException` when the sum is no instant. -/
def Instant.plus (t : Instant) (d : Duration) : Except Throwable Instant :=
  if h : instantMin ≤ t.val + d ∧ t.val + d ≤ instantMax then .ok ⟨t.val + d, h⟩
  else if fitsLong (t.val / nanosPerSecond + d / nanosPerSecond) then
    .error { cls := .dateTimeException, message := u "Instant exceeds minimum or maximum instant" }
  else .error { cls := .arithmeticException, message := u "long overflow" }

/-- `Duration.ofSeconds(seconds, nanos)`. -/
def Duration.ofSeconds (seconds nanos : Int) : Except Throwable Duration :=
  if fitsLong (seconds + nanos / nanosPerSecond) then .ok (seconds * nanosPerSecond + nanos)
  else .error { cls := .arithmeticException, message := u "long overflow" }

/-- `t.toEpochMilli()`: the millisecond `t` lies in, counted from the epoch. -/
def Instant.toEpochMilli (t : Instant) : Except Throwable Int :=
  if fitsLong (t.val / 10^6) then .ok (t.val / 10^6)
  else .error { cls := .arithmeticException, message := u "long overflow" }

/-- `Date.from(t)`, as its milliseconds. -/
def Date.from (t : Instant) : Except Throwable Int :=
  tryCatch t.toEpochMilli (fun _ => .error
    { cls := .illegalArgumentException,
      message := u "java.lang.ArithmeticException: long overflow" })

/-- `Instant.ofEpochSecond(seconds)`. -/
def Instant.ofEpochSecond (seconds : Int64) : Except Throwable Instant :=
  if h : instantMin ≤ seconds.toInt * nanosPerSecond ∧
      seconds.toInt * nanosPerSecond ≤ instantMax then .ok ⟨seconds.toInt * nanosPerSecond, h⟩
  else .error { cls := .dateTimeException, message := u "Instant exceeds minimum or maximum instant" }

/-- `Instant.ofEpochMilli(millis)`: every `long` is in range. -/
def Instant.ofEpochMilli (millis : Int64) : Instant :=
  ⟨millis.toInt * 10^6, by
    have hmin := millis.le_toInt
    have hmax := millis.toInt_lt
    unfold instantMin instantMax
    omega⟩

/-- The decimal digits of `n`, with zeros in front up to `width`. -/
def padded (width n : Nat) : JString :=
  List.replicate (width - (natToString n).length) (ch '0') ++ natToString n

/-- Year, month and day of a day counted from the epoch. The year begins in March, so that the
leap day is the last one, and years are counted in the 146097 days of four centuries. -/
def civilDate (epochDay : Int) : Int × Nat × Nat :=
  let z := epochDay + 719468
  let era := z / 146097
  let dayOfEra := (z % 146097).toNat
  let yearOfEra := (dayOfEra - dayOfEra / 1460 + dayOfEra / 36524 - dayOfEra / 146096) / 365
  let dayOfYear := dayOfEra - (365 * yearOfEra + yearOfEra / 4 - yearOfEra / 100)
  let month := (5 * dayOfYear + 2) / 153
  let day := dayOfYear - (153 * month + 2) / 5 + 1
  let year : Int := yearOfEra + era * 400
  if month < 10 then (year, month + 3, day) else (year + 1, month - 9, day)

/-- `t.toString()`, for a whole second of the years 0 to 9999. -/
def Instant.toString (t : Instant) : JString :=
  let second := t.val / nanosPerSecond
  let (year, month, day) := civilDate (second / 86400)
  let time := (second % 86400).toNat
  padded 4 year.toNat ++ u "-" ++ padded 2 month ++ u "-" ++ padded 2 day ++ u "T" ++
    padded 2 (time / 3600) ++ u ":" ++ padded 2 (time / 60 % 60) ++ u ":" ++
    padded 2 (time % 60) ++ u "Z"

theorem Instant.plus_ok {t t' : Instant} {d : Duration} (h : t.plus d = .ok t') :
    t'.val = t.val + d := by
  unfold Instant.plus at h
  split at h
  · simp only [Except.ok.injEq] at h
    rw [← h]
  · split at h <;> simp at h

end Java
