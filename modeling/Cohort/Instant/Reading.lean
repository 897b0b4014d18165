import Cohort.Decimal.Reading
import Cohort.Instant.Basic
import Cohort.Text.Blank
set_option autoImplicit false

/-!
# Reading instants

Attributes hold instants in the form of RFC 3339 or as plain dates, which mean the start of the
day. Timestamps of events and timeframes are read from a looser form of RFC 3339: years may have a
sign, numbers fewer digits and blanks in front, and the colon of the zone is optional.

## Main definitions

* `Cohort.Instant.LocalTime` — a date and a time of day in a zone.
* `Cohort.Instant.readStrict?` — the form of RFC 3339.
* `Cohort.Instant.readDate?` — a plain date.
* `Cohort.Instant.readLoose?` — the form of timestamps.
* `Cohort.Instant.ofText?` — an instant in an attribute.
-/

namespace Cohort.Instant

/-- A date and a time of day in a zone. -/
structure LocalTime where
  /-- The date. -/
  date : Date
  /-- The hour of the day. -/
  hour : Nat
  /-- The minute of the hour. -/
  minute : Nat
  /-- The second of the minute; 60 in a leap second. -/
  second : Nat
  /-- The nanoseconds of the second. -/
  nanos : Nat
  /-- The seconds by which the zone is ahead of universal time. -/
  offset : Int

/-- The instant of a local time. The date has to lie in the years of instants in its own zone
too. -/
def LocalTime.toInstant? (t : LocalTime) : Option Instant := do
  let midnight ← ofDate? t.date
  guard (t.hour ≤ 23 && t.minute ≤ 59 && t.second ≤ 60 && t.offset.natAbs < secondsPerDay)
  let leap := if t.second = 60 then 1 else 0
  let second := 3600 * t.hour + 60 * t.minute + (t.second - leap)
  ofParts? (midnight.seconds + second - t.offset) (t.nanos + leap * nanosPerSecond)

/-! ### Parts -/

/-- A number of at least `least` and at most `most` digits at the front of a text. -/
def readDigits? (least most : Nat) (cs : List Char) : Option (Nat × List Char) :=
  let ds := (cs.take most).takeWhile Char.isDigit
  if ds.length < least then none else some (Decimal.ofDigits ds, cs.drop ds.length)

/-- The text after a character that has to stand at its front. -/
def skipChar? (c : Char) : List Char → Option (List Char)
  | d :: cs => if d == c then some cs else none
  | [] => none

/-- The text after the mark between date and time: a small or large T, or a space. -/
def skipSeparator? : List Char → Option (List Char)
  | c :: cs => if c == 'T' || c == 't' || c == ' ' then some cs else none
  | [] => none

/-- The nanoseconds of an optional fraction. Digits after the ninth are dropped. -/
def readFraction? : List Char → Option (Nat × List Char)
  | '.' :: cs =>
    let (ds, rest) := Decimal.splitDigits cs
    let kept := ds.take 9
    if ds.isEmpty then none
    else some (Decimal.ofDigits kept * Nat.pow 10 (9 - kept.length), rest)
  | cs => some (0, cs)

/-- The minus sign of a zone: the hyphen or the sign of its own. -/
def isMinus (c : Char) : Bool :=
  c == '-' || c == '\u2212'

/-- The offset of a zone in seconds: `Z`, or a sign, two digits of hours and two of minutes, with
what `skipColon?` accepts between them. -/
def readOffset? (skipColon? : List Char → Option (List Char)) :
    List Char → Option (Int × List Char)
  | c :: cs =>
    if c == 'Z' || c == 'z' then some (0, cs)
    else if c == '+' || isMinus c then do
      let (hours, cs) ← readDigits? 2 2 cs
      let cs ← skipColon? cs
      let (minutes, cs) ← readDigits? 2 2 cs
      guard (minutes ≤ 59)
      let seconds : Int := 3600 * hours + 60 * minutes
      return (if isMinus c then -seconds else seconds, cs)
    else none
  | [] => none

/-! ### Forms -/

/-- An instant in the form of RFC 3339: four digits of the year, two of all other parts. -/
def readStrict? (cs : List Char) : Option Instant := do
  let (year, cs) ← readDigits? 4 4 cs
  let (month, cs) ← readDigits? 2 2 (← skipChar? '-' cs)
  let (day, cs) ← readDigits? 2 2 (← skipChar? '-' cs)
  let (hour, cs) ← readDigits? 2 2 (← skipSeparator? cs)
  let (minute, cs) ← readDigits? 2 2 (← skipChar? ':' cs)
  let (second, cs) ← readDigits? 2 2 (← skipChar? ':' cs)
  let (nanos, cs) ← readFraction? cs
  let (offset, cs) ← readOffset? (skipChar? ':') cs
  guard cs.isEmpty
  LocalTime.toInstant? ⟨⟨year, month, day⟩, hour, minute, second, nanos, offset⟩

/-- A year after optional blanks: up to four digits, or a sign and any number of digits. -/
def readYear? (cs : List Char) : Option (Int × List Char) :=
  match Text.trimLeft cs with
  | '-' :: cs => (readDigits? 1 cs.length cs).map fun (n, cs) => (-n, cs)
  | '+' :: cs => (readDigits? 1 cs.length cs).map fun (n, cs) => (n, cs)
  | cs => (readDigits? 1 4 cs).map fun (n, cs) => (n, cs)

/-- One or two digits after optional blanks. -/
def readPair? (cs : List Char) : Option (Nat × List Char) :=
  readDigits? 1 2 (Text.trimLeft cs)

/-- A plain date, which means the start of the day in universal time. -/
def readDate? (cs : List Char) : Option Instant := do
  let (year, cs) ← readYear? cs
  let (month, cs) ← readPair? (← skipChar? '-' cs)
  let (day, cs) ← readPair? (← skipChar? '-' cs)
  guard cs.isEmpty
  ofDate? ⟨year, month, day⟩

/-- A mark after optional blanks. -/
def skipMark? (c : Char) (cs : List Char) : Option (List Char) :=
  skipChar? c (Text.trimLeft cs)

/-- The zone of a timestamp: also the word `UTC` in any case, and any colons and blanks, or none,
between hours and minutes. -/
def readLooseOffset? (cs : List Char) : Option (Int × List Char) :=
  if (cs.take 3).map Char.toUpper = ['U', 'T', 'C'] then some (0, cs.drop 3)
  else readOffset? (fun cs => some (cs.dropWhile fun c => c == ':' || Text.isBlank c)) cs

/-- An instant in the form of timestamps. -/
def readLoose? (cs : List Char) : Option Instant := do
  let (year, cs) ← readYear? cs
  let (month, cs) ← readPair? (← skipMark? '-' cs)
  let (day, cs) ← readPair? (← skipMark? '-' cs)
  let (hour, cs) ← readPair? (← skipSeparator? cs)
  let (minute, cs) ← readPair? (← skipMark? ':' cs)
  let (second, cs) ← readPair? (← skipMark? ':' cs)
  let (nanos, cs) ← readFraction? cs
  let (offset, cs) ← readLooseOffset? (Text.trimLeft cs)
  guard (Text.trimLeft cs).isEmpty
  LocalTime.toInstant? ⟨⟨year, month, day⟩, hour, minute, second, nanos, offset⟩

/-- An instant in an attribute: the form of RFC 3339 or a plain date, with blanks around it. -/
def ofText? (s : String) : Option Instant :=
  let cs := Text.trimBoth s.toList
  (readStrict? cs).or (readDate? cs)

/-- A timestamp. -/
def ofTimestamp? (s : String) : Option Instant :=
  readLoose? s.toList

end Cohort.Instant
