import Cohort.Proofs.Instant.Parts
import Cohort.Proofs.Instant.Regular
set_option relaxedAutoImplicit false
set_option autoImplicit false

/-!
# Reading written instants

A regular instant is written as a date and a time of day in universal time, and both are found again
when the text is read. As a timestamp a written instant is read in every year. As an attribute it is
read in the years that four digits hold, and not in the others, which are written with a sign. Both
forms list the same parts in the same order; they differ in how they read a part.

## Main definitions

* `Cohort.Instant.Form` — how the parts of an instant are read.
* `Cohort.Instant.wholeSeconds` — an instant cut to whole seconds.

## Main results

* `Cohort.Instant.Form.read?_write`, `Cohort.Instant.Form.regular_of_read?` — what a form reads.
* `Cohort.Instant.ofTimestamp?_write` — a written instant as a timestamp.
* `Cohort.Instant.ofText?_write`, `Cohort.Instant.ofText?_writeSeconds` — a written instant as an
  attribute.
* `Cohort.Instant.regular_of_ofTimestamp?`, `Cohort.Instant.regular_of_ofText?` — instants that are
  read are regular.
-/

namespace Cohort.Instant

/-! ### Written instants -/

/-- The parts of a written instant. -/
lemma toList_write (t : Instant) : t.write.toList =
    (writeYear t.localTime.date.year).toList ++ '-' ::
      ((padded 2 t.localTime.date.month).toList ++ '-' ::
        ((padded 2 t.localTime.date.day).toList ++ 'T' ::
          ((padded 2 t.localTime.hour).toList ++ ':' ::
            ((padded 2 t.localTime.minute).toList ++ ':' ::
              ((padded 2 t.localTime.second).toList ++ (t.writeFraction.toList ++ ['Z'])))))) := by
  have hdash : "-".toList = ['-'] := rfl
  have hcolon : ":".toList = [':'] := rfl
  have hmark : "T".toList = ['T'] := rfl
  have hzone : "Z".toList = ['Z'] := rfl
  simp only [write, writeDate, writeTime, localTime, String.toList_append, List.append_assoc,
    hdash, hcolon, hmark, hzone, List.cons_append, List.nil_append]

/-! ### Forms -/

/-- How the parts of an instant are read. -/
structure Form (γ : Type) where
  /-- The year. -/
  year? : List Char → Option (γ × List Char)
  /-- The number that a year is. -/
  yearOf : γ → Int
  /-- A number of two digits. -/
  pair? : List Char → Option (Nat × List Char)
  /-- A mark between two parts. -/
  mark? : Char → List Char → Option (List Char)
  /-- The zone. -/
  zone? : List Char → Option (Int × List Char)
  /-- Whether nothing is left. -/
  isOver : List Char → Bool

namespace Form

variable {γ : Type} (form : Form γ)

/-- The instant of a text. -/
def read? (cs : List Char) : Option Instant := do
  let (year, cs) ← form.year? cs
  let (month, cs) ← form.pair? (← form.mark? '-' cs)
  let (day, cs) ← form.pair? (← form.mark? '-' cs)
  let (hour, cs) ← form.pair? (← skipSeparator? cs)
  let (minute, cs) ← form.pair? (← form.mark? ':' cs)
  let (second, cs) ← form.pair? (← form.mark? ':' cs)
  let (nanos, cs) ← readFraction? cs
  let (offset, cs) ← form.zone? cs
  guard (form.isOver cs)
  LocalTime.toInstant? ⟨⟨form.yearOf year, month, day⟩, hour, minute, second, nanos, offset⟩

/-- A form that reads the parts as they are written. -/
structure IsSuitable : Prop where
  /-- Numbers of two digits are read. -/
  pair {n : Nat} {c : Char} {rest : List Char} (h : n < 100) (hc : c.isDigit = false) :
    form.pair? ((padded 2 n).toList ++ c :: rest) = some (n, c :: rest)
  /-- Hyphens are skipped. -/
  hyphen (rest : List Char) : form.mark? '-' ('-' :: rest) = some rest
  /-- Colons are skipped. -/
  colon (rest : List Char) : form.mark? ':' (':' :: rest) = some rest
  /-- Universal time is read. -/
  zone : form.zone? ['Z'] = some (0, [])
  /-- A text without characters is over. -/
  isOver : form.isOver [] = true
  /-- Zones are ahead by whole minutes. -/
  offset {cs rest : List Char} {offset : Int} (h : form.zone? cs = some (offset, rest)) :
    offset % 60 = 0

variable {form}

/-- A part that is read, and then the rest. -/
lemma bind_eq_some_of_eq_some {α β : Type} {part : Option α} {rest : α → Option β} {a : α} {b : β}
    (hpart : part = some a) (hrest : rest a = some b) : (part >>= rest) = some b := by
  rw [hpart]
  exact hrest

/-- A regular instant is found again in its text if its year is.

**Proof sketch.** The parts are read in the order in which they are written, and each ends where the
next one starts. Together they are the local time of the instant. -/
theorem read?_write (hform : form.IsSuitable) {t : Instant} (ht : t.Regular) {year : γ}
    (hyear : ∀ rest, form.year? ((writeYear t.localTime.date.year).toList ++ '-' :: rest) =
      some (year, '-' :: rest))
    (hvalue : form.yearOf year = t.localTime.date.year) : form.read? t.write.toList = some t := by
  obtain ⟨hmonth, hday, hhour, hminute, hsecond⟩ := t.localTime_lt
  obtain ⟨c, rest, hfraction, hc⟩ := t.exists_writeFraction
  have hnanos := t.readFraction?_writeFraction
  have hinstant : LocalTime.toInstant? { t.localTime with
      date := { t.localTime.date with year := form.yearOf year } } = some t := by
    rw [hvalue]
    exact toInstant?_localTime ht
  have hover : guard (form.isOver []) = some () := if_pos hform.isOver
  rw [hfraction] at hnanos
  rw [toList_write, hfraction]
  exact bind_eq_some_of_eq_some (hyear _) <|
    bind_eq_some_of_eq_some (hform.hyphen _) <| bind_eq_some_of_eq_some (hform.pair hmonth rfl) <|
    bind_eq_some_of_eq_some (hform.hyphen _) <| bind_eq_some_of_eq_some (hform.pair hday rfl) <|
    bind_eq_some_of_eq_some rfl <| bind_eq_some_of_eq_some (hform.pair hhour rfl) <|
    bind_eq_some_of_eq_some (hform.colon _) <| bind_eq_some_of_eq_some (hform.pair hminute rfl) <|
    bind_eq_some_of_eq_some (hform.colon _) <| bind_eq_some_of_eq_some (hform.pair hsecond hc) <|
    bind_eq_some_of_eq_some hnanos <| bind_eq_some_of_eq_some hform.zone <|
    bind_eq_some_of_eq_some hover hinstant

/-- An instant that is read is regular.

**Proof sketch.** Whatever the parts are, the fraction is less than a second and the zone is ahead
by whole minutes. -/
theorem regular_of_read? (hform : form.IsSuitable) {cs : List Char} {t : Instant}
    (h : form.read? cs = some t) : t.Regular := by
  obtain ⟨⟨year, _⟩, -, h⟩ := Option.bind_eq_some_iff.1 h
  obtain ⟨_, -, h⟩ := Option.bind_eq_some_iff.1 h
  obtain ⟨⟨month, _⟩, -, h⟩ := Option.bind_eq_some_iff.1 h
  obtain ⟨_, -, h⟩ := Option.bind_eq_some_iff.1 h
  obtain ⟨⟨day, _⟩, -, h⟩ := Option.bind_eq_some_iff.1 h
  obtain ⟨_, -, h⟩ := Option.bind_eq_some_iff.1 h
  obtain ⟨⟨hour, _⟩, -, h⟩ := Option.bind_eq_some_iff.1 h
  obtain ⟨_, -, h⟩ := Option.bind_eq_some_iff.1 h
  obtain ⟨⟨minute, _⟩, -, h⟩ := Option.bind_eq_some_iff.1 h
  obtain ⟨_, -, h⟩ := Option.bind_eq_some_iff.1 h
  obtain ⟨⟨second, _⟩, -, h⟩ := Option.bind_eq_some_iff.1 h
  obtain ⟨⟨nanos, _⟩, hnanos, h⟩ := Option.bind_eq_some_iff.1 h
  obtain ⟨⟨offset, _⟩, hoffset, h⟩ := Option.bind_eq_some_iff.1 h
  obtain ⟨-, -, h⟩ := Option.bind_eq_some_iff.1 h
  exact LocalTime.regular_of_toInstant? h (nanos_lt_of_readFraction? hnanos) (hform.offset hoffset)

/-- The form of timestamps. -/
def loose : Form Int :=
  ⟨readYear?, id, readPair?, skipMark?, fun cs => readLooseOffset? (Text.trimLeft cs),
    fun cs => (Text.trimLeft cs).isEmpty⟩

/-- The form of RFC 3339. -/
def strict : Form Nat :=
  ⟨readDigits? 4 4, Nat.cast, readDigits? 2 2, skipChar?, readOffset? (skipChar? ':'),
    List.isEmpty⟩

/-- A timestamp is read in the form of timestamps. -/
lemma readLoose?_eq (cs : List Char) : readLoose? cs = loose.read? cs := rfl

/-- An attribute is read in the form of RFC 3339. -/
lemma readStrict?_eq (cs : List Char) : readStrict? cs = strict.read? cs := rfl

/-- The form of timestamps reads what is written.

**Proof sketch.** Two digits, the marks between them and the zone are read behind blanks, of which
there are none. -/
lemma isSuitable_loose : loose.IsSuitable where
  pair h hc := by
    dsimp only [loose]
    exact readPair?_two h hc
  hyphen _ := skipMark?_cons (c := '-') rfl
  colon _ := skipMark?_cons (c := ':') rfl
  zone := rfl
  isOver := rfl
  offset {cs rest offset} h := by
    change readLooseOffset? (Text.trimLeft cs) = some (offset, rest) at h
    unfold readLooseOffset? at h
    split at h
    case isTrue =>
      obtain ⟨rfl, -⟩ := Prod.mk.inj (Option.some.inj h)
      rfl
    case isFalse => exact offset_of_readOffset? h

/-- The form of RFC 3339 reads what is written. -/
lemma isSuitable_strict : strict.IsSuitable where
  pair h hc := by
    dsimp only [strict]
    exact readDigits?_two h hc
  hyphen _ := rfl
  colon _ := rfl
  zone := rfl
  isOver := rfl
  offset h := offset_of_readOffset? h

end Form

/-! ### Timestamps -/

/-- A regular instant is found again in its text. -/
theorem ofTimestamp?_write {t : Instant} (h : t.Regular) : ofTimestamp? t.write = some t := by
  rw [ofTimestamp?, Form.readLoose?_eq]
  refine Form.read?_write Form.isSuitable_loose h (fun rest => ?_) rfl
  dsimp only [Form.loose]
  exact readYear?_writeYear rfl

/-- Every timestamp is a regular instant. -/
theorem regular_of_ofTimestamp? {s : String} {t : Instant} (h : ofTimestamp? s = some t) :
    t.Regular :=
  Form.regular_of_read? Form.isSuitable_loose h

/-! ### Attributes -/

/-- The instants in the years that four digits hold. -/
def InFourDigits (t : Instant) : Prop :=
  0 ≤ t.date.year ∧ t.date.year ≤ 9999

/-- Whether the year of an instant has four digits can be decided. -/
instance (t : Instant) : Decidable t.InFourDigits :=
  inferInstanceAs (Decidable (0 ≤ t.date.year ∧ t.date.year ≤ 9999))

/-- No blanks stand in front of a year. -/
lemma exists_writeYear (year : Int) :
    ∃ c cs, (writeYear year).toList = c :: cs ∧ Text.isBlank c = false := by
  by_cases h : 0 ≤ year ∧ year ≤ 9999
  · obtain ⟨d, ds, hds, hd⟩ := exists_toList_padded (by decide : 0 < 4) year.toNat
    exact ⟨d, ds, by rw [writeYear_unsigned h, hds], isBlank_eq_false_of_isDigit hd⟩
  · refine ⟨_, _, writeYear_signed h, ?_⟩
    split <;> rfl

/-- No blanks stand around a written instant.

**Proof sketch.** The text starts with a digit or a sign and ends with the letter for the zone. -/
lemma trimBoth_write (t : Instant) : Text.trimBoth t.write.toList = t.write.toList := by
  obtain ⟨c, cs, hyear, hc⟩ := exists_writeYear t.date.year
  have hends : ∃ middle, t.write.toList = c :: middle ++ ['Z'] := by
    refine ⟨cs ++ ("-" ++ padded 2 t.date.month ++ "-" ++ padded 2 t.date.day ++ "T" ++
      t.writeTime ++ t.writeFraction).toList, ?_⟩
    simp only [write, writeDate, String.toList_append, hyear, List.cons_append, List.append_assoc]
    rfl
  obtain ⟨middle, hends⟩ := hends
  have hfront : Text.trimLeft (c :: middle ++ ['Z']) = c :: middle ++ ['Z'] := trimLeft_cons hc
  have hback : Text.trimLeft (c :: middle ++ ['Z']).reverse = (c :: middle ++ ['Z']).reverse := by
    rw [List.reverse_append]
    exact trimLeft_cons rfl
  rw [hends, Text.trimBoth, hfront, hback, List.reverse_reverse]

/-- In the years that four digits hold a written instant has the form of RFC 3339.

**Proof sketch.** The year has four digits then and no sign, so they are read as the year
(`Form.read?_write`). -/
lemma readStrict?_write {t : Instant} (h : t.Regular) (hyear : t.InFourDigits) :
    readStrict? t.write.toList = some t := by
  have hrange : 0 ≤ t.localTime.date.year ∧ t.localTime.date.year ≤ 9999 := hyear
  have hfour : max 4 (Nat.toDigits 10 t.localTime.date.year.toNat).length = 4 :=
    length_four (by omega)
  rw [Form.readStrict?_eq]
  refine Form.read?_write Form.isSuitable_strict h (fun rest => ?_) (Int.toNat_of_nonneg hrange.1)
  dsimp only [Form.strict]
  rw [writeYear_unsigned hrange]
  exact readDigits?_padded (Nat.le_of_eq hfour.symm) (Nat.le_of_eq hfour) rfl

/-- In other years it has not, since the year has a sign. -/
lemma readStrict?_write_eq_none {t : Instant} (hyear : ¬ t.InFourDigits) :
    readStrict? t.write.toList = none := by
  have hsign : (if t.date.year < 0 then '-' else '+').isDigit = false := by split <;> rfl
  have htext : ∃ rest, t.write.toList = (if t.date.year < 0 then '-' else '+') :: rest := by
    rw [toList_write]
    exact ⟨_, by rw [localTime, writeYear_signed hyear, List.cons_append]⟩
  obtain ⟨rest, hrest⟩ := htext
  rw [readStrict?, hrest, readDigits?_eq_none (by decide) hsign]
  rfl

/-- A written instant is no plain date, as it goes on after the day. -/
lemma readDate?_write (t : Instant) : readDate? t.write.toList = none := by
  obtain ⟨hmonth, hday, -⟩ := t.localTime_lt
  have hdash : ∀ cs, skipChar? '-' ('-' :: cs) = some cs := fun _ => rfl
  rw [toList_write, readDate?]
  simp only [readYear?_writeYear (c := '-') rfl, hdash, readPair?_two (c := '-') hmonth rfl,
    readPair?_two (c := 'T') hday rfl, guard, List.isEmpty_cons, Bool.false_eq_true, if_false,
    Option.bind_eq_bind, Option.bind_some]
  rfl

/-- As an attribute a regular instant is found again in its text if its year has no sign there. -/
theorem ofText?_write {t : Instant} (h : t.Regular) :
    ofText? t.write = if t.InFourDigits then some t else none := by
  simp only [ofText?, trimBoth_write, readDate?_write, Option.or_none]
  split
  case isTrue hyear => exact readStrict?_write h hyear
  case isFalse hyear => exact readStrict?_write_eq_none hyear

/-- An instant cut to whole seconds. A leap second stays one. -/
def wholeSeconds (t : Instant) : Instant where
  seconds := t.seconds
  nanos := if t.isLeapSecond then nanosPerSecond else 0
  seconds_range := t.seconds_range
  nanos_lt := by split <;> decide

/-- An instant that is cut to whole seconds is a leap second if it was one. -/
lemma isLeapSecond_wholeSeconds (t : Instant) : t.wholeSeconds.isLeapSecond = t.isLeapSecond := by
  have hnanos : t.wholeSeconds.nanos = if t.isLeapSecond then nanosPerSecond else 0 := rfl
  rw [isLeapSecond, hnanos]
  cases t.isLeapSecond <;> rfl

/-- Cutting an instant to whole seconds drops the fraction of its text.

**Proof sketch.** The fraction of whole seconds is not written, and the date and the time are the
same. -/
lemma write_wholeSeconds (t : Instant) : t.wholeSeconds.write = t.writeSeconds := by
  have hfraction : t.wholeSeconds.writeFraction = "" := by
    have hnanos : t.wholeSeconds.nanos % nanosPerSecond = 0 := by
      simp only [wholeSeconds]
      split <;> rfl
    simp only [writeFraction, hnanos, if_true]
  have htime : t.wholeSeconds.writeTime = t.writeTime := by
    simp only [writeTime, isLeapSecond_wholeSeconds]
    rfl
  have hdate : t.wholeSeconds.date = t.date := rfl
  rw [write, writeSeconds, hfraction, htime, hdate, String.append_empty]

/-- An instant that is cut to whole seconds stays regular. -/
lemma Regular.wholeSeconds {t : Instant} (h : t.Regular) : t.wholeSeconds.Regular := fun hleap =>
  h (t.isLeapSecond_wholeSeconds ▸ hleap)

/-- What is found again in the text of an instant that is cut to whole seconds. -/
theorem ofText?_writeSeconds {t : Instant} (h : t.Regular) :
    ofText? t.writeSeconds = if t.InFourDigits then some t.wholeSeconds else none := by
  rw [← write_wholeSeconds, ofText?_write h.wholeSeconds]
  rfl

/-- Every instant that an attribute holds as a text is regular. -/
theorem regular_of_ofText? {s : String} {t : Instant} (h : ofText? s = some t) : t.Regular := by
  rcases Option.or_eq_some_iff.1 h with h | ⟨-, h⟩
  · exact Form.regular_of_read? Form.isSuitable_strict h
  · simp only [readDate?, Option.bind_eq_bind, Option.bind_eq_some_iff] at h
    obtain ⟨⟨year, _⟩, -, _, -, ⟨month, _⟩, -, _, -, ⟨day, _⟩, -, -, -, h⟩ := h
    exact regular_of_ofDate? h

end Cohort.Instant
