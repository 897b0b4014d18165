import Mathlib.Algebra.BigOperators.Ring.List
import Cohort.Proofs.Decimal.Text
import Cohort.Report.Format
set_option relaxedAutoImplicit false
set_option autoImplicit false

/-!
# Groups of three digits

The digits before the point of a number are shown in groups with commas between them. The groups are
counted from the point, so that each of them has three digits but the first one, which has what is
left. Whether a comma follows a digit is decided by the number of digits behind it, while a reader
sees the groups from the front; so the groups are described by themselves, and what is written for
them is found group by group. The commas are all that is added. All numbers and amounts in a report
are shown so.

## Main definitions

* `Cohort.Report.InThousands` — groups of three digits, of which the first may be shorter.
* `Cohort.Report.Figure` — a number as digits, with or without a point.

## Main results

* `Cohort.Report.groupDigits_flatten` — groups are shown with commas between them.
* `Cohort.Report.exists_inThousands` — all digits can be put into groups.
* `Cohort.Report.three_dvd_of_groupDigits` — what follows a comma.
* `Cohort.Report.Figure.groupThousands_text` — a number in groups.
* `Cohort.Report.exists_figure_writeNumber?` — numbers and amounts in a report.
-/

namespace Cohort.Report

open Decimal

variable {cs ds group : List Char} {groups : List (List Char)} {c unwanted : Char}

/-! ### Digits -/

/-- A digit is no other character. -/
lemma ne_of_isDigit {d : Char} (hd : d.isDigit = true) (hc : c.isDigit = false) : d ≠ c := by
  rintro rfl
  rw [hd] at hc
  cases hc

/-- Among digits there is no other character. -/
lemma notMem_of_isDigit (hcs : ∀ c ∈ cs, c.isDigit = true) (hc : c.isDigit = false) : c ∉ cs :=
  fun hmem => ne_of_isDigit (hcs c hmem) hc rfl

/-! ### Groups -/

/-- Groups as they are counted from the end: each has three digits, but the first one may have
fewer. -/
structure InThousands (groups : List (List Char)) : Prop where
  /-- The first group has one, two or three digits. -/
  first : ∀ group ∈ groups.head?, 1 ≤ group.length ∧ group.length ≤ 3
  /-- The other groups have three. -/
  others : ∀ group ∈ groups.tail, group.length = 3

namespace InThousands

/-- Where there are no digits, there are no groups. -/
lemma nil : InThousands [] := ⟨nofun, nofun⟩

/-- A first group of one to three digits stands before groups of three. -/
lemma cons_iff : InThousands (group :: groups) ↔
    (1 ≤ group.length ∧ group.length ≤ 3) ∧ ∀ g ∈ groups, g.length = 3 :=
  ⟨fun h => ⟨h.first group rfl, h.others⟩, fun h => ⟨fun _ hg => Option.some.inj hg ▸ h.1, h.2⟩⟩

/-- Without the first group the next one is the first. -/
lemma tail (h : InThousands (group :: groups)) : InThousands groups := by
  obtain ⟨-, hthree⟩ := cons_iff.1 h
  cases groups with
  | nil => exact nil
  | cons g gs =>
    have hg := hthree g List.mem_cons_self
    exact cons_iff.2 ⟨by omega, fun g' hg' => hthree g' (List.mem_cons_of_mem _ hg')⟩

/-- Behind the first group there are as many digits as groups of three have. -/
lemma three_dvd_length (h : InThousands (group :: groups)) : 3 ∣ groups.flatten.length := by
  rw [List.length_flatten]
  apply List.dvd_sum
  intro n hn
  obtain ⟨g, hg, rfl⟩ := List.mem_map.1 hn
  rw [(cons_iff.1 h).2 g hg]

end InThousands

/-- All digits can be put into groups.

**Proof sketch.** Induction on the digits. The first digit joins the first group, or starts a new
one if that has three. -/
lemma exists_inThousands (cs : List Char) : ∃ groups, InThousands groups ∧ groups.flatten = cs := by
  induction cs with
  | nil => exact ⟨[], .nil, rfl⟩
  | cons c cs ih =>
    obtain ⟨groups, h, rfl⟩ := ih
    cases groups with
    | nil => exact ⟨[[c]], InThousands.cons_iff.2 (by simp), rfl⟩
    | cons g gs =>
      obtain ⟨⟨hleast, hmost⟩, hthree⟩ := InThousands.cons_iff.1 h
      by_cases hfull : g.length = 3
      · -- the first group is full, so the digit starts a new one
        refine ⟨[c] :: g :: gs, InThousands.cons_iff.2 ⟨by simp, ?_⟩, rfl⟩
        intro g' hg'
        rcases List.mem_cons.1 hg' with rfl | hg'
        · exact hfull
        · exact hthree g' hg'
      · refine ⟨(c :: g) :: gs, InThousands.cons_iff.2 ⟨?_, hthree⟩, rfl⟩
        rw [List.length_cons]
        omega

/-! ### Digits with commas -/

/-- A comma follows a digit if the digits behind it are groups of three. -/
lemma groupDigits_cons_of_dvd (hne : ds ≠ []) (h : 3 ∣ ds.length) (d : Char) :
    groupDigits (d :: ds) = d :: ',' :: groupDigits ds := by
  have hmod : ds.length % 3 = 0 := Nat.mod_eq_zero_of_dvd h
  rw [groupDigits]
  simp [hne, hmod]

/-- No comma follows a digit otherwise. -/
lemma groupDigits_cons_of_not_dvd (h : ¬ 3 ∣ ds.length) (d : Char) :
    groupDigits (d :: ds) = d :: groupDigits ds := by
  have hmod : ¬ ds.length % 3 = 0 := fun hmod => h (Nat.dvd_of_mod_eq_zero hmod)
  rw [groupDigits]
  simp [hmod]

/-- Up to three digits have no comma.

**Proof sketch.** By recursion on the digits. Behind the first one there are one or two, which is no
whole number of groups. -/
lemma groupDigits_of_length_le : ∀ {cs : List Char}, cs.length ≤ 3 → groupDigits cs = cs
  | [], _ => rfl
  | [_], _ => rfl
  | c :: d :: ds, h => by
    simp only [List.length_cons] at h
    have hdvd : ¬ 3 ∣ (d :: ds).length := by
      rw [List.length_cons]
      omega
    have hshort : (d :: ds).length ≤ 3 := by
      rw [List.length_cons]
      omega
    rw [groupDigits_cons_of_not_dvd hdvd, groupDigits_of_length_le hshort]

/-- A comma follows a group if there are other groups behind it.

**Proof sketch.** By recursion on the group. The comma comes behind its last digit, where a whole
number of groups follows. -/
lemma groupDigits_append (hne : ds ≠ []) (hds : 3 ∣ ds.length) :
    ∀ {group : List Char}, group ≠ [] → group.length ≤ 3 →
      groupDigits (group ++ ds) = group ++ ',' :: groupDigits ds
  | [], hgroup, _ => absurd rfl hgroup
  | [d], _, _ => groupDigits_cons_of_dvd hne hds d
  | d :: d' :: group, _, hlength => by
    simp only [List.length_cons] at hlength
    have hdvd : ¬ 3 ∣ (d' :: group ++ ds).length := by
      rw [List.length_append, List.length_cons]
      omega
    have hshort : (d' :: group).length ≤ 3 := by
      rw [List.length_cons]
      omega
    rw [List.cons_append, groupDigits_cons_of_not_dvd hdvd,
      groupDigits_append hne hds (List.cons_ne_nil _ _) hshort]
    rfl

/-- Groups are shown with commas between them.

**Proof sketch.** By induction on the groups. A comma stands behind the first group, since the
groups behind it have a multiple of three digits; inside the first group the number of digits behind
a digit is no such multiple. -/
lemma groupDigits_flatten (h : InThousands groups) :
    groupDigits groups.flatten = [','].intercalate groups := by
  induction groups with
  | nil => rfl
  | cons g gs ih =>
    obtain ⟨hleast, hmost⟩ := (InThousands.cons_iff.1 h).1
    have hne : g ≠ [] := List.ne_nil_of_length_pos hleast
    cases gs with
    | nil =>
      rw [List.flatten_singleton, List.intercalate_singleton, groupDigits_of_length_le hmost]
    | cons g' gs =>
      have hrest : (g' :: gs).flatten ≠ [] := by
        have hg' := (InThousands.cons_iff.1 h).2 g' List.mem_cons_self
        rw [List.flatten_cons]
        exact List.append_ne_nil_of_left_ne_nil (List.ne_nil_of_length_pos (by omega)) _
      rw [List.flatten_cons, groupDigits_append hrest h.three_dvd_length hne hmost, ih h.tail,
        List.intercalate_cons_cons, List.append_assoc, List.singleton_append]

/-- The commas are all that is added. -/
lemma filter_groupDigits {p : Char → Bool} (hp : p ',' = false) (cs : List Char) :
    (groupDigits cs).filter p = cs.filter p := by
  induction cs with
  | nil => rfl
  | cons c cs ih =>
    rw [groupDigits]
    split <;> simp [List.filter_cons, hp, ih]

/-- Grouping digits adds and removes nothing but commas. -/
lemma mem_groupDigits_iff (hc : c ≠ ',') : c ∈ groupDigits cs ↔ c ∈ cs := by
  have hfilter : c ∈ (groupDigits cs).filter (· ≠ ',') ↔ c ∈ cs.filter (· ≠ ',') := by
    rw [filter_groupDigits (by decide)]
  simpa [List.mem_filter, hc] using hfilter

/-- Grouping a figure adds and removes nothing but commas. -/
lemma mem_groupThousands_iff (hc : c ≠ ',') : c ∈ groupThousands cs ↔ c ∈ cs := by
  rw [groupThousands, List.mem_append, mem_groupDigits_iff hc, ← List.mem_append,
    List.takeWhile_append_dropWhile]

/-- As many digits follow a comma as groups of three have.

**Proof sketch.** By induction on the digits. A comma that stands behind the first digit was put
there because of the number of digits behind it, and the other commas stand behind the digits that
follow. -/
lemma three_dvd_of_groupDigits {front back : List Char} (hcs : ∀ c ∈ cs, c.isDigit = true)
    (h : groupDigits cs = front ++ ',' :: back) : 3 ∣ back.countP Char.isDigit := by
  induction cs generalizing front with
  | nil => simp [groupDigits] at h
  | cons c cs ih =>
    have hc : c ≠ ',' := ne_of_isDigit (hcs c List.mem_cons_self) (by decide)
    have hrest : ∀ d ∈ cs, d.isDigit = true := fun d hd => hcs d (List.mem_cons_of_mem _ hd)
    cases front with
    | nil =>
      rw [groupDigits] at h
      split at h <;> exact absurd (List.cons.inj h).1 hc
    | cons d front =>
      rw [groupDigits] at h
      split at h
      case isTrue hcomma =>
        obtain ⟨-, hfollows⟩ := List.cons.inj h
        cases front with
        | nil =>
          obtain ⟨-, rfl⟩ := List.cons.inj hfollows
          have hmod : cs.length % 3 = 0 := by
            simpa using (Bool.and_eq_true_iff.1 hcomma).2
          rw [List.countP_eq_length_filter, filter_groupDigits rfl,
            List.filter_eq_self.2 hrest]
          exact Nat.dvd_of_mod_eq_zero hmod
        | cons _ front => exact ih hrest (List.cons.inj hfollows).2
      case isFalse => exact ih hrest (List.cons.inj h).2

/-! ### Numbers -/

/-- A number without a sign, as digits before a point and behind it. There may be no point. -/
structure Figure where
  /-- The digits before the point. -/
  whole : List Char
  /-- The digits behind the point, if there is a point. -/
  fraction : Option (List Char)
  /-- There are only digits before the point. -/
  isDigit_whole : ∀ c ∈ whole, c.isDigit = true
  /-- There are only digits behind the point. -/
  isDigit_fraction : ∀ ds ∈ fraction, ∀ c ∈ ds, c.isDigit = true

namespace Figure

/-- The point with the digits behind it, if there is a point. -/
def ending (n : Figure) : List Char :=
  match n.fraction with
  | some ds => '.' :: ds
  | none => []

/-- A number as it is written without groups. -/
def text (n : Figure) : List Char :=
  n.whole ++ n.ending

/-- It consists of digits and a point. -/
lemma mem_text {n : Figure} (h : c ∈ n.text) : c.isDigit = true ∨ c = '.' := by
  rcases List.mem_append.1 h with h | h
  · exact .inl (n.isDigit_whole c h)
  · unfold ending at h
    cases hfraction : n.fraction with
    | none =>
      rw [hfraction] at h
      cases h
    | some ds =>
      rw [hfraction] at h
      rcases List.mem_cons.1 h with h | h
      · exact .inr h
      · exact .inl (n.isDigit_fraction ds hfraction c h)

/-- The groups are those of the digits before the point. -/
lemma groupThousands_eq (n : Figure) :
    groupThousands n.text = groupDigits n.whole ++ n.ending := by
  have hpoint : ∀ c ∈ n.whole, decide (c ≠ '.') = true :=
    fun c hc => decide_eq_true (ne_of_isDigit (n.isDigit_whole c hc) (by decide))
  have hending : n.ending.takeWhile (· ≠ '.') = [] ∧ n.ending.dropWhile (· ≠ '.') = n.ending := by
    unfold ending
    cases n.fraction <;> simp
  rw [groupThousands, text, List.takeWhile_append_of_pos hpoint,
    List.dropWhile_append_of_pos hpoint, hending.1, hending.2, List.append_nil]

/-- A number is shown with its digits before the point in groups of three, of which the first may
be shorter, with commas between them and nothing else added. Between each comma and the point the
number of digits is a multiple of three. The digits behind the point stay as they are.

**Proof sketch.** The digits before the point are put into groups, and what is written for them is
these groups with commas between them. No comma is among the digits themselves, so without the
commas they are left. -/
theorem groupThousands_text (n : Figure) :
    (groupThousands n.text).filter (· ≠ ',') = n.text ∧
      ∃ (shown : List Char) (groups : List (List Char)),
        groupThousands n.text = shown ++ n.ending ∧
        shown = [','].intercalate groups ∧ groups.flatten = n.whole ∧ InThousands groups ∧
        ∀ front back, shown = front ++ ',' :: back → 3 ∣ back.countP Char.isDigit := by
  obtain ⟨groups, hgroups, hflatten⟩ := exists_inThousands n.whole
  constructor
  · have hplain : ∀ c ∈ n.text, decide (c ≠ ',') = true := by
      intro c hc
      have hne : c ≠ ',' := by
        rintro rfl
        rcases mem_text hc with hc | hc <;> cases hc
      exact decide_eq_true hne
    calc (groupThousands n.text).filter (· ≠ ',')
        = (groupDigits n.whole).filter (· ≠ ',') ++ n.ending.filter (· ≠ ',') := by
          rw [groupThousands_eq, List.filter_append]
      _ = n.text.filter (· ≠ ',') := by
          rw [filter_groupDigits (by decide), ← List.filter_append]
          rfl
      _ = n.text := List.filter_eq_self.2 hplain
  · refine ⟨groupDigits n.whole, groups, n.groupThousands_eq, ?_, hflatten, hgroups, ?_⟩
    · rw [← hflatten, groupDigits_flatten hgroups]
    · exact fun front back h => three_dvd_of_groupDigits n.isDigit_whole h

example : groupThousands "123456.7890".toList = "123,456.7890".toList := by decide

end Figure

/-! ### Numbers and amounts in a report -/

/-- What is left after dropping at the end was there before. -/
lemma mem_of_mem_dropAtEnd (h : c ∈ dropAtEnd unwanted cs) : c ∈ cs :=
  List.mem_reverse.1 (List.dropWhile_subset _ (List.mem_reverse.1 h))

/-- Nothing is dropped in front of another character. -/
lemma dropAtEnd_append_cons (hc : c ≠ unwanted) (cs ds : List Char) :
    dropAtEnd unwanted (cs ++ c :: ds) = cs ++ c :: dropAtEnd unwanted ds := by
  have hstop : (c :: cs.reverse).dropWhile (· == unwanted) = c :: cs.reverse :=
    List.dropWhile_cons_of_neg (by simpa using hc)
  have hreverse : (cs ++ c :: ds).reverse = ds.reverse ++ c :: cs.reverse := by simp
  unfold dropAtEnd
  rw [hreverse, List.dropWhile_append, hstop]
  split
  case isTrue hnil =>
    rw [List.isEmpty_iff.1 hnil]
    simp
  case isFalse => simp

/-- A text that ends in other characters stays as it is. -/
lemma dropAtEnd_append_of_notMem (hne : ds ≠ []) (h : unwanted ∉ ds) (cs : List Char) :
    dropAtEnd unwanted (cs ++ ds) = cs ++ ds := by
  obtain ⟨front, last, rfl⟩ := (List.eq_nil_or_concat ds).resolve_left hne
  have hlast : last ≠ unwanted := by
    rintro rfl
    exact h (by simp)
  rw [List.concat_eq_append, ← List.append_assoc]
  exact dropAtEnd_append_cons hlast (cs ++ front) []

/-- At the end of a text the unwanted character is dropped. -/
lemma dropAtEnd_concat (unwanted : Char) (cs : List Char) :
    dropAtEnd unwanted (cs ++ [unwanted]) = dropAtEnd unwanted cs := by
  unfold dropAtEnd
  rw [List.reverse_concat]
  simp

namespace Figure

/-- If there is a point, zeros at the end and a point without digits can be left out, and the digits
before the point stay.

**Proof sketch.** The zeros end at the point at the latest. If no digits are left behind the point,
it goes too, and the digits before it come last. -/
lemma exists_dropAtEnd (n : Figure) (hne : n.whole ≠ []) (hpoint : n.fraction.isSome = true) :
    ∃ m : Figure, m.whole = n.whole ∧ m.text = dropAtEnd '.' (dropAtEnd '0' n.text) := by
  obtain ⟨ds, hds⟩ := Option.isSome_iff_exists.1 hpoint
  have hzeros : dropAtEnd '0' n.text = n.whole ++ '.' :: dropAtEnd '0' ds := by
    rw [text, ending, hds]
    exact dropAtEnd_append_cons (by decide) _ _
  have hdigits : ∀ c ∈ dropAtEnd '0' ds, c.isDigit = true :=
    fun c hc => n.isDigit_fraction ds hds c (mem_of_mem_dropAtEnd hc)
  rw [hzeros]
  by_cases hnil : dropAtEnd '0' ds = []
  · refine ⟨⟨n.whole, none, n.isDigit_whole, nofun⟩, rfl, ?_⟩
    have hstay : '.' ∉ n.whole := notMem_of_isDigit n.isDigit_whole (by decide)
    have htext : dropAtEnd '.' n.whole = n.whole := dropAtEnd_append_of_notMem hne hstay []
    rw [hnil, dropAtEnd_concat, htext]
    exact List.append_nil _
  · refine ⟨⟨n.whole, some (dropAtEnd '0' ds), n.isDigit_whole, ?_⟩, rfl, ?_⟩
    · rintro _ ⟨⟩
      exact hdigits
    · have hstay : '.' ∉ dropAtEnd '0' ds := notMem_of_isDigit hdigits (by decide)
      have htext := dropAtEnd_append_of_notMem hnil hstay (n.whole ++ ['.'])
      rw [List.append_assoc, List.singleton_append] at htext
      exact htext.symm

end Figure

/-- Digits with a point in them are a figure, which has a digit before the point. -/
lemma exists_figure_placePoint (n places : ℕ) : ∃ m : Figure,
    m.whole ≠ [] ∧ (m.fraction.isSome = true ↔ places ≠ 0) ∧ m.text = placePoint n places := by
  have hwhole : ∀ c ∈ Nat.toDigits 10 (n / Nat.pow 10 places), c.isDigit = true :=
    fun _ => isDigit_of_mem_toDigits
  unfold placePoint
  dsimp only
  split
  case isTrue h =>
    exact ⟨⟨_, none, hwhole, nofun⟩, Nat.toDigits_ne_nil, by simp [h], List.append_nil _⟩
  case isFalse h =>
    refine ⟨⟨_, some _, hwhole, ?_⟩, Nat.toDigits_ne_nil, by simp [h], rfl⟩
    rintro _ ⟨⟩ c hc
    exact (List.mem_append.1 hc).elim isDigit_of_mem_zeros isDigit_of_mem_toDigits

section Shown

variable {x : Float}

/-- The digits of an amount are a figure. -/
lemma exists_figure_fixed (hx : x.isFinite = true) (places : ℕ) :
    ∃ n : Figure, n.whole ≠ [] ∧ n.text = fixed x places := by
  obtain ⟨n, hne, -, htext⟩ :=
    exists_figure_placePoint ((Binary.ofFloat x).roundedMagnitude places .toEven) places
  exact ⟨n, hne, by rw [htext, fixed, if_pos hx]⟩

/-- The digits of a number are a figure. -/
lemma exists_figure_trimmedPlaces (hx : x.isFinite = true) :
    ∃ n : Figure, n.whole ≠ [] ∧ n.text = trimmedPlaces x := by
  obtain ⟨n, hne, hpoint, htext⟩ :=
    exists_figure_placePoint ((Binary.ofFloat x).roundedMagnitude 2 .toEven) 2
  obtain ⟨m, hwhole, hm⟩ := n.exists_dropAtEnd hne (hpoint.2 (by decide))
  refine ⟨m, hwhole ▸ hne, ?_⟩
  rw [hm, htext, trimmedPlaces, fixed, if_pos hx]

/-- Numbers and amounts are shown as figures in groups, with nothing in front of them but a minus
sign and the mark of money.

**Proof sketch.** The figure stands behind the signs: a minus sign if one is needed, and the mark of
money for an amount. -/
theorem exists_figure_writeNumber? {f : Format} (hx : x.isFinite = true)
    (hf : f = .number ∨ f = .currency) :
    ∃ (n : Figure) (marks : List Char), n.whole ≠ [] ∧ marks.Sublist ['-', '$'] ∧
      f.writeNumber? x = some (marks ++ groupThousands n.text) := by
  have hsign : ∀ needed, (minusIf needed).Sublist ['-'] := by decide
  rcases hf with rfl | rfl
  · obtain ⟨n, hne, htext⟩ := exists_figure_trimmedPlaces hx
    have hmarks := (hsign (isNegative x && n.text != ['0'])).trans
      (List.sublist_append_left ['-'] ['$'])
    refine ⟨n, _, hne, hmarks, ?_⟩
    rw [htext]
    rfl
  · obtain ⟨n, hne, htext⟩ := exists_figure_fixed hx 2
    refine ⟨n, _, hne, (hsign (isNegative x)).append_right ['$'], ?_⟩
    rw [htext, List.append_assoc]
    rfl

end Shown

end Cohort.Report
