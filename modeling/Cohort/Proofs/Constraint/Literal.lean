import Cohort.Proofs.Constraint.Acceptance
import Cohort.Proofs.Text.Lowercase
set_option relaxedAutoImplicit false
set_option autoImplicit false

/-!
# Needles that stand in a text

Texts are compared in lower case, and the needle and the text are put in lower case each on its own.
So a needle that stands in a text, character for character, is found there if its lower case is the
same alone as within the text. That is so unless the needle has a capital sigma that ends a word in
the one and not in the other.

## Main definitions

* `Cohort.Constraint.TextRelation.operator` — the operator that asks for a relation.
* `Cohort.Constraint.TextRelation.Finds` — the place where a needle stands in a text.

## Main results

* `Cohort.Constraint.TextRelation.holds_iff` — a needle has a relation to a text if it is what
  stands in its place.
* `Cohort.Constraint.accepts_literal` — when a needle that stands in a text is found there.
-/

namespace Cohort

open Result

namespace Text

/-- Characters stand side by side in others if and only if there are some before and some after
them that make up the others. -/
lemma isInfix_eq_true {needle cs : List Char} : isInfix needle cs = true ↔ needle <:+: cs := by
  induction cs with
  | nil => simp [isInfix]
  | cons c cs ih => simp [isInfix, ih, List.infix_cons_iff]

end Text

namespace Constraint

namespace TextRelation

variable {relation : TextRelation} {needle text before after : List Char}

/-- The operator that asks for a relation. -/
def operator : TextRelation → Operator
  | .is => .is
  | .contains => .contains
  | .startsWith => .startsWith
  | .endsWith => .endsWith

/-- The operator of a text relation asks for this relation, and not for its opposite. -/
lemma textRelation?_operator (relation : TextRelation) :
    relation.operator.textRelation? = some (relation, false) := by
  cases relation <;> rfl

/-- The operator of a text relation may be used with texts. -/
lemma operator_mem_legal (relation : TextRelation) :
    relation.operator ∈ Operator.legal .string := by
  cases relation <;> decide

/-- A needle stands in a text between the characters `before` and `after`, in a place that the
relation asks for: with nothing before it if the needle begins the text, and with nothing after it
if it ends the text. -/
structure Finds (relation : TextRelation) (needle text before after : List Char) : Prop where
  /-- The needle stands in the text. -/
  split : text = before ++ (needle ++ after)
  /-- It begins the text if the relation says so. -/
  begins : relation = .is ∨ relation = .startsWith → before = []
  /-- It ends the text if the relation says so. -/
  ends : relation = .is ∨ relation = .endsWith → after = []

/-- A needle stands somewhere in the text if and only if the relation holds.

**Proof sketch.** By the relation. Where it says that nothing stands before or behind the needle,
the split has an empty part there. -/
lemma exists_finds_iff {n t : String} :
    (∃ before after, relation.Finds n.toList t.toList before after) ↔
      relation.holds n t = true := by
  cases relation with
  | is =>
    simp only [holds, decide_eq_true_eq, ← String.toList_inj]
    constructor
    · rintro ⟨before, after, hsplit, hbegins, hends⟩
      rw [hsplit, hbegins (.inl rfl), hends (.inl rfl), List.nil_append, List.append_nil]
    · intro h
      exact ⟨[], [], by rw [h, List.nil_append, List.append_nil], fun _ => rfl, fun _ => rfl⟩
  | contains =>
    simp only [holds, Text.occursIn, Text.isInfix_eq_true]
    constructor
    · rintro ⟨before, after, hsplit, -, -⟩
      exact ⟨before, after, by rw [hsplit, List.append_assoc]⟩
    · rintro ⟨before, after, h⟩
      exact ⟨before, after, by rw [← h, List.append_assoc], by simp, by simp⟩
  | startsWith =>
    simp only [holds, Text.startsWith, List.isPrefixOf_iff_prefix]
    constructor
    · rintro ⟨before, after, hsplit, hbegins, -⟩
      exact ⟨after, by rw [hsplit, hbegins (.inr rfl), List.nil_append]⟩
    · rintro ⟨after, h⟩
      exact ⟨[], after, by rw [← h, List.nil_append], fun _ => rfl, by simp⟩
  | endsWith =>
    simp only [holds, Text.endsWith, List.isSuffixOf_iff_suffix]
    constructor
    · rintro ⟨before, after, hsplit, -, hends⟩
      exact ⟨before, by rw [hsplit, hends (.inr rfl), List.append_nil]⟩
    · rintro ⟨before, h⟩
      exact ⟨before, [], by rw [← h, List.append_nil], by simp, fun _ => rfl⟩

/-- If a part of a text stands in the only place that the relation allows, a needle of the same
length has the relation to the text if and only if it is the part.

**Proof sketch.** Both the part and the needle stand at the front, or both at the end. Two splits of
one text at the same place with pieces of one length have the same pieces. -/
theorem holds_iff {part : List Char} {n t : String}
    (h : relation.Finds part t.toList before after) (hlength : part.length = n.toList.length)
    (hplace : relation ≠ .contains) : relation.holds n t = true ↔ part = n.toList := by
  rw [← exists_finds_iff]
  constructor
  · rintro ⟨before', after', h'⟩
    have hsplit : before ++ (part ++ after) = before' ++ (n.toList ++ after') := by
      rw [← h.split, ← h'.split]
    cases relation with
    | is | startsWith =>
      rw [h.begins (by simp), h'.begins (by simp)] at hsplit
      rw [List.nil_append, List.nil_append] at hsplit
      exact (List.append_inj hsplit hlength).1
    | endsWith =>
      rw [h.ends (by simp), h'.ends (by simp), List.append_nil, List.append_nil] at hsplit
      exact (List.append_inj' hsplit hlength).2
    | contains => exact absurd rfl hplace
  · intro hpart
    exact ⟨before, after, hpart ▸ h⟩

namespace Finds

open Text

/-- In lower case the needle stands in the same place, with the lower case that it has there. -/
lemma lowercase {t : String} (h : relation.Finds needle t.toList before after) :
    relation.Finds (lowercaseBetween before needle after) (Text.lowercase t).toList
      (lowercaseBetween [] before (needle ++ after))
      (lowercaseBetween (before ++ needle) after []) where
  split := by
    rw [toList_lowercase, h.split, lowercaseBetween_append, lowercaseBetween_append,
      List.append_nil, List.append_nil, List.nil_append]
  begins hrelation := by rw [h.begins hrelation, lowercaseBetween]
  ends hrelation := by rw [h.ends hrelation, lowercaseBetween]

/-- If the needle keeps its capital sigmas, its lower case has the relation to that of the text. -/
lemma holds_lowercase {n t : String} (h : relation.Finds n.toList t.toList before after)
    (hkeeps : KeepsSigmas before n.toList after) :
    relation.holds (Text.lowercase n) (Text.lowercase t) = true := by
  have hlower := h.lowercase
  rw [lowercaseBetween_eq_alone_iff.2 hkeeps, ← toList_lowercase] at hlower
  exact exists_finds_iff.1 ⟨_, _, hlower⟩

/-- If the needle can only stand in one place, its lower case has the relation to that of the text
if and only if the needle keeps its capital sigmas. -/
lemma holds_lowercase_iff {n t : String} (h : relation.Finds n.toList t.toList before after)
    (hplace : relation ≠ .contains) :
    relation.holds (Text.lowercase n) (Text.lowercase t) = true ↔
      KeepsSigmas before n.toList after := by
  have hlength : (lowercaseBetween before n.toList after).length =
      (Text.lowercase n).toList.length := by
    rw [toList_lowercase]
    exact length_lowercaseBetween before [] n.toList after []
  rw [holds_iff h.lowercase hlength hplace, toList_lowercase]
  exact lowercaseBetween_eq_alone_iff

/-- A needle that is the whole text, or has no capital sigma, keeps its capital sigmas. -/
lemma keepsSigmas (h : relation.Finds needle text before after)
    (hneedle : relation = .is ∨ 'Σ' ∉ needle) : KeepsSigmas before needle after := by
  obtain rfl | hnone := hneedle
  · rw [h.begins (.inl rfl), h.ends (.inl rfl)]
    exact keepsSigmas_alone
  · exact keepsSigmas_of_notMem hnone

end Finds

end TextRelation

variable {spec : Spec} {relation : TextRelation} {needle text : String} {before after : List Char}

/-- A constraint with one needle makes a test for the needle in lower case. -/
lemma compile_literal (htype : DataType.ofName? spec.dataType = some .string)
    (hoperator : Operator.ofName? spec.operator = some relation.operator)
    (hvalues : spec.values = [.string needle]) :
    compile spec = .ok ⟨spec.field, .string, relation.operator,
      .text relation false [Text.lowercase needle]⟩ := by
  refine compile_eq_ok.2 ⟨htype, hoperator, relation.operator_mem_legal, ?_, rfl⟩
  have htest : compileTest spec .string relation.operator =
      compileText spec relation.operator := by
    cases relation <;> rfl
  rw [htest, compileText_eq_ok]
  refine ⟨by simp [hvalues], relation, false, relation.textRelation?_operator, ?_⟩
  rw [hvalues]
  rfl

/-- A text that is not empty passes a test for one needle if the lower case of the needle has the
relation to that of the text. -/
lemma accepts_text {c : Constraint} (htest : c.test = .text relation false [Text.lowercase needle])
    (hne : text ≠ "") :
    c.accepts (some (.string text)) =
      relation.holds (Text.lowercase needle) (Text.lowercase text) := by
  have hpresent : Json.isAbsent (some (.string text)) = false := by
    simpa [Json.isAbsent, String.isEmpty_iff] using hne
  simp [accepts, hpresent, htest, Test.acceptsPresent, Json.toText]

/-- A constraint with one needle is accepted, and a text that is not empty passes it if and only if
the lower case of the needle stands in that of the text. If the needle itself stands in the text,
character for character, the text passes if the needle keeps its capital sigmas there: each of them
ends a word in the text if and only if it ends one in the needle. If the needle is to begin, to end
or to be the text, the text passes in no other case. A needle without capital sigmas is always
found, and so is one that is the whole text.

**Proof sketch.** The lower case of the text is made of those of its parts, and the needle has one
of the same length alone, which is the same one if and only if the needle keeps its capital
sigmas. -/
theorem accepts_literal (htype : DataType.ofName? spec.dataType = some .string)
    (hoperator : Operator.ofName? spec.operator = some relation.operator)
    (hvalues : spec.values = [.string needle]) (hne : text ≠ "")
    (hfinds : relation.Finds needle.toList text.toList before after) :
    ∃ c, compile spec = .ok c ∧
      (c.accepts (some (.string text)) = true ↔ ∃ before' after',
        relation.Finds (Text.lowercase needle).toList (Text.lowercase text).toList before' after') ∧
      (Text.KeepsSigmas before needle.toList after →
        c.accepts (some (.string text)) = true) ∧
      (relation ≠ .contains → c.accepts (some (.string text)) = true →
        Text.KeepsSigmas before needle.toList after) ∧
      (relation = .is ∨ 'Σ' ∉ needle.toList → c.accepts (some (.string text)) = true) := by
  have hholds : Constraint.accepts ⟨spec.field, .string, relation.operator,
        .text relation false [Text.lowercase needle]⟩ (some (.string text)) =
      relation.holds (Text.lowercase needle) (Text.lowercase text) :=
    accepts_text rfl hne
  refine ⟨_, compile_literal htype hoperator hvalues, ?_, ?_, ?_, ?_⟩
  · rw [hholds]
    exact TextRelation.exists_finds_iff.symm
  · intro hkeeps
    rw [hholds]
    exact hfinds.holds_lowercase hkeeps
  · intro hplace haccepts
    rw [hholds] at haccepts
    exact (hfinds.holds_lowercase_iff hplace).1 haccepts
  · intro hneedle
    rw [hholds]
    exact hfinds.holds_lowercase (hfinds.keepsSigmas hneedle)

/-- The first word of an address ends with a capital sigma, which ends a word there as well. -/
theorem street_found :
    TextRelation.startsWith.Finds "ΟΔΟΣ".toList "ΟΔΟΣ ΕΡΜΟΥ".toList [] " ΕΡΜΟΥ".toList ∧
      ∃ c, compile ⟨"address", "string", "starts_with", [.string "ΟΔΟΣ"]⟩ = .ok c ∧
        c.accepts (some (.string "ΟΔΟΣ ΕΡΜΟΥ")) = true := by
  have hfinds : TextRelation.startsWith.Finds "ΟΔΟΣ".toList "ΟΔΟΣ ΕΡΜΟΥ".toList []
      " ΕΡΜΟΥ".toList := ⟨by decide, fun _ => rfl, by decide⟩
  have hkeeps : Text.KeepsSigmas [] "ΟΔΟΣ".toList " ΕΡΜΟΥ".toList :=
    Text.lowercaseBetween_eq_alone_iff.1 (by decide +kernel)
  obtain ⟨c, hc, -, hfound, -, -⟩ :=
    @accepts_literal ⟨"address", "string", "starts_with", [.string "ΟΔΟΣ"]⟩ _ _ _ _ _
      (by decide +kernel) (by decide +kernel) rfl (by decide) hfinds
  exact ⟨hfinds, c, hc, hfound hkeeps⟩

/-- The same needle stands in a longer word, where its sigma ends no word, and is not found
there. -/
theorem sign_unfound :
    TextRelation.contains.Finds "ΟΔΟΣ".toList "ΟΔΟΣΗΜΑΝΣΗ".toList [] "ΗΜΑΝΣΗ".toList ∧
      ∃ c, compile ⟨"name", "string", "contains", [.string "ΟΔΟΣ"]⟩ = .ok c ∧
        c.accepts (some (.string "ΟΔΟΣΗΜΑΝΣΗ")) = false := by
  constructor
  · exact ⟨by decide, fun _ => rfl, by decide⟩
  · refine ⟨⟨"name", .string, .contains, .text .contains false ["οδος"]⟩, ?_, ?_⟩
    · decide +kernel
    · decide +kernel

end Constraint

end Cohort
