import Mathlib.Data.Prod.Lex
import Mathlib.Tactic.Lemma
import Cohort.Timeframe
set_option relaxedAutoImplicit false
set_option autoImplicit false

/-!
# The order of instants

Instants lie on a line: one comes before another if its second does, or if it comes earlier in the
same second. A leap second lies behind the second that it prolongs.

## Main definitions

* `Cohort.Instant.place` — where an instant lies.

## Main results

* `Cohort.Instant.order_swap` — two instants compare the other way round from the other side.
* `Cohort.Instant.before_iff` — an instant comes before another one if it lies before it.
* `Cohort.Window.contains_iff` — which instants lie in a window.
-/

namespace Cohort.Instant

variable {a b : Instant}

/-- Two instants compare the other way round from the other side. -/
lemma order_swap (a b : Instant) : b.order a = (a.order b).swap := by
  rw [order, order, Ordering.swap_then, ← Std.OrientedOrd.eq_swap, ← Std.OrientedOrd.eq_swap]

/-- Where an instant lies on the line of time: its second first, then its nanosecond. -/
def place (a : Instant) : ℤ ×ₗ ℕ :=
  toLex (a.seconds, a.nanos)

/-- An instant comes before another one if its place does. -/
lemma before_iff : a.before b = true ↔ a.place < b.place := by
  rw [place, place, Prod.Lex.toLex_lt_toLex]
  simp [before]

/-- An instant does not come before another one if its place is not before that one's. -/
lemma not_before_iff : b.before a = false ↔ a.place ≤ b.place := by
  rw [← not_lt, ← before_iff, Bool.not_eq_true]

/-- No two instants lie at one place. -/
lemma place_inj : a.place = b.place ↔ a = b := by
  cases a
  cases b
  simp [place]

end Cohort.Instant

namespace Cohort.Window

variable {window : Window} {t : Instant}

/-- A window holds its start and not its end. -/
lemma contains_iff : window.contains t = true ↔
    window.start.place ≤ t.place ∧ t.place < window.stop.place := by
  rw [contains, Bool.and_eq_true, Bool.not_eq_true', Instant.not_before_iff, Instant.before_iff]

end Cohort.Window
