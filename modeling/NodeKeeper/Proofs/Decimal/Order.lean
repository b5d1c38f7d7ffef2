import Mathlib.Algebra.Order.Group.Int
import Mathlib.Data.Prod.Lex
import Mathlib.Order.Basic

/-!
# The order of doubles

Clocks, lifetimes and time limits are doubles, and all that the library does with them is to
subtract them, to add them, and to compare them. Comparing is no linear order, since a NaN compares
with nothing; it is one on the doubles that are numbers.

## Main definitions

* `Binary.rank` — the place of a double among the numbers.

## Main results

* `Binary.le_iff_rank`, `Binary.lt_iff_rank` — comparing two doubles compares their places.
* `Binary.not_le_of_lt`, `Binary.le_of_not_lt` — comparing is strict, and total on numbers.
* An instance of `IsTrans` for `≤` on doubles.

## Implementation notes

A double is unpacked into a sign, a mantissa and an exponent. The exponent of a double is that of
its last place, and a mantissa is as long as its exponent allows, so that larger exponents go with
larger numbers. The place lists the kind of a double, its exponent and its mantissa, in this order
of weight, both turned around below zero.
-/

namespace NodeKeeper.Binary

open Float.Model

/-- The place of an unpacked double among the numbers. A NaN has none, and the two zeros have the
same. -/
def rank : UnpackedFloat → Option (ℤ ×ₗ ℤ ×ₗ ℤ)
  | .notANumber => none
  | .infinity .negative => some (toLex (-2, toLex (0, 0)))
  | .finite .negative m e _ => some (toLex (-1, toLex (-e, -m)))
  | .zero _ => some (toLex (0, toLex (0, 0)))
  | .finite .positive m e _ => some (toLex (1, toLex (e, m)))
  | .infinity .positive => some (toLex (2, toLex (0, 0)))

section Compare

variable (e₁ e₂ : ℤ) (m₁ m₂ : ℕ)

/-- A comparison by exponents, and by mantissas where these are the same, comes out as less or the
same if and only if the order of the pairs does. -/
lemma isLE_compare_then :
    ((compare e₁ e₂).then (compare m₁ m₂)).isLE ↔ e₁ < e₂ ∨ e₁ = e₂ ∧ m₁ ≤ m₂ := by
  rcases lt_trichotomy e₁ e₂ with h | rfl | h
  · simp [compare_lt_iff_lt.2 h, h]
  · simp [Nat.isLE_compare]
  · simp [compare_gt_iff_gt.2 h, h.not_gt, h.ne']

/-- It comes out as greater or the same if and only if the order the other way round does. -/
lemma isGE_compare_then :
    ((compare e₁ e₂).then (compare m₁ m₂)).isGE ↔ e₂ < e₁ ∨ e₁ = e₂ ∧ m₂ ≤ m₁ := by
  rcases lt_trichotomy e₁ e₂ with h | rfl | h
  · simp [compare_lt_iff_lt.2 h, h.not_gt, h.ne]
  · simp [Nat.isGE_compare]
  · simp [compare_gt_iff_gt.2 h, h]

/-- It comes out as less if and only if the pairs are in strict order. -/
lemma compare_then_eq_lt :
    (compare e₁ e₂).then (compare m₁ m₂) = .lt ↔ e₁ < e₂ ∨ e₁ = e₂ ∧ m₁ < m₂ := by
  rcases lt_trichotomy e₁ e₂ with h | rfl | h
  · simp [compare_lt_iff_lt.2 h, h]
  · simp [Nat.compare_eq_lt]
  · simp [compare_gt_iff_gt.2 h, h.not_gt, h.ne']

/-- It comes out as greater if and only if they are in strict order the other way round. -/
lemma compare_then_eq_gt :
    (compare e₁ e₂).then (compare m₁ m₂) = .gt ↔ e₂ < e₁ ∨ e₁ = e₂ ∧ m₂ < m₁ := by
  rcases lt_trichotomy e₁ e₂ with h | rfl | h
  · simp [compare_lt_iff_lt.2 h, h.not_gt, h.ne]
  · simp [Nat.compare_eq_gt]
  · simp [compare_gt_iff_gt.2 h, h]

end Compare

/-- Comparing unpacked doubles compares their places.

**Proof sketch.** Two kinds of doubles differ in the first component of the place. Two doubles of
the same kind are equal, or compare by exponent and then by mantissa, turned around below zero. -/
lemma unpacked_le_iff (a b : UnpackedFloat) :
    a.le b = true ↔ ∃ x y, rank a = some x ∧ rank b = some y ∧ x ≤ y := by
  rcases a with (_ | _) | _ | _ | ⟨(_ | _), m₁, e₁, _⟩ <;>
    rcases b with (_ | _) | _ | _ | ⟨(_ | _), m₂, e₂, _⟩ <;>
    dsimp only [rank, UnpackedFloat.le, UnpackedFloat.compare] <;>
    simp [Prod.Lex.le_iff, isLE_compare_then, isGE_compare_then]
  all_goals decide

/-- Strictly comparing unpacked doubles strictly compares their places. -/
lemma unpacked_lt_iff (a b : UnpackedFloat) :
    a.lt b = true ↔ ∃ x y, rank a = some x ∧ rank b = some y ∧ x < y := by
  rcases a with (_ | _) | _ | _ | ⟨(_ | _), m₁, e₁, _⟩ <;>
    rcases b with (_ | _) | _ | _ | ⟨(_ | _), m₂, e₂, _⟩ <;>
    dsimp only [rank, UnpackedFloat.lt, UnpackedFloat.compare] <;>
    simp [Prod.Lex.lt_iff, compare_then_eq_lt, compare_then_eq_gt]
  all_goals decide

variable {a b c : Float}

/-- Two doubles compare as their places do. -/
theorem le_iff_rank :
    a ≤ b ↔ ∃ x y, rank a.toModel.unpack = some x ∧ rank b.toModel.unpack = some y ∧ x ≤ y :=
  decide_eq_true_iff.trans (unpacked_le_iff _ _)

/-- Two doubles compare strictly as their places do. -/
theorem lt_iff_rank :
    a < b ↔ ∃ x y, rank a.toModel.unpack = some x ∧ rank b.toModel.unpack = some y ∧ x < y :=
  decide_eq_true_iff.trans (unpacked_lt_iff _ _)

instance isTransLe : IsTrans Float (· ≤ ·) where
  trans a b c hab hbc := by
    obtain ⟨x, y, hx, hy, hxy⟩ := le_iff_rank.1 hab
    obtain ⟨y', z, hy', hz, hyz⟩ := le_iff_rank.1 hbc
    obtain rfl : y = y' := by simpa [hy] using hy'
    exact le_iff_rank.2 ⟨x, z, hx, hz, hxy.trans hyz⟩

/-- A smaller double is at most as large. -/
theorem le_of_lt (h : a < b) : a ≤ b := by
  obtain ⟨x, y, hx, hy, hxy⟩ := lt_iff_rank.1 h
  exact le_iff_rank.2 ⟨x, y, hx, hy, hxy.le⟩

/-- What is at least as large as a larger double is larger. -/
theorem lt_of_lt_of_le (hab : a < b) (hbc : b ≤ c) : a < c := by
  obtain ⟨x, y, hx, hy, hxy⟩ := lt_iff_rank.1 hab
  obtain ⟨y', z, hy', hz, hyz⟩ := le_iff_rank.1 hbc
  obtain rfl : y = y' := by simpa [hy] using hy'
  exact lt_iff_rank.2 ⟨x, z, hx, hz, hxy.trans_le hyz⟩

/-- What is larger than a double is a number. -/
theorem le_self_of_lt (h : a < b) : b ≤ b := by
  obtain ⟨-, y, -, hy, -⟩ := lt_iff_rank.1 h
  exact le_iff_rank.2 ⟨y, y, hy, hy, le_rfl⟩

/-- One of two numbers is at most as large as the other. -/
theorem le_of_not_lt (ha : a ≤ a) (hb : b ≤ b) (h : ¬ b < a) : a ≤ b := by
  obtain ⟨x, -, hx, -, -⟩ := le_iff_rank.1 ha
  obtain ⟨y, -, hy, -, -⟩ := le_iff_rank.1 hb
  exact le_iff_rank.2 ⟨x, y, hx, hy, not_lt.1 fun hyx => h (lt_iff_rank.2 ⟨y, x, hy, hx, hyx⟩)⟩

/-- A smaller double is not at least as large. -/
theorem not_le_of_lt (h : a < b) : ¬ b ≤ a := by
  intro hba
  obtain ⟨x, y, hx, hy, hxy⟩ := lt_iff_rank.1 h
  obtain ⟨y', x', hy', hx', hyx⟩ := le_iff_rank.1 hba
  obtain rfl : y = y' := by simpa [hy] using hy'
  obtain rfl : x = x' := by simpa [hx] using hx'
  exact hxy.not_ge hyx

end NodeKeeper.Binary
