import Mathlib
import NodeKeeper.Proofs.Decimal.Rounding

/-!
# Exact values of doubles

A double that is a number is a mantissa times a power of two, and so it is rational. Two doubles
compare as their values do. Doubling is exact until it leaves the range; a sum is rounded, but not
below what was added to.

## Main definitions

* `Binary.IsPlace` — a mantissa and an exponent that a double can have.
* `Binary.value` — the rational number that a double is.
* `Binary.Denotes` — an unpacked double is a positive number, or an infinity in place of one that is
  too large.

## Main results

* `Binary.Denotes.lt_iff` — doubles compare as what they denote.
* `Binary.Denotes.mul` — a product with a power of two is exact.
* `Binary.Denotes.exists_add` — a sum is at least what was added to.
* `Decimal.denotes_ofInt` — a power of two below the largest double is a double.

## Implementation notes

A number has one place at most: the mantissa is as long as it can be, unless the exponent is the
least one. Rounding yields a place, so that its result is known by its value.
-/

namespace NodeKeeper.Binary

open Float.Model UnpackedFloat

/-! ## Places -/

/-- A mantissa and an exponent that a double can have, if the exponent is not too large. -/
structure IsPlace (m : ℕ) (e : ℤ) : Prop where
  short : m < 2 ^ 53
  low : -1074 ≤ e
  full : e = -1074 ∨ 2 ^ 52 ≤ m

/-- The number that a mantissa and an exponent stand for. -/
def amount (m : ℕ) (e : ℤ) : ℚ := m * 2 ^ e

section Amount

variable {m m' n : ℕ} {e e' : ℤ}

/-- A mantissa that is not zero stands for something positive, whatever the exponent. -/
lemma amount_pos (hm : 0 < m) (e : ℤ) : 0 < amount m e :=
  mul_pos (Nat.cast_pos.2 hm) (zpow_pos two_pos e)

/-- For one exponent, a larger mantissa stands for a larger amount. -/
lemma amount_le_amount (h : m ≤ n) (e : ℤ) : amount m e ≤ amount n e :=
  mul_le_mul_of_nonneg_right (Nat.cast_le.2 h) (zpow_pos two_pos e).le

/-- So it is with a strictly larger one. -/
lemma amount_lt_amount (h : m < n) (e : ℤ) : amount m e < amount n e :=
  mul_lt_mul_of_pos_right (Nat.cast_lt.2 h) (zpow_pos two_pos e)

/-- The amounts of two mantissas with one exponent add up to the amount of their sum. -/
lemma amount_add (m n : ℕ) (e : ℤ) : amount (m + n) e = amount m e + amount n e := by
  rw [amount, Nat.cast_add, add_mul]
  rfl

/-- Digits go from the mantissa to the exponent. -/
lemma amount_mul_two_pow (m c : ℕ) (e : ℤ) : amount (m * 2 ^ c) e = amount m (e + c) := by
  simp only [amount, Nat.cast_mul, Nat.cast_pow, Nat.cast_ofNat, zpow_add₀ (two_ne_zero' ℚ),
    zpow_natCast]
  ring

/-- Each place that the exponent is higher by doubles the amount. -/
lemma amount_add_natCast (m k : ℕ) (e : ℤ) : amount m (e + k) = amount m e * 2 ^ k := by
  simp only [amount, zpow_add₀ (two_ne_zero' ℚ), zpow_natCast, mul_assoc]

/-- A larger exponent or a larger mantissa goes with a number that is larger by a last digit. -/
lemma IsPlace.amount_succ_le (h : IsPlace m e) (h' : IsPlace m' e')
    (hlt : e < e' ∨ e = e' ∧ m < m') : amount (m + 1) e ≤ amount m' e' := by
  rcases hlt with he | ⟨rfl, hm⟩
  · obtain ⟨c, rfl⟩ : ∃ c : ℕ, e' = e + (1 + c : ℕ) := ⟨(e' - e - 1).toNat, by omega⟩
    have hfull : 2 ^ 52 ≤ m' := h'.full.resolve_left (by have := h.low; omega)
    rw [← amount_mul_two_pow]
    refine amount_le_amount ?_ e
    calc m + 1 ≤ 2 ^ 52 * 2 ^ 1 := h.short
      _ ≤ m' * 2 ^ (1 + c) :=
        Nat.mul_le_mul hfull (Nat.pow_le_pow_right two_pos (Nat.le_add_right 1 c))
  · exact amount_le_amount hm e

/-- **Places compare** as their numbers do. -/
lemma IsPlace.amount_lt_iff (h : IsPlace m e) (h' : IsPlace m' e') :
    amount m e < amount m' e' ↔ e < e' ∨ e = e' ∧ m < m' := by
  constructor
  · intro hlt
    by_contra hnot
    obtain hgt | ⟨rfl, rfl⟩ : (e' < e ∨ e' = e ∧ m' < m) ∨ e = e' ∧ m = m' := by omega
    · exact hlt.not_ge ((amount_le_amount (Nat.le_succ m') e').trans (h'.amount_succ_le h hgt))
    · exact lt_irrefl _ hlt
  · exact fun hlt => (amount_lt_amount (Nat.lt_succ_self m) e).trans_le (h.amount_succ_le h' hlt)

/-- A number has one place. -/
lemma IsPlace.eq_of_amount_eq (h : IsPlace m e) (h' : IsPlace m' e')
    (heq : amount m e = amount m' e') : m = m' ∧ e = e' := by
  have hle := (h.amount_lt_iff h').not.1 heq.not_lt
  have hge := (h'.amount_lt_iff h).not.1 heq.not_gt
  omega

/-- The first amount that is too large to be a float, written with a mantissa of 53 digits. -/
lemma amount_range : amount (2 ^ 52) 972 = 2 ^ 1024 := by
  rw [amount, Nat.cast_pow, Nat.cast_ofNat, show (972 : ℤ) = (972 : ℕ) from rfl, zpow_natCast,
    ← pow_add]

/-- What is in the range of doubles is below `2 ^ 1024`. -/
lemma IsPlace.amount_lt_range (h : IsPlace m e) (he : e ≤ 971) : amount m e < 2 ^ 1024 := by
  have hnext : IsPlace (2 ^ 52) 972 := ⟨by decide, by decide, .inr le_rfl⟩
  calc amount m e < amount (2 ^ 52) 972 := (h.amount_lt_iff hnext).2 (.inl (by omega))
    _ = 2 ^ 1024 := amount_range

/-- What is not in the range of doubles is not. -/
lemma IsPlace.range_le_amount (h : IsPlace m e) (he : 971 < e) : 2 ^ 1024 ≤ amount m e := by
  have hnext : IsPlace (2 ^ 52) 972 := ⟨by decide, by decide, .inr le_rfl⟩
  have hfull : 2 ^ 52 ≤ m := h.full.resolve_left (by omega)
  rw [← amount_range]
  refine not_lt.1 ((h.amount_lt_iff hnext).not.2 ?_)
  omega

end Amount

/-! ## What a double denotes -/

/-- An unpacked double is a positive number, or an infinity in place of one that is too large. -/
inductive Denotes (q : ℚ) : UnpackedFloat → Prop
  | finite {m : ℕ} {e : ℤ} (hm : 0 < m) (hplace : IsPlace m e) (he : e ≤ 971)
    (hq : amount m e = q) : Denotes q (.finite .positive m e hm)
  | infinity (hq : 2 ^ 1024 ≤ q) : Denotes q (.infinity .positive)

/-- The rational number that a double is, and zero for one that is no number. -/
def value (x : Float) : ℚ :=
  match x.toModel.unpack with
  | .finite .positive m e _ => amount m e
  | .finite .negative m e _ => -amount m e
  | _ => 0

section Denotes

variable {q r : ℚ} {x y : Float} {u : UnpackedFloat}

/-- A double has a place.

**Proof sketch.** A number with the least biased exponent is read without a leading digit, and any
other with one. All ones stand for infinity and what is not a number, which bounds the exponent from
above. -/
lemma isPlace_of_unpack {x : Float.Model} {s : Sign} {m : ℕ} {e : ℤ} {hm : 0 < m}
    (h : x.unpack = .finite s m e hm) : IsPlace m e ∧ e ≤ 971 := by
  have hbias : (Format.binary64.exponentBias : ℤ) +
      Format.binary64.mantissaBitsWithoutImplicit = 1075 := rfl
  unfold Float.Model.unpack UnpackedFloat.unpack at h
  dsimp only at h
  rw [hbias] at h
  generalize @unpackExponent Format.binary64 x.toBits.toBitVec = biased at h
  have hdigits : (@unpackMantissa Format.binary64 x.toBits.toBitVec).toNat < 2 ^ 52 :=
    (@unpackMantissa Format.binary64 x.toBits.toBitVec).isLt
  have hbiased : biased.toNat < 2 ^ 11 := biased.isLt
  split at h
  · split at h <;> simp at h
  · next hones =>
    split at h
    · next hzero =>
      split at h
      · simp at h
      · simp only [UnpackedFloat.finite.injEq] at h
        obtain ⟨-, rfl, rfl⟩ := h
        subst hzero
        refine ⟨⟨hdigits.trans (by decide), ?_, .inl ?_⟩, ?_⟩ <;> simp
    · next hzero =>
      simp only [UnpackedFloat.finite.injEq] at h
      obtain ⟨-, rfl, rfl⟩ := h
      have hleast : biased.toNat ≠ 0 := fun h => hzero (BitVec.toNat_eq.2 h)
      have hmost : biased.toNat ≠ 2047 := fun h => hones (BitVec.toNat_eq.2 h)
      rw [BitVec.toNat_append, ← Nat.shiftLeft_add_eq_or_of_lt hdigits]
      change IsPlace (2 ^ 52 + _) _ ∧ _
      exact ⟨⟨by omega, by omega, .inr (Nat.le_add_right _ _)⟩, by omega⟩

/-- Packing keeps a number with the least exponent, whose mantissa need not have full length.

**Proof sketch.** Its first digit is not the leading one, so that it is written with the exponent
zero, and its digits as they are. That is how it is read. -/
lemma unpack_pack_short {m : ℕ} (hm : 0 < m) (hshort : m < 2 ^ 52) :
    (Float.Model.pack (.finite .positive m (-1074) hm)).unpack =
      .finite .positive m (-1074) hm := by
  have hlog : ¬ m.log2 + 1 = Format.binary64.mantissaBits :=
    ((Nat.succ_le_of_lt ((Nat.log2_lt hm.ne').2 hshort)).trans_lt (Nat.lt_succ_self 52)).ne
  have hdigits : (BitVec.ofNat 52 m).toNat = m := by
    rw [BitVec.toNat_ofNat, Nat.mod_eq_of_lt hshort]
  have hne : BitVec.ofNat 52 m ≠ 0#52 := fun h => hm.ne' (hdigits.symm.trans (congrArg _ h))
  rw [unpack_pack]
  unfold UnpackedFloat.pack
  dsimp only
  rw [if_neg (by decide), if_neg hlog]
  simp only [UnpackedFloat.unpack, unpackExponent_packComponents, unpackSign_packComponents,
    unpackMantissa_packComponents]
  rw [if_neg (by decide), if_pos trivial, dif_neg hne]
  simp only [UnpackedFloat.finite.injEq]
  exact ⟨rfl, hdigits, rfl⟩

/-- **Packing** a place keeps its number, or makes an infinity of it. -/
lemma denotes_pack {m : ℕ} {e : ℤ} (hm : 0 < m) (h : IsPlace m e) :
    Denotes (amount m e) (Float.Model.pack (.finite .positive m e hm)).unpack := by
  by_cases hlong : 2 ^ 52 ≤ m
  · have hlog : m.log2 = 52 := (Nat.log2_eq_iff hm.ne').2 ⟨hlong, h.short⟩
    rw [unpack_pack_finite hm hlog h.low]
    split
    · exact .infinity (h.range_le_amount (by omega))
    · exact .finite hm h (by omega) rfl
  · obtain rfl : e = -1074 := h.full.resolve_right hlong
    rw [unpack_pack_short hm (not_le.1 hlong)]
    exact .finite hm h (by decide) rfl

/-- What a double denotes is positive. -/
lemma Denotes.pos (h : Denotes q u) : 0 < q := by
  cases h with
  | finite hm _ _ hq => exact hq ▸ amount_pos hm _
  | infinity hq => exact (pow_pos two_pos 1024).trans_le hq

/-- A number in the range of doubles is denoted by what has its place. -/
lemma Denotes.eq_finite {m : ℕ} {e : ℤ} (h : Denotes (amount m e) u) (hm : 0 < m)
    (hplace : IsPlace m e) (he : e ≤ 971) : u = .finite .positive m e hm := by
  cases h with
  | finite hm' hplace' _ hq =>
    obtain ⟨rfl, rfl⟩ := hplace'.eq_of_amount_eq hplace hq
    rfl
  | infinity hq => exact absurd hq (hplace.amount_lt_range he).not_ge

/-- A double is finite if what it denotes is in the range of doubles. -/
lemma Denotes.isFinite_iff (h : Denotes q x.toModel.unpack) :
    x.isFinite = true ↔ q < 2 ^ 1024 := by
  change x.toModel.unpack.isFinite = true ↔ q < 2 ^ 1024
  generalize x.toModel.unpack = u at *
  cases h with
  | finite _ hplace he hq => exact iff_of_true rfl (hq ▸ hplace.amount_lt_range he)
  | infinity hq => exact iff_of_false (by simp [UnpackedFloat.isFinite]) hq.not_gt

/-- The value of a finite double is what it denotes. -/
lemma Denotes.value_eq (h : Denotes q x.toModel.unpack) (hfinite : x.isFinite = true) :
    value x = q := by
  replace hfinite : x.toModel.unpack.isFinite = true := hfinite
  unfold value
  generalize x.toModel.unpack = u at *
  cases h with
  | finite hm hplace he hq => exact hq
  | infinity hq => simp [UnpackedFloat.isFinite] at hfinite

/-- What is not negative is zero, or it denotes a number.

**Proof sketch.** What is at least zero has a rank that is at least that of zero, which excludes
what is not a number and what is negative. What is left is zero, infinite, or finite and
positive. -/
lemma zero_or_denotes (h : 0 ≤ y) :
    (∃ s, y.toModel.unpack = .zero s) ∨ ∃ r, Denotes r y.toModel.unpack := by
  obtain ⟨a, b, ha, hb, hab⟩ := le_iff_rank.1 h
  obtain rfl : toLex (0, toLex (0, 0)) = a := Option.some.inj ha
  cases hu : y.toModel.unpack with
  | notANumber => simp [hu, rank] at hb
  | zero s => exact .inl ⟨s, rfl⟩
  | infinity s =>
    rw [hu] at hb
    cases s with
    | negative =>
      obtain rfl := Option.some.inj hb
      simp [Prod.Lex.le_iff] at hab
    | positive => exact .inr ⟨_, .infinity le_rfl⟩
  | finite s m e hm =>
    rw [hu] at hb
    cases s with
    | negative =>
      obtain rfl := Option.some.inj hb
      simp [Prod.Lex.le_iff] at hab
    | positive =>
      obtain ⟨hplace, he⟩ := isPlace_of_unpack hu
      exact .inr ⟨_, .finite hm hplace he rfl⟩

/-- A positive double denotes its value, if it is finite. -/
lemma denotes_value (hx : 0 < x) (hfinite : x.isFinite = true) :
    Denotes (value x) x.toModel.unpack := by
  rcases zero_or_denotes (le_of_lt hx) with ⟨s, hzero⟩ | ⟨r, hr⟩
  · obtain ⟨a, b, ha, hb, hab⟩ := lt_iff_rank.1 hx
    obtain rfl : toLex (0, toLex (0, 0)) = a := Option.some.inj ha
    rw [hzero] at hb
    obtain rfl := Option.some.inj hb
    exact absurd hab (lt_irrefl _)
  · rwa [hr.value_eq hfinite]

/-- What denotes a number is positive. -/
lemma Denotes.zero_lt (h : Denotes q x.toModel.unpack) : 0 < x := by
  refine lt_iff_rank.2 ⟨toLex (0, toLex (0, 0)), ?_⟩
  generalize x.toModel.unpack = u at *
  cases h <;> exact ⟨_, rfl, rfl, by simp [Prod.Lex.lt_iff]⟩

/-- **Doubles compare** as what they denote, at least if the smaller one is finite.

**Proof sketch.** Doubles are compared by their ranks, and places by the numbers that they stand
for, which `IsPlace.amount_lt_iff` shows to be the same. Infinity is greater than any place. -/
lemma Denotes.lt_iff (hx : Denotes q x.toModel.unpack) (hfinite : x.isFinite = true)
    (hy : Denotes r y.toModel.unpack) : x < y ↔ q < r := by
  replace hfinite : x.toModel.unpack.isFinite = true := hfinite
  rw [lt_iff_rank]
  generalize x.toModel.unpack = u at *
  generalize y.toModel.unpack = v at *
  cases hx with
  | infinity hq => simp [UnpackedFloat.isFinite] at hfinite
  | finite hm hplace he hq =>
    subst hq
    cases hy with
    | infinity hr => simp [rank, Prod.Lex.lt_iff, (hplace.amount_lt_range he).trans_le hr]
    | finite hm' hplace' he' hr =>
      subst hr
      rw [hplace.amount_lt_iff hplace']
      simp [rank, Prod.Lex.lt_iff]

end Denotes

/-! ## Rounding -/

section Round

variable {m l : ℕ} {e k : ℤ}

/-- The place of the last digit of a rounded number. -/
def lastDigit (m : ℕ) (e : ℤ) : ℤ := max (m.log2 + e - 52) (-1074)

/-- The exponent that a number is rounded to is that of its last digit, or of the last place that
there is. -/
lemma targetExponent_eq_lastDigit (m : ℕ) (e : ℤ) :
    Format.binary64.targetExponent (totalExponent m e) = lastDigit m e := by
  simp only [Format.targetExponent, totalExponent, Format.mantissaBits, Format.minExponent,
    lastDigit]
  omega

/-- Digits that are all zero can be dropped. -/
lemma shiftRight_exact (l n : ℕ) :
    ExtendedMantissa.mk (l * 2 ^ n) false false >>> n = ⟨l, false, false⟩ := by
  change n.repeat ExtendedMantissa.shiftRightOne ⟨l * 2 ^ n, false, false⟩ = _
  induction n generalizing l with
  | zero => simp [Nat.repeat]
  | succ n ih =>
    change ExtendedMantissa.shiftRightOne
      (n.repeat ExtendedMantissa.shiftRightOne ⟨l * 2 ^ (n + 1), false, false⟩) = _
    rw [pow_succ', ← mul_assoc, ih]
    simp [ExtendedMantissa.shiftRightOne]

/-- A number with digits behind its last place is cut off there. By how many digits, the difference
of the exponents says. -/
lemma shiftToTargetExponent_of_le (h : e ≤ lastDigit m e) :
    shiftToTargetExponent Format.binary64 m e .exact =
      (ExtendedMantissa.mk m false false >>> (lastDigit m e - e).toNat, lastDigit m e) := by
  simp only [shiftToTargetExponent, shiftToExponent, targetExponent_eq_lastDigit,
    ExtendedMantissa.ofMantissaAndAccuracy, Prod.mk.injEq, true_and]
  omega

/-- The digits that rounding keeps are a place.

**Proof sketch.** The digits that are kept are fewer than 54, as the rest is divided away. They are
exactly 53 unless the exponent is the least one. -/
lemma isPlace_div (hm : 0 < m) (h : e ≤ lastDigit m e) :
    IsPlace (m / 2 ^ (lastDigit m e - e).toNat) (lastDigit m e) := by
  have hlow : 2 ^ m.log2 ≤ m := Nat.log2_self_le hm.ne'
  have hhigh : m < 2 ^ (m.log2 + 1) := Nat.lt_log2_self
  generalize ht : lastDigit m e = t at *
  unfold lastDigit at ht
  refine ⟨?_, by omega, ?_⟩
  · rw [Nat.div_lt_iff_lt_mul (Nat.two_pow_pos _), ← pow_add]
    exact hhigh.trans_le (Nat.pow_le_pow_right two_pos (by omega))
  · by_cases hleast : t = -1074
    · exact .inl hleast
    · right
      rw [Nat.le_div_iff_mul_le (Nat.two_pow_pos _), ← pow_add]
      exact (Nat.pow_le_pow_right two_pos (by omega)).trans hlow

/-- Rounding does not go below what is kept.

**Proof sketch.** If what is kept were less, then the next larger number of this length would be at
most the given one, but it exceeds everything that is rounded down to what is kept. -/
lemma IsPlace.amount_le_div (h : IsPlace l k) (hm : 0 < m) (he : e ≤ lastDigit m e)
    (hle : amount l k ≤ amount m e) :
    amount l k ≤ amount (m / 2 ^ (lastDigit m e - e).toNat) (lastDigit m e) := by
  have hplace := isPlace_div hm he
  obtain ⟨n, hn⟩ : ∃ n : ℕ, lastDigit m e = e + n := ⟨(lastDigit m e - e).toNat, by omega⟩
  have hcount : (lastDigit m e - e).toNat = n := by omega
  rw [hcount, hn] at hplace ⊢
  -- what is above the digits that are kept is at least by one digit larger
  by_contra hlt
  have hnext := hplace.amount_succ_le h ((hplace.amount_lt_iff h).1 (not_le.1 hlt))
  have hdigits : m < (m / 2 ^ n + 1) * 2 ^ n := by
    rw [Nat.mul_comm]
    exact Nat.lt_mul_div_succ m (Nat.two_pow_pos n)
  refine (hle.trans_lt (amount_lt_amount hdigits e)).not_ge ?_
  rwa [amount_mul_two_pow]

/-- What is left of a mantissa after rounding it. -/
def roundedDigits (m : ℕ) (e : ℤ) : ℕ :=
  (ExtendedMantissa.mk m false false >>> (lastDigit m e - e).toNat).roundedMantissa

/-- The mantissa is cut off, or it is rounded up. -/
lemma roundedDigits_bounds (m : ℕ) (e : ℤ) :
    m / 2 ^ (lastDigit m e - e).toNat ≤ roundedDigits m e ∧
      roundedDigits m e ≤ m / 2 ^ (lastDigit m e - e).toNat + 1 := by
  have h := roundedMantissa_bounds
    (ExtendedMantissa.mk m false false >>> (lastDigit m e - e).toNat)
  rwa [mantissa_shiftRight] at h

/-- Of a number that has enough digits only zeros are dropped.

**Proof sketch.** The digits that rounding drops are among the zeros at the end, as the others are
no more than 53. So they are shifted out exactly, and the place moves up by as many. -/
lemma amount_roundedDigits {c j : ℕ} (hc : 0 < c) (hshort : c < 2 ^ 53) (hj : -1074 ≤ e + j)
    (he : e ≤ lastDigit (c * 2 ^ j) e) :
    amount (roundedDigits (c * 2 ^ j) e) (lastDigit (c * 2 ^ j) e) = amount c (e + j) := by
  have hpow : c * 2 ^ j < 2 ^ (53 + j) := by
    rw [pow_add]
    exact Nat.mul_lt_mul_of_pos_right hshort (Nat.two_pow_pos j)
  have hlog : (c * 2 ^ j).log2 < 53 + j := (Nat.log2_lt (by positivity)).2 hpow
  have hlast : lastDigit (c * 2 ^ j) e ≤ e + j := by
    unfold lastDigit
    omega
  obtain ⟨n, hn⟩ : ∃ n : ℕ, lastDigit (c * 2 ^ j) e = e + n :=
    ⟨(lastDigit (c * 2 ^ j) e - e).toNat, by omega⟩
  obtain ⟨i, rfl⟩ : ∃ i, j = i + n := ⟨j - n, by omega⟩
  have hcount : (lastDigit (c * 2 ^ (i + n)) e - e).toNat = n := by omega
  have hexact : roundedDigits (c * 2 ^ (i + n)) e = c * 2 ^ i := by
    rw [roundedDigits, hcount, pow_add, ← mul_assoc, shiftRight_exact]
    rfl
  rw [hexact, hn, amount_mul_two_pow]
  congr 1
  omega

/-- A mantissa that was rounded up to the next power of two is a place again after one more
shift.

**Proof sketch.** A mantissa of no more than 53 digits fits as it is. If it has become the power of
two with one digit more, it ends with a zero, which the second shift drops. -/
lemma exists_shiftToTargetExponent_eq {r : ℕ} {t : ℤ} (hr : r ≤ 2 ^ 53) (ht : -1074 ≤ t)
    (hfull : t = -1074 ∨ 2 ^ 52 ≤ r) :
    ∃ m' e', (shiftToTargetExponent Format.binary64 r t .exact).1.mantissa = m' ∧
      (shiftToTargetExponent Format.binary64 r t .exact).2 = e' ∧ IsPlace m' e' ∧
      amount m' e' = amount r t := by
  rcases hr.lt_or_eq with hlt | rfl
  · have hlog : r.log2 ≤ 52 := by
      rcases Nat.eq_zero_or_pos r with rfl | hpos
      · decide
      · exact Nat.le_of_lt_succ ((Nat.log2_lt hpos.ne').2 hlt)
    have hfit : lastDigit r t = t := by
      rcases hfull with rfl | hlong
      · unfold lastDigit
        omega
      · have hlog' : 52 ≤ r.log2 := (Nat.le_log2 (by omega)).2 hlong
        unfold lastDigit
        omega
    rw [shiftToTargetExponent_of_le hfit.ge, hfit, sub_self]
    exact ⟨r, t, rfl, rfl, ⟨hlt, ht, hfull⟩, rfl⟩
  · have hlog : (2 ^ 53).log2 = 53 := Nat.log2_two_pow
    have hnext : lastDigit (2 ^ 53) t = t + 1 := by
      unfold lastDigit
      omega
    have hshift : ExtendedMantissa.mk (2 ^ 53) false false >>> 1 = ⟨2 ^ 52, false, false⟩ :=
      shiftRight_exact (2 ^ 52) 1
    rw [shiftToTargetExponent_of_le (by omega), hnext, add_sub_cancel_left, Int.toNat_one, hshift]
    exact ⟨2 ^ 52, t + 1, rfl, rfl, ⟨by decide, by omega, .inr le_rfl⟩,
      (amount_mul_two_pow (2 ^ 52) 1 t).symm⟩

/-- **Rounding** a positive number yields what its digits stand for that are left.

**Proof sketch.** What is left of the digits is a place, or the next power of two, and then a place
after one more shift. Its number is not changed by that, and packing denotes the number of a
place. -/
lemma denotes_round (hm : 0 < m) (he : e ≤ lastDigit m e) (hr : 0 < roundedDigits m e) :
    Denotes (amount (roundedDigits m e) (lastDigit m e))
      (Float.Model.pack (roundWithAccuracy Format.binary64 .positive m e .exact)).unpack := by
  have hkept := isPlace_div hm he
  obtain ⟨hround, hround'⟩ := roundedDigits_bounds m e
  obtain ⟨m', e', hm', he', hplace, hamount⟩ :=
    exists_shiftToTargetExponent_eq (hround'.trans hkept.short) hkept.low
      (hkept.full.imp_right hround.trans')
  have hne : m' ≠ 0 := by
    rintro rfl
    exact (amount_pos hr (lastDigit m e)).ne (by rw [← hamount]; simp [amount])
  have hfinite : roundWithAccuracy Format.binary64 .positive m e .exact =
      .finite .positive m' e' (Nat.pos_of_ne_zero hne) := by
    rw [roundedDigits] at hm' he'
    unfold roundWithAccuracy
    rw [shiftToTargetExponent_of_le he]
    dsimp only
    simp only [hm', he', dif_neg hne]
  rw [hfinite, ← hamount]
  exact denotes_pack _ hplace

/-- A number that has enough digits is rounded to itself. -/
lemma denotes_round_exact {c j : ℕ} (hc : 0 < c) (hshort : c < 2 ^ 53) (hj : -1074 ≤ e + j)
    (he : e ≤ lastDigit (c * 2 ^ j) e) :
    Denotes (amount c (e + j)) (Float.Model.pack (roundWithAccuracy Format.binary64 .positive
      (c * 2 ^ j) e .exact)).unpack := by
  have hamount := amount_roundedDigits hc hshort hj he
  have hpos : roundedDigits (c * 2 ^ j) e ≠ 0 := by
    intro hzero
    rw [hzero] at hamount
    exact (amount_pos hc (e + j)).ne (by rw [← hamount]; simp [amount])
  rw [← hamount]
  exact denotes_round (by positivity) he (Nat.pos_of_ne_zero hpos)

/-- A number that is not below a place is not rounded below it. -/
lemma exists_denotes_round (h : IsPlace l k) (hl : 0 < l) (hm : 0 < m) (he : e ≤ lastDigit m e)
    (hle : amount l k ≤ amount m e) :
    ∃ q, amount l k ≤ q ∧ Denotes q
      (Float.Model.pack (roundWithAccuracy Format.binary64 .positive m e .exact)).unpack := by
  have hfloor : amount l k ≤ amount (roundedDigits m e) (lastDigit m e) :=
    (h.amount_le_div hm he hle).trans (amount_le_amount (roundedDigits_bounds m e).1 _)
  have hpos : roundedDigits m e ≠ 0 := by
    intro hzero
    rw [hzero] at hfloor
    exact (amount_pos hl k).not_ge (hfloor.trans (by simp [amount]))
  exact ⟨_, hfloor, denotes_round hm he (Nat.pos_of_ne_zero hpos)⟩

end Round

/-! ## Products and sums -/

section Operations

variable {q : ℚ} {x y : Float} {u : UnpackedFloat}

/-- A power of two that is not too large is in place: its 53 digits are a one and zeros. -/
lemma isPlace_two_pow {k : ℕ} (hk : k < 1024) : IsPlace (2 ^ 52) (k - 52) :=
  ⟨by decide, by omega, .inr le_rfl⟩

/-- And it stands for what it says. -/
lemma amount_two_pow (k : ℕ) : amount (2 ^ 52) (k - 52) = 2 ^ k := by
  have h := amount_mul_two_pow 1 52 (k - 52)
  rw [one_mul, Nat.cast_ofNat, sub_add_cancel] at h
  rw [h, amount, Nat.cast_one, one_mul, zpow_natCast]

/-- A power of two in the range of doubles has the least mantissa of full length. -/
lemma Denotes.unpack_eq_two_pow {k : ℕ} (hy : Denotes (2 ^ k) u) (hk : k < 1024) :
    u = .finite .positive (2 ^ 52) (k - 52) (by decide) := by
  rw [← amount_two_pow] at hy
  exact hy.eq_finite _ (isPlace_two_pow hk) (by omega)

/-- **A product with a power of two** is exact.

**Proof sketch.** A power of two has a mantissa that is one digit and then zeros. So the product of
the mantissas has no more digits than before, and rounding is exact. -/
lemma Denotes.mul {k : ℕ} (hx : Denotes q x.toModel.unpack) (hfinite : x.isFinite = true)
    (hy : Denotes (2 ^ k) y.toModel.unpack) (hk : k < 1024) :
    Denotes (q * 2 ^ k) (x * y).toModel.unpack := by
  replace hfinite : x.toModel.unpack.isFinite = true := hfinite
  change Denotes _ (Float.Model.pack (UnpackedFloat.mul Format.binary64 x.toModel.unpack
    y.toModel.unpack)).unpack
  rw [hy.unpack_eq_two_pow hk]
  generalize x.toModel.unpack = u at *
  cases hx with
  | infinity hq => simp [UnpackedFloat.isFinite] at hfinite
  | @finite m e hm hplace he hq =>
    subst hq
    have hproduct : amount m (e + (k - 52) + (52 : ℕ)) = amount m e * 2 ^ k := by
      rw [← amount_add_natCast]
      congr 1
      omega
    have hlog : 52 ≤ (m * 2 ^ 52).log2 :=
      (Nat.le_log2 (by positivity)).2 (Nat.le_mul_of_pos_left _ hm)
    have hlow := hplace.low
    rw [← hproduct]
    exact denotes_round_exact hm hplace.short (by omega) (by unfold lastDigit; omega)

/-- Infinity is packed and unpacked as it is. -/
lemma unpack_pack_infinity :
    (Float.Model.pack (.infinity .positive)).unpack = .infinity .positive := rfl

/-- What is added to zero stays what it is. -/
lemma Denotes.add_zero {s : Sign} (hx : Denotes q x.toModel.unpack)
    (hy : y.toModel.unpack = .zero s) : Denotes q (x + y).toModel.unpack := by
  change Denotes _ (Float.Model.pack (UnpackedFloat.add Format.binary64 x.toModel.unpack
    y.toModel.unpack)).unpack
  rw [hy]
  generalize x.toModel.unpack = u at *
  cases hx with
  | infinity hq => exact unpack_pack_infinity ▸ .infinity hq
  | finite hm hplace he hq => exact hq ▸ denotes_pack hm hplace

/-- A number that has too many digits, if any, is normalized by rounding it. -/
lemma normalize_eq {m : ℕ} {e : ℤ} (hm : 0 < m) (h : e ≤ lastDigit m e) :
    UnpackedFloat.normalize Format.binary64 m e .positive =
      roundWithAccuracy Format.binary64 .positive m e .exact := by
  have hnone : (e - lastDigit m e).toNat = 0 := by omega
  unfold UnpackedFloat.normalize
  rw [compare_gt_iff_gt.2 (by omega)]
  simp only [UnpackedFloat.round, targetExponent_eq_lastDigit, decreaseExponent, hnone,
    Int.toNat_natCast, Nat.shiftLeft_zero, Nat.cast_zero, sub_zero]

/-- A sum of two places, before it is rounded: it has all digits that rounding keeps.

**Proof sketch.** Both mantissas are shifted to the smaller one of the two exponents, at which they
are added. Either this is the least exponent of all, or the mantissa that was not shifted has full
length, so that the sum has all digits that it needs. -/
lemma exists_add_eq {m₁ m₂ : ℕ} {e₁ e₂ : ℤ} (hm₁ : 0 < m₁) (hm₂ : 0 < m₂) (h₁ : IsPlace m₁ e₁)
    (h₂ : IsPlace m₂ e₂) :
    ∃ m e, UnpackedFloat.add Format.binary64 (.finite .positive m₁ e₁ hm₁)
        (.finite .positive m₂ e₂ hm₂) = roundWithAccuracy Format.binary64 .positive m e .exact ∧
      0 < m ∧ e ≤ lastDigit m e ∧ amount m e = amount m₁ e₁ + amount m₂ e₂ := by
  obtain ⟨c₁, hc₁⟩ : ∃ c : ℕ, e₁ = min e₁ e₂ + c := ⟨(e₁ - min e₁ e₂).toNat, by omega⟩
  obtain ⟨c₂, hc₂⟩ : ∃ c : ℕ, e₂ = min e₁ e₂ + c := ⟨(e₂ - min e₁ e₂).toNat, by omega⟩
  generalize he : min e₁ e₂ = e at hc₁ hc₂
  have hshift₁ : (e₁ - e).toNat = c₁ := by omega
  have hshift₂ : (e₂ - e).toNat = c₂ := by omega
  have hpos : 0 < m₁ * 2 ^ c₁ + m₂ * 2 ^ c₂ := by positivity
  have hdigits : e ≤ lastDigit (m₁ * 2 ^ c₁ + m₂ * 2 ^ c₂) e := by
    rcases Decidable.eq_or_ne e (-1074) with rfl | hne
    · exact le_max_right ..
    · -- one of the two mantissas is not shifted, and has full length
      have hlong : 2 ^ 52 ≤ m₁ * 2 ^ c₁ + m₂ * 2 ^ c₂ := by
        rcases min_choice e₁ e₂ with hmin | hmin
        · exact (h₁.full.resolve_left (by omega)).trans
            ((Nat.le_mul_of_pos_right m₁ (Nat.two_pow_pos c₁)).trans (Nat.le_add_right _ _))
        · exact (h₂.full.resolve_left (by omega)).trans
            ((Nat.le_mul_of_pos_right m₂ (Nat.two_pow_pos c₂)).trans (Nat.le_add_left _ _))
      have hlog := (Nat.le_log2 hpos.ne').2 hlong
      unfold lastDigit
      omega
  refine ⟨m₁ * 2 ^ c₁ + m₂ * 2 ^ c₂, e, ?_, hpos, hdigits, ?_⟩
  · rw [← normalize_eq hpos hdigits]
    simp only [UnpackedFloat.add, he, decreaseExponent, hshift₁, hshift₂, Nat.shiftLeft_eq,
      Sign.apply, Nat.cast_add]
  · rw [amount_add, amount_mul_two_pow, amount_mul_two_pow, ← hc₁, ← hc₂]

/-- **A sum** is at least what was added to.

**Proof sketch.** Nothing is changed if zero is added, and infinity stays what it is. For two finite
numbers the sum is exact before it is rounded, and at least the first one; and rounding does not
take it below that, as that is a double. -/
lemma Denotes.exists_add (hx : Denotes q x.toModel.unpack) (hy : 0 ≤ y) :
    ∃ r, q ≤ r ∧ Denotes r (x + y).toModel.unpack := by
  rcases zero_or_denotes hy with ⟨s, hzero⟩ | ⟨p, hp⟩
  · exact ⟨q, le_rfl, hx.add_zero hzero⟩
  · change ∃ r, q ≤ r ∧ Denotes r (Float.Model.pack (UnpackedFloat.add Format.binary64
      x.toModel.unpack y.toModel.unpack)).unpack
    generalize x.toModel.unpack = u at *
    generalize y.toModel.unpack = v at *
    have hinfinite : ∃ r, q ≤ r ∧
        Denotes r (Float.Model.pack (.infinity .positive)).unpack :=
      ⟨max q (2 ^ 1024), le_max_left .., unpack_pack_infinity ▸ .infinity (le_max_right ..)⟩
    cases hx with
    | infinity hq => cases hp <;> exact hinfinite
    | finite hm hplace he hq =>
      cases hp with
      | infinity hr => exact hinfinite
      | finite hm' hplace' he' hr =>
        obtain ⟨m, e, hadd, hpos, hdigits, hsum⟩ := exists_add_eq hm hm' hplace hplace'
        rw [hadd, ← hq]
        refine exists_denotes_round hplace hm hpos hdigits ?_
        rw [hsum]
        exact le_add_of_nonneg_right (amount_pos hm' _).le

end Operations

end NodeKeeper.Binary

namespace NodeKeeper.Decimal

open Binary Float.Model

/-- A power of two is multiplied by no power of ten. -/
lemma ofScientific_two_pow (k : ℕ) : UnpackedFloat.ofScientific Format.binary64 (2 ^ k) 0 =
    UnpackedFloat.roundWithAccuracy Format.binary64 .positive (1 * 2 ^ (k + 53)) (-53) .exact := by
  have hbits : (2 : ℤ) ^ Format.binary64.exponentBits = 2048 := rfl
  have hdigits : (2 ^ k) <<< Format.binary64.mantissaBits * 10 ^ (0 : ℤ).toNat =
      1 * 2 ^ (k + 53) := by
    rw [Int.toNat_zero, pow_zero, mul_one, one_mul, Nat.shiftLeft_eq, ← pow_add]
    rfl
  rw [UnpackedFloat.ofScientific, dif_neg (Nat.two_pow_pos k).ne', if_neg (by omega),
    if_neg (by omega), if_pos le_rfl]
  simp only [UnpackedFloat.mul, hdigits]
  rfl

/-- A power of two is rounded to itself. -/
lemma denotes_ofScientific (k : ℕ) : Denotes (2 ^ k)
    (Float.Model.pack (UnpackedFloat.ofScientific Format.binary64 (2 ^ k) 0)).unpack := by
  have hamount : amount 1 (-53 + (k + 53 : ℕ)) = 2 ^ k := by
    rw [amount, Nat.cast_one, one_mul, show (-53 : ℤ) + (k + 53 : ℕ) = k by omega, zpow_natCast]
  have hlog : (1 * 2 ^ (k + 53)).log2 = k + 53 := by rw [one_mul, Nat.log2_two_pow]
  rw [ofScientific_two_pow, ← hamount]
  exact denotes_round_exact (by decide) (by decide) (by omega) (by unfold lastDigit; omega)

/-- An integer that becomes a float is rounded as the natural number that it is. -/
lemma toModel_toFloat (n : UInt64) : n.toFloat.toModel = Float.Model.ofNat n.toNat := rfl

/-- A whole number that is a power of two is converted as it is, and multiplied by one.

**Proof sketch.** A number of fewer than 54 digits is converted without rounding. To multiply by one
rounds a value that is a float already. -/
lemma denotes_toFloat_mul_one {k : ℕ} (hk : k < 53) : Denotes (2 ^ k)
    ((2 ^ k : ℕ).toUInt64.toFloat * Float.ofBits 0x3FF0000000000000).toModel.unpack := by
  have hshort : 2 ^ k < 2 ^ 53 := Nat.pow_lt_pow_right (by decide) hk
  have hnat : (2 ^ k).toUInt64.toNat = 2 ^ k := by
    rw [Nat.toUInt64, UInt64.toNat_ofNat', Nat.mod_eq_of_lt (hshort.trans (by decide))]
  have hwhole : Denotes (2 ^ k) (2 ^ k : ℕ).toUInt64.toFloat.toModel.unpack := by
    rw [toModel_toFloat, hnat, unpack_ofNat (Nat.two_pow_pos k) hshort]
    simp only [Nat.log2_two_pow, Nat.shiftLeft_eq, ← pow_add, show k + (52 - k) = 52 by omega]
    exact .finite _ (isPlace_two_pow (by omega)) (by omega) (amount_two_pow k)
  have hfinite := hwhole.isFinite_iff.2 (pow_lt_pow_right₀ one_lt_two (by omega))
  have hone : Denotes (2 ^ 0) (Float.ofBits 0x3FF0000000000000).toModel.unpack :=
    .finite (by decide) (isPlace_two_pow (k := 0) (by decide)) (by decide) (amount_two_pow 0)
  have hproduct := hwhole.mul hfinite hone (by decide)
  rwa [pow_zero, mul_one] at hproduct

/-- A power of two that is written with a shift is the same float as the one that is written with
its digits.

**Proof sketch.** Both are converted through their digits, and a power of two below the largest
exponent has few enough of them. -/
lemma ofInt_two_pow {k : ℕ} (hk : k < 1024) :
    ofInt (1 <<< k : ℕ) = Float.ofScientific (2 ^ k) false 0 := by
  have hdigits : digitCount (2 ^ k) ≤ 310 := by
    refine (Nat.length_toDigits_le_iff (by decide) (by decide)).2 ?_
    calc 2 ^ k < 2 ^ 1024 := Nat.pow_lt_pow_right (by decide) hk
      _ < 10 ^ 310 := by decide +kernel
  have hsign : ¬ decide (((1 <<< k : ℕ) : ℤ) < 0) = true := by
    simpa using Int.natCast_nonneg (1 <<< k)
  unfold ofInt negateIf toFloat
  dsimp only
  rw [if_neg hsign, Int.natAbs_natCast, Nat.one_shiftLeft, if_neg (by simp), if_neg (by omega)]
  rfl

/-- **A power of two** in the range of doubles is a double. -/
theorem denotes_ofInt {k : ℕ} (hk : k < 1024) :
    Denotes (2 ^ k) (ofInt (1 <<< k : ℕ)).toModel.unpack := by
  rw [ofInt_two_pow hk]
  unfold Float.ofScientific
  split
  · next h => exact denotes_toFloat_mul_one ((Nat.pow_lt_pow_iff_right (by decide)).1 h.1)
  · exact denotes_ofScientific k

end NodeKeeper.Decimal
