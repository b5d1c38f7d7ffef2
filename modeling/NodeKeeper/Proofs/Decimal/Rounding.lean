import Mathlib
import NodeKeeper.Decimal.Reading
import NodeKeeper.Proofs.Decimal.Order

/-!
# Rounded quotients and differences

Settings are whole numbers of milliseconds, and flows wait for doubles of seconds. Rounding does not
take a duration below its lower bound: a second or more stays at least a second. What is below a
second is a finite number of cases. Besides, an instant has no distance to itself that reaches any
positive duration.

## Main definitions

* `Binary.Reaches` — an unpacked double is at least a power of two.

## Main results

* `Binary.Reaches.div` — a rounded quotient that is at least one.
* `Decimal.not_le_of_thousandths?` — thousandths in seconds stay above their bounds.
* `Binary.le_zero_of_le_sub_self` — an instant has no distance to itself.

## Implementation notes

A bound on the exponent is all that is shown of a rounded double. The mantissa is known to be as
long as it can be, so that the exponent decides comparisons.
-/

namespace NodeKeeper.Binary

open Float.Model UnpackedFloat

/-- An unpacked double is at least `l * 2 ^ k`, and its mantissa has full length. -/
inductive Reaches (k : ℤ) (l : ℕ) : UnpackedFloat → Prop
  | infinity : Reaches k l (.infinity .positive)
  | finite {m : ℕ} {e : ℤ} (hm : 0 < m) (hlog : m.log2 = 52) (he : k < e ∨ k = e ∧ l ≤ m) :
    Reaches k l (.finite .positive m e hm)

/-- Such a double has a place at or above that of `l * 2 ^ k`. -/
lemma Reaches.exists_rank {k : ℤ} {l : ℕ} {u : UnpackedFloat} (h : Reaches k l u) :
    ∃ r, rank u = some r ∧ toLex (1, toLex (k, (l : ℤ))) ≤ r := by
  cases h with
  | infinity => exact ⟨_, rfl, by simp [Prod.Lex.le_iff]⟩
  | finite hm hlog he => exact ⟨_, rfl, by simpa [Prod.Lex.le_iff] using he⟩

/-! ## Rounding -/

section Round

/-- Digits that are shifted out of a mantissa leave the quotient. What has been lost is remembered
beside it. -/
lemma mantissa_shiftRight (em : ExtendedMantissa) (n : ℕ) :
    (em >>> n).mantissa = em.mantissa / 2 ^ n := by
  change (n.repeat ExtendedMantissa.shiftRightOne em).mantissa = _
  induction n with
  | zero => simp [Nat.repeat]
  | succ n ih =>
    change (n.repeat ExtendedMantissa.shiftRightOne em).mantissa / 2 = _
    rw [ih, Nat.div_div_eq_div_mul, pow_succ]

/-- Rounding keeps a mantissa, or takes it to the next one. -/
lemma roundedMantissa_bounds (em : ExtendedMantissa) :
    em.mantissa ≤ em.roundedMantissa ∧ em.roundedMantissa ≤ em.mantissa + 1 := by
  rcases em with ⟨m, _ | _, _ | _⟩ <;>
    simp only [ExtendedMantissa.roundedMantissa, ExtendedMantissa.accuracy,
      Accuracy.roundToNearestEven] <;> omega

/-- A number that is not too small to be normal is rounded to 53 digits, counted from its first
one. -/
lemma targetExponent_eq {m : ℕ} {e : ℤ} (h : -1022 ≤ m.log2 + e) :
    Format.binary64.targetExponent (totalExponent m e) = m.log2 + e - 52 := by
  simp only [Format.targetExponent, totalExponent, Format.mantissaBits, Format.minExponent]
  omega

/-- A mantissa that is long enough is shifted to full length. -/
lemma shiftToTargetExponent_eq {m : ℕ} {e : ℤ} (acc : Accuracy) (hm : 52 ≤ m.log2)
    (he : -1022 ≤ m.log2 + e) :
    (shiftToTargetExponent Format.binary64 m e acc).1.mantissa = m / 2 ^ (m.log2 - 52) ∧
      (shiftToTargetExponent Format.binary64 m e acc).2 = m.log2 + e - 52 := by
  have hshift : (m.log2 + e - 52 - e).toNat = m.log2 - 52 := by omega
  have hmantissa : (ExtendedMantissa.ofMantissaAndAccuracy m acc).mantissa = m := by
    rcases acc with _ | (_ | _ | _) <;> rfl
  simp only [shiftToTargetExponent, shiftToExponent, targetExponent_eq he, hshift,
    mantissa_shiftRight, hmantissa, true_and]
  omega

/-- Full length is 53 digits.

**Proof sketch.** A number of at least 53 digits is divided by the power of two that leaves 53 of
them. -/
lemma log2_div {m : ℕ} (hm : 52 ≤ m.log2) : (m / 2 ^ (m.log2 - 52)).log2 = 52 := by
  have hpos : m ≠ 0 := by
    rintro rfl
    simp at hm
  have hlow : 2 ^ 52 ≤ m / 2 ^ (m.log2 - 52) := by
    rw [Nat.le_div_iff_mul_le (Nat.two_pow_pos _), ← pow_add,
      show 52 + (m.log2 - 52) = m.log2 by omega]
    exact Nat.log2_self_le hpos
  have hhigh : m / 2 ^ (m.log2 - 52) < 2 ^ 53 := by
    rw [Nat.div_lt_iff_lt_mul (Nat.two_pow_pos _), ← pow_add,
      show 53 + (m.log2 - 52) = m.log2 + 1 by omega]
    exact Nat.lt_log2_self
  exact (Nat.log2_eq_iff (by omega)).2 ⟨hlow, hhigh⟩

/-- **Rounding** a mantissa that is long enough does not take the number below any number of full
length that it reaches.

**Proof sketch.** The mantissa is cut to 53 digits, and may be rounded up by one. Neither takes it
below a number of full length that it has reached: the cut keeps the digits that such a number has.
If rounding up makes it the next power of two, it is cut once more, which is exact. -/
lemma Reaches.round {m l : ℕ} {e k : ℤ} (acc : Accuracy) (hm : 52 ≤ m.log2)
    (he : -1022 ≤ m.log2 + e)
    (h : k < m.log2 + e - 52 ∨ k = m.log2 + e - 52 ∧ l ≤ m / 2 ^ (m.log2 - 52)) :
    Reaches k l (roundWithAccuracy Format.binary64 .positive m e acc) := by
  obtain ⟨hmantissa, hexp⟩ := shiftToTargetExponent_eq acc hm he
  have hfull := (Nat.log2_eq_iff (by
    rintro hzero
    simpa [hzero] using log2_div hm)).1 (log2_div hm)
  unfold roundWithAccuracy
  generalize shiftToTargetExponent Format.binary64 m e acc = first at *
  obtain ⟨em, e₁⟩ := first
  dsimp only at hmantissa hexp ⊢
  subst hexp
  rw [← hmantissa] at h hfull
  obtain ⟨hround, hround'⟩ := roundedMantissa_bounds em
  generalize em.roundedMantissa = r at *
  have hlog : 52 ≤ r.log2 := (Nat.le_log2 (by omega)).2 (by omega)
  obtain ⟨hmantissa₂, hexp₂⟩ := shiftToTargetExponent_eq (e := m.log2 + e - 52) .exact hlog
    (by omega)
  have hlog₂ : (shiftToTargetExponent Format.binary64 r (m.log2 + e - 52)
      .exact).1.mantissa.log2 = 52 := hmantissa₂ ▸ log2_div hlog
  have hpos : (shiftToTargetExponent Format.binary64 r (m.log2 + e - 52)
      .exact).1.mantissa ≠ 0 := by
    intro hzero
    simp [hzero] at hlog₂
  rw [dif_neg hpos]
  refine .finite _ hlog₂ ?_
  rw [hexp₂, hmantissa₂]
  -- the mantissa fits as it is, or it is rounded up to the next power of two
  rcases Nat.lt_or_ge r (2 ^ 53) with hlt | hge
  · have hlogr : r.log2 = 52 := (Nat.log2_eq_iff (by omega)).2 ⟨by omega, hlt⟩
    rw [hlogr]
    simp only [Nat.sub_self, pow_zero, Nat.div_one]
    omega
  · have hlogr : r.log2 = 53 := (Nat.log2_eq_iff (by omega)).2 ⟨hge, by omega⟩
    omega

/-- A mantissa of full length is rounded already. -/
lemma roundWithAccuracy_exact {m : ℕ} {e : ℤ} (hm : 0 < m) (hlog : m.log2 = 52) (he : -1074 ≤ e) :
    roundWithAccuracy Format.binary64 .positive m e .exact = .finite .positive m e hm := by
  have hshift : shiftToTargetExponent Format.binary64 m e .exact = (⟨m, false, false⟩, e) := by
    have hnone : (m.log2 + e - 52 - e).toNat = 0 := by omega
    simp only [shiftToTargetExponent, shiftToExponent,
      targetExponent_eq (m := m) (e := e) (by omega), hnone]
    exact Prod.ext rfl (by simp)
  simp only [roundWithAccuracy, hshift, ExtendedMantissa.roundedMantissa,
    ExtendedMantissa.accuracy, Accuracy.roundToNearestEven, hm.ne', dite_false]

end Round

/-! ## Packing -/

/-- A mantissa of full length without its leading bit, which is put in front again. -/
lemma toNat_append {m : ℕ} (hm : 0 < m) (hlog : m.log2 = 52) :
    (1#1 ++ BitVec.ofNat 52 m).toNat = m := by
  obtain ⟨hlow, hhigh⟩ := (Nat.log2_eq_iff hm.ne').1 hlog
  have hrest : (BitVec.ofNat 52 m).toNat < 2 ^ 52 := (BitVec.ofNat 52 m).isLt
  rw [BitVec.toNat_append, ← Nat.shiftLeft_add_eq_or_of_lt hrest, BitVec.toNat_ofNat]
  change 2 ^ 52 + m % 2 ^ 52 = m
  omega

/-- A number that is packed as a model of a float, and unpacked again, has been packed and unpacked
in the format. -/
lemma unpack_pack (u : UnpackedFloat) :
    (Float.Model.pack u).unpack = UnpackedFloat.unpack _ (UnpackedFloat.pack Format.binary64 u) :=
  rfl

/-- **Packing** keeps a number whose mantissa has full length, unless it is too large.

**Proof sketch.** The exponent is written with its bias in 11 bits. If it fits, it is neither zero
nor all ones, so that it is read as that of a normal number, and the mantissa gets its first digit
back. -/
lemma unpack_pack_finite {m : ℕ} {e : ℤ} (hm : 0 < m) (hlog : m.log2 = 52) (he : -1074 ≤ e) :
    (Float.Model.pack (.finite .positive m e hm)).unpack =
      if 2 ^ 11 ≤ (e + 1075).toNat + 1 then .infinity .positive else .finite .positive m e hm := by
  rw [unpack_pack]
  unfold UnpackedFloat.pack
  dsimp only
  have hbias : (e + Format.binary64.exponentBias +
      Format.binary64.mantissaBitsWithoutImplicit).toNat = (e + 1075).toNat :=
    congrArg Int.toNat (Int.add_assoc e 1023 52)
  rw [hbias]
  split
  · rfl
  · next hsmall =>
    rw [if_pos (by rw [hlog]; rfl)]
    simp only [UnpackedFloat.unpack, unpackExponent_packComponents, unpackSign_packComponents,
      unpackMantissa_packComponents]
    -- the exponent is that of a normal number: neither all ones nor zero
    have hbits : (BitVec.ofNat 11 (e + 1075).toNat).toNat = (e + 1075).toNat := by
      rw [BitVec.toNat_ofNat, Nat.mod_eq_of_lt (by omega)]
    have hones : BitVec.ofNat 11 (e + 1075).toNat ≠ -1#11 := fun h => by
      have hnat := hbits.symm.trans (congrArg BitVec.toNat h)
      have hall : (-1#11).toNat = 2047 := rfl
      omega
    have hzero : BitVec.ofNat 11 (e + 1075).toNat ≠ 0#11 := fun h => by
      have hnat := hbits.symm.trans (congrArg BitVec.toNat h)
      have hnone : (0#11).toNat = 0 := rfl
      omega
    rw [if_neg hones, if_neg hzero]
    simp only [UnpackedFloat.finite.injEq]
    refine ⟨rfl, toNat_append hm hlog, ?_⟩
    change ((BitVec.ofNat 11 (e + 1075).toNat).toNat : ℤ) - (1023 + 52) = e
    rw [hbits]
    omega

/-- What is reached is reached after packing. -/
lemma Reaches.unpack_pack {k : ℤ} {l : ℕ} {u : UnpackedFloat} (h : Reaches k l u)
    (hk : -1074 ≤ k) : Reaches k l (Float.Model.pack u).unpack := by
  cases h with
  | infinity => exact .infinity
  | finite hm hlog he =>
    rw [unpack_pack_finite hm hlog (by omega)]
    split
    · exact .infinity
    · exact .finite hm hlog he

/-! ## Quotients -/

/-- **A quotient** that reaches a number of full length reaches it after it was rounded.

**Proof sketch.** The quotient is taken with enough digits that it has full length, and the number
to be reached, moved to its place, is still at most the quotient. It is then rounded, and
`Reaches.round` applies. -/
lemma Reaches.div {m₁ m₂ l b : ℕ} {e₁ e₂ k : ℤ} (h₁ : 0 < m₁) (h₂ : 0 < m₂) (hl : 2 ^ 52 ≤ l)
    (hk : -1000 ≤ k) (hb : e₁ - e₂ - k = b) (hm : l * m₂ ≤ m₁ * 2 ^ b) :
    Reaches k l (UnpackedFloat.div Format.binary64 (.finite .positive m₁ e₁ h₁)
      (.finite .positive m₂ e₂ h₂)) := by
  have hlow₁ : 2 ^ m₁.log2 ≤ m₁ := Nat.log2_self_le h₁.ne'
  have hlow₂ : 2 ^ m₂.log2 ≤ m₂ := Nat.log2_self_le h₂.ne'
  have hhigh₁ : m₁ < 2 ^ (m₁.log2 + 1) := Nat.lt_log2_self
  have hhigh₂ : m₂ < 2 ^ (m₂.log2 + 1) := Nat.lt_log2_self
  have hlogs : 52 + m₂.log2 < m₁.log2 + 1 + b := by
    refine (Nat.pow_lt_pow_iff_right (by decide : 1 < 2)).1 ?_
    rw [pow_add, pow_add]
    exact ((Nat.mul_le_mul hl hlow₂).trans hm).trans_lt
      (Nat.mul_lt_mul_of_pos_right hhigh₁ (Nat.two_pow_pos b))
  have htarget : Format.binary64.targetExponent (totalExponent m₁ e₁ - totalExponent m₂ e₂) =
      m₁.log2 - m₂.log2 + (e₁ - e₂) - 53 := by
    simp only [Format.targetExponent, totalExponent, Format.mantissaBits, Format.minExponent]
    omega
  simp only [UnpackedFloat.div, divCore, htarget]
  generalize hT : min (e₁ - e₂) (m₁.log2 - m₂.log2 + (e₁ - e₂) - 53) = T
  obtain ⟨s, hs⟩ : ∃ s : ℕ, e₁ - e₂ - T = s := ⟨(e₁ - e₂ - T).toNat, by omega⟩
  simp only [hs, Int.toNat_natCast]
  generalize hq : m₁ <<< s / m₂ = q
  rw [Nat.shiftLeft_eq] at hq
  -- the quotient has as many digits as a mantissa needs
  have hlong : 2 ^ 52 ≤ q := by
    rw [← hq, Nat.le_div_iff_mul_le h₂]
    calc 2 ^ 52 * m₂ ≤ 2 ^ 52 * 2 ^ (m₂.log2 + 1) := Nat.mul_le_mul_left _ hhigh₂.le
      _ = 2 ^ (52 + (m₂.log2 + 1)) := (pow_add ..).symm
      _ ≤ 2 ^ (m₁.log2 + s) := Nat.pow_le_pow_right (by decide) (by omega)
      _ = 2 ^ m₁.log2 * 2 ^ s := pow_add ..
      _ ≤ m₁ * 2 ^ s := Nat.mul_le_mul_right _ hlow₁
  have hpos : q ≠ 0 := by omega
  have hlog : 52 ≤ q.log2 := (Nat.le_log2 hpos).2 hlong
  have hhighq : q < 2 ^ (q.log2 + 1) := Nat.lt_log2_self
  -- in the place of `k`, the quotient is at least `l`
  have hreach (c : ℕ) (hc : k - T = c) : l * 2 ^ c ≤ q := by
    have hsplit : s = b + c := by omega
    rw [← hq, Nat.le_div_iff_mul_le h₂]
    calc l * 2 ^ c * m₂ = l * m₂ * 2 ^ c := Nat.mul_right_comm ..
      _ ≤ m₁ * 2 ^ b * 2 ^ c := Nat.mul_le_mul_right _ hm
      _ = m₁ * 2 ^ s := by rw [hsplit, pow_add, Nat.mul_assoc]
  rcases lt_or_ge k (q.log2 + T - 52) with hlt | hge
  · exact .round _ hlog (by omega) (.inl hlt)
  · obtain ⟨c, hc⟩ : ∃ c : ℕ, k - T = c := ⟨(k - T).toNat, by omega⟩
    have hplace : 52 + c < q.log2 + 1 := by
      refine (Nat.pow_lt_pow_iff_right (by decide : 1 < 2)).1 ?_
      rw [pow_add 2 52 c]
      exact ((Nat.mul_le_mul_right _ hl).trans (hreach c hc)).trans_lt hhighq
    obtain rfl : c = q.log2 - 52 := by omega
    refine .round _ hlog (by omega) (.inr ⟨by omega, ?_⟩)
    exact (Nat.le_div_iff_mul_le (Nat.two_pow_pos _)).2 (hreach _ hc)

/-- A number that is not zero gets longer by the places that it is shifted. -/
lemma log2_shiftLeft {n k : ℕ} (hn : n ≠ 0) : (n <<< k).log2 = n.log2 + k := by
  have hlow : 2 ^ n.log2 ≤ n := Nat.log2_self_le hn
  have hhigh : n < 2 ^ (n.log2 + 1) := Nat.lt_log2_self
  rw [Nat.shiftLeft_eq,
    Nat.log2_eq_iff (Nat.mul_pos (Nat.pos_of_ne_zero hn) (Nat.two_pow_pos k)).ne',
    Nat.add_right_comm, pow_add, pow_add]
  exact ⟨Nat.mul_le_mul_right _ hlow, Nat.mul_lt_mul_of_pos_right hhigh (Nat.two_pow_pos k)⟩

/-- **A whole number** below `2 ^ 53` is a double as it is.

**Proof sketch.** The number is moved to the left until it has full length. As it has no more than
53 digits, rounding drops none of them, and packing keeps it. -/
lemma unpack_ofNat {n : ℕ} (hn : 0 < n) (hn' : n < 2 ^ 53) :
    (Float.Model.ofNat n).unpack = .finite .positive (n <<< (52 - n.log2)) (n.log2 - 52)
      (Nat.shiftLeft_pos_iff.2 hn) := by
  have hlog : n.log2 < 53 := (Nat.log2_lt hn.ne').2 hn'
  have hmantissa : (n <<< (52 - n.log2)).log2 = 52 := by
    rw [log2_shiftLeft hn.ne']
    omega
  have htarget : Format.binary64.targetExponent (totalExponent n 0) = n.log2 - 52 := by
    rw [targetExponent_eq (by omega)]
    omega
  have hshift : (0 - ((n.log2 : ℤ) - 52)).toNat = 52 - n.log2 := by omega
  have hexp : (0 : ℤ) - (52 - n.log2 : ℕ) = n.log2 - 52 := by omega
  unfold Float.Model.ofNat UnpackedFloat.ofNat UnpackedFloat.ofInt UnpackedFloat.normalize
  rw [compare_gt_iff_gt.2 (by omega)]
  simp only [UnpackedFloat.round, htarget, decreaseExponent, Int.toNat_natCast, hshift, hexp]
  rw [roundWithAccuracy_exact (Nat.shiftLeft_pos_iff.2 hn) hmantissa (by omega),
    unpack_pack_finite _ hmantissa (by omega), if_neg (by omega)]

/-! ## Doubles -/

variable {x y : Float}

/-- A double that reaches a number is above all that has a lower place. -/
lemma Reaches.not_le {k : ℤ} {l : ℕ} {r : ℤ ×ₗ ℤ ×ₗ ℤ} (h : Reaches k l x.toModel.unpack)
    (hy : rank y.toModel.unpack = some r) (hr : r < toLex (1, toLex (k, (l : ℤ)))) : ¬ x ≤ y := by
  intro hle
  obtain ⟨a, b, ha, hb, hab⟩ := le_iff_rank.1 hle
  obtain ⟨c, hc, hlt⟩ := h.exists_rank
  obtain rfl : a = c := by simpa [ha] using hc
  obtain rfl : b = r := by simpa [hb] using hy
  exact (hlt.trans hab).not_gt hr

/-- **An instant has no distance to itself**, or none that could be told.

**Proof sketch.** The difference of a finite number and itself is zero, and that of anything else
and itself is zero or not a number. Nothing is at most the latter, and what is at most zero has no
greater rank than it. -/
theorem le_zero_of_le_sub_self (h : y ≤ x - x) : y ≤ 0 := by
  have hdiff : (x - x).toModel.unpack = .zero .positive ∨ (x - x).toModel.unpack = .notANumber := by
    change (Float.Model.pack (UnpackedFloat.sub Format.binary64 x.toModel.unpack
      x.toModel.unpack)).unpack = _ ∨ (Float.Model.pack (UnpackedFloat.sub Format.binary64
      x.toModel.unpack x.toModel.unpack)).unpack = _
    rcases x.toModel.unpack with s | _ | s | ⟨s, m, e, hm⟩
    · cases s <;> exact .inr rfl
    · exact .inr rfl
    · cases s <;> exact .inl rfl
    · left
      have hcancel : UnpackedFloat.normalize Format.binary64 0 (min e e) .positive =
          .zero .positive := by
        rw [UnpackedFloat.normalize, compare_eq_iff_eq.2 rfl]
      simp only [UnpackedFloat.sub, sub_self, hcancel]
      rfl
  obtain ⟨a, b, ha, hb, hab⟩ := le_iff_rank.1 h
  rcases hdiff with hzero | hnan
  · rw [hzero] at hb
    refine le_iff_rank.2 ⟨a, b, ha, ?_, hab⟩
    rw [← hb]
    rfl
  · rw [hnan] at hb
    exact absurd hb (by simp [rank])

end NodeKeeper.Binary

namespace NodeKeeper.Decimal

open Binary Float.Model

/-- The double that is a thousand. -/
lemma unpack_thousand :
    (Float.ofBits 0x408F400000000000).toModel.unpack =
      .finite .positive (1000 <<< 43) (-43) (by decide) := rfl

/-- **Thousandths** of a whole number reach what their exact quotient reaches, at least if that is
half a second.

**Proof sketch.** If the whole number has no more than 53 digits, it is a double, and is divided by
a thousand as doubles are. If it has more, the quotient is taken of the numbers themselves. In both
cases `Reaches.div` says what it reaches. -/
lemma reaches_ofScientific {n l : ℕ} (hl : 2 ^ 52 ≤ l) (hn : l * 1000 ≤ n * 2 ^ 53) :
    Reaches (-53) l (Float.ofScientific n true 3).toModel.unpack := by
  have hpos : 0 < n := by
    rcases Nat.eq_zero_or_pos n with rfl | hpos
    · omega
    · exact hpos
  unfold Float.ofScientific
  split
  · next h =>
    have hnat : n.toUInt64.toNat = n := by
      rw [Nat.toUInt64, UInt64.toNat_ofNat', Nat.mod_eq_of_lt (by omega)]
    have hlog : n.log2 < 53 := (Nat.log2_lt hpos.ne').2 h.1
    change Reaches (-53) l (Float.Model.pack (UnpackedFloat.div Format.binary64
      (Float.Model.ofNat n.toUInt64.toNat).unpack
      (Float.ofBits 0x408F400000000000).toModel.unpack)).unpack
    rw [hnat, unpack_ofNat hpos h.1, unpack_thousand]
    refine Reaches.unpack_pack (.div (b := n.log2 + 44) _ _ hl (by decide) (by omega) ?_)
      (by decide)
    have hpower : 2 ^ (52 - n.log2) * 2 ^ (n.log2 + 44) = 2 ^ 53 * 2 ^ 43 := by
      rw [← pow_add, ← pow_add, show 52 - n.log2 + (n.log2 + 44) = 53 + 43 by omega]
    calc l * 1000 <<< 43 = l * 1000 * 2 ^ 43 := by rw [Nat.shiftLeft_eq, Nat.mul_assoc]
      _ ≤ n * 2 ^ 53 * 2 ^ 43 := Nat.mul_le_mul_right _ hn
      _ = n <<< (52 - n.log2) * 2 ^ (n.log2 + 44) := by
        rw [Nat.shiftLeft_eq, Nat.mul_assoc, Nat.mul_assoc, hpower]
  · have hbits : (2 : ℤ) ^ Format.binary64.exponentBits = 2048 := rfl
    have hquotient : UnpackedFloat.ofScientific Format.binary64 n (Int.negOfNat 3) =
        .div Format.binary64 (.finite .positive n 0 hpos)
          (.finite .positive 1000 0 (by decide)) := by
      rw [show Int.negOfNat 3 = -3 from rfl, UnpackedFloat.ofScientific, dif_neg hpos.ne',
        if_neg (by omega), if_neg (by omega), if_neg (by decide)]
      rfl
    dsimp only
    rw [if_pos rfl, Float.Model.ofScientific, hquotient]
    exact (Reaches.div _ _ hl (by decide) rfl hn).unpack_pack (by decide)

/-- A finite number of thousandths is a rounded quotient.

**Proof sketch.** The decimal point is at a place at which no number of thousandths is taken for
zero; so it is either taken for infinite, which is excluded, or computed as a quotient. -/
lemma eq_ofScientific_of_thousandths? {k : ℕ} {x : Float} (hk : k ≠ 0)
    (h : thousandths? (k : ℤ) = some x) : x = Float.ofScientific k true 3 := by
  have hsign : negateIf ((k : ℤ) < 0) (toFloat ⟨k, -3⟩) = toFloat ⟨k, -3⟩ :=
    if_neg (by simp)
  have hfloat : toFloat ⟨k, -3⟩ = 1.0 / 0.0 ∨ toFloat ⟨k, -3⟩ = Float.ofScientific k true 3 := by
    have hsmall : ¬ (k = 0 || decide ((digitCount k : ℤ) + -3 < -400)) = true := by
      simp only [Bool.or_eq_true, decide_eq_true_eq]
      omega
    unfold toFloat
    dsimp only
    rw [if_neg hsmall]
    split
    · exact .inl rfl
    · exact .inr rfl
  simp only [thousandths?, Int.natAbs_natCast, hsign] at h
  rcases hfloat with hlarge | hfloat
  · have hinfinite : (1.0 / 0.0 : Float).isFinite = false := by decide +kernel
    rw [hlarge, hinfinite] at h
    exact absurd h (by simp)
  · split at h
    · exact (Option.some.inj h).symm.trans hfloat
    · exact absurd h (by simp)

/-- **Thousandths stay above their bounds**: half a second is positive, and what is more than half a
second is so after rounding. -/
theorem not_le_of_thousandths? {n : ℤ} {x : Float} (h : thousandths? n = some x) (hn : 500 ≤ n) :
    ¬ x ≤ 0 ∧ (500 < n → ¬ x ≤ 0.5) := by
  obtain ⟨k, rfl⟩ := Int.eq_ofNat_of_zero_le (by omega : 0 ≤ n)
  rw [eq_ofScientific_of_thousandths? (by omega) h]
  have hzero : rank (0 : Float).toModel.unpack = some (toLex (0, toLex (0, 0))) := rfl
  have hhalf : rank (0.5 : Float).toModel.unpack = some (toLex (1, toLex (-53, 2 ^ 52))) := rfl
  refine ⟨(reaches_ofScientific le_rfl (by omega)).not_le hzero (by simp [Prod.Lex.lt_iff]),
    fun hgt => ?_⟩
  have hreach : Reaches (-53) (2 ^ 52 + 1) (Float.ofScientific k true 3).toModel.unpack :=
    reaches_ofScientific (by omega) (by omega)
  exact hreach.not_le hhalf (by simp [Prod.Lex.lt_iff])

end NodeKeeper.Decimal
