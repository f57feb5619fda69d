import LayoutConstraints.Binary.Rounding

/-!
# Widening is exact

A wider format has every number of a narrower one, so changing to it and
back changes nothing. The value of a magnitude is a significand, which has
few bits, times a power of two. Counted in the units of the wider format it
is the same significand times a greater power. `Format.units_nearest` says
what can be counted so: rounding is exact on a whole number of units with no
more significant bits than the format holds.

Subnormal numbers need no case of their own. Those of the narrower format
are normal in the wider one, and the exponent `Format.nearest` gives them is
the one of their leading bit.

**Results.** `Format.nearest_widened` for magnitudes; `Binary.convert_convert`
and `Binary.isFinite_convert` for numbers, with the infinities and NaN;
`Format.single_embeds`: doubles have every single.
-/
namespace LayoutConstraints

namespace Format

variable (F : Format)

/-! ## Exact rounding -/

/-- A magnitude with an implicit leading bit, by its shift and significand. -/
theorem units_shifted {shift significand : Nat} (hlow : 2 ^ F.fractionBits ≤ significand)
    (hhigh : significand < 2 ^ F.fractionBits * 2) :
    F.units (shift * 2 ^ F.fractionBits + significand) = significand * 2 ^ shift := by
  obtain ⟨fraction, rfl⟩ := Nat.exists_eq_add_of_le hlow
  have hfraction : fraction < 2 ^ F.fractionBits := by omega
  have hsplit : shift * 2 ^ F.fractionBits + (2 ^ F.fractionBits + fraction) =
      2 ^ F.fractionBits * (shift + 1) + fraction := by
    rw [Nat.mul_add, Nat.mul_one, Nat.mul_comm shift, Nat.add_assoc]
  rw [hsplit, F.units_normal, Nat.mul_add_mod, Nat.mod_eq_of_lt hfraction]
  rw [Nat.mul_add_div (Nat.two_pow_pos _), Nat.div_eq_of_lt hfraction, Nat.add_zero]

theorem units_nearest {n den : Nat} (hden : 0 < den) (hn : 2 ^ (n.log2 - F.fractionBits) ∣ n) :
    F.units (F.nearest (n * den) den) = n := by
  obtain ⟨significand, hsig⟩ := hn
  generalize hshift : n.log2 - F.fractionBits = shift at hsig
  have hpow := Nat.two_pow_pos shift
  have hround : F.nearest (n * den) den = shift * 2 ^ F.fractionBits + significand := by
    rw [F.nearest_eq (by rw [Nat.mul_div_cancel _ hden, hshift])]
    have hexact : n * den = significand * (den * 2 ^ shift) := by
      rw [hsig, Nat.mul_comm (2 ^ shift), Nat.mul_assoc, Nat.mul_comm den]
    rw [hexact, roundHalfEven_mul (Nat.mul_pos hden hpow)]
  have hhigh : significand < 2 ^ F.fractionBits * 2 := by
    have hlt : n < 2 ^ (shift + (F.fractionBits + 1)) :=
      Nat.lt_of_lt_of_le Nat.lt_log2_self (Nat.pow_le_pow_right (by decide) (by omega))
    rw [hsig, Nat.pow_add] at hlt
    exact Nat.lt_of_mul_lt_mul_left hlt
  rw [hround]
  by_cases hlow : 2 ^ F.fractionBits ≤ significand
  · rw [F.units_shifted hlow hhigh, Nat.mul_comm, ← hsig]
  · -- a significand with no leading bit is not shifted: all of `n` is below the least normal number
    have hzero : shift = 0 := by
      rcases Nat.eq_zero_or_pos shift with h | h
      · exact h
      · have hle : 2 ^ (shift + F.fractionBits) ≤ n := by
          have hne : n ≠ 0 := by
            rintro rfl
            simp at hshift
            omega
          rw [show shift + F.fractionBits = n.log2 by omega]
          exact Nat.log2_self_le hne
        rw [hsig, Nat.pow_add] at hle
        exact absurd (Nat.le_of_mul_le_mul_left hle hpow) hlow
    have hsmall : significand < 2 ^ F.fractionBits := Nat.lt_of_not_le hlow
    rw [hzero, Nat.zero_mul, Nat.zero_add, F.units_subnormal (Nat.div_eq_of_lt hsmall),
      Nat.mod_eq_of_lt hsmall, hsig, hzero, Nat.pow_zero, Nat.one_mul]

/-! ## The value of a magnitude -/

/-- The value of a magnitude has as many significant bits as the format holds. -/
theorem exists_significand (magnitude : Nat) :
    ∃ significand k, F.units magnitude = significand * 2 ^ k ∧
      significand < 2 ^ (F.fractionBits + 1) ∧ k ≤ magnitude / 2 ^ F.fractionBits := by
  have hmod := Nat.mod_lt magnitude (Nat.two_pow_pos F.fractionBits)
  cases hk : magnitude / 2 ^ F.fractionBits with
  | zero =>
    refine ⟨magnitude % 2 ^ F.fractionBits, 0, ?_, ?_, Nat.le_refl 0⟩
    · rw [F.units_subnormal hk, Nat.pow_zero, Nat.mul_one]
    · rw [Nat.pow_succ]
      omega
  | succ k =>
    refine ⟨_, k, F.units_normal hk, ?_, Nat.le_succ k⟩
    rw [Nat.pow_succ]
    omega

/-- A value below a power of two bounds the exponent. -/
theorem exponent_le_of_units_lt {magnitude k : Nat}
    (h : F.units magnitude < 2 ^ (F.fractionBits + k)) : magnitude / 2 ^ F.fractionBits ≤ k := by
  cases he : magnitude / 2 ^ F.fractionBits with
  | zero => exact Nat.zero_le k
  | succ e =>
    rw [F.units_normal he] at h
    have hle : 2 ^ (F.fractionBits + e) ≤
        (2 ^ F.fractionBits + magnitude % 2 ^ F.fractionBits) * 2 ^ e := by
      rw [Nat.pow_add]
      exact Nat.mul_le_mul_right _ (Nat.le_add_right _ _)
    have hlt := (Nat.pow_lt_pow_iff_right (by decide : 1 < 2)).1 (Nat.lt_of_le_of_lt hle h)
    omega

/-! ## Embedding one format in another -/

/-- Every number of `G` is one of `F`: the significand fits, the units of `G`
are whole units of `F`, and the greatest exponent is in range. -/
structure Embeds (G F : Format) : Prop where
  fraction : G.fractionBits ≤ F.fractionBits
  unit : G.unitExponent ≤ F.unitExponent
  range : 2 ^ G.exponentBits + (F.unitExponent - G.unitExponent) < 2 ^ F.exponentBits

theorem single_embeds : single.Embeds double where
  fraction := by decide
  unit := by decide
  range := by decide

/-- The magnitude a finite number gets in a wider format: it is finite there
and has the same value. -/
theorem nearest_widened {G F : Format} (h : G.Embeds F) {magnitude : Nat}
    (hfinite : magnitude < G.infinity) :
    F.nearest (G.units magnitude * 2 ^ F.unitExponent) (2 ^ G.unitExponent) < F.infinity ∧
      F.units (F.nearest (G.units magnitude * 2 ^ F.unitExponent) (2 ^ G.unitExponent)) *
        2 ^ G.unitExponent = G.units magnitude * 2 ^ F.unitExponent := by
  obtain ⟨hfraction, hunit, hrange⟩ := h
  obtain ⟨extra, hextra⟩ := Nat.exists_eq_add_of_le hunit
  obtain ⟨significand, k, hvalue, hsig, hk⟩ := G.exists_significand magnitude
  have hexponent : magnitude / 2 ^ G.fractionBits < 2 ^ G.exponentBits - 1 :=
    (Nat.div_lt_iff_lt_mul (Nat.two_pow_pos _)).2 hfinite
  -- in units of the wider format the value is the same significand, shifted further
  have hunits : G.units magnitude * 2 ^ F.unitExponent =
      significand * 2 ^ (k + extra) * 2 ^ G.unitExponent := by
    rw [hvalue, hextra, Nat.add_comm G.unitExponent, Nat.pow_add, Nat.pow_add]
    simp only [Nat.mul_assoc]
  have hbound : significand * 2 ^ (k + extra) < 2 ^ (F.fractionBits + (k + extra + 1)) := by
    calc significand * 2 ^ (k + extra)
        < 2 ^ (G.fractionBits + 1) * 2 ^ (k + extra) :=
          Nat.mul_lt_mul_of_pos_right hsig (Nat.two_pow_pos _)
      _ = 2 ^ (G.fractionBits + 1 + (k + extra)) := (Nat.pow_add ..).symm
      _ ≤ 2 ^ (F.fractionBits + (k + extra + 1)) :=
          Nat.pow_le_pow_right (by decide) (by omega)
  have hdvd : 2 ^ ((significand * 2 ^ (k + extra)).log2 - F.fractionBits) ∣
      significand * 2 ^ (k + extra) := by
    by_cases hzero : significand * 2 ^ (k + extra) = 0
    · rw [hzero]
      exact Nat.dvd_zero _
    · have hlog := (Nat.log2_lt hzero).2 hbound
      exact Nat.dvd_trans (Nat.pow_dvd_pow 2 (by omega)) (Nat.dvd_mul_left _ _)
  have hexact := F.units_nearest (Nat.two_pow_pos G.unitExponent) hdvd
  rw [hunits]
  refine ⟨?_, by rw [hexact]⟩
  have hle := F.exponent_le_of_units_lt (by rw [hexact]; exact hbound)
  exact (Nat.div_lt_iff_lt_mul (Nat.two_pow_pos _)).1 (by omega)

end Format

/-! ## Numbers -/

namespace Binary

variable {F G : Format}

theorem ofMagnitude_of_le (negative : Bool) {magnitude : Nat} (h : magnitude ≤ F.infinity) :
    (ofMagnitude negative magnitude : Binary F) =
      .number negative ⟨magnitude, Nat.lt_succ_of_le h⟩ := by
  simp [ofMagnitude, Nat.min_eq_left h]

/-- Changing to a wider format and back is the identity, also for zeros,
infinities and NaN. -/
theorem convert_convert (h : G.Embeds F) (x : Binary G) : (x.convert : Binary F).convert = x := by
  cases x with
  | nan => rfl
  | number negative magnitude =>
    by_cases hinf : magnitude.val = G.infinity
    · have hwide : (number negative magnitude).convert = (infinite negative : Binary F) := by
        rw [convert, if_pos hinf]
      rw [hwide, infinite, ofMagnitude_of_le negative (Nat.le_refl _), convert, if_pos rfl, infinite,
        ofMagnitude_of_le negative (Nat.le_refl _)]
      exact congrArg _ (Fin.ext hinf.symm)
    · have hle := Nat.le_of_lt_succ magnitude.isLt
      obtain ⟨hfinite, hvalue⟩ := Format.nearest_widened h (Nat.lt_of_le_of_ne hle hinf)
      have hwide : ((number negative magnitude).convert : Binary F) =
          .number negative ⟨_, Nat.lt_succ_of_le (Nat.le_of_lt hfinite)⟩ := by
        rw [convert, if_neg hinf, ofRatio, ofMagnitude_of_le negative (Nat.le_of_lt hfinite)]
      rw [hwide, convert, if_neg (Nat.ne_of_lt hfinite), ofRatio]
      simp only [hvalue, G.nearest_units magnitude.val _ (Nat.two_pow_pos F.unitExponent)]
      rw [ofMagnitude_of_le negative hle]

theorem isFinite_convert (h : G.Embeds F) (x : Binary G) :
    (x.convert : Binary F).isFinite = x.isFinite := by
  cases x with
  | nan => rfl
  | number negative magnitude =>
    by_cases hinf : magnitude.val = G.infinity
    · rw [convert, if_pos hinf, infinite, ofMagnitude_of_le negative (Nat.le_refl _)]
      simp [isFinite, hinf]
    · have hle := Nat.le_of_lt_succ magnitude.isLt
      obtain ⟨hfinite, -⟩ := Format.nearest_widened h (Nat.lt_of_le_of_ne hle hinf)
      rw [convert, if_neg hinf, ofRatio, ofMagnitude_of_le negative (Nat.le_of_lt hfinite)]
      exact (bne_iff_ne.2 (Nat.ne_of_lt hfinite)).trans (bne_iff_ne.2 hinf).symm

end Binary

end LayoutConstraints
