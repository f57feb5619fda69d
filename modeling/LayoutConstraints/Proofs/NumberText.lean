import LayoutConstraints.Decimal
import Mathlib.Data.List.Basic

/-!
# The text of a number tells the number

A finite number is written in digits, with at most one point. The digits
read as one whole number and the count of places after the point are all
that reading it back in its format depends on (`Format.nearestDecimal`), so
two numbers of one format with the same text are the same number. The sign
and the names of the infinities and of NaN are made of other characters.

Nothing is assumed about how many digits are chosen, only that they read
back (`Format.reads_shortest`).

**Results.** `Decimal.exists_written`: positional notation, as its digits
around a point. `Binary.text_injective` for all numbers of a format.
`Binary.blank_notMem_text` and `Binary.exists_digit_of_point`: what the text
of a number cannot contain.
-/
namespace LayoutConstraints

namespace Decimal

/-! ## Positional notation -/

/-- A point between two runs of digits, left out if nothing follows it. -/
def pointed (whole fraction : List Char) : List Char :=
  if fraction = [] then whole else whole ++ '.' :: fraction

/-- The decimal is written with these digits around the point. -/
structure Written (d : Decimal) (whole fraction : List Char) : Prop where
  text : d.positional = pointed whole fraction
  whole_ne_nil : whole ≠ []
  isDigit : ∀ c ∈ whole ++ fraction, c.isDigit = true
  digits : Nat.ofDigitChars 10 (whole ++ fraction) 0 = d.digits * 10 ^ d.exponent.toNat
  places : fraction.length = (-d.exponent).toNat

theorem isDigit_of_mem_zeros {count : Nat} {c : Char} (h : c ∈ List.replicate count '0') :
    c.isDigit = true := by
  rw [List.eq_of_mem_replicate h]
  decide

theorem exists_written (d : Decimal) : ∃ whole fraction, d.Written whole fraction := by
  obtain ⟨digits, exponent⟩ := d
  have hdigits : ∀ c ∈ Nat.toDigits 10 digits, c.isDigit = true := fun c hc =>
    Nat.isDigit_of_mem_toDigits (by decide) (by decide) hc
  cases exponent with
  | ofNat zeros =>
    refine ⟨Nat.toDigits 10 digits ++ List.replicate zeros '0', [], ?_, ?_, ?_, ?_, ?_⟩
    · simp [positional, pointed]
    · simp
    · intro c hc
      rw [List.append_nil, List.mem_append] at hc
      exact hc.elim (hdigits c) isDigit_of_mem_zeros
    · rw [List.append_nil, Nat.ofDigitChars_append,
        Nat.ofDigitChars_toDigits (by decide) (by decide), Nat.ofDigitChars_replicate_zero,
        Nat.mul_comm]
      rfl
    · simp
  | negSucc n =>
    -- zeros in front leave a digit before the point
    generalize hpadded : List.replicate (n + 1 + 1 - (Nat.toDigits 10 digits).length) '0' ++
      Nat.toDigits 10 digits = padded
    have hlength : n + 1 < padded.length := by
      rw [← hpadded, List.length_append, List.length_replicate]
      omega
    have hfraction : (padded.drop (padded.length - (n + 1))).length = n + 1 := by
      rw [List.length_drop]
      omega
    have hne : padded.drop (padded.length - (n + 1)) ≠ [] := by
      intro h
      rw [h] at hfraction
      cases hfraction
    refine ⟨padded.take (padded.length - (n + 1)), padded.drop (padded.length - (n + 1)),
      ?_, ?_, ?_, ?_, hfraction⟩
    · rw [pointed, if_neg hne, ← hpadded]
      rfl
    · intro h
      have htake := congrArg List.length h
      rw [List.length_take, List.length_nil] at htake
      omega
    · intro c hc
      rw [List.take_append_drop, ← hpadded, List.mem_append] at hc
      exact hc.elim isDigit_of_mem_zeros (hdigits c)
    · rw [List.take_append_drop, ← hpadded, Nat.ofDigitChars_append,
        Nat.ofDigitChars_replicate_zero, Nat.mul_zero,
        Nat.ofDigitChars_toDigits (by decide) (by decide)]
      exact (Nat.mul_one digits).symm

theorem point_notMem {ds : List Char} (h : ∀ c ∈ ds, c.isDigit = true) : '.' ∉ ds := fun hmem =>
  absurd (h _ hmem) (by decide)

theorem pointed_injective {whole fraction whole' fraction' : List Char}
    (h : ∀ c ∈ whole ++ fraction, c.isDigit = true)
    (h' : ∀ c ∈ whole' ++ fraction', c.isDigit = true)
    (heq : pointed whole fraction = pointed whole' fraction') :
    whole = whole' ∧ fraction = fraction' := by
  obtain ⟨hw, hf⟩ := List.forall_mem_append.1 h
  obtain ⟨hw', hf'⟩ := List.forall_mem_append.1 h'
  unfold pointed at heq
  split at heq
  · next hnil =>
    split at heq
    · next hnil' => exact ⟨heq, hnil.trans hnil'.symm⟩
    · exact absurd (heq ▸ List.mem_append_right _ List.mem_cons_self) (point_notMem hw)
  · split at heq
    · exact absurd (heq ▸ List.mem_append_right _ List.mem_cons_self) (point_notMem hw')
    · obtain ⟨hwhole, -, hfraction⟩ :=
        (List.append_cons_inj_of_notMem (point_notMem hw) (point_notMem hf)).1 heq
      exact ⟨hwhole, hfraction⟩

end Decimal

namespace Format

variable (F : Format)

/-- Decimals with the same text read alike. -/
theorem nearestDecimal_of_positional {d e : Decimal} (h : d.positional = e.positional) :
    F.nearestDecimal d = F.nearestDecimal e := by
  obtain ⟨whole, fraction, hd⟩ := d.exists_written
  obtain ⟨whole', fraction', he⟩ := e.exists_written
  obtain ⟨rfl, rfl⟩ := Decimal.pointed_injective hd.isDigit he.isDigit
    (hd.text.symm.trans (h.trans he.text))
  rw [nearestDecimal, nearestDecimal, ← hd.digits, ← he.digits, ← hd.places, ← he.places]

theorem positional_shortest_injective {m n : Nat}
    (h : (F.shortest m).positional = (F.shortest n).positional) : m = n :=
  calc m = F.nearestDecimal (F.shortest m) := (eq_of_beq (F.reads_shortest m)).symm
    _ = F.nearestDecimal (F.shortest n) := F.nearestDecimal_of_positional h
    _ = n := eq_of_beq (F.reads_shortest n)

end Format

namespace Binary

variable {F : Format} {m n : Fin (F.infinity + 1)}

/-! ## Magnitudes -/

theorem digits_infinity (h : m.val = F.infinity) : digits m = ['i', 'n', 'f'] := if_pos h

theorem digits_finite (h : m.val ≠ F.infinity) : digits m = (F.shortest m).positional := if_neg h

/-- The name of infinity has no digit in it, and a decimal begins with one. -/
theorem positional_ne_infinity (d : Decimal) : d.positional ≠ ['i', 'n', 'f'] := by
  obtain ⟨whole, fraction, hd⟩ := d.exists_written
  obtain ⟨c, rest, rfl⟩ := List.exists_cons_of_ne_nil hd.whole_ne_nil
  have hc := hd.isDigit c (by simp)
  intro h
  rw [hd.text, Decimal.pointed] at h
  have hhead : c = 'i' := by split at h <;> exact (List.cons.inj h).1
  rw [hhead] at hc
  revert hc
  decide

theorem digits_injective (h : digits m = digits n) : m = n := by
  apply Fin.ext
  by_cases hm : m.val = F.infinity
  · by_cases hn : n.val = F.infinity
    · rw [hm, hn]
    · rw [digits_infinity hm, digits_finite hn] at h
      exact absurd h.symm (positional_ne_infinity _)
  · by_cases hn : n.val = F.infinity
    · rw [digits_finite hm, digits_infinity hn] at h
      exact absurd h (positional_ne_infinity _)
    · rw [digits_finite hm, digits_finite hn] at h
      exact F.positional_shortest_injective h

/-- The characters of a magnitude, a sign or a blank not among them. -/
theorem mem_digits {c : Char} (h : c ∈ digits m) :
    c.isDigit = true ∨ c ∈ ['.', 'i', 'n', 'f'] := by
  by_cases hm : m.val = F.infinity
  · rw [digits_infinity hm] at h
    exact .inr (List.mem_cons_of_mem _ h)
  · rw [digits_finite hm] at h
    obtain ⟨whole, fraction, hd⟩ := (F.shortest m).exists_written
    obtain ⟨hwhole, hfraction⟩ := List.forall_mem_append.1 hd.isDigit
    rw [hd.text, Decimal.pointed] at h
    split at h
    · exact .inl (hwhole c h)
    · rcases List.mem_append.1 h with h | h
      · exact .inl (hwhole c h)
      · rcases List.mem_cons.1 h with rfl | h
        · exact .inr List.mem_cons_self
        · exact .inl (hfraction c h)

theorem notMem_digits {c : Char} (hdigit : c.isDigit = false) (hc : c ∉ ['.', 'i', 'n', 'f']) :
    c ∉ digits m := by
  intro h
  rcases mem_digits h with h | h
  · rw [hdigit] at h
    cases h
  · exact hc h

/-! ## Numbers -/

def sign (negative : Bool) : List Char := cond negative ['-'] []

theorem notMem_sign {c : Char} (h : c ≠ '-') (negative : Bool) : c ∉ sign negative := by
  cases negative <;> simp [sign, h]

theorem toList_text_nan : (nan : Binary F).text.toList = ['N', 'a', 'N'] := by
  show "NaN".toList = _
  decide

theorem toList_text_number (negative : Bool) (m : Fin (F.infinity + 1)) :
    (number negative m).text.toList = sign negative ++ digits m := by
  cases negative <;> simp [text, sign]

theorem text_nan_ne_number (negative : Bool) (m : Fin (F.infinity + 1)) :
    (nan : Binary F).text.toList ≠ (number negative m).text.toList := by
  rw [toList_text_nan, toList_text_number]
  intro h
  have hmem : 'N' ∈ sign negative ++ digits m := by
    rw [← h]
    exact List.mem_cons_self
  rcases List.mem_append.1 hmem with hsign | hdigits
  · exact notMem_sign (by decide) negative hsign
  · exact notMem_digits (by decide) (by decide) hdigits

theorem sign_digits_injective {negative negative' : Bool}
    (h : sign negative ++ digits m = sign negative' ++ digits n) :
    negative = negative' ∧ m = n := by
  have hsign (m n : Fin (F.infinity + 1)) : '-' :: digits m ≠ digits n := by
    intro h
    have hmem : '-' ∈ digits n := by
      rw [← h]
      exact List.mem_cons_self
    exact notMem_digits (by decide) (by decide) hmem
  cases negative <;> cases negative'
  · exact ⟨rfl, digits_injective h⟩
  · exact absurd h.symm (hsign n m)
  · exact absurd h (hsign m n)
  · exact ⟨rfl, digits_injective (List.cons.inj h).2⟩

/-- Numbers of one format with the same text are the same, the two zeros told
apart by their sign. -/
theorem text_injective {x y : Binary F} (h : x.text = y.text) : x = y := by
  have hlist := congrArg String.toList h
  cases x with
  | nan =>
    cases y with
    | nan => rfl
    | number negative n => exact absurd hlist (text_nan_ne_number negative n)
  | number negative m =>
    cases y with
    | nan => exact absurd hlist.symm (text_nan_ne_number negative m)
    | number negative' n =>
      rw [toList_text_number, toList_text_number] at hlist
      obtain ⟨rfl, rfl⟩ := sign_digits_injective hlist
      rfl

theorem blank_notMem_text (x : Binary F) : ' ' ∉ x.text.toList := by
  cases x with
  | nan =>
    rw [toList_text_nan]
    decide
  | number negative m =>
    rw [toList_text_number, List.mem_append, not_or]
    exact ⟨notMem_sign (by decide) negative, notMem_digits (by decide) (by decide)⟩

/-- What follows a point in the text of a number has a digit in it. -/
theorem exists_digit_of_point {x : Binary F} {before after : List Char}
    (h : x.text.toList = before ++ '.' :: after) : ∃ c ∈ after, c.isDigit = true := by
  have hpoint : '.' ∈ before ++ '.' :: after := List.mem_append_right _ List.mem_cons_self
  cases x with
  | nan =>
    rw [← h, toList_text_nan] at hpoint
    exact absurd hpoint (by decide)
  | number negative m =>
    rw [toList_text_number] at h
    have hsign : '.' ∉ sign negative := notMem_sign (by decide) negative
    by_cases hm : m.val = F.infinity
    · rw [← h, digits_infinity hm, List.mem_append] at hpoint
      exact absurd hpoint (not_or.2 ⟨hsign, by decide⟩)
    · obtain ⟨whole, fraction, hd⟩ := (F.shortest m).exists_written
      obtain ⟨hwhole, hfraction⟩ := List.forall_mem_append.1 hd.isDigit
      have hsigned : '.' ∉ sign negative ++ whole := by
        rw [List.mem_append, not_or]
        exact ⟨hsign, Decimal.point_notMem hwhole⟩
      rw [digits_finite hm, hd.text, Decimal.pointed] at h
      split at h
      · rw [← h] at hpoint
        exact absurd hpoint hsigned
      · next hne =>
        rw [← List.append_assoc] at h
        obtain ⟨-, -, rfl⟩ :=
          (List.append_cons_inj_of_notMem hsigned (Decimal.point_notMem hfraction)).1 h
        obtain ⟨c, rest, rfl⟩ := List.exists_cons_of_ne_nil hne
        exact ⟨c, List.mem_cons_self, hfraction c List.mem_cons_self⟩

end Binary

end LayoutConstraints
