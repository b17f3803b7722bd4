import Mathlib.Data.List.Lex
import Mathlib.Data.String.Basic

/-!
# Padded decimals

The decimal digits of a number, padded with zeros to a fixed width.  Numbers that fit
the width are ordered as their paddings are, character by character, and so are texts
that begin with them.
-/

namespace Hydrogenuine.Support

/-- The decimal digits of `n`, padded to `width` with zeros. -/
def padded (width n : ℕ) : List Char := (Nat.toDigits 10 n).leftpad width '0'

section Digits

theorem ofDigitChars_padded (width n : ℕ) :
    Nat.ofDigitChars 10 (padded width n) 0 = n := by
  unfold padded List.leftpad
  rw [Nat.ofDigitChars_append, Nat.ofDigitChars_replicate_zero, Nat.mul_zero,
    Nat.ofDigitChars_ten_toDigits]

theorem length_padded {width n : ℕ} (hwidth : 0 < width) (hn : n < 10 ^ width) :
    (padded width n).length = width := by
  have hlength : (Nat.toDigits 10 n).length ≤ width :=
    (Nat.length_toDigits_le_iff (by decide) hwidth).mpr hn
  simp [padded, List.leftpad]
  omega

theorem isDigit_of_mem_padded {width n : ℕ} {c : Char} (h : c ∈ padded width n) :
    c.isDigit = true := by
  unfold padded List.leftpad at h
  rcases List.mem_append.mp h with hzero | hdigit
  · rw [List.eq_of_mem_replicate hzero]
    rfl
  · exact Nat.isDigit_of_mem_toDigits (by decide) (by decide) hdigit

theorem digit_bounds {c : Char} (h : c.isDigit = true) :
    '0'.toNat ≤ c.toNat ∧ c.toNat - '0'.toNat < 10 := by
  simp only [Char.isDigit, Bool.and_eq_true, decide_eq_true_eq] at h
  obtain ⟨hlow, hhigh⟩ := h
  have hlow' : '0'.toNat ≤ c.toNat := hlow
  have hhigh' : c.toNat ≤ '9'.toNat := hhigh
  have h0 : '0'.toNat = 48 := rfl
  have h9 : '9'.toNat = 57 := rfl
  omega

/-- The value of digits that follow a first one. -/
theorem ofDigitChars_cons_zero (c : Char) (l : List Char) :
    Nat.ofDigitChars 10 (c :: l) 0 =
      10 ^ l.length * (c.toNat - '0'.toNat) + Nat.ofDigitChars 10 l 0 := by
  rw [Nat.ofDigitChars_cons, Nat.ofDigitChars_eq_ofDigitChars_zero, Nat.mul_zero,
    Nat.zero_add]

/-- Digits have a value below the power of their number. -/
theorem ofDigitChars_lt {l : List Char} (h : ∀ c ∈ l, c.isDigit = true) :
    Nat.ofDigitChars 10 l 0 < 10 ^ l.length := by
  induction l with
  | nil => simp
  | cons c l ih =>
      obtain ⟨hc, hl⟩ := List.forall_mem_cons.mp h
      have hrest := ih hl
      obtain ⟨-, hdigit⟩ := digit_bounds hc
      rw [ofDigitChars_cons_zero, List.length_cons, Nat.pow_succ]
      calc 10 ^ l.length * (c.toNat - '0'.toNat) + Nat.ofDigitChars 10 l 0
          < 10 ^ l.length * (c.toNat - '0'.toNat) + 10 ^ l.length :=
            Nat.add_lt_add_left hrest _
        _ = 10 ^ l.length * (c.toNat - '0'.toNat + 1) := (Nat.mul_succ _ _).symm
        _ ≤ 10 ^ l.length * 10 := Nat.mul_le_mul_left _ hdigit

/-- Digits of one number of places are ordered as their values are. -/
theorem lt_of_ofDigitChars_lt
    {l l' : List Char} (hl : ∀ c ∈ l, c.isDigit = true)
    (hl' : ∀ c ∈ l', c.isDigit = true) (hlength : l.length = l'.length)
    (hlt : Nat.ofDigitChars 10 l 0 < Nat.ofDigitChars 10 l' 0) (m m' : List Char) :
    l ++ m < l' ++ m' := by
  induction l generalizing l' with
  | nil =>
      cases l' with
      | nil => exact absurd hlt (lt_irrefl _)
      | cons _ _ => cases hlength
  | cons c l ih =>
      cases l' with
      | nil => cases hlength
      | cons c' l' =>
          obtain ⟨hc, hl⟩ := List.forall_mem_cons.mp hl
          obtain ⟨hc', hl'⟩ := List.forall_mem_cons.mp hl'
          have hlength' : l.length = l'.length := Nat.succ.inj hlength
          rw [ofDigitChars_cons_zero, ofDigitChars_cons_zero, ← hlength'] at hlt
          rw [List.cons_append, List.cons_append, List.cons_lt_cons_iff]
          have hbelow' := ofDigitChars_lt hl'
          rw [← hlength'] at hbelow'
          obtain ⟨hlow, -⟩ := digit_bounds hc
          obtain ⟨hlow', -⟩ := digit_bounds hc'
          have hle : c.toNat - '0'.toNat ≤ c'.toNat - '0'.toNat := by
            by_contra hnot
            have hscaled := Nat.mul_le_mul_left (10 ^ l.length) (Nat.lt_of_not_le hnot)
            rw [Nat.succ_eq_add_one, Nat.mul_succ] at hscaled
            omega
          rcases hle.lt_or_eq with hless | hsame
          · left
            have hnat : c.toNat < c'.toNat := by omega
            exact hnat
          · right
            rw [hsame] at hlt
            have hchar : c.toNat = c'.toNat := by omega
            refine ⟨Char.toNat_inj.mp hchar, ih hl hl' hlength' ?_⟩
            exact Nat.lt_of_add_lt_add_left hlt

/-- Numbers that fit the width are ordered as their paddings are. -/
theorem padded_append_lt
    {width a b : ℕ} (hb : b < 10 ^ width) (hab : a < b) (m m' : List Char) :
    padded width a ++ m < padded width b ++ m' := by
  have hwidth : 0 < width := by
    by_contra hzero
    obtain rfl : width = 0 := Nat.eq_zero_of_not_pos hzero
    rw [Nat.pow_zero] at hb
    omega
  refine lt_of_ofDigitChars_lt (fun _ => isDigit_of_mem_padded)
    (fun _ => isDigit_of_mem_padded) ?_ ?_ m m'
  · rw [length_padded hwidth hb, length_padded hwidth (hab.trans hb)]
  · rw [ofDigitChars_padded, ofDigitChars_padded]
    exact hab

end Digits

end Hydrogenuine.Support
