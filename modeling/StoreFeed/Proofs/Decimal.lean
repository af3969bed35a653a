import Mathlib.Data.List.Induction
import StoreFeed.Decimal.Natural

/-!
# Digits of natural numbers

A number is written without zeros in front, except for zero itself. It is read with any zeros in
front, and nothing but its digits behind zeros is read as the number (`natural?_eq_some_iff`).
-/

namespace StoreFeed.Decimal

/-! ## Digits as written -/

theorem isDigit_of_mem_toDigits {n : Nat} {c : Char} (h : c ∈ Nat.toDigits 10 n) :
    isDigit c = true := by
  have := Nat.isDigit_of_mem_toDigits (by decide) (by decide) h
  simpa [isDigit, Char.isDigit, Char.le_def] using this

/-- Only zero is written with a zero in front. -/
theorem head_toDigits {n : Nat} {c : Char} {rest : List Char} (h : Nat.toDigits 10 n = c :: rest)
    (positive : 0 < n) : c ≠ '0' := by
  induction n using Nat.strongRecOn generalizing rest with
  | ind n ih =>
    by_cases small : n < 10
    · have digit : ∀ m < 10, 0 < m → Nat.digitChar m ≠ '0' := by decide
      rw [Nat.toDigits_of_lt_base small] at h
      cases h
      exact digit n small positive
    · rw [Nat.toDigits_of_base_le (by decide) (by omega)] at h
      obtain ⟨c', rest', front⟩ :=
        List.exists_cons_of_ne_nil (Nat.toDigits_ne_nil (n := n / 10) (b := 10))
      rw [front] at h
      cases h
      exact ih (n / 10) (by omega) front (by omega)

theorem toDigits_ne_zero_cons (n : Nat) (c : Char) (rest : List Char) :
    Nat.toDigits 10 n ≠ '0' :: c :: rest := by
  intro h
  cases n with
  | zero => cases h
  | succ n => exact head_toDigits h n.succ_pos rfl

/-! ## Digits as read -/

/-- The digits of a number, with zeros in front. -/
def padded (zeros n : Nat) : List Char := List.replicate zeros '0' ++ Nat.toDigits 10 n

theorem padded_ne_nil (zeros n : Nat) : padded zeros n ≠ [] :=
  List.append_ne_nil_of_right_ne_nil _ Nat.toDigits_ne_nil

theorem isDigit_of_mem_padded {zeros n : Nat} {c : Char} (h : c ∈ padded zeros n) :
    isDigit c = true := by
  rcases List.mem_append.mp h with zero | digit
  · rw [List.eq_of_mem_replicate zero]
    rfl
  · exact isDigit_of_mem_toDigits digit

/-- Zeros in front do not count. -/
theorem ofDigitChars_padded (zeros n : Nat) : Nat.ofDigitChars 10 (padded zeros n) 0 = n := by
  rw [padded, Nat.ofDigitChars_append, Nat.ofDigitChars_replicate_zero, Nat.mul_zero,
    Nat.ofDigitChars_ten_toDigits]

theorem padded_inj {zeros zeros' n n' : Nat} :
    padded zeros n = padded zeros' n' ↔ zeros = zeros' ∧ n = n' := by
  refine ⟨fun same => ?_, fun ⟨zeros, numbers⟩ => by rw [zeros, numbers]⟩
  have numbers : n = n' := by
    rw [← ofDigitChars_padded zeros n, same, ofDigitChars_padded]
  subst numbers
  have lengths := congrArg List.length (List.append_cancel_right same)
  rw [List.length_replicate, List.length_replicate] at lengths
  exact ⟨lengths, rfl⟩

theorem exists_digitChar {c : Char} (h : isDigit c = true) : ∃ d < 10, c = Nat.digitChar d := by
  have range : 48 ≤ c.toNat ∧ c.toNat ≤ 57 := by
    simpa [isDigit, Char.le_def, UInt32.le_iff_toNat_le] using h
  refine ⟨c.toNat - 48, by omega, Char.toNat_inj.mp ?_⟩
  rw [Nat.toNat_digitChar_of_lt_ten (by omega)]
  omega

/-- One more digit behind the digits of a number. -/
theorem padded_append (zeros n : Nat) {d : Nat} (small : d < 10) :
    ∃ zeros', padded zeros n ++ [Nat.digitChar d] = padded zeros' (10 * n + d) := by
  rw [← Nat.toDigits_of_lt_base small]
  cases n with
  | zero =>
    -- The digit of zero becomes one of the zeros in front.
    refine ⟨zeros + 1, ?_⟩
    rw [padded, padded, List.replicate_succ', Nat.mul_zero, Nat.zero_add]
    rfl
  | succ n =>
    refine ⟨zeros, ?_⟩
    rw [padded, padded, List.append_assoc, Nat.toDigits_append_toDigits
      (by decide) n.succ_pos small]

/-- Digits are those of the number that they stand for, with zeros in front. -/
theorem exists_padded {digits : List Char} (nonempty : digits ≠ [])
    (all : ∀ c ∈ digits, isDigit c = true) :
    ∃ zeros, digits = padded zeros (Nat.ofDigitChars 10 digits 0) := by
  induction digits using List.reverseRecOn with
  | nil => exact absurd rfl nonempty
  | append_singleton front c ih =>
    obtain ⟨d, small, rfl⟩ := exists_digitChar (all c (List.mem_append_right _ List.mem_cons_self))
    have one : Nat.ofDigitChars 10 [Nat.digitChar d] 0 = d := by
      rw [← Nat.toDigits_of_lt_base small, Nat.ofDigitChars_ten_toDigits]
    rw [Nat.ofDigitChars_append, Nat.ofDigitChars_eq_ofDigitChars_zero, one,
      List.length_singleton, Nat.pow_one]
    by_cases empty : front = []
    · subst empty
      exact ⟨0, by rw [padded, Nat.ofDigitChars_nil, Nat.mul_zero, Nat.zero_add,
        Nat.toDigits_of_lt_base small]; rfl⟩
    · obtain ⟨zeros, split⟩ := ih empty fun c hc => all c (List.mem_append_left _ hc)
      obtain ⟨zeros', longer⟩ := padded_append zeros (Nat.ofDigitChars 10 front 0) small
      exact ⟨zeros', by rw [← longer, ← split]⟩

/-- What is read as a number is its digits, with any zeros in front. -/
theorem natural?_eq_some_iff {digits : List Char} {n : Nat} :
    natural? digits = some n ↔ ∃ zeros, digits = padded zeros n := by
  unfold natural?
  constructor
  · intro read
    split at read
    · rename_i written
      cases read
      exact exists_padded written.1 (List.all_eq_true.mp written.2)
    · cases read
  · rintro ⟨zeros, rfl⟩
    have written : padded zeros n ≠ [] ∧ (padded zeros n).all isDigit = true :=
      ⟨padded_ne_nil zeros n, List.all_eq_true.mpr fun c => isDigit_of_mem_padded⟩
    rw [if_pos written, ofDigitChars_padded]

theorem naturalUpTo?_eq_some_iff {bound : Nat} {digits : List Char} {n : Nat} :
    naturalUpTo? bound digits = some n ↔ n ≤ bound ∧ ∃ zeros, digits = padded zeros n := by
  rw [naturalUpTo?, Option.filter_eq_some_iff, natural?_eq_some_iff, decide_eq_true_eq, and_comm]

end StoreFeed.Decimal
