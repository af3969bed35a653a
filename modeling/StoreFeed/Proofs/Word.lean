import Mathlib.Algebra.GroupWithZero.Nat
import StoreFeed.Word

/-!
# More laws of arithmetic on 64 bits

When a sum, a product or a total fits, and what a total depends on. Parts that are summed up one by
one overflow no earlier than the whole.
-/

namespace StoreFeed.Word

open Decimal (maxWord64)

variable {α : Type}

/-! ## Sums and products -/

theorem mul_eq_ok_iff {a b c : Nat} : mul a b = .ok c ↔ a * b = c ∧ c ≤ maxWord64 := by
  unfold mul
  split <;> simp <;> omega

/-! ## Totals -/

theorem total_eq_sum (ns : List Nat) : total ns = ns.sum := by
  induction ns with
  | nil => rfl
  | cons n ns ih => rw [total, ih, List.sum_cons]

/-- A total does not depend on the order. -/
theorem total_perm {ms ns : List Nat} (h : ms.Perm ns) : total ms = total ns := by
  rw [total_eq_sum, total_eq_sum, h.sum_nat]

theorem total_le_of_sublist {ms ns : List Nat} (h : ms.Sublist ns) : total ms ≤ total ns := by
  induction h with
  | slnil => exact Nat.le_refl _
  | cons n _ ih => exact Nat.le_trans ih (Nat.le_add_left _ _)
  | cons_cons n _ ih => exact Nat.add_le_add_left ih n

theorem total_map_le {xs : List α} {f g : α → Nat} (h : ∀ x ∈ xs, f x ≤ g x) :
    total (xs.map f) ≤ total (xs.map g) := by
  induction xs with
  | nil => exact Nat.le_refl _
  | cons x xs ih =>
    exact Nat.add_le_add (h x List.mem_cons_self) (ih fun y hy => h y (List.mem_cons_of_mem x hy))

/-- What adds nothing may be left out. -/
theorem total_map_filter {xs : List α} {f : α → Nat} {p : α → Bool}
    (h : ∀ x, p x = false → f x = 0) :
    total ((xs.filter p).map f) = total (xs.map f) := by
  induction xs with
  | nil => rfl
  | cons x xs ih =>
    cases hp : p x with
    | true => rw [List.filter_cons_of_pos hp, List.map_cons, List.map_cons, total, total, ih]
    | false =>
      rw [List.filter_cons_of_neg (by simp [hp]), List.map_cons, total, ih, h x hp, Nat.zero_add]

/-! ## Totals that fit -/

theorem sum_congr {ns ms : List Nat} (h : ns.sum = ms.sum) : sum ns = sum ms := by
  rw [sum, sum, total_eq_sum, total_eq_sum, h]

theorem sum_cases (ns : List Nat) :
    sum ns = .ok ns.sum ∨ sum ns = .error .addition ∧ maxWord64 < ns.sum := by
  rw [sum, total_eq_sum]
  split
  · exact .inl rfl
  · exact .inr ⟨rfl, by omega⟩

/-- Parts that overflow only where they are too large already add up as if they did not. -/
theorem sum_mapM {part : α → Except Overflow Nat} {exact : α → Nat}
    (h : ∀ x, part x = .ok (exact x) ∨ part x = .error .addition ∧ maxWord64 < exact x)
    (xs : List α) :
    (do sum (← xs.mapM part)) = sum (xs.map exact) := by
  have parts : xs.mapM part = .ok (xs.map exact) ∨
      xs.mapM part = .error .addition ∧ maxWord64 < (xs.map exact).sum := by
    induction xs with
    | nil => exact .inl rfl
    | cons x xs ih =>
      rw [List.mapM_cons, List.map_cons, List.sum_cons]
      rcases h x with here | ⟨here, large⟩
      · rcases ih with rest | ⟨rest, large⟩
        · exact .inl (by rw [here, rest]; rfl)
        · exact .inr ⟨by rw [here, rest]; rfl, by omega⟩
      · exact .inr ⟨by rw [here]; rfl, by omega⟩
  rcases parts with all | ⟨none, large⟩
  · rw [all]
    rfl
  · rw [none, sum, total_eq_sum, if_neg (by omega)]
    rfl

end StoreFeed.Word
