import Mathlib.Algebra.Group.Nat.Defs
import Mathlib.Data.List.Induction
import StoreFeed.Replica.Backoff

/-!
# The pauses of a series of retries

A time span holds its whole seconds in a 64-bit word, so the doubling of a pause can be out of range
(`Backoff.next?`). For settings that a host can run with it never is, whatever calls are made on a
series: after each return to the first pause the pauses double until they reach the limit, and stay
there (`Backoff.pause_eq`).
-/

namespace StoreFeed.Backoff

open Decimal (maxWord64)

/-- The longest time span in milliseconds: its seconds are a number of 64 bits. -/
def longest : Nat := maxWord64 * 1000 + 999

/-- A call on a series of pauses. -/
inductive Call where
  /-- Ask for the next pause. -/
  | next
  /-- Go back to the first pause. -/
  | reset
deriving DecidableEq

/-- The next pause, and the series after it, if twice the pause is a time span at all. -/
def next? (b : Backoff) : Option (Nat × Backoff) :=
  if 2 * b.current ≤ longest then some b.next else none

/-- The series after a call. -/
def after (b : Backoff) : Call → Backoff
  | .next => b.next.2
  | .reset => b.reset

/-- The series after a call, if no time is out of range. -/
def after? (b : Backoff) : Call → Option Backoff
  | .next => b.next?.map (·.2)
  | .reset => some b.reset

/-- The pause that the next call gives after some calls, if no time is out of range. -/
def pause? (b : Backoff) (calls : List Call) : Option Nat :=
  (calls.foldlM after? b).bind fun b => b.next?.map (·.1)

/-- How many pauses were given since the last return to the first one. -/
def given (calls : List Call) : Nat := (calls.reverse.takeWhile (· = .next)).length

/-- The series of a host that has given some pauses since it was at the first one. -/
def nth (s : HostSettings) (n : Nat) : Backoff :=
  ⟨s.initialBackoff, s.maxBackoff, min (s.initialBackoff * 2 ^ n) s.maxBackoff⟩

@[simp]
theorem given_nil : given [] = 0 := rfl

@[simp]
theorem given_next (calls : List Call) : given (calls ++ [.next]) = given calls + 1 := by
  simp [given]

@[simp]
theorem given_reset (calls : List Call) : given (calls ++ [.reset]) = 0 := by simp [given]

theorem given_replicate (calls : List Call) (n : Nat) :
    given (calls ++ List.replicate n .next) = given calls + n := by
  induction n with
  | zero => simp
  | succ n ih => rw [List.replicate_succ', ← List.append_assoc, given_next, ih, Nat.add_assoc]

/-! ## One call -/

/-- Where a host can run with the settings, the first pause is not zero and within the limit. -/
theorem range_of_validate {s : HostSettings} (valid : s.validate = .ok ()) :
    0 < s.initialBackoff ∧ s.initialBackoff ≤ s.maxBackoff := by
  unfold HostSettings.validate at valid
  split at valid
  · cases valid
  · split at valid
    · cases valid
    · omega

/-- A call without a time out of range is exact. -/
theorem after_of_after? {b b' : Backoff} {call : Call} (fine : b.after? call = some b') :
    b.after call = b' := by
  cases call with
  | next =>
    simp only [after?, next?] at fine
    split at fine
    · exact Option.some.inj fine
    · cases fine
  | reset => exact Option.some.inj fine

section Nth

variable {s : HostSettings}

theorem nth_zero (range : s.initialBackoff ≤ s.maxBackoff) : nth s 0 = ofSettings s := by
  simp [nth, ofSettings, start, Nat.min_eq_left range]

theorem nth_reset (range : s.initialBackoff ≤ s.maxBackoff) (n : Nat) :
    (nth s n).reset = nth s 0 := by
  rw [nth_zero range]
  rfl

/-- To double a pause that was cut at the limit, and to cut again, is to cut the doubled one. -/
theorem nth_next (n : Nat) :
    (nth s n).next = (min (s.initialBackoff * 2 ^ n) s.maxBackoff, nth s (n + 1)) := by
  have cut : min (min (s.initialBackoff * 2 ^ n) s.maxBackoff * 2) s.maxBackoff =
      min (s.initialBackoff * 2 ^ (n + 1)) s.maxBackoff := by
    rw [Nat.pow_succ, ← Nat.mul_assoc]
    omega
  simp only [nth, next, cut]

/-- The limit fits into a word of milliseconds, so twice a pause fits into a word of seconds. -/
theorem nth_next? (word : s.maxBackoff ≤ maxWord64) (n : Nat) :
    (nth s n).next? = some (min (s.initialBackoff * 2 ^ n) s.maxBackoff, nth s (n + 1)) := by
  have bounded : (nth s n).current ≤ s.maxBackoff := Nat.min_le_right _ _
  have fits : 2 * (nth s n).current ≤ longest := by
    unfold longest
    omega
  unfold next?
  rw [if_pos fits, nth_next]

end Nth

/-! ## Any calls -/

/-- Whatever calls were made, how far a series is depends on the pauses given since it was last at
the first one. Times are never out of range on the way. -/
theorem foldlM_after? {s : HostSettings} (range : s.initialBackoff ≤ s.maxBackoff)
    (word : s.maxBackoff ≤ maxWord64) (calls : List Call) :
    calls.foldlM after? (ofSettings s) = some (nth s (given calls)) := by
  -- Pauses are counted from the last call backwards, so the induction takes the last call off.
  induction calls using List.reverseRecOn with
  | nil => simp [nth_zero range]
  | append_singleton calls call ih =>
    rw [List.foldlM_append, ih]
    cases call with
    | next => simp [after?, nth_next? word]
    | reset => simp [after?, nth_reset range]

/-- As long as times are in range, arithmetic is exact. -/
theorem foldl_after {b b' : Backoff} {calls : List Call}
    (fine : calls.foldlM after? b = some b') : calls.foldl after b = b' := by
  induction calls generalizing b with
  | nil => simpa using fine
  | cons call rest ih =>
    simp only [List.foldlM_cons, Option.bind_eq_bind, Option.bind_eq_some_iff] at fine
    obtain ⟨c, first, fine⟩ := fine
    rw [List.foldl_cons, after_of_after? first]
    exact ih fine

/-- For settings that a host can run with, with a limit that is a word of milliseconds: whatever
calls were made on a series, no time was out of range, none is with the next pause, and that one is
the first pause doubled once for each pause since the series was last at the first one, or the limit
if that is less. It is at least the first pause, so it is never zero, and none of those that follow
it without a return to the first one is shorter. -/
theorem pause_eq {s : HostSettings} (valid : s.validate = .ok ()) (word : s.maxBackoff ≤ maxWord64)
    (calls : List Call) :
    ∃ pause, (ofSettings s).pause? calls = some pause ∧
      (calls.foldl after (ofSettings s)).next.1 = pause ∧
      pause = min (s.initialBackoff * 2 ^ given calls) s.maxBackoff ∧
      0 < pause ∧ s.initialBackoff ≤ pause ∧ pause ≤ s.maxBackoff ∧
      ∀ n, ∃ later, (ofSettings s).pause? (calls ++ List.replicate n .next) = some later ∧
        pause ≤ later := by
  obtain ⟨positive, range⟩ := range_of_validate valid
  have fine := foldlM_after? range word
  have pause : ∀ calls, (ofSettings s).pause? calls =
      some (min (s.initialBackoff * 2 ^ given calls) s.maxBackoff) := fun calls => by
    simp [pause?, fine calls, nth_next? word]
  have first : s.initialBackoff ≤ s.initialBackoff * 2 ^ given calls :=
    Nat.le_mul_of_pos_right _ (Nat.two_pow_pos _)
  refine ⟨_, pause calls, ?_, rfl, by omega, by omega, Nat.min_le_right _ _, fun n =>
    ⟨_, pause _, ?_⟩⟩
  · rw [foldl_after (fine calls), nth_next]
  · have longer : s.initialBackoff * 2 ^ given calls ≤ s.initialBackoff * 2 ^ (given calls + n) :=
      Nat.mul_le_mul_left _ (Nat.pow_le_pow_right (by decide) (Nat.le_add_right _ _))
    rw [given_replicate]
    omega

/-- The widest range of pauses that words of milliseconds allow. -/
def widest : HostSettings :=
  { HostSettings.standard with initialBackoff := 1, maxBackoff := maxWord64 }

/-- The 65th pause is cut at the largest word. -/
theorem pause_eq_widest : (widest.validate = .ok () ∧ widest.maxBackoff ≤ maxWord64) ∧
    ∃ pause, (ofSettings widest).pause? (List.replicate 64 .next) = some pause ∧
      pause = 18446744073709551615 ∧
      ∀ n, ∃ later, (ofSettings widest).pause? (List.replicate 64 .next ++ List.replicate n .next) =
        some later ∧ pause ≤ later := by
  have limits : widest.validate = .ok () ∧ widest.maxBackoff ≤ maxWord64 := ⟨rfl, by decide⟩
  obtain ⟨pause, given, -, eq, -, -, -, later⟩ :=
    pause_eq limits.1 limits.2 (List.replicate 64 .next)
  refine ⟨limits, pause, given, eq.trans ?_, later⟩
  rw [show Backoff.given (List.replicate 64 .next) = 64 by simpa using given_replicate [] 64]
  simp [widest, maxWord64]

/-- The limit cuts the fourth pause; a reset leads back to the first one. -/
example : ([[], [.next], [.next, .next], [.next, .next, .next],
    [.next, .next, .next, .next, .reset]].map (start 100 350).pause?) =
    [some 100, some 200, some 350, some 350, some 100] := by decide

end StoreFeed.Backoff
