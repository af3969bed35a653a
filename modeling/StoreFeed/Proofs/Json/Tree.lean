import Mathlib.Data.List.TakeDrop
import StoreFeed.Json.Decoder
import StoreFeed.Json.Printer
import StoreFeed.Proofs.Decimal
import StoreFeed.Proofs.Json.Text

/-!
# A document is read as it was written

The compact text of a value without floats is read as one tree, `Value.tree`, by every reader of
documents. A value in front of a longer text is read up to its own end, as long as what follows
could not go on a number; the calls that reading needs are no more than the characters of the value.
-/

namespace StoreFeed.Json

open Decimal (isDigit_of_mem_toDigits toDigits_ne_zero_cons)

/-! ## Numbers -/

/-- Whether a text cannot go on a number that ends before it. -/
def EndsNumber (s : List Char) : Prop :=
  ∀ c ∈ s.head?, Decimal.isDigit c = false ∧ c ≠ '.' ∧ c ≠ 'e' ∧ c ≠ 'E'

theorem endsNumber_nil : EndsNumber [] := by
  rintro c ⟨⟩

theorem endsNumber_cons {c : Char} (h : c = ',' ∨ c = ']' ∨ c = '}') (s : List Char) :
    EndsNumber (c :: s) := by
  rintro _ ⟨⟩
  rcases h with rfl | rfl | rfl <;> decide

theorem spanDigits_append {digits rest : List Char} (h : ∀ c ∈ digits, Decimal.isDigit c = true)
    (ends : EndsNumber rest) : Tree.spanDigits (digits ++ rest) = (digits, rest) := by
  rw [Tree.spanDigits, List.span_eq_takeWhile_dropWhile, List.takeWhile_append_of_pos h,
    List.dropWhile_append_of_pos h]
  cases rest with
  | nil => simp
  | cons c rest => simp [(ends c rfl).1]

/-- The parts of an integer as written. -/
def literalOf : Int → Decimal.Literal
  | .ofNat n => ⟨false, Nat.toDigits 10 n, [], none⟩
  | .negSucc n => ⟨true, Nat.toDigits 10 (n + 1), [], none⟩

theorem fraction?_ends {rest : List Char} (ends : EndsNumber rest) :
    Tree.fraction? rest = some ([], rest) := by
  cases rest with
  | nil => rfl
  | cons c rest => exact Tree.fraction?.eq_2 _ (by rintro s ⟨⟩; exact (ends _ rfl).2.1 rfl)

theorem exponent?_ends {rest : List Char} (ends : EndsNumber rest) :
    Tree.exponent? rest = some (none, rest) := by
  cases rest with
  | nil => rfl
  | cons c rest =>
    obtain ⟨-, -, lower, upper⟩ := ends c rfl
    simp [Tree.exponent?, lower, upper]

/-- The whole part of an integer is one that a number may have. -/
theorem match_toDigits {α : Type} (n : Nat) (found : Option α) :
    (match Nat.toDigits 10 n with
      | [] => none
      | '0' :: _ :: _ => none
      | _ => found) = found := by
  split
  · rename_i empty
    exact absurd empty Nat.toDigits_ne_nil
  · rename_i zero
    exact absurd zero (toDigits_ne_zero_cons n _ _)
  · rfl

/-- The digits of an integer are read as its parts. -/
theorem number?_intDigits (n : Int) {rest : List Char} (ends : EndsNumber rest) :
    Tree.number? (intDigits n ++ rest) = some (literalOf n, rest) := by
  have span : ∀ m, Tree.spanDigits (Nat.toDigits 10 m ++ rest) = (Nat.toDigits 10 m, rest) :=
    fun m => spanDigits_append (fun c => isDigit_of_mem_toDigits) ends
  cases n with
  | ofNat m =>
    have unsigned : ∀ s, Nat.toDigits 10 m ++ rest ≠ '-' :: s := by
      obtain ⟨c, cs, digits⟩ := List.exists_cons_of_ne_nil (Nat.toDigits_ne_nil (n := m) (b := 10))
      have digit : Decimal.isDigit c = true := isDigit_of_mem_toDigits (digits ▸ List.mem_cons_self)
      rw [digits]
      rintro s ⟨⟩
      cases digit
    rw [intDigits, Tree.number?]
    · simp only [span, fraction?_ends ends, Option.bind_eq_bind,
        Option.bind_some, exponent?_ends ends]
      exact match_toDigits m _
    · exact unsigned
  | negSucc m =>
    simp only [intDigits, List.cons_append, Tree.number?, span,
      fraction?_ends ends, Option.bind_eq_bind, Option.bind_some, exponent?_ends ends]
    exact match_toDigits (m + 1) _

/-! ## Values -/

namespace Value

mutual

/-- Whether all numbers inside are integers of 64 bits. -/
def Integral : Value → Prop
  | .int n => -9223372036854775808 ≤ n ∧ n ≤ Decimal.maxWord64
  | .float _ => False
  | .arr items => IntegralItems items
  | .obj members => IntegralMembers members
  | _ => True

/-- `Integral` for every item. -/
def IntegralItems : List Value → Prop
  | [] => True
  | a :: as => a.Integral ∧ IntegralItems as

/-- `Integral` for every member. -/
def IntegralMembers : List (String × Value) → Prop
  | [] => True
  | (_, a) :: as => a.Integral ∧ IntegralMembers as

end

theorem integralItems_iff {items : List Value} : IntegralItems items ↔ ∀ a ∈ items, a.Integral := by
  induction items with
  | nil => simp [IntegralItems]
  | cons a items ih => simp [IntegralItems, ih]

theorem integralMembers_iff {members : List (String × Value)} :
    IntegralMembers members ↔ ∀ e ∈ members, e.2.Integral := by
  induction members with
  | nil => simp [IntegralMembers]
  | cons e members ih =>
    obtain ⟨k, a⟩ := e
    simp [IntegralMembers, ih]

mutual

/-- The document that the text of a value is. -/
def tree : Value → Tree
  | .null => .null
  | .bool b => .bool b
  | .int n => .number (literalOf n)
  | .float x => ((Tree.number? (floatStyle.render x)).map fun read => Tree.number read.1).getD .null
  | .str s => .string (Text.piecesOf s)
  | .arr items => .array (itemTrees items)
  | .obj members => .object (memberTrees members)

/-- The documents of the items. -/
def itemTrees : List Value → List Tree
  | [] => []
  | a :: as => a.tree :: itemTrees as

/-- The keys and documents of the members. -/
def memberTrees : List (String × Value) → List (List Text.Piece × Tree)
  | [] => []
  | (k, a) :: as => (Text.piecesOf k, a.tree) :: memberTrees as

end

theorem skipSpace_cons {c : Char} (h : Tree.isSpace c = false) (s : List Char) :
    Tree.skipSpace (c :: s) = c :: s := by
  rw [Tree.skipSpace, List.dropWhile_cons, if_neg (by simp [h])]

theorem isSpace_of_number {c : Char} (h : Decimal.isDigit c = true ∨ c = '-') :
    Tree.isSpace c = false := by
  have apart : ∀ c', Decimal.isDigit c' = false → c' ≠ '-' → c ≠ c' := by
    rintro c' digit minus rfl
    simp_all
  simp [Tree.isSpace, apart ' ', apart '\n', apart '\t', apart '\r', Decimal.isDigit]

/-- A digit or a minus sign starts a number. -/
theorem read?_number {c : Char} (h : Decimal.isDigit c = true ∨ c = '-')
    (fuel : Nat) (s : List Char) :
    Tree.read? (fuel + 1) (c :: s) =
      (Tree.number? (c :: s)).map fun read => (.number read.1, read.2) := by
  rw [Tree.read?, skipSpace_cons (isSpace_of_number h)]
  split
  case h_7 =>
    cases Tree.number? (c :: s) <;> rfl
  all_goals
    rename_i front
    cases front
    rcases h with digit | minus
    · cases digit
    · cases minus

theorem intDigits_front (n : Int) :
    ∃ c cs, intDigits n = c :: cs ∧ (Decimal.isDigit c = true ∨ c = '-') := by
  cases n with
  | ofNat m =>
    obtain ⟨c, cs, digits⟩ := List.exists_cons_of_ne_nil (Nat.toDigits_ne_nil (n := m) (b := 10))
    exact ⟨c, cs, digits, .inl (isDigit_of_mem_toDigits (digits ▸ List.mem_cons_self))⟩
  | negSucc m => exact ⟨'-', _, rfl, .inr rfl⟩

/-- The text of a value starts with a character that neither is blank nor closes an array. -/
theorem chars_front {v : Value} (h : v.Integral) :
    ∃ c cs, v.chars = c :: cs ∧ Tree.isSpace c = false ∧ c ≠ ']' := by
  cases v with
  | null => exact ⟨'n', _, rfl, rfl, by decide⟩
  | bool b => cases b <;> exact ⟨_, _, rfl, rfl, by decide⟩
  | int n =>
    obtain ⟨c, cs, digits, front⟩ := intDigits_front n
    refine ⟨c, cs, digits, isSpace_of_number front, ?_⟩
    rintro rfl
    rcases front with digit | minus
    · cases digit
    · cases minus
  | float x => cases h
  | str s => exact ⟨'"', _, rfl, rfl, by decide⟩
  | arr items => cases items <;> exact ⟨'[', _, rfl, rfl, by decide⟩
  | obj members => cases members <;> exact ⟨'{', _, rfl, rfl, by decide⟩

/-- Whether the text of a value is read as its tree, whatever may follow it. -/
def ReadsBack (v : Value) : Prop :=
  ∀ rest fuel, EndsNumber rest → v.chars.length ≤ fuel →
    Tree.read? fuel (v.chars ++ rest) = some (v.tree, rest)

theorem endsNumber_itemChars (as : List Value) (rest : List Char) :
    EndsNumber (itemChars as ++ rest) := by
  cases as <;> exact endsNumber_cons (by simp) _

theorem endsNumber_memberChars (as : List (String × Value)) (rest : List Char) :
    EndsNumber (memberChars as ++ rest) := by
  cases as <;> exact endsNumber_cons (by simp) _

mutual

/-- A value without floats is read back, whatever may follow it. -/
theorem readsBack (v : Value) (h : v.Integral) : v.ReadsBack := by
  intro rest fuel ends enough
  obtain ⟨c, cs, front, blank, close⟩ := chars_front h
  -- The text is not empty, so what is to be enough fuel for it is not zero.
  cases fuel with
  | zero =>
    rw [front] at enough
    cases enough
  | succ fuel =>
    cases v with
    | null => rfl
    | bool b => cases b <;> rfl
    | int n =>
      obtain ⟨c, cs, digits, number⟩ := intDigits_front n
      have read := number?_intDigits n ends
      rw [chars, digits, List.cons_append] at *
      rw [read?_number number, read]
      rfl
    | float x => cases h
    | str s =>
      have read := Text.pieces?_quoted s.toList rest
      rw [chars, Text.quote, List.cons_append, List.append_assoc, List.singleton_append, Tree.read?,
        skipSpace_cons rfl]
      simp only [read, Option.bind_eq_bind, Option.bind_some]
      rfl
    | arr items =>
      cases items with
      | nil => rfl
      | cons a as =>
        obtain ⟨c', cs', front', blank', close'⟩ := chars_front h.1
        have read := items?_chars (readsBack a h.1) as h.2 rest fuel (by
          rw [chars, List.length_cons] at enough
          omega)
        rw [chars, List.cons_append, List.append_assoc, Tree.read?, skipSpace_cons rfl]
        rw [front', List.cons_append] at read ⊢
        simp only [skipSpace_cons blank']
        -- No value starts with a bracket that closes, so this list is not taken for an empty one.
        split
        · rename_i closed
          cases closed
          exact absurd rfl close'
        · rw [read]
          rfl
    | obj members =>
      cases members with
      | nil => rfl
      | cons e as =>
        obtain ⟨key, a⟩ := e
        have read := members?_chars key (readsBack a h.1) as h.2 rest fuel (by
          rw [chars, List.length_cons] at enough
          omega)
        rw [chars, List.cons_append, List.append_assoc, List.cons_append,
          List.append_assoc, Tree.read?, skipSpace_cons rfl]
        rw [Text.quote, List.cons_append] at read ⊢
        simp only [skipSpace_cons (show Tree.isSpace '"' = false from rfl)]
        split
        · rename_i closed
          cases closed
        · rw [read]
          rfl
termination_by structural v

/-- The rest of an array is read back behind its first item. -/
theorem items?_chars {a : Value} (first : a.ReadsBack) (as : List Value) (h : IntegralItems as)
    (rest : List Char) (fuel : Nat) (enough : (a.chars ++ itemChars as).length ≤ fuel) :
    Tree.items? fuel (a.chars ++ (itemChars as ++ rest)) = some (itemTrees (a :: as), rest) := by
  rw [List.length_append] at enough
  cases fuel with
  | zero => cases as <;> simp [itemChars] at enough
  | succ fuel =>
    have read := first (itemChars as ++ rest) fuel (endsNumber_itemChars as rest) (by
      cases as <;> simp only [itemChars, List.length_cons] at enough <;> omega)
    rw [Tree.items?, read]
    cases as with
    | nil => rfl
    | cons b bs =>
      have others := items?_chars (readsBack b h.1) bs h.2 rest fuel (by
        rw [itemChars, List.length_cons] at enough
        omega)
      rw [itemChars, List.cons_append, List.append_assoc]
      simp only [Option.bind_eq_bind, Option.bind_some,
        skipSpace_cons (show Tree.isSpace ',' = false from rfl), others]
      rfl
termination_by structural as

/-- The rest of an object is read back from the key of its first member on. -/
theorem members?_chars (key : String) {a : Value} (first : a.ReadsBack) (as : List (String × Value))
    (h : IntegralMembers as) (rest : List Char) (fuel : Nat)
    (enough : (Text.quote key ++ ':' :: (a.chars ++ memberChars as)).length ≤ fuel) :
    Tree.members? fuel (Text.quote key ++ ':' :: (a.chars ++ (memberChars as ++ rest))) =
      some (memberTrees ((key, a) :: as), rest) := by
  rw [List.length_append, List.length_cons, List.length_append] at enough
  cases fuel with
  | zero => simp at enough
  | succ fuel =>
    have read := first (memberChars as ++ rest) fuel (endsNumber_memberChars as rest) (by
      cases as <;> simp only [memberChars, List.length_cons] at enough <;> omega)
    rw [Text.quote, List.cons_append, List.append_assoc, Tree.members?, skipSpace_cons rfl]
    simp only [List.singleton_append, Text.pieces?_quoted, Option.bind_eq_bind, Option.bind_some,
      skipSpace_cons (show Tree.isSpace ':' = false from rfl), read]
    cases as with
    | nil => rfl
    | cons e bs =>
      obtain ⟨key', b⟩ := e
      have others := members?_chars key' (readsBack b h.1) bs h.2 rest fuel (by
        rw [memberChars, List.length_cons] at enough
        omega)
      rw [memberChars, List.cons_append, List.append_assoc, List.cons_append, List.append_assoc]
      simp only [skipSpace_cons (show Tree.isSpace ',' = false from rfl), others]
      rfl
termination_by structural as

end

/-- The text of a value without floats is read as its tree, and nothing else. -/
theorem ofChars?_chars {v : Value} (h : v.Integral) : Tree.ofChars? v.chars = some v.tree := by
  have read := readsBack v h [] (v.chars.length + 1) endsNumber_nil (by omega)
  rw [List.append_nil] at read
  rw [Tree.ofChars?, read]
  rfl

end Value

theorem fromUTF8?_toUTF8 (s : String) : String.fromUTF8? s.toUTF8 = some s := dif_pos s.isValidUTF8

namespace Decoder

variable {α : Type}

/-- Reading the text of a value is reading its tree. -/
theorem run_render (d : Decoder α) {v : Value} (h : v.Integral) :
    d.run v.render = d maxDepth v.tree := by
  rw [run, Tree.ofString?, Value.render, String.toList_ofList, Value.ofChars?_chars h]
  rfl

/-- Reading the bytes of a value is reading its tree. -/
theorem runBytes_toBytes (d : Decoder α) {v : Value} (h : v.Integral) :
    d.runBytes v.toBytes = d maxDepth v.tree := by
  rw [← run_render d h, runBytes, Tree.ofBytes?, Value.toBytes, fromUTF8?_toUTF8]
  rfl

end Decoder

end StoreFeed.Json
