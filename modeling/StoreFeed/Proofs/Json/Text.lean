import StoreFeed.Json.Text

/-!
# A text is read as it was written

Writing puts one piece for each character, and reading finds the same pieces again, whatever stands
behind the closing quote. What is written escapes nothing but quotes, backslashes and control
characters, so no two escapes can be taken for a surrogate pair.
-/

namespace StoreFeed.Json.Text

/-- The piece that a character is written as. -/
def pieceOf (c : Char) : Piece :=
  if c = '"' ∨ c = '\\' ∨ c.toNat < 0x20 then .escaped c.toNat else .raw c

/-- The pieces that a text is written as. -/
def piecesOf (s : String) : List Piece := s.toList.map pieceOf

/-! ## Pieces of a written text -/

theorem hexValue?_hexDigit {n : Nat} (h : n < 16) : hexValue? (hexDigit n) = some n := by
  revert n
  decide

/-- A control character that has no short escape. -/
theorem pieces?_unicode {n : Nat} (h : n < 0x20) (rest : List Char) :
    pieces? ('\\' :: 'u' :: '0' :: '0' :: hexDigit (n / 16) :: hexDigit (n % 16) :: rest) =
      (pieces? rest).map fun found => (.escaped n :: found.1, found.2) := by
  have zero : hexValue? '0' = some 0 := by decide
  have high : hexValue? (hexDigit (n / 16)) = some (n / 16) := hexValue?_hexDigit (by omega)
  have low : hexValue? (hexDigit (n % 16)) = some (n % 16) := hexValue?_hexDigit (by omega)
  have unit : n / 16 * 16 + n % 16 = n := by omega
  rw [pieces?]
  simp only [zero, high, low, Option.bind_eq_bind, Option.bind_some,
    Nat.zero_mul, Nat.zero_add, unit]
  cases pieces? rest <;> rfl

/-- A character that stands for itself. -/
theorem pieces?_raw {c : Char} (quote : c ≠ '"') (backslash : c ≠ '\\') (rest : List Char) :
    pieces? (c :: rest) = (pieces? rest).map fun found => (.raw c :: found.1, found.2) := by
  rw [pieces?.eq_5 _ _ (by simpa using quote) (by simp [backslash]) (by simp [backslash]),
    if_neg backslash]
  cases pieces? rest <;> rfl

/-- An escape that is a single letter or mark. -/
theorem pieces?_short {c : Char} {unit : Nat} (short : shortEscape? c = some unit)
    (rest : List Char) :
    pieces? ('\\' :: c :: rest) =
      (pieces? rest).map fun found => (.escaped unit :: found.1, found.2) := by
  have u : c ≠ 'u' := by
    rintro rfl
    cases short
  rw [pieces?.eq_4 _ _ (by simp [u]), short, Option.bind_eq_bind, Option.bind_some]
  cases pieces? rest <;> rfl

/-- One character is written as one piece. -/
theorem pieces?_encodeChar (c : Char) (rest : List Char) :
    pieces? (encodeChar c ++ rest) =
      (pieces? rest).map fun found => (pieceOf c :: found.1, found.2) := by
  unfold encodeChar
  iterate 7
    split
    · rename_i short
      subst short
      exact pieces?_short rfl rest
  split
  · rename_i control
    rw [pieceOf, if_pos (.inr (.inr control))]
    exact pieces?_unicode control rest
  · rename_i quote backslash _ _ _ _ _ control
    rw [pieceOf, if_neg (by simp [quote, backslash, control])]
    exact pieces?_raw quote backslash rest

/-- A text is read up to the quote that closes it. -/
theorem pieces?_quoted (s : List Char) (rest : List Char) :
    pieces? (s.flatMap encodeChar ++ '"' :: rest) = some (s.map pieceOf, rest) := by
  induction s with
  | nil => rfl
  | cons c s ih => rw [List.flatMap_cons, List.append_assoc, pieces?_encodeChar, ih]; rfl

/-! ## The text of the pieces -/

theorem of_pieceOf_raw {c c' : Char} (h : pieceOf c = .raw c') : c' = c ∧ 0x20 ≤ c.toNat := by
  unfold pieceOf at h
  split at h <;> cases h
  rename_i plain
  exact ⟨rfl, by omega⟩

/-- What is written as an escape is below every surrogate. -/
theorem of_pieceOf_escaped {c : Char} {unit : Nat} (h : pieceOf c = .escaped unit) :
    unit = c.toNat ∧ isHighSurrogate unit = false := by
  unfold pieceOf at h
  split at h <;> cases h
  rename_i special
  have small : c.toNat < 0x60 := by
    rcases special with rfl | rfl | control
    · decide
    · decide
    · omega
  refine ⟨rfl, ?_⟩
  rw [isHighSurrogate, Bool.and_eq_false_iff, decide_eq_false_iff_not]
  omega

theorem codePoints_escaped {unit : Nat} (h : isHighSurrogate unit = false) (ps : List Piece) :
    codePoints (.escaped unit :: ps) = unit :: codePoints ps := by
  rcases ps with - | ⟨_ | _, ps⟩ <;> simp [codePoints, h]

/-- Every piece names its own character. -/
theorem codePoints_map_pieceOf (s : List Char) : codePoints (s.map pieceOf) = s.map Char.toNat := by
  induction s with
  | nil => rfl
  | cons c s ih =>
    rw [List.map_cons, List.map_cons, ← ih]
    cases piece : pieceOf c with
    | raw c' => rw [codePoints, (of_pieceOf_raw piece).1]
    | escaped unit =>
      obtain ⟨rfl, low⟩ := of_pieceOf_escaped piece
      exact codePoints_escaped low _

theorem noRawControl_map_pieceOf (s : List Char) : noRawControl (s.map pieceOf) = true := by
  rw [noRawControl, List.all_map, List.all_eq_true]
  intro c _
  rw [Function.comp_apply]
  split
  · rename_i piece
    obtain ⟨rfl, plain⟩ := of_pieceOf_raw piece
    exact decide_eq_true plain
  · rfl

theorem scalar?_toNat (c : Char) : scalar? c.toNat = some c := dif_pos c.valid

/-- The pieces of a written text stand for the text. -/
@[simp]
theorem text?_piecesOf (s : String) : text? (piecesOf s) = some s := by
  have scalars : ∀ cs : List Char, (cs.map Char.toNat).mapM scalar? = some cs := by
    intro cs
    induction cs with
    | nil => rfl
    | cons c cs ih => simp [List.mapM_cons, scalar?_toNat, ih]
  rw [text?, piecesOf, if_pos (noRawControl_map_pieceOf _), codePoints_map_pieceOf, scalars,
    Option.map_some, String.ofList_toList]

end StoreFeed.Json.Text
