import Mathlib.Data.List.Basic
import StoreFeed.Proofs.Decimal
import StoreFeed.Topic

/-!
# Names of topics

A name carries no mark of where the store's name ends, and the store's name may hold the marks
itself. What decides is that nothing behind the mark of a version topic is one: digits hold neither.
So a name is cut at the last mark, and every name is parsed back (`topicNames_parse_back`).

The parser takes more than that: any zeros in front of a version are read over
(`parseTopic?_eq_version_iff`).
-/

namespace StoreFeed

/-! ## Cutting at the last mark -/

/-- A mark starts at the first character, or later. -/
theorem versionMark_infix_cons {c : Char} {rest : List Char} :
    versionMark <:+: c :: rest ↔ (∃ after, c = '_' ∧ rest = 'v' :: after) ∨
      versionMark <:+: rest := by
  rw [List.infix_cons_iff]
  refine or_congr_left ⟨?_, ?_⟩
  · rintro ⟨after, same⟩
    cases same
    exact ⟨after, rfl, rfl⟩
  · rintro ⟨after, rfl, rfl⟩
    exact ⟨after, rfl⟩

theorem splitAtLastMark_cons_of_some {rest before after : List Char} (c : Char)
    (h : splitAtLastMark rest = some (before, after)) :
    splitAtLastMark (c :: rest) = some (c :: before, after) := by
  rw [splitAtLastMark.eq_def]
  dsimp only
  rw [h]

theorem splitAtLastMark_cons_of_none {d : Char} {after : List Char} (c : Char)
    (h : splitAtLastMark (d :: after) = none) :
    splitAtLastMark (c :: d :: after) =
      if [c, d] = versionMark then some ([], after) else none := by
  rw [splitAtLastMark, h]

/-- A text is not cut if it holds no mark. -/
theorem splitAtLastMark_of_not_infix {cs : List Char} (h : ¬ versionMark <:+: cs) :
    splitAtLastMark cs = none := by
  induction cs with
  | nil => rfl
  | cons c rest ih =>
    rw [versionMark_infix_cons, not_or] at h
    cases rest with
    | nil => rfl
    | cons d after =>
      rw [splitAtLastMark_cons_of_none c (ih h.2)]
      refine if_neg fun mark => ?_
      cases mark
      exact h.1 ⟨after, rfl, rfl⟩

/-- A text is cut at the mark behind which it holds none. -/
theorem splitAtLastMark_append (before : List Char) {after : List Char}
    (last : ¬ versionMark <:+: after) :
    splitAtLastMark (before ++ versionMark ++ after) = some (before, after) := by
  rw [List.append_assoc]
  induction before with
  | nil =>
    have behind : splitAtLastMark ('v' :: after) = none := by
      refine splitAtLastMark_of_not_infix ?_
      rw [versionMark_infix_cons, not_or]
      exact ⟨by rintro ⟨_, ⟨⟩, _⟩, last⟩
    exact splitAtLastMark_cons_of_none '_' behind
  | cons c before ih => exact splitAtLastMark_cons_of_some c ih

/-- What a text is cut into is the text, with the mark between. -/
theorem eq_append_of_splitAtLastMark {cs before after : List Char}
    (h : splitAtLastMark cs = some (before, after)) : cs = before ++ versionMark ++ after := by
  induction cs generalizing before with
  | nil => cases h
  | cons c rest ih =>
    cases later : splitAtLastMark rest with
    | some parts =>
      rw [splitAtLastMark_cons_of_some c later] at h
      cases h
      rw [ih later]
      rfl
    | none =>
      cases rest with
      | nil => cases h
      | cons d after =>
        rw [splitAtLastMark_cons_of_none c later] at h
        split at h
        · rename_i mark
          cases mark
          cases h
          rfl
        · cases h

/-- Digits hold no mark. -/
theorem not_versionMark_infix_padded (zeros n : Nat) :
    ¬ versionMark <:+: Decimal.padded zeros n := by
  intro mark
  have digit : Decimal.isDigit '_' = true :=
    Decimal.isDigit_of_mem_padded (mark.subset List.mem_cons_self)
  cases digit

/-! ## Names with zeros in front of the version -/

/-- The name of a version's topic, with zeros in front of the version. -/
def paddedTopicName (store : String) (zeros : Nat) (version : UInt32) : String :=
  String.ofList (store.toList ++ versionMark ++ Decimal.padded zeros version.toNat)

theorem paddedTopicName_zero (store : String) (version : UInt32) :
    paddedTopicName store 0 version = versionTopicName store version := rfl

/-- The parts of a name are found in it. -/
theorem paddedTopicName_inj {store store' : String} {zeros zeros' : Nat}
    {version version' : UInt32} :
    paddedTopicName store zeros version = paddedTopicName store' zeros' version' ↔
      store = store' ∧ zeros = zeros' ∧ version = version' := by
  refine ⟨fun same => ?_, fun ⟨stores, zeros, versions⟩ => by rw [stores, zeros, versions]⟩
  have parts := congrArg splitAtLastMark (String.ofList_injective same)
  rw [splitAtLastMark_append _ (not_versionMark_infix_padded _ _),
    splitAtLastMark_append _ (not_versionMark_infix_padded _ _)] at parts
  obtain ⟨stores, digits⟩ := Prod.mk.inj (Option.some.inj parts)
  obtain ⟨zeros, versions⟩ := Decimal.padded_inj.mp digits
  exact ⟨String.toList_inj.mp stores, zeros, UInt32.toNat_inj.mp versions⟩

/-- Zeros in front make another name. -/
theorem paddedTopicName_eq_versionTopicName {store : String} {zeros : Nat} {version : UInt32} :
    paddedTopicName store zeros version = versionTopicName store version ↔ zeros = 0 := by
  rw [← paddedTopicName_zero, paddedTopicName_inj]
  exact ⟨fun same => same.2.1, fun none => ⟨rfl, none, rfl⟩⟩

/-- One name ends with a digit, and the other does not. -/
theorem paddedTopicName_ne_realTimeTopicName (store store' : String)
    (zeros : Nat) (version : UInt32) :
    paddedTopicName store zeros version ≠ realTimeTopicName store' := by
  intro same
  have digits : (Decimal.padded zeros version.toNat).getLast? = some 't' := by
    have last := congrArg List.getLast? (String.ofList_injective same)
    rw [List.getLast?_append_of_ne_nil _ (Decimal.padded_ne_nil _ _)] at last
    exact last.trans (List.getLast?_append_of_ne_nil _ (List.cons_ne_nil _ _))
  have digit : Decimal.isDigit 't' = true :=
    Decimal.isDigit_of_mem_padded (List.mem_of_getLast? digits)
  cases digit

/-! ## Parsing -/

theorem toList_ne_nil {store : String} : store.toList ≠ [] ↔ store ≠ "" :=
  not_congr (show store.toList = "".toList ↔ store = "" from String.toList_inj)

theorem parseRealTimeTopic?_append {store : List Char} (filled : store ≠ []) :
    parseRealTimeTopic? (store ++ realTimeMark) = some (.realTime (String.ofList store)) := by
  have cut : List.isSuffixOf? realTimeMark (store ++ realTimeMark) = some store :=
    List.isSuffixOf?_eq_some_iff_append_eq.mpr rfl
  simp [parseRealTimeTopic?, cut, filled]

theorem parseVersionTopic?_append {store digits : List Char} (filled : store ≠ []) {n : Nat}
    (last : ¬ versionMark <:+: digits)
    (read : Decimal.naturalUpTo? Decimal.maxWord32 digits = some n) :
    parseVersionTopic? (store ++ versionMark ++ digits) =
      some (.version (String.ofList store) (UInt32.ofNat n)) := by
  rw [parseVersionTopic?, splitAtLastMark_append store last]
  simp [filled, read]

/-- What is taken for a real-time topic is a store's name and the mark. -/
theorem eq_of_parseRealTimeTopic? {name : List Char} {kind : TopicKind}
    (parsed : parseRealTimeTopic? name = some kind) :
    ∃ store, store ≠ [] ∧ name = store ++ realTimeMark ∧ kind = .realTime
      (String.ofList store) := by
  obtain ⟨store, cut, parsed⟩ := Option.bind_eq_some_iff.mp parsed
  by_cases empty : store = []
  · simp [empty] at parsed
  · rw [List.isSuffixOf?_eq_some_iff_append_eq] at cut
    exact ⟨store, empty, cut.symm, by simpa [empty] using parsed.symm⟩

/-- What is taken for a version topic is a store's name, the mark and what is read as a version. -/
theorem eq_of_parseVersionTopic? {name : List Char} {kind : TopicKind}
    (parsed : parseVersionTopic? name = some kind) :
    ∃ store digits n, store ≠ [] ∧ name = store ++ versionMark ++ digits ∧
      Decimal.naturalUpTo? Decimal.maxWord32 digits = some n ∧
        kind = .version (String.ofList store) (UInt32.ofNat n) := by
  obtain ⟨⟨store, digits⟩, cut, parsed⟩ := Option.bind_eq_some_iff.mp parsed
  by_cases empty : store = []
  · simp [empty] at parsed
  · obtain ⟨n, read, parsed⟩ : ∃ n, Decimal.naturalUpTo? Decimal.maxWord32 digits = some n ∧
        TopicKind.version (String.ofList store) (UInt32.ofNat n) = kind := by
      simpa [empty, Option.bind_eq_some_iff] using parsed
    exact ⟨store, digits, n, empty, eq_append_of_splitAtLastMark cut, read, parsed.symm⟩

/-- A name is taken for that of a real-time topic exactly if it is one. -/
theorem parseTopic?_eq_realTime_iff {name store : String} :
    parseTopic? name = some (.realTime store) ↔ store ≠ "" ∧ name = realTimeTopicName store := by
  rw [parseTopic?, Option.or_eq_some_iff]
  constructor
  · rintro (parsed | ⟨-, parsed⟩)
    · obtain ⟨front, filled, split, same⟩ := eq_of_parseRealTimeTopic? parsed
      cases same
      refine ⟨fun empty => filled (String.ofList_injective empty), ?_⟩
      rw [realTimeTopicName, String.toList_ofList, ← split, String.ofList_toList]
    · obtain ⟨_, _, _, _, _, _, ⟨⟩⟩ := eq_of_parseVersionTopic? parsed
  · rintro ⟨filled, rfl⟩
    refine .inl ?_
    rw [realTimeTopicName, String.toList_ofList, parseRealTimeTopic?_append
      (toList_ne_nil.mpr filled), String.ofList_toList]

/-- A name is taken for that of a version topic exactly if it is one, up to zeros in front of the
version. -/
theorem parseTopic?_eq_version_iff {name store : String} {version : UInt32} :
    parseTopic? name = some (.version store version) ↔
      store ≠ "" ∧ ∃ zeros, name = paddedTopicName store zeros version := by
  rw [parseTopic?, Option.or_eq_some_iff]
  constructor
  · rintro (parsed | ⟨-, parsed⟩)
    · obtain ⟨_, _, _, ⟨⟩⟩ := eq_of_parseRealTimeTopic? parsed
    · obtain ⟨front, digits, n, filled, split, read, same⟩ := eq_of_parseVersionTopic? parsed
      obtain ⟨small, zeros, rfl⟩ := Decimal.naturalUpTo?_eq_some_iff.mp read
      cases same
      refine ⟨fun empty => filled (String.ofList_injective empty), zeros, ?_⟩
      rw [paddedTopicName, String.toList_ofList,
        UInt32.toNat_ofNat_of_lt' (Nat.lt_succ_of_le small), ← split, String.ofList_toList]
  · rintro ⟨filled, zeros, rfl⟩
    have small : version.toNat ≤ Decimal.maxWord32 := Nat.le_of_lt_succ version.toNat_lt
    have read := Decimal.naturalUpTo?_eq_some_iff.mpr ⟨small, zeros, rfl⟩
    have other : parseRealTimeTopic? (paddedTopicName store zeros version).toList = none := by
      rw [Option.eq_none_iff_forall_ne_some]
      intro kind parsed
      obtain ⟨front, -, split, -⟩ := eq_of_parseRealTimeTopic? parsed
      refine paddedTopicName_ne_realTimeTopicName store (String.ofList front) zeros version ?_
      rw [realTimeTopicName, String.toList_ofList, ← split, String.ofList_toList]
    refine .inr ⟨other, ?_⟩
    rw [paddedTopicName, String.toList_ofList, parseVersionTopic?_append (toList_ne_nil.mpr filled)
      (not_versionMark_infix_padded _ _) read, String.ofList_toList, UInt32.ofNat_toNat]

/-- Every name is parsed back, whatever the name of the store holds. So no two topics have one
name. -/
theorem topicNames_parse_back :
    (∀ store version, store ≠ "" →
      parseTopic? (versionTopicName store version) = some (.version store version) ∧
      parseTopic? (realTimeTopicName store) = some (.realTime store)) ∧
    (∀ store version store' version',
      versionTopicName store version = versionTopicName store' version' → store = store' ∧
        version = version') ∧
    (∀ store store', realTimeTopicName store = realTimeTopicName store' → store = store') ∧
    ∀ store version store', versionTopicName store version ≠ realTimeTopicName store' := by
  refine ⟨fun store version filled => ⟨?_, ?_⟩, ?_, ?_, ?_⟩
  · exact parseTopic?_eq_version_iff.mpr ⟨filled, 0, rfl⟩
  · exact parseTopic?_eq_realTime_iff.mpr ⟨filled, rfl⟩
  · intro store version store' version' same
    rw [← paddedTopicName_zero, ← paddedTopicName_zero] at same
    obtain ⟨stores, -, versions⟩ := paddedTopicName_inj.mp same
    exact ⟨stores, versions⟩
  · intro store store' same
    exact String.toList_inj.mp (List.append_cancel_right (String.ofList_injective same))
  · intro store version store'
    exact paddedTopicName_ne_realTimeTopicName store store' 0 version

/-- The name of a store that looks like topics itself, and the largest version. -/
theorem topicNames_parse_back_markedStore :
    "a_v1_rt" ≠ "" ∧
    parseTopic? (versionTopicName "a_v1_rt" 4294967295) = some (.version "a_v1_rt" 4294967295) ∧
    parseTopic? (realTimeTopicName "a_v1_rt") = some (.realTime "a_v1_rt") ∧
    versionTopicName "a_v1_rt" 4294967295 = "a_v1_rt_v4294967295" :=
  have filled : "a_v1_rt" ≠ "" := by decide
  ⟨filled, (topicNames_parse_back.1 "a_v1_rt" 4294967295 filled).1,
    (topicNames_parse_back.1 "a_v1_rt" 4294967295 filled).2, by decide⟩

end StoreFeed
