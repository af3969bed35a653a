import StoreFeed.Proofs.Stats.Calls
import StoreFeed.Proofs.Topic

/-!
# Statistics by the name of a topic

A version is registered by the name of its topic, or by that name with zeros in front of the
version: they are read over. Such a name is that of no topic, and the statistics that it registers
are those of the version without the zeros (`Aggregator.registers_unpadded`).
-/

namespace StoreFeed.Stats.Aggregator

variable {name store : String} {version : UInt32}

theorem registerTopic_of_version (h : parseTopic? name = some (.version store version))
    (a : Aggregator) (now : Int) (profile : ReplicaProfile) :
    a.registerTopic now name profile = a.register now store version profile := by
  rw [registerTopic, h]

/-- Other names are ignored. -/
theorem registerTopic_of_ne (h : ∀ store version, parseTopic? name ≠ some (.version store version))
    (a : Aggregator) (now : Int) (profile : ReplicaProfile) :
    a.registerTopic now name profile = a := by
  unfold registerTopic
  split
  · rename_i parsed
    exact absurd parsed (h _ _)
  · rfl

/-- A version without statistics gets some when it is registered itself. -/
theorem isSome_payload?_register {a : Aggregator} (aligned : a.Aligned)
    (now : Int) (store' : String) (version' : UInt32) (profile : ReplicaProfile)
    (fresh : a.registry.payload? ⟨store, .version version⟩ = none) :
    ((a.register now store' version' profile).registry.payload? ⟨store, .version version⟩).isSome =
      true ↔
      store' = store ∧ version' = version := by
  have after : (a.register now store' version' profile).registry.payload?
      ⟨store, .version version⟩ = _ :=
    aligned.payload?_after (.register now store' version' profile) _
  have covers : Registry.Covers store' version' ⟨store, .version version⟩ ↔
      store' = store ∧ version' = version := by
    simp [Registry.Covers, eq_comm]
  rw [after, Call.effect, fresh, ← covers]
  split
  · rename_i covered
    exact iff_of_true rfl covered
  · rename_i other
    exact iff_of_false (by simp) other

/-- A version without statistics gets some exactly by a name that is taken for that of its topic. -/
theorem isSome_payload?_registerTopic {a : Aggregator} (aligned : a.Aligned) (now : Int)
    (profile : ReplicaProfile) (fresh : a.registry.payload? ⟨store, .version version⟩ = none) :
    ((a.registerTopic now name profile).registry.payload? ⟨store, .version version⟩).isSome = true ↔
      parseTopic? name = some (.version store version) := by
  by_cases registers : ∃ store' version', parseTopic? name = some (.version store' version')
  · obtain ⟨store', version', parsed⟩ := registers
    rw [registerTopic_of_version parsed, isSome_payload?_register aligned _ _ _ _ fresh, parsed,
      Option.some_inj, TopicKind.version.injEq]
  · have other : ∀ store' version', parseTopic? name ≠ some (.version store' version') :=
      fun store' version' parsed => registers ⟨store', version', parsed⟩
    rw [registerTopic_of_ne other, fresh]
    exact iff_of_false (by simp) (other store version)

/-- What a name is taken for, and what it registers. -/
structure TopicReading (name : String) : Prop where
  /-- It is taken for a version's if it is that with zeros in front of the version. -/
  version : ∀ store version, parseTopic? name = some (.version store version) ↔
    store ≠ "" ∧ ∃ zeros, name = paddedTopicName store zeros version
  /-- Then it is the version's name exactly if there are no zeros. -/
  unpadded : ∀ store zeros version, name = paddedTopicName store zeros version →
    (versionTopicName store version = name ↔ zeros = 0)
  /-- It is taken for a real-time topic's if it is that. -/
  realTime : ∀ store, parseTopic? name = some (.realTime store) ↔
    store ≠ "" ∧ realTimeTopicName store = name
  /-- Of names that are taken for the same one, no two are equally long. -/
  alike : ∀ name', (parseTopic? name).isSome → parseTopic? name' = parseTopic? name →
    (name' = name ↔ name'.length = name.length)
  /-- A version without statistics gets some exactly by a name that is taken for its topic's. -/
  registers : ∀ localRegion calls now profile store version,
    ((create localRegion).afterAll calls).registry.payload? ⟨store, .version version⟩ = none →
    (((((create localRegion).afterAll calls).registerTopic now name profile).registry.payload?
      ⟨store, .version version⟩).isSome ↔
        store ≠ "" ∧ ∃ zeros, name = paddedTopicName store zeros version)
  /-- All other names are ignored. -/
  ignored : (∀ store zeros version, store ≠ "" → name ≠ paddedTopicName store zeros version) →
    ∀ a now profile, registerTopic a now name profile = a

theorem length_paddedTopicName (store : String) (zeros : Nat) (version : UInt32) :
    (paddedTopicName store zeros version).length = zeros +
    (versionTopicName store version).length := by
  simp [paddedTopicName, versionTopicName, Decimal.padded]
  omega

/-- Every name that is taken for a topic's is that, up to zeros in front of the version, and
registers that version; all other names are ignored. -/
theorem registers_unpadded (name : String) : TopicReading name where
  version store version := parseTopic?_eq_version_iff
  unpadded := by
    rintro store zeros version rfl
    rw [eq_comm]
    exact paddedTopicName_eq_versionTopicName
  realTime store := by rw [parseTopic?_eq_realTime_iff, eq_comm (a := name)]
  alike name' taken same := by
    refine ⟨congrArg String.length, fun lengths => ?_⟩
    obtain ⟨kind, parsed⟩ := Option.isSome_iff_exists.mp taken
    rw [parsed] at same
    cases kind with
    | version store version =>
      obtain ⟨-, zeros, rfl⟩ := parseTopic?_eq_version_iff.mp parsed
      obtain ⟨-, zeros', rfl⟩ := parseTopic?_eq_version_iff.mp same
      rw [length_paddedTopicName, length_paddedTopicName] at lengths
      rw [Nat.add_right_cancel lengths]
    | realTime store =>
      rw [(parseTopic?_eq_realTime_iff.mp parsed).2, (parseTopic?_eq_realTime_iff.mp same).2]
  registers localRegion calls now profile store version fresh := by
    have aligned := (aligned_create localRegion).afterAll calls
    rw [isSome_payload?_registerTopic aligned now profile fresh, parseTopic?_eq_version_iff]
  ignored others a now profile := by
    refine registerTopic_of_ne (fun store version parsed => ?_) a now profile
    obtain ⟨filled, zeros, same⟩ := parseTopic?_eq_version_iff.mp parsed
    exact others store zeros version filled same

/-- A zero in front makes a name that no version has, and it registers the version without the
zero. -/
theorem registered_padded :
    parseTopic? "orders_v04" = some (.version "orders" 4) ∧
    (∀ store version, versionTopicName store version ≠ "orders_v04") ∧
    (∀ a now profile, registerTopic a now "orders_v04" profile =
      registerTopic a now "orders_v4" profile) ∧
    (((create "dc0").registerTopic 0 "orders_v04" ⟨false, false, SortedMap.empty⟩).registry.payload?
      ⟨"orders", .version 4⟩).isSome = true := by
  have padded : "orders_v04" = paddedTopicName "orders" 1 4 := by decide
  have parsed : parseTopic? "orders_v04" = some (.version "orders" 4) := by decide
  have plain : parseTopic? "orders_v4" = some (.version "orders" 4) := by decide
  refine ⟨parsed, fun store version same => ?_, fun a now profile => ?_, ?_⟩
  · rw [padded, ← paddedTopicName_zero, paddedTopicName_inj] at same
    cases same.2.1
  · rw [registerTopic_of_version parsed, registerTopic_of_version plain]
  · rw [isSome_payload?_registerTopic (aligned_create "dc0") 0 _ rfl, parsed]

end StoreFeed.Stats.Aggregator
