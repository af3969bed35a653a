import StoreFeed.Proofs.Cluster.Rereading

/-!
# Which restarts do no harm

Restarts of standbys do no harm exactly over version topics that can be replayed again
(`Cluster.harmless_iff_replayable`). Not every topic can: an update may follow a value that it
cannot be merged into.
-/

namespace StoreFeed

namespace Cluster

/-- A host, `a`, that polls some records at once. -/
def loneHost (limit : Nat) : Cluster :=
  ⟨SortedMap.ofList [("a", Host.create { HostSettings.standard with pollBatchSize := limit })],
    ⟨startTime, Log.empty, Metrics.ReplicaMetrics.empty⟩⟩

theorem create_loneHost {limit : Nat} (h : 0 < limit) :
    Cluster.create (SortedMap.ofList
      [("a", { HostSettings.standard with pollBatchSize := limit })]) = .ok (loneHost limit) := by
  have build :
      Host.build ⟨{ HostSettings.standard with pollBatchSize := limit }, true, true, none⟩ =
      .ok (Host.create { HostSettings.standard with pollBatchSize := limit }) := by
    unfold Host.build HostSettings.validate
    rw [if_neg (Nat.ne_of_gt h)]
    rfl
  have entries : (SortedMap.ofList
      [("a", { HostSettings.standard with pollBatchSize := limit })]).entries =
      [("a", { HostSettings.standard with pollBatchSize := limit })] := rfl
  unfold Cluster.create
  rw [entries, List.mapM_cons, List.mapM_nil]
  simp only [build]
  rfl

theorem find?_loneHost (limit : Nat) : (loneHost limit).hosts.find? "a" =
    some (Host.create { HostSettings.standard with pollBatchSize := limit }) := by
  show (SortedMap.empty.insert "a" _).find? "a" = _
  rw [SortedMap.find?_insert_self]

variable {id : ReplicaId} {settings : VersionSettings} {c : Cluster} {records : List ChangeRecord}

/-- The lone host has not started its replica, and the version topic is written up to a record. -/
structure Written (id : ReplicaId) (settings : VersionSettings) (records : List ChangeRecord)
    (n : Nat) (c : Cluster) : Prop where
  sound : c.Sound id settings
  harmless : c.Harmless id settings records 0 "a"
  hosts : c.hosts = (loneHost records.length).hosts
  available : c.commons.log.available
  topic : c.versionRecords id = records.take n

namespace Written

theorem feed? {n : Nat} (h : c.Written id settings records n) : c.feed? id "a" = none := by
  unfold Cluster.feed? replica?
  rw [h.hosts, find?_loneHost]
  rfl

theorem data {n : Nat} (h : c.Written id settings records n) :
    c.data id "a" = ReplicaData.empty := by
  unfold Cluster.data
  rw [h.hosts, find?_loneHost]
  rfl

theorem stands {n : Nat} (h : c.Written id settings records n) : c.StandsBy id "a" := by
  unfold StandsBy
  rw [h.feed?]
  rfl

theorem position {n : Nat} (h : c.Written id settings records n) : c.position id "a" = 0 := by
  unfold Cluster.position
  rw [h.feed?]

theorem fair {n : Nat} (h : c.Written id settings records n) : c.Fair records.length "a" := by
  refine ⟨_, by rw [h.hosts, find?_loneHost], fun r awake => ?_⟩
  unfold Run.weather
  rw [awake, h.available]
  rfl

/-- The next record is appended. -/
theorem append {n : Nat} (h : c.Written id settings records n) (numbered : Numbered records)
    (hn : n < records.length) :
    (c.happen id settings (.append id.versionTopic records[n])).Written id settings records
      (n + 1) where
  sound := h.sound.happen _
  harmless := by
    have harmless := h.harmless.happen h.stands (.append id.versionTopic records[n])
    rw [h.position] at harmless
    exact harmless
  hosts := h.hosts
  available := h.available
  topic := by
    have offset : records[n].offset = n := numbered n _ (List.getElem?_eq_getElem hn)
    have length : (c.commons.log.records id.versionTopic).length = n := by
      show (c.versionRecords id).length = n
      rw [h.topic, List.length_take, Nat.min_eq_left (Nat.le_of_lt hn)]
    show (c.commons.log.append id.versionTopic records[n]).2.records id.versionTopic = _
    have same : ∀ r : ChangeRecord, r.offset = n → { r with offset := n } = r := by
      rintro r rfl
      rfl
    rw [Log.records_append_self, length, same _ offset]
    show c.versionRecords id ++ _ = _
    rw [h.topic, List.take_add_one, List.getElem?_eq_getElem hn]
    rfl

end Written

/-- Where no restart does harm the lone host can start a standby over the whole version topic. -/
theorem comes_of_harmless (plain : settings.hybrid = none) (numbered : Numbered records)
    (nonempty : 0 < records.length)
    (harmless : (loneHost records.length).Harmless id settings records 0 "a") :
    ∃ log, Comes id settings records "a" 0
      (Feed.create id settings .standby ReplicaData.empty log) := by
  have written : ∀ n ≤ records.length, ∃ c : Cluster, c.Written id settings records n := by
    intro n
    induction n with
    | zero =>
      exact fun _ => ⟨_, .of_create (create_loneHost nonempty) id settings, harmless, rfl, rfl, rfl⟩
    | succ n ih =>
      intro hn
      obtain ⟨c, hc⟩ := ih (Nat.le_of_succ_le hn)
      exact ⟨_, hc.append numbered hn⟩
  obtain ⟨c, hc⟩ := written records.length (Nat.le_refl _)
  have started := hc.fair.start id plain
  rw [hc.data] at started
  have harmless := hc.harmless.happen hc.stands (.start "a" .standby)
  rw [hc.position] at harmless
  have topic := hc.topic
  rw [List.take_length] at topic
  exact ⟨_, _, hc.sound.happen _, harmless, started, rfl, topic, Nat.le_refl _⟩

/-- No standby of a version with a schema is harmed by restarts, at whatever steps of whatever run
they happen, exactly if its version topic can be replayed again. -/
theorem harmless_iff_replayable {schema : Schema} (numbered : Numbered records)
    (inRange : ∀ r ∈ records, r.InRange) :
    (∀ (id : ReplicaId) (settings : VersionSettings) (hosts : SortedMap String HostSettings)
      (c : Cluster) (name : String), settings.schema = schema → Cluster.create hosts = .ok c →
      c.Harmless id settings records 0 name) ↔ Replayable schema records := by
  constructor
  -- A lone host that stops at any length of the topic and starts over comes to every update again.
  · intro harmless n contents replayed o r u ho hr payload
    have hr : (records.take n)[o]? = some r := by rw [List.getElem?_take_of_lt ho, hr]
    have hlt : o < (records.take n).length := (List.getElem?_eq_some_iff.mp hr).1
    have lone : (loneHost (records.take n).length).Harmless sampleId
        { VersionSettings.standard with schema } (records.take n) 0 "a" := by
      intro events stands log
      exact harmless sampleId _ _ _ "a" rfl (create_loneHost (Nat.zero_lt_of_lt hlt)) events stands
        (log.trans (List.take_prefix n records))
    obtain ⟨log, comes⟩ := comes_of_harmless rfl (numbered.take n) (Nat.zero_lt_of_lt hlt) lone
    have replayed : replay { VersionSettings.standard with schema }.schema (records.take n) =
        .ok contents := replayed
    exact comes.merges_again replayed rfl
      (fun r hr => inRange r (List.mem_of_mem_take hr)) hr payload
  · intro again id settings hosts c name hschema created events stands log
    have resuming : c.Resuming id settings 0 name := by
      have feed := feed?_of_create created id name
      have data := data_of_create created id name
      refine ⟨?_, Nat.zero_le _, fun k hk => ?_, fun f hf => ?_⟩
      · rw [data]
        rfl
      · rw [data] at hk
        cases hk
      · rw [feed] at hf
        cases hf
    exact resuming.unharmed_run (.of_create created id settings)
      (hschema ▸ again) inRange log stands

/-- Values with a list of tags. -/
def taggedSettings : VersionSettings :=
  { VersionSettings.standard with schema := Schema.empty.withField "tags" .list (.arr []) }

/-- A tag is added. -/
def addTag : PartialUpdate := PartialUpdate.empty.listAdd "tags" [.str "t"]

/-- A tag is added to a value that is replaced later. -/
def tagThenPut : List ChangeRecord :=
  [sampleRecord "k" (.put "\x7b\"tags\":[]\x7d".toUTF8),
    { sampleRecord "k" (.update addTag) with offset := 1 },
    { sampleRecord "k" (.put "\x7b\"tags\":[\"s\"]\x7d".toUTF8) with offset := 2 }]

/-- The tag can be added again, to its own result and to the value that replaces it. -/
theorem replayable_tagThenPut : Replayable taggedSettings.schema tagThenPut := by
  have again : ∀ n ∈ [2, 3],
      (replay taggedSettings.schema (tagThenPut.take n)).toOption.all fun contents =>
        (mergeBytes taggedSettings.schema (contents.get? "k".toUTF8) addTag).toOption.any
          fun value =>
          (contents.find? "k".toUTF8).all fun stored =>
            stored.offset ≠ 1 || stored.value = some value := by
    decide +kernel
  intro n contents replayed o r u ho hr payload
  match o with
  | 0 | 2 =>
    cases hr
    cases payload
  | _ + 3 => cases hr
  | 1 =>
    cases hr
    cases payload
    have two_or_three : min n tagThenPut.length ∈ [2, 3] := by
      have : tagThenPut.length = 3 := rfl
      simp only [List.mem_cons, List.not_mem_nil, or_false]
      omega
    have again := again _ two_or_three
    rw [← List.take_eq_take_min, replayed] at again
    change (mergeBytes taggedSettings.schema (contents.get? "k".toUTF8) addTag).toOption.any
      _ at again
    show ∃ value, mergeBytes taggedSettings.schema (contents.get? "k".toUTF8) addTag = .ok value ∧
      ∀ stored, contents.find? "k".toUTF8 = some stored →
        stored.offset = 1 → stored.value = some value
    cases merged : mergeBytes taggedSettings.schema (contents.get? "k".toUTF8) addTag with
    | error e =>
      rw [merged] at again
      cases again
    | ok value =>
      refine ⟨value, rfl, fun stored held offset => ?_⟩
      rw [merged, held] at again
      simpa [Except.toOption, offset] using again

theorem harmless_iff_replayable_tagThenPut :
    Numbered tagThenPut ∧ (∀ r ∈ tagThenPut, r.InRange) ∧
      ∀ (id : ReplicaId) (settings : VersionSettings) (hosts : SortedMap String HostSettings)
        (c : Cluster) (name : String), settings.schema = taggedSettings.schema →
        Cluster.create hosts = .ok c → c.Harmless id settings tagThenPut 0 name := by
  have numbered : Numbered tagThenPut := by
    intro i r h
    match i with
    | 0 | 1 | 2 => cases h; rfl
    | _ + 3 => cases h
  have inRange : ∀ r ∈ tagThenPut, r.InRange := by
    intro r h
    simp only [tagThenPut, List.mem_cons, List.not_mem_nil, or_false] at h
    rcases h with rfl | rfl | rfl <;> exact ⟨by decide, fun p hp => by cases hp⟩
  exact ⟨numbered, inRange, (harmless_iff_replayable numbered inRange).mpr replayable_tagThenPut⟩

/-- A tag is added, then the list of tags is replaced by a text. -/
def tagThenText : List ChangeRecord :=
  [sampleRecord "k" (.update addTag),
    { sampleRecord "k" (.update (PartialUpdate.empty.set "tags" (.str "none"))) with offset := 1 }]

/-- The standby `a` works through both records, is restarted before it commits, and comes to the
first one again. -/
def restartedStandby : List Event :=
  tagThenText.map (.append sampleId.versionTopic) ++
    .start "a" .standby :: steps "a" 13 ++ .start "a" .standby :: steps "a" 8

theorem harmed_restartedStandby :
    twoHosts.Always sampleId taggedSettings (StandsBy sampleId "a") restartedStandby ∧
      ¬ (twoHosts.run sampleId taggedSettings restartedStandby).Unharmed sampleId taggedSettings
        (twoHosts.furthest sampleId taggedSettings "a" 0 restartedStandby) "a" := by
  refine ⟨by decide +kernel, fun unharmed => ?_⟩
  -- The update of the first record is to be merged into a text.
  have merging : (((twoHosts.run sampleId taggedSettings restartedStandby).feed? sampleId "a").bind
      Feed.merging?).isSome := by decide +kernel
  obtain ⟨⟨r, u⟩, h⟩ := Option.isSome_iff_exists.mp merging
  obtain ⟨f, hf, hmerging⟩ := Option.bind_eq_some_iff.mp h
  have fails : ((twoHosts.run sampleId taggedSettings restartedStandby).feed? sampleId "a").all
      fun f => f.merging?.all fun (r, u) =>
        (replay taggedSettings.schema
          (((twoHosts.run sampleId taggedSettings restartedStandby).versionRecords sampleId).take
            (r.offset + 1))).isOk && !(mergeBytes taggedSettings.schema (f.get? r.key) u).isOk := by
    decide +kernel
  simp only [hf, hmerging, Option.all_some, Bool.and_eq_true] at fails
  obtain ⟨value, merged⟩ := unharmed.merges f r u hf hmerging (by
    cases hfirst : replay taggedSettings.schema
        (((twoHosts.run sampleId taggedSettings restartedStandby).versionRecords sampleId).take
          (r.offset + 1)) with
    | ok first => exact ⟨first, rfl⟩
    | error e =>
      rw [hfirst] at fails
      cases fails.1)
  rw [merged] at fails
  cases fails.2

end Cluster

end StoreFeed
