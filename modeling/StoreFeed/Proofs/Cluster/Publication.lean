import StoreFeed.Proofs.Cluster.Events
import StoreFeed.Proofs.Replica.Stamps

/-!
# What is published again, and how often

Every record that a leader publishes again bears a stamp, so a record that was published twice is a
stamp that stands twice in the version topic. A host that publishes passes all stamps that were
there when it sampled its target. So nothing is published twice as long as nobody else publishes
while a host holds the version topic (`Cluster.Fenced`), through any changes of roles, outages and
restarts.

Roles are changed by each host at its own safe point, so a command to step down that is sent first
need not be obeyed first. `published_once_iff` says what it takes that a record is published at most
once, and `published_twice_handOver` is a run in which the sent order does not suffice.
-/

namespace StoreFeed

namespace Cluster

variable (id : ReplicaId) (settings : VersionSettings)

/-- The stamp that an event puts at the end of the version topic. -/
def newStamp? (c : Cluster) (e : Event) : Option RealTimePosition :=
  stampAt? ((c.happen id settings e).versionRecords id) (c.versionRecords id).length

/-- In a run, a host publishes a real-time record again as the `n`th event. -/
def Publishes (c : Cluster) (events : List Event) (n : Nat) (name : String) (p : RealTimePosition) :
    Prop :=
  events[n]? = some (.step name) ∧
    (c.run id settings (events.take n)).newStamp? id settings (.step name) = some p

/-- A watched stamp comes from one of some hosts, and while no other one of these holds the version
topic. -/
def Fenced (watched : RealTimePosition → Prop) (publishes : String → Prop) (c : Cluster)
    (e : Event) : Prop :=
  ∀ p, c.newStamp? id settings e = some p → watched p → ∃ name, e = .step name ∧ publishes name ∧
    ∀ other f, publishes other → other ≠ name → c.feed? id other = some f → f.holds = false

/-- How the watched stamps stand in the version topic, and the hosts that publish to them. -/
structure Stamped (watched : RealTimePosition → Prop) (publishes : String → Prop) (c : Cluster) :
    Prop where
  ascending : ∀ i j p q, i < j → stampAt? (c.versionRecords id) i = some p →
    stampAt? (c.versionRecords id) j = some q → watched p → watched q → p.region = q.region →
      p.offset < q.offset
  regional : ∀ i p, stampAt? (c.versionRecords id) i = some p → watched p →
    p.region ∈ settings.realTimeRegions
  tracks : ∀ name f, publishes name → c.feed? id name = some f → f.phase.isOver = false →
    f.Tracks watched
  keepsTrack : ∀ name checkpoint, publishes name → (c.data id name).checkpoint = some checkpoint →
    ∀ i p, stampAt? (c.versionRecords id) i = some p → watched p → i < checkpoint.versionOffset →
      checkpoint.Passed p

variable {id settings} {c : Cluster} {watched : RealTimePosition → Prop} {publishes : String → Prop}

/-- Where nothing is appended to the version topic there is no new stamp. -/
theorem newStamp?_of_eq {e : Event}
    (h : (c.happen id settings e).versionRecords id = c.versionRecords id) :
    c.newStamp? id settings e = none := by
  unfold newStamp? stampAt?
  rw [h]
  simp

namespace Sound

/-- A stamp after an event was there, or is the one that the event put at the end. -/
theorem stampAt?_happen (h : c.Sound id settings) {e : Event} {i : Nat} {p : RealTimePosition}
    (hs : stampAt? ((c.happen id settings e).versionRecords id) i = some p) :
    (i < (c.versionRecords id).length ∧ stampAt? (c.versionRecords id) i = some p) ∨
      (i = (c.versionRecords id).length ∧ c.newStamp? id settings e = some p) := by
  have hlength : ((c.happen id settings e).versionRecords id).length ≤
      (c.versionRecords id).length + 1 := by
    have one : ∀ tp r, ((c.commons.log.append tp r).2.records id.versionTopic).length ≤
        (c.versionRecords id).length + 1 := by
      intro tp r
      by_cases htp : id.versionTopic = tp
      · rw [htp, Log.records_append_self, ← htp]
        simp [versionRecords]
      · rw [Log.records_append_of_ne _ htp]
        exact Nat.le_succ _
    rcases h.log_cases e with hsame | ⟨tp, r, _, hlog⟩ | ⟨_, _, _, _, _, _, _, _, hlog⟩
    · rw [versionRecords, hsame]
      exact Nat.le_succ _
    · rw [versionRecords, hlog]
      exact one _ _
    · rw [versionRecords, hlog]
      exact one _ _
  have hi := Nat.lt_of_lt_of_le (lt_of_stampAt? hs) hlength
  rcases Nat.lt_or_eq_of_le (Nat.le_of_lt_succ hi) with hlt | rfl
  · exact .inl ⟨hlt, ((h.extends_log e).stampAt? hlt).symm.trans hs⟩
  · exact .inr ⟨rfl, hs⟩

/-- What a replica publishes is the record in its hands. -/
theorem of_newStamp? (h : c.Sound id settings) {name : String} {p : RealTimePosition}
    (hs : c.newStamp? id settings (.step name) = some p) :
    ∃ f w value, c.feed? id name = some f ∧ f.phase = .working w ∧ w.stage = .publish value ∧
      (c.happen id settings (.step name)).commons.log =
        (c.commons.log.append id.versionTopic (Act.republished w.topic w.record value)).2 ∧
      p = ⟨w.topic.region, w.record.offset⟩ := by
  rcases h.log_cases (.step name) with hsame | ⟨_, _, he, _⟩
      | ⟨_, f, w, value, he, hf, hp, hw, hlog⟩
  · rw [newStamp?_of_eq (hsame _)] at hs
    cases hs
  · cases he
  · cases he
    refine ⟨f, w, value, hf, hp, hw, hlog, ?_⟩
    rw [newStamp?, versionRecords, hlog] at hs
    rcases stampAt?_append hs with ⟨hlt, _⟩ | ⟨_, horigin⟩
    · exact absurd hlt (Nat.lt_irrefl _)
    · cases horigin
      rfl

/-- A record that is appended from outside brings the stamp it bears. -/
theorem newStamp?_append {tp : TopicPartition} {r : ChangeRecord} {p : RealTimePosition}
    (hs : c.newStamp? id settings (.append tp r) = some p) :
    tp = id.versionTopic ∧ r.origin = some p := by
  by_cases htp : id.versionTopic = tp
  · subst htp
    rcases stampAt?_append hs with ⟨hlt, _⟩ | ⟨_, horigin⟩
    · exact absurd hlt (Nat.lt_irrefl _)
    · exact ⟨rfl, horigin⟩
  · have hsame : (c.happen id settings (.append tp r)).versionRecords id = c.versionRecords id :=
      Log.records_append_of_ne _ htp r
    rw [newStamp?_of_eq hsame] at hs
    cases hs

/-- Only steps of replicas and records from outside put stamps into the version topic. -/
theorem newStamp?_cases (h : c.Sound id settings) {e : Event} {p : RealTimePosition}
    (hs : c.newStamp? id settings e = some p) :
    (∃ name, e = .step name) ∨ ∃ r, e = .append id.versionTopic r ∧ r.origin = some p := by
  rcases h.log_cases e with hsame | ⟨tp, r, rfl, _⟩ | ⟨name, _, _, _, he, _⟩
  · rw [newStamp?_of_eq (hsame _)] at hs
    cases hs
  · obtain ⟨rfl, horigin⟩ := newStamp?_append hs
    exact .inr ⟨r, rfl, horigin⟩
  · exact .inl ⟨name, he⟩

end Sound

namespace Stamped

/-- Nothing is stamped at the start. -/
theorem of_created {hosts : SortedMap String HostSettings}
    (created : Cluster.create hosts = .ok c) :
    c.Stamped id settings watched publishes where
  ascending i j p q _ hs := by simp [versionRecords, records_of_create created, stampAt?] at hs
  regional i p hs := by simp [versionRecords, records_of_create created, stampAt?] at hs
  tracks name f _ hf := by simp [feed?_of_create created] at hf
  keepsTrack name checkpoint _ hc := by
    rw [data_of_create created] at hc
    cases hc

/-- What is published next comes behind all that was published of its region. -/
theorem lt_of_newStamp? (h : c.Stamped id settings watched publishes) (sound : c.Sound id settings)
    {name : String} (hpub : publishes name) {i : Nat} {p q : RealTimePosition}
    (hs : stampAt? (c.versionRecords id) i = some p)
    (hq : c.newStamp? id settings (.step name) = some q) (hw : watched p)
    (hregion : p.region = q.region) : p.offset < q.offset := by
  obtain ⟨f, w, value, hf, phase, stage, _, rfl⟩ := sound.of_newStamp? hq
  have live : f.phase.isOver = false := by rw [phase]; rfl
  rw [← sound.versionRecords_feed hf] at hs
  exact (h.tracks name f hpub hf live).lt_of_publish (sound.flow name f hf live)
    (sound.indexed_feed hf) phase stage hs hw hregion

/-- The last checkpoint of a host that publishes keeps track of watched stamps. -/
theorem keepsTrack_feed (h : c.Stamped id settings watched publishes) (sound : c.Sound id settings)
    {name : String} (hpub : publishes name) {f : Feed} (hf : c.feed? id name = some f) :
    f.KeepsTrack watched := by
  intro checkpoint hc
  rw [sound.versionRecords_feed hf]
  rw [data_of_feed? hf (sound.identity name f hf).1] at hc
  exact h.keepsTrack name checkpoint hpub hc

theorem ascending_happen (h : c.Stamped id settings watched publishes) (sound : c.Sound id settings)
    {e : Event} (fenced : c.Fenced id settings watched publishes e) {i j : Nat}
    {p q : RealTimePosition} (hij : i < j)
    (hp : stampAt? ((c.happen id settings e).versionRecords id) i = some p)
    (hq : stampAt? ((c.happen id settings e).versionRecords id) j = some q)
    (hwp : watched p) (hwq : watched q) (hregion : p.region = q.region) : p.offset < q.offset := by
  rcases sound.stampAt?_happen hq with ⟨_, hq⟩ | ⟨rfl, hq⟩
  · rcases sound.stampAt?_happen hp with ⟨_, hp⟩ | ⟨rfl, _⟩
    · exact h.ascending i j p q hij hp hq hwp hwq hregion
    · have hj := lt_of_stampAt? hq
      omega
  · rcases sound.stampAt?_happen hp with ⟨_, hp⟩ | ⟨rfl, _⟩
    · obtain ⟨name, he, hpub, _⟩ := fenced q hq hwq
      exact h.lt_of_newStamp? sound hpub hp (he ▸ hq) hwp hregion
    · exact absurd hij (Nat.lt_irrefl _)

theorem regional_happen (h : c.Stamped id settings watched publishes) (sound : c.Sound id settings)
    {e : Event} (fenced : c.Fenced id settings watched publishes e) {i : Nat} {p : RealTimePosition}
    (hp : stampAt? ((c.happen id settings e).versionRecords id) i = some p) (hw : watched p) :
    p.region ∈ settings.realTimeRegions := by
  rcases sound.stampAt?_happen hp with ⟨_, hp⟩ | ⟨_, hp⟩
  · exact h.regional i p hp hw
  · obtain ⟨name, rfl, _⟩ := fenced p hp hw
    obtain ⟨f, w, value, hf, phase, stage, _, rfl⟩ := sound.of_newStamp? hp
    have flow := sound.flow name f hf (by rw [phase]; rfl)
    have hv := flow.not_readsVersion phase stage
    rw [← (sound.identity name f hf).2]
    exact (flow.realTime (sound.indexed_feed hf) phase hv).2.2.1

/-- A new stamp of another host: the fence says that this one does not hold the version topic, so it
neither aims at its end nor has turned to the real-time topics. -/
theorem lt_of_fenced (sound : c.Sound id settings) {e : Event}
    (fenced : c.Fenced id settings watched publishes e) {name : String} (hpub : publishes name)
    {f : Feed} (hf : c.feed? id name = some f) (ended : f.phase.isOver = false)
    (log : e = .step name → (c.happen id settings e).commons.log = c.commons.log)
    (holds : f.consumesRealTime ∨ f.catchUpTarget.isSome) {i : Nat} {p : RealTimePosition}
    (hp : stampAt? ((c.happen id settings e).versionRecords id) i = some p) (hw : watched p) :
    i < (c.versionRecords id).length := by
  rcases sound.stampAt?_happen hp with ⟨hlt, _⟩ | ⟨_, hp⟩
  · exact hlt
  · obtain ⟨name', rfl, _, others⟩ := fenced p hp hw
    by_cases hname : name = name'
    · subst hname
      rw [newStamp?_of_eq (by rw [versionRecords, log rfl, versionRecords])] at hp
      cases hp
    · have hfree := others name f hpub hname hf
      rw [Feed.holds, ended] at hfree
      rcases holds with hc | ht
      · simp [hc] at hfree
      · simp [ht] at hfree

theorem tracks_happen (h : c.Stamped id settings watched publishes) (sound : c.Sound id settings)
    {e : Event} (fenced : c.Fenced id settings watched publishes e) {name : String}
    (hpub : publishes name) {g : Feed} (hg : (c.happen id settings e).feed? id name = some g)
    (ended : g.phase.isOver = false) : g.Tracks watched := by
  cases sound.fate e name with
  | stays feed data log =>
    rw [feed, Option.map_eq_some_iff] at hg
    obtain ⟨f, hf, rfl⟩ := hg
    have hlog := log_of_feed? hf
    refine (h.tracks name f hpub hf ended).withLog (sound.flow name f hf ended)
      (hlog ▸ sound.extends_log e) fun holds i p hp hw => ?_
    rw [(sound.identity name f hf).1] at hp
    rw [sound.versionRecords_feed hf]
    exact lt_of_fenced sound fenced hpub hf ended log holds hp hw
  | moves f g' _ before after _ move =>
    rw [after, Option.some.injEq] at hg
    subst hg
    have live := move.live ended
    exact (h.tracks name f hpub before live).move (h.keepsTrack_feed sound hpub before)
      (sound.flow name f before live) (sound.indexed_feed before) move ended
  | starts role _ feed =>
    rw [feed, Option.some.injEq] at hg
    subst hg
    exact .of_created rfl rfl rfl

theorem keepsTrack_happen (h : c.Stamped id settings watched publishes)
    (sound : c.Sound id settings)
    {e : Event} {name : String} {checkpoint : Checkpoint} (hpub : publishes name)
    (hc : ((c.happen id settings e).data id name).checkpoint = some checkpoint) {i : Nat}
    {p : RealTimePosition}
    (hp : stampAt? ((c.happen id settings e).versionRecords id) i = some p) (hw : watched p)
    (hi : i < checkpoint.versionOffset) : checkpoint.Passed p := by
  -- A checkpoint that is not new is not behind the end.
  have same : (c.data id name).checkpoint = some checkpoint → checkpoint.Passed p := by
    intro hc
    rcases sound.stampAt?_happen hp with ⟨_, hp⟩ | ⟨rfl, _⟩
    · exact h.keepsTrack name checkpoint hpub hc i p hp hw hi
    · exact absurd (sound.kept name checkpoint hc) (Nat.not_le.mpr hi)
  cases sound.fate e name with
  | stays _ data => exact same (data ▸ hc)
  | starts _ _ _ data => exact same (data ▸ hc)
  | moves f g _ before after _ move data log =>
    have regional : f.Regional watched := by
      intro i p hs hw
      rw [(sound.identity name f before).2]
      exact h.regional i p (sound.versionRecords_feed before ▸ hs) hw
    have hg : g.versionRecords = (c.happen id settings e).versionRecords id :=
      (sound.happen e).versionRecords_feed after
    exact (h.keepsTrack_feed sound hpub before).move (sound.kept_feed before)
      (sound.flow name f before)
      (h.tracks name f hpub before) regional move checkpoint (data ▸ hc) i p (hg ▸ hp) hw hi

/-- A fenced event keeps the stamps in order. -/
theorem happen (h : c.Stamped id settings watched publishes) (sound : c.Sound id settings)
    {e : Event} (fenced : c.Fenced id settings watched publishes e) :
    (c.happen id settings e).Stamped id settings watched publishes where
  ascending _ _ _ _ hij hp hq hwp hwq hregion :=
    h.ascending_happen sound fenced hij hp hq hwp hwq hregion
  regional _ _ hp hw := h.regional_happen sound fenced hp hw
  tracks _ _ hpub hg ended := h.tracks_happen sound fenced hpub hg ended
  keepsTrack _ _ hpub hc _ _ hp hw hi := h.keepsTrack_happen sound hpub hc hp hw hi

/-- A fenced run keeps the stamps in order. -/
theorem of_run {hosts : SortedMap String HostSettings} (created : Cluster.create hosts = .ok c)
    {events : List Event}
    (fenced : c.Along id settings (Fenced id settings watched publishes) events) :
    (c.run id settings events).Stamped id settings watched publishes := by
  have := run_induction (I := fun c => c.Sound id settings ∧
    c.Stamped id settings watched publishes)
    (fun c e h fenced => ⟨h.1.happen e, h.2.happen h.1 fenced⟩)
    ⟨.of_create created id settings, .of_created created⟩ fenced
  exact this.2

end Stamped

/-! ## Positions of a run -/

/-- One more event of a run. -/
theorem run_take_succ {events : List Event} {n : Nat} {e : Event} (h : events[n]? = some e) :
    c.run id settings (events.take (n + 1)) =
      (c.run id settings (events.take n)).happen id settings e := by
  rw [List.take_add_one, h, Option.toList_some, run_append]

theorem run_take_succ_of_none {events : List Event} {n : Nat} (h : events[n]? = none) :
    c.run id settings (events.take (n + 1)) = c.run id settings (events.take n) := by
  rw [List.take_add_one, h, Option.toList_none, List.append_nil]

/-- What holds of every event where it happens holds along the run. -/
theorem along_of_forall {P : Cluster → Event → Prop} {events : List Event}
    (h : ∀ n e, events[n]? = some e → P (c.run id settings (events.take n)) e) :
    c.Along id settings P events := by
  induction events generalizing c with
  | nil => trivial
  | cons e rest ih => exact ⟨h 0 e rfl, ih fun n e' he => h (n + 1) e' he⟩

/-- What holds along a run holds of every event where it happens. -/
theorem Along.getElem? {P : Cluster → Event → Prop} {events : List Event}
    (h : c.Along id settings P events) {n : Nat} {e : Event} (he : events[n]? = some e) :
    P (c.run id settings (events.take n)) e := by
  induction events generalizing c n with
  | nil => cases he
  | cons e' rest ih =>
    cases n with
    | zero =>
      cases he
      exact h.1
    | succ n => exact ih h.2 he

theorem Along.take {P : Cluster → Event → Prop} {events : List Event}
    (h : c.Along id settings P events) (n : Nat) : c.Along id settings P (events.take n) := by
  refine along_of_forall fun k e he => ?_
  rw [List.getElem?_take] at he
  split at he
  · rename_i hk
    rw [List.take_take, Nat.min_eq_left (Nat.le_of_lt hk)]
    exact h.getElem? he
  · cases he

/-- The log only grows from one event of a run to the next. -/
theorem extends_take {hosts : SortedMap String HostSettings}
    (created : Cluster.create hosts = .ok c) (events : List Event) {n m : Nat} (hle : n ≤ m) :
    (c.run id settings (events.take n)).commons.log.Extends
      (c.run id settings (events.take m)).commons.log := by
  have hsplit : events.take m = events.take n ++ (events.drop n).take (m - n) := by
    rw [← List.take_add, Nat.add_sub_cancel' hle]
  rw [hsplit, run, run, List.foldl_append]
  exact (Sound.of_run created id settings _).extends_run _

section Runs

variable {hosts : SortedMap String HostSettings} (created : Cluster.create hosts = .ok c)
  {events : List Event}
include created

/-- What was published stands where it was put from then on. -/
theorem Publishes.stampAt? {n m : Nat} {name : String} {p : RealTimePosition}
    (h : c.Publishes id settings events n name p) (hlt : n < m) :
    StoreFeed.stampAt? ((c.run id settings (events.take m)).versionRecords id)
      ((c.run id settings (events.take n)).versionRecords id).length = some p := by
  obtain ⟨hevent, hstamp⟩ := h
  rw [newStamp?, ← run_take_succ hevent] at hstamp
  exact ((extends_take created events hlt).stampAt? (lt_of_stampAt? hstamp)).trans hstamp

/-- What comes later stands behind what was published. -/
theorem Publishes.length_lt {n m : Nat} {name : String} {p : RealTimePosition}
    (h : c.Publishes id settings events n name p) (hlt : n < m) :
    ((c.run id settings (events.take n)).versionRecords id).length <
      ((c.run id settings (events.take m)).versionRecords id).length := by
  obtain ⟨hevent, hstamp⟩ := h
  rw [newStamp?, ← run_take_succ hevent] at hstamp
  exact Nat.lt_of_lt_of_le (lt_of_stampAt? hstamp) ((extends_take created events hlt).length_le _)

/-- Every event is fenced if nobody publishes a record while another host holds the version topic
that will publish it too. -/
theorem fenced_of_free (unstamped : ∀ r, .append id.versionTopic r ∈ events → r.origin = none)
    {p : RealTimePosition} (free : ∀ n m name other, n < m →
      c.Publishes id settings events n name p → c.Publishes id settings events m other p →
      name ≠ other →
      ∀ f, (c.run id settings (events.take n)).feed? id other = some f → f.holds = false) :
    ∀ n e, events[n]? = some e → Fenced id settings (· = p)
      (fun name => ∃ m, c.Publishes id settings events m name p)
      (c.run id settings (events.take n)) e := by
  intro n
  -- The order of the stamps before an event needs all events before it to be fenced.
  induction n using Nat.strongRecOn with
  | _ n ih =>
    intro e he q hstamp hq
    subst hq
    have before : c.Along id settings (Fenced id settings (· = q)
        fun name => ∃ m, c.Publishes id settings events m name q) (events.take n) := by
      refine along_of_forall fun k e' he' => ?_
      rw [List.getElem?_take] at he'
      split at he'
      · rename_i hk
        rw [List.take_take, Nat.min_eq_left (Nat.le_of_lt hk)]
        exact ih k hk e' he'
      · cases he'
    have sound := Sound.of_run created id settings (events.take n)
    rcases sound.newStamp?_cases hstamp with ⟨name, rfl⟩ | ⟨r, rfl, hr⟩
    · refine ⟨name, rfl, ⟨n, he, hstamp⟩, fun other f => ?_⟩
      rintro ⟨m, h'⟩ hne hf
      rcases Nat.lt_trichotomy m n with hlt | rfl | hlt
      · -- What was published before is not published again.
        have hold := h'.stampAt? created hlt
        have := (Stamped.of_run created before).lt_of_newStamp? sound ⟨n, he, hstamp⟩ hold hstamp
          rfl rfl
        exact absurd this (Nat.lt_irrefl _)
      · cases he.symm.trans h'.1
        exact absurd rfl hne
      · exact free n m name other hlt ⟨he, hstamp⟩ h' (Ne.symm hne) f hf
    · rw [unstamped r (List.mem_of_getElem? he)] at hr
      cases hr

/-- A real-time record is published at most once exactly if nobody publishes it while another host
holds the version topic that will publish it too. This is for any number of hosts, changes of roles,
outages and restarts; nobody else stamps records of the version topic. -/
theorem published_once_iff
    (unstamped : ∀ r, .append id.versionTopic r ∈ events → r.origin = none) (p : RealTimePosition) :
    (∀ i j, stampAt? ((c.run id settings events).versionRecords id) i = some p →
        stampAt? ((c.run id settings events).versionRecords id) j = some p → i = j) ↔
      ∀ n m name other, n < m → c.Publishes id settings events n name p →
        c.Publishes id settings events m other p → name ≠ other →
        ∀ f, (c.run id settings (events.take n)).feed? id other = some f → f.holds = false := by
  constructor
  · intro once n m name other hlt h h' _
    have stands : ∀ {k host}, c.Publishes id settings events k host p →
        stampAt? ((c.run id settings events).versionRecords id)
          ((c.run id settings (events.take k)).versionRecords id).length = some p := by
      intro k host hk
      have hend := hk.stampAt? created (List.getElem?_eq_some_iff.mp hk.1).1
      rwa [List.take_length] at hend
    have heq := once _ _ (stands h) (stands h')
    exact absurd heq (Nat.ne_of_lt (h.length_lt created hlt))
  · intro free
    have stamped := Stamped.of_run created (along_of_forall (fenced_of_free created unstamped free))
    intro i j hi hj
    rcases Nat.lt_trichotomy i j with hlt | heq | hlt
    · exact absurd (stamped.ascending i j p p hlt hi hj rfl rfl rfl) (Nat.lt_irrefl _)
    · exact heq
    · exact absurd (stamped.ascending j i p p hlt hj hi rfl rfl rfl) (Nat.lt_irrefl _)

end Runs

/-- The host `a` leads and has a record of the real-time topic in its hands when it is told to step
down. The host `b` is told to lead after that, obeys first, and publishes the record; then `a`
does. -/
def handOver : List Event :=
  .append sampleId.versionTopic (sampleRecord "k" (.control .endOfPush)) ::
    .append (sampleId.realTimeTopic none) (sampleRecord "k" (.put "1".toUTF8)) ::
    .start "a" .leader :: .start "b" .standby :: steps "b" 9 ++ steps "a" 22 ++
    .tell "a" (.changeRole .standby) :: .tell "b" (.changeRole .leader) ::
      steps "b" 14 ++ steps "a" 1

theorem stampAt?_handOver :
    stampAt? ((twoHosts.run sampleId hybridSettings handOver).versionRecords sampleId) 1 =
        some ⟨none, 0⟩ ∧
      stampAt? ((twoHosts.run sampleId hybridSettings handOver).versionRecords sampleId) 2 =
        some ⟨none, 0⟩ := by
  decide +kernel

/-- That `a` is told first does not keep a record from being published twice. -/
theorem published_twice_handOver : ¬ ∀ i j,
    stampAt? ((twoHosts.run sampleId hybridSettings handOver).versionRecords sampleId) i =
        some ⟨none, 0⟩ →
      stampAt? ((twoHosts.run sampleId hybridSettings handOver).versionRecords sampleId) j =
        some ⟨none, 0⟩ → i = j := by
  intro once
  exact absurd (once 1 2 stampAt?_handOver.1 stampAt?_handOver.2) (by decide)

/-- So one of the two published it while the other one held the version topic. -/
theorem published_once_iff_handOver : ¬ ∀ n m name other, n < m →
    twoHosts.Publishes sampleId hybridSettings handOver n name ⟨none, 0⟩ →
      twoHosts.Publishes sampleId hybridSettings handOver m other ⟨none, 0⟩ → name ≠ other →
      ∀ f, (twoHosts.run sampleId hybridSettings (handOver.take n)).feed? sampleId other = some f →
        f.holds = false := by
  intro free
  have unstamped : ∀ r, .append sampleId.versionTopic r ∈ handOver → r.origin = none := by
    simp [handOver, steps, sampleRecord]
  have once := (published_once_iff create_twoHosts unstamped ⟨none, 0⟩).mpr free
  exact absurd (once 1 2 stampAt?_handOver.1 stampAt?_handOver.2) (by decide)

end Cluster

end StoreFeed
