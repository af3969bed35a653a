import StoreFeed.Proofs.Cluster.Events
import StoreFeed.Proofs.Replica.Resume

/-!
# Restarts of a standby

A standby that is started again goes on from its last checkpoint, while its contents are those of
the furthest position that it reached before. `Unharmed` says that no restart shows: the contents
are what one replay of the version topic up to there gives, and every update is merged that the
replay merges. In a version topic that can be replayed again no restart does harm
(`Resuming.unharmed_run`).
-/

namespace StoreFeed

/-- The record that is about to be merged into the stored value, with its update. -/
def Feed.merging? (f : Feed) : Option (ChangeRecord × PartialUpdate) :=
  match f.phase with
  | .working w =>
    match w.stage with
    | .merge u => some (w.record, u)
    | _ => none
  | _ => none

theorem Feed.merging?_eq_some {f : Feed} {r : ChangeRecord} {u : PartialUpdate}
    (h : f.merging? = some (r, u)) :
    ∃ w, f.phase = .working w ∧ w.stage = .merge u ∧ w.record = r := by
  unfold merging? at h
  split at h
  · rename_i w hp
    split at h
    · rename_i u' hs
      cases h
      exact ⟨w, hp, hs, rfl⟩
    · cases h
  · cases h

namespace Cluster

variable (id : ReplicaId) (settings : VersionSettings)

/-- Something holds at every moment of a run. -/
def Always (P : Cluster → Prop) (c : Cluster) : List Event → Prop
  | [] => P c
  | e :: rest => P c ∧ Always P (c.happen id settings e) rest

/-- Whether something holds at every moment can be evaluated where it can be for a cluster. -/
def decidableAlways (P : Cluster → Prop) [∀ c, Decidable (P c)] :
    (c : Cluster) → (events : List Event) → Decidable (c.Always id settings P events)
  | c, [] => inferInstanceAs (Decidable (P c))
  | c, e :: rest => @instDecidableAnd _ _ _ (decidableAlways P (c.happen id settings e) rest)

instance (P : Cluster → Prop) [∀ c, Decidable (P c)] (c : Cluster) (events : List Event) :
    Decidable (c.Always id settings P events) := decidableAlways id settings P c events

/-- The position of the replica of a host. -/
def position (c : Cluster) (name : String) : Nat :=
  match c.feed? id name with
  | some f => f.tracker.versionPosition
  | none => 0

/-- The furthest position that the replica of a host had, before a run or along it. -/
def furthest (name : String) (reached : Nat) (c : Cluster) : List Event → Nat
  | [] => max reached (c.position id name)
  | e :: rest => furthest name (max reached (c.position id name)) (c.happen id settings e) rest

/-- The replica of a host, if there is one, stands by. -/
def StandsBy (name : String) (c : Cluster) : Prop :=
  (c.feed? id name).all fun f => f.role = .standby

instance (name : String) (c : Cluster) : Decidable (c.StandsBy id name) :=
  inferInstanceAs (Decidable (_ = true))

/-- Restarts did a host no harm: it stores what the version topic says up to the furthest position,
and the update that it is about to merge can be merged if a replay from the start merges it. -/
structure Unharmed (reached : Nat) (name : String) (c : Cluster) : Prop where
  contents : replay settings.schema ((c.versionRecords id).take reached) =
    .ok (c.data id name).values
  merges : ∀ f r u, c.feed? id name = some f → f.merging? = some (r, u) →
    (∃ first, replay settings.schema ((c.versionRecords id).take (r.offset + 1)) = .ok first) →
    ∃ value, mergeBytes settings.schema (f.get? r.key) u = .ok value

/-- How a host stands that never did anything but stand by. -/
structure Resuming (reached : Nat) (name : String) (c : Cluster) : Prop where
  contents : replay settings.schema ((c.versionRecords id).take reached) =
    .ok (c.data id name).values
  within : reached ≤ (c.versionRecords id).length
  kept : ∀ k, (c.data id name).checkpoint = some k → k.versionOffset ≤ reached
  resumes : ∀ f, c.feed? id name = some f → f.Resumes reached

variable {id settings} {c : Cluster} {name : String} {reached : Nat}
  {records : List ChangeRecord}

theorem role_of_standsBy {f : Feed} (h : c.StandsBy id name) (hf : c.feed? id name = some f) :
    f.role = .standby := by
  unfold StandsBy at h
  rw [hf] at h
  exact of_decide_eq_true h

theorem position_of_feed? {f : Feed} (h : c.feed? id name = some f) :
    c.position id name = f.tracker.versionPosition := by
  unfold position
  rw [h]

/-- The position before a run counts as one that was reached. -/
theorem furthest_max (events : List Event) :
    c.furthest id settings name (max reached (c.position id name)) events =
      c.furthest id settings name reached events := by
  cases events <;> rw [furthest, furthest, Nat.max_assoc, Nat.max_self]

namespace Resuming

theorem position_le (h : c.Resuming id settings reached name) : c.position id name ≤ reached := by
  unfold position
  split
  · rename_i f hf
    exact (h.resumes f hf).position
  · exact Nat.zero_le _

/-- The same replica over a log that may have grown. -/
theorem stays (h : c.Resuming id settings reached name) {c' : Cluster}
    (log : c.commons.log.Extends c'.commons.log)
    (feed : c'.feed? id name =
      (c.feed? id name).map fun f => { f with log := c'.commons.log })
    (data : c'.data id name = c.data id name) : c'.Resuming id settings reached name where
  contents := by
    show replay settings.schema ((c'.commons.log.records id.versionTopic).take reached) = _
    rw [log.take h.within, data]
    exact h.contents
  within := Nat.le_trans h.within (log.length_le _)
  kept k hk := h.kept k (data ▸ hk)
  resumes g hg := by
    rw [feed, Option.map_eq_some_iff] at hg
    obtain ⟨f, hf, rfl⟩ := hg
    exact (h.resumes f hf).withLog (log_of_feed? hf ▸ log)

/-- A host that stands by over a topic that can be replayed again goes on as it should. -/
theorem happen (h : c.Resuming id settings reached name) (sound : c.Sound id settings)
    (log : c.versionRecords id <+: records) (again : Replayable settings.schema records)
    (inRange : ∀ r ∈ records, r.InRange) (stands : c.StandsBy id name) (e : Event) :
    (c.happen id settings e).Resuming id settings
      (max reached ((c.happen id settings e).position id name)) name := by
  cases sound.fate e name with
  | stays feed data =>
    have rests := h.stays (sound.extends_log e) feed data
    rw [Nat.max_eq_left rests.position_le]
    exact rests
  | moves f g event before after alive move data hlog =>
    obtain ⟨hid, hsettings⟩ := sound.identity name f before
    have hrecords := sound.versionRecords_feed before
    have resumes : g.Resumes (max reached g.tracker.versionPosition) := by
      refine (h.resumes f before).move (sound.flow name f before) (sound.indexed_feed before)
        (role_of_standsBy stands before) ?_ ?_ move
      · rw [hsettings, hrecords]
        exact again.of_prefix log
      · intro r hr
        exact inRange r (log.subset (hrecords ▸ hr))
    have hrecords' := (sound.happen e).versionRecords_feed after
    rw [position_of_feed? after]
    refine ⟨?_, ?_, ?_, ?_⟩
    · rw [data, ← hrecords', ← hsettings, ← move.settings_eq]
      exact resumes.contents
    · rw [← hrecords']
      exact resumes.within
    · intro k hk
      exact resumes.kept k (data ▸ hk)
    · intro g' hg
      rw [after, Option.some.injEq] at hg
      exact hg ▸ resumes
  | starts role event feed data hlog =>
    -- The position starts over at 0 while what is stored stays: this is where the two part.
    have hposition : (c.happen id settings e).position id name = 0 := position_of_feed? feed
    have hrecords : (c.happen id settings e).versionRecords id = c.versionRecords id :=
      congrArg (Log.records · id.versionTopic) hlog
    rw [hposition, Nat.max_zero]
    refine ⟨?_, ?_, ?_, ?_⟩
    · rw [data, hrecords]
      exact h.contents
    · rw [hrecords]
      exact h.within
    · intro k hk
      exact h.kept k (data ▸ hk)
    · intro g hg
      rw [feed, Option.some.injEq] at hg
      subst hg
      exact {
        contents := h.contents
        within := h.within
        position := Nat.zero_le _
        kept := h.kept
        merging := fun w u hp => by cases hp
        writing := fun w value offset hp => by cases hp }

/-- A host that goes on as it should is not harmed. -/
theorem unharmed (h : c.Resuming id settings reached name) (sound : c.Sound id settings)
    (log : c.versionRecords id <+: records) (again : Replayable settings.schema records)
    (stands : c.StandsBy id name) : c.Unharmed id settings reached name := by
  refine ⟨h.contents, ?_⟩
  rintro f r u hf merging ⟨first, hfirst⟩
  obtain ⟨w, hp, hs, rfl⟩ := Feed.merging?_eq_some merging
  obtain ⟨hid, hsettings⟩ := sound.identity name f hf
  have hrecords := sound.versionRecords_feed hf
  have hi := sound.indexed_feed hf
  have flow := sound.flow name f hf (by rw [hp]; rfl)
  have version := flow.readsVersion_of_standby hi hp (role_of_standsBy stands hf)
  obtain ⟨_, _, hrecord, hoffset⟩ := flow.version hi hp version
  have resumes := h.resumes f hf
  rw [← hrecords, ← hsettings] at hfirst
  rw [← hsettings]
  refine resumes.merges ?_ (by rw [hoffset]; exact resumes.position) (hoffset ▸ hrecord)
    (resumes.merging w u hp hs) hfirst
  rw [hsettings, hrecords]
  exact again.of_prefix log

/-- Throughout a run a host that stands by is not harmed. -/
theorem unharmed_run (h : c.Resuming id settings reached name) (sound : c.Sound id settings)
    (again : Replayable settings.schema records) (inRange : ∀ r ∈ records, r.InRange)
    {events : List Event} (log : (c.run id settings events).versionRecords id <+: records)
    (stands : c.Always id settings (StandsBy id name) events) :
    (c.run id settings events).Unharmed id settings (c.furthest id settings name reached events)
      name := by
  induction events generalizing c reached with
  | nil =>
    rw [furthest, Nat.max_eq_left h.position_le]
    exact h.unharmed sound log again stands
  | cons e rest ih =>
    rw [furthest, Nat.max_eq_left h.position_le, ← furthest_max]
    have before : c.versionRecords id <+: records :=
      (sound.extends_run (e :: rest) id.versionTopic).trans log
    exact ih (h.happen sound before again inRange stands.1 e) (sound.happen e) log stands.2

end Resuming

end Cluster

end StoreFeed
