import StoreFeed.Proofs.Replica.Passing

/-!
# What a call does

`Run.At` says where a step stands that began in `a`: how the replica stands, and that all that was
done aside was done as it should be. A call either meets its planned fault, or takes effect. One law
for each call says so of a step that makes it; the walk through the steps unfolds none of them.
-/

namespace StoreFeed

/-- A log that answers no question about timestamps is away. -/
theorem Log.offsetForTimestamp_cases (log : Log) (tp : TopicPartition) (timestamp : Nat) :
    (∃ offset, log.offsetForTimestamp tp timestamp = .ok offset) ∨ log.available = false ∧
      ∃ reason, log.offsetForTimestamp tp timestamp = .error (.sourceUnavailable reason) := by
  unfold offsetForTimestamp checkAvailable
  cases log.available with
  | false => exact .inr ⟨rfl, _, rfl⟩
  | true =>
    refine .inl ?_
    cases h : (log.records tp).find? fun r => decide (timestamp ≤ r.timestamp) with
    | none => exact ⟨(log.records tp).length, by simp [h, bind, Except.bind, pure, Except.pure]⟩
    | some r => exact ⟨r.offset, by simp [h, bind, Except.bind, pure, Except.pure]⟩

/-- Only a write that is made to fail uses up a failure. -/
theorem Storage.find?_writeFailures_write (s : Storage) (r : ReplicaId) (key : ByteArray)
    (stored : Stored) (offset : Nat) (fine : s.writeFailures.findD offset 0 = 0) :
    (s.write r key stored).2.writeFailures.find? offset = s.writeFailures.find? offset := by
  unfold write
  split
  · rfl
  · rename_i times failing
    refine SortedMap.find?_insert_of_ne _ (fun same => ?_) _
    rw [← same, fine] at failing
    cases failing

/-- A poll fails only where the log is away. -/
theorem Consumer.away_of_poll {c : Consumer} {log : Log} {limit : Nat} {e : IngestionError}
    (h : c.poll log limit = .error e) :
    log.available = false ∧ ∃ reason, e = .sourceUnavailable reason := by
  unfold poll Log.checkAvailable at h
  cases available : log.available with
  | false =>
    rw [available] at h
    cases h
    exact ⟨rfl, _, rfl⟩
  | true =>
    rw [available] at h
    cases h

namespace Run

/-- A step that began in `a` has come to `b`, where the replica stands like `v`. -/
structure At (a : Run) (v : Standing) (b : Run) : Prop where
  standing : b.standing = v
  upholds : a.Upholds b
  shows : a.outlook.Shows → b.outlook.Shows
  keeps : a.site.stats.Sound → a.Keeps b

/-- A step that began in `a` was broken off in `b`, where the replica stands like `v`. -/
structure Lost (a : Run) (v : Standing) (b : Run) : Prop where
  standing : b.standing = v
  upholds : a.Upholds b
  shown : a.outlook.Shows → b.replica.status.face = a.replica.status.face ∨ b.outlook.Shows
  keeps : a.site.stats.Sound → a.Keeps b

/-- Why a call outside a batch is tried again, or halts the replica. -/
structure Failed (a : Run) (e : IngestionError) : Prop where
  stumbles : a.Stumbles
  /-- Only a planned fault has to do with wrong settings. -/
  plans : ∀ reason, e = .configuration reason → ∃ op ∈ a.replica.phase.calls, a.fault? op = some e

variable {a b c : Run} {v w : Standing}

theorem Upholds.shifts (h : a.Upholds b) (h' : b.Shifts w c) : a.Upholds c where
  settings := h'.settings.trans h.settings
  injected := h'.injected ▸ h.injected
  faults := h'.faults ▸ h.faults
  storage stays := h'.storage.trans (h.storage stays)
  writes offset fine := by
    rw [h'.storage]
    exact h.writes offset fine
  paced host paced := h'.paced host (h.paced host paced)

theorem At.refl (a : Run) : a.At a.standing a := ⟨rfl, .refl a, id, .refl⟩

theorem At.lost (h : a.At v b) : a.Lost v b :=
  ⟨h.standing, h.upholds, fun s => .inr (h.shows s), h.keeps⟩

theorem At.passes (h : a.At v b) (h' : b.Passes w c) : a.At w c where
  standing := h'.standing
  upholds := h.upholds.shifts h'.toShifts
  shows shows := h'.shows (h.shows shows)
  keeps sound := (h.keeps sound).trans (h'.keeps (h.keeps sound).sound)

/-- What an action was broken off in was not shown, or there was nothing to show. -/
theorem At.drops (h : a.At v b) (h' : b.Drops w c)
    (face : v.face = a.standing.face ∨ w.face = v.face) : a.Lost w c where
  standing := h'.standing
  upholds := h.upholds.shifts h'.toShifts
  shown shows := by
    have shown : c.replica.status.face = v.face :=
      (h'.shown (h.shows shows)).trans ((h.shows shows).trans (congrArg Standing.face h.standing))
    rcases face with unchanged | unchanged
    · exact .inl (shown.trans (unchanged.trans shows.symm))
    · exact .inr ((shown.trans unchanged.symm).trans (congrArg Standing.face h'.standing.symm))
  keeps sound := (h.keeps sound).trans (h'.keeps (h.keeps sound).sound)

/-- A change of the replica that leaves who it is, what is counted and flagged, and what it
shows. -/
theorem At.change (h : a.At v b) (f : Standing → Standing) {r : Replica}
    (stands : Run.standing { b with replica := r } = f b.standing) (id : r.id = b.replica.id)
    (status : r.status = b.replica.status) (face : (f v).face = v.face)
    (runs : (f v).feed.phase = .stopped → v.feed.phase = .stopped)
    (paced : ∀ host, b.replica.backoff.Of host → r.backoff.Of host) :
    a.At (f v) { b with replica := r } := by
  obtain rfl := h.standing
  rw [← stands] at face runs ⊢
  exact h.passes (.of_replica b id (congrArg Face.state face) (congrArg Face.errored face)
    (congrArg Face.pushTimeout face) status runs paced)

theorem At.inPhase (h : a.At v b) {p : Phase} (live : p ≠ .stopped) :
    a.At (v.inPhase p) { b with replica := { b.replica with phase := p } } :=
  h.change (·.inPhase p) rfl rfl rfl rfl (fun ended => absurd ended live) fun _ h => h

theorem At.withTracker (h : a.At v b) (t : LagTracker → LagTracker) :
    a.At (v.withFeed { v.feed with tracker := t v.feed.tracker })
      { b with replica := { b.replica with tracker := t b.replica.tracker } } :=
  h.change (fun v => v.withFeed { v.feed with tracker := t v.feed.tracker }) rfl rfl rfl rfl id
    fun _ h => h

theorem At.withStorage (h : a.At v b) (stores : a.replica.phase.stores = true) (storage : Storage)
    (writes : ∀ offset, b.site.storage.writeFailures.findD offset 0 = 0 →
      storage.writeFailures.find? offset = b.site.storage.writeFailures.find? offset) :
    a.At (v.withFeed { v.feed with data := storage.data v.feed.id })
      { b with site := { b.site with storage } } where
  standing := congrArg (fun v => v.withFeed { v.feed with data := storage.data v.feed.id })
    h.standing
  upholds :=
    { h.upholds with
      storage := fun stays => by
        rw [stores] at stays
        cases stays
      writes := fun offset fine => by
        have same := h.upholds.writes offset fine
        refine (writes offset ?_).trans same
        rw [SortedMap.findD, same]
        exact fine }
  shows := h.shows
  keeps sound := (h.keeps sound).trans (.of_same (h.keeps sound).sound rfl rfl rfl rfl id rfl rfl)

/-! ## Why calls fail -/

theorem Failed.of_fault {op : Operation} {e : IngestionError} (calls : op ∈ a.replica.phase.calls)
    (fault : a.fault? op = some e) :
    a.Failed e :=
  ⟨.planned op e calls fault, fun _ _ => ⟨op, calls, fault⟩⟩

theorem Failed.of_away {op : Operation} (calls : op ∈ a.replica.phase.calls)
    (log : op.ofStorage = false) (away : a.commons.log.available = false) (reason : String) :
    a.Failed (.sourceUnavailable reason) := ⟨.away op calls log away, fun _ h => by cases h⟩

theorem Failed.of_unequipped (phase : a.replica.phase.consumes)
    (consumer : a.replica.consumer = none) : a.Failed Act.noConsumer :=
  ⟨.unequipped phase consumer, fun _ h => by cases h⟩

end Run

namespace Act

variable {α : Type} {a b : Run} {v : Standing} {E : Run → Prop}

/-- An action done aside at the start of others. -/
theorem Aside.ends {m : Act α} (hm : m.Aside) (h : a.At v b) {Q : α → Run → Prop}
    (hQ : ∀ x c, a.At v c → Q x c) (hE : ∀ c, a.Lost v c → v.feed.tracker.Heavy → E c) :
    m.Ends b Q E := by
  obtain rfl := h.standing
  refine (hm b).mono (fun x c hc => hQ x c (h.passes hc)) fun c hc => ?_
  refine hE c (h.drops hc (.inr rfl)) ?_
  exact congrArg (fun v : Standing => v.feed.tracker) hc.standing ▸ hc.heavy

/-- What is counted leaves a step where it is. -/
theorem Counts.ends {m : Act α} (hm : m.Counts) (h : a.At v b) {Q : α → Run → Prop}
    (hQ : ∀ x c, a.At v c → Q x c) : m.Ends b Q E := by
  obtain rfl := h.standing
  exact (hm b).mono (fun x c hc => hQ x c (h.passes hc)) fun _ hc => hc.elim

/-! ## Calls -/

/-- A call is written down. -/
def noted (run : Run) (c : Call) : Run :=
  { run with site := { run.site with calls := c :: run.site.calls } }

theorem ends_note {run : Run} {c : Call} {Q : Unit → Run → Prop} :
    (note c).Ends run Q E ↔ Q () (noted run c) := Iff.rfl

/-- The next call of an operation is used up. -/
def spent (run : Run) (op : Operation) : Run :=
  { run with site := { run.site with faults := (run.site.faults.next op).2 } }

theorem at_noted (a : Run) {c : Call} (unasked : c.question? = none) :
    a.At a.standing (noted a c) := by
  refine ⟨?_, ⟨rfl, .inl rfl, fun _ => .inl rfl, fun _ => rfl, fun _ _ => rfl, fun _ h => h⟩, id,
    fun sound => ?_⟩
  · have asked : (noted a c).asked = a.asked := List.filterMap_cons_none unasked
    exact congrArg (fun asked => { a.standing with asked }) asked
  · exact .of_same sound rfl rfl rfl rfl id rfl rfl

theorem at_spent (h : a.At v b) (faults : b.site.faults = a.site.faults) {op : Operation}
    (calls : op ∈ a.replica.phase.calls) : a.At v (spent b op) where
  standing := h.standing
  upholds :=
    { h.upholds with
      faults := fun op' => by
        have left : (spent b op).site.faults = (a.site.faults.next op).2 :=
          congrArg (fun plan : FaultPlan => (plan.next op).2) faults
        rw [left]
        by_cases same : op' = op
        · subst same
          exact .inr ⟨calls, rfl⟩
        · exact .inl (FaultPlan.find?_next_of_ne _ same) }
  shows := h.shows
  keeps sound := (h.keeps sound).trans
    (.of_same (h.keeps sound).sound rfl rfl rfl rfl id rfl rfl)

/-- A call meets its planned fault, or takes effect. -/
theorem ends_call (h : a.At v b) (faults : b.site.faults = a.site.faults) {op : Operation}
    (calls : op ∈ a.replica.phase.calls) {effect : Run → Except IngestionError α × Run}
    {Q : Except IngestionError α → Run → Prop}
    (failed : ∀ e c, a.fault? op = some e → a.At v c → Q (.error e) c)
    (made : a.fault? op = none → a.At v (spent b op) →
      Q (effect (spent b op)).1 (effect (spent b op)).2) : (call op effect).Ends b Q E := by
  have same : (b.site.faults.next op).1 = a.fault? op := by rw [faults, Run.fault?]
  unfold call plannedFailure
  simp only [ends_bind, ends_get, ends_modifySite, ends_pure, same]
  cases hf : a.fault? op with
  | some e => exact failed e _ hf (at_spent h faults calls)
  | none => exact made hf (at_spent h faults calls)

/-- A call that leaves no trace but its answer fails with the error that it has, or is answered. -/
theorem ends_ask (h : a.At v b) (faults : b.site.faults = a.site.faults) {op : Operation}
    (calls : op ∈ a.replica.phase.calls) {effect : Run → Except IngestionError α × Run}
    {answer : Except IngestionError α} (answers : effect (spent b op) = (answer, spent b op))
    {Q : Except IngestionError α → Run → Prop}
    (failed : ∀ e c, a.failure? op answer = some e → a.At v c → Q (.error e) c)
    (made : ∀ x c, a.failure? op answer = none → answer = .ok x → a.At v c → Q (.ok x) c) :
    (call op effect).Ends b Q E := by
  unfold Run.failure? at failed made
  refine ends_call h faults calls (fun e c fault hc => failed e c ?_ hc) fun fine hc => ?_
  · rw [fault]
  · rw [fine] at failed made
    rw [answers]
    cases answer with
    | error e => exact failed e _ rfl hc
    | ok x => exact made x _ rfl rfl hc

/-! ### The log -/

theorem ends_acquireConsumer (calls : .acquireConsumer ∈ a.replica.phase.calls)
    {Q : Except IngestionError Consumer → Run → Prop}
    (failed : ∀ e b, a.Failed e → a.At a.standing b → Q (.error e) b)
    (made : ∀ b, a.At a.standing b → Q (.ok Consumer.fresh) b) : acquireConsumer.Ends a Q E := by
  unfold acquireConsumer Log.checkAvailable
  simp only [ends_bind, ends_self, ends_note]
  refine ends_call (at_noted a rfl) rfl calls
    (fun e b fault hb => failed e b (.of_fault calls fault) hb) fun _ hb => ?_
  show Q (Except.map _ (if a.commons.log.available then _ else _)) _
  cases away : a.commons.log.available with
  | false => exact failed _ _ (.of_away calls rfl away _) hb
  | true => exact made _ hb

theorem ends_subscribe (calls : .subscribe ∈ a.replica.phase.calls) {c : Consumer}
    {tp : TopicPartition} {offset : Nat} {Q : Except IngestionError Unit → Run → Prop}
    (failed : ∀ e b, a.Failed e → a.At a.standing b → Q (.error e) b)
    (made : ∀ b, a.At (a.standing.withFeed
      { a.feed with consumer := some ⟨c.positions.insert tp offset⟩ }) b → Q (.ok ()) b) :
    (subscribe c tp offset).Ends a Q E := by
  unfold subscribe Consumer.subscribe Log.checkAvailable
  simp only [ends_bind, ends_note]
  refine ends_call (at_noted a rfl) rfl calls
    (fun e b fault hb => failed e b (.of_fault calls fault) hb) fun _ hb => ?_
  have log : (spent (noted a (.subscribe tp offset)) .subscribe).commons.log = a.commons.log := rfl
  rw [log]
  cases away : a.commons.log.available with
  | false => exact failed _ _ (.of_away calls rfl away _) hb
  | true =>
    exact made _ (hb.change (fun v => v.withFeed { v.feed with consumer := some _ })
      rfl rfl rfl rfl id fun _ h => h)

theorem ends_unsubscribe (calls : .unsubscribe ∈ a.replica.phase.calls) {c : Consumer}
    {tp : TopicPartition} {Q : Except IngestionError Unit → Run → Prop}
    (failed : ∀ e b, a.Failed e → a.At a.standing b → Q (.error e) b)
    (made : ∀ b, a.At (a.standing.withFeed { a.feed with consumer := some (c.unsubscribe tp) }) b →
      Q (.ok ()) b) : (unsubscribe c tp).Ends a Q E := by
  unfold unsubscribe
  simp only [ends_bind, ends_note]
  refine ends_call (at_noted a rfl) rfl calls
    (fun e b fault hb => failed e b (.of_fault calls fault) hb) fun _ hb => ?_
  exact made _ (hb.change (fun v => v.withFeed { v.feed with consumer := some _ })
    rfl rfl rfl rfl id fun _ h => h)

/-- A batch is what was injected, and what the consumer reads. -/
theorem ends_poll (calls : .poll ∈ a.replica.phase.calls) {c : Consumer}
    {Q : Except IngestionError (List (TopicPartition × ChangeRecord)) → Run → Prop}
    (failed : ∀ e b, a.Failed e → a.At a.standing b → Q (.error e) b)
    (made : ∀ batch c' b, a.fault? .poll = none →
      c.poll a.commons.log a.site.settings.pollBatchSize = .ok (batch, c') →
      a.At (a.standing.withFeed { a.feed with consumer := some c' }) b →
      Q (.ok (a.site.injected ++ batch)) b) : (poll c).Ends a Q E := by
  unfold poll
  refine ends_call (.refl a) rfl calls (fun e b fault hb => failed e b (.of_fault calls fault) hb)
    fun fine hb => ?_
  have same : c.poll (spent a .poll).commons.log (spent a .poll).site.settings.pollBatchSize =
      c.poll a.commons.log a.site.settings.pollBatchSize := rfl
  dsimp only
  rw [same]
  cases polled : c.poll a.commons.log a.site.settings.pollBatchSize with
  | error e =>
    obtain ⟨away, reason, rfl⟩ := Consumer.away_of_poll polled
    exact failed _ _ (.of_away calls rfl away reason) hb
  | ok answer =>
    obtain ⟨batch, c'⟩ := answer
    have hb := hb.change (r := { a.replica with consumer := some c' })
      (fun v => v.withFeed { v.feed with consumer := some c' }) rfl rfl rfl rfl id fun _ h => h
    exact made batch c' _ fine polled
      ⟨hb.standing, { hb.upholds with injected := .inr rfl }, hb.shows, fun sound =>
        (hb.keeps sound).trans (.of_same (hb.keeps sound).sound rfl rfl rfl rfl id rfl rfl)⟩

theorem ends_endOffset (calls : .endOffset ∈ a.replica.phase.calls) {tp : TopicPartition}
    {Q : Except IngestionError Nat → Run → Prop}
    (failed : ∀ e b, a.endAnswer? tp = none → a.Stumbles → a.At a.standing b → Q (.error e) b)
    (made : ∀ b, a.endAnswer? tp = some (a.feed.log.records tp).length → a.At a.standing b →
      Q (.ok (a.feed.log.records tp).length) b) : (endOffset tp).Ends a Q E := by
  unfold Run.endAnswer? Log.endOffset Log.checkAvailable at failed made
  unfold endOffset Log.endOffset Log.checkAvailable
  refine ends_call (.refl a) rfl calls (fun e b fault hb => ?_) fun fine hb => ?_
  · refine failed e b ?_ (.planned _ e calls fault) hb
    rw [show (a.site.faults.next .endOffset).1 = some e from fault]
  · have fine : (a.site.faults.next .endOffset).1 = none := fine
    have log : (spent a .endOffset).commons.log = a.commons.log := rfl
    rw [fine] at failed made
    rw [log]
    cases away : a.commons.log.available with
    | false =>
      rw [away] at failed
      exact failed _ _ rfl (.away _ calls rfl away) hb
    | true =>
      rw [away] at made
      exact made _ rfl hb

/-- Only here a question is put to the log. -/
theorem ends_offsetForTimestamp (calls : .offsetForTimestamp ∈ a.replica.phase.calls)
    {tp : TopicPartition} {timestamp : Nat} {Q : Except IngestionError Nat → Run → Prop}
    (failed : ∀ e b, a.Failed e →
      a.At { a.standing with asked := (tp, timestamp) :: a.asked } b → Q (.error e) b)
    (made : ∀ offset b, a.At { a.standing with asked := (tp, timestamp) :: a.asked } b →
      Q (.ok offset) b) : (offsetForTimestamp tp timestamp).Ends a Q E := by
  unfold offsetForTimestamp
  simp only [ends_bind, ends_note]
  have noted : a.At { a.standing with asked := (tp, timestamp) :: a.asked }
      (noted a (.offsetForTimestamp tp timestamp)) :=
    ⟨rfl, ⟨rfl, .inl rfl, fun _ => .inl rfl, fun _ => rfl, fun _ _ => rfl, fun _ h => h⟩, id,
      fun sound =>
      .of_same sound rfl rfl rfl rfl id rfl rfl⟩
  refine ends_call noted rfl calls (fun e b fault hb => failed e b (.of_fault calls fault) hb)
    fun _ hb => ?_
  rcases a.commons.log.offsetForTimestamp_cases tp timestamp with
    ⟨offset, ok⟩ | ⟨away, reason, error⟩
  · show Q (a.commons.log.offsetForTimestamp tp timestamp) _
    rw [ok]
    exact made offset _ hb
  · show Q (a.commons.log.offsetForTimestamp tp timestamp) _
    rw [error]
    exact failed _ _ (.of_away calls rfl away reason) hb

/-- Only a handle that is not open takes a call, which may fail. -/
theorem ends_openTopic (calls : .producer ∈ a.replica.phase.calls) {topic : String}
    {Q : Except IngestionError Unit → Run → Prop}
    (failed : ∀ e b, a.site.producers.contains a.commons.now topic = false →
      a.failure? .producer a.commons.log.checkAvailable = some e → a.At a.standing b →
      Q (.error (Producers.openFailure topic e)) b)
    (made : ∀ b, a.site.producers.contains a.commons.now topic = true ∨
      a.failure? .producer a.commons.log.checkAvailable = none → a.At a.standing b →
      Q (.ok ()) b) : (openTopic topic).Ends a Q E := by
  have opened : ∀ b, a.At a.standing b → a.At a.standing
      { b with site := { b.site with producers := b.site.producers.use a.commons.now topic } } :=
    fun b hb => ⟨hb.standing, { hb.upholds with }, hb.shows, fun sound =>
      (hb.keeps sound).trans (.of_same (hb.keeps sound).sound rfl rfl rfl rfl id rfl rfl)⟩
  unfold openTopic
  simp only [ends_bind, ends_get]
  cases held : a.site.producers.contains a.commons.now topic with
  | true => exact made _ (.inl held) (opened a (.refl a))
  | false =>
    simp only [ends_bind, ends_note, if_false, Bool.false_eq_true]
    refine ends_ask (at_noted a rfl) rfl calls (by rfl) (fun e b failure hb => ?_)
      fun _ b fine _ hb => ?_
    · exact failed e b held failure hb
    · exact made _ (.inr fine) (opened b hb)

/-- A record is appended to the log, unless that fails. -/
theorem ends_produce (calls : .produce ∈ a.replica.phase.calls) {topic : String}
    {record : ChangeRecord} {Q : Except IngestionError Nat → Run → Prop}
    (failed : ∀ e b, a.failure? .produce a.commons.log.checkAvailable = some e →
      a.At a.standing b → Q (.error e) b)
    (made : ∀ b, a.failure? .produce a.commons.log.checkAvailable = none →
      a.At (a.standing.withFeed { a.feed with
        log := (a.feed.log.append ⟨topic, a.feed.id.partition, none⟩ record).2 }) b →
      Q (.ok (a.feed.log.records ⟨topic, a.feed.id.partition, none⟩).length) b) :
    (produce topic record).Ends a Q E := by
  unfold Run.failure? Log.checkAvailable at failed made
  unfold produce Log.produce Log.checkAvailable
  refine ends_call (.refl a) rfl calls (fun e b fault hb => failed e b (by rw [fault]) hb)
    fun fine hb => ?_
  have log : (spent a .produce).commons.log = a.commons.log := rfl
  rw [fine] at failed made
  rw [log]
  cases away : a.commons.log.available with
  | false =>
    rw [away] at failed
    exact failed _ _ rfl hb
  | true =>
    rw [away] at made
    exact made _ rfl ⟨rfl, { hb.upholds with }, hb.shows, fun sound =>
      (hb.keeps sound).trans (.of_same (hb.keeps sound).sound rfl rfl rfl rfl id rfl rfl)⟩

/-! ### Storage -/

theorem ends_readCheckpoint (calls : .checkpoint ∈ a.replica.phase.calls)
    {Q : Except IngestionError (Option Checkpoint) → Run → Prop}
    (failed : ∀ e b, a.Failed e → a.At a.standing b → Q (.error e) b)
    (made : ∀ b, a.At a.standing b → Q (.ok a.feed.data.checkpoint) b) :
    readCheckpoint.Ends a Q E := by
  unfold readCheckpoint
  simp only [ends_bind, ends_self, ends_note]
  exact ends_call (at_noted a rfl) rfl calls
    (fun e b fault hb => failed e b (.of_fault calls fault) hb) fun _ hb => made _ hb

theorem ends_readValue (calls : .get ∈ a.replica.phase.calls) {key : ByteArray}
    {Q : Except IngestionError (Option ByteArray) → Run → Prop}
    (failed : ∀ e b, a.fault? .get = some e → a.At a.standing b → Q (.error e) b)
    (made : ∀ b, a.fault? .get = none → a.At a.standing b → Q (.ok (a.feed.get? key)) b) :
    (readValue key).Ends a Q E := by
  unfold readValue
  exact ends_call (.refl a) rfl calls failed fun fine hb => made _ fine hb

/-- A value is written, unless that fails. -/
theorem ends_writeValue {key : ByteArray} {stored : Stored}
    (calls : (if stored.value.isSome then .put else .delete) ∈ a.replica.phase.calls)
    (stores : a.replica.phase.stores = true) {Q : Except IngestionError Unit → Run → Prop}
    (failed : ∀ e b, a.failure? (if stored.value.isSome then .put else .delete)
        (a.site.storage.write a.replica.id key stored).1 = some e →
      a.At a.standing b → Q (.error e) b)
    (made : ∀ b, a.failure? (if stored.value.isSome then .put else .delete)
        (a.site.storage.write a.replica.id key stored).1 = none →
      a.At (a.standing.withFeed { a.feed with data := a.feed.data.write key stored }) b →
      Q (.ok ()) b) : (writeValue key stored).Ends a Q E := by
  unfold Run.failure? at failed made
  unfold writeValue
  generalize (if stored.value.isSome then Operation.put else Operation.delete) = op at *
  refine ends_call (.refl a) rfl calls (fun e b fault hb => failed e b (by rw [fault]) hb)
    fun fine hb => ?_
  have hb := hb.withStorage stores (a.site.storage.write a.replica.id key stored).2
    (a.site.storage.find?_writeFailures_write a.replica.id key stored)
  have written : (spent a op).site.storage.write (spent a op).replica.id key stored =
      a.site.storage.write a.replica.id key stored := rfl
  rw [fine] at failed made
  dsimp only
  rw [written]
  cases ha : (a.site.storage.write a.replica.id key stored).1 with
  | error e =>
    have same : (a.site.storage.write a.replica.id key stored).2.data a.standing.feed.id =
        a.feed.data := Storage.data_write_of_error ha a.replica.id
    rw [ha] at failed
    rw [same] at hb
    exact failed e _ rfl hb
  | ok =>
    have stores : (a.site.storage.write a.replica.id key stored).2.data a.standing.feed.id =
        a.feed.data.write key stored :=
      (Storage.data_write_of_ok ha a.replica.id).trans (if_pos rfl)
    rw [ha] at made
    rw [stores] at hb
    exact made _ rfl hb

/-- A checkpoint is kept, unless that fails. -/
theorem ends_commit {c : Checkpoint} (calls : .commit ∈ a.replica.phase.calls)
    (stores : a.replica.phase.stores = true) {Q : Except IngestionError Unit → Run → Prop}
    (failed : ∀ e b, a.failure? .commit (.ok () : Except IngestionError Unit) = some e →
      a.At a.standing b → Q (.error e) b)
    (made : ∀ b, a.failure? .commit (.ok () : Except IngestionError Unit) = none →
      a.At (a.standing.withFeed
        { a.feed with data := { a.feed.data with checkpoint := some c } }) b → Q (.ok ()) b) :
    (commit c).Ends a Q E := by
  unfold Run.failure? at failed made
  unfold commit
  simp only [ends_bind, ends_self, ends_note]
  refine ends_call (at_noted a rfl) rfl calls (fun e b fault hb => failed e b (by rw [fault]) hb)
    fun fine hb => ?_
  have kept : (a.site.storage.commit a.replica.id c).data a.standing.feed.id =
      { a.feed.data with checkpoint := some c } :=
        Storage.data_commit_self a.site.storage a.replica.id c
  have hb := hb.withStorage stores (a.site.storage.commit a.replica.id c) fun _ _ => rfl
  rw [fine] at made
  rw [kept] at hb
  exact made _ rfl hb

end Act

end StoreFeed
