import StoreFeed.Proofs.Replica.Feed

/-!
# Where an action ends

`Act.Ends m run Q E` says that `m`, started in `run`, either returns a result and a state with `Q`,
or is broken off by an overflow in a state with `E`. One law for each primitive takes an action
apart.

A site is `Genuine` if nothing was injected into its polls, and a planned fault is one that the log
or the storage itself could report.
-/

namespace StoreFeed

/-- Whether an operation is one of the storage, not of the log. -/
def Operation.ofStorage : Operation → Bool
  | .get | .put | .delete | .checkpoint | .commit => true
  | _ => false

/-- Whether an error is one that an operation itself reports: storage reports storage errors, the
log that it is away. -/
def Operation.Reports (op : Operation) (e : IngestionError) : Prop :=
  if op.ofStorage then ∃ reason, e = .storage reason else ∃ reason, e = .sourceUnavailable reason

/-- An operation of storage that fails is not tried again as a source that is away. -/
theorem Operation.Reports.isRetriable {op : Operation} {e : IngestionError} (h : op.Reports e)
    (ho : op.ofStorage) : e.isRetriable = false := by
  unfold Operation.Reports at h
  rw [if_pos ho] at h
  obtain ⟨reason, rfl⟩ := h
  rfl

/-- Calls fail only as the log and the storage themselves fail. -/
def FaultPlan.Genuine (plan : FaultPlan) : Prop :=
  ∀ op fault, plan.find? op = some fault → op.Reports fault.error

/-- The log and the storage of a host are not tampered with. -/
structure Site.Genuine (s : Site) : Prop where
  injected : s.injected = []
  faults : s.faults.Genuine

theorem FaultPlan.genuine_empty : FaultPlan.Genuine SortedMap.empty := by
  intro op fault h
  simp at h

/-- A plan stays genuine with a fault that the operation itself could report. -/
theorem FaultPlan.Genuine.insert {plan : FaultPlan} (h : plan.Genuine) {op : Operation}
    {fault : Fault} (hr : op.Reports fault.error) : FaultPlan.Genuine (plan.insert op fault) := by
  intro op' fault' hf
  by_cases ho : op' = op
  · subst ho
    rw [SortedMap.find?_insert_self] at hf
    cases hf
    exact hr
  · rw [SortedMap.find?_insert_of_ne _ ho] at hf
    exact h op' fault' hf

/-- What a genuine plan answers, and that it stays genuine. -/
theorem FaultPlan.Genuine.next {plan : FaultPlan} (h : plan.Genuine) (op : Operation) :
    (plan.next op).2.Genuine ∧ ∀ e, (plan.next op).1 = some e → op.Reports e := by
  unfold FaultPlan.next
  cases hf : plan.find? op with
  | none => exact ⟨h, fun e he => by cases he⟩
  | some fault =>
    have hr := h op fault hf
    cases ha : fault.after with
    | succ after =>
      simp only [ha]
      exact ⟨h.insert hr, fun e he => by cases he⟩
    | zero =>
      cases ht : fault.times with
      | none =>
        simp only [ha, ht]
        exact ⟨h, fun e he => by cases he; exact hr⟩
      | some times =>
        cases times with
        | zero =>
          simp only [ha, ht]
          exact ⟨h, fun e he => by cases he⟩
        | succ times =>
          simp only [ha, ht]
          exact ⟨h.insert hr, fun e he => by cases he; exact hr⟩

namespace Act

variable {α β : Type}

/-- Where an action ends: with a result, or broken off. -/
def Ends (m : Act α) (run : Run) (Q : α → Run → Prop) (E : Run → Prop) : Prop :=
  match m run with
  | .ok a run' => Q a run'
  | .error _ run' => E run'

section Laws

variable {run : Run} {E : Run → Prop}

theorem Ends.mono {m : Act α} {Q Q' : α → Run → Prop} {E' : Run → Prop} (h : m.Ends run Q E)
    (hQ : ∀ a b, Q a b → Q' a b) (hE : ∀ b, E b → E' b) : m.Ends run Q' E' := by
  unfold Ends at h ⊢
  split
  · rename_i heq
    rw [heq] at h
    exact hQ _ _ h
  · rename_i heq
    rw [heq] at h
    exact hE _ h

theorem ends_pure {a : α} {Q : α → Run → Prop} : (pure a : Act α).Ends run Q E ↔ Q a run := Iff.rfl

theorem ends_bind {m : Act β} {f : β → Act α} {Q : α → Run → Prop} :
    (m >>= f).Ends run Q E ↔ m.Ends run (fun b run' => (f b).Ends run' Q E) E := by
  simp only [Ends, bind, EStateM.bind]
  cases m run <;> rfl

theorem ends_get {Q : Run → Run → Prop} : (get : Act Run).Ends run Q E ↔ Q run run := Iff.rfl

theorem ends_self {Q : Replica → Run → Prop} : self.Ends run Q E ↔ Q run.replica run := Iff.rfl

theorem ends_now {Q : Nat → Run → Prop} : now.Ends run Q E ↔ Q run.commons.now run := Iff.rfl

theorem ends_settings {Q : HostSettings → Run → Prop} :
    settings.Ends run Q E ↔ Q run.site.settings run := Iff.rfl

theorem ends_modifySelf {f : Replica → Replica} {Q : Unit → Run → Prop} :
    (modifySelf f).Ends run Q E ↔ Q () { run with replica := f run.replica } := Iff.rfl

theorem ends_modifySite {f : Site → Site} {Q : Unit → Run → Prop} :
    (modifySite f).Ends run Q E ↔ Q () { run with site := f run.site } := Iff.rfl

theorem ends_modifyTracker {f : LagTracker → LagTracker} {Q : Unit → Run → Prop} :
    (modifyTracker f).Ends run Q E ↔
      Q () { run with replica := { run.replica with tracker := f run.replica.tracker } } := Iff.rfl

theorem ends_goTo {p : Phase} {Q : Unit → Run → Prop} :
    (goTo p).Ends run Q E ↔ Q () { run with replica := { run.replica with phase := p } } := Iff.rfl

theorem ends_ofWord {x : Except Overflow α} {Q : α → Run → Prop} :
    (ofWord x).Ends run Q E ↔ (∀ a, x = .ok a → Q a run) ∧ (∀ e, x = .error e → E run) := by
  cases x with
  | ok a =>
    refine ⟨fun h => ⟨fun b hb => ?_, fun e he => ?_⟩, fun h => h.1 a rfl⟩
    · cases hb
      exact h
    · cases he
  | error e =>
    refine ⟨fun h => ⟨fun b hb => ?_, fun _ _ => h⟩, fun h => h.2 e rfl⟩
    cases hb

end Laws

end Act

/-- What holds wherever a step ends, broken off or not, holds after it. -/
theorem Run.step_of_ends {run : Run} {P : Run → Prop}
    (h : Act.step.Ends run (fun _ b => P b)
      (fun b => P { b with replica := { b.replica with phase := .killed, wakeAt := none } })) :
    P run.step := by
  unfold Act.Ends at h
  unfold Run.step
  split at h
  · rename_i heq
    rw [heq]
    exact h
  · rename_i heq
    rw [heq]
    exact h

end StoreFeed
