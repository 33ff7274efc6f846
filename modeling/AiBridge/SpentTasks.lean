import AiBridge.EntrySound

namespace AiBridge

open PendingPlans

variable {rx : ShippedRegex} {id : String} {slot : Option TaskState} {call : Call}

/-- Whether a call submits some plan under the id. -/
def Call.submitsUnder (id : String) : Call → Prop
  | .ingest _ plan _ => plan.taskId = id
  | _ => False

namespace TaskState

variable {task : TaskState}

/-- Neither the poller nor the owner can release the plan of such an entry. -/
def Spent (task : TaskState) : Prop :=
  task.status ≠ .heldForManualApproval ∧ ¬(task.status = .pending ∧ task.decision = .delegable)

instance : Decidable task.Spent :=
  inferInstanceAs (Decidable (_ ∧ _))

theorem Spent.polled_eq {env : Env} {now : Instant} (h : task.Spent) :
    task.polled env now = task :=
  TaskState.polled_eq h.2

theorem Spent.decided_eq {approved : Bool} (h : task.Spent) : task.decided approved = task :=
  if_neg h.1

theorem spent_recorded (result : ExecutionOutcome) : (task.recorded result).Spent := by
  exact ⟨recorded_status_ne (by simp) (by simp),
    fun h => recorded_status_ne (by simp) (by simp) h.1⟩

end TaskState

/-- Without a new submission under its id, the entry releases none but the plans of `p`. -/
def SlotReleasesOnly (p : ExecutionPlan → Prop) (slot : Option TaskState) : Prop :=
  ∀ task, slot = some task → p task.plan ∨ task.Spent

theorem slotStep_releasesOnly {p : ExecutionPlan → Prop} (hs : SlotReleasesOnly p slot)
    (hnew : ¬call.submitsUnder id) : SlotReleasesOnly p (slotStep rx id slot call) := by
  intro task' h
  rcases slotStep_cases h with
    ⟨env, plan, now, rfl, hid, _, _⟩ | ⟨env, plan, now, rfl, hid, _, _⟩ | ⟨task, hslot, hwrite⟩
  · exact absurd hid hnew
  · exact absurd hid hnew
  · rcases hs task hslot with hp | hspent
    · rcases hwrite with ⟨env, now, _, rfl⟩ | ⟨approved, _, rfl⟩ | ⟨result, _, rfl⟩ | rfl
      · exact Or.inl (by simpa using hp)
      · exact Or.inl (by simpa using hp)
      · exact Or.inl (by simpa using hp)
      · exact Or.inl hp
    · rcases hwrite with ⟨env, now, _, rfl⟩ | ⟨approved, _, rfl⟩ | ⟨result, _, rfl⟩ | rfl
      · exact Or.inr (by rwa [hspent.polled_eq])
      · exact Or.inr (by rwa [hspent.decided_eq])
      · exact Or.inr (TaskState.spent_recorded result)
      · exact Or.inr hspent

theorem slotRelease_releasesOnly {p : ExecutionPlan → Prop} {plan : ExecutionPlan}
    (hs : SlotReleasesOnly p slot) (hnew : ¬call.submitsUnder id)
    (h : slotRelease rx id slot call = some plan) : p plan := by
  rcases slotRelease_cases h with
    ⟨env, now, rfl, hid, _, _⟩ | ⟨env, now, task, _, hslot, htimed, rfl⟩ |
    ⟨task, _, hslot, hheld, rfl⟩
  · exact absurd hid hnew
  · obtain ⟨hd, hpending, _⟩ := TaskState.timedOut_iff.mp htimed
    exact (hs task hslot).resolve_right fun hspent => hspent.2 ⟨hpending, hd⟩
  · exact (hs task hslot).resolve_right fun hspent => hspent.1 hheld

/-- Until the next submission under the id, every plan released there is one of `p`. -/
def PendingPlans.ReleasesOnly (rx : ShippedRegex) (id : String) (p : ExecutionPlan → Prop)
    (self : PendingPlans) : Prop :=
  ∀ calls call, (∀ c ∈ calls ++ [call], ¬c.submitsUnder id) →
    ∀ plan, (id, plan) ∈ (Runs.run (step rx) self calls).released rx call → p plan

theorem PendingPlans.releasesOnly_of_slot {self : PendingPlans} {p : ExecutionPlan → Prop}
    (hs : SlotReleasesOnly p (self.tasks.lookup id)) : self.ReleasesOnly rx id p := by
  intro calls call hnew plan hmem
  have hrun : SlotReleasesOnly p (Runs.run (slotStep rx id) (self.tasks.lookup id) calls) :=
    Runs.run_invariant (P := fun _ c => ¬c.submitsUnder id)
      (fun _ _ h hc => slotStep_releasesOnly h hc) hs
      (Runs.along_of_forall fun c hc => hnew c (by simp [hc]))
  rw [mem_released, lookup_run] at hmem
  exact slotRelease_releasesOnly hrun (hnew call (by simp)) hmem

/-- A task that is not spent is released by the poller, if its clock gets far enough, or by the
owner's approval. -/
theorem PendingPlans.released_of_not_spent (rx : ShippedRegex) {self : PendingPlans} {task : TaskState}
    (hl : self.tasks.lookup id = some task) (h : ¬task.Spent) :
    ∃ call, ¬call.submitsUnder id ∧ (id, task.plan) ∈ self.released rx call := by
  by_cases hheld : task.status = .heldForManualApproval
  · exact ⟨.handleOwnerDecision id true, by simp [Call.submitsUnder],
      by simp [mem_released, slotRelease, hl, hheld]⟩
  · have hpending : task.status = .pending ∧ task.decision = .delegable := by
      by_contra hno
      exact h ⟨hheld, hno⟩
    have hw : task.windowElapsed ⟨none⟩ (task.createdAt + gatekeeperTimeout ⟨none⟩) := by
      simp [TaskState.windowElapsed, Instant.saturatingDurationSince]
    refine ⟨.checkTimeouts ⟨none⟩ (task.createdAt + gatekeeperTimeout ⟨none⟩),
      by simp [Call.submitsUnder], ?_⟩
    have htimed := TaskState.timedOut_iff.mpr ⟨hpending.2, hpending.1, hw⟩
    simp only [mem_released, slotRelease, hl, Option.bind_some, htimed, if_true]

theorem PendingPlans.releasesOnly_iff_slot {self : PendingPlans} {p : ExecutionPlan → Prop} :
    self.ReleasesOnly rx id p ↔ SlotReleasesOnly p (self.tasks.lookup id) := by
  constructor
  · intro h task hl
    by_contra hno
    obtain ⟨hp, hspent⟩ := not_or.mp hno
    obtain ⟨call, hnew, hmem⟩ := released_of_not_spent rx hl hspent
    exact hp (h [] call (by simpa using hnew) task.plan hmem)
  · exact releasesOnly_of_slot

end AiBridge
