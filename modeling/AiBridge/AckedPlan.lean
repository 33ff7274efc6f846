import AiBridge.SpentTasks

namespace AiBridge

open PendingPlans

variable {rx : ShippedRegex} {self : PendingPlans} {env : Env} {plan : ExecutionPlan}
  {now : Instant}

namespace PendingPlans

/-- The acknowledged plan is released at once or stored, and until the next submission under its
id no other plan is released there. -/
def AckKept (rx : ShippedRegex) (self : PendingPlans) (env : Env) (plan : ExecutionPlan)
    (now : Instant) : Prop :=
  (self.ingest rx env plan now).1.2 = ⟨plan.taskId⟩ ∧
    ((self.ingest rx env plan now).1.1 = .autoApproved ∨
      ((self.ingest rx env plan now).2.tasks.lookup plan.taskId).map TaskState.plan = some plan) ∧
    (self.ingest rx env plan now).2.ReleasesOnly rx plan.taskId (· = plan)

/-- A delegable submission that comes inside the window of another plan under its id. -/
def InsideForeignWindow (rx : ShippedRegex) (self : PendingPlans) (env : Env)
    (plan : ExecutionPlan) (now : Instant) : Prop :=
  decidePolicy rx plan = .delegable ∧
    ∃ task, self.tasks.lookup plan.taskId = some task ∧ task.plan ≠ plan ∧
      ¬task.windowElapsed env now

theorem ingest_ack : (self.ingest rx env plan now).1.2 = ⟨plan.taskId⟩ := by
  cases hd : decidePolicy rx plan with
  | delegable => rw [ingest_delegable hd]
  | nonDelegable => rw [ingest_critical hd]

theorem lookup_ingest_delegable (hd : decidePolicy rx plan = .delegable) :
    (self.ingest rx env plan now).2.tasks.lookup plan.taskId =
      some (((self.tasks.lookup plan.taskId).getD (.fresh plan now)).resubmitted env now) := by
  rw [ingest_delegable hd]
  exact Finmap.lookup_insert _

theorem lookup_ingest_critical (hd : decidePolicy rx plan = .nonDelegable) :
    (self.ingest rx env plan now).2.tasks.lookup plan.taskId = some (.held plan now) := by
  rw [ingest_critical hd]
  exact Finmap.lookup_insert _

end PendingPlans

theorem TaskState.spent_resubmitted {task : TaskState} (hw : task.windowElapsed env now) :
    (task.resubmitted env now).Spent := by
  simp [TaskState.Spent, TaskState.resubmitted, hw]

theorem ackKept_critical (hd : decidePolicy rx plan = .nonDelegable) :
    self.AckKept rx env plan now := by
  have hl : (self.ingest rx env plan now).2.tasks.lookup plan.taskId = some (.held plan now) :=
    lookup_ingest_critical hd
  refine ⟨ingest_ack, Or.inr (by simp [hl, TaskState.held]), releasesOnly_of_slot ?_⟩
  intro task ht
  cases Option.some.inj (hl.symm.trans ht)
  exact Or.inl rfl

theorem ackKept_delegable (hd : decidePolicy rx plan = .delegable)
    (h : ¬self.InsideForeignWindow rx env plan now) : self.AckKept rx env plan now := by
  have hl : (self.ingest rx env plan now).2.tasks.lookup plan.taskId = _ :=
    lookup_ingest_delegable hd
  cases hs : self.tasks.lookup plan.taskId with
  | none =>
    rw [hs, Option.getD_none] at hl
    refine ⟨ingest_ack, Or.inr (by simp [hl, TaskState.fresh]), releasesOnly_of_slot ?_⟩
    intro task ht
    cases Option.some.inj (hl.symm.trans ht)
    exact Or.inl rfl
  | some task =>
    rw [hs, Option.getD_some] at hl
    by_cases hp : task.plan = plan
    · refine ⟨ingest_ack, Or.inr (by simp [hl, hp]), releasesOnly_of_slot ?_⟩
      intro task' ht
      cases Option.some.inj (hl.symm.trans ht)
      exact Or.inl hp
    · have hw : task.windowElapsed env now := by
        by_contra hw
        exact h ⟨hd, task, hs, hp, hw⟩
      refine ⟨ingest_ack, Or.inl ?_, releasesOnly_of_slot ?_⟩
      · simp [ingest_delegable hd, hs, hw]
      · intro task' ht
        cases Option.some.inj (hl.symm.trans ht)
        exact Or.inr (TaskState.spent_resubmitted hw)

theorem not_ackKept_inside (h : self.InsideForeignWindow rx env plan now) :
    ¬self.AckKept rx env plan now := by
  obtain ⟨hd, task, hs, hp, hw⟩ := h
  rintro ⟨_, hv | hstored, _⟩
  · simp [ingest_delegable hd, hs, hw] at hv
  · simp [lookup_ingest_delegable hd, hs, hp] at hstored

/-- A submission is kept exactly when it does not come inside another plan's window: there the
entry stays with the older plan while the acknowledgement goes to the newer one. -/
theorem acked_plan_kept_iff :
    self.AckKept rx env plan now ↔ ¬self.InsideForeignWindow rx env plan now := by
  constructor
  · exact fun hkept hinside => not_ackKept_inside hinside hkept
  · intro h
    cases hd : decidePolicy rx plan with
    | delegable => exact ackKept_delegable hd h
    | nonDelegable => exact ackKept_critical hd

theorem insideForeignWindow_of_second {first second : ExecutionPlan}
    (h1 : decidePolicy rx first = .delegable) (h2 : decidePolicy rx second = .delegable)
    (hid : second.taskId = first.taskId) (hne : first ≠ second) :
    (after rx [.ingest ⟨none⟩ first 0]).InsideForeignWindow rx ⟨none⟩ second 5 := by
  have hwindow : ¬defaultGatekeeperTimeout ≤ 5 := by decide
  refine ⟨h2, (TaskState.fresh first 0).resubmitted ⟨none⟩ 0, ?_, hne, ?_⟩
  · rw [hid, lookup_after_delegable h1]
  · simpa [TaskState.windowElapsed, TaskState.fresh, Instant.saturatingDurationSince] using hwindow

theorem acked_plan_superseded :
    ¬(after plainRegex [.ingest ⟨none⟩ (delegablePlan "task-1") 0]).AckKept plainRegex ⟨none⟩
      (listingPlan "task-1") 5 :=
  not_ackKept_inside (insideForeignWindow_of_second (decidePolicy_delegablePlan _)
    (decidePolicy_listingPlan _) rfl (delegablePlan_ne_listingPlan _))

end AiBridge
