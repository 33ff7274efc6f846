import AiBridge.EntrySound

namespace AiBridge

open PendingPlans

variable {rx : ShippedRegex} {id : String} {plan : ExecutionPlan} {call : Call}

namespace PendingPlans

variable {self : PendingPlans}

def Holds (self : PendingPlans) (id : String) (plan : ExecutionPlan) : Prop :=
  ∃ task, self.tasks.lookup id = some task ∧ task.status = .heldForManualApproval ∧
    task.plan = plan

/-- The plan is held, listed as held, and what an approval of its id releases. -/
def AwaitsOwner (self : PendingPlans) (id : String) (plan : ExecutionPlan) : Prop :=
  self.Holds id plan ∧ id ∈ self.criticalHeld ∧
    (self.handleOwnerDecision id true).1 = .ok (some plan)

theorem mem_criticalHeld : id ∈ self.criticalHeld ↔
    ∃ task, self.tasks.lookup id = some task ∧ task.status = .heldForManualApproval := by
  rw [criticalHeld, Finset.mem_filter, Finmap.mem_keys, ← Finmap.lookup_isSome,
    Option.isSome_iff_exists, Option.map_eq_some_iff]
  constructor
  · exact fun h => h.2
  · rintro ⟨task, hl, hs⟩
    exact ⟨⟨task, hl⟩, task, hl, hs⟩

theorem awaitsOwner_iff : self.AwaitsOwner id plan ↔ self.Holds id plan := by
  constructor
  · exact fun h => h.1
  · rintro ⟨task, hl, hs, rfl⟩
    refine ⟨⟨task, hl, hs, rfl⟩, mem_criticalHeld.mpr ⟨task, hl, hs⟩, ?_⟩
    simp [handleOwnerDecision, hl, hs]

end PendingPlans

/-- The calls that do not touch the entry of the id, or submit the very plan it holds. -/
def Call.leavesHeld (id : String) (plan : ExecutionPlan) : Call → Prop
  | .ingest _ submitted _ => submitted.taskId = id → submitted = plan
  | .recordExecution taskId _ => taskId ≠ id
  | .checkTimeouts _ _ | .handleOwnerDecision _ _ | .query _ => True

theorem slotStep_held {task : TaskState} (hs : task.Sound rx id)
    (hheld : task.status = .heldForManualApproval)
    (hcall : ∀ approved, call ≠ .handleOwnerDecision id approved) :
    (∃ task', slotStep rx id (some task) call = some task' ∧
      task'.status = .heldForManualApproval ∧ task'.plan = task.plan) ↔
      call.leavesHeld id task.plan := by
  cases call with
  | ingest env submitted now =>
    by_cases hid : submitted.taskId = id
    · cases hd : decidePolicy rx submitted with
      | delegable =>
        have hne : submitted ≠ task.plan := by
          rintro rfl
          have hcrit := hs.critical (Or.inl hheld)
          simp [hs.decision, hd] at hcrit
        have hstatus : (task.resubmitted env now).status ≠ .heldForManualApproval :=
          TaskState.resubmitted_status_ne (by simp) (by simp)
        simp [slotStep, Call.leavesHeld, hid, hd, hne, hstatus]
      | nonDelegable => simp [slotStep, Call.leavesHeld, hid, hd, TaskState.held]
    · simp [slotStep, Call.leavesHeld, hid, hheld]
  | checkTimeouts env now =>
    have hpoll : task.polled env now = task := TaskState.polled_eq (by simp [hheld])
    simp [slotStep, Call.leavesHeld, hpoll, hheld]
  | handleOwnerDecision taskId approved =>
    have hid : taskId ≠ id := by
      rintro rfl
      exact hcall approved rfl
    simp [slotStep, Call.leavesHeld, hid, hheld]
  | recordExecution taskId result =>
    by_cases hid : taskId = id
    · have hstatus : (task.recorded result).status ≠ .heldForManualApproval :=
        TaskState.recorded_status_ne (by simp) (by simp)
      simp [slotStep, Call.leavesHeld, hid, hstatus]
    · simp [slotStep, Call.leavesHeld, hid, hheld]
  | query taskId => simp [slotStep, Call.leavesHeld, hheld]

theorem PendingPlans.step_awaitsOwner_iff {self : PendingPlans} (hs : self.Sound rx)
    (h : self.Holds id plan) (hcall : ∀ approved, call ≠ .handleOwnerDecision id approved) :
    (self.step rx call).AwaitsOwner id plan ↔ call.leavesHeld id plan := by
  obtain ⟨task, hl, hheld, rfl⟩ := h
  rw [awaitsOwner_iff, Holds, lookup_step, hl]
  exact slotStep_held (hs id task hl) hheld hcall

/-- Between the owner's decisions a held plan stays held exactly through the calls that leave its
entry alone. A different plan under its id, or the outcome of an earlier execution, displaces it. -/
theorem held_plan_kept_iff (calls : List Call) (h : (after rx calls).Holds id plan)
    (hcall : ∀ approved, call ≠ .handleOwnerDecision id approved) :
    ((after rx calls).step rx call).AwaitsOwner id plan ↔ call.leavesHeld id plan :=
  step_awaitsOwner_iff (after_sound calls) h hcall

theorem holds_of_critical (hd : decidePolicy rx plan = .nonDelegable) (env : Env) (now : Instant) :
    (after rx [.ingest env plan now]).Holds plan.taskId plan :=
  ⟨.held plan now, lookup_after_critical hd env now, rfl, rfl⟩

theorem held_plan_kept_polled :
    ((after plainRegex [.ingest ⟨none⟩ (criticalPlan "task-2") 0]).step plainRegex
      (.checkTimeouts ⟨none⟩ (Duration.fromSecs 3720))).AwaitsOwner "task-2"
        (criticalPlan "task-2") :=
  (held_plan_kept_iff _ (holds_of_critical (decidePolicy_criticalPlan _) _ _) (by simp)).mpr trivial

theorem held_plan_displaced :
    (after plainRegex [.ingest ⟨none⟩ (criticalPlan "task-2") 0]).Holds "task-2"
        (criticalPlan "task-2") ∧
      ¬((after plainRegex [.ingest ⟨none⟩ (criticalPlan "task-2") 0]).step plainRegex
        (.ingest ⟨none⟩ (delegablePlan "task-2") 5)).AwaitsOwner "task-2"
          (criticalPlan "task-2") := by
  have hholds := holds_of_critical (decidePolicy_criticalPlan "task-2") ⟨none⟩ 0
  refine ⟨hholds, ?_⟩
  intro hkept
  have hleaves := (step_awaitsOwner_iff (after_sound _) hholds (by simp)).mp hkept
  exact absurd (hleaves rfl) (by simp [delegablePlan, criticalPlan])

end AiBridge
