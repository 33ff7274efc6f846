import AiBridge.SlotCases

namespace AiBridge

variable {rx : ShippedRegex}

namespace TaskState

/-- What every entry of a registry in use keeps: its key, the decision that belongs to its plan,
and that only critical plans wait for the owner or were turned down. -/
structure Sound (rx : ShippedRegex) (id : String) (task : TaskState) : Prop where
  taskId : task.taskId = id
  planId : task.plan.taskId = id
  decision : task.decision = decidePolicy rx task.plan
  critical : task.status = .heldForManualApproval ∨ task.status = .rejectedByOwner →
    task.decision = .nonDelegable

variable {id : String} {task : TaskState}

theorem sound_fresh {plan : ExecutionPlan} {now : Instant} (hid : plan.taskId = id)
    (hd : decidePolicy rx plan = .delegable) : (fresh plan now).Sound rx id :=
  ⟨hid, hid, hd.symm, by simp [fresh]⟩

theorem sound_held {plan : ExecutionPlan} {now : Instant} (hid : plan.taskId = id)
    (hd : decidePolicy rx plan = .nonDelegable) : (held plan now).Sound rx id :=
  ⟨hid, hid, hd.symm, fun _ => rfl⟩

theorem Sound.resubmitted {env : Env} {now : Instant} (h : task.Sound rx id) :
    (task.resubmitted env now).Sound rx id := by
  refine ⟨h.taskId, h.planId, h.decision, ?_⟩
  rintro (hs | hs)
  · exact absurd hs (resubmitted_status_ne (by simp) (by simp))
  · exact absurd hs (resubmitted_status_ne (by simp) (by simp))

theorem Sound.polled {env : Env} {now : Instant} (h : task.Sound rx id) :
    (task.polled env now).Sound rx id := by
  unfold TaskState.polled
  split
  · exact ⟨h.taskId, h.planId, h.decision, by simp⟩
  · exact h

theorem Sound.decided {approved : Bool} (h : task.Sound rx id) :
    (task.decided approved).Sound rx id := by
  unfold TaskState.decided
  split
  next hheld => exact ⟨h.taskId, h.planId, h.decision, fun _ => h.critical (Or.inl hheld)⟩
  next => exact h

theorem Sound.recorded {result : ExecutionOutcome} (h : task.Sound rx id) :
    (task.recorded result).Sound rx id := by
  refine ⟨h.taskId, h.planId, h.decision, ?_⟩
  rintro (hs | hs)
  · exact absurd hs (recorded_status_ne (by simp) (by simp))
  · exact absurd hs (recorded_status_ne (by simp) (by simp))

end TaskState

def SlotSound (rx : ShippedRegex) (id : String) (slot : Option TaskState) : Prop :=
  ∀ task, slot = some task → task.Sound rx id

theorem slotStep_sound {id : String} {slot : Option TaskState} {call : Call}
    (hs : SlotSound rx id slot) : SlotSound rx id (slotStep rx id slot call) := by
  intro task' h
  rcases slotStep_cases h with
    ⟨env, plan, now, _, hid, hd, rfl⟩ | ⟨env, plan, now, _, hid, hd, rfl⟩ | ⟨task, hslot, hwrite⟩
  · exact TaskState.sound_held hid hd
  · cases slot with
    | none => exact (TaskState.sound_fresh hid hd).resubmitted
    | some task => exact (hs task rfl).resubmitted
  · have ht := hs task hslot
    rcases hwrite with ⟨env, now, _, rfl⟩ | ⟨approved, _, rfl⟩ | ⟨result, _, rfl⟩ | rfl
    · exact ht.polled
    · exact ht.decided
    · exact ht.recorded
    · exact ht

theorem slotRelease_taskId {id : String} {slot : Option TaskState} {call : Call}
    {plan : ExecutionPlan} (hs : SlotSound rx id slot)
    (h : slotRelease rx id slot call = some plan) : plan.taskId = id := by
  rcases slotRelease_cases h with
    ⟨env, now, _, hid, _, _⟩ | ⟨env, now, task, _, ht, _, rfl⟩ | ⟨task, _, ht, _, rfl⟩
  · exact hid
  · exact (hs task ht).planId
  · exact (hs task ht).planId

namespace PendingPlans

theorem lookup_after_critical {plan : ExecutionPlan} (hd : decidePolicy rx plan = .nonDelegable)
    (env : Env) (now : Instant) :
    (after rx [.ingest env plan now]).tasks.lookup plan.taskId = some (.held plan now) := by
  simp [lookup_after, slotStep, hd]

theorem lookup_after_delegable {plan : ExecutionPlan} (hd : decidePolicy rx plan = .delegable)
    (env : Env) (now : Instant) :
    (after rx [.ingest env plan now]).tasks.lookup plan.taskId =
      some ((TaskState.fresh plan now).resubmitted env now) := by
  simp [lookup_after, slotStep, hd]

def Sound (rx : ShippedRegex) (self : PendingPlans) : Prop :=
  ∀ id, SlotSound rx id (self.tasks.lookup id)

theorem new_sound : new.Sound rx := by
  intro id task h
  simp [new] at h

theorem step_sound {self : PendingPlans} (call : Call) (h : self.Sound rx) :
    (self.step rx call).Sound rx := by
  intro id
  rw [lookup_step]
  exact slotStep_sound (h id)

/-- Every entry of every registry a run can reach is sound. -/
theorem after_sound (calls : List Call) : (after rx calls).Sound rx :=
  Runs.run_forall (fun _ => step_sound) new_sound calls

/-- A call hands a plan out at most once, and under the plan's own id. -/
theorem count_released {self : PendingPlans} (h : self.Sound rx) (call : Call)
    (plan : ExecutionPlan) :
    ((self.released rx call).map Prod.snd).count plan =
      if slotRelease rx plan.taskId (self.tasks.lookup plan.taskId) call = some plan
      then 1 else 0 := by
  have hkey : (self.released rx call).filter (fun out => plan = out.2) =
      ((self.released rx call).filter (fun out => out.1 = plan.taskId)).filter
        (fun out => plan = out.2) := by
    rw [Multiset.filter_filter]
    refine Multiset.filter_congr fun out hout => ?_
    constructor
    · rintro rfl
      exact ⟨rfl, (slotRelease_taskId (h out.1) (mem_released.mp hout)).symm⟩
    · exact fun hboth => hboth.1
  rw [Multiset.count_map, hkey, filter_released]
  cases slotRelease rx plan.taskId (self.tasks.lookup plan.taskId) call with
  | none => simp
  | some out => by_cases hp : plan = out <;> simp [hp, Multiset.filter_singleton, eq_comm]

/-- How often a run hands a plan out, under whatever id. -/
def releases (rx : ShippedRegex) (plan : ExecutionPlan) (calls : List Call) : Nat :=
  Runs.tally (step rx) (fun self call => ((self.released rx call).map Prod.snd).count plan)
    new calls

theorem releases_eq (plan : ExecutionPlan) (calls : List Call) :
    releases rx plan calls = Runs.tally (slotStep rx plan.taskId)
      (fun slot call => if slotRelease rx plan.taskId slot call = some plan then 1 else 0)
      none calls := by
  have hcount : releases rx plan calls = Runs.tally (step rx)
      (fun self call =>
        if slotRelease rx plan.taskId (self.tasks.lookup plan.taskId) call = some plan
        then 1 else 0) new calls :=
    Runs.tally_congr (fun _ => step_sound) (fun _ call h => count_released h call plan) new_sound
  rw [hcount]
  exact Runs.tally_proj (f := fun self : PendingPlans => self.tasks.lookup plan.taskId)
    (fun slot call => if slotRelease rx plan.taskId slot call = some plan then 1 else 0)
    fun self call => lookup_step call plan.taskId

end PendingPlans

end AiBridge
