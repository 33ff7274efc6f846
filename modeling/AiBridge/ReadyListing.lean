import AiBridge.EntrySound

namespace AiBridge

open PendingPlans Runs

variable {rx : ShippedRegex} {id : String} {plan : ExecutionPlan} {call : Call}

/-- The call approves the plan that the entry of the id holds: the window of a delegable plan has
elapsed, or the owner says so. -/
def Approves (rx : ShippedRegex) (id : String) (plan : ExecutionPlan) (self : PendingPlans) :
    Call → Prop
  | .ingest env submitted now =>
    submitted.taskId = id ∧ decidePolicy rx submitted = .delegable ∧
      decidePolicy rx plan = .delegable ∧
      ∃ task, (self.tasks.lookup id).getD (.fresh submitted now) = task ∧ task.plan = plan ∧
        task.windowElapsed env now
  | .checkTimeouts env now =>
    ∃ task, self.tasks.lookup id = some task ∧ task.plan = plan ∧ task.timedOut env now = true
  | .handleOwnerDecision taskId approved =>
    taskId = id ∧ approved = true ∧
      ∃ task, self.tasks.lookup id = some task ∧ task.plan = plan ∧
        task.status = .heldForManualApproval
  | .recordExecution _ _ | .query _ => False

/-- What is listed as ready has been approved and was not handed out yet. -/
def ListsApproved (rx : ShippedRegex) (calls : List Call) : Prop :=
  ∀ id plan, (id, plan) ∈ (after rx calls).readyForExecution →
    Sometime (step rx) (Approves rx id plan) new calls ∧
      ¬Sometime (step rx) (fun self call => (id, plan) ∈ self.released rx call) new calls

/-- The call neither submits a delegable plan nor approves one that is held. -/
def Call.approvesNone (rx : ShippedRegex) (self : PendingPlans) : Call → Prop
  | .ingest _ plan _ => decidePolicy rx plan = .nonDelegable
  | .handleOwnerDecision taskId approved => approved = true →
    (self.tasks.lookup taskId).map TaskState.status ≠ some .heldForManualApproval
  | .checkTimeouts _ _ | .recordExecution _ _ | .query _ => True

theorem PendingPlans.mem_readyForExecution {self : PendingPlans} :
    (id, plan) ∈ self.readyForExecution ↔ ∃ task, self.tasks.lookup id = some task ∧
      (task.status = .delegableAutoApproved ∨ task.status = .pending) ∧ task.plan = plan := by
  rw [readyForExecution, Finmap.mem_collect, Option.bind_eq_some_iff]
  constructor
  · intro h
    obtain ⟨task, hl, hlisted⟩ := h
    split at hlisted
    next hstatus => exact ⟨task, hl, hstatus, Option.some.inj hlisted⟩
    next => simp at hlisted
  · intro h
    obtain ⟨task, hl, hstatus, hplan⟩ := h
    exact ⟨task, hl, by rw [if_pos hstatus, hplan]⟩

namespace TaskState

/-- A critical plan that no one has approved. -/
structure Unapproved (task : TaskState) : Prop where
  critical : task.decision = .nonDelegable
  notPending : task.status ≠ .pending
  notApproved : task.status ≠ .delegableAutoApproved

variable {task : TaskState}

theorem Unapproved.polled_eq {env : Env} {now : Instant} (h : task.Unapproved) :
    task.polled env now = task :=
  TaskState.polled_eq fun hboth => h.notPending hboth.1

theorem Unapproved.not_timedOut {env : Env} {now : Instant} (h : task.Unapproved) :
    task.timedOut env now ≠ true := by
  intro htimed
  exact h.notPending (timedOut_iff.mp htimed).2.1

theorem Unapproved.recorded {result : ExecutionOutcome} (h : task.Unapproved) :
    (task.recorded result).Unapproved :=
  ⟨h.critical, recorded_status_ne (by simp) (by simp), recorded_status_ne (by simp) (by simp)⟩

end TaskState

def PendingPlans.Unapproved (self : PendingPlans) : Prop :=
  ∀ id task, self.tasks.lookup id = some task → task.Unapproved

variable {self : PendingPlans}

theorem step_unapproved (h : self.Unapproved) (hcall : call.approvesNone rx self) :
    (self.step rx call).Unapproved := by
  intro id task' hl
  rw [lookup_step] at hl
  rcases slotStep_cases hl with
    ⟨env, plan, now, _, _, _, rfl⟩ | ⟨env, plan, now, rfl, _, hd, _⟩ | ⟨task, hslot, hwrite⟩
  · exact ⟨rfl, by simp [TaskState.held], by simp [TaskState.held]⟩
  · rw [Call.approvesNone, hd] at hcall
    simp at hcall
  · have ht := h id task hslot
    rcases hwrite with ⟨env, now, _, rfl⟩ | ⟨approved, rfl, rfl⟩ | ⟨result, _, rfl⟩ | rfl
    · rw [ht.polled_eq]
      exact ht
    · unfold TaskState.decided
      split
      next hheld =>
        cases approved with
        | false => exact ⟨ht.critical, by simp, by simp⟩
        | true => exact absurd (by rw [hslot, Option.map_some, hheld]) (hcall rfl)
      next => exact ht
    · exact ht.recorded
    · exact ht

theorem not_approves_of_unapproved (h : self.Unapproved) (hcall : call.approvesNone rx self) :
    ¬Approves rx id plan self call := by
  intro happroves
  cases call with
  | ingest env submitted now =>
    have hd := happroves.2.1
    rw [Call.approvesNone, hd] at hcall
    simp at hcall
  | checkTimeouts env now =>
    obtain ⟨task, hl, _, htimed⟩ := happroves
    exact (h id task hl).not_timedOut htimed
  | handleOwnerDecision taskId approved =>
    obtain ⟨hid, happroved, task, hl, _, hheld⟩ := happroves
    exact hcall happroved (by rw [hid, hl, Option.map_some, hheld])
  | recordExecution taskId result => exact happroves
  | query taskId => exact happroves

theorem new_unapproved : new.Unapproved := by
  intro id task hl
  simp [new] at hl

/-- A held plan that the owner approves is handed out by that call, and still listed. -/
theorem not_listsApproved_of_held {calls : List Call} {task : TaskState}
    (hl : (after rx calls).tasks.lookup id = some task)
    (hstatus : task.status = .heldForManualApproval) :
    ¬ListsApproved rx (calls ++ [.handleOwnerDecision id true]) := by
  intro hlists
  have hlisted : (id, task.plan) ∈
      (after rx (calls ++ [.handleOwnerDecision id true])).readyForExecution := by
    rw [mem_readyForExecution]
    refine ⟨task.decided true, ?_, Or.inr ?_, TaskState.decided_plan⟩
    · simp [lookup_after_concat, slotStep, hl]
    · simp [TaskState.decided, hstatus]
  have hreleased : (id, task.plan) ∈
      (after rx calls).released rx (.handleOwnerDecision id true) := by
    simp [mem_released, slotRelease, hl, hstatus]
  exact (hlists id task.plan hlisted).2 (sometime_concat.mpr (Or.inr hreleased))

/-- A delegable plan that comes in leaves the plan of its entry listed. -/
theorem listed_of_ingest {calls : List Call} {submitted : ExecutionPlan} {env : Env} {now : Instant}
    {task : TaskState} (hd : decidePolicy rx submitted = .delegable)
    (htask : ((after rx calls).tasks.lookup submitted.taskId).getD (.fresh submitted now) = task) :
    (submitted.taskId, task.plan) ∈
      (after rx (calls ++ [.ingest env submitted now])).readyForExecution := by
  rw [mem_readyForExecution]
  refine ⟨task.resubmitted env now, ?_, ?_, TaskState.resubmitted_plan⟩
  · simp [lookup_after_concat, slotStep, hd, htask]
  · unfold TaskState.resubmitted
    split
    · exact Or.inl rfl
    · exact Or.inr rfl

section Along

variable {calls : List Call} (h : Along (step rx) (fun self call => call.approvesNone rx self) new calls)

include h

theorem after_unapproved : (after rx calls).Unapproved :=
  run_invariant (fun _ _ hs hc => step_unapproved hs hc) new_unapproved h

theorem never_approved (id : String) (plan : ExecutionPlan) :
    ¬Sometime (step rx) (Approves rx id plan) new calls := by
  rw [not_sometime_iff]
  intro before call rest heq
  rw [heq] at h
  have hbefore : (after rx before).Unapproved :=
    run_invariant (fun _ _ hs hc => step_unapproved hs hc) new_unapproved h.append_left
  exact not_approves_of_unapproved hbefore (h before call rest rfl)

theorem listsApproved_of_along : ListsApproved rx calls := by
  intro id plan hlisted
  obtain ⟨task, hl, hstatus, _⟩ := mem_readyForExecution.mp hlisted
  have ht := after_unapproved h id task hl
  rcases hstatus with hauto | hpending
  · exact absurd hauto ht.notApproved
  · exact absurd hpending ht.notPending

/-- Entries hold critical plans, so a plan that is approved as it comes in is the submitted one, and
it is handed out at once. -/
theorem released_of_approves {submitted : ExecutionPlan} {env : Env} {now : Instant}
    (happroves : Approves rx submitted.taskId plan (after rx calls) (.ingest env submitted now)) :
    (submitted.taskId, plan) ∈ (after rx calls).released rx (.ingest env submitted now) := by
  obtain ⟨_, hd, hdelegable, task, htask, hplan, hwindow⟩ := happroves
  have hfresh : (after rx calls).tasks.lookup submitted.taskId = none := by
    cases hl : (after rx calls).tasks.lookup submitted.taskId with
    | none => rfl
    | some stored =>
      have hstored : stored = task := by rw [← htask, hl, Option.getD_some]
      have hdecision := (after_sound calls submitted.taskId stored hl).decision
      rw [(after_unapproved h _ stored hl).critical, hstored, hplan, hdelegable] at hdecision
      simp at hdecision
  have hplan' : plan = submitted := by
    rw [← hplan, ← htask, hfresh]
    rfl
  rw [hplan', mem_released]
  show slotRelease rx submitted.taskId ((after rx calls).tasks.lookup submitted.taskId)
    (.ingest env submitted now) = some submitted
  rw [slotRelease, if_pos ⟨rfl, hd, by rw [htask]; exact hwindow⟩]

/-- The first call that could approve something gets a plan listed that is not approved, or that
has been handed out. -/
theorem approvesNone_of_listsApproved (hlists : ListsApproved rx (calls ++ [call])) :
    call.approvesNone rx (after rx calls) := by
  cases call with
  | checkTimeouts env now => trivial
  | recordExecution taskId result => trivial
  | query taskId => trivial
  | handleOwnerDecision taskId approved =>
    intro happroved hheld
    obtain ⟨task, hl, hstatus⟩ := Option.map_eq_some_iff.mp hheld
    rw [happroved] at hlists
    exact not_listsApproved_of_held hl hstatus hlists
  | ingest env submitted now =>
    by_contra hcritical
    have hd : decidePolicy rx submitted = .delegable := by
      cases hdecide : decidePolicy rx submitted with
      | delegable => rfl
      | nonDelegable => exact absurd hdecide hcritical
    obtain ⟨happroved, hkept⟩ := hlists _ _ (listed_of_ingest hd rfl)
    rcases sometime_concat.mp happroved with hearlier | hnow
    · exact never_approved h _ _ hearlier
    · exact hkept (sometime_concat.mpr (Or.inr (released_of_approves h hnow)))

end Along

/-- The listing is right in every state of a run exactly if no call of the run submits a delegable
plan or approves a held one: what is approved is handed out by the call that approves it, and what
is listed before that is not approved. -/
theorem ready_listing_iff (calls : List Call) :
    (∀ before rest, calls = before ++ rest → ListsApproved rx before) ↔
      Along (step rx) (fun self call => call.approvesNone rx self) new calls := by
  constructor
  · intro hlists
    induction calls using List.reverseRecOn with
    | nil => exact along_nil
    | append_singleton calls call ih =>
      have hbefore := ih fun before rest heq =>
        hlists before (rest ++ [call]) (by rw [heq, List.append_assoc])
      have hlast := hlists (calls ++ [call]) [] (List.append_nil _).symm
      exact along_concat.mpr ⟨hbefore, approvesNone_of_listsApproved hbefore hlast⟩
  · intro h before rest heq
    rw [heq] at h
    exact listsApproved_of_along h.append_left

/-- A delegable plan is listed from the moment it comes in. -/
theorem listed_in_window {plan : ExecutionPlan} (hd : decidePolicy rx plan = .delegable) (env : Env)
    (now : Instant) : ¬ListsApproved rx [.ingest env plan now] := by
  intro hlists
  have hnone : (Call.ingest env plan now).approvesNone rx (after rx []) :=
    approvesNone_of_listsApproved along_nil hlists
  rw [Call.approvesNone, hd] at hnone
  simp at hnone

theorem ready_in_window : ¬ListsApproved plainRegex [.ingest ⟨none⟩ (delegablePlan "task-1") 0] :=
  listed_in_window (decidePolicy_delegablePlan _) _ _

end AiBridge
