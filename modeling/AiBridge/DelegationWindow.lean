import AiBridge.EntrySound

namespace AiBridge

variable {rx : ShippedRegex}

namespace Call

def env : Call → Option Env
  | .ingest env _ _ | .checkTimeouts env _ => some env
  | _ => none

def clock : Call → Option Instant
  | .ingest _ _ now | .checkTimeouts _ now => some now
  | _ => none

end Call

/-- One timeout throughout the run, and a clock that never goes back. -/
structure Clocked (timeout : Duration) (calls : List Call) : Prop where
  constant : ∀ call ∈ calls, ∀ env, call.env = some env → gatekeeperTimeout env = timeout
  monotone : (calls.filterMap Call.clock).Pairwise (· ≤ ·)

theorem Clocked.le_of_append {timeout : Duration} {before rest : List Call} {call early : Call}
    {t0 t : Instant} (h : Clocked timeout (before ++ call :: rest)) (hmem : early ∈ before)
    (he : early.clock = some t0) (hc : call.clock = some t) : t0 ≤ t := by
  have hm := h.monotone
  rw [List.filterMap_append, List.pairwise_append] at hm
  exact hm.2.2 t0 (List.mem_filterMap.mpr ⟨early, hmem, he⟩) t
    (List.mem_filterMap.mpr ⟨call, by simp, hc⟩)

/-- The plan and the clock of an entry come from one and the same submission. -/
def SlotSubmitted (past : List Call) (slot : Option TaskState) : Prop :=
  ∀ task, slot = some task → ∃ env, Call.ingest env task.plan task.createdAt ∈ past

theorem slotStep_submitted {id : String} {past : List Call} {slot : Option TaskState} {call : Call}
    (hs : SlotSubmitted past slot) :
    SlotSubmitted (past ++ [call]) (slotStep rx id slot call) := by
  intro task' h
  have old : ∀ task, slot = some task →
      ∃ env, Call.ingest env task.plan task.createdAt ∈ past ++ [call] := by
    intro task ht
    obtain ⟨env, hmem⟩ := hs task ht
    exact ⟨env, List.mem_append_left _ hmem⟩
  rcases slotStep_cases h with
    ⟨env, plan, now, rfl, _, _, rfl⟩ | ⟨env, plan, now, rfl, _, _, rfl⟩ | ⟨task, hslot, hwrite⟩
  · exact ⟨env, by simp [TaskState.held]⟩
  · cases slot with
    | none => exact ⟨env, by simp [TaskState.fresh]⟩
    | some task => simpa using old task rfl
  · rcases hwrite with ⟨env, now, _, rfl⟩ | ⟨approved, _, rfl⟩ | ⟨result, _, rfl⟩ | rfl
    · simpa using old task hslot
    · simpa using old task hslot
    · simpa using old task hslot
    · exact old task' hslot

namespace PendingPlans

theorem after_submitted (calls : List Call) (id : String) :
    SlotSubmitted calls ((after rx calls).tasks.lookup id) := by
  rw [lookup_after]
  exact Runs.run_history (fun _ _ _ => slotStep_submitted) (by intro task h; simp at h)

/-- No delegable submission finds the elapsed window of another plan under its id. -/
def OwnWindow (rx : ShippedRegex) (self : PendingPlans) (call : Call) : Prop :=
  ∀ env plan now, call = .ingest env plan now → decidePolicy rx plan = .delegable →
    ∀ task, self.tasks.lookup plan.taskId = some task →
      task.plan = plan ∨ ¬task.windowElapsed env now

/-- Every delegable plan a run hands out on the clock was submitted a whole window before. -/
def WindowKept (rx : ShippedRegex) (timeout : Duration) (calls : List Call) : Prop :=
  ∀ before call rest, calls = before ++ call :: rest →
    ∀ id plan t, decidePolicy rx plan = .delegable → call.clock = some t →
      (id, plan) ∈ (after rx before).released rx call →
        ∃ env t0, Call.ingest env plan t0 ∈ before ++ [call] ∧ plan.taskId = id ∧ t0 + timeout ≤ t

end PendingPlans

open PendingPlans

/-- The window is counted from the first plan under an id; it is the plan's own as long as no
other plan is submitted once that window has run out. -/
theorem delegation_window_kept {timeout : Duration} {calls : List Call}
    (hclock : Clocked timeout calls) (hown : Runs.Along (step rx) (OwnWindow rx) new calls) :
    WindowKept rx timeout calls := by
  intro before call rest heq id plan t hd ht hmem
  have hr := mem_released.mp hmem
  have hsub : SlotSubmitted before ((after rx before).tasks.lookup id) := after_submitted before id
  have hid := slotRelease_taskId (after_sound before id) hr
  have hcall : call ∈ calls := by simp [heq]
  have window : ∀ env task, call.env = some env → (after rx before).tasks.lookup id = some task →
      task.plan = plan → task.windowElapsed env t →
      ∃ env t0, Call.ingest env plan t0 ∈ before ++ [call] ∧ plan.taskId = id ∧
        t0 + timeout ≤ t := by
    intro env task henv htask hplan hw
    obtain ⟨env0, hpast⟩ := hsub task htask
    have hle := (heq ▸ hclock).le_of_append hpast rfl ht
    have htimeout := hclock.constant call hcall env henv
    simp only [TaskState.windowElapsed, htimeout, Instant.saturatingDurationSince] at hw
    exact ⟨env0, task.createdAt, by simp [← hplan, hpast], hid, Nat.add_le_of_le_sub' hle hw⟩
  rcases slotRelease_cases hr with
    ⟨env, now, rfl, _, _, hw⟩ | ⟨env, now, task, rfl, htask, htimed, hplan⟩ | ⟨task, rfl, _, _, _⟩
  · obtain rfl : now = t := Option.some.inj ht
    cases htask : (after rx before).tasks.lookup id with
    | none =>
      have htimeout := hclock.constant _ hcall env rfl
      simp only [htask, Option.getD_none, TaskState.fresh, TaskState.windowElapsed, htimeout,
        Instant.saturatingDurationSince] at hw
      exact ⟨env, now, by simp, hid, Nat.add_le_of_le_sub' le_rfl hw⟩
    | some task =>
      simp only [htask, Option.getD_some] at hw
      have hplan := hown before _ rest heq env plan now rfl hd task (by rw [hid]; exact htask)
      exact window env task rfl htask (hplan.resolve_right (not_not.mpr hw)) hw
  · obtain rfl : now = t := Option.some.inj ht
    exact window env task rfl htask hplan (TaskState.timedOut_iff.mp htimed).2.2
  · simp [Call.clock] at ht

/-- A second plan under an id takes over the window of the first. -/
theorem window_taken_over {first second : ExecutionPlan}
    (h1 : decidePolicy rx first = .delegable) (h2 : decidePolicy rx second = .delegable)
    (hid : second.taskId = first.taskId) (hne : first ≠ second) :
    let calls : List Call := [.ingest ⟨none⟩ first 0, .ingest ⟨none⟩ second defaultGatekeeperTimeout]
    Clocked defaultGatekeeperTimeout calls ∧ ¬WindowKept rx defaultGatekeeperTimeout calls := by
  intro calls
  refine ⟨⟨by simp [calls, Call.env], by simp [calls, Call.clock]⟩, ?_⟩
  intro h
  have hreleased : (first.taskId, second) ∈ (after rx [.ingest ⟨none⟩ first 0]).released rx
      (.ingest ⟨none⟩ second defaultGatekeeperTimeout) := by
    simp [mem_released, lookup_after, slotRelease, slotStep, h1, h2, hid, TaskState.windowElapsed,
      TaskState.fresh, Instant.saturatingDurationSince]
  obtain ⟨env, t0, hmem, _, hle⟩ := h [_] _ [] rfl _ _ _ h2 rfl hreleased
  have ht0 : t0 = defaultGatekeeperTimeout := by
    simp only [List.singleton_append, List.mem_cons, Call.ingest.injEq, hne.symm,
      List.not_mem_nil] at hmem
    tauto
  rw [ht0] at hle
  exact absurd hle (by decide)

theorem delegation_window_borrowed :
    let calls : List Call := [.ingest ⟨none⟩ (delegablePlan "task-1") 0,
      .ingest ⟨none⟩ (listingPlan "task-1") defaultGatekeeperTimeout]
    Clocked defaultGatekeeperTimeout calls ∧
      ¬WindowKept plainRegex defaultGatekeeperTimeout calls :=
  window_taken_over (decidePolicy_delegablePlan _) (decidePolicy_listingPlan _) rfl
    (delegablePlan_ne_listingPlan _)

theorem ownWindow_resubmitted {plan : ExecutionPlan} (hd : decidePolicy rx plan = .delegable)
    (env : Env) (t : Instant) :
    Runs.Along (step rx) (OwnWindow rx) new [.ingest env plan 0, .ingest env plan t] := by
  simp [Runs.along_cons, Runs.along_nil, OwnWindow, lookup_step, slotStep, hd, new,
    TaskState.fresh]

theorem delegation_window_kept_resubmitted :
    WindowKept plainRegex defaultGatekeeperTimeout [.ingest ⟨none⟩ (delegablePlan "task-1") 0,
      .ingest ⟨none⟩ (delegablePlan "task-1") defaultGatekeeperTimeout] :=
  delegation_window_kept ⟨by simp [Call.env], by simp [Call.clock]⟩
    (ownWindow_resubmitted (decidePolicy_delegablePlan _) _ _)

end AiBridge
