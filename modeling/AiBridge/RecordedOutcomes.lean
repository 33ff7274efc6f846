import AiBridge.StartedCommands

namespace AiBridge

open PendingPlans Runs

variable {rx : ShippedRegex}

section Slots

variable {id : String} {slot : Option TaskState} {call : Call}

/-- An entry is never taken out. -/
theorem slotStep_isSome (h : slot.isSome) : (slotStep rx id slot call).isSome := by
  obtain ⟨task, rfl⟩ := Option.isSome_iff_exists.mp h
  cases call with
  | ingest env plan now =>
    simp only [slotStep]
    split
    · split <;> rfl
    · rfl
  | checkTimeouts env now => rfl
  | handleOwnerDecision taskId approved =>
    simp only [slotStep]
    split <;> rfl
  | recordExecution taskId result =>
    simp only [slotStep]
    split <;> rfl
  | query taskId => rfl

/-- A plan is handed out under an id that has an entry from then on. -/
theorem slotStep_isSome_of_release {plan : ExecutionPlan}
    (h : slotRelease rx id slot call = some plan) : (slotStep rx id slot call).isSome := by
  rcases slotRelease_cases h with
    ⟨env, now, rfl, hid, hdecision, _⟩ | ⟨env, now, task, _, rfl, _, _⟩ | ⟨task, _, rfl, _, _⟩
  · simp [slotStep, hid, hdecision]
  · exact slotStep_isSome rfl
  · exact slotStep_isSome rfl

end Slots

namespace Deployment

/-- The events executed the commands of one plan, each where the one before it had stopped, and gave
these results. -/
inductive Trail (self : Deployment) (taskId : String) (plan : ExecutionPlan) :
    List BridgeEvent → List CommandResult → Prop
  | nil : Trail self taskId plan [] []
  | concat {events : List BridgeEvent} {run : PlanRun} {host : Host}
      {spawn : String → List String → Except IoError Output} {command : String} :
      Trail self taskId plan events run.results → run.taskId = taskId → run.plan = plan →
      run.command = some command →
      Trail self taskId plan (events ++ [.command run host spawn])
        (run.results ++ [(executeApprovedTask self.shlex host spawn command).result])

variable {self : Deployment} {daemon : BridgeDaemon} {event : BridgeEvent}
  {events : List BridgeEvent} {run : PlanRun}

theorem entry_step {id : String} (h : (daemon.pending.tasks.lookup id).isSome) :
    ((self.step daemon event).pending.tasks.lookup id).isSome := by
  rw [lookup_step_pending]
  cases self.call event with
  | none => exact h
  | some call => exact slotStep_isSome h

theorem entry_of_handsOut {exec : String × ExecutionPlan} (h : self.HandsOut exec daemon event) :
    ((self.step daemon event).pending.tasks.lookup exec.1).isSome := by
  obtain ⟨call, hcall, hmem⟩ := h
  rw [lookup_step_pending, hcall]
  exact slotStep_isSome_of_release (mem_released.mp hmem)

/-- The id of a plan that is executed has an entry. -/
theorem entry_of_running (henabled : Along self.step BridgeDaemon.Enabled .start events)
    (h : run ∈ (self.after events).running) :
    ((self.after events).pending.tasks.lookup run.taskId).isSome := by
  induction events using List.reverseRecOn generalizing run with
  | nil => exact absurd h (Multiset.notMem_zero run)
  | append_singleton events event ih =>
    obtain ⟨hbefore, hlast⟩ := along_concat.mp henabled
    rw [Deployment.after, run_concat] at h ⊢
    rcases running_step_cases hlast h with ⟨old, hold, hid, _⟩ | hnew
    · rw [← hid]
      exact entry_step (ih hbefore hold)
    · exact entry_of_handsOut hnew

/-- The plan was handed out in an event, and the events after it gave the results. -/
def Earned (self : Deployment) (events : List BridgeEvent) (run : PlanRun) : Prop :=
  ∃ earlier event later, events = earlier ++ event :: later ∧
    self.HandsOut (run.taskId, run.plan) (self.after earlier) event ∧
    ∃ trail, trail.Sublist later ∧ self.Trail run.taskId run.plan trail run.results

/-- Other events do not take away what was earned. -/
theorem Earned.concat (h : self.Earned events run) (event : BridgeEvent) :
    self.Earned (events ++ [event]) run := by
  obtain ⟨earlier, handing, later, hsplit, hhands, trail, hsub, htrail⟩ := h
  refine ⟨earlier, handing, later ++ [event], by simp [hsplit], hhands, trail, ?_, htrail⟩
  exact hsub.trans (List.sublist_append_left later [event])

/-- The execution of the next command earns the next result. -/
theorem Earned.next (h : self.Earned events run) {host : Host}
    {spawn : String → List String → Except IoError Output} {cmd : String}
    (hcmd : run.command = some cmd) :
    self.Earned (events ++ [.command run host spawn])
      (run.next (executeApprovedTask self.shlex host spawn cmd).result) := by
  obtain ⟨earlier, handing, later, hsplit, hhands, trail, hsub, htrail⟩ := h
  obtain ⟨hid, hplan⟩ := next_same run (executeApprovedTask self.shlex host spawn cmd).result
  refine ⟨earlier, handing, later ++ [.command run host spawn], by simp [hsplit], ?_,
    trail ++ [.command run host spawn], hsub.append (List.Sublist.refl _), ?_⟩
  · rw [hid, hplan]
    exact hhands
  · rw [hid, hplan, PlanRun.results_next hcmd]
    exact .concat htrail rfl rfl hcmd

/-- The results of a plan that is executed were given by events after it was handed out. -/
theorem earned_of_running (henabled : Along self.step BridgeDaemon.Enabled .start events)
    (h : run ∈ (self.after events).running) : self.Earned events run := by
  induction events using List.reverseRecOn generalizing run with
  | nil => exact absurd h (Multiset.notMem_zero run)
  | append_singleton events event ih =>
    obtain ⟨hbefore, hlast⟩ := along_concat.mp henabled
    rw [Deployment.after, run_concat] at h
    have quiet : (∀ old host spawn, event ≠ .command old host spawn) →
        (∀ old, event ≠ .finish old) → self.Earned (events ++ [event]) run := by
      intro hcommand hfinish
      rcases running_quiet_cases hcommand hfinish h with hold | ⟨hnone, hhands⟩
      · exact (ih hbefore hold).concat event
      · refine ⟨events, event, [], rfl, hhands, [], List.nil_sublist _, ?_⟩
        rw [hnone]
        exact .nil
    cases event with
    | turn channel connection io => exact quiet (by simp) (by simp)
    | poll env now => exact quiet (by simp) (by simp)
    | finish old => exact (ih hbefore (Multiset.mem_of_mem_erase h)).concat _
    | command old host spawn =>
      obtain ⟨hmem, hsome⟩ := hlast
      obtain ⟨cmd, hcmd⟩ := Option.isSome_iff_exists.mp hsome
      rw [running_step_command hcmd] at h
      rcases Multiset.mem_cons.mp h with hnext | hrest
      · rw [hnext]
        exact (ih hbefore hmem).next hcmd
      · exact (ih hbefore (Multiset.mem_of_mem_erase hrest)).concat _

theorem outcome_eq_executePlan (hthrough : run.command = none) :
    run.outcome = (executePlan scripted run.plan run.results).1 := by
  rw [executePlan, executeCommands_fst,
    commandResults_scripted (PlanRun.length_of_through hthrough)]
  rfl

end Deployment

open Deployment

/-- An execution that ends has executed the commands of its plan one after another since the plan was
handed out. What is recorded is the outcome of `execute_plan` on the results that they gave, and the
entry of its id is there to take it. -/
theorem recorded_outcome_earned (d : Deployment) {events before rest : List BridgeEvent}
    {run : PlanRun} (henabled : Along d.step BridgeDaemon.Enabled .start events)
    (hsplit : events = before ++ .finish run :: rest) :
    ∃ earlier event later, before = earlier ++ event :: later ∧
      d.HandsOut (run.taskId, run.plan) (d.after earlier) event ∧
      (∃ trail, trail.Sublist later ∧ d.Trail run.taskId run.plan trail run.results) ∧
      run.results.length = run.plan.commands.length ∧
      ∃ task, (d.after before).pending.tasks.lookup run.taskId = some task ∧
        (d.after (before ++ [.finish run])).pending.tasks.lookup run.taskId =
          some (task.recorded (executePlan scripted run.plan run.results).1) := by
  obtain ⟨hmem, hthrough⟩ := henabled before _ rest hsplit
  have hpast : Along d.step BridgeDaemon.Enabled .start before := by
    rw [hsplit] at henabled
    exact henabled.append_left
  obtain ⟨earlier, event, later, hbefore, hhands, htrail⟩ := earned_of_running hpast hmem
  obtain ⟨task, htask⟩ := Option.isSome_iff_exists.mp (entry_of_running hpast hmem)
  refine ⟨earlier, event, later, hbefore, hhands, htrail, PlanRun.length_of_through hthrough, task,
    htask, ?_⟩
  have hcall : d.call (.finish run) = some (.recordExecution run.taskId run.outcome) := rfl
  rw [Deployment.after, run_concat, lookup_step_pending, hcall, Option.elim_some]
  rw [Deployment.after] at htask
  rw [htask, outcome_eq_executePlan hthrough]
  simp [slotStep]

/-- The listing after its one command. -/
def listingEnd : PlanRun := listingStart.next (.ok ⟨.exited 0, [], []⟩)

theorem listing_ended : listingEnd ∈ (listingDeployment.after listingRun).running := by
  have hcommand : listingStart.command = some "[[AB:OPS.TERM.RUN.LOCAL]] ls src" := rfl
  have hresult : (executeApprovedTask listingDeployment.shlex listingHost listed
      "[[AB:OPS.TERM.RUN.LOCAL]] ls src").result = .ok ⟨.exited 0, [], []⟩ := by decide +kernel
  have hrunning : (listingDeployment.after listingRun).running =
      listingEnd ::ₘ (listingDeployment.after (listingRun.take 2)).running.erase listingStart := by
    exact (running_step_command hcommand).trans (by rw [hresult]; rfl)
  rw [hrunning]
  exact Multiset.mem_cons_self _ _

theorem recorded_outcome_listing :
    ∃ task : TaskState, (listingDeployment.after (listingRun ++ [.finish listingEnd])).pending.tasks.lookup
      "task-1" = some (task.recorded ⟨"", "", 0, true⟩) := by
  have henabled : Along listingDeployment.step BridgeDaemon.Enabled .start
      (listingRun ++ [.finish listingEnd]) :=
    along_concat.mpr ⟨listing_enabled, listing_ended, rfl⟩
  obtain ⟨_, _, _, _, _, _, _, task, _, hrecorded⟩ :=
    recorded_outcome_earned listingDeployment henabled rfl
  exact ⟨task, hrecorded⟩

end AiBridge
