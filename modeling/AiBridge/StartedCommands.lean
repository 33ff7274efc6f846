import AiBridge.CriticalRelease
import AiBridge.SpawnProvenance

namespace AiBridge

open PendingPlans Runs

/-- The event executes the command at this place of the plan. -/
def BridgeEvent.Starts (plan : ExecutionPlan) (i : Nat) : BridgeEvent → Prop
  | .command run _ _ => run.plan = plan ∧ run.results.length = i
  | _ => False

instance (plan : ExecutionPlan) (i : Nat) : DecidablePred (BridgeEvent.Starts plan i)
  | .command run _ _ => inferInstanceAs (Decidable (run.plan = plan ∧ run.results.length = i))
  | .turn .. | .poll .. | .finish .. => inferInstanceAs (Decidable False)

/-- How often the command at a place of a plan is executed. -/
def timesStarted (plan : ExecutionPlan) (i : Nat) (events : List BridgeEvent) : Nat :=
  events.countP fun event => decide (event.Starts plan i)

theorem timesStarted_concat {plan : ExecutionPlan} {i : Nat} {events : List BridgeEvent}
    {event : BridgeEvent} : timesStarted plan i (events ++ [event]) =
      timesStarted plan i events + if event.Starts plan i then 1 else 0 := by
  rw [timesStarted, List.countP_append, ← timesStarted, List.countP_singleton]
  simp only [decide_eq_true_eq]

/-- The plan is executed, and its command at this place is still to come. -/
def PlanRun.Before (plan : ExecutionPlan) (i : Nat) (run : PlanRun) : Prop :=
  run.plan = plan ∧ run.results.length ≤ i

/-- The plan is executed, and its command at this place is the next one. -/
def PlanRun.At (plan : ExecutionPlan) (i : Nat) (run : PlanRun) : Prop :=
  run.plan = plan ∧ run.results.length = i

instance (plan : ExecutionPlan) (i : Nat) : DecidablePred (PlanRun.Before plan i) :=
  fun _ => inferInstanceAs (Decidable (_ ∧ _))

instance (plan : ExecutionPlan) (i : Nat) : DecidablePred (PlanRun.At plan i) :=
  fun _ => inferInstanceAs (Decidable (_ ∧ _))

namespace PlanRun

variable {run : PlanRun} {cmd : String}

theorem length_lt_of_command (h : run.command = some cmd) :
    run.results.length < run.plan.commands.length := by
  obtain ⟨hlt, _⟩ := List.getElem?_eq_some_iff.mp h
  exact hlt

theorem length_of_through (h : run.command = none) :
    run.results.length = run.plan.commands.length := by
  have hle := List.getElem?_eq_none_iff.mp h
  have hwithin := run.within
  omega

theorem results_next (h : run.command = some cmd) (result : CommandResult) :
    (run.next result).results = run.results ++ [result] := by
  rw [next, dif_pos (length_lt_of_command h)]

end PlanRun

namespace Deployment

variable {self : Deployment} {daemon : BridgeDaemon} {event : BridgeEvent}
  {events : List BridgeEvent} {plan : ExecutionPlan} {i : Nat}

/-- How often an event hands the plan out. -/
def timesHanded (self : Deployment) (plan : ExecutionPlan) (daemon : BridgeDaemon)
    (event : BridgeEvent) : Nat :=
  ((daemon.pending.releasedBy self.rx (self.call event)).map Prod.snd).count plan

theorem countP_started (outs : Multiset (String × ExecutionPlan)) :
    (outs.map PlanRun.start).countP (PlanRun.Before plan i) = (outs.map Prod.snd).count plan := by
  rw [Multiset.countP_map, Multiset.count, Multiset.countP_map]
  congr 1
  apply Multiset.filter_congr
  intro out _
  simp [PlanRun.Before, PlanRun.start, eq_comm]

theorem countP_started_at (outs : Multiset (String × ExecutionPlan)) :
    (outs.map PlanRun.start).countP (PlanRun.At plan (i + 1)) = 0 := by
  rw [Multiset.countP_map, Multiset.card_eq_zero, Multiset.filter_eq_nil]
  intro out _
  simp [PlanRun.At, PlanRun.start]

theorem countP_erase_add {p : PlanRun → Prop} [DecidablePred p] {run : PlanRun}
    {running : Multiset PlanRun} (h : run ∈ running) :
    (running.erase run).countP p + (if p run then 1 else 0) = running.countP p := by
  have hsplit := Multiset.cons_erase h
  calc (running.erase run).countP p + (if p run then 1 else 0)
      = (run ::ₘ running.erase run).countP p := (Multiset.countP_cons p run _).symm
    _ = running.countP p := by rw [hsplit]

/-- An event that executes nothing adds executions only of what is handed out. -/
theorem countP_quiet (self : Deployment) (daemon : BridgeDaemon) (p : PlanRun → Prop)
    [DecidablePred p] (hcommand : ∀ run host spawn, event ≠ .command run host spawn) :
    (self.step daemon event).running.countP p ≤ daemon.running.countP p +
      ((daemon.pending.releasedBy self.rx (self.call event)).map PlanRun.start).countP p := by
  rw [← Multiset.countP_add]
  by_cases hfinish : ∃ run, event = .finish run
  · obtain ⟨run, rfl⟩ := hfinish
    have herase : (self.step daemon (.finish run)).running = daemon.running.erase run := rfl
    rw [herase]
    exact Multiset.countP_le_of_le p
      ((Multiset.erase_le run daemon.running).trans (Multiset.le_add_right _ _))
  · have hle := running_step_le self daemon hcommand fun run heq => hfinish ⟨run, heq⟩
    exact Multiset.countP_le_of_le p hle

/-- A command takes the place of its execution with the one that goes on from it. -/
theorem countP_command (self : Deployment) (p : PlanRun → Prop) [DecidablePred p] {run : PlanRun} {host : Host}
    {spawn : String → List String → Except IoError Output}
    (henabled : daemon.Enabled (.command run host spawn)) : ∃ result,
    (run.next result).plan = run.plan ∧
      (run.next result).results.length = run.results.length + 1 ∧
      (self.step daemon (.command run host spawn)).running.countP p + (if p run then 1 else 0) =
        daemon.running.countP p + if p (run.next result) then 1 else 0 := by
  obtain ⟨hmem, hsome⟩ := henabled
  obtain ⟨cmd, hcmd⟩ := Option.isSome_iff_exists.mp hsome
  refine ⟨(executeApprovedTask self.shlex host spawn cmd).result, (next_same run _).2, ?_, ?_⟩
  · rw [PlanRun.results_next hcmd, List.length_append, List.length_singleton]
  · have hsplit := countP_erase_add (p := p) hmem
    rw [running_step_command hcmd, Multiset.countP_cons]
    omega

theorem not_starts (hcommand : ∀ run host spawn, event ≠ .command run host spawn) :
    ¬event.Starts plan i := by
  intro hstarts
  cases event with
  | command run host spawn => exact hcommand run host spawn rfl
  | turn channel connection io => exact hstarts
  | poll env now => exact hstarts
  | finish run => exact hstarts

/-- A command that is executed was still to come in an execution that a hand-out has started. -/
theorem starts_step (self : Deployment) (plan : ExecutionPlan) (i : Nat)
    (henabled : daemon.Enabled event) :
    (if event.Starts plan i then 1 else 0) +
        (self.step daemon event).running.countP (PlanRun.Before plan i) ≤
      daemon.running.countP (PlanRun.Before plan i) + self.timesHanded plan daemon event := by
  by_cases hcommand : ∃ run host spawn, event = .command run host spawn
  · obtain ⟨run, host, spawn, rfl⟩ := hcommand
    obtain ⟨result, hplan, hlength, hcount⟩ :=
      countP_command self (PlanRun.Before plan i) henabled
    have hweights : (if BridgeEvent.Starts plan i (.command run host spawn) then 1 else 0) +
        (if PlanRun.Before plan i (run.next result) then 1 else 0) ≤
          if PlanRun.Before plan i run then 1 else 0 := by
      simp only [BridgeEvent.Starts, PlanRun.Before, hplan, hlength]
      by_cases hsame : run.plan = plan
      · simp only [hsame, true_and]
        split_ifs <;> omega
      · simp [hsame]
    omega
  · have hother : ∀ run host spawn, event ≠ .command run host spawn :=
      fun run host spawn heq => hcommand ⟨run, host, spawn, heq⟩
    have hquiet := countP_quiet self daemon (PlanRun.Before plan i) hother
    rw [countP_started] at hquiet
    rw [if_neg (not_starts hother), Nat.zero_add]
    exact hquiet

/-- The next command is executed only where the one before it was. -/
theorem starts_order_step (self : Deployment) (plan : ExecutionPlan) (i : Nat)
    (henabled : daemon.Enabled event) :
    (if event.Starts plan (i + 1) then 1 else 0) +
        (self.step daemon event).running.countP (PlanRun.At plan (i + 1)) ≤
      daemon.running.countP (PlanRun.At plan (i + 1)) +
        if event.Starts plan i then 1 else 0 := by
  by_cases hcommand : ∃ run host spawn, event = .command run host spawn
  · obtain ⟨run, host, spawn, rfl⟩ := hcommand
    obtain ⟨result, hplan, hlength, hcount⟩ :=
      countP_command self (PlanRun.At plan (i + 1)) henabled
    have hweights : (if BridgeEvent.Starts plan (i + 1) (.command run host spawn) then 1 else 0) +
        (if PlanRun.At plan (i + 1) (run.next result) then 1 else 0) ≤
        (if PlanRun.At plan (i + 1) run then 1 else 0) +
          if BridgeEvent.Starts plan i (.command run host spawn) then 1 else 0 := by
      simp only [BridgeEvent.Starts, PlanRun.At, hplan, hlength]
      by_cases hsame : run.plan = plan
      · simp only [hsame, true_and]
        split_ifs <;> omega
      · simp [hsame]
    omega
  · have hother : ∀ run host spawn, event ≠ .command run host spawn :=
      fun run host spawn heq => hcommand ⟨run, host, spawn, heq⟩
    have hquiet := countP_quiet self daemon (PlanRun.At plan (i + 1)) hother
    rw [countP_started_at, Nat.add_zero] at hquiet
    rw [if_neg (not_starts hother), if_neg (not_starts hother), Nat.zero_add]
    exact hquiet

theorem tally_handed (self : Deployment) (plan : ExecutionPlan) (events : List BridgeEvent) :
    tally self.step (self.timesHanded plan) .start events =
      releases self.rx plan (self.calls events) := by
  induction events using List.reverseRecOn with
  | nil => rfl
  | append_singleton events event ih =>
    have hpending : (run self.step .start events).pending =
        PendingPlans.after self.rx (self.calls events) := pending_after self events
    rw [tally_concat, ih, timesHanded, hpending, calls_concat]
    cases self.call event with
    | none => simp [releasedBy]
    | some call =>
      rw [Option.toList_some, releases, releases, tally_concat]
      rfl

theorem starts_order (plan : ExecutionPlan) (i : Nat)
    (henabled : Along self.step BridgeDaemon.Enabled .start events) :
    timesStarted plan (i + 1) events +
        (self.after events).running.countP (PlanRun.At plan (i + 1)) ≤
      timesStarted plan i events := by
  induction events using List.reverseRecOn with
  | nil => simp [timesStarted, Deployment.after, BridgeDaemon.start]
  | append_singleton events event ih =>
    obtain ⟨hbefore, hlast⟩ := along_concat.mp henabled
    have hstep := starts_order_step self plan i hlast
    have hearlier := ih hbefore
    rw [Deployment.after] at hearlier
    rw [Deployment.after, run_concat, timesStarted_concat, timesStarted_concat]
    omega

theorem starts_handed (plan : ExecutionPlan) (i : Nat)
    (henabled : Along self.step BridgeDaemon.Enabled .start events) :
    timesStarted plan i events + (self.after events).running.countP (PlanRun.Before plan i) ≤
      releases self.rx plan (self.calls events) := by
  rw [← tally_handed]
  induction events using List.reverseRecOn with
  | nil => simp [timesStarted, Deployment.after, BridgeDaemon.start]
  | append_singleton events event ih =>
    obtain ⟨hbefore, hlast⟩ := along_concat.mp henabled
    have hstep := starts_step self plan i hlast
    have hearlier := ih hbefore
    rw [Deployment.after] at hearlier
    rw [tally_concat, Deployment.after, run_concat, timesStarted_concat]
    omega

end Deployment

open Deployment

/-- A command of a plan is executed at most as often as the plan is handed out, after the commands
before it, and for a critical plan at most as often as the plan was submitted. -/
theorem commands_started_le (d : Deployment) {events : List BridgeEvent}
    (henabled : Along d.step BridgeDaemon.Enabled .start events) (plan : ExecutionPlan) (i : Nat) :
    timesStarted plan (i + 1) events ≤ timesStarted plan i events ∧
      timesStarted plan i events ≤ releases d.rx plan (d.calls events) ∧
      (decidePolicy d.rx plan = .nonDelegable →
        timesStarted plan i events ≤ (d.calls events).countP (Call.submits plan)) := by
  have hordered := starts_order plan i henabled
  have hhanded := starts_handed plan i henabled
  refine ⟨by omega, by omega, ?_⟩
  intro hcritical
  have hsubmitted := releases_critical_le hcritical (d.calls events)
  omega

theorem commands_started_listing :
    timesStarted (listingPlan "task-1") 0 listingRun = 1 ∧
      1 ≤ releases plainRegex (listingPlan "task-1") (listingDeployment.calls listingRun) := by
  have hstarted : timesStarted (listingPlan "task-1") 0 listingRun = 1 := by decide
  have hbound := (commands_started_le listingDeployment listing_enabled (listingPlan "task-1") 0).2.1
  rw [hstarted] at hbound
  exact ⟨hstarted, hbound⟩

end AiBridge
