import AiBridge.SlotAgreement

namespace AiBridge

variable {self : PendingPlans}

namespace TaskState

theorem windowElapsed_mono {env env' : Env} {now now' : Instant} {task : TaskState}
    (htimeout : gatekeeperTimeout env = gatekeeperTimeout env') (hle : now ≤ now')
    (h : task.windowElapsed env now) : task.windowElapsed env' now' := by
  have hgrown : now.saturatingDurationSince task.createdAt ≤
      now'.saturatingDurationSince task.createdAt := Nat.sub_le_sub_right hle task.createdAt
  rw [windowElapsed, ← htimeout]
  exact h.trans hgrown

theorem timedOut_mono {env env' : Env} {now now' : Instant} {task : TaskState}
    (htimeout : gatekeeperTimeout env = gatekeeperTimeout env') (hle : now ≤ now')
    (h : task.timedOut env now = true) : task.timedOut env' now' = true := by
  obtain ⟨hd, hs, hw⟩ := timedOut_iff.mp h
  exact timedOut_iff.mpr ⟨hd, hs, windowElapsed_mono htimeout hle hw⟩

/-- What a poll released it does not release again. -/
theorem timedOut_polled {env env' : Env} {now now' : Instant} {task : TaskState}
    (h : task.timedOut env now = true) : (task.polled env now).timedOut env' now' = false := by
  have hstatus : (task.polled env now).status = .delegableAutoApproved := by
    simp only [polled, h, if_true]
  have hpending : ¬((task.polled env now).timedOut env' now' = true) := by
    intro ht
    have hs := (timedOut_iff.mp ht).2.1
    simp [hstatus] at hs
  simpa using hpending

theorem polled_polled {env env' : Env} {now now' : Instant} {task : TaskState}
    (htimeout : gatekeeperTimeout env = gatekeeperTimeout env') (hle : now ≤ now') :
    (task.polled env now).polled env' now' = task.polled env' now' := by
  by_cases h : task.timedOut env now = true
  · have hlater := timedOut_mono htimeout hle h
    have hagain : (task.polled env now).timedOut env' now' = false := timedOut_polled h
    have hfirst : task.polled env now = { task with status := .delegableAutoApproved } := by
      simp only [polled, h, if_true]
    have hsecond : task.polled env' now' = { task with status := .delegableAutoApproved } := by
      simp only [polled, hlater, if_true]
    have hstays : (task.polled env now).polled env' now' = task.polled env now := by
      rw [polled, hagain]
      rfl
    rw [hstays, hsecond, hfirst]
  · have hfirst : task.polled env now = task := by simp [polled, h]
    rw [hfirst]

end TaskState

namespace PendingPlans

theorem checkTimeouts_fst (env : Env) (now : Instant) : (self.checkTimeouts env now).1 =
    self.tasks.collect fun _ task => if task.timedOut env now then some task.plan else none := rfl

theorem checkTimeouts_snd (env : Env) (now : Instant) : (self.checkTimeouts env now).2 =
    ⟨self.tasks.mapVal fun _ task => task.polled env now⟩ := rfl

/-- Two polls list together what the later one lists alone, and leave what it leaves. -/
theorem checkTimeouts_checkTimeouts {env env' : Env} {now now' : Instant}
    (htimeout : gatekeeperTimeout env = gatekeeperTimeout env') (hle : now ≤ now') :
    ((self.checkTimeouts env now).1 + ((self.checkTimeouts env now).2.checkTimeouts env' now').1,
        ((self.checkTimeouts env now).2.checkTimeouts env' now').2) =
      self.checkTimeouts env' now' := by
  have hlisted : (self.checkTimeouts env now).1 +
      ((self.checkTimeouts env now).2.checkTimeouts env' now').1 =
        (self.checkTimeouts env' now').1 := by
    simp only [checkTimeouts_fst, checkTimeouts_snd, Finmap.collect_mapVal]
    apply Finmap.collect_add
    intro id task
    by_cases h : task.timedOut env now = true
    · right
      have hlater := TaskState.timedOut_mono htimeout hle h
      have hagain : (task.polled env now).timedOut env' now' = false := TaskState.timedOut_polled h
      exact ⟨by simp [hagain], by simp [h, hlater]⟩
    · left
      have hsame : task.polled env now = task := by simp [TaskState.polled, h]
      exact ⟨by simp [h], by rw [hsame]⟩
  have hleft : ((self.checkTimeouts env now).2.checkTimeouts env' now').2 =
      (self.checkTimeouts env' now').2 := by
    simp only [checkTimeouts_snd, Finmap.mapVal_mapVal, TaskState.polled_polled htimeout hle]
  exact Prod.ext hlisted hleft

/-- A schedule of polls: everything they list, and the registry the last of them leaves. -/
def pollAll (self : PendingPlans) :
    List (Env × Instant) → Multiset (String × ExecutionPlan) × PendingPlans
  | [] => (0, self)
  | (env, now) :: polls =>
    let (listed, next) := self.checkTimeouts env now
    let (rest, last) := next.pollAll polls
    (listed + rest, last)

theorem pollAll_eq_last {timeout : Duration} {polls : List (Env × Instant)} {env : Env}
    {now : Instant} (hlast : gatekeeperTimeout env = timeout)
    (hconst : ∀ poll ∈ polls, gatekeeperTimeout poll.1 = timeout)
    (hle : ∀ poll ∈ polls, poll.2 ≤ now) :
    self.pollAll (polls ++ [(env, now)]) = self.checkTimeouts env now := by
  induction polls generalizing self with
  | nil => simp [pollAll]
  | cons poll polls ih =>
    have hrest : (self.checkTimeouts poll.1 poll.2).2.pollAll (polls ++ [(env, now)]) = _ :=
      ih (fun p hp => hconst p (List.mem_cons_of_mem _ hp))
        (fun p hp => hle p (List.mem_cons_of_mem _ hp))
    have htimeout : gatekeeperTimeout poll.1 = gatekeeperTimeout env := by
      rw [hconst poll List.mem_cons_self, hlast]
    have hnow : poll.2 ≤ now := hle poll List.mem_cons_self
    have hboth : _ = self.checkTimeouts env now := checkTimeouts_checkTimeouts htimeout hnow
    rw [List.cons_append, ← hboth]
    simp only [pollAll, hrest]

theorem mem_checkTimeouts {env : Env} {now : Instant} {id : String} {plan : ExecutionPlan} :
    (id, plan) ∈ (self.checkTimeouts env now).1 ↔
      ∃ task, self.tasks.lookup id = some task ∧ task.plan = plan ∧ task.decision = .delegable ∧
        task.status = .pending ∧ task.windowElapsed env now := by
  rw [checkTimeouts_fst, Finmap.mem_collect, Option.bind_eq_some_iff]
  constructor
  · rintro ⟨task, hl, h⟩
    split at h
    next ht => exact ⟨task, hl, Option.some.inj h, TaskState.timedOut_iff.mp ht⟩
    next => simp at h
  · rintro ⟨task, hl, hplan, ht⟩
    exact ⟨task, hl, by simp [TaskState.timedOut_iff.mpr ht, hplan]⟩

theorem lookup_checkTimeouts (env : Env) (now : Instant) (id : String) :
    (self.checkTimeouts env now).2.tasks.lookup id =
      (self.tasks.lookup id).map (TaskState.polled env now) := by
  rw [checkTimeouts_snd, Finmap.lookup_mapVal]

/-- How often and when the poller looks between does not matter: a schedule of polls lists, each
task once, the delegable tasks whose window has elapsed at its end, and touches no other. -/
theorem poll_schedule_irrelevant {timeout : Duration} {polls : List (Env × Instant)} {env : Env}
    {now : Instant} (hconst : ∀ poll ∈ polls ++ [(env, now)], gatekeeperTimeout poll.1 = timeout)
    (hmono : ((polls ++ [(env, now)]).map Prod.snd).Pairwise (· ≤ ·)) :
    let out := self.pollAll (polls ++ [(env, now)])
    out = self.checkTimeouts env now ∧
      (out.1.map Prod.fst).Nodup ∧
      (∀ id plan, (id, plan) ∈ out.1 ↔ ∃ task, self.tasks.lookup id = some task ∧
        task.plan = plan ∧ task.decision = .delegable ∧ task.status = .pending ∧
          timeout ≤ now.saturatingDurationSince task.createdAt) ∧
      ∀ id, (∀ plan, (id, plan) ∉ out.1) → out.2.tasks.lookup id = self.tasks.lookup id := by
  intro out
  have hlast : gatekeeperTimeout env = timeout := hconst (env, now) (by simp)
  have heq : out = self.checkTimeouts env now := by
    refine pollAll_eq_last hlast (fun poll hp => hconst poll (by simp [hp])) ?_
    intro poll hp
    rw [List.map_append, List.pairwise_append] at hmono
    exact hmono.2.2 poll.2 (List.mem_map_of_mem hp) now (by simp)
  rw [heq]
  refine ⟨rfl, ?_, ?_, ?_⟩
  · rw [checkTimeouts_fst]
    exact Finmap.nodup_keys_collect _ _
  · intro id plan
    rw [mem_checkTimeouts]
    simp only [TaskState.windowElapsed, hlast]
  · intro id hnone
    rw [lookup_checkTimeouts]
    cases hl : self.tasks.lookup id with
    | none => rfl
    | some task =>
      have htimed : ¬(task.timedOut env now = true) := by
        intro ht
        exact hnone task.plan
          (mem_checkTimeouts.mpr ⟨task, hl, rfl, TaskState.timedOut_iff.mp ht⟩)
      simp [TaskState.polled, htimed]

theorem poll_schedule_irrelevant_twice :
    (after plainRegex [.ingest ⟨none⟩ (delegablePlan "task-1") 0]).pollAll
        ([(⟨none⟩, 5)] ++ [(⟨some "120"⟩, defaultGatekeeperTimeout)]) =
      (after plainRegex [.ingest ⟨none⟩ (delegablePlan "task-1") 0]).checkTimeouts ⟨some "120"⟩
        defaultGatekeeperTimeout := by
  have hconst : ∀ poll ∈ [((⟨none⟩, 5) : Env × Instant)] ++
      [(⟨some "120"⟩, defaultGatekeeperTimeout)],
        gatekeeperTimeout poll.1 = defaultGatekeeperTimeout := by decide
  exact (poll_schedule_irrelevant hconst (by decide)).1

end PendingPlans

end AiBridge
