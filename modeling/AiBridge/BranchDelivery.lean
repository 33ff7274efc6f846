import AiBridge.Runs
import AiBridge.SubChat

namespace AiBridge

open Runs

inductive DeliveryDecision
  | fullDelivery (primary secondary : SubChatResult)
  | partialDelivery (delivered : SubChatResult) (dropped : Option String)
  deriving DecidableEq, Repr

structure BranchRunState where
  branchAResult : Option SubChatResult
  branchBResult : Option SubChatResult
  deriving DecidableEq, Repr

namespace BranchRunState

def new : BranchRunState := ⟨none, none⟩

def markFinished (self : BranchRunState) (branch : String) (result : SubChatResult) :
    BranchRunState :=
  if branch = "A" then { self with branchAResult := some result }
  else if branch = "B" then { self with branchBResult := some result }
  else self

def wipe (_ : BranchRunState) : BranchRunState := ⟨none, none⟩

end BranchRunState

/-- The text `expect` panics with. -/
def secondResultMissing : String := "second result must be present before timeout"

/-- A panic is an error here. -/
def resolveDelivery (firstResult : SubChatResult) (secondResult : Option SubChatResult)
    (elapsed timeout : Nat) : Except String DeliveryDecision :=
  match secondResult with
  | some second =>
    if elapsed < timeout then .ok (.fullDelivery firstResult second)
    else .ok (.partialDelivery firstResult (some second.taskId))
  | none =>
    if elapsed ≥ timeout then .ok (.partialDelivery firstResult none)
    else .error secondResultMissing

/-- The report of a branch that has finished. The durations are in nanoseconds. -/
structure Completion where
  branch : String
  result : SubChatResult
  elapsed : Nat
  timeout : Nat
  deriving DecidableEq, Repr

/-- A panic leaves the state as it was when the decision was to be taken. -/
def recordAndDecide (state : BranchRunState) (call : Completion) :
    Except String DeliveryDecision × BranchRunState :=
  let state := state.markFinished call.branch call.result
  match state.branchAResult, state.branchBResult with
  | some primary, some secondary => (.ok (.fullDelivery primary secondary), state.wipe)
  | _, _ =>
    let resultForTimeout :=
      if call.branch = "A" then state.branchBResult else state.branchAResult
    match resolveDelivery call.result resultForTimeout call.elapsed call.timeout with
    | .error message => (.error message, state)
    | .ok decision => (.ok decision, state.wipe)

namespace DeliveryDecision

def contained : DeliveryDecision → List SubChatResult
  | fullDelivery primary secondary => [primary, secondary]
  | partialDelivery delivered _ => [delivered]

/-- The tasks whose result is reported as dropped. -/
def reported : DeliveryDecision → List String
  | fullDelivery _ _ => []
  | partialDelivery _ dropped => dropped.toList

end DeliveryDecision

namespace BranchRunState

def stored (state : BranchRunState) : List SubChatResult :=
  state.branchAResult.toList ++ state.branchBResult.toList

def record (state : BranchRunState) (call : Completion) : BranchRunState :=
  (recordAndDecide state call).2

/-- What each call of a run comes to. -/
def outcomes (state : BranchRunState) (calls : List Completion) :
    List (Except String DeliveryDecision) :=
  outputs record (fun state call => some (recordAndDecide state call).1) state calls

def decisions (state : BranchRunState) (calls : List Completion) : List DeliveryDecision :=
  (outcomes state calls).filterMap Except.toOption

end BranchRunState

open BranchRunState DeliveryDecision

/-- The two are the reports of the two branches, in the order of their names. -/
def Pairs (first second primary secondary : Completion) : Prop :=
  primary.branch = "A" ∧ secondary.branch = "B" ∧
    ((primary = first ∧ secondary = second) ∨ (primary = second ∧ secondary = first))

/-- What a run of completions owes to the two branches. -/
structure Conserves (calls : List Completion) : Prop where
  /-- no call panics -/
  total : ∀ outcome ∈ outcomes new calls, ∃ decision, outcome = .ok decision
  /-- every result is stored, in one decision, or lost and reported -/
  conserved : ∃ lost : List SubChatResult,
    (calls.map (·.result)).Perm ((run record new calls).stored ++
      (decisions new calls).flatMap contained ++ lost) ∧
    (lost.map (·.taskId)).Perm ((decisions new calls).flatMap reported)
  /-- two branches that finish in time are delivered together -/
  paired : ∀ before first second after primary secondary,
    calls = before ++ first :: second :: after → run record new before = new →
    Pairs first second primary secondary → first.elapsed < first.timeout →
    second.elapsed < second.timeout →
    (recordAndDecide (run record new (before ++ [first])) second).1 =
      .ok (.fullDelivery primary.result secondary.result)

/-- On an empty state the other branch has no result, so only the timeout decides. -/
theorem recordAndDecide_new (call : Completion) :
    (call.timeout ≤ call.elapsed ∧
      recordAndDecide new call = (.ok (.partialDelivery call.result none), new)) ∨
    (call.elapsed < call.timeout ∧ (recordAndDecide new call).1 = .error secondResultMissing) := by
  have hdecide : (call.timeout ≤ call.elapsed ∧
      resolveDelivery call.result none call.elapsed call.timeout =
        .ok (.partialDelivery call.result none)) ∨
      (call.elapsed < call.timeout ∧
        resolveDelivery call.result none call.elapsed call.timeout =
          .error secondResultMissing) := by
    by_cases htime : call.timeout ≤ call.elapsed
    · exact Or.inl ⟨htime, if_pos htime⟩
    · exact Or.inr ⟨by omega, if_neg htime⟩
  have hother : ∃ state, state.wipe = new ∧ recordAndDecide new call =
      match resolveDelivery call.result none call.elapsed call.timeout with
      | .error message => (.error message, state)
      | .ok decision => (.ok decision, state.wipe) := by
    by_cases ha : call.branch = "A"
    · refine ⟨new.markFinished call.branch call.result, rfl, ?_⟩
      simp [recordAndDecide, markFinished, ha, new]
    · by_cases hb : call.branch = "B"
      · refine ⟨new.markFinished call.branch call.result, rfl, ?_⟩
        simp [recordAndDecide, markFinished, hb, new]
      · refine ⟨new, rfl, ?_⟩
        simp [recordAndDecide, markFinished, ha, hb, new]
  obtain ⟨state, hwipe, heq⟩ := hother
  rcases hdecide with ⟨htime, hresolve⟩ | ⟨htime, hresolve⟩
  · left
    rw [heq, hresolve]
    exact ⟨htime, by rw [hwipe]⟩
  · right
    rw [heq, hresolve]
    exact ⟨htime, rfl⟩

/-- Past the timeout every result goes out alone and nothing is kept. -/
theorem run_past_timeout {calls : List Completion}
    (h : ∀ call ∈ calls, call.timeout ≤ call.elapsed) :
    run record new calls = new ∧
      outcomes new calls = calls.map fun call => .ok (.partialDelivery call.result none) := by
  induction calls with
  | nil => exact ⟨rfl, rfl⟩
  | cons call calls ih =>
    have hcall := h call List.mem_cons_self
    obtain ⟨hrun, hout⟩ := ih fun c hc => h c (List.mem_cons_of_mem call hc)
    rcases recordAndDecide_new call with ⟨_, hdecide⟩ | ⟨hearly, _⟩
    · have hnext : record new call = new := congrArg Prod.snd hdecide
      refine ⟨?_, ?_⟩
      · rw [run_cons, hnext, hrun]
      · rw [outcomes, outputs, hnext, ← outcomes, hout, hdecide]
        rfl
    · omega

/-- A run without a panic has every call past its timeout. -/
theorem past_timeout_of_total {calls : List Completion}
    (h : ∀ outcome ∈ outcomes new calls, ∃ decision, outcome = .ok decision) :
    ∀ call ∈ calls, call.timeout ≤ call.elapsed := by
  induction calls with
  | nil =>
    intro call hcall
    exact absurd hcall List.not_mem_nil
  | cons first calls ih =>
    have hcons : outcomes new (first :: calls) =
        (recordAndDecide new first).1 :: outcomes (record new first) calls := rfl
    rw [hcons] at h
    rcases recordAndDecide_new first with ⟨htime, hdecide⟩ | ⟨_, hpanic⟩
    · have hnext : record new first = new := congrArg Prod.snd hdecide
      rw [hnext] at h
      intro call hcall
      rcases List.mem_cons.mp hcall with heq | hrest
      · rw [heq]
        exact htime
      · exact ih (fun outcome hmem => h outcome (List.mem_cons_of_mem _ hmem)) call hrest
    · obtain ⟨decision, hok⟩ := h _ List.mem_cons_self
      rw [hpanic] at hok
      simp at hok

/-- The other branch's result is never there, since every decision wipes both: a run conserves the
results, and does not panic, exactly if every call of it is past its timeout. -/
theorem conserves_iff (calls : List Completion) :
    Conserves calls ↔ ∀ call ∈ calls, call.timeout ≤ call.elapsed := by
  constructor
  · intro h
    exact past_timeout_of_total h.total
  · intro h
    obtain ⟨hrun, hout⟩ := run_past_timeout h
    have hdecisions : decisions new calls =
        calls.map fun call => .partialDelivery call.result none := by
      rw [decisions, hout, List.filterMap_map, ← List.filterMap_eq_map]
      rfl
    refine ⟨?_, ⟨[], ?_, ?_⟩, ?_⟩
    · intro outcome hmem
      rw [hout, List.mem_map] at hmem
      obtain ⟨call, _, heq⟩ := hmem
      exact ⟨_, heq.symm⟩
    · have hcontained : (decisions new calls).flatMap contained = calls.map (·.result) := by
        rw [hdecisions, List.flatMap_map, List.map_eq_flatMap]
        rfl
      rw [hrun, hcontained, List.append_nil]
      exact List.Perm.refl _
    · have hreported : (decisions new calls).flatMap reported = [] := by
        rw [hdecisions, List.flatMap_map, List.flatMap_eq_nil_iff]
        intro call _
        rfl
      rw [hreported]
      exact List.Perm.refl _
    · intro before first second after primary secondary heq _ _ hearly _
      have hfirst := h first (by simp [heq])
      omega

theorem branches_in_time_panic :
    ¬Conserves [⟨"A", ⟨"task-9", "branch-a complete", "success", 0⟩, 120, 240⟩,
      ⟨"B", ⟨"task-9", "branch-b complete", "success", 1⟩, 120, 240⟩] := by
  intro h
  have hlate := past_timeout_of_total h.total _ List.mem_cons_self
  simp at hlate

section Deciders

variable (a b : SubChatResult) (staleA staleB : Option SubChatResult) (elapsed timeout : Nat)

/-- What the call decides with which branch B reports last. -/
def decidedByB : Except String DeliveryDecision :=
  (recordAndDecide ⟨some a, staleB⟩ ⟨"B", b, elapsed, timeout⟩).1

/-- What the call decides with which branch A reports last. -/
def decidedByA : Except String DeliveryDecision :=
  (recordAndDecide ⟨staleA, some b⟩ ⟨"A", a, elapsed, timeout⟩).1

/-- The decision on two results, whichever of them is the first. -/
def Resolves (decision : Except String DeliveryDecision) : Prop :=
  decision = resolveDelivery a (some b) elapsed timeout ∨
    decision = resolveDelivery b (some a) elapsed timeout

/-- With both results there, the two deciders come to one decision, in either order of reports. -/
structure DecidersAgree : Prop where
  lastB : Resolves a b elapsed timeout (decidedByB a b staleB elapsed timeout)
  lastA : Resolves a b elapsed timeout (decidedByA a b staleA elapsed timeout)
  full : (∃ primary secondary, decidedByB a b staleB elapsed timeout =
    .ok (.fullDelivery primary secondary)) ↔ elapsed < timeout
  alone : timeout ≤ elapsed → ∃ delivered dropped : SubChatResult,
    decidedByB a b staleB elapsed timeout = .ok (.partialDelivery delivered (some dropped.taskId)) ∧
      ((delivered = a ∧ dropped = b) ∨ (delivered = b ∧ dropped = a))
  anyOrder : decidedByA a b staleA elapsed timeout = decidedByB a b staleB elapsed timeout

variable {a b : SubChatResult} {staleA staleB : Option SubChatResult} {elapsed timeout : Nat}

/-- Two results are delivered together, whatever the time. -/
theorem decidedByB_eq : decidedByB a b staleB elapsed timeout = .ok (.fullDelivery a b) := rfl

theorem decidedByA_eq : decidedByA a b staleA elapsed timeout = .ok (.fullDelivery a b) := rfl

theorem resolveDelivery_in_time (h : elapsed < timeout) :
    resolveDelivery a (some b) elapsed timeout = .ok (.fullDelivery a b) := by
  rw [resolveDelivery, if_pos h]

variable (a b staleA staleB elapsed timeout)

/-- The deciders differ from the timeout on, where only one of them looks at it. -/
theorem decidersAgree_iff :
    DecidersAgree a b staleA staleB elapsed timeout ↔ elapsed < timeout := by
  constructor
  · intro h
    exact h.full.mp ⟨a, b, decidedByB_eq⟩
  · intro h
    have hresolve : Resolves a b elapsed timeout (.ok (.fullDelivery a b)) :=
      Or.inl (resolveDelivery_in_time h).symm
    refine ⟨?_, ?_, ?_, ?_, ?_⟩
    · rw [decidedByB_eq]
      exact hresolve
    · rw [decidedByA_eq]
      exact hresolve
    · exact ⟨fun _ => h, fun _ => ⟨a, b, decidedByB_eq⟩⟩
    · intro hlate
      omega
    · rw [decidedByA_eq, decidedByB_eq]

end Deciders

/-- The second branch reports at the timeout. -/
theorem deciders_differ_at_timeout :
    let a : SubChatResult := ⟨"task-9", "branch-a complete", "success", 0⟩
    let b : SubChatResult := ⟨"task-10", "branch-b complete", "success", 1⟩
    (recordAndDecide ⟨some a, none⟩ ⟨"B", b, 240, 240⟩).1 = .ok (.fullDelivery a b) ∧
      resolveDelivery a (some b) 240 240 = .ok (.partialDelivery a (some "task-10")) ∧
      ¬DecidersAgree a b none none 240 240 := by
  intro a b
  refine ⟨rfl, rfl, ?_⟩
  intro h
  rcases h.lastB with heq | heq
  all_goals simp [decidedByB_eq, resolveDelivery] at heq

end AiBridge
