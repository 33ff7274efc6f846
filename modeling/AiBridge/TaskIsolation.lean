import AiBridge.SlotAgreement

namespace AiBridge

/-- What a call answers. -/
inductive Answer
  | ingested (verdict : GatekeeperVerdict) (ack : TaskSubmitAck)
  | timedOut (released : Multiset (String × ExecutionPlan))
  | decided (result : Except LoopError (Option ExecutionPlan))
  | recorded (result : Except LoopError Unit)
  | queried (result : Except LoopError TaskQueryResult)

/-- The poller names no task and walks over all of them. -/
def Call.concerns (id : String) : Call → Bool
  | .ingest _ plan _ => decide (plan.taskId = id)
  | .checkTimeouts _ _ => true
  | .handleOwnerDecision taskId _ | .recordExecution taskId _ | .query taskId =>
    decide (taskId = id)

variable (rx : ShippedRegex)

namespace PendingPlans

def answer (self : PendingPlans) : Call → Answer
  | .ingest env plan now =>
    .ingested (self.ingest rx env plan now).1.1 (self.ingest rx env plan now).1.2
  | .checkTimeouts env now => .timedOut (self.checkTimeouts env now).1
  | .handleOwnerDecision taskId approved =>
    .decided (self.handleOwnerDecision taskId approved).1
  | .recordExecution taskId result => .recorded (self.recordExecution taskId result).1
  | .query taskId => .queried (self.query taskId)

/-- The part of an answer that is about one id. -/
def observe (id : String) (self : PendingPlans) (call : Call) : Option Answer :=
  if call.concerns id then
    match self.answer rx call with
    | .timedOut released => some (.timedOut (released.filter fun out => out.1 = id))
    | other => some other
  else none

end PendingPlans

/-- The answer of the automaton of one id. -/
def slotObserve (id : String) (slot : Option TaskState) (call : Call) : Option Answer :=
  if call.concerns id then
    match call with
    | .ingest env plan now =>
      some (.ingested
        (match decidePolicy rx plan with
        | .delegable =>
          if (slot.getD (.fresh plan now)).windowElapsed env now then .autoApproved
          else .pendingTimeout
        | .nonDelegable => .heldForManualApproval) ⟨id⟩)
    | .checkTimeouts env now =>
      some (.timedOut ((slotRelease rx id slot (.checkTimeouts env now)).elim 0
        fun plan => {(id, plan)}))
    | .handleOwnerDecision _ approved =>
      some (.decided (slot.elim (.error (.taskNotFound id)) fun task =>
        .ok (if task.status = .heldForManualApproval ∧ approved = true then some task.plan
          else none)))
    | .recordExecution _ _ =>
      some (.recorded (slot.elim (.error (.taskNotFound id)) fun _ => .ok ()))
    | .query _ =>
      some (.queried (slot.elim (.error (.taskNotFound id)) fun task =>
        .ok ⟨task.taskId, task.status, task.executionResult⟩))
  else none

variable {rx} {self : PendingPlans} {id : String} {call : Call}

theorem slotStep_of_not_concerns {slot : Option TaskState} (h : call.concerns id = false) :
    slotStep rx id slot call = slot := by
  cases call with
  | ingest env plan now =>
    have hid : plan.taskId ≠ id := by simpa [Call.concerns] using h
    simp only [slotStep, hid, if_false]
  | checkTimeouts env now => simp [Call.concerns] at h
  | handleOwnerDecision taskId approved =>
    have hid : taskId ≠ id := by simpa [Call.concerns] using h
    simp only [slotStep, hid, if_false]
  | recordExecution taskId result =>
    have hid : taskId ≠ id := by simpa [Call.concerns] using h
    simp only [slotStep, hid, if_false]
  | query taskId => rfl

theorem slotObserve_of_not_concerns {slot : Option TaskState} (h : call.concerns id = false) :
    slotObserve rx id slot call = none := by
  simp only [slotObserve, h, Bool.false_eq_true, if_false]

namespace PendingPlans

/-- Seen at one id, a call answers what the automaton of that id answers. -/
theorem observe_eq_slot (call : Call) (id : String) :
    self.observe rx id call = slotObserve rx id (self.tasks.lookup id) call := by
  by_cases hc : call.concerns id = true
  · cases call with
    | ingest env plan now =>
      obtain rfl : plan.taskId = id := by simpa [Call.concerns] using hc
      cases hd : decidePolicy rx plan with
      | delegable => simp [observe, slotObserve, answer, hc, ingest_delegable hd, hd]
      | nonDelegable => simp [observe, slotObserve, answer, hc, ingest_critical hd, hd]
    | checkTimeouts env now =>
      have hfilter : (self.released rx (.checkTimeouts env now)).filter (fun out => out.1 = id) = _ :=
        filter_released (.checkTimeouts env now) id
      simp only [released] at hfilter
      simp only [observe, slotObserve, answer, hc, if_true, hfilter]
    | handleOwnerDecision taskId approved =>
      obtain rfl : taskId = id := by simpa [Call.concerns] using hc
      cases hl : self.tasks.lookup taskId with
      | none => simp [observe, slotObserve, answer, hc, handleOwnerDecision, hl]
      | some task =>
        by_cases hs : task.status = .heldForManualApproval
        · cases approved with
          | true => simp [observe, slotObserve, answer, hc, handleOwnerDecision, hl, hs]
          | false => simp [observe, slotObserve, answer, hc, handleOwnerDecision, hl, hs]
        · simp [observe, slotObserve, answer, hc, handleOwnerDecision, hl, hs]
    | recordExecution taskId result =>
      obtain rfl : taskId = id := by simpa [Call.concerns] using hc
      cases hl : self.tasks.lookup taskId with
      | none => simp [observe, slotObserve, answer, hc, recordExecution, hl]
      | some task => simp [observe, slotObserve, answer, hc, recordExecution, hl]
    | query taskId =>
      obtain rfl : taskId = id := by simpa [Call.concerns] using hc
      cases hl : self.tasks.lookup taskId with
      | none => simp [observe, slotObserve, answer, hc, query, hl]
      | some task => simp [observe, slotObserve, answer, hc, query, hl]
  · have hno : call.concerns id = false := by simpa using hc
    rw [slotObserve_of_not_concerns hno]
    simp only [observe, hno, Bool.false_eq_true, if_false]

/-- All that a run shows of one id. -/
def observed (rx : ShippedRegex) (id : String) (self : PendingPlans) (calls : List Call) :
    List Answer :=
  Runs.outputs (step rx) (observe rx id) self calls

theorem observed_eq_slot (calls : List Call) (id : String) :
    self.observed rx id calls =
      Runs.outputs (slotStep rx id) (slotObserve rx id) (self.tasks.lookup id) calls :=
  Runs.outputs_proj (f := fun s : PendingPlans => s.tasks.lookup id)
    (fun _ call => lookup_step call id) fun _ call => observe_eq_slot call id

/-- The registry is a product of automata, one for each id, under a common clock: what a run shows
of an id, and the entry it leaves there, are those of the run without the calls on other ids. -/
theorem task_isolation (calls : List Call) (id : String) :
    let own := calls.filter (Call.concerns id)
    new.observed rx id calls = new.observed rx id own ∧
      (after rx calls).tasks.lookup id = (after rx own).tasks.lookup id ∧
      new.observed rx id calls = Runs.outputs (slotStep rx id) (slotObserve rx id) none own ∧
      (after rx calls).tasks.lookup id = Runs.run (slotStep rx id) none own := by
  intro own
  have hidle : ∀ slot call, Call.concerns id call = false → slotStep rx id slot call = slot :=
    fun _ _ h => slotStep_of_not_concerns h
  have hsilent : ∀ slot call, Call.concerns id call = false → slotObserve rx id slot call = none :=
    fun _ _ h => slotObserve_of_not_concerns h
  have hshown : new.observed rx id calls =
      Runs.outputs (slotStep rx id) (slotObserve rx id) none own := by
    rw [observed_eq_slot, Runs.outputs_filter hidle hsilent]
    rfl
  have hentry : (after rx calls).tasks.lookup id = Runs.run (slotStep rx id) none own := by
    rw [lookup_after, Runs.run_filter hidle]
  refine ⟨?_, ?_, hshown, hentry⟩
  · rw [hshown, observed_eq_slot]
    rfl
  · rw [hentry, lookup_after]

end PendingPlans

end AiBridge
