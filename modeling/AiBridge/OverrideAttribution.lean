import AiBridge.Runs
import AiBridge.SafetyGuard

namespace AiBridge

/-- A call that changes the guard, with what the clock shows in it. -/
inductive GuardOp
  | arm (user : String) (toggledAt recordedAt : SystemTime)
  | disarm (user reason : String) (toggledAt recordedAt : SystemTime)
  | requestOverride (request : OverrideRequest)
  deriving DecidableEq, Repr

namespace SafetyGuard

def apply (self : SafetyGuard) : GuardOp → SafetyGuard
  | .arm user toggledAt recordedAt => self.arm user toggledAt recordedAt
  | .disarm user reason toggledAt recordedAt => self.disarm user reason toggledAt recordedAt
  | .requestOverride request => (self.requestOverride request).2

/-- The last record of one of the actions. -/
def lastOf (actions : List String) (log : List AuditRecord) : Option AuditRecord :=
  (log.filter fun record => record.action ∈ actions).getLast?

def lastToggle (guard : SafetyGuard) : Option AuditRecord := lastOf ["arm", "disarm"] guard.auditLog

/-- Disarms and override requests are the events that set the reason or the user of an override. -/
def lastOverride (guard : SafetyGuard) : Option AuditRecord :=
  lastOf ["disarm", "override_requested"] guard.auditLog

/-- The lock is as the last toggle in the log left it. -/
structure Toggled (guard : SafetyGuard) : Prop where
  toggledBy : guard.state.lastToggledBy = guard.lastToggle.map AuditRecord.user
  armed : guard.state.armed = false ↔
    ∃ record, guard.lastToggle = some record ∧ record.action = "disarm"

/-- Reason and user of the last override are those of one event, the last that set either. -/
structure Attributed (guard : SafetyGuard) : Prop extends guard.Toggled where
  reason : guard.state.lastOverrideReason = guard.lastOverride.map AuditRecord.reason
  user : guard.state.lastOverrideUser = guard.lastOverride.map AuditRecord.user

/-- Who disarms the lock is the one who is noted as the user of the last override. -/
def DisarmsAsNoted (guard : SafetyGuard) : GuardOp → Prop
  | .disarm user _ _ _ => guard.state.lastOverrideUser = some user
  | .arm _ _ _ | .requestOverride _ => True

variable {guard : SafetyGuard}

theorem lastOf_concat {actions : List String} {log : List AuditRecord} {record : AuditRecord} :
    lastOf actions (log ++ [record]) =
      if record.action ∈ actions then some record else lastOf actions log := by
  rw [lastOf, List.filter_append]
  by_cases h : record.action ∈ actions
  · rw [if_pos h, List.filter_cons_of_pos (by simpa using h), List.filter_nil, List.getLast?_concat]
  · rw [if_neg h, List.filter_cons_of_neg (by simpa using h), List.filter_nil, List.append_nil]
    rfl

theorem toggled_new : new.Toggled := by
  constructor
  · rfl
  · simp [new, lastToggle, lastOf]

theorem attributed_new : new.Attributed := ⟨toggled_new, rfl, rfl⟩

theorem Toggled.apply (h : guard.Toggled) (op : GuardOp) : (guard.apply op).Toggled := by
  cases op with
  | arm user toggledAt recordedAt =>
    constructor
    · simp [SafetyGuard.apply, arm, lastToggle, lastOf_concat]
    · simp [SafetyGuard.apply, arm, lastToggle, lastOf_concat]
  | disarm user reason toggledAt recordedAt =>
    constructor
    · simp [SafetyGuard.apply, disarm, lastToggle, lastOf_concat]
    · simp [SafetyGuard.apply, disarm, lastToggle, lastOf_concat]
  | requestOverride request =>
    constructor
    · simpa [SafetyGuard.apply, requestOverride, lastToggle, lastOf_concat] using h.toggledBy
    · simpa [SafetyGuard.apply, requestOverride, lastToggle, lastOf_concat] using h.armed

/-- A disarm writes its reason beside the user that is already noted. -/
theorem attributed_apply_iff (h : guard.Attributed) (op : GuardOp) :
    (guard.apply op).Attributed ↔ guard.DisarmsAsNoted op := by
  have htoggled := h.toToggled.apply op
  cases op with
  | arm user toggledAt recordedAt =>
    refine iff_of_true ⟨htoggled, ?_, ?_⟩ trivial
    · simpa [SafetyGuard.apply, arm, lastOverride, lastOf_concat] using h.reason
    · simpa [SafetyGuard.apply, arm, lastOverride, lastOf_concat] using h.user
  | disarm user reason toggledAt recordedAt =>
    constructor
    · intro hnext
      have huser := hnext.user
      simpa [SafetyGuard.apply, disarm, lastOverride, lastOf_concat, DisarmsAsNoted] using huser
    · intro hnoted
      rw [DisarmsAsNoted] at hnoted
      refine ⟨htoggled, ?_, ?_⟩
      · simp [SafetyGuard.apply, disarm, lastOverride, lastOf_concat]
      · simpa [SafetyGuard.apply, disarm, lastOverride, lastOf_concat] using hnoted
  | requestOverride request =>
    refine iff_of_true ⟨htoggled, ?_, ?_⟩ trivial
    · simp [SafetyGuard.apply, requestOverride, lastOverride, lastOf_concat]
    · simp [SafetyGuard.apply, requestOverride, lastOverride, lastOf_concat]

end SafetyGuard

open SafetyGuard

/-- In every run the lock is as its log has it, and the override is attributed to one event all
along the run exactly if whoever disarms is the user of the override that is noted by then. -/
theorem override_attribution_iff (ops : List GuardOp) :
    (∀ before rest, ops = before ++ rest → (Runs.run apply .new before).Toggled) ∧
      ((∀ before rest, ops = before ++ rest → (Runs.run apply .new before).Attributed) ↔
        Runs.Along apply DisarmsAsNoted .new ops) := by
  constructor
  · intro before rest _
    exact Runs.run_forall (fun _ op h => h.apply op) toggled_new before
  · exact Runs.forall_prefix_iff_along (fun _ op h => attributed_apply_iff h op) attributed_new

/-- A disarm of a fresh guard leaves a reason without a user. -/
theorem disarm_without_user :
    let guard := Runs.run apply .new [.disarm "alice" "maintenance" 0 0]
    guard.state.lastOverrideReason = some "maintenance" ∧ guard.state.lastOverrideUser = none ∧
      ¬guard.Attributed := by
  refine ⟨rfl, rfl, ?_⟩
  intro h
  have huser := h.user
  revert huser
  decide

end AiBridge
