import AiBridge.Criteria

namespace AiBridge

open Text

inductive PolicyDecision
  | delegable
  | nonDelegable
  deriving DecidableEq, Repr

def decidePolicyWithConfig (rx : RegexEngine) (plan : ExecutionPlan) (config : CriteriaConfig) :
    Option PolicyDecision :=
  (evaluateCriteriaWithConfig rx plan config).map fun summary =>
    match summary.status with
    | .delegable => .delegable
    | .nonDelegable => .nonDelegable

theorem decidePolicyWithConfig_eq (rx : RegexEngine) (plan : ExecutionPlan)
    (config : CriteriaConfig) :
    decidePolicyWithConfig rx plan config =
      ((evaluateCommands rx config plan.commands [] .delegable).map CriteriaSummary.status).map
        fun status =>
          match status with
          | .delegable => .delegable
          | .nonDelegable => .nonDelegable := by
  rw [decidePolicyWithConfig, evaluateCriteriaWithConfig, Option.map_map]
  rfl

/-- A regex engine on which the shipped patterns compile, as they do in the `regex` crate. -/
structure ShippedRegex extends RegexEngine where
  compiles : CriteriaConfig.defaultPatterns.Compilable toRegexEngine

theorem decidePolicyWithConfig_isSome {rx : RegexEngine} {config : CriteriaConfig}
    (hc : config.Compilable rx) (plan : ExecutionPlan) :
    (decidePolicyWithConfig rx plan config).isSome := by
  rw [decidePolicyWithConfig, Option.isSome_map]
  exact evaluateCommands_isSome hc plan.commands [] .delegable

def decidePolicy (rx : ShippedRegex) (plan : ExecutionPlan) : PolicyDecision :=
  (decidePolicyWithConfig rx.toRegexEngine plan .defaultPatterns).get
    (decidePolicyWithConfig_isSome rx.compiles plan)

theorem decidePolicyWithConfig_defaultPatterns (rx : ShippedRegex) (plan : ExecutionPlan) :
    decidePolicyWithConfig rx.toRegexEngine plan .defaultPatterns = some (decidePolicy rx plan) :=
  (Option.some_get (decidePolicyWithConfig_isSome rx.compiles plan)).symm

theorem decidePolicy_congr {rx : ShippedRegex} {plan plan' : ExecutionPlan}
    (h : plan.commands = plan'.commands) : decidePolicy rx plan = decidePolicy rx plan' := by
  have hwith : decidePolicyWithConfig rx.toRegexEngine plan .defaultPatterns =
      decidePolicyWithConfig rx.toRegexEngine plan' .defaultPatterns := by
    simp only [decidePolicyWithConfig, evaluateCriteriaWithConfig, h]
  simp only [decidePolicy, hwith]

/-- An engine that reads every pattern as plain text. On texts that no pattern matches other
than by its letters it answers as the `regex` crate does. -/
def plainRegex : ShippedRegex where
  new pattern := some fun text => contains text pattern
  compiles := fun _ _ => rfl

def delegablePlan (taskId : String) : ExecutionPlan :=
  ⟨taskId, "run the test suite", ["[[AB:OPS.TERM.RUN.LOCAL]] cargo test"]⟩

def listingPlan (taskId : String) : ExecutionPlan :=
  ⟨taskId, "list the sources", ["[[AB:OPS.TERM.RUN.LOCAL]] ls src"]⟩

def criticalPlan (taskId : String) : ExecutionPlan :=
  ⟨taskId, "rotate credentials", ["[[AB:OPS.TERM.RUN.LOCAL]] echo password=secret"]⟩

@[simp] theorem delegablePlan_taskId (taskId : String) : (delegablePlan taskId).taskId = taskId :=
  rfl

@[simp] theorem listingPlan_taskId (taskId : String) : (listingPlan taskId).taskId = taskId :=
  rfl

@[simp] theorem criticalPlan_taskId (taskId : String) : (criticalPlan taskId).taskId = taskId :=
  rfl

theorem delegablePlan_ne_listingPlan (taskId : String) :
    delegablePlan taskId ≠ listingPlan taskId := by
  simp [delegablePlan, listingPlan]

@[simp]
theorem decidePolicy_delegablePlan (taskId : String) :
    decidePolicy plainRegex (delegablePlan taskId) = .delegable := by
  have h : decidePolicy plainRegex (delegablePlan "") = .delegable := by decide +kernel
  exact (decidePolicy_congr rfl).trans h

@[simp]
theorem decidePolicy_listingPlan (taskId : String) :
    decidePolicy plainRegex (listingPlan taskId) = .delegable := by
  have h : decidePolicy plainRegex (listingPlan "") = .delegable := by decide +kernel
  exact (decidePolicy_congr rfl).trans h

@[simp]
theorem decidePolicy_criticalPlan (taskId : String) :
    decidePolicy plainRegex (criticalPlan taskId) = .nonDelegable := by
  have h : decidePolicy plainRegex (criticalPlan "") = .nonDelegable := by decide +kernel
  exact (decidePolicy_congr rfl).trans h

-- closed terms that only mention a decision are not to be evaluated
attribute [irreducible] decidePolicy

end AiBridge
