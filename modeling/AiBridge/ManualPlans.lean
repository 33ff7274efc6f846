import AiBridge.PolicyLock

namespace AiBridge

open Text

structure ManualCommandRow where
  command : String
  symbol : Symbol
  deriving DecidableEq, Repr

/-- The command of a row, if it is not blank. -/
def ManualCommandRow.tagged (row : ManualCommandRow) : Option String :=
  let trimmed := trim row.command
  if trimmed = "" then none else some (row.symbol.withTag trimmed)

def buildManualPlan (taskId description : String) (rows : List ManualCommandRow) :
    Option ExecutionPlan :=
  let commands := rows.filterMap ManualCommandRow.tagged
  if commands = [] then none else some ⟨taskId, description, commands⟩

/-- What the operator selected: a symbol and a text for each row that is not blank. -/
def selected (rows : List ManualCommandRow) : List (Symbol × String) :=
  (rows.filter fun row => trim row.command ≠ "").map fun row => (row.symbol, trim row.command)

variable {row : ManualCommandRow} {rows : List ManualCommandRow} {taskId description : String}

theorem tagged_of_blank (h : trim row.command = "") : row.tagged = none := if_pos h

theorem tagged_of_nonblank (h : trim row.command ≠ "") :
    row.tagged = some (row.symbol.withTag (trim row.command)) := if_neg h

/-- The commands decode to what was selected, whatever stands in the texts. -/
theorem extract_tagged (rows : List ManualCommandRow) :
    (rows.filterMap ManualCommandRow.tagged).map Symbol.extractFromCommand = selected rows := by
  induction rows with
  | nil => rfl
  | cons row rows ih =>
    by_cases hblank : trim row.command = ""
    · have hskipped : selected (row :: rows) = selected rows := by
        rw [selected, List.filter_cons_of_neg (by simpa using hblank), selected]
      rw [List.filterMap_cons_none (tagged_of_blank hblank), ih, hskipped]
    · have hkept : selected (row :: rows) = (row.symbol, trim row.command) :: selected rows := by
        rw [selected, List.filter_cons_of_pos (by simpa using hblank), List.map_cons, selected]
      rw [List.filterMap_cons_some (tagged_of_nonblank hblank), List.map_cons, ih, hkept,
        Symbol.extractFromCommand_of_withTag, trim_idem]

theorem selected_eq_nil_iff : selected rows = [] ↔ ∀ row ∈ rows, trim row.command = "" := by
  simp [selected]

theorem buildManualPlan_eq_none_iff : buildManualPlan taskId description rows = none ↔
    ∀ row ∈ rows, trim row.command = "" := by
  rw [← selected_eq_nil_iff, ← extract_tagged, List.map_eq_nil_iff, buildManualPlan]
  simp

theorem buildManualPlan_eq_some {plan : ExecutionPlan}
    (h : buildManualPlan taskId description rows = some plan) :
    plan = ⟨taskId, description, rows.filterMap ManualCommandRow.tagged⟩ := by
  rw [buildManualPlan] at h
  split at h
  next => simp at h
  next => exact (Option.some.inj h).symm

section Decision

variable (rx : ShippedRegex)

/-- A symbol and a text that make a clean command. -/
def CleanSelection (selection : Symbol × String) : Prop :=
  selection.1.classification = .delegable ∧ ∃ textSummary,
    evaluateTextCommand rx.toRegexEngine selection.2 .defaultPatterns = some textSummary ∧
      textSummary.triggered = []

variable {rx}

/-- The policy looks at nothing of a command but its symbol and its text. -/
theorem decidePolicy_eq_delegable_iff (plan : ExecutionPlan) : decidePolicy rx plan = .delegable ↔
    ∀ selection ∈ plan.commands.map Symbol.extractFromCommand, CleanSelection rx selection := by
  have hdecide : decidePolicy rx plan = .delegable ↔
      ∀ command ∈ plan.commands,
        CleanCommand rx.toRegexEngine .defaultPatterns command := by
    rw [← decidePolicyWithConfig_eq_delegable_iff rx.compiles plan,
      decidePolicyWithConfig_defaultPatterns, Option.some.injEq]
  rw [hdecide, List.forall_mem_map]
  constructor
  · intro h command hmem
    exact ⟨(h command hmem).tagged, (h command hmem).scanned⟩
  · intro h command hmem
    exact ⟨(h command hmem).1, (h command hmem).2⟩

theorem decidePolicy_eq_of_extract {plan plan' : ExecutionPlan}
    (h : plan.commands.map Symbol.extractFromCommand =
      plan'.commands.map Symbol.extractFromCommand) :
    decidePolicy rx plan = decidePolicy rx plan' := by
  have hiff : decidePolicy rx plan = .delegable ↔ decidePolicy rx plan' = .delegable := by
    rw [decidePolicy_eq_delegable_iff, h, decidePolicy_eq_delegable_iff]
  cases hplan : decidePolicy rx plan with
  | delegable => exact (hiff.mp hplan).symm
  | nonDelegable =>
    cases hplan' : decidePolicy rx plan' with
    | delegable =>
      rw [hiff.mpr hplan'] at hplan
      simp at hplan
    | nonDelegable => rfl

end Decision

/-- A manual plan has a command for each row that is not blank, which decodes to the symbol and the
text of the row, and it is decided as any plan is whose commands decode to the same. -/
theorem manual_plan_meaning (rx : ShippedRegex) (taskId description : String)
    (rows : List ManualCommandRow) :
    (buildManualPlan taskId description rows = none ↔ ∀ row ∈ rows, trim row.command = "") ∧
      ∀ plan, buildManualPlan taskId description rows = some plan →
        plan.taskId = taskId ∧ plan.description = description ∧
        plan.commands.map Symbol.extractFromCommand =
          (rows.filter fun row => trim row.command ≠ "").map
            (fun row => (row.symbol, trim row.command)) ∧
        (decidePolicy rx plan = .delegable ↔
          ∀ row ∈ rows, trim row.command ≠ "" → row.symbol.classification = .delegable ∧
            ∃ textSummary, evaluateTextCommand rx.toRegexEngine (trim row.command)
              .defaultPatterns = some textSummary ∧ textSummary.triggered = []) ∧
        ∀ external : ExecutionPlan,
          external.commands.map Symbol.extractFromCommand =
            (rows.filter fun row => trim row.command ≠ "").map
              (fun row => (row.symbol, trim row.command)) →
          decidePolicy rx external = decidePolicy rx plan := by
  refine ⟨buildManualPlan_eq_none_iff, ?_⟩
  intro plan hplan
  obtain rfl := buildManualPlan_eq_some hplan
  have hdecodes := extract_tagged rows
  refine ⟨rfl, rfl, hdecodes, ?_, ?_⟩
  · rw [decidePolicy_eq_delegable_iff, hdecodes, selected, List.forall_mem_map]
    simp only [List.mem_filter, decide_eq_true_eq, and_imp, CleanSelection]
  · intro external hexternal
    exact decidePolicy_eq_of_extract (hexternal.trans hdecodes.symm)

end AiBridge
