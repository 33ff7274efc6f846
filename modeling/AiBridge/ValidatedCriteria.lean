import AiBridge.Errors
import AiBridge.PlanCriteria

namespace AiBridge

open Checks

namespace AdminConfig

/-- The files and the `toml` crate that a configuration is loaded through. -/
structure Source where
  readToString : String → Except IoError String
  tomlFromStr : String → Except String AdminConfig

/-- `load_config`, with the text that its error displays. -/
def loadConfig (source : Source) (path : String) : Except String AdminConfig :=
  match source.readToString path with
  | .error e => .error e.message
  | .ok raw => source.tomlFromStr raw

def dryRunValidate (rx : RegexEngine) (source : Source) (path : String) :
    Except PolicyValidationError AdminConfig := do
  let config ← (loadConfig source path).mapError fun e => .invalidCriteriaRegex "file" e
  config.validate rx
  return config

variable {rx : RegexEngine} {source : Source} {path : String} {config : AdminConfig}

theorem dryRunValidate_eq_ok_iff : dryRunValidate rx source path = .ok config ↔
    loadConfig source path = .ok config ∧ config.validate rx = .ok () := by
  simp only [dryRunValidate, bind_eq_ok_iff, mapError_eq_ok_iff, pure_eq_ok_iff]
  constructor
  · intro h
    obtain ⟨loaded, hload, _, hvalid, hsame⟩ := h
    rw [hsame] at hload hvalid
    exact ⟨hload, hvalid⟩
  · intro h
    obtain ⟨hload, hvalid⟩ := h
    exact ⟨config, hload, (), hvalid, rfl⟩

end AdminConfig

open AdminConfig

/-- A configuration that was validated, here or in a dry run, never makes the scan of a plan
panic. -/
theorem validated_config_evaluates (rx : ShippedRegex) (config : AdminConfig) (plan : ExecutionPlan)
    (h : config.validate rx.toRegexEngine = .ok () ∨
      ∃ source path, dryRunValidate rx.toRegexEngine source path = .ok config) :
    ∃ summary, evaluateCriteriaWithConfig rx.toRegexEngine plan config.toCriteriaConfig =
      some summary := by
  have hvalidated : config.validate rx.toRegexEngine = .ok () := by
    rcases h with hdirect | ⟨source, path, hdry⟩
    · exact hdirect
    · exact (dryRunValidate_eq_ok_iff.mp hdry).2
  have hc := toCriteriaConfig_compilable (validate_eq_ok_iff.mp hvalidated)
  obtain ⟨summary, hsummary, _⟩ := evaluateCriteriaWithConfig_spec hc plan
  exact ⟨summary, hsummary⟩

/-- One category under both of its names, once more with an empty list, and one that is not known. -/
theorem aliased_config_evaluates :
    let config : AdminConfig := { AdminConfig.empty with
      criteria := [⟨"secrets", ["token"]⟩, ⟨"credentials_secrets", ["password"]⟩,
        ⟨"gardening", ["spade"]⟩, ⟨"secrets", []⟩] }
    ∃ summary, evaluateCriteriaWithConfig plainRegex.toRegexEngine (delegablePlan "task-1")
      config.toCriteriaConfig = some summary :=
  validated_config_evaluates plainRegex _ (delegablePlan "task-1") (Or.inl (by decide +kernel))

end AiBridge
