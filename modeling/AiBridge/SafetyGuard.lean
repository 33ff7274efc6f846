import AiBridge.Protocol

namespace AiBridge

open Text

/-- Nanoseconds since the epoch. -/
abbrev SystemTime := Nat

structure SafetyState where
  armed : Bool
  lastToggleAt : Option SystemTime
  lastToggledBy : Option String
  lastOverrideReason : Option String
  lastOverrideUser : Option String
  deriving DecidableEq, Repr

inductive SafetyDecision
  | allow
  | block
  | requireHumanOverride
  deriving DecidableEq, Repr

structure OverrideRequest where
  taskId : String
  symbol : String
  reason : String
  requestedBy : String
  timestamp : SystemTime
  commandPreview : String
  deriving DecidableEq, Repr

structure AuditRecord where
  timestamp : SystemTime
  taskId : String
  commandPreview : String
  user : String
  action : String
  result : String
  reason : String
  deriving DecidableEq, Repr

structure SafetyGuard where
  state : SafetyState
  auditLog : List AuditRecord
  deriving DecidableEq, Repr

namespace SafetyGuard

def new : SafetyGuard where
  state := ⟨true, none, none, none, none⟩
  auditLog := []

/-- The clock is read once for the state and once for the record. -/
def arm (self : SafetyGuard) (user : String) (toggledAt recordedAt : SystemTime) : SafetyGuard where
  state :=
    { self.state with
      armed := true
      lastToggleAt := some toggledAt
      lastToggledBy := some user }
  auditLog := self.auditLog ++
    [⟨recordedAt, "system", "safety_lock:arm", user, "arm", "granted",
      "user armed the safety lock"⟩]

def disarm (self : SafetyGuard) (user reason : String) (toggledAt recordedAt : SystemTime) :
    SafetyGuard where
  state :=
    { self.state with
      armed := false
      lastToggleAt := some toggledAt
      lastToggledBy := some user
      lastOverrideReason := some reason }
  auditLog := self.auditLog ++
    [⟨recordedAt, "system", "safety_lock:disarm", user, "disarm", "granted", reason⟩]

def evaluateForCommand (self : SafetyGuard) (command : String) : SafetyDecision :=
  let trimmed := trim command
  if trimmed = "" then .allow
  else
    let symbol := (Symbol.extractFromCommand trimmed).1
    match symbol.classification with
    | .critical => if self.state.armed then .block else .allow
    | .delegable => .allow

def requestOverride (self : SafetyGuard) (request : OverrideRequest) :
    SafetyDecision × SafetyGuard :=
  (.requireHumanOverride,
    { state :=
        { self.state with
          lastOverrideReason := some request.reason
          lastOverrideUser := some request.requestedBy }
      auditLog := self.auditLog ++
        [⟨request.timestamp, request.taskId, request.commandPreview, request.requestedBy,
          "override_requested", "pending", request.reason⟩] })

theorem arm_ne (self : SafetyGuard) (user : String) (toggledAt recordedAt : SystemTime) :
    self.arm user toggledAt recordedAt ≠ self := by
  intro h
  have hlog := congrArg (fun guard => guard.auditLog.length) h
  simp [arm] at hlog

theorem disarm_ne (self : SafetyGuard) (user reason : String) (toggledAt recordedAt : SystemTime) :
    self.disarm user reason toggledAt recordedAt ≠ self := by
  intro h
  have hlog := congrArg (fun guard => guard.auditLog.length) h
  simp [disarm] at hlog

end SafetyGuard

end AiBridge
