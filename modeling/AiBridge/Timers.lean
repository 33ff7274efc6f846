import AiBridge.Text

namespace AiBridge

open Text

/-- Nanoseconds. -/
abbrev Duration := Nat

/-- Nanoseconds since the start of the monotonic clock. -/
abbrev Instant := Nat

/-- `now.saturating_duration_since(earlier)`. -/
def Instant.saturatingDurationSince (now earlier : Instant) : Duration := now - earlier

def Duration.fromSecs (secs : Nat) : Duration := secs * 1000000000

inductive TimerOutcome
  | awaitingHuman
  | autoApprove
  deriving DecidableEq, Repr

/-- What the process reads from `AI_BRIDGE_GATEKEEPER_TIMEOUT_SECS`. -/
structure Env where
  gatekeeperTimeoutSecs : Option String
  deriving DecidableEq, Repr

def defaultGatekeeperTimeout : Duration := Duration.fromSecs 120

/-- `str::parse::<u64>` on the characters after an optional plus sign. -/
def parseDigits : List Char → Nat → Option Nat
  | [], value => some value
  | c :: cs, value =>
    if c.isDigit then
      let next := value * 10 + (c.toNat - '0'.toNat)
      if next < 2 ^ 64 then parseDigits cs next else none
    else none

def parseU64 (s : String) : Option Nat :=
  match s.toList with
  | [] => none
  | ['+'] => none
  | '+' :: digits => parseDigits digits 0
  | digits => parseDigits digits 0

def gatekeeperTimeout (env : Env) : Duration :=
  ((env.gatekeeperTimeoutSecs.bind fun v => parseU64 (trim v)).map Duration.fromSecs).getD
    defaultGatekeeperTimeout

@[simp] theorem gatekeeperTimeout_unset : gatekeeperTimeout ⟨none⟩ = defaultGatekeeperTimeout := rfl

theorem defaultGatekeeperTimeout_ne_zero : defaultGatekeeperTimeout ≠ 0 := by
  decide

def evaluateTimeout (env : Env) (isDelegable : Bool) (elapsed : Duration) : TimerOutcome :=
  if gatekeeperTimeout env ≤ elapsed ∧ isDelegable = true then .autoApprove else .awaitingHuman

example : gatekeeperTimeout ⟨some " +45 "⟩ = Duration.fromSecs 45 := by decide

end AiBridge
