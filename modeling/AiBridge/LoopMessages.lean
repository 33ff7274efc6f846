import AiBridge.HandlerEffects
import AiBridge.Runs

namespace AiBridge

open PendingPlans Runs

inductive LoopMessage
  | maestro (message : MaestroMessage)
  | resolved (resolved : TaskResolved)
  deriving DecidableEq, Repr

def LoopMessage.request : LoopMessage → Request
  | maestro message => .ofMessage message
  | resolved decision => .resolve decision

section Steps

variable (rx : ShippedRegex) (fromStr : String → Option Json)

variable {rx fromStr} {s : PendingPlans × SafetyGuard} {input : LoopInput}

end Steps

end AiBridge
