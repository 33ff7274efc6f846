import AiBridge.Symbols

namespace AiBridge

structure ExecutionPlan where
  taskId : String
  description : String
  commands : List String
  deriving DecidableEq, Repr

structure TaskQuery where
  taskId : String
  deriving DecidableEq, Repr

inductive MaestroMessage
  | executionPlan (plan : ExecutionPlan)
  | taskQuery (query : TaskQuery)
  deriving DecidableEq, Repr

structure TaskSubmitAck where
  taskId : String
  deriving DecidableEq, Repr

structure ExecutionOutcome where
  stdout : String
  stderr : String
  exitCode : Int
  success : Bool
  deriving DecidableEq, Repr

inductive TaskStatus
  | pending
  | delegableAutoApproved
  | heldForManualApproval
  | executed
  | rejectedByOwner
  | executionFailed
  deriving DecidableEq, Repr

structure TaskQueryResult where
  taskId : String
  status : TaskStatus
  result : Option ExecutionOutcome
  deriving DecidableEq, Repr

structure TaskResolved where
  taskId : String
  approved : Bool
  deriving DecidableEq, Repr

end AiBridge
