import Mathlib.Init

namespace AiBridge

inductive ErrorKind
  | notFound
  | permissionDenied
  | invalidInput
  | other
  deriving DecidableEq, Repr

/-- `std::io::Error`, with the text it displays. -/
structure IoError where
  kind : ErrorKind
  message : String
  deriving DecidableEq, Repr

inductive ChannelName
  | privateA
  | privateB
  | publicMaestro
  deriving DecidableEq, Repr

/-- The derived `Debug` text. -/
def ChannelName.debug : ChannelName → String
  | privateA => "PrivateA"
  | privateB => "PrivateB"
  | publicMaestro => "PublicMaestro"

inductive SubChatError
  | subChatLimitExceeded (taskId : String)
  | invalidTaskId (taskId : String)
  | branchUnavailable (branch : String)
  | orphan (message : String)
  deriving DecidableEq, Repr

def SubChatError.display : SubChatError → String
  | subChatLimitExceeded taskId =>
    "sub-chat limit exceeded for task " ++ taskId ++ ": maximum of 3 sub-chats allowed"
  | invalidTaskId taskId => "invalid task id: " ++ taskId
  | branchUnavailable branch => "branch " ++ branch ++ " is not available"
  | orphan message => "orphan worker failed: " ++ message

inductive LoopError
  | subChat (error : SubChatError)
  | noBranch (channel : ChannelName)
  | unsupportedMessage (channel : ChannelName)
  | taskNotFound (taskId : String)
  | invalidMessageType
  | executionError (message : String)
  deriving DecidableEq, Repr

def LoopError.display : LoopError → String
  | subChat error => error.display
  | noBranch channel => "no branch sub-chat is available for channel " ++ channel.debug
  | unsupportedMessage channel => "unsupported message on channel " ++ channel.debug
  | taskNotFound taskId => "task not found: " ++ taskId
  | invalidMessageType => "invalid message type for channel"
  | executionError message => "execution error: " ++ message

/-- The errors of the channel layer. The texts inside `json` are those of `serde_json`. -/
inductive ChannelError
  | socketBind (path source : String)
  | socketAccept (message : String)
  | socketIo (message : String)
  | json
  | peerUidMismatch (expected actual : Nat)
  | forbiddenField (field : String)
  | pathAccess (message : String)
  | io (message : String)
  | tokenGeneration (message : String)
  | handshakeMismatch
  | handshakeWrite (message : String)
  | handshakeRead (message : String)
  deriving DecidableEq, Repr

end AiBridge
