import AiBridge.NotificationCodec
import AiBridge.Runs

namespace AiBridge

open ByteStream Runs Text

/-- The line that the stream task writes for an event, without its newline. -/
def OutboundEvent.text (event : OutboundEvent) : String := event.toJson.text

def OutboundEvent.bytes (event : OutboundEvent) : List UInt8 := utf8 (event.text ++ "\n")

/-- What went over one connection: the events that were written, and the one that the connection
broke at. -/
structure LinkRecord where
  written : List OutboundEvent
  broke : Option OutboundEvent
  bytes : List UInt8
  deriving DecidableEq

/-- The stream task of the dashboard with the channel it takes its events from. -/
structure UiLink where
  queue : List OutboundEvent
  ended : List LinkRecord
  current : Option LinkRecord
  delivered : List GatekeeperEvent
  deriving DecidableEq

inductive LinkEvent
  /-- The dashboard puts an event into the channel. -/
  | queued (event : OutboundEvent)
  /-- The socket exists and takes the connection. -/
  | connect
  /-- An event is taken from the channel and written. A write that fails has put out a part of the
  line at most. -/
  | forward (taken : Option Nat)
  /-- A line is read, or the stream is at its end or broken. -/
  | line (text : Option String)
  deriving DecidableEq

namespace LinkRecord

def opened : LinkRecord := ⟨[], none, []⟩

variable (self : LinkRecord)

def write (event : OutboundEvent) : LinkRecord :=
  { self with written := self.written ++ [event], bytes := self.bytes ++ event.bytes }

def breakAt (event : OutboundEvent) (taken : Nat) : LinkRecord :=
  { self with
    broke := some event
    bytes := self.bytes ++ event.bytes.dropLast.take taken }

/-- The events that were taken from the channel for the connection. -/
def taken : List OutboundEvent := self.written ++ self.broke.toList

end LinkRecord

namespace UiLink

def start : UiLink := ⟨[], [], none, []⟩

variable (fromStr : String → Option Json) (self : UiLink)

/-- All connections so far, the open one last. -/
def records : List LinkRecord := self.ended ++ self.current.toList

def step : LinkEvent → UiLink
  | .queued event => { self with queue := self.queue ++ [event] }
  | .connect =>
    match self.current with
    | none => { self with current := some .opened }
    | some _ => self
  | .forward taken =>
    match self.current, self.queue with
    | some record, event :: queue =>
      match taken with
      | none => { self with queue, current := some (record.write event) }
      | some taken =>
        { self with queue, current := none, ended := self.ended ++ [record.breakAt event taken] }
    | _, _ => self
  | .line text =>
    match self.current with
    | none => self
    | some record =>
      match text with
      | some text =>
        { self with
          delivered := self.delivered ++
            ((fromStr text).bind GatekeeperEvent.fromDocument).toList }
      | none => { self with current := none, ended := self.ended ++ [record] }

end UiLink

/-- The bytes of a connection are the lines of the events that were written, and a part of the line
that it broke at. -/
structure LinkRecord.Framed (record : LinkRecord) : Prop where
  lines : ∃ rest, record.bytes = record.written.flatMap OutboundEvent.bytes ++ rest ∧
    (record.broke = none → rest = []) ∧
    ∀ event, record.broke = some event → rest <+: utf8 event.text

section Framing

variable {record : LinkRecord} {event : OutboundEvent}

end Framing

/-- Nothing is lost or reordered between the channel and the connections. -/
structure UiLink.Conserves (link : UiLink) (queued : List OutboundEvent) : Prop where
  order : link.records.flatMap LinkRecord.taken ++ link.queue = queued
  current : ∀ record, link.current = some record → record.broke = none
  framed : ∀ record ∈ link.records, record.Framed

section Lines

variable {capacity : Nat} {chunks left : List (List UInt8)}

end Lines

/-- The decision that an event carries. -/
def OutboundEvent.decision : OutboundEvent → Option TaskResolved
  | taskResolved taskId approved => some ⟨taskId, approved⟩
  | _ => none

end AiBridge
