import AiBridge.Disk
import AiBridge.Hand
import AiBridge.Runs
import AiBridge.Utf8

namespace AiBridge

open Attempts Runs Text

-- Like the injections, the captures stand in the module `real`.

inductive CapturePurpose
  | capture
  | selfDiagnosis
  | ocrTextReading
  deriving DecidableEq, Repr

/-- The eye portal is reserved for image capture and self-diagnosis. -/
def authorizeCapture (allowlist : Allowlist) (appId : String) (purpose : CapturePurpose) :
    Except PortalError Unit := do
  ensureAllowedApplication allowlist appId
  match purpose with
  | .capture | .selfDiagnosis => pure ()
  | .ocrTextReading => throw .unsupportedAction

inductive CursorMode
  | hidden
  | embedded
  | metadata
  deriving DecidableEq, Repr

inductive SourceType
  | monitor
  | window
  deriving DecidableEq, Repr

inductive PersistMode
  | doNot
  | application
  | explicitlyRevoked
  deriving DecidableEq, Repr

structure SelectSourcesOptions where
  cursorMode : CursorMode
  sources : List SourceType
  multiple : Bool
  persistMode : PersistMode
  restoreToken : Option String
  deriving DecidableEq, Repr

/-- What a screen cast that was started answers. -/
structure Streams where
  restoreToken : Option String
  streams : List Nat
  deriving DecidableEq, Repr

/-- What is asked of the desktop's ScreenCast portal. -/
inductive EyeCall
  | new
  | createSession
  | selectSources (session : String) (options : SelectSourcesOptions)
  | start (session : String)
  | response (session : String)
  deriving DecidableEq, Repr

def EyeCall.Reply : EyeCall → Type
  | createSession => String
  | response _ => Streams
  | _ => Unit

abbrev EyePortal := Party EyeCall EyeCall.Reply String

namespace EyePortal

variable (self : EyePortal)

def dbus : Party EyeCall EyeCall.Reply PortalError := Party.mapError self .dbus

def ask (call : EyeCall) : Attempt EyeCall PortalError call.Reply := send self.dbus call

end EyePortal

def captureOptions (restore : Option String) : SelectSourcesOptions where
  cursorMode := .embedded
  sources := [.monitor, .window]
  multiple := true
  persistMode := .application
  restoreToken := restore

/-- The calls of `screen_cast_capture`, with the token it has read. -/
def startCast (eye : EyePortal) (restore : Option String) :
    Attempt EyeCall PortalError Streams := do
  eye.ask .new
  let session : String ← eye.ask .createSession
  eye.ask (.selectSources session (captureOptions restore))
  eye.ask (.start session)
  eye.ask (.response session)

/-- What the operating system does with the token file during a capture. -/
structure TokenIo where
  read : Option String
  createDirAll : Except String Unit
  write : Option (Disk.Fault String)
  setPermissions : Except String Unit

structure EyeState where
  past : List EyeCall
  disk : Disk String UInt8

section Token

-- `portal_restore_path()`
variable (path : String)

def readRestoreToken (io : TokenIo) (disk : Disk String UInt8) : Option String :=
  match io.read with
  | some _ => none
  | none => (disk.files path).bind fromUtf8

def writeRestoreToken (io : TokenIo) (disk : Disk String UInt8) (token : String) :
    Disk String UInt8 × Except PortalError Unit :=
  match io.createDirAll with
  | .error message => (disk, .error (.dbus message))
  | .ok _ =>
    match disk.write io.write path (utf8 token) with
    | (disk, .error message) => (disk, .error (.dbus message))
    | (disk, .ok _) =>
      match io.setPermissions with
      | .error message =>
        (disk, .error (.dbus ("failed to set permissions on restore token: " ++ message)))
      | .ok _ => (disk, .ok ())

structure CaptureEvent where
  allowlist : Allowlist
  appId : String
  purpose : CapturePurpose
  io : TokenIo

variable (eye : EyePortal)

def screenCastCapture (state : EyeState) (event : CaptureEvent) :
    Except PortalError String × EyeState :=
  match authorizeCapture event.allowlist event.appId event.purpose with
  | .error error => (.error error, state)
  | .ok _ =>
    match startCast eye (readRestoreToken path event.io state.disk) state.past with
    | (.error error, past) => (.error error, ⟨past, state.disk⟩)
    | (.ok response, past) =>
      let disk := match response.restoreToken with
        | some token => (writeRestoreToken path event.io state.disk token).1
        | none => state.disk
      (.ok ("screen cast capture started for " ++ event.appId ++ " (" ++
        toString response.streams.length ++ " streams)"), ⟨past, disk⟩)

def eyeStep (state : EyeState) (event : CaptureEvent) : EyeState :=
  (screenCastCapture path eye state event).2

/-- The token that a capture puts into the file. -/
def storedToken (state : EyeState) (event : CaptureEvent) : Option String :=
  match authorizeCapture event.allowlist event.appId event.purpose with
  | .error _ => none
  | .ok _ =>
    match startCast eye (readRestoreToken path event.io state.disk) state.past with
    | (.error _, _) => none
    | (.ok response, _) =>
      if event.io.createDirAll = .ok () ∧ event.io.write = none then response.restoreToken else none

end Token

/-- The file is written whole or not at all. -/
def TokenIo.Whole (self : TokenIo) : Prop := ∀ error taken, self.write ≠ some (.cut error taken)

section Lemmas

variable {path : String} {eye : EyePortal}

theorem authorizeCapture_eq_ok_iff {allowlist : Allowlist} {appId : String}
    {purpose : CapturePurpose} :
    authorizeCapture allowlist appId purpose = .ok () ↔
      ensureAllowedApplication allowlist appId = .ok () ∧ purpose ≠ .ocrTextReading := by
  unfold authorizeCapture
  cases ensureAllowedApplication allowlist appId with
  | error error => simp [bind, Except.bind]
  | ok _ => cases purpose <;> simp [bind, Except.bind, pure, Except.pure, throw, throwThe,
      MonadExceptOf.throw]

/-- The calls of a capture that presents a token. -/
def castCalls (session : String) (restore : Option String) : List EyeCall :=
  [.new, .createSession, .selectSources session (captureOptions restore), .start session,
    .response session]

theorem startCast_plays (eye : EyePortal) (past : List EyeCall) (restore : Option String) :
    ∃ session, Plays eye.dbus past (startCast eye restore) (castCalls session restore) := by
  have hcreated : ∃ session, Plays eye.dbus (past ++ [.new])
      (eye.ask .createSession >>= fun session => do
        eye.ask (.selectSources session (captureOptions restore))
        eye.ask (.start session)
        eye.ask (.response session))
      ([.createSession] ++ [.selectSources session (captureOptions restore), .start session,
        .response session]) := by
    refine (plays_send EyeCall.createSession).bind_some fun session _ => ⟨session, ?_⟩
    exact (plays_send _).bind fun _ _ => (plays_send _).bind fun _ _ => plays_send _
  obtain ⟨session, h⟩ := hcreated
  exact ⟨session, (plays_send EyeCall.new).bind fun _ _ => h⟩

theorem eyeStep_denied {state : EyeState} {event : CaptureEvent} {error : PortalError}
    (h : authorizeCapture event.allowlist event.appId event.purpose = .error error) :
    eyeStep path eye state event = state := by
  simp [eyeStep, screenCastCapture, h]

/-- A capture calls the portal only when it is authorised, and presents the token it has read. -/
theorem past_eyeStep (path : String) (eye : EyePortal) (state : EyeState) (event : CaptureEvent) :
    eyeStep path eye state event = state ∨
      authorizeCapture event.allowlist event.appId event.purpose = .ok () ∧ ∃ session made,
        (eyeStep path eye state event).past = state.past ++ made ∧
          made <+: castCalls session (readRestoreToken path event.io state.disk) := by
  cases hauth : authorizeCapture event.allowlist event.appId event.purpose with
  | error error => exact .inl (eyeStep_denied hauth)
  | ok _ =>
    obtain ⟨session, made, hmade, hplayed⟩ :=
      startCast_plays eye state.past (readRestoreToken path event.io state.disk)
    refine .inr ⟨rfl, session, made, ?_, hplayed.made_prefix⟩
    rw [← hmade]
    unfold eyeStep screenCastCapture
    rw [hauth]
    rcases startCast eye (readRestoreToken path event.io state.disk) state.past with ⟨result, past⟩
    cases result <;> rfl

theorem files_writeRestoreToken {io : TokenIo} (hwhole : io.Whole) (disk : Disk String UInt8)
    (token : String) :
    (writeRestoreToken path io disk token).1.files path =
      if io.createDirAll = .ok () ∧ io.write = none then some (utf8 token) else disk.files path := by
  unfold writeRestoreToken
  cases io.createDirAll with
  | error message => simp
  | ok _ =>
    cases hwrite : io.write with
    | none =>
      simp only [Disk.write, Disk.put]
      cases io.setPermissions <;> simp
    | some fault =>
      cases fault with
      | refused error => simp [Disk.write, Disk.put]
      | cut error taken => exact absurd hwrite (hwhole error taken)

theorem files_eyeStep {event : CaptureEvent} (hwhole : event.io.Whole) (state : EyeState) :
    (eyeStep path eye state event).disk.files path =
      ((storedToken path eye state event).map utf8).or (state.disk.files path) := by
  unfold eyeStep screenCastCapture storedToken
  cases authorizeCapture event.allowlist event.appId event.purpose with
  | error error => rfl
  | ok _ =>
    rcases startCast eye (readRestoreToken path event.io state.disk) state.past with ⟨result, past⟩
    cases result with
    | error error => rfl
    | ok response =>
      cases hresponse : response.restoreToken with
      | none => simp [hresponse]
      | some token =>
        simp only [hresponse, files_writeRestoreToken hwhole]
        split <;> simp

/-- The file holds the last token that was stored. -/
theorem files_run (path : String) (eye : EyePortal) {events : List CaptureEvent}
    (hwhole : ∀ event ∈ events, event.io.Whole)
    (start : EyeState) :
    (run (eyeStep path eye) start events).disk.files path =
      ((outputs (eyeStep path eye) (storedToken path eye) start events).getLast?.map utf8).or
        (start.disk.files path) := by
  induction events using List.reverseRecOn with
  | nil => rfl
  | append_singleton events event ih =>
    have hpast := ih fun other hother => hwhole other (by simp [hother])
    rw [run_concat, files_eyeStep (hwhole event (by simp)), hpast, outputs_concat]
    cases storedToken path eye (run (eyeStep path eye) start events) event with
    | none => simp
    | some token => simp

/-- Every call of a capture is authorised, for a purpose other than reading text, and the token that
the portal is shown is the last one that was stored. -/
theorem capture_presents_stored {start : EyeState} {events before after : List CaptureEvent}
    {event : CaptureEvent} {call : EyeCall} (hwhole : ∀ event ∈ events, event.io.Whole)
    (hsplit : events = before ++ event :: after)
    (hcall : call ∈ (eyeStep path eye (run (eyeStep path eye) start before) event).past.drop
      (run (eyeStep path eye) start before).past.length) :
    ensureAllowedApplication event.allowlist event.appId = .ok () ∧
      event.purpose ≠ .ocrTextReading ∧
      ∀ session options, call = .selectSources session options →
        options.restoreToken = if event.io.read = none then
          (outputs (eyeStep path eye) (storedToken path eye) start before).getLast?.or
            ((start.disk.files path).bind fromUtf8)
        else none := by
  have hpast : ∀ other ∈ before, other.io.Whole := by
    intro other hother
    exact hwhole other (by rw [hsplit]; simp [hother])
  have hfile := files_run path eye hpast start
  generalize run (eyeStep path eye) start before = state at *
  rcases past_eyeStep path eye state event with hsame | ⟨hauth, session, made, hmade, hbegin⟩
  · rw [hsame] at hcall
    simp at hcall
  · rw [hmade, List.drop_left] at hcall
    obtain ⟨hallowed, hpurpose⟩ := authorizeCapture_eq_ok_iff.mp hauth
    refine ⟨hallowed, hpurpose, ?_⟩
    rintro other options rfl
    have hmem := hbegin.subset hcall
    simp only [castCalls, List.mem_cons, EyeCall.selectSources.injEq, List.not_mem_nil,
      reduceCtorEq, false_or, or_false] at hmem
    rw [hmem.2]
    show readRestoreToken path event.io state.disk = _
    rw [readRestoreToken, hfile]
    cases event.io.read with
    | some message => rfl
    | none =>
      cases (outputs (eyeStep path eye) (storedToken path eye) start before).getLast? with
      | none => rfl
      | some token => exact fromUtf8_utf8 token

end Lemmas

/-- A portal with one session that hands out the same token each time. -/
def grantingEye : EyePortal
  | _, .createSession => .ok "session-1"
  | _, .response _ => .ok ⟨some "token-1", [41]⟩
  | _, .new => .ok ()
  | _, .selectSources _ _ => .ok ()
  | _, .start _ => .ok ()

def tokenPath : String := "/tmp/ai_bridge_runtime_sockets/portal_restore.token"

def terminalCapture : CaptureEvent where
  allowlist := ⟨[⟨"org.gnome.Terminal", true⟩]⟩
  appId := "org.gnome.Terminal"
  purpose := .selfDiagnosis
  io := ⟨none, .ok (), none, .ok ()⟩

def emptyEye : EyeState := ⟨[], fun _ => none, []⟩

theorem terminalCapture_whole : terminalCapture.io.Whole := by
  intro error taken h
  exact nomatch h

theorem terminalCapture_read :
    readRestoreToken tokenPath terminalCapture.io
      (eyeStep tokenPath grantingEye emptyEye terminalCapture).disk = some "token-1" :=
  fromUtf8_utf8 "token-1"

/-- The second capture shows the portal the token of the first one. -/
theorem capture_presents_stored_terminal :
    some "token-1" =
      (outputs (eyeStep tokenPath grantingEye) (storedToken tokenPath grantingEye) emptyEye
        [terminalCapture]).getLast?.or none := by
  have hcall : .selectSources "session-1" (captureOptions (some "token-1")) ∈
      (eyeStep tokenPath grantingEye (run (eyeStep tokenPath grantingEye) emptyEye [terminalCapture])
        terminalCapture).past.drop
          (run (eyeStep tokenPath grantingEye) emptyEye [terminalCapture]).past.length := by
    rw [run_cons, run_nil, ← terminalCapture_read]
    decide
  have hwhole : ∀ event ∈ [terminalCapture, terminalCapture], event.io.Whole := by
    intro event hevent
    have heq : event = terminalCapture := by simpa using hevent
    rw [heq]
    exact terminalCapture_whole
  exact (capture_presents_stored hwhole
    (show [terminalCapture, terminalCapture] = [terminalCapture] ++ terminalCapture :: [] from rfl)
    hcall).2.2 _ _ rfl

end AiBridge
