import AiBridge.Attempts
import AiBridge.Text

namespace AiBridge

open Attempts Text

structure AllowlistRule where
  appId : String
  allowed : Bool
  deriving DecidableEq, Repr

structure Allowlist where
  apps : List AllowlistRule
  deriving DecidableEq, Repr

def Allowlist.isAllowed (self : Allowlist) (appId : String) : Bool :=
  self.apps.any fun rule => rule.appId == appId && rule.allowed

inductive PortalError
  | notAuthorized
  | unsupportedAction
  | missingAppId
  | dbus (message : String)
  | clipboard (message : String)
  deriving DecidableEq, Repr

def ensureAllowedApplication (allowlist : Allowlist) (appId : String) : Except PortalError Unit :=
  if (trim appId).isEmpty then .error .missingAppId
  else if !allowlist.isAllowed appId then .error .notAuthorized
  else .ok ()

-- What follows stands in the module `real`, behind the feature `real-portal` that nothing enables.

/-- Guards that only allowlisted applications can drive the hand. -/
def authorizeInjection (allowlist : Allowlist) (appId : String) : Except PortalError Unit :=
  ensureAllowedApplication allowlist appId

theorem ensureAllowedApplication_eq_ok_iff {allowlist : Allowlist} {appId : String} :
    ensureAllowedApplication allowlist appId = .ok () ↔
      (trim appId).isEmpty = false ∧ allowlist.isAllowed appId = true := by
  unfold ensureAllowedApplication
  split
  · next hblank => simp [hblank]
  · next hblank =>
    split
    · next hdenied => simp_all
    · next hallowed => simp_all

inductive KeyState
  | pressed
  | released
  deriving DecidableEq, Repr

inductive DeviceType
  | keyboard
  | pointer
  deriving DecidableEq, Repr

/-- What is asked of the desktop's RemoteDesktop portal. A session is named by its handle. -/
inductive PortalCall
  | new
  | createSession
  | selectDevices (session : String) (devices : List DeviceType)
  | start (session : String)
  | notifyKeyboardKeysym (session : String) (keysym : Int32) (state : KeyState)
  | notifyKeyboardKeycode (session : String) (keycode : Int32) (state : KeyState)
  deriving DecidableEq, Repr

def PortalCall.Reply : PortalCall → Type
  | createSession => String
  | _ => Unit

/-- The portal, with the text of the error that it refuses a call with. -/
abbrev Portal := Party PortalCall PortalCall.Reply String

namespace Portal

variable (self : Portal)

/-- `map_err(|e| PortalError::Dbus(e.to_string()))` at every call. -/
def dbus : Party PortalCall PortalCall.Reply PortalError := Party.mapError self .dbus

def ask (call : PortalCall) : Attempt PortalCall PortalError call.Reply := send self.dbus call

end Portal

def charToKeysym (ch : Char) : Option UInt32 :=
  match ch with
  | ' ' => some 0x20
  | '\n' | '\r' => none
  | _ =>
    let code := ch.val
    if 0x20 ≤ code ∧ code ≤ 0x7E then some code else none

section Injection

variable (portal : Portal)

def injectKeysym (session : String) (keysym : Int32) : Attempt PortalCall PortalError PUnit := do
  portal.ask (.notifyKeyboardKeysym session keysym .pressed)
  portal.ask (.notifyKeyboardKeysym session keysym .released)

/-- The body of the loop of `inject_text_and_send`. -/
def injectChar (session : String) (ch : Char) : Attempt PortalCall PortalError PUnit :=
  if ch = '\n' then injectKeysym portal session 0xff0d
  else
    match charToKeysym ch with
    | none => pure PUnit.unit
    | some keysym => injectKeysym portal session keysym.toInt32

def openSession : Attempt PortalCall PortalError String := do
  portal.ask .new
  let session : String ← portal.ask .createSession
  portal.ask (.selectDevices session [.keyboard, .pointer])
  return session

def injectTextAndSend (allowlist : Allowlist) (targetAppId text : String) :
    Attempt PortalCall PortalError PUnit := do
  ExceptT.mk (pure (authorizeInjection allowlist targetAppId))
  let session ← openSession portal
  portal.ask (.start session)
  text.toList.forM (injectChar portal session)

inductive InputEvent
  | keyPress (keycode : Int32)
  | keyRelease (keycode : Int32)
  deriving DecidableEq, Repr

def remoteDesktopInject (allowlist : Allowlist) (appId : String) (event : InputEvent) :
    Attempt PortalCall PortalError String := do
  ExceptT.mk (pure (authorizeInjection allowlist appId))
  let session ← openSession portal
  match event with
  | .keyPress keycode => portal.ask (.notifyKeyboardKeycode session keycode .pressed)
  | .keyRelease keycode => portal.ask (.notifyKeyboardKeycode session keycode .released)
  return "remote desktop input injected for " ++ appId

end Injection

/-- The key a character of the text is typed with. -/
def keyOf (ch : Char) : Option Int32 :=
  if ch = '\n' then some 0xff0d else (charToKeysym ch).map UInt32.toInt32

def keysOf (text : String) : List Int32 := text.toList.filterMap keyOf

/-- The two calls that type a key. -/
def stroke (session : String) (key : Int32) : List PortalCall :=
  [.notifyKeyboardKeysym session key .pressed, .notifyKeyboardKeysym session key .released]

/-- The calls that ask for a session. -/
def opening : List PortalCall := [.new, .createSession]

def beginning (session : String) : List PortalCall :=
  opening ++ [.selectDevices session [.keyboard, .pointer]]

/-- The calls that an injection of the text makes of a portal that answers them all. -/
def injectionCalls (session text : String) : List PortalCall :=
  beginning session ++ .start session :: (keysOf text).flatMap (stroke session)

def InputEvent.call (session : String) : InputEvent → PortalCall
  | keyPress keycode => .notifyKeyboardKeycode session keycode .pressed
  | keyRelease keycode => .notifyKeyboardKeycode session keycode .released

/-- The portal answers the request for a session with this one. -/
structure Created (portal : Portal) (past : List PortalCall) (session : String) : Prop where
  opened : portal past .new = .ok ()
  session : portal (past ++ [.new]) .createSession = .ok session

section Plays

variable {portal : Portal} {past : List PortalCall} {session : String}

theorem created_unique {other : String} (h : Created portal past session)
    (hother : Created portal past other) : other = session := by
  have hsame := h.session.symm.trans hother.session
  exact (Except.ok.inj hsame).symm

/-- A portal that answers both requests has created a session. -/
theorem created_of_answered (h : Answered portal past opening) :
    ∃ session, Created portal past session := by
  obtain ⟨_, hopened⟩ := h [] .new [.createSession] rfl
  obtain ⟨session, hsession⟩ := h [.new] .createSession [] rfl
  rw [List.append_nil] at hopened
  exact ⟨session, hopened, hsession⟩

theorem injectKeysym_plays (session : String) (keysym : Int32) (past : List PortalCall) :
    Plays portal.dbus past (injectKeysym portal session keysym) (stroke session keysym) :=
  (plays_send _).bind fun _ _ => plays_send _

theorem injectChar_plays (session : String) (past : List PortalCall) (ch : Char) :
    Plays portal.dbus past (injectChar portal session ch)
      ((keyOf ch).elim [] (stroke session)) := by
  unfold injectChar keyOf
  split
  · exact injectKeysym_plays session _ past
  · cases charToKeysym ch with
    | none => exact plays_pure _
    | some keysym => exact injectKeysym_plays session _ past

theorem flatMap_elim_eq {α β γ : Type} (key : α → Option β) (calls : β → List γ) (items : List α) :
    items.flatMap (fun item => (key item).elim [] calls) = (items.filterMap key).flatMap calls := by
  induction items with
  | nil => rfl
  | cons item items ih =>
    rw [List.flatMap_cons, ih]
    cases h : key item with
    | none => simp [h]
    | some k => simp [h]

theorem typing_plays (session text : String) (past : List PortalCall) :
    Plays portal.dbus past (text.toList.forM (injectChar portal session))
      ((keysOf text).flatMap (stroke session)) := by
  rw [keysOf, ← flatMap_elim_eq]
  exact plays_forM (fun past ch => injectChar_plays session past ch) text.toList past

theorem created_of_openSession {handle : String} (h : (openSession portal past).1 = .ok handle) :
    Created portal past handle := by
  obtain ⟨_, past₁, hnew, h⟩ := bind_eq_ok h
  obtain ⟨created, past₂, hsession, h⟩ := bind_eq_ok h
  obtain ⟨_, past₃, _, h⟩ := bind_eq_ok h
  have hpast : past ++ [.new] = past₁ := congrArg Prod.snd hnew
  have hopened := congrArg Prod.fst hnew
  have hreply := congrArg Prod.fst hsession
  rw [← hpast] at hreply
  rw [← Except.ok.inj h]
  exact ⟨Party.mapError_eq_ok.mp hopened, Party.mapError_eq_ok.mp hreply⟩

theorem openSession_plays (hcreated : Created portal past session) :
    Plays portal.dbus past (openSession portal) (beginning session) := by
  refine (plays_send PortalCall.new).bind fun _ _ => ?_
  refine (plays_send PortalCall.createSession).bind fun handle hhandle => ?_
  obtain rfl := Except.ok.inj (hcreated.session.symm.trans (Party.mapError_eq_ok.mp hhandle))
  exact (plays_send _).bind fun _ _ => plays_pure _

/-- Without a session nothing is asked but for it. -/
theorem openSession_plays_opening (hnone : ∀ session, ¬Created portal past session) :
    Plays portal.dbus past (openSession portal) opening := by
  refine (plays_send PortalCall.new).bind fun reply hreply => ?_
  have hsession : Plays portal.dbus (past ++ [.new]) (portal.ask .createSession >>= fun session => do
      portal.ask (.selectDevices session [.keyboard, .pointer])
      return session) ([.createSession] ++ []) := by
    refine (plays_send PortalCall.createSession).bind fun handle hhandle => ?_
    exact absurd ⟨Party.mapError_eq_ok.mp hreply, Party.mapError_eq_ok.mp hhandle⟩ (hnone handle)
  exact hsession

theorem guard_plays {allowlist : Allowlist} {appId : String}
    (hallowed : authorizeInjection allowlist appId = .ok ()) :
    Plays portal.dbus past (ExceptT.mk (pure (authorizeInjection allowlist appId)) :
      Attempt PortalCall PortalError Unit) [] := by
  rw [hallowed]
  exact plays_pure ()

/-- An injection asks for a session and, if it gets one, goes on in it. -/
theorem plays_in_session {α : Type} {allowlist : Allowlist} {appId : String}
    {next : String → Attempt PortalCall PortalError α} {later : String → List PortalCall}
    (hallowed : authorizeInjection allowlist appId = .ok ())
    (hnext : ∀ session past, Plays portal.dbus past (next session) (later session)) :
    let attempt : Attempt PortalCall PortalError α := do
      ExceptT.mk (pure (authorizeInjection allowlist appId))
      let session ← openSession portal
      next session
    (∃ session, Created portal past session ∧
      Plays portal.dbus past attempt (beginning session ++ later session)) ∨
    (∀ session, ¬Created portal past session) ∧ Plays portal.dbus past attempt opening := by
  intro attempt
  by_cases hsome : ∃ session, Created portal past session
  · obtain ⟨session, hcreated⟩ := hsome
    left
    refine ⟨session, hcreated, (guard_plays hallowed).bind fun _ _ => ?_⟩
    rw [List.append_nil]
    refine (openSession_plays hcreated).bind fun handle hhandle => ?_
    rw [created_unique hcreated (created_of_openSession hhandle)]
    exact hnext session _
  · right
    have hnone : ∀ session, ¬Created portal past session := not_exists.mp hsome
    refine ⟨hnone, ?_⟩
    show Plays portal.dbus past attempt ([] ++ (opening ++ []))
    refine (guard_plays hallowed).bind fun _ _ => ?_
    rw [List.append_nil]
    refine (openSession_plays_opening hnone).bind fun handle hhandle => ?_
    exact absurd (created_of_openSession hhandle) (hnone handle)

theorem injectTextAndSend_plays {allowlist : Allowlist} {appId : String} (text : String)
    (hallowed : authorizeInjection allowlist appId = .ok ()) :
    (∃ session, Created portal past session ∧ Plays portal.dbus past
      (injectTextAndSend portal allowlist appId text) (injectionCalls session text)) ∨
    (∀ session, ¬Created portal past session) ∧ Plays portal.dbus past
      (injectTextAndSend portal allowlist appId text) opening :=
  plays_in_session hallowed fun _ _ => (plays_send _).bind fun _ _ => typing_plays _ text _

theorem remoteDesktopInject_plays {allowlist : Allowlist} {appId : String} (event : InputEvent)
    (hallowed : authorizeInjection allowlist appId = .ok ()) :
    (∃ session, Created portal past session ∧ Plays portal.dbus past
      (remoteDesktopInject portal allowlist appId event) (beginning session ++ [event.call session])) ∨
    (∀ session, ¬Created portal past session) ∧ Plays portal.dbus past
      (remoteDesktopInject portal allowlist appId event) opening := by
  cases event with
  | keyPress keycode =>
    exact plays_in_session hallowed fun _ _ => (plays_send _).bind fun _ _ => plays_pure _
  | keyRelease keycode =>
    exact plays_in_session hallowed fun _ _ => (plays_send _).bind fun _ _ => plays_pure _

theorem injectTextAndSend_denied (portal : Portal) (past : List PortalCall) {allowlist : Allowlist}
    {appId : String} {error : PortalError} (text : String)
    (h : authorizeInjection allowlist appId = .error error) :
    injectTextAndSend portal allowlist appId text past = (.error error, past) := by
  unfold injectTextAndSend
  rw [h]
  rfl

theorem remoteDesktopInject_denied (portal : Portal) (past : List PortalCall)
    {allowlist : Allowlist} {appId : String} {error : PortalError} (event : InputEvent)
    (h : authorizeInjection allowlist appId = .error error) :
    remoteDesktopInject portal allowlist appId event past = (.error error, past) := by
  unfold remoteDesktopInject
  rw [h]
  rfl

end Plays

end AiBridge
