import AiBridge.Hand
import AiBridge.Runs

namespace AiBridge

open Attempts Runs Text

/-- A keyboard as the desktop sees it: the keys that are down, and all that were pressed. -/
structure Keyboard where
  down : List Int32
  typed : List Int32
  deriving DecidableEq, Repr

namespace Keyboard

def idle : Keyboard := ⟨[], []⟩

def take (self : Keyboard) : PortalCall → Keyboard
  | .notifyKeyboardKeysym _ key .pressed => ⟨key :: self.down, self.typed ++ [key]⟩
  | .notifyKeyboardKeysym _ key .released => ⟨self.down.erase key, self.typed⟩
  | _ => self

/-- The keyboard after calls that were all answered. -/
def after (calls : List PortalCall) : Keyboard := run take idle calls

end Keyboard

/-- The character that a window shows for a key. -/
def spelled (key : Int32) : Char :=
  if key = 0xff0d then '\n' else Char.ofNat key.toUInt32.toNat

def typeable (c : Char) : Bool := c == '\n' || (0x20 ≤ c.val && c.val ≤ 0x7E)

/-- What arrives in the window that has the focus. -/
def Keyboard.shown (self : Keyboard) : List Char := self.typed.map spelled

/-- The keys that are left down when this call is refused. -/
def PortalCall.leavesDown : PortalCall → List Int32
  | notifyKeyboardKeysym _ key .released => [key]
  | _ => []

theorem charToKeysym_eq (c : Char) :
    charToKeysym c = if 0x20 ≤ c.val ∧ c.val ≤ 0x7E then some c.val else none := by
  unfold charToKeysym
  split <;> rfl

theorem spelled_toInt32 {c : Char} (h : c.val ≤ 0x7E) : spelled c.val.toInt32 = c := by
  have hkey : c.val.toInt32 ≠ 0xff0d := by
    intro heq
    have hval : c.val = 0xff0d := by
      rw [← UInt32.toUInt32_toInt32 c.val, heq]
      rfl
    rw [hval] at h
    exact absurd h (by decide)
  rw [spelled, if_neg hkey, UInt32.toUInt32_toInt32]
  exact Char.ofNat_toNat c

theorem keyOf_cases (c : Char) :
    (typeable c = true ∧ ∃ key, keyOf c = some key ∧ spelled key = c) ∨
      (typeable c = false ∧ keyOf c = none) := by
  by_cases hnewline : c = '\n'
  · rw [hnewline]
    exact .inl ⟨rfl, 0xff0d, rfl, rfl⟩
  · rw [keyOf, if_neg hnewline, charToKeysym_eq]
    by_cases hprintable : 0x20 ≤ c.val ∧ c.val ≤ 0x7E
    · rw [if_pos hprintable]
      exact .inl ⟨by simp [typeable, hprintable], _, rfl, spelled_toInt32 hprintable.2⟩
    · rw [if_neg hprintable]
      refine .inr ⟨?_, rfl⟩
      simpa [typeable, hnewline] using hprintable

theorem spelled_keysOf (text : String) :
    (keysOf text).map spelled = text.toList.filter typeable := by
  unfold keysOf
  induction text.toList with
  | nil => rfl
  | cons c cs ih =>
    rcases keyOf_cases c with ⟨htypeable, key, hkey, hspelled⟩ | ⟨htypeable, hkey⟩
    · rw [List.filterMap_cons_some hkey, List.map_cons, ih, hspelled, List.filter_cons_of_pos htypeable]
    · rw [List.filterMap_cons_none hkey, ih, List.filter_cons_of_neg (by simp [htypeable])]

section Strokes

variable {session : String}

theorem take_stroke (board : Keyboard) (key : Int32) :
    run Keyboard.take board (stroke session key) = ⟨board.down, board.typed ++ [key]⟩ := by
  simp [stroke, Keyboard.take]

theorem take_strokes (board : Keyboard) (keys : List Int32) :
    run Keyboard.take board (keys.flatMap (stroke session)) =
      ⟨board.down, board.typed ++ keys⟩ := by
  induction keys generalizing board with
  | nil => simp
  | cons key keys ih =>
    rw [List.flatMap_cons, run_append, take_stroke, ih]
    simp

/-- Where a call cuts the strokes off, the keys before it were typed, and the key of a release that
did not come is down. -/
theorem take_strokes_cut {keys : List Int32} {taken back : List PortalCall} {call : PortalCall}
    (typed : List Int32) (h : keys.flatMap (stroke session) = taken ++ call :: back) :
    ∃ n, run Keyboard.take ⟨[], typed⟩ taken = ⟨call.leavesDown, typed ++ keys.take n⟩ := by
  induction keys generalizing typed taken with
  | nil => simp at h
  | cons key keys ih =>
    rw [List.flatMap_cons] at h
    cases taken with
    | nil =>
      obtain ⟨hcall, _⟩ := List.cons.inj h
      exact ⟨0, by simp [← hcall, PortalCall.leavesDown]⟩
    | cons first taken =>
      obtain ⟨hfirst, h⟩ := List.cons.inj h
      cases taken with
      | nil =>
        obtain ⟨hcall, _⟩ := List.cons.inj h
        exact ⟨1, by simp [← hfirst, ← hcall, Keyboard.take, PortalCall.leavesDown]⟩
      | cons second taken =>
        obtain ⟨hsecond, h⟩ := List.cons.inj h
        obtain ⟨n, hn⟩ := ih (typed ++ [key]) h
        refine ⟨n + 1, ?_⟩
        simp only [← hfirst, ← hsecond, run_cons, Keyboard.take, List.erase_cons_head]
        rw [hn]
        simp

/-- The calls that open a session do nothing to a keyboard. -/
theorem inert_of_opening (session : String) {call : PortalCall}
    (h : call ∈ beginning session ++ [.start session]) :
    (∀ board : Keyboard, board.take call = board) ∧ call.leavesDown = [] := by
  simp only [beginning, opening, List.cons_append, List.nil_append, List.mem_cons,
    List.not_mem_nil, or_false] at h
  rcases h with rfl | rfl | rfl | rfl <;> exact ⟨fun _ => rfl, rfl⟩

theorem take_inert {calls : List PortalCall} (board : Keyboard)
    (h : ∀ call ∈ calls, ∀ board : Keyboard, board.take call = board) :
    run Keyboard.take board calls = board :=
  run_invariant (P := fun _ call => ∀ board : Keyboard, board.take call = board)
    (I := fun state => state = board) (fun state _ hstate hinert => (hinert state).trans hstate) rfl
    (along_of_forall h)

theorem take_beginning (board : Keyboard) :
    run Keyboard.take board (beginning session ++ [.start session]) = board := rfl

theorem after_injectionCalls (text : String) :
    Keyboard.after (injectionCalls session text) = ⟨[], keysOf text⟩ := by
  have hsplit : injectionCalls session text =
      (beginning session ++ [.start session]) ++ (keysOf text).flatMap (stroke session) := by
    simp [injectionCalls]
  rw [Keyboard.after, hsplit, run_append, take_beginning, take_strokes]
  rfl

theorem after_injection_cut {text : String} {taken back : List PortalCall} {call : PortalCall}
    (h : injectionCalls session text = taken ++ call :: back) :
    ∃ n, Keyboard.after taken = ⟨call.leavesDown, (keysOf text).take n⟩ := by
  have hsplit : (beginning session ++ [.start session]) ++ (keysOf text).flatMap (stroke session) =
      taken ++ call :: back := by
    rw [← h]
    simp [injectionCalls]
  rcases List.append_eq_append_iff.mp hsplit with ⟨more, htaken, hmore⟩ | ⟨more, hopening, hmore⟩
  · obtain ⟨n, hn⟩ := take_strokes_cut [] hmore
    refine ⟨n, ?_⟩
    rw [Keyboard.after, htaken, run_append, take_beginning, Keyboard.idle, hn, List.nil_append]
  · cases more with
    | nil =>
      have hstrokes : (keysOf text).flatMap (stroke session) = [] ++ call :: back := hmore.symm
      obtain ⟨n, hn⟩ := take_strokes_cut [] hstrokes
      refine ⟨n, ?_⟩
      rw [List.append_nil] at hopening
      rw [Keyboard.after, ← hopening, take_beginning]
      exact hn
    | cons first more =>
      obtain ⟨rfl, _⟩ := List.cons.inj hmore
      have hinert : ∀ other ∈ taken, ∀ board : Keyboard, board.take other = board := by
        intro other hother
        exact (inert_of_opening session (by rw [hopening]; simp [hother])).1
      have hcall : call.leavesDown = [] := (inert_of_opening session (by rw [hopening]; simp)).2
      refine ⟨0, ?_⟩
      rw [Keyboard.after, take_inert _ hinert, hcall]
      rfl

end Strokes

/-- The portal is called only for an allowed application. The first call that it refuses ends the
injection with its error: before there is a session, or with a part of the text shown and at most the
key whose release was refused down. If it answers every call, the text is shown as typed, with every
key up. -/
theorem injected_text_arrives (portal : Portal) (past : List PortalCall) (allowlist : Allowlist)
    (appId text : String) :
    let out := injectTextAndSend portal allowlist appId text past
    (∀ error, authorizeInjection allowlist appId = .error error → out = (.error error, past)) ∧
      (authorizeInjection allowlist appId = .ok () →
        (∃ calls message, calls <+: opening ∧ Refused portal past calls message ∧
          out = (.error (.dbus message), past ++ calls)) ∨
        ∃ session, Created portal past session ∧
          ((Answered portal past (injectionCalls session text) ∧
              out = (.ok ⟨⟩, past ++ injectionCalls session text) ∧
              (Keyboard.after (injectionCalls session text)).down = [] ∧
              (Keyboard.after (injectionCalls session text)).shown =
                text.toList.filter typeable) ∨
            ∃ taken call message, taken ++ [call] <+: injectionCalls session text ∧
              Refused portal past (taken ++ [call]) message ∧
              out = (.error (.dbus message), past ++ (taken ++ [call])) ∧
              (Keyboard.after taken).down = call.leavesDown ∧
              (Keyboard.after taken).shown <+: text.toList.filter typeable)) := by
  intro out
  refine ⟨fun error h => injectTextAndSend_denied portal past text h, fun hallowed => ?_⟩
  rcases injectTextAndSend_plays text hallowed with ⟨session, hcreated, hplays⟩ | ⟨hnone, hplays⟩
  · right
    refine ⟨session, hcreated, ?_⟩
    rcases hplays.cases with ⟨hanswered, value, hout⟩ | ⟨calls, error, hbegin, hrefused, hout⟩
    · left
      refine ⟨answered_mapError.mp hanswered, hout, ?_⟩
      rw [after_injectionCalls]
      exact ⟨rfl, spelled_keysOf text⟩
    · right
      obtain ⟨message, rfl, hrefusal⟩ := refused_mapError.mp hrefused
      obtain ⟨taken, call, rfl, _, _⟩ := hrefused
      obtain ⟨back, hback⟩ := hbegin
      have hsplit : injectionCalls session text = taken ++ call :: back := by
        rw [← hback]
        simp
      obtain ⟨n, hn⟩ := after_injection_cut hsplit
      refine ⟨taken, call, message, ⟨back, hback⟩, hrefusal, hout, by rw [hn], ?_⟩
      rw [hn, Keyboard.shown, List.map_take, spelled_keysOf]
      exact List.take_prefix n _
  · left
    rcases hplays.cases with ⟨hanswered, _⟩ | ⟨calls, error, hbegin, hrefused, hout⟩
    · obtain ⟨session, hcreated⟩ := created_of_answered (answered_mapError.mp hanswered)
      exact absurd hcreated (hnone session)
    · obtain ⟨message, rfl, hrefusal⟩ := refused_mapError.mp hrefused
      exact ⟨calls, message, hbegin, hrefusal, hout⟩

/-- What the desktop is asked to do through the hand. -/
inductive HandEvent
  | typeText (allowlist : Allowlist) (targetAppId text : String)
  | useKey (allowlist : Allowlist) (appId : String) (event : InputEvent)
  deriving DecidableEq, Repr

namespace HandEvent

def authorised : HandEvent → Prop
  | typeText allowlist appId _ => authorizeInjection allowlist appId = .ok ()
  | useKey allowlist appId _ => authorizeInjection allowlist appId = .ok ()

/-- The calls of the event when none is refused. -/
def calls (session : String) : HandEvent → List PortalCall
  | typeText _ _ text => injectionCalls session text
  | useKey _ _ event => beginning session ++ [event.call session]

end HandEvent

/-- The calls that the portal was sent, after one more event. -/
def handStep (portal : Portal) (past : List PortalCall) : HandEvent → List PortalCall
  | .typeText allowlist appId text => (injectTextAndSend portal allowlist appId text past).2
  | .useKey allowlist appId event => (remoteDesktopInject portal allowlist appId event past).2

/-- The call is one of the event's, in the session that the portal created for it or before there is
one, and the calls before it were answered. -/
def HandEvent.Makes (portal : Portal) (past : List PortalCall) (event : HandEvent)
    (call : PortalCall) : Prop :=
  ∃ taken, Answered portal past taken ∧ (taken ++ [call] <+: opening ∨
    ∃ session, Created portal past session ∧ taken ++ [call] <+: event.calls session)

theorem makes_of_played {α : Type} {portal : Portal} {past made : List PortalCall}
    (event : HandEvent) {result : Except PortalError α} {script : List PortalCall}
    (hscript : script = opening ∨ ∃ session, Created portal past session ∧
      script = event.calls session) (hplayed : Played portal.dbus past script result made)
    {call : PortalCall} (hmem : call ∈ made) : event.Makes portal past call := by
  obtain ⟨taken, hbegin, hanswered⟩ := hplayed.answered_before hmem
  refine ⟨taken, answered_mapError.mp hanswered, ?_⟩
  rcases hscript with rfl | ⟨session, hcreated, rfl⟩
  · exact .inl hbegin
  · exact .inr ⟨session, hcreated, hbegin⟩

theorem makes_of_plays {α : Type} {portal : Portal} {past : List PortalCall} (event : HandEvent)
    {attempt : Attempt PortalCall PortalError α}
    (h : (∃ session, Created portal past session ∧
        Plays portal.dbus past attempt (event.calls session)) ∨
      (∀ session, ¬Created portal past session) ∧ Plays portal.dbus past attempt opening) :
    ∃ made, (attempt past).2 = past ++ made ∧ ∀ call ∈ made, event.Makes portal past call := by
  rcases h with ⟨session, hcreated, made, hmade, hplayed⟩ | ⟨_, made, hmade, hplayed⟩
  · refine ⟨made, hmade, fun call hmem => ?_⟩
    exact makes_of_played event (.inr ⟨session, hcreated, rfl⟩) hplayed hmem
  · refine ⟨made, hmade, fun call hmem => ?_⟩
    exact makes_of_played event (.inl rfl) hplayed hmem

theorem handStep_eq (portal : Portal) (past : List PortalCall) (event : HandEvent) :
    handStep portal past event = past ∨ event.authorised ∧ ∃ made,
      handStep portal past event = past ++ made ∧ ∀ call ∈ made, event.Makes portal past call := by
  cases event with
  | typeText allowlist appId text =>
    cases hallowed : authorizeInjection allowlist appId with
    | error error =>
      have hdenied := injectTextAndSend_denied portal past text hallowed
      exact .inl (congrArg Prod.snd hdenied)
    | ok _ =>
      exact .inr ⟨hallowed, makes_of_plays (.typeText allowlist appId text)
        (injectTextAndSend_plays text hallowed)⟩
  | useKey allowlist appId event =>
    cases hallowed : authorizeInjection allowlist appId with
    | error error =>
      have hdenied := remoteDesktopInject_denied portal past event hallowed
      exact .inl (congrArg Prod.snd hdenied)
    | ok _ =>
      exact .inr ⟨hallowed, makes_of_plays (.useKey allowlist appId event)
        (remoteDesktopInject_plays event hallowed)⟩

/-- Over any events, every call that reaches the portal belongs to one that was authorised. The calls
of that one before it were answered, and it asks for a session or goes on in the session that the
portal created. -/
theorem hand_calls_authorised (portal : Portal) (events : List HandEvent) {call : PortalCall}
    (h : call ∈ run (handStep portal) [] events) :
    ∃ before event after, events = before ++ event :: after ∧ event.authorised ∧
      ∃ taken, Answered portal (run (handStep portal) [] before) taken ∧
        (taken ++ [call] <+: opening ∨
          ∃ session, Created portal (run (handStep portal) [] before) session ∧
            taken ++ [call] <+: event.calls session) := by
  induction events using List.reverseRecOn with
  | nil => simp at h
  | append_singleton events last ih =>
    rw [run_concat] at h
    rcases handStep_eq portal (run (handStep portal) [] events) last with
      hnone | ⟨hauthorised, made, hmade, hmakes⟩
    · rw [hnone] at h
      obtain ⟨before, event, after, hsplit, hevent⟩ := ih h
      exact ⟨before, event, after ++ [last], by simp [hsplit], hevent⟩
    · rw [hmade] at h
      rcases List.mem_append.mp h with hpast | hnew
      · obtain ⟨before, event, after, hsplit, hevent⟩ := ih hpast
        exact ⟨before, event, after ++ [last], by simp [hsplit], hevent⟩
      · exact ⟨events, last, [], rfl, hauthorised, hmakes call hnew⟩

/-- A portal that answers everything, with one session after another. -/
def willingPortal : Portal
  | past, .createSession => .ok (if past.contains .createSession then "session-2" else "session-1")
  | _, .new => .ok ()
  | _, .selectDevices _ _ => .ok ()
  | _, .start _ => .ok ()
  | _, .notifyKeyboardKeysym _ _ _ => .ok ()
  | _, .notifyKeyboardKeycode _ _ _ => .ok ()

def terminalOnly : Allowlist := ⟨[⟨"org.gnome.Terminal", true⟩, ⟨"org.mozilla.firefox", false⟩]⟩

def handEvents : List HandEvent :=
  [.typeText terminalOnly "org.mozilla.firefox" "no", .typeText terminalOnly "org.gnome.Terminal" "a"]

theorem hand_calls_authorised_terminal :
    ∃ before event after, handEvents = before ++ event :: after ∧ event.authorised ∧
      ∃ taken, Answered willingPortal (run (handStep willingPortal) [] before) taken ∧
        (taken ++ [.notifyKeyboardKeysym "session-1" 0x61 .pressed] <+: opening ∨
          ∃ session, Created willingPortal (run (handStep willingPortal) [] before) session ∧
            taken ++ [.notifyKeyboardKeysym "session-1" 0x61 .pressed] <+: event.calls session) :=
  hand_calls_authorised willingPortal handEvents (by decide)

end AiBridge
