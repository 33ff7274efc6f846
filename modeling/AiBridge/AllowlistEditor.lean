import AiBridge.Disk
import AiBridge.Hand
import AiBridge.Runs
import AiBridge.Utf8

namespace AiBridge

open Runs Text

/-- The `toml` crate on the file of the applications: whether a text is TOML at all, and what list it
spells. -/
structure AppToml where
  check : String → Except String Unit
  fromStr : String → Except String Allowlist

/-- The file that the editor saves, the others that the dashboard looks for, and the one that the
daemon boots with. -/
structure AppPaths where
  saved : String
  others : List String
  daemon : String

/-- What a save meets. -/
structure AllowlistSaveIo where
  createDirAll : Option String
  write : Option (Disk.Fault String)

section Files

variable (toml : AppToml) (paths : AppPaths) (unreadable : String → Option String)
  (disk : Disk String UInt8)

/-- `fs::read_to_string`, with the text of the error. -/
def fsReadToString (path : String) : Except String String :=
  match unreadable path with
  | some message => .error message
  | none =>
    match disk.files path with
    | none => .error "No such file or directory (os error 2)"
    | some bytes =>
      match fromUtf8 bytes with
      | none => .error "stream did not contain valid UTF-8"
      | some raw => .ok raw

def Allowlist.load (path : String) : Except String Allowlist :=
  match fsReadToString unreadable disk path with
  | .error message => .error message
  | .ok raw => toml.fromStr raw

/-- The list that the daemon boots with. Where there is none it does not start. -/
def loadAllowlistFromDefaultConfig : Except String Allowlist :=
  Allowlist.load toml unreadable disk paths.daemon

def AppPaths.candidates : List String := paths.saved :: paths.others

/-- The first list that can be loaded decides. -/
def getAllowedAppIds : List String :=
  match paths.candidates.findSome? fun path =>
      (Allowlist.load toml unreadable disk path).toOption with
  | some allowlist => (allowlist.apps.filter AllowlistRule.allowed).map AllowlistRule.appId
  | none => ["org.gnome.Terminal", "org.mozilla.firefox", "org.gnome.Nautilus"]

/-- The first file that is there decides, also where it cannot be read. -/
def loadAllowlistConfig : Except String String :=
  match paths.candidates.find? fun path => (disk.files path).isSome with
  | some path => (fsReadToString unreadable disk path).mapError
      fun message => "Failed to read allowlist: " ++ message
  | none => .error "Allowlist file not found"

/-- The text is saved if it is TOML, whatever it spells. -/
def saveAllowlistConfig (io : AllowlistSaveIo) (input : String) :
    Disk String UInt8 × Except String Unit :=
  match toml.check input with
  | .error message => (disk, .error ("Invalid TOML: " ++ message))
  | .ok () =>
    match io.createDirAll with
    | some message => (disk, .error ("Failed to create config directory: " ++ message))
    | none =>
      let written := disk.write io.write paths.saved (utf8 input)
      (written.1, written.2.mapError fun message => "Failed to write allowlist file: " ++ message)

end Files

/-- The editor of the dashboard, and the files. -/
structure AllowlistEditor where
  allowlistInput : String
  uiMessage : String
  disk : Disk String UInt8

inductive EditorEvent
  | edit (text : String)
  | save (io : AllowlistSaveIo)
  | reload (unreadable : String → Option String)

namespace AllowlistEditor

def opened (disk : Disk String UInt8) : AllowlistEditor where
  allowlistInput := "[[apps]]\nname = \"org.gnome.Terminal\"\nkind = \"executor\""
  uiMessage := ""
  disk := disk

variable (toml : AppToml) (paths : AppPaths) (self : AllowlistEditor)

def step : EditorEvent → AllowlistEditor
  | .edit text => { self with allowlistInput := text }
  | .save io =>
    let saved := saveAllowlistConfig toml paths self.disk io self.allowlistInput
    { self with
      disk := saved.1
      uiMessage :=
        match saved.2 with
        | .ok () => "Allowlist saved successfully"
        | .error message => "Failed to save allowlist: " ++ message }
  | .reload unreadable =>
    match loadAllowlistConfig paths unreadable self.disk with
    | .ok content =>
      { self with allowlistInput := content, uiMessage := "Allowlist reloaded from file" }
    | .error message => { self with uiMessage := "Failed to reload allowlist: " ++ message }

/-- The text that an event has put into the file. -/
def savedText : EditorEvent → Option String
  | .save io =>
    match (saveAllowlistConfig toml paths self.disk io self.allowlistInput).2 with
    | .ok () => some self.allowlistInput
    | .error _ => none
  | _ => none

end AllowlistEditor

/-- The file is written whole or not at all. -/
def EditorEvent.Whole : EditorEvent → Prop
  | .save io => ∀ message taken, io.write ≠ some (.cut message taken)
  | _ => True

section Lemmas

variable {toml : AppToml} {paths : AppPaths} {unreadable : String → Option String}
  {disk : Disk String UInt8} {self : AllowlistEditor} {text : String}

open AllowlistEditor

theorem file_step {event : EditorEvent} (hwhole : event.Whole) :
    (self.step toml paths event).disk.files paths.saved =
      ((self.savedText toml paths event).map fun text => some (utf8 text)).getD
        (self.disk.files paths.saved) := by
  cases event with
  | edit text => rfl
  | reload unreadable =>
    rw [step]
    cases loadAllowlistConfig paths unreadable self.disk <;> rfl
  | save io =>
    simp only [step, savedText, saveAllowlistConfig]
    cases toml.check self.allowlistInput with
    | error message => rfl
    | ok u =>
      cases io.createDirAll with
      | some message => rfl
      | none =>
        cases hwrite : io.write with
        | none => simp [Disk.write, Disk.put, Except.mapError]
        | some fault =>
          cases fault with
          | refused message => rfl
          | cut message taken => exact absurd hwrite (hwhole message taken)

/-- The file holds the text that was saved last. -/
theorem file_run {events : List EditorEvent} (hwhole : ∀ event ∈ events, event.Whole)
    (start : AllowlistEditor) :
    (run (step toml paths) start events).disk.files paths.saved =
      (((outputs (step toml paths) (savedText toml paths) start events).getLast?.map
        fun text => some (utf8 text)).getD (start.disk.files paths.saved)) := by
  induction events using List.reverseRecOn with
  | nil => rfl
  | append_singleton events event ih =>
    rw [run_concat, outputs_concat, file_step (hwhole event (by simp)),
      ih fun other hother => hwhole other (by simp [hother])]
    cases savedText toml paths (run (step toml paths) start events) event with
    | none => simp
    | some text => simp

theorem fsReadToString_of_file {path : String} (hreads : unreadable path = none)
    (hfile : disk.files path = some (utf8 text)) : fsReadToString unreadable disk path = .ok text := by
  simp only [fsReadToString, hreads, hfile, fromUtf8_utf8]

theorem mem_allowed_iff {allowlist : Allowlist} {appId : String} :
    appId ∈ (allowlist.apps.filter AllowlistRule.allowed).map AllowlistRule.appId ↔
      allowlist.isAllowed appId = true := by
  rw [Allowlist.isAllowed, List.any_eq_true, List.mem_map]
  constructor
  · rintro ⟨rule, hrule, happ⟩
    obtain ⟨hmem, hallowed⟩ := List.mem_filter.mp hrule
    exact ⟨rule, hmem, by simp [happ, hallowed]⟩
  · rintro ⟨rule, hmem, hrule⟩
    rw [Bool.and_eq_true, beq_iff_eq] at hrule
    exact ⟨rule, List.mem_filter.mpr ⟨hmem, hrule.2⟩, hrule.1⟩

end Lemmas

open AllowlistEditor

/-- After any session of the editor the text that was saved last decides, where it can be read. A
reload shows it. If it spells a list, the role board offers the applications that the hand is allowed
under that list; if it does not, the board passes over it. A daemon that boots with this file has
that list, or does not start. -/
theorem saved_list_decides {toml : AppToml} {paths : AppPaths} {start : AllowlistEditor}
    {events : List EditorEvent} {text : String} {unreadable : String → Option String}
    (hwhole : ∀ event ∈ events, event.Whole) (hreads : unreadable paths.saved = none)
    (hlast : (outputs (step toml paths) (savedText toml paths) start events).getLast? =
      some text) :
    let disk := (run (step toml paths) start events).disk
    loadAllowlistConfig paths unreadable disk = .ok text ∧
      (∀ allowlist, toml.fromStr text = .ok allowlist → ∀ appId, trim appId ≠ "" →
        (appId ∈ getAllowedAppIds toml paths unreadable disk ↔
          authorizeInjection allowlist appId = .ok ())) ∧
      (∀ message, toml.fromStr text = .error message →
        ∀ appId, appId ∈ getAllowedAppIds toml paths unreadable disk ↔
          match paths.others.findSome? fun path =>
              (Allowlist.load toml unreadable disk path).toOption with
          | some allowlist => allowlist.isAllowed appId = true
          | none => appId ∈ ["org.gnome.Terminal", "org.mozilla.firefox", "org.gnome.Nautilus"]) ∧
      (paths.daemon = paths.saved →
        loadAllowlistFromDefaultConfig toml paths unreadable disk = toml.fromStr text) := by
  intro disk
  have hfile : disk.files paths.saved = some (utf8 text) := by
    have hrun : disk.files paths.saved = _ := file_run hwhole start
    rwa [hlast] at hrun
  have hread := fsReadToString_of_file hreads hfile
  have hload : Allowlist.load toml unreadable disk paths.saved = toml.fromStr text := by
    rw [Allowlist.load, hread]
  refine ⟨?_, ?_, ?_, ?_⟩
  · have hfound : paths.candidates.find? (fun path => (disk.files path).isSome) =
        some paths.saved := by
      simp [AppPaths.candidates, hfile]
    rw [loadAllowlistConfig, hfound]
    simp only [hread]
    rfl
  · intro allowlist hlist appId hnamed
    have hfirst : paths.candidates.findSome? (fun path =>
        (Allowlist.load toml unreadable disk path).toOption) = some allowlist := by
      simp [AppPaths.candidates, hload, hlist, Except.toOption]
    rw [getAllowedAppIds, hfirst, authorizeInjection, ensureAllowedApplication_eq_ok_iff]
    have hblank : (trim appId).isEmpty = false := by simpa using hnamed
    simp only [hblank, true_and]
    exact mem_allowed_iff
  · intro message hbad appId
    have hpassed : paths.candidates.findSome? (fun path =>
        (Allowlist.load toml unreadable disk path).toOption) =
          paths.others.findSome? fun path =>
            (Allowlist.load toml unreadable disk path).toOption := by
      simp [AppPaths.candidates, hload, hbad, Except.toOption]
    rw [getAllowedAppIds, hpassed]
    cases paths.others.findSome? fun path =>
        (Allowlist.load toml unreadable disk path).toOption with
    | none => rfl
    | some allowlist => exact mem_allowed_iff
  · intro hdaemon
    rw [loadAllowlistFromDefaultConfig, hdaemon, hload]

def terminalText : String := "[[apps]]\napp_id = \"org.gnome.Terminal\"\nallowed = true\n"

/-- A crate that knows one list, and takes every text for TOML. -/
def terminalToml : AppToml where
  check _ := .ok ()
  fromStr raw :=
    if raw = terminalText then .ok ⟨[⟨"org.gnome.Terminal", true⟩]⟩
    else .error "missing field app_id"

def appPaths : AppPaths :=
  ⟨"/src/crates/config/allowlist.toml", ["/src/config/allowlist.toml"],
    "/src/config/allowlist.toml"⟩

/-- The text that the editor starts with spells no list, and is saved like another. -/
def editorEvents : List EditorEvent :=
  [.save ⟨none, none⟩, .edit terminalText, .save ⟨none, none⟩]

theorem saved_list_decides_terminal :
    "org.gnome.Terminal" ∈ getAllowedAppIds terminalToml appPaths (fun _ => none)
      (run (step terminalToml appPaths) (.opened ⟨fun _ => none, []⟩) editorEvents).disk := by
  have hwhole : ∀ event ∈ editorEvents, event.Whole := by
    intro event hevent
    simp only [editorEvents, List.mem_cons, List.not_mem_nil, or_false] at hevent
    rcases hevent with rfl | rfl | rfl
    · exact nofun
    · trivial
    · exact nofun
  have hlast : (outputs (step terminalToml appPaths) (savedText terminalToml appPaths)
      (.opened ⟨fun _ => none, []⟩) editorEvents).getLast? = some terminalText := by decide
  have hlist : terminalToml.fromStr terminalText = .ok ⟨[⟨"org.gnome.Terminal", true⟩]⟩ := by
    simp [terminalToml]
  have hreads : (fun _ : String => (none : Option String)) appPaths.saved = none := rfl
  exact ((saved_list_decides hwhole hreads hlast).2.1 _ hlist _ (by decide)).mpr rfl

end AiBridge
