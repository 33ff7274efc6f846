import AiBridge.Disk
import AiBridge.RoleAssignments
import AiBridge.Utf8

namespace AiBridge

open Runs Text

/-- The `toml` crate on the file of the roles. What it has written it reads back. -/
structure RoleToml where
  toString : RoleAssignmentSet → Except String String
  fromStr : String → Except String RoleAssignmentSet
  round : ∀ {set raw}, toString set = .ok raw → fromStr raw = .ok set

/-- Where the file of the roles is saved, and where else it is looked for. -/
structure RolePaths where
  saved : String
  others : List String

/-- What a save meets: a directory that cannot be made, and what goes wrong where it writes. -/
structure RoleSaveIo where
  createDirAll : Option String
  write : Option (Disk.Fault String)

namespace RoleAssignmentSet

variable (toml : RoleToml) (paths : RolePaths)

/-- A file that cannot be read fails with the text of the refusal. -/
def load (refused : Option String) (disk : Disk String UInt8) (path : String) :
    Except String RoleAssignmentSet :=
  match refused with
  | some message => .error message
  | none =>
    match (disk.files path).bind fromUtf8 with
    | none => .error "stream did not contain valid UTF-8"
    | some raw => toml.fromStr raw

/-- The first of the files that exists decides, also where it cannot be read. -/
def loadDefault (refused : Option String) (disk : Disk String UInt8) :
    Except String RoleAssignmentSet :=
  match (paths.saved :: paths.others).find? fun path => (disk.files path).isSome with
  | some path => load toml refused disk path
  | none => .ok ⟨[]⟩

def saveDefault (io : RoleSaveIo) (disk : Disk String UInt8) (self : RoleAssignmentSet) :
    Disk String UInt8 × Except String Unit :=
  match toml.toString self with
  | .error message => (disk, .error message)
  | .ok raw =>
    match io.createDirAll with
    | some message => (disk, .error message)
    | none => disk.write io.write paths.saved (utf8 raw)

end RoleAssignmentSet

/-- The role board of a dashboard that runs, and the files. -/
structure RoleDesk where
  board : RoleBoard
  disk : Disk String UInt8

inductive RoleEvent
  | click (io : RoleSaveIo) (appId : String) (role : BranchRole)
  /-- The dashboard is ended and started again. -/
  | restart (refused : Option String)

namespace RoleDesk

variable (toml : RoleToml) (paths : RolePaths)

/-- `load_default().unwrap_or_default()`. -/
def opened (refused : Option String) (disk : Disk String UInt8) : RoleDesk where
  board := ⟨(RoleAssignmentSet.loadDefault toml paths refused disk).toOption.getD ⟨[]⟩, ""⟩
  disk := disk

/-- The click as a call on the board, with what becomes of the save. -/
def call (self : RoleDesk) (io : RoleSaveIo) (appId : String) (role : BranchRole) : RoleCall where
  saveDefault set := (RoleAssignmentSet.saveDefault toml paths io self.disk set).2
  appId := appId
  role := role

def step (self : RoleDesk) : RoleEvent → RoleDesk
  | .click io appId role =>
    let board := self.board.step (self.call toml paths io appId role)
    { board, disk := (board.roleAssignments.saveDefault toml paths io self.disk).1 }
  | .restart refused => opened toml paths refused self.disk

end RoleDesk

/-- Every app has one entry, and one app at most is the Maestro. -/
structure RoleAssignmentSet.WellFormed (set : RoleAssignmentSet) : Prop where
  distinct : set.Distinct
  sole : KeyedList.Sole .maestro set.roleOf

/-- The set that a click has put into the file. -/
def RoleDesk.savedSet (toml : RoleToml) (paths : RolePaths) (self : RoleDesk) :
    RoleEvent → Option RoleAssignmentSet
  | .click io appId role =>
    let set := (self.board.step (self.call toml paths io appId role)).roleAssignments
    match (set.saveDefault toml paths io self.disk).2 with
    | .ok _ => some set
    | .error _ => none
  | .restart _ => none

/-- The file is written whole or not at all. -/
def RoleEvent.Whole : RoleEvent → Prop
  | .click io _ _ => ∀ message taken, io.write ≠ some (.cut message taken)
  | .restart _ => True

section Lemmas

variable {toml : RoleToml} {paths : RolePaths}

open RoleAssignmentSet

theorem wellFormed_empty : (⟨[]⟩ : RoleAssignmentSet).WellFormed :=
  ⟨List.nodup_nil, fun _ _ h => nomatch h⟩

theorem wellFormed_step {board : RoleBoard} (h : board.roleAssignments.WellFormed)
    (call : RoleCall) : (board.step call).roleAssignments.WellFormed := by
  refine ⟨RoleBoard.step_distinct call h.distinct, ?_⟩
  rw [RoleBoard.step_roleOf]
  exact KeyedList.sole_assign (by simp) h.sole call.appId call.role

theorem wellFormed_open {disk : Disk String UInt8}
    (h : ∀ set, loadDefault toml paths none disk = .ok set → set.WellFormed)
    (refused : Option String) :
    (RoleDesk.opened toml paths refused disk).board.roleAssignments.WellFormed := by
  cases refused with
  | none =>
    cases hload : loadDefault toml paths none disk with
    | error message =>
      rw [RoleDesk.opened, hload]
      exact wellFormed_empty
    | ok set =>
      rw [RoleDesk.opened, hload]
      exact h set hload
  | some message =>
    unfold RoleDesk.opened loadDefault
    cases (paths.saved :: paths.others).find? fun path => (disk.files path).isSome <;>
      exact wellFormed_empty

/-- A set that was saved is the one that is loaded next. A save that fails leaves the file. -/
theorem loadDefault_saveDefault {io : RoleSaveIo}
    (hwhole : ∀ message taken, io.write ≠ some (.cut message taken)) (disk : Disk String UInt8)
    (set : RoleAssignmentSet) :
    loadDefault toml paths none (set.saveDefault toml paths io disk).1 =
      match (set.saveDefault toml paths io disk).2 with
      | .ok _ => .ok set
      | .error _ => loadDefault toml paths none disk := by
  unfold saveDefault
  cases hraw : toml.toString set with
  | error message => rfl
  | ok raw =>
    cases io.createDirAll with
    | some message => rfl
    | none =>
      cases hwrite : io.write with
      | none =>
        have hload : load toml none (disk.store paths.saved (utf8 raw)) paths.saved = .ok set := by
          simp [load, fromUtf8_utf8, toml.round hraw]
        simp [Disk.write, Disk.put, loadDefault, hload]
      | some fault =>
        cases fault with
        | refused message => rfl
        | cut message taken => exact absurd hwrite (hwhole message taken)

theorem loadDefault_step {event : RoleEvent} (hwhole : event.Whole) (self : RoleDesk) :
    loadDefault toml paths none (self.step toml paths event).disk =
      ((self.savedSet toml paths event).map Except.ok).getD
        (loadDefault toml paths none self.disk) := by
  cases event with
  | restart refused => rfl
  | click io appId role =>
    rw [RoleDesk.step, loadDefault_saveDefault hwhole, RoleDesk.savedSet]
    cases (saveDefault toml paths io self.disk
      (self.board.step (self.call toml paths io appId role)).roleAssignments).2 <;> rfl

end Lemmas

section Runs

variable {toml : RoleToml} {paths : RolePaths} {disk : Disk String UInt8} {events : List RoleEvent}

open RoleAssignmentSet

/-- The next start loads the set that was saved last, or what was found at the first one. -/
theorem loadDefault_run (toml : RoleToml) (paths : RolePaths) (hwhole : ∀ event ∈ events, event.Whole)
    (start : RoleDesk) :
    loadDefault toml paths none (run (RoleDesk.step toml paths) start events).disk =
      ((outputs (RoleDesk.step toml paths) (RoleDesk.savedSet toml paths) start events).getLast?.map
        Except.ok).getD (loadDefault toml paths none start.disk) := by
  induction events using List.reverseRecOn with
  | nil => rfl
  | append_singleton events event ih =>
    have hload := ih fun other hother => hwhole other (by simp [hother])
    rw [run_concat, loadDefault_step (hwhole event (by simp)), hload, outputs_concat]
    cases (run (RoleDesk.step toml paths) start events).savedSet toml paths event with
    | none => simp
    | some set => simp

theorem wellFormed_saved {desk : RoleDesk} (h : desk.board.roleAssignments.WellFormed)
    {event : RoleEvent} {set : RoleAssignmentSet}
    (hsaved : desk.savedSet toml paths event = some set) : set.WellFormed := by
  cases event with
  | restart refused => exact nomatch hsaved
  | click io appId role =>
    rw [RoleDesk.savedSet] at hsaved
    split at hsaved
    · rw [← Option.some.inj hsaved]
      exact wellFormed_step h _
    · exact nomatch hsaved

/-- What is well-formed at the first start stays so. -/
theorem wellFormed_run (hwhole : ∀ event ∈ events, event.Whole)
    (hfound : ∀ set, loadDefault toml paths none disk = .ok set → set.WellFormed) :
    (run (RoleDesk.step toml paths) (.opened toml paths none disk) events).board.roleAssignments.WellFormed ∧
      ∀ set ∈ outputs (RoleDesk.step toml paths) (RoleDesk.savedSet toml paths)
        (.opened toml paths none disk) events, set.WellFormed := by
  induction events using List.reverseRecOn with
  | nil => exact ⟨wellFormed_open hfound none, fun set h => nomatch h⟩
  | append_singleton events event ih =>
    have hpast : ∀ other ∈ events, other.Whole := fun other hother => hwhole other (by simp [hother])
    obtain ⟨hboard, hsaved⟩ := ih hpast
    have hload := loadDefault_run toml paths hpast (.opened toml paths none disk)
    rw [run_concat, outputs_concat]
    generalize run (RoleDesk.step toml paths) (.opened toml paths none disk) events = desk at *
    generalize outputs (RoleDesk.step toml paths) (RoleDesk.savedSet toml paths)
      (.opened toml paths none disk) events = saved at *
    have hnow : ∀ set, loadDefault toml paths none desk.disk = .ok set → set.WellFormed := by
      intro set hset
      rw [hload] at hset
      cases hlast : saved.getLast? with
      | none =>
        rw [hlast] at hset
        exact hfound set hset
      | some last =>
        rw [hlast] at hset
        rw [← Except.ok.inj hset]
        exact hsaved last (List.mem_of_getLast? hlast)
    refine ⟨?_, ?_⟩
    · cases event with
      | click io appId role => exact wellFormed_step hboard _
      | restart refused => exact wellFormed_open hnow refused
    · intro set hset
      rcases List.mem_append.mp hset with hold | hlast
      · exact hsaved set hold
      · exact wellFormed_saved hboard (Option.mem_toList.mp hlast)

end Runs

/-- Through any clicks and restarts, with saves that fail and files that cannot be read, the next start
loads the set that was saved last, unchanged. If what was found at the first start gives every app one
role and makes one app at most the Maestro, then so do the board and all that is saved. -/
theorem roles_survive_restarts {toml : RoleToml} {paths : RolePaths} {disk : Disk String UInt8}
    {events : List RoleEvent} (hwhole : ∀ event ∈ events, event.Whole) :
    let desk := run (RoleDesk.step toml paths) (.opened toml paths none disk) events
    let saved := outputs (RoleDesk.step toml paths) (RoleDesk.savedSet toml paths)
      (.opened toml paths none disk) events
    RoleAssignmentSet.loadDefault toml paths none desk.disk =
        (saved.getLast?.map Except.ok).getD (RoleAssignmentSet.loadDefault toml paths none disk) ∧
      ((∀ set, RoleAssignmentSet.loadDefault toml paths none disk = .ok set → set.WellFormed) →
        desk.board.roleAssignments.WellFormed ∧ ∀ set ∈ saved, set.WellFormed) :=
  ⟨loadDefault_run toml paths hwhole _, wellFormed_run hwhole⟩

/-- A crate that knows one set. -/
def knownRoleToml (set : RoleAssignmentSet) (raw : String) : RoleToml where
  toString other := if other = set then .ok raw else .error "unsupported value"
  fromStr text := if text = raw then .ok set else .error "unexpected text"
  round := by
    intro other text h
    split at h
    next hset => rw [if_pos (Except.ok.inj h).symm, hset]
    next => exact nomatch h

def terminalRoles : RoleAssignmentSet := ⟨[⟨"org.gnome.Terminal", .maestro⟩]⟩

def rolePaths : RolePaths := ⟨"crates/config/roles.toml", ["config/roles.toml"]⟩

def rolesToml : RoleToml := knownRoleToml terminalRoles "terminal = maestro"

/-- The second click is not saved, since the disk refuses it, and the restart finds the first. -/
def roleEvents : List RoleEvent :=
  [.click ⟨none, none⟩ "org.gnome.Terminal" .maestro,
    .click ⟨none, some (.refused "disk full")⟩ "org.gnome.Terminal" .none, .restart none]

theorem roles_survive_restarts_terminal :
    RoleAssignmentSet.loadDefault rolesToml rolePaths none
        (run (RoleDesk.step rolesToml rolePaths)
          (.opened rolesToml rolePaths none ⟨fun _ => none, []⟩) roleEvents).disk =
      .ok terminalRoles ∧
    (run (RoleDesk.step rolesToml rolePaths)
      (.opened rolesToml rolePaths none ⟨fun _ => none, []⟩) roleEvents).board.roleAssignments.WellFormed := by
  have hfound : ∀ set, RoleAssignmentSet.loadDefault rolesToml rolePaths none ⟨fun _ => none, []⟩ =
      .ok set → set.WellFormed := by
    intro set hset
    rw [← Except.ok.inj hset]
    exact wellFormed_empty
  have hwhole : ∀ event ∈ roleEvents, event.Whole := by
    intro event hevent
    simp only [roleEvents, List.mem_cons, List.not_mem_nil, or_false] at hevent
    rcases hevent with rfl | rfl | rfl
    · exact fun message taken h => nomatch h
    · exact fun message taken h => nomatch h
    · exact trivial
  have hsaved : outputs (RoleDesk.step rolesToml rolePaths) (RoleDesk.savedSet rolesToml rolePaths)
      (.opened rolesToml rolePaths none ⟨fun _ => none, []⟩) roleEvents = [terminalRoles] := by
    decide
  obtain ⟨hload, hroles⟩ :=
    @roles_survive_restarts rolesToml rolePaths ⟨fun _ => none, []⟩ roleEvents hwhole
  rw [hsaved] at hload
  exact ⟨hload, (hroles hfound).1⟩

end AiBridge
