import AiBridge.Backups
import AiBridge.Decimal
import AiBridge.PanelSaves

namespace AiBridge

open Text

/-- A call of `write_with_backup`, with the clock and what goes wrong where it writes. -/
structure SaveCall where
  circ : Circumstances
  contents : String

section Saves

variable (dir file : String)

def saveStep (disk : FileSystem) (call : SaveCall) : FileSystem :=
  (writeWithBackup call.circ dir file call.contents disk).1

def backupPath (seconds : Nat) : String := ExecutorAllowlist.join dir (backupName file seconds)

/-- The bytes that a call copies of what the file holds. -/
def SaveCall.copied (call : SaveCall) (held : Option (List UInt8)) : Option (List UInt8) :=
  held.bind fun bytes =>
    match call.circ.backup with
    | none => some bytes
    | some (.refused _) => none
    | some (.cut _ taken) => some (bytes.dropLast.take taken)

variable {dir file} {disk : FileSystem} {call : SaveCall}

theorem backupPath_inj {seconds seconds' : Nat} :
    backupPath dir file seconds = backupPath dir file seconds' ↔ seconds = seconds' := by
  rw [backupPath, backupPath, join_inj, backupName, backupName]
  constructor
  · intro h
    have hlist := congrArg String.toList h
    simp only [String.toList_append] at hlist
    have htail := List.append_cancel_left (List.append_cancel_left hlist)
    exact Decimal.toString_injective (String.toList_injective htail)
  · intro h
    rw [h]

theorem backupPath_ne {seconds : Nat} : backupPath dir file seconds ≠ ExecutorAllowlist.join dir file :=
  fun h => backupName_ne (join_inj.mp h)

/-- The backup is the copy of the file, if one is made. -/
theorem files_backupConfig : (backupConfig call.circ dir file disk).1.files
      (backupPath dir file call.circ.seconds) =
    (call.copied (disk.files (ExecutorAllowlist.join dir file))).or
      (disk.files (backupPath dir file call.circ.seconds)) := by
  unfold backupConfig SaveCall.copied
  cases disk.files (ExecutorAllowlist.join dir file) with
  | none => rfl
  | some bytes =>
    rw [Option.bind_some]
    cases hfault : call.circ.backup with
    | none =>
      simp only [Disk.write, Disk.put_none, List.nil_append, Option.some_or]
      exact Disk.files_store_self
    | some fault =>
      cases fault with
      | refused error => rfl
      | cut error taken =>
        simp only [Disk.write, Disk.put, List.nil_append, Option.some_or]
        exact Disk.files_store_self

theorem mem_backupPlaces {place : String} (h : place ∈ backupPlaces call.circ dir file disk) :
    place = backupPath dir file call.circ.seconds := by
  rw [backupPlaces] at h
  split at h
  · simp at h
  · exact Disk.Fault.eq_of_mem_places h

/-- The file itself is written behind the backups. -/
theorem files_saveStep_backup (seconds : Nat) :
    (saveStep dir file disk call).files (backupPath dir file seconds) =
      (backupConfig call.circ dir file disk).1.files (backupPath dir file seconds) := by
  by_cases hprepared : Prepared call.circ dir file disk
  · rw [saveStep, writeWithBackup_of_prepared hprepared]
    apply Disk.touches_put.files
    intro hmem
    exact backupPath_ne (Disk.Fault.eq_of_mem_places hmem)
  · rw [saveStep, (writeWithBackup_of_unprepared hprepared).1]

theorem saveStep_copies (seconds : Nat) :
    (saveStep dir file disk call).files (backupPath dir file seconds) =
      if seconds = call.circ.seconds then
        (call.copied (disk.files (ExecutorAllowlist.join dir file))).or
          (disk.files (backupPath dir file seconds))
      else disk.files (backupPath dir file seconds) := by
  rw [files_saveStep_backup]
  by_cases hsecond : seconds = call.circ.seconds
  · rw [if_pos hsecond, hsecond, files_backupConfig]
  · rw [if_neg hsecond]
    apply touches_backupConfig.files
    intro hmem
    exact hsecond (backupPath_inj.mp (mem_backupPlaces hmem))

/-- A call that changes the file has copied all of it before. -/
theorem saveStep_current : (saveStep dir file disk call).files (ExecutorAllowlist.join dir file) =
      disk.files (ExecutorAllowlist.join dir file) ∨
    disk.files (ExecutorAllowlist.join dir file) = none ∨
    call.copied (disk.files (ExecutorAllowlist.join dir file)) =
      disk.files (ExecutorAllowlist.join dir file) := by
  by_cases hprepared : Prepared call.circ dir file disk
  · rcases hprepared.1 with hnone | hbackup
    · exact Or.inr (Or.inl hnone)
    · right
      right
      rw [SaveCall.copied, hbackup]
      cases disk.files (ExecutorAllowlist.join dir file) with
      | none => rfl
      | some bytes => rfl
  · left
    rw [saveStep, (writeWithBackup_of_unprepared hprepared).1]
    exact touches_backupConfig.files _ not_mem_backupPlaces

/-- The file and its backups by their seconds. -/
def saveKeeper (dir file : String) : Backups.Keeper (saveStep dir file) (List UInt8) Nat where
  current disk := disk.files (ExecutorAllowlist.join dir file)
  copies disk seconds := disk.files (backupPath dir file seconds)
  stamp call := call.circ.seconds
  copied disk call := call.copied (disk.files (ExecutorAllowlist.join dir file))
  copies_step _ _ seconds := saveStep_copies seconds
  current_step _ _ := saveStep_current

end Saves

section Versions

variable (dir file : String) (disk : FileSystem) (calls : List SaveCall)

/-- The disk after the calls. -/
def saves : FileSystem := Runs.run (saveStep dir file) disk calls

/-- What the file holds after the calls. -/
def heldAfter : Option (List UInt8) :=
  (saves dir file disk calls).files (ExecutorAllowlist.join dir file)

/-- The call after the first ones makes a backup, of these bytes. -/
def BacksUp (call : SaveCall) (bytes : List UInt8) : Prop :=
  call.copied (heldAfter dir file disk calls) = some bytes

/-- After each call every content that the file had before it is in the file, or in a backup that
one of the calls has made. -/
def VersionsKept : Prop :=
  ∀ before call after, calls = before ++ call :: after →
    ∀ front rest, before = front ++ rest → ∀ bytes, heldAfter dir file disk front = some bytes →
      heldAfter dir file disk (before ++ [call]) = some bytes ∨
      ∃ first other later, before ++ [call] = first ++ other :: later ∧
        (∃ copy, BacksUp dir file disk first other copy) ∧
        (saves dir file disk (before ++ [call])).files
          (backupPath dir file other.circ.seconds) = some bytes

/-- No backup is made over another one with a different content. -/
def BackupsKept : Prop :=
  ∀ before call middle next after, calls = before ++ call :: (middle ++ next :: after) →
    call.circ.seconds = next.circ.seconds → (∃ copy, BacksUp dir file disk before call copy) →
    ∀ bytes, BacksUp dir file disk (before ++ call :: middle) next bytes →
      (saves dir file disk (before ++ call :: middle)).files
        (backupPath dir file next.circ.seconds) = some bytes

end Versions

/-- All versions of the file are kept and no backup is lost exactly if any two calls that make a
backup in the same second make it of the same bytes. -/
theorem versions_kept_iff (dir file : String) (disk : FileSystem) (calls : List SaveCall) :
    VersionsKept dir file disk calls ∧ BackupsKept dir file disk calls ↔
      ∀ before call middle next after, calls = before ++ call :: (middle ++ next :: after) →
        call.circ.seconds = next.circ.seconds →
        ∀ bytes bytes', BacksUp dir file disk before call bytes →
          BacksUp dir file disk (before ++ call :: middle) next bytes' → bytes = bytes' := by
  have hkept : VersionsKept dir file disk calls ↔ (saveKeeper dir file).Keeps disk calls := by
    unfold VersionsKept Backups.Keeper.Keeps
    simp only [BacksUp, ← Option.ne_none_iff_exists']
    exact Iff.rfl
  have hbackups : BackupsKept dir file disk calls ↔
      (saveKeeper dir file).Undisturbed disk calls := by
    unfold BackupsKept Backups.Keeper.Undisturbed
    simp only [BacksUp, ← Option.ne_none_iff_exists']
    exact Iff.rfl
  rw [hkept, hbackups]
  exact Backups.Keeper.keeps_and_undisturbed_iff

def hurried : List SaveCall := [⟨.calm, "second"⟩, ⟨.calm, "third"⟩]

def firstDisk : FileSystem :=
  ⟨fun place => if place = "/etc/ai-bridge/criteria.toml" then some (utf8 "first") else none, []⟩

theorem held_hurried : heldAfter "/etc/ai-bridge" "criteria.toml" firstDisk [] = some (utf8 "first") ∧
    heldAfter "/etc/ai-bridge" "criteria.toml" firstDisk hurried = some (utf8 "third") ∧
    (saves "/etc/ai-bridge" "criteria.toml" firstDisk hurried).files
      (backupPath "/etc/ai-bridge" "criteria.toml" Circumstances.calm.seconds) =
        some (utf8 "second") := by
  decide +kernel

/-- Two saves in one second, and the first content is nowhere any more. -/
theorem first_version_lost :
    ¬VersionsKept "/etc/ai-bridge" "criteria.toml" firstDisk hurried := by
  intro h
  obtain ⟨hfirst, hheld, hbackup⟩ := held_hurried
  have hseconds : ∀ call ∈ hurried, call.circ.seconds = Circumstances.calm.seconds := by
    simp [hurried]
  rcases h [⟨.calm, "second"⟩] ⟨.calm, "third"⟩ [] rfl [] _ rfl (utf8 "first") hfirst with
    hstill | ⟨first, other, later, hsplit, _, hcopy⟩
  · rw [show [⟨.calm, "second"⟩] ++ [⟨.calm, "third"⟩] = hurried from rfl, hheld] at hstill
    exact absurd hstill (by decide)
  · have hother : other ∈ hurried := by
      rw [show hurried = first ++ other :: later from hsplit]
      simp
    rw [hseconds other hother, show [⟨.calm, "second"⟩] ++ [⟨.calm, "third"⟩] = hurried from rfl,
      hbackup] at hcopy
    exact absurd hcopy (by decide)

end AiBridge
