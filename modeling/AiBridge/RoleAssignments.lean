import AiBridge.KeyedList
import AiBridge.Runs

namespace AiBridge

/-- The roles of the dashboard. -/
inductive BranchRole
  | none
  | maestro
  | branchA
  | branchB
  deriving DecidableEq, Repr

/-- `{:?}` of a role. -/
def BranchRole.debug : BranchRole → String
  | none => "None"
  | maestro => "Maestro"
  | branchA => "BranchA"
  | branchB => "BranchB"

structure RoleAssignment where
  appId : String
  role : BranchRole
  deriving DecidableEq, Repr

structure RoleAssignmentSet where
  roles : List RoleAssignment
  deriving DecidableEq, Repr

namespace RoleAssignmentSet

open KeyedList

def setRole (self : RoleAssignmentSet) (appId : String) (role : BranchRole) : RoleAssignmentSet :=
  if role = .none then ⟨remove RoleAssignment.appId self.roles appId⟩
  else ⟨remove RoleAssignment.appId self.roles appId ++ [⟨appId, role⟩]⟩

def currentMaestro (self : RoleAssignmentSet) : Option RoleAssignment :=
  self.roles.find? fun entry => decide (entry.role = .maestro)

/-- The loop that takes the role from the other apps. -/
def demote (appId : String) (entry : RoleAssignment) : RoleAssignment :=
  if entry.role = .maestro ∧ entry.appId ≠ appId then { entry with role := .none } else entry

def crown (entry : RoleAssignment) : RoleAssignment := { entry with role := .maestro }

def promoteMaestro (self : RoleAssignmentSet) (appId : String) : RoleAssignmentSet :=
  let roles := self.roles.map (demote appId)
  match modifyFirst RoleAssignment.appId crown appId roles with
  | some roles => ⟨roles⟩
  | none => ⟨roles ++ [⟨appId, .maestro⟩]⟩

/-- The role that the first entry of an app gives it. -/
def roleOf (self : RoleAssignmentSet) (appId : String) : BranchRole :=
  ((lookup RoleAssignment.appId self.roles appId).map RoleAssignment.role).getD .none

/-- No app has two entries. -/
def Distinct (self : RoleAssignmentSet) : Prop :=
  (self.roles.map RoleAssignment.appId).Nodup

/-- What the apps are assigned after one call: the app has the role, and a Maestro before it has
none. -/
def assigned : (String → BranchRole) → String → BranchRole → String → BranchRole :=
  assign .maestro .none

variable {self : RoleAssignmentSet} {appId : String} {role : BranchRole}

theorem role_of_mem (h : self.Distinct) {entry : RoleAssignment} (hmem : entry ∈ self.roles) :
    self.roleOf entry.appId = entry.role := by
  rw [roleOf, lookup_of_mem h hmem, Option.map_some, Option.getD_some]

theorem mem_of_roleOf (h : self.roleOf appId ≠ .none) : ⟨appId, self.roleOf appId⟩ ∈ self.roles := by
  cases hfound : lookup RoleAssignment.appId self.roles appId with
  | none =>
    rw [roleOf, hfound] at h
    exact absurd rfl h
  | some entry =>
    have hentry : (⟨appId, self.roleOf appId⟩ : RoleAssignment) = entry := by
      rw [roleOf, hfound, Option.map_some, Option.getD_some, ← key_of_lookup hfound]
    rw [hentry]
    exact mem_of_lookup hfound

theorem setRole_distinct (h : self.Distinct) : (self.setRole appId role).Distinct := by
  have hkept : ((remove RoleAssignment.appId self.roles appId).map RoleAssignment.appId).Nodup :=
    nodup_remove h
  rw [Distinct, setRole]
  split
  · exact hkept
  · exact nodup_concat hkept (lookup_eq_none_iff.mp lookup_remove_self)

/-- The entry of the app is taken out and, unless it is to have no role, put back at the end. -/
theorem setRole_roleOf (hrole : role ≠ .maestro) (app : String) :
    (self.setRole appId role).roleOf app = assigned self.roleOf appId role app := by
  have hplain : assigned self.roleOf appId role app =
      if app = appId then role else self.roleOf app := by
    rw [assigned, assign]
    simp [hrole]
  rw [hplain, roleOf, setRole]
  by_cases hnone : role = .none
  · rw [if_pos hnone]
    by_cases happ : app = appId
    · rw [if_pos happ, happ, lookup_remove_self, hnone]
      rfl
    · rw [if_neg happ, lookup_remove_of_ne happ]
      rfl
  · have hgone : appId ∉ (remove RoleAssignment.appId self.roles appId).map RoleAssignment.appId :=
      lookup_eq_none_iff.mp lookup_remove_self
    rw [if_neg hnone, lookup_concat hgone]
    by_cases happ : app = appId
    · rw [if_pos happ, if_pos happ]
      rfl
    · rw [if_neg happ, if_neg happ, lookup_remove_of_ne happ]
      rfl

theorem demote_appId (entry : RoleAssignment) : (demote appId entry).appId = entry.appId := by
  rw [demote]
  split
  · rfl
  · rfl

theorem crown_appId (entry : RoleAssignment) : (crown entry).appId = entry.appId := rfl

theorem demote_roleOf (app : String) : roleOf ⟨self.roles.map (demote appId)⟩ app =
    if self.roleOf app = .maestro ∧ app ≠ appId then .none else self.roleOf app := by
  rw [roleOf, lookup_map demote_appId, roleOf]
  cases hfound : lookup RoleAssignment.appId self.roles app with
  | none => simp
  | some entry =>
    have hkey := key_of_lookup hfound
    simp only [Option.map_some, Option.getD_some, demote, hkey]
    split
    · rfl
    · rfl

theorem promoteMaestro_distinct (h : self.Distinct) : (self.promoteMaestro appId).Distinct := by
  have hkeys : (self.roles.map (demote appId)).map RoleAssignment.appId =
      self.roles.map RoleAssignment.appId := map_key_map demote_appId
  rw [Distinct, promoteMaestro]
  split
  next roles hroles =>
    have hsame := (modifyFirst_spec crown_appId hroles).1
    rw [hsame, hkeys]
    exact h
  next hroles =>
    have hfresh := modifyFirst_eq_none_iff.mp hroles
    exact nodup_concat (by rw [hkeys]; exact h) hfresh

/-- The others are demoted where they stand, and the app is promoted where it stands or at the end. -/
theorem promoteMaestro_roleOf (app : String) :
    (self.promoteMaestro appId).roleOf app = assigned self.roleOf appId .maestro app := by
  have hassigned : assigned self.roleOf appId .maestro app =
      if app = appId then .maestro else roleOf ⟨self.roles.map (demote appId)⟩ app := by
    rw [demote_roleOf, assigned, assign]
    by_cases happ : app = appId
    · simp [happ]
    · simp [happ]
  rw [hassigned, promoteMaestro]
  split
  next roles hroles =>
    have hlookup := (modifyFirst_spec crown_appId hroles).2 app
    rw [roleOf, hlookup]
    by_cases happ : app = appId
    · have hlisted : lookup RoleAssignment.appId (self.roles.map (demote appId)) app ≠ none := by
        rw [ne_eq, lookup_eq_none_iff, happ, ← modifyFirst_eq_none_iff, hroles]
        simp
      obtain ⟨entry, hentry⟩ := Option.ne_none_iff_exists'.mp hlisted
      rw [if_pos happ, if_pos happ, hentry]
      rfl
    · rw [if_neg happ, if_neg happ]
      rfl
  next hroles =>
    rw [roleOf, lookup_concat (modifyFirst_eq_none_iff.mp hroles)]
    by_cases happ : app = appId
    · rw [if_pos happ, if_pos happ]
      rfl
    · rw [if_neg happ, if_neg happ]
      rfl

end RoleAssignmentSet

/-- The part of the dashboard that shows and changes the roles. -/
structure RoleBoard where
  roleAssignments : RoleAssignmentSet
  uiMessage : String
  deriving DecidableEq, Repr

namespace RoleBoard

def roleOptionsForApp (self : RoleBoard) (appId : String) : BranchRole :=
  ((self.roleAssignments.roles.find? fun entry => decide (entry.appId = appId)).map
    RoleAssignment.role).getD .none

/-- `saveDefault` is what becomes of writing the assignments to `config/roles.toml`. -/
def setRoleForApp (saveDefault : RoleAssignmentSet → Except String Unit) (self : RoleBoard)
    (appId : String) (role : BranchRole) : RoleBoard :=
  let roleAssignments :=
    match role with
    | .maestro => self.roleAssignments.promoteMaestro appId
    | _ => self.roleAssignments.setRole appId role
  let uiMessage :=
    match saveDefault roleAssignments with
    | .error err => "Role update failed to save: " ++ err
    | .ok () => "Role updated: " ++ appId ++ " -> " ++ role.debug
  ⟨roleAssignments, uiMessage⟩

end RoleBoard

/-- A click on a role of an app. -/
structure RoleCall where
  saveDefault : RoleAssignmentSet → Except String Unit
  appId : String
  role : BranchRole

namespace RoleBoard

open RoleAssignmentSet

def step (self : RoleBoard) (call : RoleCall) : RoleBoard :=
  setRoleForApp call.saveDefault self call.appId call.role

/-- The assignment that a list of calls makes, from one in which no app has a role. -/
def assignedBy (calls : List RoleCall) : String → BranchRole :=
  Runs.run (fun f call => assigned f call.appId call.role) (fun _ => .none) calls

theorem roleOptionsForApp_eq (self : RoleBoard) :
    self.roleOptionsForApp = self.roleAssignments.roleOf := rfl

theorem step_roleAssignments (self : RoleBoard) (call : RoleCall) :
    (self.step call).roleAssignments =
      if call.role = .maestro then self.roleAssignments.promoteMaestro call.appId
      else self.roleAssignments.setRole call.appId call.role := by
  unfold step setRoleForApp
  cases call.role with
  | maestro => rfl
  | none => rfl
  | branchA => rfl
  | branchB => rfl

theorem step_distinct {self : RoleBoard} (call : RoleCall) (h : self.roleAssignments.Distinct) :
    (self.step call).roleAssignments.Distinct := by
  rw [step_roleAssignments]
  split
  · exact promoteMaestro_distinct h
  · exact setRole_distinct h

/-- One call makes the assignment that it is asked for. -/
theorem step_roleOf (self : RoleBoard) (call : RoleCall) :
    (self.step call).roleAssignments.roleOf =
      assigned self.roleAssignments.roleOf call.appId call.role := by
  funext app
  rw [step_roleAssignments]
  split
  next hmaestro => rw [hmaestro, promoteMaestro_roleOf]
  next hother => rw [setRole_roleOf hother]

theorem assignedBy_sole (calls : List RoleCall) :
    KeyedList.Sole .maestro (assignedBy calls) := by
  apply Runs.run_forall
  · intro f call h
    exact KeyedList.sole_assign (by simp) h call.appId call.role
  · intro first second hfirst
    simp at hfirst

/-- After any calls on an empty set the entries are distinct and say what the calls assign. -/
theorem run_roles (calls : List RoleCall) (uiMessage : String) :
    (Runs.run step ⟨⟨[]⟩, uiMessage⟩ calls).roleAssignments.Distinct ∧
      (Runs.run step ⟨⟨[]⟩, uiMessage⟩ calls).roleAssignments.roleOf = assignedBy calls := by
  constructor
  · apply Runs.run_forall (I := fun self : RoleBoard => self.roleAssignments.Distinct)
    · intro self call h
      exact step_distinct call h
    · exact List.nodup_nil
  · exact Runs.run_proj (f := fun self : RoleBoard => self.roleAssignments.roleOf) step_roleOf

end RoleBoard

namespace RoleAssignmentSet

variable {self : RoleAssignmentSet}

theorem mem_of_roleOf_maestro {app : String} :
    self.roleOf app = .maestro → ⟨app, .maestro⟩ ∈ self.roles := by
  intro h
  have hmem : ⟨app, self.roleOf app⟩ ∈ self.roles := mem_of_roleOf (by simp [h])
  rw [h] at hmem
  exact hmem

theorem currentMaestro_isSome_iff (h : self.Distinct) :
    self.currentMaestro.isSome ↔ ∃ app, self.roleOf app = .maestro := by
  rw [currentMaestro, List.find?_isSome]
  constructor
  · intro hsome
    obtain ⟨entry, hmem, hrole⟩ := hsome
    exact ⟨entry.appId, (role_of_mem h hmem).trans (of_decide_eq_true hrole)⟩
  · intro hsome
    obtain ⟨app, happ⟩ := hsome
    exact ⟨_, mem_of_roleOf_maestro happ, by simp⟩

theorem roleOf_currentMaestro (h : self.Distinct) {entry : RoleAssignment}
    (hfound : self.currentMaestro = some entry) : self.roleOf entry.appId = .maestro := by
  have hrole := List.find?_some hfound
  have hmem := List.mem_of_find?_eq_some hfound
  exact (role_of_mem h hmem).trans (of_decide_eq_true hrole)

/-- Where one app at most is assigned the role, one entry at most has it. -/
theorem countP_maestro_le (h : self.Distinct) (hsole : KeyedList.Sole .maestro self.roleOf) :
    self.roles.countP (fun entry => decide (entry.role = .maestro)) ≤ 1 := by
  have hnodup : (self.roles.filter fun entry => decide (entry.role = .maestro)).Nodup :=
    (List.Nodup.of_map _ h).filter _
  have hsame : ∀ first ∈ self.roles.filter fun entry => decide (entry.role = .maestro),
      ∀ second ∈ self.roles.filter fun entry => decide (entry.role = .maestro), first = second := by
    intro first hfirst second hsecond
    obtain ⟨hfirst_mem, hfirst_role⟩ := List.mem_filter.mp hfirst
    obtain ⟨hsecond_mem, hsecond_role⟩ := List.mem_filter.mp hsecond
    have happ := hsole _ _ ((role_of_mem h hfirst_mem).trans (of_decide_eq_true hfirst_role))
      ((role_of_mem h hsecond_mem).trans (of_decide_eq_true hsecond_role))
    exact List.inj_on_of_nodup_map h hfirst_mem hsecond_mem happ
  rw [List.countP_eq_length_filter]
  cases hlist : self.roles.filter fun entry => decide (entry.role = .maestro) with
  | nil => simp
  | cons first rest =>
    cases rest with
    | nil => simp
    | cons second rest =>
      rw [hlist] at hnodup hsame
      have heq := hsame first (by simp) second (by simp)
      rw [heq] at hnodup
      simp at hnodup

end RoleAssignmentSet

/-- The role assignments refine a function from apps to roles with one Maestro: every app shows the
role it was assigned, a new Maestro takes the role from the one before, and the one that is found
is the one that holds it. -/
theorem role_assignments_refine (calls : List RoleCall) (uiMessage : String) :
    let self := Runs.run RoleBoard.step ⟨⟨[]⟩, uiMessage⟩ calls
    (self.roleAssignments.roles.map RoleAssignment.appId).Nodup ∧
      self.roleAssignments.roles.countP (fun entry => decide (entry.role = .maestro)) ≤ 1 ∧
      (∀ app, self.roleOptionsForApp app = RoleBoard.assignedBy calls app) ∧
      (self.roleAssignments.currentMaestro.isSome ↔
        ∃ app, RoleBoard.assignedBy calls app = .maestro) ∧
      ∀ entry, self.roleAssignments.currentMaestro = some entry →
        ∀ app, RoleBoard.assignedBy calls app = .maestro ↔ app = entry.appId := by
  intro self
  obtain ⟨hdistinct, hroles⟩ := RoleBoard.run_roles calls uiMessage
  have hsole := RoleBoard.assignedBy_sole calls
  refine ⟨hdistinct, ?_, ?_, ?_, ?_⟩
  · exact RoleAssignmentSet.countP_maestro_le hdistinct (by rw [hroles]; exact hsole)
  · intro app
    rw [RoleBoard.roleOptionsForApp_eq, hroles]
  · rw [RoleAssignmentSet.currentMaestro_isSome_iff hdistinct, hroles]
  · intro entry hfound app
    have hholds := RoleAssignmentSet.roleOf_currentMaestro hdistinct hfound
    rw [hroles] at hholds
    constructor
    · intro happ
      exact hsole app entry.appId happ hholds
    · intro happ
      rw [happ]
      exact hholds

/-- Two promotions and a removal. -/
example :
    let click appId role : RoleCall := ⟨fun _ => .ok (), appId, role⟩
    (Runs.run RoleBoard.step ⟨⟨[]⟩, ""⟩
      [click "terminal" .maestro, click "firefox" .branchA, click "firefox" .maestro,
        click "terminal" .none]).roleAssignments = ⟨[⟨"firefox", .maestro⟩]⟩ := by
  decide

end AiBridge
