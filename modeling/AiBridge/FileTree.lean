import AiBridge.UnixPath

open UnixPath

/-- An entry of a file system: a file, a symbolic link with the path that it holds, or a
directory. -/
inductive FileTree
  | file
  | link (target : String)
  | dir (entries : List (Name × FileTree))

namespace FileTree

def get? : FileTree → List Name → Option FileTree
  | node, [] => some node
  | dir entries, name :: names => (entries.lookup name).bind fun node => node.get? names
  | _, _ :: _ => none

inductive Failure
  | missing
  | notDirectory
  | tooManyLinks
  deriving DecidableEq, Repr

/-- Each step is taken from a directory. `follow` goes on from a link to the rest of the steps. -/
def walkWith (root : FileTree)
    (follow : String → List Component → List Name → Except Failure (List Name)) :
    List Component → List Name → Except Failure (List Name)
  | [], here => .ok here
  | step :: steps, here =>
    match root.get? here with
    | some (dir entries) =>
      match step with
      | .rootDir => walkWith root follow steps []
      | .curDir => walkWith root follow steps here
      | .parentDir => walkWith root follow steps here.dropLast
      | .normal name =>
        match entries.lookup name with
        | none => .error .missing
        | some (link target) => follow target steps here
        | some _ => walkWith root follow steps (here ++ [name])
    | _ => .error .notDirectory

/-- The walk along a path that meets so many links at most. -/
def walk (root : FileTree) : Nat → List Component → List Name → Except Failure (List Name)
  | 0 => walkWith root fun _ _ _ => .error .tooManyLinks
  | links + 1 => walkWith root fun target rest here =>
    if target = "" then .error .missing
    else walk root links (steps target ++ rest) (if isAbsolute target then [] else here)

def linkLimit : Nat := 40

/-- The names of what a path leads to, if it is there. -/
def realPath (root : FileTree) (workDir : Option (List Name)) (path : String) :
    Except Failure (List Name) :=
  if path = "" then .error .missing
  else if isAbsolute path then walk root linkLimit (steps path) []
  else
    match workDir with
    | none => .error .missing
    | some here => walk root linkLimit (steps path) here

/-- Something other than a link is reached by the names alone. -/
def IsPlace (root : FileTree) (names : List Name) : Prop :=
  ∃ node, root.get? names = some node ∧ ∀ target, node ≠ link target

variable {root : FileTree} {names here more : List Name} {entries : List (Name × FileTree)}
  {follow : String → List Component → List Name → Except Failure (List Name)}
  {workDir : Option (List Name)} {path : String}

theorem get?_append : root.get? (here ++ more) = (root.get? here).bind fun node => node.get? more := by
  induction here generalizing root with
  | nil => rfl
  | cons name here ih =>
    cases root with
    | file => rfl
    | link target => rfl
    | dir entries =>
      rw [List.cons_append, get?, get?]
      cases entries.lookup name with
      | none => rfl
      | some node => exact ih

/-- What has entries below it is a directory. -/
theorem get?_cons {name : Name} {node : FileTree} (h : root.get? (name :: names) = some node) :
    ∃ entries below, root = dir entries ∧ entries.lookup name = some below ∧
      below.get? names = some node := by
  cases root with
  | file => exact absurd h (Option.some_ne_none node).symm
  | link target => exact absurd h (Option.some_ne_none node).symm
  | dir entries =>
    rw [get?, Option.bind_eq_some_iff] at h
    obtain ⟨below, hlookup, hbelow⟩ := h
    exact ⟨entries, below, rfl, hlookup, hbelow⟩

theorem isPlace_dir (h : root.get? here = some (dir entries)) : IsPlace root here :=
  ⟨dir entries, h, fun _ => FileTree.noConfusion⟩

theorem IsPlace.dropLast (h : IsPlace root here) : IsPlace root here.dropLast := by
  rcases List.eq_nil_or_concat' here with hnil | ⟨above, name, hsplit⟩
  · rw [hnil] at h ⊢
    exact h
  · obtain ⟨node, hnode, _⟩ := h
    rw [hsplit, get?_append, Option.bind_eq_some_iff] at hnode
    obtain ⟨parent, hparent, hname⟩ := hnode
    obtain ⟨entries, _, hdir, _⟩ := get?_cons hname
    rw [hdir] at hparent
    rw [hsplit, List.dropLast_concat]
    exact isPlace_dir hparent

/-- A walk ends at a place. -/
theorem walkWith_isPlace (hroot : IsPlace root [])
    (hfollow : ∀ target rest here, IsPlace root here → follow target rest here = .ok names →
      IsPlace root names)
    {steps : List Component} (hhere : IsPlace root here)
    (h : walkWith root follow steps here = .ok names) : IsPlace root names := by
  induction steps generalizing here with
  | nil => exact Except.ok.inj h ▸ hhere
  | cons step steps ih =>
    rw [walkWith] at h
    split at h
    next entries hdir =>
      cases step with
      | rootDir => exact ih hroot h
      | curDir => exact ih hhere h
      | parentDir => exact ih hhere.dropLast h
      | normal name =>
        simp only at h
        split at h
        next => exact absurd h (by simp)
        next target hlookup => exact hfollow target steps here hhere h
        next node hlink hlookup =>
          refine ih ⟨node, ?_, hlink⟩ h
          rw [get?_append, hdir, Option.bind_some, get?, hlookup]
          rfl
    next => exact absurd h (by simp)

theorem walk_isPlace (hroot : IsPlace root []) {links : Nat} {steps : List Component}
    (hhere : IsPlace root here) (h : walk root links steps here = .ok names) :
    IsPlace root names := by
  induction links generalizing steps here with
  | zero =>
    refine walkWith_isPlace hroot ?_ hhere h
    intro target rest here _ hfollow
    exact absurd hfollow (by simp)
  | succ links ih =>
    refine walkWith_isPlace hroot ?_ hhere h
    intro target rest here hhere hfollow
    split at hfollow
    next => exact absurd hfollow (by simp)
    next =>
      refine ih ?_ hfollow
      split
      · exact hroot
      · exact hhere

/-- The names of a place lead to it. -/
theorem walkWith_names (h : IsPlace root (here ++ names)) :
    walkWith root follow (names.map .normal) here = .ok (here ++ names) := by
  induction names generalizing here with
  | nil => rw [List.map_nil, walkWith, List.append_nil]
  | cons name names ih =>
    obtain ⟨node, hnode, hplain⟩ := h
    have hbelow := hnode
    rw [get?_append, Option.bind_eq_some_iff] at hbelow
    obtain ⟨parent, hparent, hinside⟩ := hbelow
    obtain ⟨entries, below, hdir, hlookup, hrest⟩ := get?_cons hinside
    have hlink : ∀ target, below ≠ link target := by
      cases names with
      | nil =>
        rw [get?, Option.some.injEq] at hrest
        rw [hrest]
        exact hplain
      | cons second names =>
        obtain ⟨inner, _, hbelow, _⟩ := get?_cons hrest
        rw [hbelow]
        exact fun _ => FileTree.noConfusion
    have hsplit : here ++ name :: names = (here ++ [name]) ++ names := by
      rw [List.append_assoc, List.singleton_append]
    have hnext : IsPlace root ((here ++ [name]) ++ names) := ⟨node, hsplit ▸ hnode, hplain⟩
    rw [hdir] at hparent
    rw [List.map_cons, walkWith, hparent]
    simp only [hlookup]
    rw [hsplit]
    cases below with
    | file => exact ih hnext
    | link target => exact absurd rfl (hlink target)
    | dir inner => exact ih hnext

theorem walk_eq_walkWith (root : FileTree) (links : Nat) :
    ∃ follow, walk root links = walkWith root follow := by
  cases links with
  | zero => exact ⟨_, rfl⟩
  | succ links => exact ⟨_, rfl⟩

theorem render_ne_empty (names : List Name) : render names ≠ "" := by
  intro h
  have habsolute := isAbsolute_render names
  rw [h] at habsolute
  exact absurd habsolute (by decide)

/-- What a path is resolved to is resolved to itself. -/
theorem realPath_render (hroot : root.get? [] = some (dir entries))
    (hworkDir : ∀ here, workDir = some here → IsPlace root here)
    (h : realPath root workDir path = .ok names) :
    realPath root workDir (render names) = .ok names := by
  have hplace : IsPlace root names := by
    unfold realPath at h
    split at h
    next => exact absurd h (by simp)
    split at h
    next => exact walk_isPlace (isPlace_dir hroot) (isPlace_dir hroot) h
    next =>
      split at h
      next => exact absurd h (by simp)
      next here => exact walk_isPlace (isPlace_dir hroot) (hworkDir here rfl) h
  obtain ⟨follow, hwalk⟩ := walk_eq_walkWith root linkLimit
  have hsteps : walkWith root follow (if names = [] then [.curDir] else names.map .normal) [] =
      .ok names := by
    by_cases hnames : names = []
    · rw [if_pos hnames, walkWith, hroot, hnames]
      rfl
    · rw [if_neg hnames]
      exact walkWith_names hplace
  unfold realPath
  rw [if_neg (render_ne_empty names), if_pos (isAbsolute_render names), steps_render, hwalk,
    walkWith, hroot]
  exact hsteps

end FileTree
