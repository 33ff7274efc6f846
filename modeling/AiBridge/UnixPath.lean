import Mathlib.Data.List.Infix
import Mathlib.Tactic.Common

namespace UnixPath

/-- A name that an entry of a directory can have. -/
def isName (s : String) : Bool :=
  decide (s ≠ "") && decide (s ≠ ".") && decide (s ≠ "..") && !s.toList.contains '/'

abbrev Name : Type := { s : String // isName s = true }

inductive Component
  | rootDir
  | curDir
  | parentDir
  | normal (name : Name)
  deriving DecidableEq, Repr

/-- What stands between two slashes. -/
def component (piece : String) : Component :=
  if h : isName piece = true then .normal ⟨piece, h⟩
  else if piece = ".." then .parentDir
  else .curDir

def pieces (path : String) : List (List Char) := path.toList.splitOn '/'

/-- Every piece of a path. An empty one stays where it is, as `.` does. -/
def steps (path : String) : List Component :=
  (pieces path).map fun piece => component (String.ofList piece)

def isAbsolute (path : String) : Bool := decide (path.toList.head? = some '/')

/-- `Path::components`, which leaves out empty pieces and `.` unless a relative path begins with
it. -/
def components (path : String) : List Component :=
  let kept := (steps path).filter (· ≠ .curDir)
  if isAbsolute path then .rootDir :: kept
  else if (pieces path).head? = some ['.'] then .curDir :: kept
  else kept

/-- `Path::join`. -/
def join (path more : String) : String :=
  if isAbsolute more then more
  else if path = "" ∨ path.toList.getLast? = some '/' then path ++ more
  else path ++ "/" ++ more

/-- `Path::starts_with`. -/
def startsWith (path base : String) : Bool := decide (components base <+: components path)

/-- The path that names these entries from the root on. -/
def render (names : List Name) : String :=
  String.ofList
    (['/'].intercalate ([] :: if names = [] then [[]] else names.map fun name => name.val.toList))

/-- Where a component leads to. -/
def climb : List Name → Component → List Name
  | _, .rootDir => []
  | here, .curDir => here
  | here, .parentDir => here.dropLast
  | here, .normal name => here ++ [name]

/-- An absolute path without its `.` and `..`. -/
def normalize (path : String) : List Name := (components path).foldl climb []

/-- How many levels a relative path climbs, and what it enters from there. -/
def reduceStep : Nat × List Name → Component → Nat × List Name
  | (ups, names), .parentDir => if names = [] then (ups + 1, []) else (ups, names.dropLast)
  | (ups, names), .normal name => (ups, names ++ [name])
  | reduced, _ => reduced

def reduce (path : List Component) : Nat × List Name := path.foldl reduceStep (0, [])

/-- A relative path that climbs out of a directory comes back through the names that it left. -/
def ComesBack (base : List Name) (path : List Component) : Prop :=
  base.drop (base.length - (reduce path).1) <+: (reduce path).2

instance (base : List Name) (path : List Component) : Decidable (ComesBack base path) :=
  inferInstanceAs (Decidable (_ <+: _))

variable {names base : List Name} {path : String}

theorem isName_iff {s : String} : isName s = true ↔
    ((s ≠ "" ∧ s ≠ ".") ∧ s ≠ "..") ∧ '/' ∉ s.toList := by
  simp [isName]

theorem component_name (name : Name) : component name.val = .normal name := by
  rw [component, dif_pos name.property]

theorem component_ne_rootDir (piece : String) : component piece ≠ .rootDir := by
  unfold component
  split
  · exact Component.noConfusion
  split
  · exact Component.noConfusion
  · exact Component.noConfusion

theorem rootDir_not_mem_steps : Component.rootDir ∉ steps path := by
  intro hmem
  obtain ⟨piece, _, hpiece⟩ := List.mem_map.mp hmem
  exact component_ne_rootDir _ hpiece

theorem pieces_render (names : List Name) :
    pieces (render names) =
      [] :: if names = [] then [[]] else names.map fun name => name.val.toList := by
  rw [pieces, render, String.toList_ofList]
  apply List.splitOn_intercalate
  · intro piece hpiece
    rcases List.mem_cons.mp hpiece with hnil | hmem
    · rw [hnil]
      exact List.not_mem_nil
    · by_cases hnames : names = []
      · rw [if_pos hnames, List.mem_singleton] at hmem
        rw [hmem]
        exact List.not_mem_nil
      · rw [if_neg hnames] at hmem
        obtain ⟨name, _, hname⟩ := List.mem_map.mp hmem
        rw [← hname]
        exact (isName_iff.mp name.property).2
  · exact List.cons_ne_nil _ _

theorem isAbsolute_render (names : List Name) : isAbsolute (render names) = true := by
  rw [isAbsolute, render, String.toList_ofList, decide_eq_true_eq]
  by_cases hnames : names = []
  · rw [if_pos hnames]
    rfl
  · obtain ⟨first, rest, hsplit⟩ := List.exists_cons_of_ne_nil hnames
    rw [if_neg hnames, hsplit, List.map_cons, List.intercalate_cons_cons]
    rfl

/-- A rendered path stays at the root and then enters the names. -/
theorem steps_render (names : List Name) :
    steps (render names) =
      .curDir :: if names = [] then [.curDir] else names.map .normal := by
  have hempty : component (String.ofList []) = .curDir := by decide
  rw [steps, pieces_render, List.map_cons, hempty]
  by_cases hnames : names = []
  · rw [if_pos hnames, if_pos hnames, List.map_singleton, hempty]
  · have hname : ∀ name ∈ names,
        component (String.ofList name.val.toList) = Component.normal name := by
      intro name _
      rw [String.ofList_toList, component_name]
    rw [if_neg hnames, if_neg hnames, List.map_map]
    exact congrArg _ (List.map_congr_left hname)

theorem components_render (names : List Name) :
    components (render names) = .rootDir :: names.map .normal := by
  have hkept : (names.map Component.normal).filter (· ≠ .curDir) = names.map .normal := by
    apply List.filter_eq_self.mpr
    intro c hc
    obtain ⟨name, _, hname⟩ := List.mem_map.mp hc
    rw [← hname]
    rfl
  rw [components, if_pos (isAbsolute_render names), steps_render,
    List.filter_cons_of_neg (by decide)]
  by_cases hnames : names = []
  · rw [if_pos hnames, hnames]
    rfl
  · rw [if_neg hnames, hkept]

theorem foldl_climb_normal (here names : List Name) :
    (names.map Component.normal).foldl climb here = here ++ names := by
  induction names generalizing here with
  | nil => rw [List.map_nil, List.foldl_nil, List.append_nil]
  | cons name names ih =>
    rw [List.map_cons, List.foldl_cons, climb, ih, List.append_assoc]
    rfl

theorem normalize_render (names : List Name) : normalize (render names) = names := by
  rw [normalize, components_render, List.foldl_cons, foldl_climb_normal]
  rfl

/-- One absolute path of names starts with another as the names do. -/
theorem startsWith_render_iff {names base : List Name} :
    startsWith (render names) (render base) = true ↔ base <+: names := by
  have hinj : Function.Injective Component.normal := fun _ _ => Component.normal.inj
  rw [startsWith, decide_eq_true_eq, components_render, components_render, List.cons_prefix_cons,
    List.prefix_map_iff_of_injective hinj]
  exact and_iff_right rfl

/-- A relative path from a directory climbs out of it and enters what is left of it. -/
theorem foldl_climb_eq_reduce {path : List Component} (hroot : .rootDir ∉ path) :
    path.foldl climb base = base.take (base.length - (reduce path).1) ++ (reduce path).2 := by
  induction path using List.reverseRecOn with
  | nil => simp [reduce]
  | append_singleton path c ih =>
    rw [List.mem_append, not_or] at hroot
    have hreduce : reduce (path ++ [c]) = reduceStep (reduce path) c := by
      rw [reduce, List.foldl_append]
      rfl
    have hbefore := ih hroot.1
    rw [hreduce, List.foldl_append, hbefore, List.foldl_cons, List.foldl_nil]
    obtain ⟨ups, names⟩ := reduce path
    cases c with
    | rootDir => exact absurd (List.mem_singleton_self _) hroot.2
    | curDir => rfl
    | normal name => exact List.append_assoc _ _ _
    | parentDir =>
      simp only [climb, reduceStep]
      by_cases hnames : names = []
      · have hlength : (base.take (base.length - ups)).length = base.length - ups := by
          rw [List.length_take]
          omega
        rw [if_pos hnames, hnames, List.append_nil, List.append_nil, List.dropLast_eq_take, hlength,
          List.take_take]
        congr 1
        omega
      · rw [if_neg hnames, List.dropLast_append_of_ne_nil hnames]

/-- A path that begins in a directory ends in it exactly if it comes back from where it climbs. -/
theorem comesBack_iff {path : List Component} (hroot : .rootDir ∉ path) :
    ComesBack base path ↔ base <+: path.foldl climb base := by
  obtain ⟨⟨ups, names⟩, hreduce⟩ : ∃ reduced, reduce path = reduced := ⟨_, rfl⟩
  have hsplit : base.take (base.length - ups) ++ base.drop (base.length - ups) = base :=
    List.take_append_drop _ _
  have hlevel : base.take (base.length - ups) ++ base.drop (base.length - ups) <+:
      base.take (base.length - ups) ++ names ↔ base.drop (base.length - ups) <+: names :=
    List.prefix_append_right_inj _
  rw [hsplit] at hlevel
  rw [foldl_climb_eq_reduce hroot, ComesBack, hreduce]
  exact hlevel.symm

/-- A path that starts with names from the root on has more components behind them. -/
theorem startsWith_iff :
    startsWith path (render base) = true ↔
      ∃ rest, (.rootDir ∉ rest ∧ components path = (.rootDir :: base.map .normal) ++ rest) := by
  have hfresh : Component.rootDir ∉ (steps path).filter (· ≠ .curDir) := by
    intro hmem
    exact rootDir_not_mem_steps (List.mem_of_mem_filter hmem)
  rw [startsWith, decide_eq_true_eq, components_render]
  constructor
  · rintro ⟨rest, hrest⟩
    refine ⟨rest, ?_, hrest.symm⟩
    unfold components at hrest
    split at hrest
    next =>
      rw [List.cons_append, List.cons.injEq] at hrest
      intro hmem
      rw [← hrest.2] at hfresh
      exact hfresh (List.mem_append_right _ hmem)
    split at hrest
    next =>
      rw [List.cons_append, List.cons.injEq] at hrest
      exact absurd hrest.1 Component.noConfusion
    next =>
      change _ = (steps path).filter (· ≠ .curDir) at hrest
      rw [← hrest, List.cons_append] at hfresh
      exact absurd List.mem_cons_self hfresh
  · rintro ⟨rest, _, hrest⟩
    exact ⟨rest, hrest.symm⟩

/-- A path that starts with a directory lies in it exactly if the rest of it comes back from where
it climbs. -/
theorem inside_iff (hstarts : startsWith path (render base) = true) :
    base <+: normalize path ↔ ComesBack base ((components path).drop (base.length + 1)) := by
  obtain ⟨rest, hroot, hrest⟩ := startsWith_iff.mp hstarts
  have hlength : (Component.rootDir :: base.map Component.normal).length = base.length + 1 := by
    rw [List.length_cons, List.length_map]
  have hdrop : (components path).drop (base.length + 1) = rest := by
    rw [hrest, ← hlength, List.drop_left]
  have hnormalize : normalize path = rest.foldl climb base := by
    rw [normalize, hrest, List.foldl_append, List.foldl_cons, climb, foldl_climb_normal]
    rfl
  rw [hdrop, hnormalize, comesBack_iff hroot]

end UnixPath
