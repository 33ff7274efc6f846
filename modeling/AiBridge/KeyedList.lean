import Mathlib.Data.List.Nodup
import Mathlib.Order.Defs.PartialOrder
import Mathlib.Tactic.Common

namespace KeyedList

variable {α κ : Type*} [DecidableEq κ] {key : α → κ} {entries rest : List α} {entry : α} {k k' : κ}

/-- The first entry under a key. -/
def lookup (key : α → κ) (entries : List α) (k : κ) : Option α :=
  entries.find? fun entry => decide (key entry = k)

/-- The entries without those under a key. -/
def remove (key : α → κ) (entries : List α) (k : κ) : List α :=
  entries.filter fun entry => decide (key entry ≠ k)

/-- The first entry under a key is changed in its place, if there is one. -/
def modifyFirst (key : α → κ) (f : α → α) (k : κ) : List α → Option (List α)
  | [] => none
  | entry :: entries =>
    if key entry = k then some (f entry :: entries)
    else (modifyFirst key f k entries).map fun rest => entry :: rest

theorem lookup_cons_of_eq (h : key entry = k) : lookup key (entry :: entries) k = some entry := by
  rw [lookup, List.find?_cons_of_pos (by simpa using h)]

theorem lookup_cons_of_ne (h : key entry ≠ k) :
    lookup key (entry :: entries) k = lookup key entries k := by
  rw [lookup, List.find?_cons_of_neg (by simpa using h), lookup]

theorem key_of_lookup (h : lookup key entries k = some entry) : key entry = k := by
  have hfound := List.find?_some h
  exact of_decide_eq_true hfound

theorem mem_of_lookup (h : lookup key entries k = some entry) : entry ∈ entries :=
  List.mem_of_find?_eq_some h

theorem lookup_eq_none_iff : lookup key entries k = none ↔ k ∉ entries.map key := by
  rw [lookup, List.find?_eq_none, List.mem_map]
  simp

/-- Among entries with different keys each is found under its own. -/
theorem lookup_of_mem (hnodup : (entries.map key).Nodup) (h : entry ∈ entries) :
    lookup key entries (key entry) = some entry := by
  cases hfound : lookup key entries (key entry) with
  | none => exact absurd (List.mem_map_of_mem h) (lookup_eq_none_iff.mp hfound)
  | some found =>
    have hkey := key_of_lookup hfound
    have hsame := List.inj_on_of_nodup_map hnodup (mem_of_lookup hfound) h hkey
    rw [hsame]

/-- Changes that leave the keys alone are seen through a lookup. -/
theorem lookup_map {f : α → α} (hf : ∀ entry, key (f entry) = key entry) :
    lookup key (entries.map f) k = (lookup key entries k).map f := by
  have hsame : ((fun entry => decide (key entry = k)) ∘ f) = fun entry => decide (key entry = k) := by
    funext entry
    simp [hf]
  rw [lookup, List.find?_map, hsame, lookup]

omit [DecidableEq κ] in
theorem map_key_map {f : α → α} (hf : ∀ entry, key (f entry) = key entry) :
    (entries.map f).map key = entries.map key := by
  rw [List.map_map]
  exact List.map_congr_left fun entry _ => hf entry

theorem lookup_remove_self : lookup key (remove key entries k) k = none := by
  rw [lookup_eq_none_iff, remove, List.mem_map]
  simp

theorem lookup_remove_of_ne (h : k' ≠ k) :
    lookup key (remove key entries k) k' = lookup key entries k' := by
  induction entries with
  | nil => rfl
  | cons entry entries ih =>
    by_cases hremoved : key entry = k
    · have hother : key entry ≠ k' := fun heq => h (heq.symm.trans hremoved)
      rw [lookup_cons_of_ne hother, ← ih, remove, remove,
        List.filter_cons_of_neg (by simpa using hremoved)]
    · rw [remove, List.filter_cons_of_pos (by simpa using hremoved)]
      by_cases hfound : key entry = k'
      · rw [lookup_cons_of_eq hfound, lookup_cons_of_eq hfound]
      · rw [lookup_cons_of_ne hfound, lookup_cons_of_ne hfound]
        exact ih

theorem nodup_remove (h : (entries.map key).Nodup) : ((remove key entries k).map key).Nodup :=
  h.sublist (List.filter_sublist.map key)

theorem lookup_concat (h : key entry ∉ entries.map key) :
    lookup key (entries ++ [entry]) k =
      if k = key entry then some entry else lookup key entries k := by
  by_cases hk : k = key entry
  · have hnone := lookup_eq_none_iff.mpr h
    rw [if_pos hk, hk, lookup, List.find?_append, ← lookup, hnone, Option.none_or]
    simp
  · have hother : decide (key entry = k) = false := decide_eq_false fun heq => hk heq.symm
    rw [if_neg hk, lookup, List.find?_append, ← lookup]
    simp [hother]

omit [DecidableEq κ] in
theorem nodup_concat (hnodup : (entries.map key).Nodup) (h : key entry ∉ entries.map key) :
    ((entries ++ [entry]).map key).Nodup := by
  rw [List.map_append, List.map_singleton, ← List.concat_eq_append]
  exact hnodup.concat h

theorem modifyFirst_eq_none_iff {f : α → α} :
    modifyFirst key f k entries = none ↔ k ∉ entries.map key := by
  induction entries with
  | nil => simp [modifyFirst]
  | cons entry entries ih =>
    by_cases hk : key entry = k
    · simp [modifyFirst, hk]
    · have hk' : k ≠ key entry := fun heq => hk heq.symm
      simp only [modifyFirst, if_neg hk, Option.map_eq_none_iff, ih, List.map_cons, List.mem_cons,
        hk', false_or]

/-- A change in place keeps the keys, and shows under its own key only. -/
theorem modifyFirst_spec {f : α → α} (hf : ∀ entry, key (f entry) = key entry)
    (h : modifyFirst key f k entries = some rest) : rest.map key = entries.map key ∧
      ∀ k', lookup key rest k' =
        if k' = k then (lookup key entries k').map f else lookup key entries k' := by
  induction entries generalizing rest with
  | nil => simp [modifyFirst] at h
  | cons entry entries ih =>
    by_cases hk : key entry = k
    · rw [modifyFirst, if_pos hk, Option.some.injEq] at h
      rw [← h]
      refine ⟨by simp [hf], ?_⟩
      intro k'
      by_cases hk' : k' = k
      · have hfound : key entry = k' := hk.trans hk'.symm
        rw [if_pos hk', lookup_cons_of_eq ((hf entry).trans hfound), lookup_cons_of_eq hfound,
          Option.map_some]
      · have hother : key entry ≠ k' := fun heq => hk' (heq.symm.trans hk)
        have hother' : key (f entry) ≠ k' := fun heq => hother ((hf entry).symm.trans heq)
        rw [if_neg hk', lookup_cons_of_ne hother', lookup_cons_of_ne hother]
    · rw [modifyFirst, if_neg hk, Option.map_eq_some_iff] at h
      obtain ⟨tail, htail, heq⟩ := h
      obtain ⟨hkeys, hlookup⟩ := ih htail
      rw [← heq]
      refine ⟨by simp [hkeys], ?_⟩
      intro k'
      by_cases hk' : key entry = k'
      · have hne : k' ≠ k := fun h => hk (hk'.trans h)
        rw [if_neg hne, lookup_cons_of_eq hk', lookup_cons_of_eq hk']
      · rw [lookup_cons_of_ne hk', lookup_cons_of_ne hk']
        exact hlookup k'

section Groups

variable {ν : Type*} [PartialOrder ν] [DecidableEq ν] {group : α → ν} {g : ν} {groups : List ν}

/-- In a list that is ordered by a key the members of the least one come first. -/
theorem filter_append_filter (hsorted : entries.Pairwise fun a b => group a ≤ group b)
    (hleast : ∀ entry ∈ entries, g ≤ group entry) :
    entries.filter (fun entry => decide (group entry = g)) ++
      entries.filter (fun entry => decide (group entry ≠ g)) = entries := by
  induction entries with
  | nil => rfl
  | cons entry entries ih =>
    obtain ⟨hfirst, hrest⟩ := List.pairwise_cons.mp hsorted
    obtain ⟨hentry, hlater⟩ := List.forall_mem_cons.mp hleast
    by_cases hg : group entry = g
    · rw [List.filter_cons_of_pos (by simpa using hg), List.filter_cons_of_neg (by simpa using hg),
        List.cons_append, ih hrest hlater]
    · have hgreater : ∀ other ∈ entry :: entries, group other ≠ g := by
        intro other hmem heq
        rcases List.mem_cons.mp hmem with hself | hother
        · rw [hself] at heq
          exact hg heq
        · have hle := hfirst other hother
          rw [heq] at hle
          exact hg (le_antisymm hle hentry)
      have hnone : (entry :: entries).filter (fun other => decide (group other = g)) = [] :=
        List.filter_eq_nil_iff.mpr fun other hmem => by simpa using hgreater other hmem
      have hall : (entry :: entries).filter (fun other => decide (group other ≠ g)) =
          entry :: entries :=
        List.filter_eq_self.mpr fun other hmem => decide_eq_true (hgreater other hmem)
      rw [hnone, hall, List.nil_append]

/-- An ordered list is the groups of its members, the keys in their order. -/
theorem flatMap_filter_eq (hgroups : groups.Pairwise (· < ·))
    (hsorted : entries.Pairwise fun a b => group a ≤ group b)
    (hmem : ∀ entry ∈ entries, group entry ∈ groups) :
    groups.flatMap (fun g => entries.filter fun entry => decide (group entry = g)) = entries := by
  induction groups generalizing entries with
  | nil =>
    cases entries with
    | nil => rfl
    | cons entry entries => exact absurd (hmem entry List.mem_cons_self) List.not_mem_nil
  | cons g groups ih =>
    obtain ⟨hleast, hrest⟩ := List.pairwise_cons.mp hgroups
    have hbound : ∀ entry ∈ entries, g ≤ group entry := by
      intro entry hentry
      rcases List.mem_cons.mp (hmem entry hentry) with heq | hlater
      · exact le_of_eq heq.symm
      · exact le_of_lt (hleast _ hlater)
    have hothers : groups.flatMap (fun g' => (entries.filter fun entry => decide (group entry ≠ g)).filter
        fun entry => decide (group entry = g')) =
        entries.filter fun entry => decide (group entry ≠ g) := by
      apply ih hrest (hsorted.filter _)
      intro entry hentry
      obtain ⟨hin, hne⟩ := List.mem_filter.mp hentry
      exact (List.mem_cons.mp (hmem entry hin)).resolve_left (of_decide_eq_true hne)
    have hsame : ∀ g' ∈ groups, (entries.filter fun entry => decide (group entry ≠ g)).filter
        (fun entry => decide (group entry = g')) =
        entries.filter fun entry => decide (group entry = g') := by
      intro g' hg'
      rw [List.filter_filter]
      apply List.filter_congr
      intro entry _
      by_cases heq : group entry = g'
      · have hne : g' ≠ g := ne_of_gt (hleast g' hg')
        simp [heq, hne]
      · simp [heq]
    rw [List.flatMap_cons, ← List.flatMap_congr hsame, hothers]
    exact filter_append_filter hsorted hbound

end Groups

section Sole

variable {ν : Type*} [DecidableEq ν] {sole plain : ν} {f : κ → ν}

/-- A key gets a value. The value that one key may hold at a time is taken from the others, who get
the plain one for it. -/
def assign (sole plain : ν) (f : κ → ν) (k : κ) (value : ν) : κ → ν := fun k' =>
  if k' = k then value else if value = sole ∧ f k' = sole then plain else f k'

/-- One key at most holds the value. -/
def Sole (sole : ν) (f : κ → ν) : Prop :=
  ∀ k k', f k = sole → f k' = sole → k = k'

theorem sole_assign (hne : plain ≠ sole) (h : Sole sole f) (k : κ) (value : ν) :
    Sole sole (assign sole plain f k value) := by
  have hother : ∀ k', k' ≠ k → assign sole plain f k value k' = sole →
      value ≠ sole ∧ f k' = sole := by
    intro k' hk' hholds
    rw [assign, if_neg hk'] at hholds
    by_cases hv : value = sole ∧ f k' = sole
    · rw [if_pos hv] at hholds
      exact absurd hholds hne
    · rw [if_neg hv] at hholds
      exact ⟨fun hvalue => hv ⟨hvalue, hholds⟩, hholds⟩
  have hself : assign sole plain f k value k = value := if_pos rfl
  intro first second hfirst hsecond
  by_cases h1 : first = k
  · by_cases h2 : second = k
    · rw [h1, h2]
    · rw [h1, hself] at hfirst
      exact absurd hfirst (hother second h2 hsecond).1
  · by_cases h2 : second = k
    · rw [h2, hself] at hsecond
      exact absurd hsecond (hother first h1 hfirst).1
    · exact h first second (hother first h1 hfirst).2 (hother second h2 hsecond).2

end Sole

end KeyedList
