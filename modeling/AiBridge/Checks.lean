import Mathlib.Data.List.Nodup
import Mathlib.Tactic.Common

namespace Checks

variable {α κ ε : Type*}

/-- The members are checked one after another, and the first error is returned. -/
def checkAll (check : α → Except ε Unit) : List α → Except ε Unit
  | [] => .ok ()
  | a :: rest =>
    match check a with
    | .error e => .error e
    | .ok () => checkAll check rest

/-- The same with a set of keys seen so far, where a second member with one key is an error. -/
def checkDistinct [DecidableEq κ] (check : α → Except ε Unit) (key : α → κ) (duplicate : α → ε) :
    List κ → List α → Except ε Unit
  | _, [] => .ok ()
  | seen, a :: rest =>
    match check a with
    | .error e => .error e
    | .ok () =>
      if key a ∈ seen then .error (duplicate a)
      else checkDistinct check key duplicate (key a :: seen) rest

variable {check : α → Except ε Unit} {xs : List α}

theorem checkAll_eq_ok_iff : checkAll check xs = .ok () ↔ ∀ a ∈ xs, check a = .ok () := by
  induction xs with
  | nil => simp [checkAll]
  | cons a rest ih =>
    rw [checkAll, List.forall_mem_cons]
    cases hcheck : check a with
    | error e => simp
    | ok u => simp [ih]

section Steps

universe u

variable {α β : Type u} {x : Except ε α} {f : α → Except ε β} {a : α} {b : β}

/-- A computation in steps succeeds exactly if every step does. -/
theorem bind_eq_ok_iff : (x >>= f) = .ok b ↔ ∃ a, x = .ok a ∧ f a = .ok b := by
  cases x with
  | error e => simp [bind, Except.bind]
  | ok a => simp [bind, Except.bind]

theorem pure_eq_ok_iff {a' : α} : (pure a : Except ε α) = .ok a' ↔ a = a' := by
  simp [pure, Except.pure]

theorem mapError_eq_ok_iff {ε' : Type*} {g : ε → ε'} : x.mapError g = .ok a ↔ x = .ok a := by
  cases x with
  | error e => simp [Except.mapError]
  | ok a => simp [Except.mapError]

/-- What follows an early return is reached exactly if the condition of the return fails. -/
theorem unless_throw_eq_ok_iff {c : Prop} [Decidable c] {e : ε} :
    (if c then (do throw e; x) else x) = .ok a ↔ ¬c ∧ x = .ok a := by
  by_cases hc : c
  · simp [hc, throw, throwThe, MonadExceptOf.throw, bind, Except.bind]
  · simp [hc]

end Steps

section Decode

variable {β : Type*} {f : α → Except ε β} {g : β → α} {decoded : List β}

theorem mapM_eq_ok_of_decodes (h : ∀ b ∈ decoded, f (g b) = .ok b) :
    (decoded.map g).mapM f = .ok decoded := by
  induction decoded with
  | nil => rfl
  | cons b rest ih =>
    obtain ⟨hfirst, hrest⟩ := List.forall_mem_cons.mp h
    rw [List.map_cons, List.mapM_cons, hfirst, ih hrest]
    rfl

theorem mapM_ok_map {h : α → β} (xs : List α) :
    (xs.mapM fun a => (.ok (h a) : Except ε β)) = .ok (xs.map h) := by
  induction xs with
  | nil => rfl
  | cons a rest ih =>
    rw [List.mapM_cons, ih]
    rfl

/-- The first of the members that fail gives the error, one of those that are possible. -/
theorem mapM_fails {Possible : ε → Prop} (hall : ∀ a ∈ xs, ∀ e, f a = .error e → Possible e)
    (hsome : ∃ a ∈ xs, ∃ e, f a = .error e) : ∃ e, xs.mapM f = .error e ∧ Possible e := by
  induction xs with
  | nil => simp at hsome
  | cons a rest ih =>
    obtain ⟨hfirst, hrest⟩ := List.forall_mem_cons.mp hall
    rw [List.mapM_cons]
    cases hdecoded : f a with
    | error e => exact ⟨e, rfl, hfirst e hdecoded⟩
    | ok b =>
      have hlater : ∃ a ∈ rest, ∃ e, f a = .error e := by
        obtain ⟨bad, hmem, e, hbad⟩ := hsome
        rcases List.mem_cons.mp hmem with heq | hlater
        · rw [heq, hdecoded] at hbad
          simp at hbad
        · exact ⟨bad, hlater, e, hbad⟩
      obtain ⟨e, hfails, hpossible⟩ := ih hrest hlater
      rw [hfails]
      exact ⟨e, rfl, hpossible⟩

end Decode

section Distinct

variable [DecidableEq κ] {key : α → κ} {duplicate : α → ε} {seen : List κ}

theorem checkDistinct_eq_ok_iff : checkDistinct check key duplicate seen xs = .ok () ↔
    (∀ a ∈ xs, check a = .ok ()) ∧ (xs.map key).Nodup ∧ ∀ a ∈ xs, key a ∉ seen := by
  induction xs generalizing seen with
  | nil => simp [checkDistinct]
  | cons a rest ih =>
    rw [checkDistinct]
    cases hcheck : check a with
    | error e => simp [hcheck]
    | ok u =>
      by_cases hseen : key a ∈ seen
      · simp [hseen]
      · simp only [hseen, if_false, ih]
        constructor
        · intro h
          obtain ⟨hrest, hnodup, hfresh⟩ := h
          have hkey : key a ∉ rest.map key := by
            intro hmem
            obtain ⟨b, hb, hkeys⟩ := List.mem_map.mp hmem
            exact hfresh b hb (by rw [hkeys]; exact List.mem_cons_self)
          refine ⟨List.forall_mem_cons.mpr ⟨hcheck, hrest⟩, ?_, ?_⟩
          · rw [List.map_cons, List.nodup_cons]
            exact ⟨hkey, hnodup⟩
          · refine List.forall_mem_cons.mpr ⟨hseen, ?_⟩
            intro b hb hold
            exact hfresh b hb (List.mem_cons_of_mem _ hold)
        · intro h
          obtain ⟨hall, hnodup, hfresh⟩ := h
          rw [List.map_cons, List.nodup_cons] at hnodup
          refine ⟨(List.forall_mem_cons.mp hall).2, hnodup.2, ?_⟩
          intro b hb hmem
          rcases List.mem_cons.mp hmem with heq | hold
          · exact hnodup.1 (heq ▸ List.mem_map_of_mem hb)
          · exact hfresh b (List.mem_cons_of_mem a hb) hold

end Distinct

end Checks
