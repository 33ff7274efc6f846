import AiBridge.Runs
import Mathlib.Data.Option.Basic

namespace Backups

open Runs

/-- A component that copies what it holds, under a stamp of the call, before it changes it. -/
structure Keeper {σ α : Type*} (step : σ → α → σ) (β κ : Type*) [DecidableEq κ] where
  current : σ → Option β
  copies : σ → κ → Option β
  stamp : α → κ
  copied : σ → α → Option β
  copies_step : ∀ s call k, copies (step s call) k =
    if k = stamp call then (copied s call).or (copies s k) else copies s k
  current_step : ∀ s call, current (step s call) = current s ∨ current s = none ∨
    copied s call = current s

namespace Keeper

variable {σ α β κ : Type*} [DecidableEq κ] {step : σ → α → σ} (self : Keeper step β κ) (s : σ)
  (calls : List α)

/-- After each call all that was held before it is held still, or in a copy that a call made. -/
def Keeps : Prop :=
  ∀ before call after, calls = before ++ call :: after →
    ∀ front rest, before = front ++ rest → ∀ x, self.current (run step s front) = some x →
      self.current (run step s (before ++ [call])) = some x ∨
      ∃ first other later, before ++ [call] = first ++ other :: later ∧
        self.copied (run step s first) other ≠ none ∧
        self.copies (run step s (before ++ [call])) (self.stamp other) = some x

/-- A call that makes a copy where an earlier call made one finds the same there. -/
def Undisturbed : Prop :=
  ∀ before call middle next after, calls = before ++ call :: (middle ++ next :: after) →
    self.stamp call = self.stamp next → self.copied (run step s before) call ≠ none →
    ∀ y, self.copied (run step s (before ++ call :: middle)) next = some y →
      self.copies (run step s (before ++ call :: middle)) (self.stamp next) = some y

/-- Two calls with one stamp copy the same, if they copy at all. -/
def Spaced : Prop :=
  ∀ before call middle next after, calls = before ++ call :: (middle ++ next :: after) →
    self.stamp call = self.stamp next → ∀ x y, self.copied (run step s before) call = some x →
      self.copied (run step s (before ++ call :: middle)) next = some y → x = y

/-- A copy that lies where a call copies to is the copy that the call makes. -/
def Agrees : Prop :=
  ∀ before call middle next after, calls = before ++ call :: (middle ++ next :: after) →
    self.stamp call = self.stamp next → ∀ x y, self.copied (run step s before) call = some x →
      self.copies (run step s (before ++ call :: middle)) (self.stamp call) = some x →
      self.copied (run step s (before ++ call :: middle)) next = some y → x = y

variable {self s calls}

theorem Agrees.append_left (second : List α) (h : self.Agrees s (calls ++ second)) :
    self.Agrees s calls := by
  intro before call middle next after hsplit
  exact h before call middle next (after ++ second) (by simp [hsplit])

theorem copies_concat_of_none {last : α} {k : κ}
    (h : k = self.stamp last → self.copied (run step s calls) last = none) :
    self.copies (run step s (calls ++ [last])) k = self.copies (run step s calls) k := by
  rw [run_concat, self.copies_step]
  by_cases hk : k = self.stamp last
  · rw [if_pos hk, h hk, Option.none_or]
  · rw [if_neg hk]

theorem copies_concat_of_some {last : α} {y : β}
    (h : self.copied (run step s calls) last = some y) :
    self.copies (run step s (calls ++ [last])) (self.stamp last) = some y := by
  rw [run_concat, self.copies_step, if_pos rfl, h, Option.some_or]

/-- Where nothing is disturbed, every copy that was made is there to the end. -/
theorem Agrees.persists (h : self.Agrees s calls) {before after : List α} {call : α}
    (hsplit : calls = before ++ call :: after) {x : β}
    (hcopied : self.copied (run step s before) call = some x) :
    self.copies (run step s calls) (self.stamp call) = some x := by
  induction calls using List.reverseRecOn generalizing after with
  | nil => simp at hsplit
  | append_singleton calls last ih =>
    rcases List.eq_nil_or_concat after with hlast | ⟨middle, last', hmiddle⟩
    · rw [hlast] at hsplit
      obtain ⟨hcalls, hcall⟩ := List.append_inj' hsplit rfl
      rw [List.cons.injEq] at hcall
      rw [hcall.1, hcalls]
      exact copies_concat_of_some (hcall.1 ▸ hcopied)
    · rw [hmiddle, List.concat_eq_append, ← List.cons_append, ← List.append_assoc] at hsplit
      obtain ⟨hcalls, hlast⟩ := List.append_inj' hsplit rfl
      rw [List.cons.injEq] at hlast
      have hthere := ih (h.append_left [last]) hcalls
      by_cases hstamp : self.stamp call = self.stamp last
      · cases hnext : self.copied (run step s calls) last with
        | none => rw [copies_concat_of_none fun _ => hnext, hthere]
        | some y =>
          have hwhole : calls ++ [last] = before ++ call :: (middle ++ last :: []) := by
            rw [hcalls]
            simp
          rw [hcalls] at hthere hnext
          have hsame := h before call middle last [] hwhole hstamp x y hcopied hthere hnext
          rw [← hcalls] at hnext
          rw [hstamp, copies_concat_of_some hnext, hsame]
      · rw [copies_concat_of_none fun heq => absurd heq hstamp, hthere]

/-- What was held once is held at the end, or some call has copied it. -/
theorem held_or_copied {front rest : List α} (hsplit : calls = front ++ rest) {x : β}
    (hheld : self.current (run step s front) = some x) :
    self.current (run step s calls) = some x ∨ ∃ first other later,
      calls = first ++ other :: later ∧ self.copied (run step s first) other = some x := by
  induction calls using List.reverseRecOn generalizing rest with
  | nil =>
    obtain ⟨hfront, _⟩ := List.append_eq_nil_iff.mp hsplit.symm
    rw [hfront] at hheld
    exact Or.inl hheld
  | append_singleton calls last ih =>
    rcases List.eq_nil_or_concat rest with hnil | ⟨middle, last', hmiddle⟩
    · rw [hnil, List.append_nil] at hsplit
      rw [hsplit]
      exact Or.inl hheld
    · rw [hmiddle, List.concat_eq_append, ← List.append_assoc] at hsplit
      obtain ⟨hcalls, _⟩ := List.append_inj' hsplit rfl
      rcases ih hcalls with hstill | ⟨first, other, later, hother, hcopied⟩
      · rw [run_concat]
        rcases self.current_step (run step s calls) last with hsame | hnone | hcopy
        · exact Or.inl (hsame.trans hstill)
        · rw [hstill] at hnone
          simp at hnone
        · exact Or.inr ⟨calls, last, [], rfl, hcopy.trans hstill⟩
      · exact Or.inr ⟨first, other, later ++ [last], by simp [hother], hcopied⟩

theorem Spaced.agrees (h : self.Spaced s calls) : self.Agrees s calls := by
  intro before call middle next after hsplit hstamp x y hx _ hy
  exact h before call middle next after hsplit hstamp x y hx hy

theorem Undisturbed.agrees (h : self.Undisturbed s calls) : self.Agrees s calls := by
  intro before call middle next after hsplit hstamp x y hx hthere hy
  have hsame := h before call middle next after hsplit hstamp (by simp [hx]) y hy
  rw [← hstamp, hthere, Option.some.injEq] at hsame
  exact hsame

/-- All versions are kept and no copy is disturbed exactly if calls with one stamp copy the same. -/
theorem keeps_and_undisturbed_iff : self.Keeps s calls ∧ self.Undisturbed s calls ↔
    self.Spaced s calls := by
  constructor
  · intro h before call middle next after hsplit hstamp x y hx hy
    have hprefix : self.Agrees s (before ++ call :: middle) := by
      apply Agrees.append_left (next :: after)
      rw [List.append_assoc, List.cons_append, ← hsplit]
      exact h.2.agrees
    have hthere := hprefix.persists rfl hx
    exact h.2.agrees before call middle next after hsplit hstamp x y hx hthere hy
  · intro h
    constructor
    · intro before call after hsplit front rest hfront x hheld
      have hcalls : before ++ [call] = front ++ (rest ++ [call]) := by rw [hfront, List.append_assoc]
      rcases held_or_copied hcalls hheld with hstill | ⟨first, other, later, hother, hcopied⟩
      · exact Or.inl hstill
      · have hagrees : self.Agrees s (before ++ [call]) := by
          apply Agrees.append_left after
          rw [List.append_assoc, List.singleton_append, ← hsplit]
          exact h.agrees
        exact Or.inr ⟨first, other, later, hother, by simp [hcopied],
          hagrees.persists hother hcopied⟩
    · intro before call middle next after hsplit hstamp hmade y hy
      obtain ⟨x, hx⟩ := Option.ne_none_iff_exists'.mp hmade
      have hprefix : self.Agrees s (before ++ call :: middle) := by
        apply Agrees.append_left (next :: after)
        rw [List.append_assoc, List.cons_append, ← hsplit]
        exact h.agrees
      have hthere := hprefix.persists rfl hx
      rw [← hstamp, hthere, h before call middle next after hsplit hstamp x y hx hy]

end Keeper

end Backups
