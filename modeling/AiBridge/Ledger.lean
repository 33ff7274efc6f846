import AiBridge.Runs
import Mathlib.Data.List.Forall2

namespace Ledger

open Runs

variable {σ α β γ : Type*} {step : σ → α → σ} {s : σ} {calls : List α}

section Log

variable {log : σ → List γ} {entry : α → Option γ}

/-- If each call puts at most one entry of its own at the end, the log is the entries in order. -/
theorem log_run (h : ∀ s call, log (step s call) = log s ++ (entry call).toList) :
    log (run step s calls) = log s ++ calls.filterMap entry := by
  induction calls generalizing s with
  | nil => simp
  | cons call calls ih =>
    rw [run_cons, ih, h, List.append_assoc, List.filterMap_cons]
    cases entry call with
    | none => rfl
    | some e => rfl

theorem log_prefix (h : ∀ s call, log (step s call) = log s ++ (entry call).toList)
    (later : List α) : log (run step s calls) <+: log (run step s (calls ++ later)) := by
  rw [log_run h, log_run h, List.filterMap_append, ← List.append_assoc]
  exact List.prefix_append _ _

end Log

theorem outputs_eq_filterMap {out : σ → α → Option β} {due : α → Option β}
    (h : ∀ s, ∀ call ∈ calls, out s call = due call) :
    outputs step out s calls = calls.filterMap due := by
  induction calls generalizing s with
  | nil => rfl
  | cons call calls ih =>
    have hhead := h s call List.mem_cons_self
    have htail : outputs step out (step s call) calls = calls.filterMap due :=
      ih fun s other hmem => h s other (List.mem_cons_of_mem call hmem)
    rw [outputs, hhead, htail, List.filterMap_cons]
    cases due call with
    | none => rfl
    | some b => rfl

section Due

variable {R : β → γ → Prop} {due : α → Option β} {entry : α → Option γ}

theorem length_filterMap_le (hdue : ∀ call, due call = none → entry call = none) :
    (calls.filterMap entry).length ≤ (calls.filterMap due).length := by
  induction calls with
  | nil => simp
  | cons call calls ih =>
    rw [List.filterMap_cons, List.filterMap_cons]
    cases hd : due call with
    | none =>
      rw [hdue call hd]
      exact ih
    | some b =>
      cases entry call with
      | none => exact Nat.le_succ_of_le ih
      | some e => exact Nat.succ_le_succ ih

theorem rel_some_iff {b : β} {e : γ} : Option.Rel R (some b) (some e) ↔ R b e := by
  constructor
  · intro h
    cases h with
    | some hr => exact hr
  · exact fun hr => .some hr

/-- Where no call makes an entry that is not due, the entries match what is due, one by one and in
order, exactly if they do so call by call. -/
theorem forall₂_filterMap_iff (hdue : ∀ call, due call = none → entry call = none) :
    List.Forall₂ R (calls.filterMap due) (calls.filterMap entry) ↔
      ∀ call ∈ calls, Option.Rel R (due call) (entry call) := by
  induction calls with
  | nil => simp
  | cons call calls ih =>
    rw [List.forall_mem_cons, List.filterMap_cons, List.filterMap_cons]
    refine Iff.trans ?_ (and_congr_right' ih)
    cases hd : due call with
    | none =>
      rw [hdue call hd]
      simp only [Option.Rel.none, true_and]
    | some b =>
      cases entry call with
      | none =>
        constructor
        · intro h
          have hsame : (calls.filterMap due).length + 1 = (calls.filterMap entry).length :=
            h.length_eq
          have hle : (calls.filterMap entry).length ≤ (calls.filterMap due).length :=
            length_filterMap_le hdue
          omega
        · rintro ⟨hrel, _⟩
          cases hrel
      | some e => rw [List.forall₂_cons, rel_some_iff]

end Due

/-- Every member that asks has an answer behind it. -/
def Answered (asks answers : β → Prop) (l : List β) : Prop :=
  ∀ before x after, l = before ++ x :: after → asks x → ∃ y ∈ after, answers y

variable {asks answers : β → Prop} {l : List β} {x : β}

theorem answered_nil : Answered asks answers [] := by
  intro before y after hsplit
  simp at hsplit

theorem answered_concat : Answered asks answers (l ++ [x]) ↔
    ¬asks x ∧ (answers x ∨ Answered asks answers l) := by
  constructor
  · intro h
    refine ⟨?_, ?_⟩
    · intro hx
      obtain ⟨y, hy, _⟩ := h l x [] rfl hx
      simp at hy
    · by_cases hanswer : answers x
      · exact Or.inl hanswer
      · right
        intro before y after hsplit hy
        obtain ⟨z, hz, hzanswers⟩ := h before y (after ++ [x]) (by simp [hsplit]) hy
        rcases List.mem_append.mp hz with hmem | hlast
        · exact ⟨z, hmem, hzanswers⟩
        · rw [List.mem_singleton.mp hlast] at hzanswers
          exact absurd hzanswers hanswer
  · rintro ⟨hnot, h⟩ before y after hsplit hy
    rcases List.eq_nil_or_concat after with hnil | ⟨middle, last, hafter⟩
    · rw [hnil] at hsplit
      obtain ⟨_, hlast⟩ := List.append_inj' hsplit rfl
      rw [(List.cons.inj hlast).1] at hnot
      exact absurd hy hnot
    · rw [hafter, List.concat_eq_append, ← List.cons_append, ← List.append_assoc] at hsplit
      obtain ⟨hl, hlast⟩ := List.append_inj' hsplit rfl
      rw [hafter, List.concat_eq_append, ← (List.cons.inj hlast).1]
      rcases h with hx | h
      · exact ⟨x, by simp, hx⟩
      · obtain ⟨z, hz, hanswer⟩ := h before y middle hl hy
        exact ⟨z, by simp [hz], hanswer⟩

end Ledger
