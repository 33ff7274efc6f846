import Mathlib.Data.List.Induction
import Mathlib.Tactic.Common

namespace Runs

variable {σ τ α : Type*}

/-- The state a component is in after a list of calls. -/
def run (step : σ → α → σ) (s : σ) (calls : List α) : σ :=
  calls.foldl step s

/-- Every call of the run meets `P` in the state it is made in. -/
def Along (step : σ → α → σ) (P : σ → α → Prop) (s : σ) (calls : List α) : Prop :=
  ∀ before call after, calls = before ++ call :: after → P (run step s before) call

/-- The sum over a run of what each call weighs in the state it is made in. -/
def tally (step : σ → α → σ) (weight : σ → α → Nat) : σ → List α → Nat
  | _, [] => 0
  | s, call :: calls => weight s call + tally step weight (step s call) calls

variable {β : Type*}

/-- What the calls of a run give out, each in the state it is made in. -/
def outputs (step : σ → α → σ) (out : σ → α → Option β) : σ → List α → List β
  | _, [] => []
  | s, call :: calls => (out s call).toList ++ outputs step out (step s call) calls

variable {step : σ → α → σ} {P : σ → α → Prop} {s : σ} {calls : List α}

@[simp]
theorem run_nil : run step s [] = s := rfl

@[simp]
theorem run_cons (call : α) : run step s (call :: calls) = run step (step s call) calls := rfl

theorem run_concat (call : α) : run step s (calls ++ [call]) = step (run step s calls) call := by
  simp [run]

theorem run_append (before after : List α) :
    run step s (before ++ after) = run step (run step s before) after :=
  List.foldl_append

theorem along_nil : Along step P s [] := by
  intro before call after h
  simp at h

theorem along_cons {call : α} :
    Along step P s (call :: calls) ↔ P s call ∧ Along step P (step s call) calls := by
  constructor
  · intro h
    refine ⟨h [] call calls rfl, ?_⟩
    intro before c after heq
    exact h (call :: before) c after (by rw [heq]; rfl)
  · rintro ⟨hp, h⟩ before c after heq
    cases before with
    | nil =>
      obtain ⟨rfl, _⟩ := List.cons.inj heq
      exact hp
    | cons b before =>
      obtain ⟨rfl, htail⟩ := List.cons.inj heq
      exact h before c after htail

instance [∀ s call, Decidable (P s call)] :
    ∀ (s : σ) (calls : List α), Decidable (Along step P s calls)
  | _, [] => .isTrue along_nil
  | s, call :: calls =>
    have := instDecidableAlong (step s call) calls
    decidable_of_iff _ along_cons.symm

theorem along_congr {Q : σ → α → Prop} (h : ∀ s call, P s call ↔ Q s call) :
    Along step P s calls ↔ Along step Q s calls := by
  unfold Along
  apply forall₄_congr
  intro before call after _
  exact h _ call

theorem along_concat {call : α} :
    Along step P s (calls ++ [call]) ↔ Along step P s calls ∧ P (run step s calls) call := by
  constructor
  · intro h
    exact ⟨fun before c after heq => h before c (after ++ [call]) (by simp [heq]),
      h calls call [] rfl⟩
  · intro h before c after heq
    rcases List.eq_nil_or_concat after with hnil | ⟨front, last, hafter⟩
    · rw [hnil] at heq
      obtain ⟨hbefore, hcall⟩ := List.append_inj' heq rfl
      rw [← hbefore, ← (List.cons.inj hcall).1]
      exact h.2
    · rw [hafter, List.concat_eq_append, ← List.cons_append, ← List.append_assoc] at heq
      exact h.1 before c front (List.append_inj' heq rfl).1

/-- Some call of the run meets `P` in the state it is made in. -/
def Sometime (step : σ → α → σ) (P : σ → α → Prop) (s : σ) (calls : List α) : Prop :=
  ∃ before call after, calls = before ++ call :: after ∧ P (run step s before) call

theorem not_sometime_iff :
    ¬Sometime step P s calls ↔ Along step (fun s call => ¬P s call) s calls := by
  constructor
  · intro h before call after heq hp
    exact h ⟨before, call, after, heq, hp⟩
  · intro h hsometime
    obtain ⟨before, call, after, heq, hp⟩ := hsometime
    exact h before call after heq hp

theorem sometime_concat {call : α} :
    Sometime step P s (calls ++ [call]) ↔ Sometime step P s calls ∨ P (run step s calls) call := by
  have hnot : Along step (fun s call => ¬P s call) s (calls ++ [call]) ↔
      Along step (fun s call => ¬P s call) s calls ∧ ¬P (run step s calls) call := along_concat
  rw [← not_sometime_iff, ← not_sometime_iff, ← not_or] at hnot
  exact not_iff_not.mp hnot

theorem Along.append_left {second : List α} (h : Along step P s (calls ++ second)) :
    Along step P s calls := by
  intro before call after heq
  exact h before call (after ++ second) (by simp [heq])

/-- A condition on the calls alone is one on the members of the list. -/
theorem along_of_forall {p : α → Prop} (h : ∀ call ∈ calls, p call) :
    Along step (fun _ call => p call) s calls := by
  intro before call after heq
  exact h call (by simp [heq])

/-- What every call that meets `P` preserves, a run of such calls preserves. -/
theorem run_invariant {I : σ → Prop} (hstep : ∀ s call, I s → P s call → I (step s call))
    (h0 : I s) (hp : Along step P s calls) : I (run step s calls) := by
  induction calls generalizing s with
  | nil => exact h0
  | cons call calls ih =>
    obtain ⟨hc, hrest⟩ := along_cons.mp hp
    exact ih (hstep s call h0 hc) hrest

/-- If a call keeps `I` exactly when it meets `P`, then `I` holds all along a run exactly when every
call of it meets `P`. -/
theorem forall_prefix_iff_along {I : σ → Prop} (hstep : ∀ s call, I s → (I (step s call) ↔ P s call))
    (h0 : I s) :
    (∀ before rest, calls = before ++ rest → I (run step s before)) ↔ Along step P s calls := by
  constructor
  · intro h before call after heq
    have hbefore := h before (call :: after) heq
    have hnext := h (before ++ [call]) after (by simp [heq])
    rw [run_concat] at hnext
    exact (hstep _ call hbefore).mp hnext
  · intro h before rest heq
    subst heq
    exact run_invariant (fun s call hi hp => (hstep s call hi).mpr hp) h0 h.append_left

theorem run_forall {I : σ → Prop} (hstep : ∀ s call, I s → I (step s call)) (h0 : I s)
    (calls : List α) : I (run step s calls) := by
  induction calls generalizing s with
  | nil => exact h0
  | cons call calls ih => exact ih (hstep s call h0)

/-- An invariant that speaks of the calls made so far. -/
theorem run_history {I : List α → σ → Prop}
    (hstep : ∀ past s call, I past s → I (past ++ [call]) (step s call))
    (h0 : I [] s) : I calls (run step s calls) := by
  have extend : ∀ past s, I past s → I (past ++ calls) (run step s calls) := by
    induction calls with
    | nil => intro past s h; simpa using h
    | cons call calls ih =>
      intro past s h
      simpa using ih (past ++ [call]) (step s call) (hstep past s call h)
  simpa using extend [] s h0

/-- Each call pays for its weight with the credit of the state or with a grant of its own. -/
theorem tally_le_granted {I : σ → Prop} {weight : σ → α → Nat} {credit : σ → Nat}
    {grants : α → Bool} (hstep : ∀ s call, I s → P s call → I (step s call))
    (hpay : ∀ s call, I s → P s call →
      weight s call + credit (step s call) ≤ credit s + if grants call then 1 else 0)
    (h0 : I s) (hp : Along step P s calls) :
    tally step weight s calls + credit (run step s calls) ≤ credit s + calls.countP grants := by
  induction calls generalizing s with
  | nil => simp [tally]
  | cons call calls ih =>
    obtain ⟨hc, hrest⟩ := along_cons.mp hp
    have hhead := hpay s call h0 hc
    have htail := ih (hstep s call h0 hc) hrest
    simp only [tally, run_cons, List.countP_cons]
    omega

theorem tally_concat {weight : σ → α → Nat} (call : α) :
    tally step weight s (calls ++ [call]) =
      tally step weight s calls + weight (run step s calls) call := by
  induction calls generalizing s with
  | nil => simp [tally]
  | cons first calls ih => rw [List.cons_append, tally, tally, ih, run_cons, Nat.add_assoc]

theorem outputs_concat {out : σ → α → Option β} (call : α) :
    outputs step out s (calls ++ [call]) =
      outputs step out s calls ++ (out (run step s calls) call).toList := by
  induction calls generalizing s with
  | nil => simp [outputs]
  | cons first calls ih => rw [List.cons_append, outputs, outputs, ih, run_cons, List.append_assoc]

/-- Two weights that agree in every state the run can be in have one tally. -/
theorem tally_congr {I : σ → Prop} {weight weight' : σ → α → Nat}
    (hstep : ∀ s call, I s → I (step s call)) (hw : ∀ s call, I s → weight s call = weight' s call)
    (h0 : I s) : tally step weight s calls = tally step weight' s calls := by
  induction calls generalizing s with
  | nil => rfl
  | cons call calls ih => rw [tally, tally, hw s call h0, ih (hstep s call h0)]

/-- Of the calls that write a value into a part of the state, the last one decides. -/
theorem run_last_write (get : σ → β) (writes : α → Bool) (value : α → β)
    (h : ∀ s call, get (step s call) = if writes call = true then value call else get s) :
    get (run step s calls) = ((calls.filter writes).getLast?.map value).getD (get s) := by
  induction calls using List.reverseRecOn with
  | nil => rfl
  | append_singleton calls call ih =>
    rw [run_concat, h, List.filter_append]
    cases hwrites : writes call with
    | true => simp [hwrites]
    | false => simpa [hwrites] using ih

section Projection

variable {step' : τ → α → τ} {f : σ → τ}

/-- A projection that commutes with the steps of a run commutes with the run. -/
theorem run_proj_of_mem (h : ∀ s, ∀ call ∈ calls, f (step s call) = step' (f s) call) :
    f (run step s calls) = run step' (f s) calls := by
  induction calls generalizing s with
  | nil => rfl
  | cons call calls ih =>
    have hfirst := h s call List.mem_cons_self
    rw [run_cons, run_cons, ih fun s other hother => h s other (List.mem_cons_of_mem _ hother), hfirst]

theorem run_proj (h : ∀ s call, f (step s call) = step' (f s) call) :
    f (run step s calls) = run step' (f s) calls :=
  run_proj_of_mem fun s call _ => h s call

theorem tally_proj (weight : τ → α → Nat) (h : ∀ s call, f (step s call) = step' (f s) call) :
    tally step (fun s call => weight (f s) call) s calls = tally step' weight (f s) calls := by
  induction calls generalizing s with
  | nil => rfl
  | cons call calls ih => simp only [tally, ih, h]

theorem outputs_proj_of_mem {out : σ → α → Option β} {out' : τ → α → Option β}
    (h : ∀ s, ∀ call ∈ calls, f (step s call) = step' (f s) call)
    (hout : ∀ s, ∀ call ∈ calls, out s call = out' (f s) call) :
    outputs step out s calls = outputs step' out' (f s) calls := by
  induction calls generalizing s with
  | nil => rfl
  | cons call calls ih =>
    have hfirst := h s call List.mem_cons_self
    have hnow := hout s call List.mem_cons_self
    have hrest := ih (s := step s call) (fun s other hother => h s other (List.mem_cons_of_mem _ hother))
      fun s other hother => hout s other (List.mem_cons_of_mem _ hother)
    rw [outputs, outputs, hrest, hfirst, hnow]

theorem outputs_proj {out : σ → α → Option β} {out' : τ → α → Option β}
    (h : ∀ s call, f (step s call) = step' (f s) call)
    (hout : ∀ s call, out s call = out' (f s) call) :
    outputs step out s calls = outputs step' out' (f s) calls :=
  outputs_proj_of_mem (fun s call _ => h s call) fun s call _ => hout s call

end Projection

section Purge

variable {out : σ → α → Option β} {keep : α → Bool}

/-- Calls that leave the state as it is can be deleted from a run. -/
theorem run_filter (hidle : ∀ s call, keep call = false → step s call = s) :
    run step s (calls.filter keep) = run step s calls := by
  induction calls generalizing s with
  | nil => rfl
  | cons call calls ih =>
    cases hk : keep call with
    | true => rw [List.filter_cons_of_pos hk, run_cons, run_cons, ih]
    | false =>
      have hstay := hidle s call hk
      rw [List.filter_cons_of_neg (by simp [hk]), run_cons, hstay, ih]

/-- If they give out nothing either, the run without them gives out the same. -/
theorem outputs_filter (hidle : ∀ s call, keep call = false → step s call = s)
    (hsilent : ∀ s call, keep call = false → out s call = none) :
    outputs step out s (calls.filter keep) = outputs step out s calls := by
  induction calls generalizing s with
  | nil => rfl
  | cons call calls ih =>
    cases hk : keep call with
    | true => rw [List.filter_cons_of_pos hk, outputs, outputs, ih]
    | false =>
      have hstay := hidle s call hk
      have hnone := hsilent s call hk
      rw [List.filter_cons_of_neg (by simp [hk]), outputs, hstay, hnone, ih]
      rfl

end Purge

end Runs
