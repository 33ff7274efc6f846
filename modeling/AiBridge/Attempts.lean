import Mathlib.Data.List.Infix
import Mathlib.Tactic.Common

namespace Attempts

/-- How the other party answers a call, after all the calls it was sent before. -/
abbrev Party (κ : Type) (ρ : κ → Type) (ε : Type) := List κ → (call : κ) → Except ε (ρ call)

/-- A computation that makes calls and stops at the first one that is refused. All the calls that
were made, the refused one too, are its state. -/
abbrev Attempt (κ ε α : Type) := ExceptT ε (StateM (List κ)) α

variable {κ ε α β : Type} {ρ : κ → Type}

/-- The party whose refusals are reported in other words. -/
def Party.mapError {ε' : Type} (party : Party κ ρ ε) (words : ε → ε') : Party κ ρ ε' :=
  fun past call => (party past call).mapError words

def send (party : Party κ ρ ε) (call : κ) : Attempt κ ε (ρ call) :=
  fun past => (party past call, past ++ [call])

/-- Every one of the calls is answered when it follows those before it. -/
def Answered (party : Party κ ρ ε) (past calls : List κ) : Prop :=
  ∀ front call back, calls = front ++ call :: back → ∃ reply, party (past ++ front) call = .ok reply

/-- The calls of a script are made in order, up to the first one that is refused. -/
inductive Played (party : Party κ ρ ε) (past script : List κ) : Except ε α → List κ → Prop
  | through (value : α) (answered : Answered party past script) :
    Played party past script (.ok value) script
  | refused (front : List κ) (call : κ) (back : List κ) (error : ε)
    (split : script = front ++ call :: back) (answered : Answered party past front)
    (refusal : party (past ++ front) call = .error error) :
    Played party past script (.error error) (front ++ [call])

/-- The last one of the calls is refused, after those before it were answered. -/
def Refused (party : Party κ ρ ε) (past calls : List κ) (error : ε) : Prop :=
  ∃ front call, calls = front ++ [call] ∧ Answered party past front ∧
    party (past ++ front) call = .error error

/-- The computation makes the calls of the script, and fails only where one of them is refused. -/
def Plays (party : Party κ ρ ε) (past : List κ) (attempt : Attempt κ ε α) (script : List κ) : Prop :=
  ∃ made, (attempt past).2 = past ++ made ∧ Played party past script (attempt past).1 made

variable {party : Party κ ρ ε} {past script : List κ}

section MapError

variable {ε' : Type} {words : ε → ε'} {call : κ}

theorem Party.mapError_eq_ok {reply : ρ call} :
    party.mapError words past call = .ok reply ↔ party past call = .ok reply := by
  unfold Party.mapError
  cases party past call <;> simp [Except.mapError]

theorem Party.mapError_eq_error {error : ε'} :
    party.mapError words past call = .error error ↔
      ∃ refusal, error = words refusal ∧ party past call = .error refusal := by
  unfold Party.mapError
  cases party past call <;> simp [Except.mapError, eq_comm]

theorem answered_mapError : Answered (party.mapError words) past script ↔ Answered party past script := by
  simp only [Answered, Party.mapError_eq_ok]

theorem refused_mapError {error : ε'} : Refused (party.mapError words) past script error ↔
    ∃ refusal, error = words refusal ∧ Refused party past script refusal := by
  constructor
  · intro h
    obtain ⟨front, call, hscript, hanswered, hrefusal⟩ := h
    obtain ⟨refusal, hwords, hrefused⟩ := Party.mapError_eq_error.mp hrefusal
    exact ⟨refusal, hwords, front, call, hscript, answered_mapError.mp hanswered, hrefused⟩
  · intro h
    obtain ⟨refusal, hwords, front, call, hscript, hanswered, hrefused⟩ := h
    exact ⟨front, call, hscript, answered_mapError.mpr hanswered,
      Party.mapError_eq_error.mpr ⟨refusal, hwords, hrefused⟩⟩

end MapError

theorem answered_nil : Answered party past [] := by
  intro front call back h
  simp at h

theorem Answered.append {second : List κ} (h : Answered party past script)
    (hsecond : Answered party (past ++ script) second) : Answered party past (script ++ second) := by
  intro front call back heq
  rcases List.append_eq_append_iff.mp heq with ⟨more, hfront, hback⟩ | ⟨more, hscript, hmore⟩
  · obtain ⟨reply, hreply⟩ := hsecond more call back hback
    exact ⟨reply, by rw [hfront, ← List.append_assoc]; exact hreply⟩
  · cases more with
    | nil =>
      obtain ⟨reply, hreply⟩ := hsecond [] call back (by simpa using hmore.symm)
      rw [List.append_nil] at hscript hreply
      exact ⟨reply, by rw [← hscript]; exact hreply⟩
    | cons first more =>
      obtain ⟨rfl, _⟩ := List.cons.inj hmore
      exact h front call more hscript

theorem Answered.append_left {second : List κ} (h : Answered party past (script ++ second)) :
    Answered party past script := by
  intro front call back heq
  exact h front call (back ++ second) (by simp [heq])

theorem answered_singleton {call : κ} :
    Answered party past [call] ↔ ∃ reply, party past call = .ok reply := by
  constructor
  · intro h
    simpa using h [] call [] rfl
  · rintro ⟨reply, hreply⟩ front other back heq
    cases front with
    | nil =>
      obtain ⟨rfl, _⟩ := List.cons.inj heq
      exact ⟨reply, by simpa using hreply⟩
    | cons first front => simp at heq

section Rules

variable {attempt : Attempt κ ε α} {next : α → Attempt κ ε β} {second : List κ}

theorem plays_pure (value : α) : Plays party past (pure value : Attempt κ ε α) [] :=
  ⟨[], (List.append_nil past).symm, .through value answered_nil⟩

theorem plays_send (call : κ) : Plays party past (send party call) [call] := by
  refine ⟨[call], rfl, ?_⟩
  have hresult : (send party call past).1 = party past call := rfl
  rw [hresult]
  cases h : party past call with
  | ok reply => exact .through reply (answered_singleton.mpr ⟨reply, h⟩)
  | error error => exact .refused [] call [] error rfl answered_nil (by simpa using h)

theorem bind_ok {past' : List κ} {value : α} (h : attempt past = (.ok value, past')) :
    (attempt >>= next) past = next value past' := by
  show (ExceptT.bind attempt next) past = _
  simp [ExceptT.bind, ExceptT.mk, ExceptT.bindCont, bind, StateT.bind, h]

theorem bind_error {past' : List κ} {error : ε} (h : attempt past = (.error error, past')) :
    (attempt >>= next) past = (.error error, past') := by
  show (ExceptT.bind attempt next) past = _
  simp only [ExceptT.bind, ExceptT.mk, bind, StateT.bind, h]
  rfl

theorem bind_eq_ok {value : β} (h : ((attempt >>= next) past).1 = .ok value) :
    ∃ first past', attempt past = (.ok first, past') ∧ (next first past').1 = .ok value := by
  rcases hrun : attempt past with ⟨result, past'⟩
  cases result with
  | error error =>
    rw [bind_error hrun] at h
    exact nomatch h
  | ok first =>
    rw [bind_ok hrun] at h
    exact ⟨first, past', rfl, h⟩

/-- The second part is played after the whole script of the first. -/
theorem Plays.bind (h : Plays party past attempt script)
    (hnext : ∀ value, (attempt past).1 = .ok value →
      Plays party (past ++ script) (next value) second) :
    Plays party past (attempt >>= next) (script ++ second) := by
  obtain ⟨made, hmade, hplayed⟩ := h
  generalize hresult : (attempt past).1 = result at hplayed hnext
  have hrun : attempt past = (result, past ++ made) := Prod.ext hresult hmade
  cases hplayed with
  | through value hanswered =>
    rw [Plays, bind_ok hrun]
    obtain ⟨more, hmore, hplayed⟩ := hnext value rfl
    refine ⟨script ++ more, by rw [hmore, List.append_assoc], ?_⟩
    generalize (next value (past ++ script)).1 = final at hplayed
    cases hplayed with
    | through value' hsecond => exact .through value' (hanswered.append hsecond)
    | refused front call back error hsplit hfront hrefusal =>
      rw [← List.append_assoc]
      exact .refused (script ++ front) call back error (by simp [hsplit]) (hanswered.append hfront)
        (by rw [← List.append_assoc]; exact hrefusal)
  | refused front call back error hsplit hfront hrefusal =>
    rw [Plays, bind_error hrun]
    exact ⟨front ++ [call], rfl, .refused front call (back ++ second) error (by simp [hsplit]) hfront
      hrefusal⟩

/-- What is played in the second part may depend on what the first part brought. -/
theorem Plays.bind_some {ι : Type} [Nonempty ι] {seconds : ι → List κ}
    (h : Plays party past attempt script)
    (hnext : ∀ value, (attempt past).1 = .ok value →
      ∃ i, Plays party (past ++ script) (next value) (seconds i)) :
    ∃ i, Plays party past (attempt >>= next) (script ++ seconds i) := by
  cases hresult : (attempt past).1 with
  | error error =>
    obtain ⟨i⟩ := ‹Nonempty ι›
    refine ⟨i, h.bind fun value hvalue => ?_⟩
    rw [hresult] at hvalue
    exact nomatch hvalue
  | ok value =>
    obtain ⟨i, hi⟩ := hnext value hresult
    refine ⟨i, h.bind fun other hother => ?_⟩
    rw [hresult] at hother
    rw [← Except.ok.inj hother]
    exact hi

theorem plays_forM {γ : Type} {body : γ → Attempt κ ε PUnit} {parts : γ → List κ}
    (h : ∀ past item, Plays party past (body item) (parts item)) (items : List γ) :
    ∀ past, Plays party past (items.forM body) (items.flatMap parts) := by
  induction items with
  | nil => exact fun past => plays_pure PUnit.unit
  | cons item items ih =>
    intro past
    rw [List.flatMap_cons]
    exact (h past item).bind fun _ _ => ih _

end Rules

namespace Played

variable {result : Except ε α} {made : List κ}

theorem made_prefix (h : Played party past script result made) : made <+: script := by
  cases h with
  | through => exact List.prefix_refl _
  | refused front call back _ hsplit => exact ⟨back, by simp [hsplit]⟩

/-- The other party went along with the whole script, or the computation failed. -/
theorem ok_iff (h : Played party past script result made) :
    (∃ value, result = .ok value) ↔ Answered party past script := by
  cases h with
  | through value hanswered => exact iff_of_true ⟨value, rfl⟩ hanswered
  | refused front call back error hsplit _ hrefusal =>
    refine iff_of_false (by simp) ?_
    intro hanswered
    obtain ⟨reply, hreply⟩ := hanswered front call back hsplit
    rw [hrefusal] at hreply
    exact nomatch hreply

theorem made_of_ok {value : α} (h : Played party past script (.ok value : Except ε α) made) :
    made = script := by
  cases h with
  | through => rfl

/-- Whatever call is made, those before it were answered. -/
theorem answered_before {call : κ} (h : Played party past script result made) (hmem : call ∈ made) :
    ∃ taken, taken ++ [call] <+: script ∧ Answered party past taken := by
  have hbefore : Answered party past made.dropLast := by
    cases h with
    | through value hanswered =>
      obtain ⟨rest, hsplit⟩ := List.dropLast_prefix script
      rw [← hsplit] at hanswered
      exact hanswered.append_left
    | refused front call back error _ hanswered _ =>
      rw [List.dropLast_concat]
      exact hanswered
  obtain ⟨taken, back, hmade⟩ := List.append_of_mem hmem
  refine ⟨taken, ?_, ?_⟩
  · refine List.IsPrefix.trans ⟨back, ?_⟩ h.made_prefix
    rw [hmade]
    simp
  · rw [hmade, List.dropLast_append_of_ne_nil (List.cons_ne_nil call back)] at hbefore
    exact hbefore.append_left

end Played

/-- Either the whole script is answered, or the computation stops with the refusal of a call. -/
theorem Plays.cases {attempt : Attempt κ ε α} (h : Plays party past attempt script) :
    (Answered party past script ∧ ∃ value, attempt past = (.ok value, past ++ script)) ∨
      ∃ calls error, calls <+: script ∧ Refused party past calls error ∧
        attempt past = (.error error, past ++ calls) := by
  obtain ⟨made, hmade, hplayed⟩ := h
  generalize hresult : (attempt past).1 = result at hplayed
  have hrun : attempt past = (result, past ++ made) := Prod.ext hresult hmade
  cases hplayed with
  | through value hanswered => exact .inl ⟨hanswered, value, hrun⟩
  | refused front call back error hsplit hanswered hrefusal =>
    exact .inr ⟨front ++ [call], error, ⟨back, by simp [hsplit]⟩,
      ⟨front, call, rfl, hanswered, hrefusal⟩, hrun⟩

end Attempts
