import Mathlib.Data.List.Basic
import Mathlib.Data.List.TakeWhile
import Mathlib.Tactic.Common
import Mathlib.Tactic.Ring

namespace ByteStream

variable {α : Type*}

/-- One read of at most `size` bytes from a stream, which is the list of the pieces it arrives in:
what has arrived is taken, and nothing is read only at the end of the stream. -/
def read (size : Nat) : List (List α) → List α × List (List α)
  | [] => ([], [])
  | [] :: chunks => read size chunks
  | (b :: chunk) :: chunks => ((b :: chunk).take size, (b :: chunk).drop size :: chunks)

/-- What reads until the end of the stream give. -/
def readToEnd (chunks : List (List α)) : List α := chunks.flatten

theorem read_flatten (size : Nat) (chunks : List (List α)) :
    (read size chunks).1 ++ (read size chunks).2.flatten = chunks.flatten := by
  induction chunks with
  | nil => rfl
  | cons chunk chunks ih =>
    cases chunk with
    | nil => exact ih
    | cons b chunk =>
      rw [read, List.flatten_cons, ← List.append_assoc, List.take_append_drop, List.flatten_cons]

theorem read_of_fits {size : Nat} {chunk : List α} {chunks : List (List α)} (hne : chunk ≠ [])
    (hfits : chunk.length ≤ size) : read size (chunk :: chunks) = (chunk, [] :: chunks) := by
  cases chunk with
  | nil => exact absurd rfl hne
  | cons b chunk => rw [read, List.take_of_length_le hfits, List.drop_of_length_le hfits]

theorem length_flatten_read_lt {size : Nat} {chunks : List (List α)}
    (hne : (read size chunks).1 ≠ []) :
    (read size chunks).2.flatten.length < chunks.flatten.length := by
  have hflatten := congrArg List.length (read_flatten size chunks)
  rw [List.length_append] at hflatten
  have hpos := List.length_pos_iff.mpr hne
  omega

theorem flatten_eq_nil_of_read {size : Nat} (hsize : 0 < size) {chunks : List (List α)}
    (h : (read size chunks).1 = []) : chunks.flatten = [] := by
  induction chunks with
  | nil => rfl
  | cons chunk chunks ih =>
    cases chunk with
    | nil => exact ih h
    | cons b chunk =>
      have hlength := congrArg List.length h
      rw [read, List.length_take, List.length_cons, List.length_nil] at hlength
      omega

/-- Reads of that size, one after another, stop after the first `n` bytes. -/
def StopsAt (size : Nat) : List (List α) → Nat → Prop
  | [], n => n = 0
  | chunk :: chunks, n =>
    (∃ k, n = min (k * size) chunk.length) ∨
      (chunk.length ≤ n ∧ StopsAt size chunks (n - chunk.length))

theorem stopsAt_zero {size : Nat} {chunks : List (List α)} : StopsAt size chunks 0 := by
  cases chunks with
  | nil => rfl
  | cons chunk chunks => exact Or.inl ⟨0, by rw [Nat.zero_mul, Nat.zero_min]⟩

theorem stopsAt_nil_cons {size n : Nat} {chunks : List (List α)} (hn : 0 < n) :
    StopsAt size ([] :: chunks) n ↔ StopsAt size chunks n := by
  rw [StopsAt]
  constructor
  · intro h
    rcases h with ⟨k, hk⟩ | ⟨_, h⟩
    · rw [List.length_nil, Nat.min_zero] at hk
      omega
    · simpa using h
  · intro h
    exact Or.inr ⟨Nat.zero_le _, by simpa using h⟩

theorem stops_inside_iff {size length n : Nat} (hn : 0 < n) (hread : min size length ≤ n) :
    (∃ k, n = min (k * size) length) ↔
      ∃ k, n - min size length = min (k * size) (length - size) := by
  constructor
  · intro h
    obtain ⟨k, hk⟩ := h
    cases k with
    | zero =>
      rw [Nat.zero_mul, Nat.zero_min] at hk
      omega
    | succ k =>
      rw [Nat.succ_mul] at hk
      exact ⟨k, by omega⟩
  · intro h
    obtain ⟨k, hk⟩ := h
    exact ⟨k + 1, by rw [Nat.succ_mul]; omega⟩

/-- Behind the bytes of a read, the later reads stop where they stop in what is left. -/
theorem stopsAt_read {size n : Nat} {chunks : List (List α)} (hn : 0 < n)
    (hread : (read size chunks).1.length ≤ n) (hne : (read size chunks).1 ≠ []) :
    StopsAt size chunks n ↔
      StopsAt size (read size chunks).2 (n - (read size chunks).1.length) := by
  induction chunks with
  | nil => exact absurd rfl hne
  | cons chunk chunks ih =>
    cases chunk with
    | nil =>
      rw [stopsAt_nil_cons hn]
      exact ih hread hne
    | cons b chunk =>
      rw [read] at hread hne ⊢
      simp only [List.length_take] at hread ⊢
      have hlength : n - min size (b :: chunk).length - ((b :: chunk).length - size) =
          n - (b :: chunk).length := by omega
      have hend : (b :: chunk).length ≤ n ↔
          (b :: chunk).length - size ≤ n - min size (b :: chunk).length := by omega
      rw [StopsAt, StopsAt, List.length_drop, stops_inside_iff hn hread, hend, hlength]

/-- No read stops inside of another. -/
theorem not_stopsAt_of_lt_read {size n : Nat} {chunks : List (List α)} (hn : 0 < n)
    (hread : n < (read size chunks).1.length) : ¬StopsAt size chunks n := by
  induction chunks with
  | nil => simp [read] at hread
  | cons chunk chunks ih =>
    cases chunk with
    | nil =>
      rw [stopsAt_nil_cons hn]
      exact ih hread
    | cons b chunk =>
      rw [read, List.length_take] at hread
      intro h
      rw [StopsAt] at h
      rcases h with ⟨k, hk⟩ | ⟨hlength, _⟩
      · cases k with
        | zero =>
          rw [Nat.zero_mul, Nat.zero_min] at hk
          omega
        | succ k =>
          rw [Nat.succ_mul] at hk
          omega
      · omega

/-- A line that was read, what the buffered reader has read ahead of it, and what is left in the
stream. -/
structure Line (α : Type*) where
  line : List α
  ahead : List α
  rest : List (List α)

variable [DecidableEq α]

/-- A buffered reader fills its buffer until the delimiter is in it or the stream ends. -/
def readUntil (capacity : Nat) (delimiter : α) (chunks : List (List α)) : Line α :=
  if (read capacity chunks).1 = [] then ⟨[], [], (read capacity chunks).2⟩
  else if delimiter ∈ (read capacity chunks).1 then
    ⟨(read capacity chunks).1.takeWhile (· ≠ delimiter) ++ [delimiter],
      ((read capacity chunks).1.dropWhile (· ≠ delimiter)).tail, (read capacity chunks).2⟩
  else
    let next := readUntil capacity delimiter (read capacity chunks).2
    ⟨(read capacity chunks).1 ++ next.line, next.ahead, next.rest⟩
termination_by chunks.flatten.length
decreasing_by
  rename_i hne _
  exact length_flatten_read_lt hne

section Spec

variable {capacity : Nat} {delimiter : α} {chunks : List (List α)}
  {available left before after : List α}

omit [DecidableEq α] in
theorem split_found (h : available ++ left = before ++ delimiter :: after)
    (hfresh : delimiter ∉ before) (hmem : delimiter ∈ available) :
    ∃ ahead, available = before ++ delimiter :: ahead ∧ after = ahead ++ left := by
  rcases List.append_eq_append_iff.mp h with ⟨tail, hbefore, _⟩ | ⟨tail, havailable, htail⟩
  · rw [hbefore] at hfresh
    exact absurd (List.mem_append_left tail hmem) hfresh
  · cases tail with
    | nil =>
      rw [havailable, List.append_nil] at hmem
      exact absurd hmem hfresh
    | cons b ahead =>
      obtain ⟨hb, hafter⟩ := List.cons.inj htail
      exact ⟨ahead, by rw [havailable, hb], hafter⟩

omit [DecidableEq α] in
theorem read_ne_nil (hcapacity : 0 < capacity) (h : chunks.flatten = before ++ delimiter :: after) :
    (read capacity chunks).1 ≠ [] := by
  intro hempty
  have hnone := flatten_eq_nil_of_read hcapacity hempty
  rw [h] at hnone
  simp at hnone

omit [DecidableEq α] in
theorem split_missed (h : available ++ left = before ++ delimiter :: after)
    (hfresh : delimiter ∉ before) (hmem : delimiter ∉ available) :
    ∃ before', before = available ++ before' ∧ left = before' ++ delimiter :: after ∧
      delimiter ∉ before' := by
  rcases List.append_eq_append_iff.mp h with ⟨tail, hbefore, hleft⟩ | ⟨tail, havailable, htail⟩
  · refine ⟨tail, hbefore, hleft, ?_⟩
    intro htail
    rw [hbefore] at hfresh
    exact hfresh (List.mem_append_right _ htail)
  · cases tail with
    | nil => exact ⟨[], by rw [havailable]; simp, htail.symm, List.not_mem_nil⟩
    | cons b ahead =>
      obtain ⟨hb, _⟩ := List.cons.inj htail
      rw [havailable, hb] at hmem
      exact absurd (List.mem_append_right before List.mem_cons_self) hmem

theorem takeWhile_fresh (ahead : List α) (hfresh : delimiter ∉ before) :
    (before ++ delimiter :: ahead).takeWhile (· ≠ delimiter) = before ∧
      (before ++ delimiter :: ahead).dropWhile (· ≠ delimiter) = delimiter :: ahead := by
  have hall : ∀ b ∈ before, decide (b ≠ delimiter) = true := by
    intro b hb
    have hne : b ≠ delimiter := fun heq => hfresh (heq ▸ hb)
    exact decide_eq_true hne
  rw [List.takeWhile_append_of_pos hall, List.dropWhile_append_of_pos hall]
  simp

theorem readUntil_of_found {ahead : List α}
    (h : (read capacity chunks).1 = before ++ delimiter :: ahead) (hfresh : delimiter ∉ before) :
    readUntil capacity delimiter chunks =
      ⟨before ++ [delimiter], ahead, (read capacity chunks).2⟩ := by
  obtain ⟨htake, hdrop⟩ := takeWhile_fresh ahead hfresh
  have hmem : delimiter ∈ before ++ delimiter :: ahead :=
    List.mem_append_right before List.mem_cons_self
  have hne : before ++ delimiter :: ahead ≠ [] := List.ne_nil_of_mem hmem
  rw [readUntil, h, if_neg hne, if_pos hmem, htake, hdrop, List.tail_cons]

theorem readUntil_of_missed (hne : (read capacity chunks).1 ≠ [])
    (hmem : delimiter ∉ (read capacity chunks).1) :
    readUntil capacity delimiter chunks =
      ⟨(read capacity chunks).1 ++ (readUntil capacity delimiter (read capacity chunks).2).line,
        (readUntil capacity delimiter (read capacity chunks).2).ahead,
        (readUntil capacity delimiter (read capacity chunks).2).rest⟩ := by
  rw [readUntil, if_neg hne, if_neg hmem]

/-- The line ends at the first delimiter, and what comes behind it is read ahead or left. -/
theorem readUntil_spec (hcapacity : 0 < capacity)
    (h : chunks.flatten = before ++ delimiter :: after) (hfresh : delimiter ∉ before) :
    (readUntil capacity delimiter chunks).line = before ++ [delimiter] ∧
      (readUntil capacity delimiter chunks).ahead ++
        (readUntil capacity delimiter chunks).rest.flatten = after := by
  induction chunks using readUntil.induct capacity delimiter generalizing before with
  | case1 chunks hempty =>
    exact absurd hempty (read_ne_nil hcapacity h)
  | case2 chunks hne hmem =>
    rw [← read_flatten capacity chunks] at h
    obtain ⟨ahead, hread, hafter⟩ := split_found h hfresh hmem
    rw [readUntil_of_found hread hfresh]
    exact ⟨rfl, hafter.symm⟩
  | case3 chunks hne hmem ih =>
    rw [← read_flatten capacity chunks] at h
    obtain ⟨before', hbefore, hrest, hfresh'⟩ := split_missed h hfresh hmem
    obtain ⟨hline, hleft⟩ := ih hrest hfresh'
    rw [readUntil_of_missed hne hmem, hbefore, List.append_assoc]
    exact ⟨congrArg _ hline, hleft⟩

/-- Without the delimiter in the stream the line is all of it. -/
theorem readUntil_of_endless (hcapacity : 0 < capacity) (h : delimiter ∉ chunks.flatten) :
    (readUntil capacity delimiter chunks).line = chunks.flatten := by
  induction chunks using readUntil.induct capacity delimiter with
  | case1 chunks hempty =>
    rw [readUntil, if_pos hempty, flatten_eq_nil_of_read hcapacity hempty]
  | case2 chunks hne hmem =>
    rw [← read_flatten capacity chunks] at h
    exact absurd (List.mem_append_left _ hmem) h
  | case3 chunks hne hmem ih =>
    rw [← read_flatten capacity chunks, List.mem_append, not_or] at h
    rw [readUntil_of_missed hne hmem, ih h.2, read_flatten]

/-- What stands before the first delimiter, or all if there is none. -/
def firstLine (delimiter : α) (bytes : List α) : List α := bytes.takeWhile (· ≠ delimiter)

theorem firstLine_of_found (after : List α) (hfresh : delimiter ∉ before) :
    firstLine delimiter (before ++ delimiter :: after) = before :=
  (takeWhile_fresh after hfresh).1

theorem firstLine_of_endless {bytes : List α} (h : delimiter ∉ bytes) :
    firstLine delimiter bytes = bytes := by
  apply List.takeWhile_eq_self_iff.mpr
  intro b hb
  have hne : b ≠ delimiter := fun heq => h (heq ▸ hb)
  exact decide_eq_true hne

/-- Nothing was read ahead exactly if nothing comes behind the delimiter or a read stops right
there. -/
theorem readUntil_ahead_eq_nil_iff (hcapacity : 0 < capacity)
    (h : chunks.flatten = before ++ delimiter :: after) (hfresh : delimiter ∉ before) :
    (readUntil capacity delimiter chunks).ahead = [] ↔
      after = [] ∨ StopsAt capacity chunks (before.length + 1) := by
  induction chunks using readUntil.induct capacity delimiter generalizing before with
  | case1 chunks hempty =>
    exact absurd hempty (read_ne_nil hcapacity h)
  | case2 chunks hne hmem =>
    rw [← read_flatten capacity chunks] at h
    obtain ⟨ahead, hread, hafter⟩ := split_found h hfresh hmem
    have hlength : (read capacity chunks).1.length = before.length + 1 + ahead.length := by
      rw [hread, List.length_append, List.length_cons]
      omega
    rw [readUntil_of_found hread hfresh, hafter]
    constructor
    · intro hnil
      have hnone : ahead = [] := hnil
      right
      rw [hnone, List.length_nil] at hlength
      rw [stopsAt_read (by omega) (by omega) hne, hlength, Nat.add_zero, Nat.sub_self]
      exact stopsAt_zero
    · intro hstops
      by_contra hahead
      have hpos : 0 < ahead.length := List.length_pos_iff.mpr hahead
      rcases hstops with hnone | hstop
      · exact hahead (List.append_eq_nil_iff.mp hnone).1
      · exact not_stopsAt_of_lt_read (by omega) (by omega) hstop
  | case3 chunks hne hmem ih =>
    rw [← read_flatten capacity chunks] at h
    obtain ⟨before', hbefore, hrest, hfresh'⟩ := split_missed h hfresh hmem
    have hlength : before.length = (read capacity chunks).1.length + before'.length := by
      rw [hbefore, List.length_append]
    have hleft : before.length + 1 - (read capacity chunks).1.length = before'.length + 1 := by
      omega
    rw [readUntil_of_missed hne hmem, stopsAt_read (by omega) (by omega) hne, hleft]
    exact ih hrest hfresh'

end Spec

end ByteStream
