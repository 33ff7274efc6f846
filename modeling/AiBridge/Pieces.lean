import AiBridge.Text

namespace Text

theorem mem_splitOnP_iff {α : Type*} {p : α → Bool} {xs : List α} {x : α} :
    (∃ piece ∈ xs.splitOnP p, x ∈ piece) ↔ x ∈ xs ∧ p x = false := by
  induction xs with
  | nil => simp
  | cons y ys ih =>
    rw [List.splitOnP_cons_eq_if_modifyHead]
    obtain ⟨first, rest, hsplit⟩ := List.exists_cons_of_ne_nil (List.splitOnP_ne_nil p ys)
    cases hy : p y with
    | true =>
      simp only [if_true, List.exists_mem_cons_iff, List.not_mem_nil, false_or, ih]
      rw [List.mem_cons]
      constructor
      · intro h
        exact ⟨Or.inr h.1, h.2⟩
      · intro h
        obtain ⟨hmem, hx⟩ := h
        rcases hmem with heq | hmem
        · rw [heq, hy] at hx
          exact absurd hx (by decide)
        · exact ⟨hmem, hx⟩
    | false =>
      rw [hsplit] at ih ⊢
      simp only [List.exists_mem_cons_iff] at ih
      simp only [Bool.false_eq_true, if_false, List.modifyHead_cons, List.exists_mem_cons_iff]
      rw [List.mem_cons, List.mem_cons, or_assoc, ih]
      constructor
      · intro h
        rcases h with heq | hrest
        · exact ⟨Or.inl heq, heq ▸ hy⟩
        · exact ⟨Or.inr hrest.1, hrest.2⟩
      · intro h
        obtain ⟨hmem, hx⟩ := h
        exact hmem.imp id fun hmem => ⟨hmem, hx⟩

/-- The pieces of a text between separators, trimmed and without the empty ones. -/
def trimmedPieces (sep : Char) (cs : List Char) : List String :=
  ((cs.splitOn sep).map fun piece => trim (String.ofList piece)).filter (· ≠ "")

/-- A piece that survives being joined to others and split off again. -/
structure IsPiece (sep : Char) (word : String) : Prop where
  nonempty : word ≠ ""
  trimmed : trim word = word
  fresh : sep ∉ word.toList

variable {sep c : Char} {cs gap : List Char} {word : String} {words : List String}

theorem trimmedPieces_append_sep (ds : List Char) :
    trimmedPieces sep (cs ++ sep :: ds) = trimmedPieces sep cs ++ trimmedPieces sep ds := by
  rw [trimmedPieces, List.splitOn_append_cons_self, List.map_append, List.filter_append]
  rfl

/-- Blanks before the text go when its first piece is trimmed. -/
theorem trimmedPieces_gap (hgap : ∀ c ∈ gap, isWhitespace c = true ∧ c ≠ sep) :
    trimmedPieces sep (gap ++ cs) = trimmedPieces sep cs := by
  induction gap with
  | nil => rfl
  | cons c gap ih =>
    obtain ⟨⟨hblank, hne⟩, hrest⟩ := List.forall_mem_cons.mp hgap
    rw [← ih hrest, List.cons_append, trimmedPieces, trimmedPieces,
      List.splitOn_cons_eq_if_modifyHead, if_neg (by simpa using hne)]
    obtain ⟨first, rest, hsplit⟩ :=
      List.exists_cons_of_ne_nil (List.splitOn_ne_nil sep (gap ++ cs))
    have htrim : trim (String.ofList (c :: first)) = trim (String.ofList first) := by
      rw [trim, trim, String.toList_ofList, String.toList_ofList, trimChars_cons_blank hblank]
    rw [hsplit, List.modifyHead_cons, List.map_cons, List.map_cons, htrim]

theorem trimmedPieces_of_isPiece (h : IsPiece sep word) :
    trimmedPieces sep word.toList = [word] := by
  rw [trimmedPieces, List.splitOn_eq_singleton h.fresh, List.map_singleton, String.ofList_toList,
    h.trimmed, List.filter_cons_of_pos (by simpa using h.nonempty), List.filter_nil]

theorem trimmedPieces_nil : trimmedPieces sep [] = [] := by
  rw [trimmedPieces, List.splitOn_nil, List.map_singleton]
  decide

theorem isPiece_of_mem (h : word ∈ trimmedPieces sep cs) : IsPiece sep word := by
  obtain ⟨hmem, hne⟩ := List.mem_filter.mp h
  obtain ⟨piece, hpiece, hword⟩ := List.mem_map.mp hmem
  refine ⟨by simpa using hne, ?_, ?_⟩
  · rw [← hword, trim_idem]
  · intro hsep
    rw [← hword, trim, String.toList_ofList, String.toList_ofList] at hsep
    have hin : sep ∈ piece := by
      have hdrop := (List.rdropWhile_prefix isWhitespace _).mem hsep
      exact (List.dropWhile_sublist isWhitespace).mem hdrop
    rw [List.splitOn_eq_splitOnP] at hpiece
    have hother := (mem_splitOnP_iff.mp ⟨piece, hpiece, hin⟩).2
    simp at hother

/-- Words that are joined by a separator and blanks are split into themselves exactly if each of
them is a piece. -/
theorem trimmedPieces_join_iff (hgap : ∀ c ∈ gap, isWhitespace c = true ∧ c ≠ sep) :
    trimmedPieces sep ((sep :: gap).intercalate (words.map String.toList)) = words ↔
      ∀ word ∈ words, IsPiece sep word := by
  constructor
  · intro h word hmem
    rw [← h] at hmem
    exact isPiece_of_mem hmem
  · intro h
    induction words with
    | nil => exact trimmedPieces_nil
    | cons first rest ih =>
      obtain ⟨hfirst, hrest⟩ := List.forall_mem_cons.mp h
      cases rest with
      | nil =>
        rw [List.map_singleton, List.intercalate_singleton]
        exact trimmedPieces_of_isPiece hfirst
      | cons second rest =>
        have hlater := ih hrest
        rw [List.map_cons] at hlater
        rw [List.map_cons, List.map_cons, List.intercalate_cons_cons, List.append_assoc,
          List.cons_append, trimmedPieces_append_sep, trimmedPieces_gap hgap, hlater,
          trimmedPieces_of_isPiece hfirst]
        rfl

theorem trimmedPieces_fresh (h : sep ∉ cs) :
    trimmedPieces sep cs = [trim (String.ofList cs)].filter (· ≠ "") := by
  rw [trimmedPieces, List.splitOn_eq_singleton h, List.map_singleton]

/-- What stands behind the last separator is split on its own. -/
theorem trimmedPieces_complete (ds : List Char) :
    trimmedPieces sep (cs.rdropWhile (· ≠ sep) ++ ds) =
      trimmedPieces sep (cs.rdropWhile (· ≠ sep)) ++ trimmedPieces sep ds := by
  rcases List.eq_nil_or_concat' (cs.rdropWhile (· ≠ sep)) with hnil | ⟨before, last, hlast⟩
  · rw [hnil, trimmedPieces_nil]
    rfl
  · have hne : cs.rdropWhile (· ≠ sep) ≠ [] := by
      rw [hlast]
      exact List.concat_ne_nil last before
    have hsep := List.rdropWhile_last_not (· ≠ sep) cs hne
    have hgetLast := List.getLast_congr hne (List.concat_ne_nil last before) hlast
    have heq : last = sep := by
      rw [hgetLast, List.getLast_append_singleton] at hsep
      simpa using hsep
    have hbefore : trimmedPieces sep (before ++ [sep]) = trimmedPieces sep before := by
      rw [trimmedPieces_append_sep, trimmedPieces_nil, List.append_nil]
    rw [hlast, heq, hbefore, List.append_assoc]
    exact trimmedPieces_append_sep ds

theorem trimChars_concat_blank (h : isWhitespace c = true) :
    trimChars (cs ++ [c]) = trimChars cs := by
  rw [trimChars, List.dropWhile_append]
  split
  next hblank =>
    have hnil : cs.dropWhile isWhitespace = [] := by simpa using hblank
    rw [trimChars, hnil, List.dropWhile_cons_of_pos h]
    rfl
  next => rw [List.rdropWhile_concat_pos _ _ _ h, trimChars]

/-- A newline ends a line, which loses no more than a carriage return. -/
theorem lineChars_newline {line : List Char} (h : '\n' ∉ line) (rest : List Char) :
    ∃ kept, lineChars (line ++ '\n' :: rest) = kept :: lineChars rest ∧
      (line = kept ∨ line = kept ++ ['\r']) := by
  induction line with
  | nil => exact ⟨[], by simp [lineChars], Or.inl rfl⟩
  | cons c line ih =>
    rw [List.mem_cons, not_or] at h
    obtain ⟨kept, hkept, hline⟩ := ih h.2
    by_cases hreturn : c = '\r' ∧ (line ++ '\n' :: rest).head? = some '\n'
    · have hnil : line = [] := by
        cases line with
        | nil => rfl
        | cons d line =>
          have hd : d = '\n' := by simpa using hreturn.2
          exact absurd (by simp [hd]) h.2
      refine ⟨[], ?_, Or.inr (by simp [hnil, hreturn.1])⟩
      rw [List.cons_append, lineChars, if_neg (Ne.symm h.1), if_pos hreturn, hnil]
      simp [lineChars]
    · refine ⟨c :: kept, ?_, ?_⟩
      · rw [List.cons_append, lineChars, if_neg (Ne.symm h.1), if_neg hreturn, hkept]
      · rcases hline with heq | heq
        · exact Or.inl (by rw [heq])
        · exact Or.inr (by rw [heq, List.cons_append])

theorem lineChars_fresh (h : '\n' ∉ cs) : lineChars cs = if cs = [] then [] else [cs] := by
  induction cs with
  | nil => rfl
  | cons c cs ih =>
    rw [List.mem_cons, not_or] at h
    have hreturn : ¬(c = '\r' ∧ cs.head? = some '\n') := by
      intro hreturn
      exact h.2 (List.mem_of_head? hreturn.2)
    rw [lineChars, if_neg (Ne.symm h.1), if_neg hreturn, ih h.2, if_neg (List.cons_ne_nil c cs)]
    cases cs with
    | nil => rfl
    | cons d cs => rfl

/-- Trimmed and without the empty ones, the lines of a text are its pieces between newlines. -/
theorem trimmed_lineChars (cs : List Char) :
    ((lineChars cs).map fun line => trim (String.ofList line)).filter (· ≠ "") =
      trimmedPieces '\n' cs := by
  by_cases hmem : '\n' ∈ cs
  · obtain ⟨line, rest, hsplit, hfresh⟩ := List.eq_append_cons_of_mem hmem
    obtain ⟨kept, hkept, hline⟩ := lineChars_newline hfresh rest
    have hlength : rest.length < cs.length := by
      rw [hsplit, List.length_append, List.length_cons]
      omega
    have hrest := trimmed_lineChars rest
    have htrim : trim (String.ofList line) = trim (String.ofList kept) := by
      rcases hline with heq | heq
      · rw [heq]
      · rw [heq, trim, trim, String.toList_ofList, String.toList_ofList,
          trimChars_concat_blank (by decide)]
    rw [hsplit, hkept, trimmedPieces_append_sep, trimmedPieces_fresh hfresh, htrim, ← hrest,
      List.map_cons, ← List.singleton_append, List.filter_append]
  · rw [lineChars_fresh hmem, trimmedPieces_fresh hmem]
    cases cs with
    | nil => decide
    | cons c cs => rfl
termination_by cs.length

/-- Before trimmed text only blanks at the front are trimmed. -/
theorem trimChars_append_trimmed {ds : List Char} (hcs : cs.dropWhile isWhitespace ≠ [])
    (hds : trimChars ds = ds) (hne : ds ≠ []) :
    trimChars (cs ++ ds) = cs.dropWhile isWhitespace ++ ds := by
  rw [trimChars, List.dropWhile_append, if_neg (by simpa using hcs)]
  apply List.rdropWhile_eq_self_iff.mpr
  intro hends hblank
  have hlast : isWhitespace (ds.getLast hne) = false := by
    have hends : (trimChars ds).getLast? = some (ds.getLast hne) := by
      rw [hds]
      exact List.getLast?_eq_some_getLast hne
    exact getLast_trimChars hends
  rw [List.getLast_append_of_ne_nil hends hne, hlast] at hblank
  exact absurd hblank (by decide)

end Text
