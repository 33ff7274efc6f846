import AiBridge.ExecutorGate
import AiBridge.Pieces

namespace AiBridge

open Text

/-- The characters between which `shlex` cuts. -/
def isSeparator (c : Char) : Bool := c == ' ' || c == '\t' || c == '\n'

/-- The words of a text in which nothing is quoted. -/
def plainWords (text : String) : List String :=
  ((text.toList.splitOnP isSeparator).filter (· ≠ [])).map String.ofList

/-- A character of a word is one of the text that does not separate. -/
theorem mem_plainWords_iff {text : String} {c : Char} :
    (∃ word ∈ plainWords text, c ∈ word.toList) ↔ c ∈ text.toList ∧ isSeparator c = false := by
  rw [← mem_splitOnP_iff, plainWords]
  constructor
  · intro h
    obtain ⟨word, hword, hc⟩ := h
    obtain ⟨chars, hchars, rfl⟩ := List.mem_map.mp hword
    rw [String.toList_ofList] at hc
    exact ⟨chars, List.mem_of_mem_filter hchars, hc⟩
  · intro h
    obtain ⟨chars, hchars, hc⟩ := h
    have hne : decide (chars ≠ []) = true := by simpa using List.ne_nil_of_mem hc
    refine ⟨String.ofList chars, List.mem_map.mpr ⟨chars, List.mem_filter.mpr ⟨hchars, hne⟩, rfl⟩, ?_⟩
    rw [String.toList_ofList]
    exact hc

theorem plainWords_ne_empty {text word : String} (h : word ∈ plainWords text) : word ≠ "" := by
  obtain ⟨chars, hchars, rfl⟩ := List.mem_map.mp h
  simpa using List.of_mem_filter hchars

/-- There is a word exactly if there is something between the separators. -/
theorem plainWords_ne_nil_iff {text : String} :
    plainWords text ≠ [] ↔ ∃ c ∈ text.toList, isSeparator c = false := by
  constructor
  · intro h
    obtain ⟨word, hword⟩ := List.exists_mem_of_ne_nil _ h
    have hchars : word.toList ≠ [] := by
      simpa using plainWords_ne_empty hword
    obtain ⟨c, hc⟩ := List.exists_mem_of_ne_nil _ hchars
    exact ⟨c, mem_plainWords_iff.mp ⟨word, hword, hc⟩⟩
  · intro h
    obtain ⟨c, hc⟩ := h
    obtain ⟨word, hword, _⟩ := mem_plainWords_iff.mpr hc
    exact List.ne_nil_of_mem hword

/-- Texts without quotes, backslashes and comments are cut at blanks, tabs and line breaks only. -/
def Shlex.CutsAtSeparators (shlex : Shlex) : Prop :=
  ∀ text, (∀ c ∈ "'\"\\#".toList, c ∉ text.toList) → shlex.split text = some (plainWords text)

/-- `plainWords` as the tokenizer. -/
def plainShlex : Shlex where
  split text := some (plainWords text)
  mem_of_mem_word := by
    intro text words word c hsplit hword hc
    obtain rfl := Option.some.inj hsplit
    exact (mem_plainWords_iff.mp ⟨word, hword, hc⟩).1
  word_ne_empty := by
    intro text words word hsplit hword _
    obtain rfl := Option.some.inj hsplit
    exact plainWords_ne_empty hword

variable {shlex : Shlex} {command : String}

/-- A blank command is parsed into words exactly if some of its white space is no separator. -/
theorem parseCommand_of_blank (hcuts : shlex.CutsAtSeparators) (hblank : trim command = "") :
    (∃ tokens, parseCommand shlex command = .ok tokens) ↔
      ∃ c ∈ command.toList, isSeparator c = false := by
  have hchars := trim_eq_empty_iff.mp hblank
  have hplain : ∀ c ∈ "'\"\\#".toList, c ∉ command.toList := by
    intro c hc hmem
    have hquotes : ("'\"\\#".toList.all fun c => !isWhitespace c) = true := by decide
    have hquote : isWhitespace c = false := by
      simpa using List.all_eq_true.mp hquotes c hc
    have hspace := hchars c hmem
    rw [hquote] at hspace
    exact absurd hspace (by decide)
  have hworking : workingText command = command := by
    rw [workingText, Symbol.extractFromCommand_of_blank hblank, if_pos rfl]
  simp only [parseCommand_eq_ok_iff, hworking, hcuts command hplain, Option.some.injEq]
  rw [← plainWords_ne_nil_iff]
  constructor
  · intro h
    obtain ⟨tokens, htokens⟩ := h
    rw [htokens]
    exact tokens.2
  · intro h
    exact ⟨⟨plainWords command, h⟩, rfl⟩

/-- The armed lock on its own blocks whatever parses and is not delegable, except for commands of
white space that is not all blanks, tabs and line breaks. -/
theorem lock_blocks_unclassified_iff (shlex : Shlex) (hcuts : shlex.CutsAtSeparators)
    (guard : SafetyGuard) (harmed : guard.state.armed = true) (command : String) :
    ((∃ tokens, parseCommand shlex command = .ok tokens) →
        (Symbol.extractFromCommand command).1.classification ≠ .delegable →
          guard.evaluateForCommand command = .block) ↔
      ¬((∀ c ∈ command.toList, isWhitespace c = true) ∧
        ∃ c ∈ command.toList, c ≠ ' ' ∧ c ≠ '\t' ∧ c ≠ '\n') := by
  have hsep : ∀ c : Char, isSeparator c = false ↔ c ≠ ' ' ∧ c ≠ '\t' ∧ c ≠ '\n' := by
    intro c
    simp [isSeparator, and_assoc]
  rw [SafetyGuard.evaluateForCommand_eq_block_iff, ← trim_eq_empty_iff]
  simp only [← hsep]
  by_cases hblank : trim command = ""
  · have hclass : (Symbol.extractFromCommand command).1.classification ≠ .delegable := by
      rw [Symbol.extractFromCommand_of_blank hblank]
      exact SymbolClassification.noConfusion
    rw [parseCommand_of_blank hcuts hblank]
    simp [hblank, hclass]
  · have hcritical : (Symbol.extractFromCommand command).1.classification ≠ .delegable →
        (Symbol.extractFromCommand command).1.classification = .critical := by
      cases (Symbol.extractFromCommand command).1.classification with
      | delegable => intro h; exact absurd rfl h
      | critical => intro _; rfl
    simp only [hblank, false_and, not_false_eq_true, iff_true]
    intro _ hclass
    exact ⟨harmed, hblank, hcritical hclass⟩

theorem lock_blocks_untagged : SafetyGuard.new.evaluateForCommand "rm -rf /" = .block := by
  have hword : ¬((∀ c ∈ "rm -rf /".toList, isWhitespace c = true) ∧
      ∃ c ∈ "rm -rf /".toList, c ≠ ' ' ∧ c ≠ '\t' ∧ c ≠ '\n') := by
    intro h
    exact absurd (h.1 'r' (by decide)) (by decide)
  exact (lock_blocks_unclassified_iff plainShlex (fun _ _ => rfl) .new rfl "rm -rf /").mpr hword
    ⟨⟨["rm", "-rf", "/"], by decide⟩, by decide +kernel⟩ (by decide +kernel)

/-- A single no-break space is one word for the parser and no command for the lock. -/
theorem lock_allows_no_break_space :
    (∃ tokens, parseCommand plainShlex "\u00a0" = .ok tokens) ∧
      (Symbol.extractFromCommand "\u00a0").1.classification ≠ .delegable ∧
      SafetyGuard.new.evaluateForCommand "\u00a0" ≠ .block :=
  ⟨⟨⟨["\u00a0"], by decide⟩, by decide +kernel⟩, by decide +kernel, by decide +kernel⟩

end AiBridge
