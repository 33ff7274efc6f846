import AiBridge.Symbols

namespace AiBridge

open Text

/-- The trimmed command is `[[AB:`, a name, `]]` and the rest, and the first `]]` ends the tag. -/
structure TagForm (command name rest : String) : Prop where
  spelled : trim command = "[[AB:" ++ (name ++ "]]" ++ rest)
  first : ∀ before after, name ++ "]]" ++ rest = before ++ "]]" ++ after →
    name.length ≤ before.length

/-- The command carries the tag of a symbol in front of a text. -/
def Tagged (command : String) (symbol : Symbol) (rest : String) : Prop :=
  ∃ name, TagForm command name rest ∧ trim name = symbol.literalName

def UntaggedCommand (command : String) : Prop :=
  ∀ name rest, ¬TagForm command name rest

def UnknownTag (command : String) : Prop :=
  ∃ name rest, TagForm command name rest ∧ ∀ symbol : Symbol, trim name ≠ symbol.literalName

def CriticalTag (command : String) : Prop :=
  ∃ symbol rest, Tagged command symbol rest ∧ symbol.classification = .critical

theorem tagForm_iff {command name rest : String} :
    TagForm command name rest ↔ ∃ stripped, stripPrefix (trim command) "[[AB:" = some stripped ∧
      splitOnce stripped "]]" = some (name, rest) := by
  have hsep : "]]" ≠ "" := by decide
  constructor
  · intro h
    have hs : stripPrefix (trim command) "[[AB:" = some (name ++ "]]" ++ rest) :=
      stripPrefix_eq_some_iff.mpr h.spelled
    have hp : splitOnce (name ++ "]]" ++ rest) "]]" = some (name, rest) :=
      (splitOnce_eq_some_iff hsep).mpr ⟨rfl, h.first⟩
    exact ⟨_, hs, hp⟩
  · intro h
    obtain ⟨stripped, hs, hp⟩ := h
    have hspelled := stripPrefix_eq_some_iff.mp hs
    obtain ⟨hstripped, hfirst⟩ := (splitOnce_eq_some_iff hsep).mp hp
    exact ⟨by rw [hspelled, hstripped], fun before after heq =>
      hfirst before after (hstripped.trans heq)⟩

/-- A command has one tag at most. -/
theorem TagForm.unique {command name name' rest rest' : String} (h : TagForm command name rest)
    (h' : TagForm command name' rest') : name = name' ∧ rest = rest' := by
  obtain ⟨stripped, hs, hp⟩ := tagForm_iff.mp h
  obtain ⟨stripped', hs', hp'⟩ := tagForm_iff.mp h'
  have hsame : stripped = stripped' := Option.some.inj (hs.symm.trans hs')
  rw [← hsame] at hp'
  exact Prod.mk.inj (Option.some.inj (hp.symm.trans hp'))

/-- Text behind a command does not reach the tag in front of it. -/
theorem TagForm.append {command name rest : String} (h : TagForm command name rest)
    (text : String) : ∃ tail, TagForm (command ++ text) name (rest ++ tail) := by
  obtain ⟨tail, htail⟩ := trim_append command text
  refine ⟨tail, ?_, ?_⟩
  · rw [htail, h.spelled]
    simp only [String.append_assoc]
  · intro before after heq
    have hlist : (name ++ "]]" ++ rest).toList ++ tail.toList =
        (before ++ "]]").toList ++ after.toList := by
      rw [← String.toList_append, ← String.toList_append, ← heq]
      simp only [String.append_assoc]
    rcases List.append_eq_append_iff.mp hlist with ⟨more, hbefore, _⟩ | ⟨more, hinside, _⟩
    · have hlen := congrArg List.length hbefore
      simp only [String.length_toList, List.length_append, String.length_append] at hlen
      omega
    · refine h.first before (String.ofList more) ?_
      rw [← String.toList_inj, hinside]
      simp only [String.toList_append, String.toList_ofList]

theorem Tagged.append {command rest : String} {symbol : Symbol} (h : Tagged command symbol rest)
    (text : String) : ∃ tail, Tagged (command ++ text) symbol (rest ++ tail) := by
  obtain ⟨name, hform, hname⟩ := h
  obtain ⟨tail, hmore⟩ := hform.append text
  exact ⟨tail, name, hmore, hname⟩

namespace Symbol

theorem fromLiteral_eq_some_iff {name : String} {symbol : Symbol} :
    fromLiteral name = some symbol ↔ name = symbol.literalName := by
  constructor
  · intro h
    unfold fromLiteral at h
    have hname := List.find?_some h
    exact (of_decide_eq_true hname).symm
  · intro h
    rw [h, fromLiteral_literalName]

theorem extractFromCommand_of_tagged {command rest : String} {symbol : Symbol}
    (h : Tagged command symbol rest) : extractFromCommand command = (symbol, trim rest) := by
  obtain ⟨name, hform, hname⟩ := h
  obtain ⟨stripped, hs, hp⟩ := tagForm_iff.mp hform
  exact extractFromCommand_of_parts hs hp (fromLiteral_eq_some_iff.mpr hname)

theorem extractFromCommand_fst_of_tagged {command rest : String} {symbol : Symbol}
    (h : Tagged command symbol rest) : (extractFromCommand command).1 = symbol :=
  congrArg Prod.fst (extractFromCommand_of_tagged h)

/-- A command that is read as anything but unclassified carries the tag of its symbol. -/
theorem tagged_of_extractFromCommand {command : String}
    (h : (extractFromCommand command).1 ≠ critUnclassified) :
    ∃ rest, Tagged command (extractFromCommand command).1 rest ∧
      (extractFromCommand command).2 = trim rest := by
  obtain ⟨stripped, name, rest, symbol, hs, hp, hf⟩ := extractFromCommand_tagged h
  have htagged : Tagged command symbol rest :=
    ⟨name, tagForm_iff.mpr ⟨stripped, hs, hp⟩, fromLiteral_eq_some_iff.mp hf⟩
  rw [extractFromCommand_of_tagged htagged]
  exact ⟨rest, htagged, rfl⟩

theorem delegable_ne_unclassified {symbol : Symbol} (h : symbol.classification = .delegable) :
    symbol ≠ critUnclassified := by
  intro he
  rw [he] at h
  exact absurd h (by decide)

/-- Only the tag of a delegable symbol makes a command delegable. -/
theorem extractFromCommand_delegable_iff {command : String} :
    (extractFromCommand command).1.classification = .delegable ↔
      ∃ symbol rest, Tagged command symbol rest ∧ symbol.classification = .delegable := by
  constructor
  · intro h
    obtain ⟨rest, htagged, _⟩ := tagged_of_extractFromCommand (delegable_ne_unclassified h)
    exact ⟨_, rest, htagged, h⟩
  · intro h
    obtain ⟨symbol, rest, htagged, hclass⟩ := h
    rw [extractFromCommand_fst_of_tagged htagged]
    exact hclass

theorem extractFromCommand_of_untagged {command : String} (h : UntaggedCommand command) :
    (extractFromCommand command).1 = critUnclassified := by
  by_contra hne
  obtain ⟨rest, ⟨name, hform, _⟩, _⟩ := tagged_of_extractFromCommand hne
  exact h name rest hform

theorem extractFromCommand_of_unknownTag {command : String} (h : UnknownTag command) :
    (extractFromCommand command).1 = critUnclassified := by
  obtain ⟨name, rest, hform, hunknown⟩ := h
  by_contra hne
  obtain ⟨rest', ⟨name', hform', hname'⟩, _⟩ := tagged_of_extractFromCommand hne
  obtain ⟨hsame, _⟩ := hform.unique hform'
  exact hunknown _ (hsame ▸ hname')

theorem extractFromCommand_of_blank {command : String} (h : trim command = "") :
    extractFromCommand command = (critUnclassified, command) := by
  have hs : stripPrefix "" "[[AB:" = none := by decide
  simp only [extractFromCommand, h, hs]

theorem tagged_trim_iff {command rest : String} {symbol : Symbol} :
    Tagged (trim command) symbol rest ↔ Tagged command symbol rest := by
  have hform : ∀ name, TagForm (trim command) name rest ↔ TagForm command name rest := by
    intro name
    rw [tagForm_iff, tagForm_iff, trim_idem]
  unfold Tagged
  simp only [hform]

/-- Trimming a command first does not change its symbol. -/
theorem extractFromCommand_trim_fst (command : String) :
    (extractFromCommand (trim command)).1 = (extractFromCommand command).1 := by
  by_cases hu : (extractFromCommand (trim command)).1 = critUnclassified
  · by_cases hu' : (extractFromCommand command).1 = critUnclassified
    · exact hu.trans hu'.symm
    · obtain ⟨rest, htagged, _⟩ := tagged_of_extractFromCommand hu'
      exact extractFromCommand_fst_of_tagged (tagged_trim_iff.mpr htagged)
  · obtain ⟨rest, htagged, _⟩ := tagged_of_extractFromCommand hu
    exact (extractFromCommand_fst_of_tagged (tagged_trim_iff.mp htagged)).symm

/-- A command that is not tagged is given back as it came. -/
theorem extractFromCommand_of_not_tagged {command : String}
    (h : ∀ symbol rest, ¬Tagged command symbol rest) :
    extractFromCommand command = (critUnclassified, command) := by
  cases hs : stripPrefix (trim command) "[[AB:" with
  | none => simp only [extractFromCommand, hs]
  | some stripped =>
    cases hp : splitOnce stripped "]]" with
    | none => simp only [extractFromCommand, hs, hp]
    | some parts =>
      cases hf : fromLiteral (trim parts.1) with
      | none => simp only [extractFromCommand, hs, hp, hf]
      | some symbol =>
        have hform : TagForm command parts.1 parts.2 := tagForm_iff.mpr ⟨stripped, hs, hp⟩
        have hname := fromLiteral_eq_some_iff.mp hf
        exact absurd ⟨parts.1, hform, hname⟩ (h symbol parts.2)

/-- The codec of the tags: what is encoded is read back, what is read as a symbol is a tag of it and
can be encoded again, and any other text is left alone. -/
theorem extractFromCommand_codec (command : String) :
    (∀ symbol : Symbol, extractFromCommand (symbol.withTag command) = (symbol, trim command)) ∧
    (∀ name rest symbol, TagForm command name rest → fromLiteral (trim name) = some symbol →
      extractFromCommand command = (symbol, trim rest) ∧
      extractFromCommand (symbol.withTag (trim rest)) = extractFromCommand command) ∧
    ((∀ name rest symbol, TagForm command name rest → fromLiteral (trim name) ≠ some symbol) →
      extractFromCommand command = (critUnclassified, command) ∧
      (extractFromCommand command).1.classification ≠ .delegable) := by
  refine ⟨fun symbol => extractFromCommand_of_withTag symbol command, ?_, ?_⟩
  · intro name rest symbol hform hname
    have htagged : Tagged command symbol rest := ⟨name, hform, fromLiteral_eq_some_iff.mp hname⟩
    have hread := extractFromCommand_of_tagged htagged
    have hagain := extractFromCommand_of_withTag symbol (trim rest)
    rw [trim_idem] at hagain
    exact ⟨hread, hagain.trans hread.symm⟩
  · intro h
    have hnone : ∀ symbol rest, ¬Tagged command symbol rest := by
      intro symbol rest htagged
      obtain ⟨name, hform, hname⟩ := htagged
      exact h name rest symbol hform (fromLiteral_eq_some_iff.mpr hname)
    have hread := extractFromCommand_of_not_tagged hnone
    have hclass : critUnclassified.classification ≠ .delegable := by decide
    rw [hread]
    exact ⟨rfl, hclass⟩

/-- A tag with blanks in it and another tag behind it, and a tag that is never closed. -/
theorem extractFromCommand_codec_nested :
    extractFromCommand " [[AB: CRIT.SECRET ]] [[AB:OPS.APP.OPEN]] " =
        (critSecret, "[[AB:OPS.APP.OPEN]]") ∧
      extractFromCommand "[[AB:OPS.APP.OPEN] ] x" =
        (critUnclassified, "[[AB:OPS.APP.OPEN] ] x") := by
  have hopen := (extractFromCommand_codec " [[AB: CRIT.SECRET ]] [[AB:OPS.APP.OPEN]] ").2.1
    " CRIT.SECRET " " [[AB:OPS.APP.OPEN]]" critSecret
    (tagForm_iff.mpr ⟨" CRIT.SECRET ]] [[AB:OPS.APP.OPEN]]", by decide, by decide⟩) (by decide)
  have hclosed := (extractFromCommand_codec "[[AB:OPS.APP.OPEN] ] x").2.2 (by
    intro name rest symbol hform
    obtain ⟨stripped, hs, hp⟩ := tagForm_iff.mp hform
    have hs' : stripPrefix (trim "[[AB:OPS.APP.OPEN] ] x") "[[AB:" = some "OPS.APP.OPEN] ] x" := by
      decide
    have hp' : splitOnce "OPS.APP.OPEN] ] x" "]]" = none := by decide
    rw [hs', Option.some.injEq] at hs
    rw [← hs, hp'] at hp
    simp at hp)
  have htrim : trim " [[AB:OPS.APP.OPEN]]" = "[[AB:OPS.APP.OPEN]]" := by decide
  rw [htrim] at hopen
  exact ⟨hopen.1, hclosed.1⟩

end Symbol

end AiBridge
