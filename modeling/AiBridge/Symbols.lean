import AiBridge.Text

namespace AiBridge

open Text

inductive SymbolClassification
  | delegable
  | critical
  deriving DecidableEq, Repr

inductive Symbol
  | opsAppOpen
  | opsAppBrowse
  | opsFileCreate
  | opsFileEdit
  | opsFileDeleteRecoverable
  | opsTermRunLocal
  | opsInputHid
  | critIrreversible
  | critSysSecurity
  | critSecret
  | critEgress
  | critFinancial
  | critThirdParty
  | critUnclassified
  deriving DecidableEq, Repr

namespace Symbol

def literalName : Symbol → String
  | opsAppOpen => "OPS.APP.OPEN"
  | opsAppBrowse => "OPS.APP.BROWSE"
  | opsFileCreate => "OPS.FILE.CREATE"
  | opsFileEdit => "OPS.FILE.EDIT"
  | opsFileDeleteRecoverable => "OPS.FILE.DELETE.RECOVERABLE"
  | opsTermRunLocal => "OPS.TERM.RUN.LOCAL"
  | opsInputHid => "OPS.INPUT.HID"
  | critIrreversible => "CRIT.IRREVERSIBLE"
  | critSysSecurity => "CRIT.SYS.SECURITY"
  | critSecret => "CRIT.SECRET"
  | critEgress => "CRIT.EGRESS"
  | critFinancial => "CRIT.FINANCIAL"
  | critThirdParty => "CRIT.THIRD.PARTY"
  | critUnclassified => "CRIT.UNCLASSIFIED"

def classification : Symbol → SymbolClassification
  | opsAppOpen | opsAppBrowse | opsFileCreate | opsFileEdit | opsFileDeleteRecoverable
  | opsTermRunLocal | opsInputHid => .delegable
  | critIrreversible | critSysSecurity | critSecret | critEgress | critFinancial
  | critThirdParty | critUnclassified => .critical

def all : List Symbol :=
  [opsAppOpen, opsAppBrowse, opsFileCreate, opsFileEdit, opsFileDeleteRecoverable,
    opsTermRunLocal, opsInputHid, critIrreversible, critSysSecurity, critSecret, critEgress,
    critFinancial, critThirdParty, critUnclassified]

def fromLiteral (name : String) : Option Symbol :=
  all.find? fun symbol => symbol.literalName = name

def withTag (symbol : Symbol) (command : String) : String :=
  let trimmed := trim command
  if trimmed = "" then "[[AB:" ++ symbol.literalName ++ "]]"
  else "[[AB:" ++ symbol.literalName ++ "]] " ++ trimmed

def extractFromCommand (command : String) : Symbol × String :=
  match stripPrefix (trim command) "[[AB:" with
  | none => (critUnclassified, command)
  | some stripped =>
    match splitOnce stripped "]]" with
    | none => (critUnclassified, command)
    | some (name, rest) =>
      match fromLiteral (trim name) with
      | some symbol => (symbol, trim rest)
      | none => (critUnclassified, command)

theorem fromLiteral_literalName (symbol : Symbol) :
    fromLiteral symbol.literalName = some symbol := by
  cases symbol <;> decide

/-- No literal name holds the character that ends a tag, or a blank at an end. -/
theorem literalName_clean (symbol : Symbol) :
    ']' ∉ symbol.literalName.toList ∧ trim symbol.literalName = symbol.literalName := by
  cases symbol <;> decide

theorem extractFromCommand_of_parts {command stripped name rest : String} {symbol : Symbol}
    (hs : stripPrefix (trim command) "[[AB:" = some stripped)
    (hp : splitOnce stripped "]]" = some (name, rest))
    (hf : fromLiteral (trim name) = some symbol) :
    extractFromCommand command = (symbol, trim rest) := by
  simp only [extractFromCommand, hs, hp, hf]

/-- A known symbol other than the default comes from a well-formed tag. -/
theorem extractFromCommand_tagged {command : String}
    (h : (extractFromCommand command).1 ≠ critUnclassified) :
    ∃ stripped name rest symbol, stripPrefix (trim command) "[[AB:" = some stripped ∧
      splitOnce stripped "]]" = some (name, rest) ∧ fromLiteral (trim name) = some symbol := by
  cases hs : stripPrefix (trim command) "[[AB:" with
  | none => simp only [extractFromCommand, hs, ne_eq, not_true_eq_false] at h
  | some stripped =>
    cases hp : splitOnce stripped "]]" with
    | none => simp only [extractFromCommand, hs, hp, ne_eq, not_true_eq_false] at h
    | some parts =>
      cases hf : fromLiteral (trim parts.1) with
      | none => simp only [extractFromCommand, hs, hp, hf, ne_eq, not_true_eq_false] at h
      | some symbol => exact ⟨stripped, parts.1, parts.2, symbol, rfl, hp, hf⟩

theorem startsWith_of_tagged {command : String}
    (h : (extractFromCommand command).1 ≠ critUnclassified) :
    startsWith (trimStart command) "[[AB:" = true := by
  obtain ⟨stripped, _, _, _, hs, _⟩ := extractFromCommand_tagged h
  have hpre := prefix_of_stripPrefix hs
  have htrim : (trim command).toList <+: (trimStart command).toList := by
    simpa only [trim, trimStart, trimChars, String.toList_ofList] using
      List.rdropWhile_prefix isWhitespace (command.toList.dropWhile isWhitespace)
  exact decide_eq_true (hpre.trans htrim)

theorem withTag_toList (symbol : Symbol) (command : String) :
    ∃ tail, (symbol.withTag command).toList =
        "[[AB:".toList ++ (symbol.literalName.toList ++ "]]".toList ++ tail) ∧
      trimChars tail = trimChars command.toList ∧
      ∀ c, tail.getLast? = some c → isWhitespace c = false := by
  by_cases he : trim command = ""
  · have hnil : trimChars command.toList = [] := by simpa [trim] using congrArg String.toList he
    exact ⟨[], by simp [withTag, he], by rw [hnil]; rfl, by simp⟩
  · have hne : trimChars command.toList ≠ [] := fun hnil => he (by simp [trim, hnil])
    refine ⟨' ' :: trimChars command.toList, ?_, ?_, ?_⟩
    · simp only [withTag, he, if_false, String.toList_append]
      simp [trim]
    · rw [trimChars_cons_blank (by decide), trimChars_idem]
    · intro c hc
      rw [List.getLast?_cons_of_ne_nil hne] at hc
      exact getLast_trimChars hc

theorem trim_withTag (symbol : Symbol) (command : String) :
    trim (symbol.withTag command) = symbol.withTag command := by
  obtain ⟨tail, hlist, _, hlast⟩ := withTag_toList symbol command
  have hends : trimChars (symbol.withTag command).toList = (symbol.withTag command).toList := by
    rw [hlist]
    apply trimChars_of_ends
    · intro c hc
      obtain rfl : '[' = c := by simpa using hc
      decide
    · intro c hc
      rw [← List.append_assoc, ← List.append_assoc, List.getLast?_append] at hc
      cases ht : tail.getLast? with
      | none =>
        obtain rfl : ']' = c := by simpa [ht, List.getLast?_cons, List.getLast?_append] using hc
        decide
      | some d =>
        obtain rfl : d = c := by simpa [ht] using hc
        exact hlast d ht
  rw [trim, hends, String.ofList_toList]

/-- The decoder reads back the tag and the trimmed text of an encoded command. -/
theorem extractFromCommand_of_withTag (symbol : Symbol) (command : String) :
    extractFromCommand (symbol.withTag command) = (symbol, trim command) := by
  obtain ⟨tail, hlist, htail, _⟩ := withTag_toList symbol command
  obtain ⟨hfresh, hname⟩ := literalName_clean symbol
  have hs : stripPrefix (trim (symbol.withTag command)) "[[AB:" =
      some (String.ofList (symbol.literalName.toList ++ "]]".toList ++ tail)) := by
    rw [trim_withTag, ← String.ofList_toList (s := symbol.withTag command), hlist]
    exact stripPrefix_append _ _
  have hp : splitOnce (String.ofList (symbol.literalName.toList ++ "]]".toList ++ tail)) "]]" =
      some (symbol.literalName, String.ofList tail) := by
    have hcut : cut [']', ']'] (symbol.literalName.toList ++ [']', ']'] ++ tail) =
        some (symbol.literalName.toList, tail) := cut_of_fresh hfresh
    have hsep : "]]".toList = [']', ']'] := by decide
    simp only [splitOnce, String.toList_ofList, hsep, hcut, Option.map_some, String.ofList_toList]
  have hf : fromLiteral (trim symbol.literalName) = some symbol := by
    rw [hname, fromLiteral_literalName]
  rw [extractFromCommand_of_parts hs hp hf]
  simp only [trim, String.toList_ofList, htail]

end Symbol

end AiBridge
