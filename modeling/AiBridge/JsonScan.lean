import AiBridge.JsonText
import AiBridge.Pieces

namespace JsonScan

/-- Where a reader of JSON is between two characters: before the document, inside of one bracket and
`depth` others, inside of a text or behind a backslash with `depth` brackets open, in a number or
literal of its own, or behind the document. -/
inductive State
  | before
  | plain (depth : Nat)
  | string (depth : Nat)
  | escape (depth : Nat)
  | scalar
  | done
  deriving DecidableEq, Repr

def isBlank (c : Char) : Bool := c == ' ' || c == '\t' || c == '\n' || c == '\r'

/-- Numbers, `true`, `false` and `null` are made of these. -/
def isScalar (c : Char) : Bool := c.isDigit || "+-.Eetrufalsn".toList.contains c

/-- Behind a value with so many brackets open. -/
def closed : Nat → State
  | 0 => .done
  | depth + 1 => .plain depth

/-- What the grammar of JSON lets a character do. The text of every document goes through, and other
texts do as well. -/
def step : State → Char → Option State
  | .before, c =>
    if isBlank c then some .before
    else if c = '\x7b' ∨ c = '[' then some (.plain 0)
    else if c = '"' then some (.string 0)
    else if isScalar c then some .scalar
    else none
  | .plain depth, c =>
    if c = '\x7b' ∨ c = '[' then some (.plain (depth + 1))
    else if c = '\x7d' ∨ c = ']' then some (closed depth)
    else if c = '"' then some (.string (depth + 1))
    else if isBlank c ∨ c = ',' ∨ c = ':' ∨ isScalar c then some (.plain depth)
    else none
  | .string depth, c =>
    if c = '"' then some (closed depth)
    else if c = '\\' then some (.escape depth)
    else some (.string depth)
  | .escape depth, _ => some (.string depth)
  | .scalar, c => if isScalar c then some .scalar else if isBlank c then some .done else none
  | .done, c => if isBlank c then some .done else none

def run : State → List Char → Option State
  | state, [] => some state
  | state, c :: cs => (step state c).bind fun next => run next cs

/-- The text may be that of one document. -/
def accepts (cs : List Char) : Bool := run .before cs = some .done || run .before cs = some .scalar

variable {state next : State} {cs ds : List Char} {c : Char} {depth : Nat}

theorem accepts_iff : accepts cs = true ↔
    run .before cs = some .done ∨ run .before cs = some .scalar := by
  simp [accepts]

theorem run_cons (h : step state c = some next) : run state (c :: cs) = run next cs := by
  rw [run, h, Option.bind_some]

theorem run_cons_none (h : step state c = none) : run state (c :: cs) = none := by
  rw [run, h, Option.bind_none]

theorem run_append : run state (cs ++ ds) = (run state cs).bind fun next => run next ds := by
  induction cs generalizing state with
  | nil => rfl
  | cons c cs ih =>
    rw [List.cons_append, run, run]
    cases step state c with
    | none => rfl
    | some next => exact ih

theorem run_append_of (h : run state cs = some next) : run state (cs ++ ds) = run next ds := by
  rw [run_append, h, Option.bind_some]

theorem step_string (hquote : c ≠ '"') (hslash : c ≠ '\\') :
    step (.string depth) c = some (.string depth) := by
  rw [step, if_neg hquote, if_neg hslash]

theorem step_plain_of_scalar (h : isScalar c = true) :
    step (.plain depth) c = some (.plain depth) := by
  have hne : ∀ d, isScalar d = false → c ≠ d := by
    intro d hd heq
    rw [heq, hd] at h
    exact absurd h (by decide)
  have hopen : ¬(c = '\x7b' ∨ c = '[') := by
    rintro (heq | heq)
    · exact hne _ (by decide) heq
    · exact hne _ (by decide) heq
  have hclose : ¬(c = '\x7d' ∨ c = ']') := by
    rintro (heq | heq)
    · exact hne _ (by decide) heq
    · exact hne _ (by decide) heq
  rw [step, if_neg hopen, if_neg hclose, if_neg (hne _ (by decide)),
    if_pos (Or.inr (Or.inr (Or.inr h)))]

/-- The document begins with its first character that is no blank. -/
theorem step_ne_before (h : step state c = some next)
    (hbegins : isBlank c = false ∨ state ≠ .before) : next ≠ .before := by
  have hclosed : ∀ depth, closed depth ≠ .before := by
    intro depth
    cases depth with
    | zero => exact State.noConfusion
    | succ depth => exact State.noConfusion
  intro hbefore
  cases state with
  | before =>
    have hblank := hbegins.resolve_right (fun hne => hne rfl)
    rw [step, hblank] at h
    grind
  | plain depth =>
    rw [step] at h
    grind
  | string depth =>
    rw [step] at h
    grind
  | escape depth =>
    rw [step] at h
    grind
  | scalar =>
    rw [step] at h
    grind
  | done =>
    rw [step] at h
    grind

theorem digitChar_plain : ∀ n < 16, Nat.digitChar n ≠ '"' ∧ Nat.digitChar n ≠ '\\' := by decide

theorem run_escapeChar (c : Char) :
    run (.string depth) (Json.escapeChar c) = some (.string depth) := by
  rcases Json.escapeChar_cases c with ⟨hself, _, hquote, hslash⟩ | ⟨letter, hletter, _⟩ |
    ⟨high, low, hhigh, hlow, hcode⟩
  · rw [hself, run_cons (step_string hquote hslash)]
    rfl
  · rw [hletter]
    rfl
  · have hfirst := digitChar_plain high hhigh
    have hsecond := digitChar_plain low hlow
    have hstart : run (.string depth) ['\\', 'u', '0', '0'] = some (.string depth) := rfl
    have hdigits : run (.string depth) [Nat.digitChar high, Nat.digitChar low] =
        some (.string depth) := by
      rw [run_cons (step_string hfirst.1 hfirst.2), run_cons (step_string hsecond.1 hsecond.2)]
      rfl
    rw [hcode]
    exact (run_append_of hstart).trans hdigits

theorem run_quoted (s : String) : run (.string depth) (s.toList.flatMap Json.escapeChar ++ ['"']) =
    some (closed depth) := by
  induction s.toList with
  | nil => rfl
  | cons c cs ih =>
    rw [List.flatMap_cons, List.append_assoc, run_append_of (run_escapeChar c)]
    exact ih

theorem run_plain_quoted (s : String) : run (.plain depth) (Json.quoted s) = some (.plain depth) :=
  run_quoted s

theorem run_scalars (h : ∀ c ∈ cs, isScalar c = true) :
    run (.plain depth) cs = some (.plain depth) := by
  induction cs with
  | nil => rfl
  | cons c cs ih =>
    obtain ⟨hc, hcs⟩ := List.forall_mem_cons.mp h
    rw [run_cons (step_plain_of_scalar hc)]
    exact ih hcs

theorem run_separator (last : Prop) [Decidable last] :
    run (.plain depth) (if last then [] else [',']) = some (.plain depth) := by
  split
  · rfl
  · rfl

/-- The literals of a document are numbers. -/
def Numbers (literals : List String) : Prop :=
  ∀ literal ∈ literals, ∀ c ∈ literal.toList, isScalar c = true

theorem numbers_nil : Numbers [] := by
  intro literal hmem
  exact absurd hmem List.not_mem_nil

mutual

/-- A document inside of another leaves its brackets as they were. -/
theorem run_textChars : ∀ (document : Json) (depth : Nat), Numbers document.literals →
    run (.plain depth) document.textChars = some (.plain depth)
  | .null, depth, _ => by
    rw [Json.textChars]
    rfl
  | .bool value, depth, _ => by
    rw [Json.textChars]
    cases value with
    | true => rfl
    | false => rfl
  | .num literal, depth, h => by
    rw [Json.textChars]
    rw [Json.literals] at h
    exact run_scalars (h literal (List.mem_singleton_self literal))
  | .str value, depth, _ => by
    rw [Json.textChars]
    exact run_plain_quoted value
  | .arr items, depth, h => by
    rw [Json.literals] at h
    have hitems := run_itemChars items (depth + 1) h
    have hopen : step (.plain depth) '[' = some (.plain (depth + 1)) := rfl
    rw [Json.textChars, run_cons hopen, run_append_of hitems]
    rfl
  | .obj members, depth, h => by
    rw [Json.literals] at h
    have hmembers := run_memberChars members (depth + 1) h
    have hopen : step (.plain depth) '\x7b' = some (.plain (depth + 1)) := rfl
    rw [Json.textChars, run_cons hopen, run_append_of hmembers]
    rfl

theorem run_itemChars : ∀ (items : List Json) (depth : Nat), Numbers (Json.itemLiterals items) →
    run (.plain depth) (Json.itemChars items) = some (.plain depth)
  | [], depth, _ => by
    rw [Json.itemChars]
    rfl
  | item :: items, depth, h => by
    rw [Numbers, Json.itemLiterals, List.forall_mem_append] at h
    have hitem := run_textChars item depth h.1
    have hitems := run_itemChars items depth h.2
    rw [Json.itemChars, List.append_assoc, run_append_of hitem,
      run_append_of (run_separator (items = []))]
    exact hitems

theorem run_memberChars : ∀ (members : List (String × Json)) (depth : Nat),
    Numbers (Json.memberLiterals members) →
    run (.plain depth) (Json.memberChars members) = some (.plain depth)
  | [], depth, _ => by
    rw [Json.memberChars]
    rfl
  | (key, value) :: members, depth, h => by
    rw [Numbers, Json.memberLiterals, List.forall_mem_append] at h
    have hvalue := run_textChars value depth h.1
    have hmembers := run_memberChars members depth h.2
    have hcolon : step (.plain depth) ':' = some (.plain depth) := rfl
    rw [Json.memberChars, run_append_of (run_plain_quoted key), run_cons hcolon, List.append_assoc,
      run_append_of hvalue, run_append_of (run_separator (members = []))]
    exact hmembers

end

theorem run_before_arr {items : List Json} (h : Numbers (Json.itemLiterals items)) :
    run .before (Json.arr items).textChars = some .done := by
  have hopen : step .before '[' = some (.plain 0) := rfl
  rw [Json.textChars, run_cons hopen, run_append_of (run_itemChars items 0 h)]
  rfl

theorem run_before_obj {members : List (String × Json)} (h : Numbers (Json.memberLiterals members)) :
    run .before (Json.obj members).textChars = some .done := by
  have hopen : step .before '\x7b' = some (.plain 0) := rfl
  rw [Json.textChars, run_cons hopen, run_append_of (run_memberChars members 0 h)]
  rfl

theorem run_append_none (h : run state cs = none) : run state (cs ++ ds) = none := by
  rw [run_append, h, Option.bind_none]

theorem run_ne_before (hstate : state ≠ .before) (h : run state cs = some next) : next ≠ .before := by
  induction cs generalizing state with
  | nil => exact Option.some.inj h ▸ hstate
  | cons c cs ih =>
    cases hstep : step state c with
    | none =>
      rw [run_cons_none hstep] at h
      exact absurd h (Option.some_ne_none next).symm
    | some middle =>
      rw [run_cons hstep] at h
      exact ih (step_ne_before hstep (Or.inr hstate)) h

/-- Nothing but blanks stands before the document of a text whose rest is an object. The object may
also end a text that the rest before it left open, but for its first key, which then stands outside
of the quotes. -/
theorem not_accepts_append_obj {key : String} {value : Json} {members : List (String × Json)}
    (hblank : isBlank c = false)
    (hkey : ∀ depth, run (closed depth) (key.toList.flatMap Json.escapeChar) = none)
    (hnumbers : Numbers (Json.memberLiterals ((key, value) :: members))) :
    accepts (c :: cs ++ (Json.obj ((key, value) :: members)).textChars) = false := by
  have hopened : ∀ depth, run (.string depth)
      (Json.obj ((key, value) :: members)).textChars = none := by
    intro depth
    have hbrace : step (.string depth) '\x7b' = some (.string depth) := rfl
    have hquote : step (.string depth) '"' = some (closed depth) := rfl
    rw [Json.textChars, Json.memberChars, Json.quoted, run_cons hbrace, List.cons_append,
      List.cons_append, run_cons hquote, List.append_assoc, List.append_assoc]
    exact run_append_none (hkey depth)
  have hrun : run .before (c :: cs ++ (Json.obj ((key, value) :: members)).textChars) = none ∨
      ∃ depth, run .before (c :: cs ++ (Json.obj ((key, value) :: members)).textChars) =
        some (.plain depth) := by
    cases hbefore : run .before (c :: cs) with
    | none =>
      exact Or.inl (run_append_none hbefore)
    | some state =>
      rw [run_append_of hbefore]
      cases state with
      | before =>
        cases hstep : step .before c with
        | none =>
          rw [run_cons_none hstep] at hbefore
          exact absurd hbefore (Option.some_ne_none _).symm
        | some next =>
          rw [run_cons hstep] at hbefore
          exact absurd rfl (run_ne_before (step_ne_before hstep (Or.inl hblank)) hbefore)
      | plain depth =>
        exact Or.inr ⟨depth, run_textChars _ depth (by rwa [Json.literals])⟩
      | string depth => exact Or.inl (hopened depth)
      | escape depth =>
        have hbrace : step (.escape depth) '\x7b' = step (.string depth) '\x7b' := rfl
        have hsame : run (.escape depth) (Json.obj ((key, value) :: members)).textChars =
            run (.string depth) (Json.obj ((key, value) :: members)).textChars := by
          rw [Json.textChars, run, run, hbrace]
        exact Or.inl (hsame.trans (hopened depth))
      | scalar =>
        have hbrace : step .scalar '\x7b' = none := rfl
        rw [Json.textChars, run_cons_none hbrace]
        exact Or.inl rfl
      | done =>
        have hbrace : step .done '\x7b' = none := rfl
        rw [Json.textChars, run_cons_none hbrace]
        exact Or.inl rfl
  rcases hrun with hnone | ⟨depth, hplain⟩
  · rw [accepts, hnone]
    decide
  · rw [accepts, hplain]
    simp

/-- A second document on a later line is no blank behind the first. -/
theorem not_accepts_two_objects {first second : List (String × Json)}
    (hfirst : Numbers (Json.memberLiterals first)) :
    accepts ((Json.obj first).textChars ++ '\n' :: ((Json.obj second).textChars ++ ds)) = false := by
  have hnewline : step .done '\n' = some .done := rfl
  have hbrace : step .done '\x7b' = none := rfl
  have hrun : run .before
      ((Json.obj first).textChars ++ '\n' :: ((Json.obj second).textChars ++ ds)) = none := by
    rw [run_append_of (run_before_obj hfirst), run_cons hnewline]
    apply run_append_none
    rw [Json.textChars, run_cons_none hbrace]
  rw [accepts, hrun]
  decide

/-- A text that is not blank and whose brackets and quotes may be those of a document. -/
def isScanned (text : String) : Bool :=
  decide (Text.trim text ≠ "") && accepts text.toList && accepts (Text.trim text).toList

def readScanned (documents : List (String × Json)) (text : String) : Option Json :=
  if isScanned text then documents.lookup (Text.trim text) else none

theorem readScanned_of_not {documents : List (String × Json)} {text : String}
    (h : isScanned text = false) : readScanned documents text = none := by
  rw [readScanned, h]
  rfl

theorem readScanned_of_refused {documents : List (String × Json)} {text : String}
    (h : accepts text.toList = false) : readScanned documents text = none := by
  apply readScanned_of_not
  rw [isScanned, h, Bool.and_false, Bool.false_and]

theorem isScanned_of_read {documents : List (String × Json)} {text : String} {document : Json}
    (h : readScanned documents text = some document) : isScanned text = true := by
  by_contra hnot
  rw [readScanned_of_not (by simpa using hnot)] at h
  exact absurd h (Option.some_ne_none document).symm

theorem isScanned_iff {text : String} : isScanned text = true ↔
    (Text.trim text ≠ "" ∧ accepts text.toList = true) ∧
      accepts (Text.trim text).toList = true := by
  rw [isScanned, Bool.and_eq_true, Bool.and_eq_true, decide_eq_true_eq]

/-- A text that is trimmed and goes through is read, and so it is with a newline behind it. -/
theorem readScanned_of_done {documents : List (String × Json)} {text ending : String}
    (hne : text ≠ "") (htrim : Text.trim text = text) (hdone : run .before text.toList = some .done)
    (hending : ending ∈ ["", "\n"]) :
    readScanned documents (text ++ ending) = documents.lookup text := by
  have haccepts : accepts text.toList = true := accepts_iff.mpr (Or.inl hdone)
  rcases List.mem_pair.mp hending with heq | heq
  · have hscanned : isScanned text = true := by
      rw [isScanned_iff, htrim]
      exact ⟨⟨hne, haccepts⟩, haccepts⟩
    rw [heq, String.append_empty, readScanned, if_pos hscanned, htrim]
  · have hnewline : Text.trim (text ++ "\n") = text := by
      have hlist : (text ++ "\n").toList = text.toList ++ ['\n'] := by simp
      rw [Text.trim, hlist, Text.trimChars_concat_blank (by decide)]
      exact htrim
    have hlonger : accepts (text ++ "\n").toList = true := by
      rw [String.toList_append, accepts_iff, run_append_of hdone]
      exact Or.inl rfl
    have hscanned : isScanned (text ++ "\n") = true := by
      rw [isScanned_iff, hnewline]
      exact ⟨⟨hne, hlonger⟩, haccepts⟩
    rw [heq, readScanned, if_pos hscanned, hnewline]

end JsonScan
