import AiBridge.Json
import AiBridge.Text

namespace Json

/-- What stands for a character inside quotes. -/
def escapeChar (c : Char) : List Char :=
  if c = '"' then ['\\', '"']
  else if c = '\\' then ['\\', '\\']
  else if c = '\x08' then ['\\', 'b']
  else if c = '\x0c' then ['\\', 'f']
  else if c = '\n' then ['\\', 'n']
  else if c = '\r' then ['\\', 'r']
  else if c = '\t' then ['\\', 't']
  else if c.toNat < 32 then
    ['\\', 'u', '0', '0', Nat.digitChar (c.toNat / 16), Nat.digitChar (c.toNat % 16)]
  else [c]

def quoted (s : String) : List Char := '"' :: (s.toList.flatMap escapeChar ++ ['"'])

mutual

def textChars : Json → List Char
  | null => "null".toList
  | bool value => if value then "true".toList else "false".toList
  | num literal => literal.toList
  | str value => quoted value
  | arr items => '[' :: (itemChars items ++ [']'])
  | obj members => '\x7b' :: (memberChars members ++ ['\x7d'])

def itemChars : List Json → List Char
  | [] => []
  | item :: items => textChars item ++ (if items = [] then [] else [',']) ++ itemChars items

def memberChars : List (String × Json) → List Char
  | [] => []
  | (key, value) :: members =>
    quoted key ++ ':' :: (textChars value ++ (if members = [] then [] else [',']) ++
      memberChars members)

end

/-- The text that `serde_json` writes for the document. -/
def text (document : Json) : String := String.ofList document.textChars

mutual

/-- The literals of the numbers. -/
def literals : Json → List String
  | num literal => [literal]
  | arr items => itemLiterals items
  | obj members => memberLiterals members
  | _ => []

def itemLiterals : List Json → List String
  | [] => []
  | item :: items => literals item ++ itemLiterals items

def memberLiterals : List (String × Json) → List String
  | [] => []
  | (_, value) :: members => literals value ++ memberLiterals members

end

/-- No control characters. -/
def Printable (cs : List Char) : Prop := ∀ c ∈ cs, 32 ≤ c.toNat

theorem printable_of_all {cs : List Char} (h : (cs.all fun c => 32 ≤ c.toNat) = true) :
    Printable cs := by
  intro c hmem
  simpa using List.all_eq_true.mp h c hmem

theorem Printable.append {cs ds : List Char} (hc : Printable cs) (hd : Printable ds) :
    Printable (cs ++ ds) := by
  intro c hmem
  rcases List.mem_append.mp hmem with h | h
  · exact hc c h
  · exact hd c h

theorem Printable.cons {c : Char} {cs : List Char} (hc : 32 ≤ c.toNat) (hcs : Printable cs) :
    Printable (c :: cs) := List.forall_mem_cons.mpr ⟨hc, hcs⟩

theorem printable_nil : Printable [] := by
  intro c hmem
  exact absurd hmem List.not_mem_nil

theorem printable_digitChar : ∀ n < 16, 32 ≤ (Nat.digitChar n).toNat := by decide

/-- A character stands for itself, has a letter for its escape, or is given by its code. -/
theorem escapeChar_cases (c : Char) :
    (escapeChar c = [c] ∧ 32 ≤ c.toNat ∧ c ≠ '"' ∧ c ≠ '\\') ∨
      (∃ letter, escapeChar c = ['\\', letter] ∧ 32 ≤ letter.toNat) ∨
      ∃ high low, high < 16 ∧ low < 16 ∧
        escapeChar c = ['\\', 'u', '0', '0', Nat.digitChar high, Nat.digitChar low] := by
  unfold escapeChar
  split
  · exact Or.inr (Or.inl ⟨_, rfl, by decide⟩)
  split
  · exact Or.inr (Or.inl ⟨_, rfl, by decide⟩)
  split
  · exact Or.inr (Or.inl ⟨_, rfl, by decide⟩)
  split
  · exact Or.inr (Or.inl ⟨_, rfl, by decide⟩)
  split
  · exact Or.inr (Or.inl ⟨_, rfl, by decide⟩)
  split
  · exact Or.inr (Or.inl ⟨_, rfl, by decide⟩)
  split
  · exact Or.inr (Or.inl ⟨_, rfl, by decide⟩)
  split
  next hlow => exact Or.inr (Or.inr ⟨c.toNat / 16, c.toNat % 16, by omega, by omega, rfl⟩)
  next hquote hslash _ _ _ _ _ hlow => exact Or.inl ⟨rfl, by omega, hquote, hslash⟩

theorem printable_escapeChar (c : Char) : Printable (escapeChar c) := by
  rcases escapeChar_cases c with ⟨hself, hcode, _⟩ | ⟨letter, hletter, hcode⟩ |
    ⟨high, low, hhigh, hlow, hcode⟩
  · rw [hself]
    exact .cons hcode printable_nil
  · rw [hletter]
    exact .cons (by decide) (.cons hcode printable_nil)
  · rw [hcode]
    exact .cons (by decide) (.cons (by decide) (.cons (by decide) (.cons (by decide)
      (.cons (printable_digitChar high hhigh) (.cons (printable_digitChar low hlow) printable_nil)))))

theorem printable_quoted (s : String) : Printable (quoted s) := by
  refine .cons (by decide) (.append ?_ (.cons (by decide) printable_nil))
  intro c hmem
  obtain ⟨d, _, hd⟩ := List.mem_flatMap.mp hmem
  exact printable_escapeChar d c hd

theorem printable_separator (last : Prop) [Decidable last] :
    Printable (if last then [] else [',']) := by
  split
  · exact printable_nil
  · exact .cons (by decide) printable_nil

mutual

/-- A document is written without control characters, as long as its numbers have none. -/
theorem printable_textChars : ∀ document : Json,
    (∀ literal ∈ document.literals, Printable literal.toList) → Printable document.textChars
  | null, _ => by
    rw [textChars]
    exact printable_of_all (by decide)
  | bool value, _ => by
    rw [textChars]
    cases value with
    | true => exact printable_of_all (by decide)
    | false => exact printable_of_all (by decide)
  | num literal, h => by
    rw [textChars]
    exact h literal (by rw [literals]; exact List.mem_singleton_self literal)
  | str value, _ => by
    rw [textChars]
    exact printable_quoted value
  | arr items, h => by
    rw [textChars]
    have hitems := printable_itemChars items (by rwa [literals] at h)
    exact .cons (by decide) (.append hitems (.cons (by decide) printable_nil))
  | obj members, h => by
    rw [textChars]
    have hmembers := printable_memberChars members (by rwa [literals] at h)
    exact .cons (by decide) (.append hmembers (.cons (by decide) printable_nil))

theorem printable_itemChars : ∀ items : List Json,
    (∀ literal ∈ itemLiterals items, Printable literal.toList) → Printable (itemChars items)
  | [], _ => printable_nil
  | item :: items, h => by
    rw [itemLiterals, List.forall_mem_append] at h
    rw [itemChars]
    have hitem := printable_textChars item h.1
    have hitems := printable_itemChars items h.2
    exact .append (.append hitem (printable_separator _)) hitems

theorem printable_memberChars : ∀ members : List (String × Json),
    (∀ literal ∈ memberLiterals members, Printable literal.toList) →
      Printable (memberChars members)
  | [], _ => printable_nil
  | (key, value) :: members, h => by
    rw [memberLiterals, List.forall_mem_append] at h
    rw [memberChars]
    have hvalue := printable_textChars value h.1
    have hmembers := printable_memberChars members h.2
    exact .append (printable_quoted key)
      (.cons (by decide) (.append (.append hvalue (printable_separator _)) hmembers))

end

theorem trimChars_between {opening closing : Char} (inner : List Char)
    (hopening : Text.isWhitespace opening = false) (hclosing : Text.isWhitespace closing = false) :
    Text.trimChars (opening :: (inner ++ [closing])) = opening :: (inner ++ [closing]) := by
  apply Text.trimChars_of_ends
  · intro c hc
    rw [List.head?_cons, Option.some.injEq] at hc
    rw [← hc, hopening]
  · intro c hc
    rw [← List.cons_append, List.getLast?_concat, Option.some.injEq] at hc
    rw [← hc, hclosing]

/-- Nothing is trimmed from an object or an array. -/
theorem trim_text_obj (members : List (String × Json)) :
    Text.trim (obj members).text = (obj members).text := by
  rw [Text.trim, text, String.toList_ofList, textChars,
    trimChars_between _ (by decide) (by decide)]

theorem trim_text_arr (items : List Json) : Text.trim (arr items).text = (arr items).text := by
  rw [Text.trim, text, String.toList_ofList, textChars,
    trimChars_between _ (by decide) (by decide)]

theorem text_obj_ne_empty (members : List (String × Json)) : (obj members).text ≠ "" := by
  intro h
  have hlist := congrArg String.toList h
  rw [text, String.toList_ofList, textChars] at hlist
  simp at hlist

theorem text_arr_ne_empty (items : List Json) : (arr items).text ≠ "" := by
  intro h
  have hlist := congrArg String.toList h
  rw [text, String.toList_ofList, textChars] at hlist
  simp at hlist

example : (obj [("a\n\"b", arr [null, str "\u0001"]), ("c", bool true)]).text =
    "\x7b\"a\\n\\\"b\":[null,\"\\u0001\"],\"c\":true\x7d" := by
  decide +kernel

end Json
