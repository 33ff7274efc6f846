import AiBridge.Json
import AiBridge.Text

namespace AiBridge

open Text

/-- The `serde_json` crate: the reader of texts, to which a blank text is no document and blanks
around a document are nothing, and the writer, which opens an object with a brace. -/
structure SerdeJson where
  fromStr : String → Option Json
  toString : Json → String
  fromStr_blank : ∀ {text}, trim text = "" → fromStr text = none
  fromStr_trim : ∀ {text document}, fromStr text = some document →
    fromStr (trim text) = some document
  toString_obj : ∀ members, ∃ rest, toString (.obj members) = "\x7b" ++ rest

mutual

/-- Texts without characters that need an escape are written as `serde_json` writes them. -/
def plainText : Json → String
  | .null => "null"
  | .bool value => if value then "true" else "false"
  | .num literal => literal
  | .str value => "\"" ++ value ++ "\""
  | .arr items => "[" ++ plainItems items ++ "]"
  | .obj members => "\x7b" ++ (plainMembers members ++ "\x7d")

def plainItems : List Json → String
  | [] => ""
  | [item] => plainText item
  | item :: items => plainText item ++ "," ++ plainItems items

def plainMembers : List (String × Json) → String
  | [] => ""
  | [(key, value)] => "\"" ++ key ++ "\":" ++ plainText value
  | (key, value) :: members =>
    "\"" ++ key ++ "\":" ++ plainText value ++ "," ++ plainMembers members

end

/-- A reader that knows the documents of some texts, with the plain writer. -/
def plainJson (documents : List (String × Json)) : SerdeJson where
  fromStr text := if trim text = "" then none else documents.lookup (trim text)
  toString := plainText
  fromStr_blank h := if_pos h
  fromStr_trim h := by rwa [trim_idem]
  toString_obj members := ⟨plainMembers members ++ "\x7d", by rw [plainText]⟩

/-- An object is written between braces, so that no blank is trimmed from it. -/
theorem trim_plainText_obj (members : List (String × Json)) :
    trim (plainText (.obj members)) = plainText (.obj members) := by
  have hlist : (plainText (.obj members)).toList =
      '\x7b' :: (plainMembers members).toList ++ ['\x7d'] := by
    simp [plainText]
  have hends : trimChars (plainText (.obj members)).toList = (plainText (.obj members)).toList := by
    rw [hlist]
    apply trimChars_of_ends
    · intro c hc
      obtain rfl : '\x7b' = c := by simpa using hc
      decide
    · intro c hc
      rw [List.getLast?_concat, Option.some.injEq] at hc
      rw [← hc]
      decide
  rw [trim, hends, String.ofList_toList]

theorem plainText_obj_ne_empty (members : List (String × Json)) : plainText (.obj members) ≠ "" := by
  intro h
  have hlist := congrArg String.toList h
  simp [plainText] at hlist

theorem plainJson_fromStr {documents : List (String × Json)} {members : List (String × Json)}
    {document : Json} (h : documents.lookup (plainText (.obj members)) = some document) :
    (plainJson documents).fromStr (plainText (.obj members)) = some document := by
  simp only [plainJson, trim_plainText_obj, if_neg (plainText_obj_ne_empty members), h]

end AiBridge
