import Mathlib.Data.List.Dedup
import Mathlib.Tactic.Common

/-- A JSON document as it is written: members in order, a key possibly more than once. Numbers
keep their literal. -/
inductive Json
  | null
  | bool (value : Bool)
  | num (literal : String)
  | str (value : String)
  | arr (items : List Json)
  | obj (members : List (String × Json))
  deriving Repr

namespace Json

def asStr : Json → Option String
  | str value => some value
  | _ => none

/-- Reading a document into a map keeps the last member of each key. -/
def get? (key : String) : Json → Option Json
  | obj members => members.reverse.lookup key
  | _ => none

/-- The number of members that are left in the map. -/
def size : Json → Option Nat
  | obj members => some (members.map Prod.fst).dedup.length
  | _ => none

/-- The fields of a record, by key from a map and by position from a sequence. -/
def fields (names : List String) : Json → Option (List Json)
  | obj members => names.mapM fun name => get? name (obj members)
  | arr items => if items.length = names.length then some items else none
  | _ => none

/-- The one member of a key, where a second one is an error. -/
def single (key : String) (members : List (String × Json)) : Option Json :=
  match members.filter fun member => member.1 = key with
  | [member] => some member.2
  | _ => none

/-- The fields of a record read straight from the document. -/
def strictFields (names : List String) : Json → Option (List Json)
  | obj members => names.mapM fun name => single name members
  | arr items => if items.length = names.length then some items else none
  | _ => none

/-- A tag and the content it belongs to, read straight from the document. -/
def tagged (key : String) : Json → Option (String × Json)
  | obj members =>
    (single key members).bind fun tag =>
      tag.asStr.map fun name => (name, obj (members.filter fun member => member.1 ≠ key))
  | arr (tag :: items) => tag.asStr.map fun name => (name, arr items)
  | _ => none

theorem mapM_asStr (texts : List String) : (texts.map str).mapM asStr = some texts := by
  induction texts with
  | nil => rfl
  | cons text texts ih =>
    rw [List.map_cons, List.mapM_cons, ih]
    rfl

end Json
