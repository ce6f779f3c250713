/-!
# JSON values

The values in which documents are stored. Of numbers only the integers are told apart; all that
are written with a fraction or an exponent are `real`.
-/

namespace Lectern

/-- A JSON value. -/
inductive Json where
  | null
  | bool (b : Bool)
  | int (n : Int)
  | real (text : String)
  | str (s : String)
  | arr (items : List Json)
  | obj (fields : List (String × Json))

namespace Json

/-- The value of a field of an object. -/
def field? (j : Json) (key : String) : Option Json :=
  match j with
  | obj fields => fields.lookup key
  | _ => none

/-- The text of a string value. -/
def string? : Json → Option String
  | str s => some s
  | _ => none

/-- The truth value. -/
def bool? : Json → Option Bool
  | bool b => some b
  | _ => none

/-- The natural number below a bound. -/
def natBelow? (bound : Nat) : Json → Option Nat
  | int (.ofNat n) => if n < bound then some n else none
  | _ => none

/-- The items of an array. -/
def items? : Json → Option (List Json)
  | arr items => some items
  | _ => none

/-- A value that may be null, or missing. -/
def optional? {α : Type} (read : Json → Option α) : Option Json → Option (Option α)
  | none | some null => some none
  | some j => (read j).map some

/-- The strings of an array of them. -/
def strings? (j : Json) : Option (List String) := j.items?.bind fun items => items.mapM string?

/-- The array of strings. -/
def ofStrings (ss : List String) : Json := arr (ss.map str)

/-- The value of an option, null if there is none. -/
def ofOption {α : Type} (write : α → Json) : Option α → Json
  | none => null
  | some a => write a

end Json

end Lectern
