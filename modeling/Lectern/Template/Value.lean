import Lectern.Text.Entities
import Lectern.Text.Quoted
import Lectern.Text.Search

/-!
# The values of templates

A template works on values: what a document holds, and what its expressions make of it. Of numbers
there are the integers, of any size.
-/

namespace Lectern.Template

open Text

/-- A value. `safe` is text that is markup already and is written as it is; `undefined` is what a
name or field without a value has. -/
inductive Value where
  | undefined
  | none
  | bool (b : Bool)
  | int (n : Int)
  | str (s : List Char)
  | safe (s : List Char)
  | list (items : List Value)
  | map (fields : List (String × Value))
deriving Inhabited

/-- Why a template cannot be rendered. -/
inductive Fault where
  | undefinedValue
  | unknownName (name : String)
  | wrongArguments (name : String)
  | notIterable
  | notCallable
  | wrongOperands
  | missingFragment (name : String)
  | noRecursion
  | tooDeep
deriving DecidableEq, Repr

/-- The wording of a fault. -/
def Fault.message : Fault → String
  | undefinedValue => "undefined value"
  | unknownName name => "unknown name " ++ name
  | wrongArguments name => "wrong arguments of " ++ name
  | notIterable => "value cannot be iterated"
  | notCallable => "value cannot be called"
  | wrongOperands => "wrong operands"
  | missingFragment name => "template not found: " ++ name
  | noRecursion => "no recursive loop"
  | tooDeep => "recursion limit exceeded"

namespace Value

/-- The decimal text of an integer. -/
def intText (n : Int) : List Char :=
  if n < 0 then '-' :: Nat.toDigits 10 n.natAbs else Nat.toDigits 10 n.natAbs

/-- The text of a truth value. -/
def boolText (b : Bool) : List Char := if b then "True".toList else "False".toList

mutual

/-- The text of a value inside of a list or map: strings are quoted. -/
def inner : Value → List Char
  | undefined => "undefined".toList
  | none => "None".toList
  | bool b => boolText b
  | int n => intText n
  | str s | safe s => quote s
  | list items => '[' :: innerItems items ++ [']']
  | map fields => '{' :: innerFields fields ++ ['}']

/-- The texts of items with commas between them. -/
def innerItems : List Value → List Char
  | [] => []
  | [v] => v.inner
  | v :: w :: r => v.inner ++ ", ".toList ++ innerItems (w :: r)

/-- The texts of fields with commas between them. -/
def innerFields : List (String × Value) → List Char
  | [] => []
  | [(k, v)] => quote k.toList ++ ": ".toList ++ v.inner
  | (k, v) :: f :: r =>
      quote k.toList ++ ": ".toList ++ v.inner ++ ", ".toList ++ innerFields (f :: r)

end

/-- The text of a value. -/
def text : Value → List Char
  | undefined => []
  | str s | safe s => s
  | v => v.inner

/-- The text that a template writes for a value: special characters are replaced by entities,
unless the value is safe. An undefined value cannot be written. -/
def written : Value → Except Fault (List Char)
  | undefined => .error .undefinedValue
  | safe s => .ok s
  | str s => .ok (escapeStrict s)
  | list items => .ok (escapeStrict (list items).inner)
  | map fields => .ok (escapeStrict (map fields).inner)
  | v => .ok v.text

/-- Does the value count as true? -/
def isTrue : Value → Bool
  | undefined | none => false
  | bool b => b
  | int n => n != 0
  | str s | safe s => !s.isEmpty
  | list items => !items.isEmpty
  | map fields => !fields.isEmpty

/-- Does the value count as true where a template asks? An undefined value cannot be tested. -/
def truth : Value → Except Fault Bool
  | undefined => .error .undefinedValue
  | v => .ok v.isTrue

/-- The value of a field; undefined if there is none, and a fault if the value is undefined. -/
def field (v : Value) (name : String) : Except Fault Value :=
  match v with
  | undefined => .error .undefinedValue
  | map fields => .ok ((fields.lookup name).getD undefined)
  | _ => .ok undefined

/-- The items of a value that can be iterated: those of a list, the keys of a map, the characters
of a text, and none of a missing value. -/
def items : Value → Except Fault (List Value)
  | undefined => .error .undefinedValue
  | none => .ok []
  | list items => .ok items
  | map fields => .ok (fields.map fun f => str f.1.toList)
  | str s | safe s => .ok (s.map fun c => str [c])
  | _ => .error .notIterable

/-- The text of a value that is one. -/
def string? : Value → Option (List Char)
  | str s | safe s => some s
  | _ => Option.none

/-- The number that a value counts as. -/
def number? : Value → Option Int
  | int n => some n
  | bool b => some (if b then 1 else 0)
  | _ => Option.none

mutual

/-- Are the values equal? Texts are compared whether safe or not, and truth values as numbers. -/
def same : Value → Value → Bool
  | undefined, undefined => true
  | none, none => true
  | bool a, bool b => a == b
  | bool a, int n | int n, bool a => n == (if a then 1 else 0)
  | int m, int n => m == n
  | str s, str t | str s, safe t | safe s, str t | safe s, safe t => s == t
  | list a, list b => sameItems a b
  | map a, map b => sameFields a b
  | _, _ => false

/-- Are the items equal one by one? -/
def sameItems : List Value → List Value → Bool
  | [], [] => true
  | v :: r, w :: s => v.same w && sameItems r s
  | _, _ => false

/-- Are the fields equal one by one? -/
def sameFields : List (String × Value) → List (String × Value) → Bool
  | [], [] => true
  | (k, v) :: r, (l, w) :: s => k == l && v.same w && sameFields r s
  | _, _ => false

end

/-- Does the first text come before the second, by code points? -/
def textLt : List Char → List Char → Bool
  | _, [] => false
  | [], _ :: _ => true
  | a :: r, b :: s => if a = b then textLt r s else a.toNat < b.toNat

/-- Does the first value come before the second? Numbers and texts are compared. -/
def less (v w : Value) : Except Fault Bool :=
  match v.number?, w.number? with
  | some m, some n => .ok (m < n)
  | _, _ =>
      match v.string?, w.string? with
      | some s, some t => .ok (textLt s t)
      | _, _ => .error .wrongOperands

/-- Does the value hold the other, as an item, a key or a part of its text? -/
def contains (v w : Value) : Except Fault Bool :=
  match v with
  | undefined => .error .undefinedValue
  | list items => .ok (items.any w.same)
  | map fields => .ok (fields.any fun f => w.same (str f.1.toList))
  | str s | safe s =>
      match w.string? with
      | some t => .ok (occursIn t s)
      | Option.none => .error .wrongOperands
  | _ => .error .wrongOperands

end Value

end Lectern.Template
