import Lectern.Template.Value
import Lectern.Text.Blank

/-!
# Filters and tests

The named operations that templates apply to values, and the named conditions on them. Template
engines have more of both; a name that is not among those here is refused as unknown, and `upper`
and `lower` change the ASCII letters alone.
-/

namespace Lectern.Template

open Text

namespace Value

/-- The texts of items put together; a separator is put in front of an item if there is text
before it. -/
def joined (separator : List Char) (items : List Value) : List Char :=
  items.foldl (fun s v => if s.isEmpty then v.text else s ++ separator ++ v.text) []

/-- The number of items, fields or characters. -/
def length? : Value → Option Nat
  | list items => some items.length
  | map fields => some fields.length
  | str s | safe s => some s.length
  | _ => Option.none

/-- The text with every occurrence of a non-empty text replaced; `skip` characters are left of an
occurrence that has been replaced. -/
def replaced (old new : List Char) (skip : Nat) : List Char → List Char
  | [] => []
  | c :: r =>
      match skip with
      | n + 1 => replaced old new n r
      | 0 =>
          if !old.isEmpty && old.isPrefixOf (c :: r) then
            new ++ replaced old new (old.length - 1) r
          else c :: replaced old new 0 r

end Value

/-- Does a value pass a test? -/
def passes (name : String) (v : Value) (args : List Value) : Except Fault Bool :=
  let wrong : Except Fault Bool := .error (.wrongArguments name)
  let compare (f : Value → Except Fault Bool) : Except Fault Bool :=
    match args with
    | [w] => f w
    | _ => wrong
  match name with
  | "defined" => .ok (match v with | .undefined => false | _ => true)
  | "undefined" => .ok (match v with | .undefined => true | _ => false)
  | "none" => .ok (match v with | .none => true | _ => false)
  | "true" => .ok (match v with | .bool b => b | _ => false)
  | "false" => .ok (match v with | .bool b => !b | _ => false)
  | "boolean" => .ok (match v with | .bool _ => true | _ => false)
  | "number" | "integer" => .ok (match v with | .int _ => true | _ => false)
  | "string" => .ok v.string?.isSome
  | "sequence" => .ok (match v with | .list _ => true | _ => false)
  | "mapping" => .ok (match v with | .map _ => true | _ => false)
  | "iterable" => .ok (match v.items with | .ok _ => true | .error _ => false)
  | "safe" | "escaped" => .ok (match v with | .safe _ => true | _ => false)
  | "odd" => .ok (match v.number? with | some n => n % 2 != 0 | none => false)
  | "even" => .ok (match v.number? with | some n => n % 2 == 0 | none => false)
  | "divisibleby" =>
      compare fun w => .ok <|
        match v.number?, w.number? with
        | some m, some n => n != 0 && m % n == 0
        | _, _ => false
  | "eq" | "equalto" | "==" => compare fun w => .ok (v.same w)
  | "ne" | "!=" => compare fun w => .ok !(v.same w)
  | "lt" | "lessthan" | "<" => compare fun w => v.less w
  | "gt" | "greaterthan" | ">" => compare fun w => w.less v
  | "le" | "<=" => compare fun w => (w.less v).map (!·)
  | "ge" | ">=" => compare fun w => (v.less w).map (!·)
  | "in" => compare fun w => w.contains v
  | "startingwith" =>
      compare fun w =>
        match v.string?, w.string? with
        | some s, some t => .ok (t.isPrefixOf s)
        | _, _ => wrong
  | "endingwith" =>
      compare fun w =>
        match v.string?, w.string? with
        | some s, some t => .ok (t.isSuffixOf s)
        | _, _ => wrong
  | _ => .error (.unknownName name)

/-- The items of which a field, or the items themselves where no field is named, pass a test. -/
def selected (field : Option String) (keep : Bool) (test : Option (String × List Value))
    (items : List Value) : Except Fault (List Value) :=
  items.filterM fun v => do
    let w ← match field with
      | some name => v.field name
      | none => pure v
    let passed ← match test with
      | some (name, args) => passes name w args
      | none => pure w.isTrue
    pure (passed == keep)

/-- The test that the arguments of a selection name. -/
def testOf? : List Value → Option (Option (String × List Value))
  | [] => some none
  | name :: args => name.string?.map fun s => some (String.ofList s, args)

/-- Applies a filter to a value that is defined. -/
def applyDefined (name : String) (v : Value) (args : List Value) : Except Fault Value :=
  let wrong : Except Fault Value := .error (.wrongArguments name)
  let onText (f : List Char → List Char) : Except Fault Value := .ok (.str (f v.text))
  match name, args with
  | "safe", [] => .ok (.safe v.text)
  | "escape", [] | "e", [] => v.written.map .safe
  | "string", [] =>
      .ok (match v with
        | .safe s => .safe s
        | v => .str v.text)
  | "length", [] | "count", [] =>
      match v.length? with
      | some n => .ok (.int n)
      | none => wrong
  | "join", args =>
      let separator := match args with
        | [] | [.none] => some []
        | [s] => some s.text
        | _ => none
      match separator, v with
      | none, _ => wrong
      | some _, .none => .ok (.str [])
      | some separator, v => v.items.map fun items => .str (Value.joined separator items)
  | "list", [] => v.items.map .list
  | "first", [] =>
      match v with
      | .none => wrong
      | v => v.items.map fun items => items.head?.getD .undefined
  | "last", [] =>
      match v with
      | .none | .map _ => wrong
      | v => v.items.map fun items => items.getLast?.getD .undefined
  | "reverse", [] =>
      match v with
      | .str s | .safe s => .ok (.str s.reverse)
      | v => v.items.map fun items => .list items.reverse
  | "upper", [] => onText fun s => s.map Char.toUpper
  | "lower", [] => onText fun s => s.map Char.toLower
  | "trim", [] => onText trim
  | "replace", [old, new] => onText fun s => Value.replaced old.text new.text 0 s
  | "default", _ | "d", _ => .ok v
  | "abs", [] =>
      match v with
      | .int n => .ok (.int n.natAbs)
      | _ => wrong
  | "selectattr", field :: args | "rejectattr", field :: args =>
      match field.string?, testOf? args with
      | some f, some test => do
          let items ← v.items
          pure (.list (← selected (some (String.ofList f)) (name = "selectattr") test items))
      | _, _ => wrong
  | "select", args | "reject", args =>
      match testOf? args with
      | some test => do
          let items ← v.items
          pure (.list (← selected none (name = "select") test items))
      | none => wrong
  | name, _ =>
      if ["safe", "escape", "e", "string", "length", "count", "list", "first", "last", "reverse",
          "upper", "lower", "trim", "replace", "abs", "selectattr", "rejectattr"].contains name then
        wrong
      else .error (.unknownName name)

/-- The filters that work on the text of any value, also of an undefined one, which has none. -/
def textFilters : List String := ["safe", "string", "join", "upper", "lower", "trim", "replace"]

/-- Applies a filter to a value. -/
def applyFilter (name : String) (v : Value) (args : List Value) : Except Fault Value :=
  match v with
  | .undefined =>
      if name = "default" || name = "d" then .ok (args.head?.getD (.str []))
      else if textFilters.contains name then applyDefined name (.str []) args
      else .error .undefinedValue
  | v => applyDefined name v args

end Lectern.Template
