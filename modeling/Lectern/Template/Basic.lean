import Lectern.Template.Value

/-!
# Templates

A template is a list of nodes: texts that are written as they are, expressions whose values are
written, and statements that choose, repeat, bind names or include fragments.
-/

namespace Lectern.Template

/-- An operator between two operands. -/
inductive BinaryOp where
  | or | and | eq | ne | lt | le | gt | ge | in_ | notIn | add | sub | mul | div | mod | power
  | concat
deriving DecidableEq, Repr

/-- An expression. Functions are called by their names; `invoke` calls a value. -/
inductive Expr where
  | literal (v : Value)
  | list (items : List Expr)
  | map (fields : List (String × Expr))
  | name (n : String)
  | field (e : Expr) (name : String)
  | index (e key : Expr)
  | call (function : String) (args : List Expr)
  | invoke (e : Expr) (args : List Expr)
  | filter (name : String) (e : Expr) (args : List Expr)
  | test (name : String) (negated : Bool) (e : Expr) (args : List Expr)
  | not (e : Expr)
  | negate (e : Expr)
  | binary (op : BinaryOp) (a b : Expr)
  | choose (yes condition : Expr) (otherwise : Option Expr)

mutual

/-- A part of a template. -/
inductive Node where
  | text (s : List Char)
  | write (e : Expr)
  | choose (condition : Expr) (yes otherwise : List Node)
  | loop (l : Loop)
  | bind (bindings : List (String × Expr)) (body : List Node)
  | set (name : String) (e : Expr)
  | capture (name : String) (body : List Node)
  | fragment (name : Expr) (optional : Bool)

/-- A statement that is repeated for the items of a value: each is bound to the names, those that
fail the condition are passed over, and `otherwise` is rendered if there are none. A recursive loop
can be called from its body on the items of another value. -/
structure Loop where
  names : List String
  range : Expr
  condition : Option Expr
  recursive : Bool
  body : List Node
  otherwise : List Node

end

end Lectern.Template
