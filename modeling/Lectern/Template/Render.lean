import Lectern.Document.Basic
import Lectern.Inline
import Lectern.Template.Basic
import Lectern.Template.Filter

/-!
# Rendering

A template is rendered in an environment, which binds names to values in frames. The nodes are
rendered by recursion on their structure; calls of a recursive loop and included fragments are not
parts of the structure, so they go through `Calls`, and `calls` gives these for every depth: at
depth 0 no call is possible any more.
-/

namespace Lectern.Template

open Text

/-- The names and their values, innermost frame first, with the loop that can be called and its
depth. -/
structure Env where
  frames : List (List (String × Value))
  loop : Option Loop := none
  depth : Nat := 0

namespace Env

/-- The value of a name in the innermost frame that binds it. -/
def lookup (env : Env) (name : String) : Value :=
  (env.frames.findSome? fun f => f.lookup name).getD .undefined

/-- Binds a name in the innermost frame. -/
def set (env : Env) (name : String) (v : Value) : Env :=
  match env.frames with
  | [] => { env with frames := [[(name, v)]] }
  | f :: r => { env with frames := ((name, v) :: f) :: r }

/-- The environment with a new innermost frame. -/
def push (env : Env) : Env := { env with frames := [] :: env.frames }

end Env

/-- The calls that leave the structure of a template: running a loop on the items of another
value, and rendering a fragment with a name. -/
structure Calls where
  loop : Loop → Env → Value → Except Fault (List Char)
  fragment : String → Env → Except Fault (List Char × Env)

/-! ## Expressions -/

/-- The value of an operator that needs both operands. -/
def applyBinary (op : BinaryOp) (v w : Value) : Except Fault Value :=
  let arithmetic (f : Int → Int → Except Fault Int) : Except Fault Value :=
    match v.number?, w.number? with
    | some m, some n => (f m n).map .int
    | _, _ => .error .wrongOperands
  match op with
  | .eq => .ok (.bool (v.same w))
  | .ne => .ok (.bool !(v.same w))
  | .lt => (v.less w).map .bool
  | .gt => (w.less v).map .bool
  | .le => (w.less v).map fun b => .bool !b
  | .ge => (v.less w).map fun b => .bool !b
  | .in_ => (w.contains v).map .bool
  | .notIn => (w.contains v).map fun b => .bool !b
  | .concat => .ok (.str (v.text ++ w.text))
  | .add =>
      match v, w with
      | .list a, .list b => .ok (.list (a ++ b))
      | v, w =>
          match v.string?, w.string? with
          | some s, some t => .ok (.str (s ++ t))
          | _, _ => arithmetic fun m n => .ok (m + n)
  | .sub => arithmetic fun m n => .ok (m - n)
  | .mul => arithmetic fun m n => .ok (m * n)
  | .div => arithmetic fun m n => if n = 0 then .error .wrongOperands else .ok (m / n)
  | .mod => arithmetic fun m n => if n = 0 then .error .wrongOperands else .ok (m % n)
  | .power => arithmetic fun m n => if n < 0 then .error .wrongOperands else .ok (Int.pow m n.toNat)
  | .or | .and => .error .wrongOperands

/-- The functions that templates can call: `style` makes markup of a text, `playable` says whether
an excerpt can be run. -/
def callFunction (env : Env) (name : String) (args : List Value) : Except Fault Value :=
  match name, args with
  | "style", [v] =>
      match v.string? with
      | some s => .ok (.safe (styleChars s))
      | none => .error (.wrongArguments name)
  | "playable", [v] => do
      let requested := (← v.field "play").isTrue
      let ext := ((← v.field "ext").string?).getD []
      pure (.bool
        (Code.isPlayable (env.lookup "play_enabled").isTrue requested (String.ofList ext)))
  | "style", _ | "playable", _ => .error (.wrongArguments name)
  | _, _ => .error (.unknownName name)

/-- The item of a value at a key: a field of a map, or an item of a list, counted from the end if
the key is negative. -/
def itemAt (v key : Value) : Except Fault Value :=
  match v, key with
  | .undefined, _ => .error .undefinedValue
  | .map fields, .str s | .map fields, .safe s =>
      .ok ((fields.lookup (String.ofList s)).getD .undefined)
  | .list items, .int n =>
      let i := if n < 0 then n + items.length else n
      .ok (if i < 0 then .undefined else (items[i.toNat]?).getD .undefined)
  | .str s, .int n | .safe s, .int n =>
      let i := if n < 0 then n + s.length else n
      .ok (if i < 0 then .undefined else ((s[i.toNat]?).map fun c => .str [c]).getD .undefined)
  | _, _ => .ok .undefined

mutual

/-- The value of an expression. -/
def Expr.eval (calls : Calls) (env : Env) : Expr → Except Fault Value
  | .literal v => .ok v
  | .list items => (Expr.evalAll calls env items).map .list
  | .map fields => (Expr.evalFields calls env fields).map .map
  | .name n => .ok (env.lookup n)
  | .field e n => do (← e.eval calls env).field n
  | .index e key => do itemAt (← e.eval calls env) (← key.eval calls env)
  | .call function args => do
      let args ← Expr.evalAll calls env args
      if function = "loop" then
        match env.loop, args with
        | some l, [v] => (calls.loop l env v).map .safe
        | _, _ => .error .noRecursion
      else callFunction env function args
  | .invoke e args => do
      let _ ← e.eval calls env
      let _ ← Expr.evalAll calls env args
      throw .notCallable
  | .filter n e args => do
      applyFilter n (← e.eval calls env) (← Expr.evalAll calls env args)
  | .test n negated e args => do
      let passed ← passes n (← e.eval calls env) (← Expr.evalAll calls env args)
      pure (.bool (passed != negated))
  | .not e => do pure (.bool !(← (← e.eval calls env).truth))
  | .negate e => do
      match (← e.eval calls env).number? with
      | some n => pure (.int (-n))
      | none => .error .wrongOperands
  | .binary .or a b => do
      let v ← a.eval calls env
      if ← v.truth then pure v else b.eval calls env
  | .binary .and a b => do
      let v ← a.eval calls env
      if ← v.truth then b.eval calls env else pure v
  | .binary op a b => do applyBinary op (← a.eval calls env) (← b.eval calls env)
  | .choose yes condition none => do
      if ← (← condition.eval calls env).truth then yes.eval calls env else pure (.str [])
  | .choose yes condition (some otherwise) => do
      if ← (← condition.eval calls env).truth then yes.eval calls env
      else otherwise.eval calls env

/-- The values of expressions. -/
def Expr.evalAll (calls : Calls) (env : Env) : List Expr → Except Fault (List Value)
  | [] => .ok []
  | e :: r => do pure ((← e.eval calls env) :: (← Expr.evalAll calls env r))

/-- The values of fields. -/
def Expr.evalFields (calls : Calls) (env : Env) :
    List (String × Expr) → Except Fault (List (String × Value))
  | [] => .ok []
  | (k, e) :: r => do pure ((k, ← e.eval calls env) :: (← Expr.evalFields calls env r))

end

/-! ## Nodes -/

/-- Binds names to expressions one after the other. -/
def bindAll (calls : Calls) (env : Env) : List (String × Expr) → Except Fault Env
  | [] => .ok env
  | (name, e) :: r => do bindAll calls (env.set name (← e.eval calls env)) r

/-- Binds the names of a loop to an item: one name to the item itself, several to its parts. -/
def bindItem (env : Env) (names : List String) (v : Value) : Except Fault Env :=
  match names with
  | [name] => .ok (env.set name v)
  | names => do
      let parts ← v.items
      if parts.length ≠ names.length then throw .wrongOperands
      pure ((names.zip parts).foldl (fun env (name, w) => env.set name w) env)

/-- What a loop tells its body about the round with an index, under the name `loop`. -/
def roundInfo (depth index length : Nat) (before after : Option Value) : Value :=
  .map [("index", .int (index + 1)), ("index0", .int index), ("first", .bool (index = 0)),
    ("last", .bool (index + 1 = length)), ("length", .int length),
    ("revindex", .int (length - index)), ("revindex0", .int (length - index - 1)),
    ("depth", .int (depth + 1)), ("depth0", .int depth),
    ("previtem", before.getD .undefined), ("nextitem", after.getD .undefined)]

/-- Renders the rounds of a loop, one for each item; `before` is the item in front of them. -/
def rounds (body : Env → Except Fault (List Char × Env)) (names : List String) (depth length : Nat)
    (index : Nat) (before : Option Value) (env : Env) : List Value → Except Fault (List Char)
  | [] => .ok []
  | v :: r => do
      let env ← bindItem (env.set "loop" (roundInfo depth index length before r.head?)) names v
      let (out, env) ← body env
      pure (out ++ (← rounds body names depth length (index + 1) (some v) env r))

mutual

/-- Renders a node: the text it writes, and the environment behind it. -/
def Node.render (calls : Calls) (env : Env) : Node → Except Fault (List Char × Env)
  | .text s => .ok (s, env)
  | .write e => do pure (← (← e.eval calls env).written, env)
  | .choose condition yes otherwise => do
      if ← (← condition.eval calls env).truth then Node.renderAll calls env yes
      else Node.renderAll calls env otherwise
  | .loop l => do pure (← l.render calls env 0 (← l.range.eval calls env), env)
  | .bind bindings body => do
      let inner ← bindAll calls env.push bindings
      let (out, _) ← Node.renderAll calls inner body
      pure (out, env)
  | .set name e => do pure ([], env.set name (← e.eval calls env))
  | .capture name body => do
      let (out, _) ← Node.renderAll calls env.push body
      pure ([], env.set name (.safe out))
  | .fragment name optional => do
      match (← name.eval calls env).string? with
      | none => .error (.wrongArguments "include")
      | some n =>
          match calls.fragment (String.ofList n) env with
          | .error (.missingFragment m) =>
              if optional && m = String.ofList n then pure ([], env)
              else .error (.missingFragment m)
          | result => result

/-- Renders nodes one after the other. -/
def Node.renderAll (calls : Calls) (env : Env) : List Node → Except Fault (List Char × Env)
  | [] => .ok ([], env)
  | n :: r => do
      let (out, env) ← n.render calls env
      let (more, env) ← Node.renderAll calls env r
      pure (out ++ more, env)

/-- Renders a loop over the items of a value, at a depth of recursion. -/
def Loop.render (calls : Calls) (env : Env) (depth : Nat) (v : Value) :
    Loop → Except Fault (List Char)
  | ⟨names, range, condition, recursive, body, otherwise⟩ => do
      let here :=
        if recursive then some ⟨names, range, condition, recursive, body, otherwise⟩ else none
      let inner : Env := { env.push with loop := here, depth := depth }
      let items ← v.items
      let items ← match condition with
        | none => pure items
        | some c =>
            items.filterM fun w => do (← c.eval calls (← bindItem inner names w)).truth
      if items.isEmpty then do
        let (out, _) ← Node.renderAll calls env otherwise
        pure out
      else
        rounds (fun env => Node.renderAll calls env body) names depth items.length 0 none inner
          items

end

/-! ## Whole templates -/

/-- The fragments of a theme by their names. -/
abbrev Fragments := String → Option (List Node)

/-- The calls that are possible up to a depth. Each call takes one from the depth, and the frames of
loops and blocks take none. -/
def calls (fragments : Fragments) : Nat → Calls
  | 0 => ⟨fun _ _ _ => .error .tooDeep, fun _ _ => .error .tooDeep⟩
  | depth + 1 =>
      { loop := fun l env v => l.render (calls fragments depth) env (env.depth + 1) v
        fragment := fun name env =>
          match fragments name with
          | some nodes => Node.renderAll (calls fragments depth) env nodes
          | none => .error (.missingFragment name) }

/-- The depth of calls at which rendering is given up. A template engine also counts the frames of
loops and blocks against this limit and charges more than one for an included fragment, so it gives
up at a somewhat smaller depth of calls. -/
def depthLimit : Nat := 500

/-- Renders a template with the given values of its names. -/
def render (fragments : Fragments) (nodes : List Node) (values : List (String × Value)) :
    Except Fault (List Char) := do
  let (out, _) ← Node.renderAll (calls fragments depthLimit) { frames := [values] } nodes
  pure out

end Lectern.Template
