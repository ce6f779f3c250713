import Lectern.Template.Basic
import Lectern.Template.Token

/-!
# The written form of templates

The pieces of a written template are read as nodes: statements that open a block take the pieces up
to the statement that closes it, and tokens are read as expressions. `Template.read` gives the
nodes of a text, or nothing if it is not well formed.

The statements are `if`, `for`, `with`, `set` and `include`. Macros, inherited blocks and the other
statements of template engines are not read, nor are slices, named arguments and numbers with a
fraction: a text with one of these is not well formed here.
-/

namespace Lectern.Template

/-! ## Expressions -/

/-- The operators of a rank, loosest first. -/
def operatorOf? (rank : Nat) (t : Token) : Option BinaryOp :=
  match rank, t with
  | 0, .ident "or" => some .or
  | 1, .ident "and" => some .and
  | 3, .sym "==" => some .eq
  | 3, .sym "!=" => some .ne
  | 3, .sym "<" => some .lt
  | 3, .sym "<=" => some .le
  | 3, .sym ">" => some .gt
  | 3, .sym ">=" => some .ge
  | 3, .ident "in" => some .in_
  | 4, .sym "+" => some .add
  | 4, .sym "-" => some .sub
  | 5, .sym "~" => some .concat
  | 6, .sym "*" => some .mul
  | 6, .sym "/" => some .div
  | 6, .sym "//" => some .div
  | 6, .sym "%" => some .mod
  | 7, .sym "**" => some .power
  | _, _ => none

/-- Reads an operator of a rank. -/
def readOperator (rank : Nat) (ts : List Token) : Option (BinaryOp × List Token) :=
  match ts with
  | .ident "not" :: .ident "in" :: r => if rank = 3 then some (.notIn, r) else none
  | t :: r => (operatorOf? rank t).map (·, r)
  | [] => none

/-- The expressions with names of their own. -/
def constant? (name : String) : Option Value :=
  match name with
  | "true" | "True" => some (.bool true)
  | "false" | "False" => some (.bool false)
  | "none" | "None" => some .none
  | _ => none

/-- The names that go on with an expression rather than start one. -/
def isConnective (name : String) : Bool :=
  ["and", "or", "not", "in", "is", "if", "else"].contains name

mutual

/-- Reads an expression; `fuel` bounds the depth. -/
def readExpr (fuel : Nat) (ts : List Token) : Option (Expr × List Token) :=
  match fuel with
  | 0 => none
  | fuel + 1 => do
      let (e, r) ← readRank fuel 0 ts
      match r with
      | .ident "if" :: r => do
          let (condition, r) ← readRank fuel 0 r
          match r with
          | .ident "else" :: r => do
              let (otherwise, r) ← readExpr fuel r
              pure (.choose e condition (some otherwise), r)
          | r => pure (.choose e condition none, r)
      | r => pure (e, r)

/-- Reads an expression of operators of at least a rank. -/
def readRank (fuel : Nat) (rank : Nat) (ts : List Token) : Option (Expr × List Token) :=
  match fuel with
  | 0 => none
  | fuel + 1 =>
      if rank = 2 then
        match ts with
        | .ident "not" :: r => (readRank fuel 2 r).map fun (e, r) => (.not e, r)
        | ts => readRank fuel 3 ts
      else if rank = 8 then readUnary fuel ts
      else do
        let (e, r) ← readRank fuel (rank + 1) ts
        readMore fuel rank e r

/-- Reads the operators of a rank behind their first operand. -/
def readMore (fuel : Nat) (rank : Nat) (e : Expr) (ts : List Token) : Option (Expr × List Token) :=
  match fuel with
  | 0 => none
  | fuel + 1 =>
      match readOperator rank ts with
      | some (op, r) => do
          let (f, r) ← readRank fuel (rank + 1) r
          readMore fuel rank (.binary op e f) r
      | none => some (e, ts)

/-- Reads an operand with its filters and tests. -/
def readUnary (fuel : Nat) (ts : List Token) : Option (Expr × List Token) :=
  match fuel with
  | 0 => none
  | fuel + 1 => do
      let (e, r) ← readSigned fuel ts
      let (e, r) ← readPostfix fuel e r
      readFilters fuel e r

/-- Reads an operand with the signs in front of it. -/
def readSigned (fuel : Nat) (ts : List Token) : Option (Expr × List Token) :=
  match fuel with
  | 0 => none
  | fuel + 1 =>
      match ts with
      | .sym "-" :: r => (readSigned fuel r).map fun (e, r) => (.negate e, r)
      | .ident n :: r =>
          match constant? n with
          | some v => some (.literal v, r)
          | none => if isConnective n then none else some (.name n, r)
      | .str s :: r => some (.literal (.str s), r)
      | .int n :: r => some (.literal (.int n), r)
      | .sym "(" :: .sym ")" :: r => some (.list [], r)
      | .sym "(" :: r => do
          let (e, r) ← readExpr fuel r
          match r with
          | .sym ")" :: r => pure (e, r)
          | .sym "," :: r => do
              let (es, r) ← readList fuel ")" r
              pure (.list (e :: es), r)
          | _ => none
      | .sym "[" :: r => (readList fuel "]" r).map fun (es, r) => (.list es, r)
      | .sym "\x7b" :: r => (readFields fuel r).map fun (fs, r) => (.map fs, r)
      | _ => none

/-- Reads expressions between commas up to a closing sign. -/
def readList (fuel : Nat) (close : String) (ts : List Token) : Option (List Expr × List Token) :=
  match fuel with
  | 0 => none
  | fuel + 1 =>
      match ts with
      | [] => none
      | t :: r =>
          if t = .sym close then some ([], r)
          else do
            let (e, r) ← readExpr fuel (t :: r)
            match r with
            | .sym "," :: r => do
                let (es, r) ← readList fuel close r
                pure (e :: es, r)
            | u :: r => if u = .sym close then pure ([e], r) else none
            | [] => none

/-- Reads the fields of a map up to its closing brace. -/
def readFields (fuel : Nat) (ts : List Token) : Option (List (String × Expr) × List Token) :=
  match fuel with
  | 0 => none
  | fuel + 1 =>
      match ts with
      | .sym "\x7d" :: r => some ([], r)
      | .str k :: .sym ":" :: r => do
          let (e, r) ← readExpr fuel r
          match r with
          | .sym "," :: r => do
              let (fs, r) ← readFields fuel r
              pure ((String.ofList k, e) :: fs, r)
          | .sym "\x7d" :: r => pure ([(String.ofList k, e)], r)
          | _ => none
      | _ => none

/-- Reads the fields, items and calls behind an operand. -/
def readPostfix (fuel : Nat) (e : Expr) (ts : List Token) : Option (Expr × List Token) :=
  match fuel with
  | 0 => none
  | fuel + 1 =>
      match ts with
      | .sym "." :: .ident n :: r => readPostfix fuel (.field e n) r
      | .sym "." :: .int n :: r => readPostfix fuel (.index e (.literal (.int n))) r
      | .sym "[" :: r => do
          let (key, r) ← readExpr fuel r
          match r with
          | .sym "]" :: r => readPostfix fuel (.index e key) r
          | _ => none
      | .sym "(" :: r => do
          let (args, r) ← readList fuel ")" r
          match e with
          | .name n => readPostfix fuel (.call n args) r
          | e => readPostfix fuel (.invoke e args) r
      | ts => some (e, ts)

/-- Reads the filters and tests behind an operand. -/
def readFilters (fuel : Nat) (e : Expr) (ts : List Token) : Option (Expr × List Token) :=
  match fuel with
  | 0 => none
  | fuel + 1 =>
      match ts with
      | .sym "|" :: .ident n :: .sym "(" :: r => do
          let (args, r) ← readList fuel ")" r
          readFilters fuel (.filter n e args) r
      | .sym "|" :: .ident n :: r => readFilters fuel (.filter n e []) r
      | .sym "|" :: _ => none
      | .ident "is" :: r => do
          let (negated, r) := match r with
            | .ident "not" :: r => (true, r)
            | r => (false, r)
          match r with
          | .ident n :: .sym "(" :: r => do
              let (args, r) ← readList fuel ")" r
              readFilters fuel (.test n negated e args) r
          | .ident n :: t :: r =>
              let startsOperand := match t with
                | .ident m => !isConnective m
                | .str _ | .int _ => true
                | .sym s => s = "[" || s = "\x7b" || s = "-"
              if startsOperand then do
                let (arg, r) ← readSigned fuel (t :: r)
                let (arg, r) ← readPostfix fuel arg r
                readFilters fuel (.test n negated e [arg]) r
              else readFilters fuel (.test n negated e []) (t :: r)
          | [.ident n] => pure (.test n negated e [], [])
          | _ => none
      | ts => some (e, ts)

end

/-- Reads an expression that takes all of the tokens. -/
def readWhole (ts : List Token) : Option Expr :=
  match readExpr (20 * ts.length + 20) ts with
  | some (e, []) => some e
  | _ => none

/-- Reads an expression without a choice, and gives the rest of the tokens. -/
def readOperand (ts : List Token) : Option (Expr × List Token) :=
  readRank (20 * ts.length + 20) 0 ts

/-! ## Statements -/

/-- The names that cannot be bound. -/
def isReserved (name : String) : Bool :=
  ["true", "True", "false", "False", "none", "None", "loop", "self"].contains name

/-- Reads a name that can be bound. -/
def readName : List Token → Option (String × List Token)
  | .ident n :: r => if isReserved n || isConnective n then none else some (n, r)
  | _ => none

/-- Reads the names of a loop, between commas, and perhaps in parentheses. -/
def readNames (ts : List Token) : Option (List String × List Token) :=
  let names (ts : List Token) : Option (List String × List Token) :=
    match ts with
    | .ident a :: .sym "," :: .ident b :: .sym "," :: .ident c :: r => some ([a, b, c], r)
    | .ident a :: .sym "," :: .ident b :: r => some ([a, b], r)
    | .ident a :: r => some ([a], r)
    | _ => none
  let result :=
    match ts with
    | .sym "(" :: r =>
        match names r with
        | some (ns, .sym ")" :: r) => some (ns, r)
        | _ => none
    | ts => names ts
  match result with
  | some (ns, r) => if ns.any fun n => isReserved n || isConnective n then none else some (ns, r)
  | none => none

/-- The head of a loop: its names, what it runs over, its condition, and whether it is
recursive. -/
def readLoopHead (ts : List Token) : Option (List String × Expr × Option Expr × Bool) := do
  let (names, r) ← readNames ts
  match r with
  | .ident "in" :: r => do
      let (range, r) ← readOperand r
      let (condition, r) ← match r with
        | .ident "if" :: r => do
            let (c, r) ← readOperand r
            pure (some c, r)
        | r => pure (none, r)
      match r with
      | [] => pure (names, range, condition, false)
      | [.ident "recursive"] => pure (names, range, condition, true)
      | _ => none
  | _ => none

/-- Reads bindings of names between commas; `fuel` bounds their number. -/
def readBindings : Nat → List Token → Option (List (String × Expr))
  | 0, _ => none
  | _, [] => some []
  | fuel + 1, ts => do
      let (name, r) ← readName ts
      match r with
      | .sym "=" :: r => do
          let (e, r) ← readExpr (20 * r.length + 20) r
          match r with
          | [] => pure [(name, e)]
          | .sym "," :: r => do pure ((name, e) :: (← readBindings fuel r))
          | _ => none
      | _ => none

/-- Does the statement go on with or close a block? -/
def isClosing (name : String) : Bool :=
  ["elif", "else", "endif", "endfor", "endwith", "endset"].contains name

/-- The statement that ended a list of nodes, if one did. -/
abbrev Closing := Option (String × List Token)

mutual

/-- Reads nodes up to a statement that goes on with or closes the block around them, or up to the
end of the pieces; `fuel` bounds the depth. -/
def readNodes (fuel : Nat) (ps : List Piece) : Option (List Node × Closing × List Piece) :=
  match fuel with
  | 0 => none
  | fuel + 1 =>
      match ps with
      | [] => some ([], none, [])
      | .text s :: r => do
          let (ns, closing, r) ← readNodes fuel r
          pure (.text s :: ns, closing, r)
      | .write ts :: r => do
          let e ← readWhole ts
          let (ns, closing, r) ← readNodes fuel r
          pure (.write e :: ns, closing, r)
      | .statement (.ident name :: ts) :: r =>
          if isClosing name then some ([], some (name, ts), r)
          else do
            let (n, r) ← readStatement fuel name ts r
            let (ns, closing, r) ← readNodes fuel r
            pure (n :: ns, closing, r)
      | .statement _ :: _ => none

/-- Reads a statement with a name, and the block that it opens if it does. -/
def readStatement (fuel : Nat) (name : String) (ts : List Token) (ps : List Piece) :
    Option (Node × List Piece) :=
  match fuel with
  | 0 => none
  | fuel + 1 =>
      match name with
      | "if" => readChoice fuel ts ps
      | "for" => do
          let (names, range, condition, recursive) ← readLoopHead ts
          let (body, closing, r) ← readNodes fuel ps
          match closing with
          | some ("endfor", []) => pure (.loop ⟨names, range, condition, recursive, body, []⟩, r)
          | some ("else", []) => do
              match ← readNodes fuel r with
              | (otherwise, some ("endfor", []), r) =>
                  pure (.loop ⟨names, range, condition, recursive, body, otherwise⟩, r)
              | _ => none
          | _ => none
      | "with" => do
          let bindings ← readBindings (ts.length + 1) ts
          match ← readNodes fuel ps with
          | (body, some ("endwith", []), r) => pure (.bind bindings body, r)
          | _ => none
      | "set" => do
          let (target, r) ← readName ts
          match r with
          | .sym "=" :: r => do pure (.set target (← readWhole r), ps)
          | [] => do
              match ← readNodes fuel ps with
              | (body, some ("endset", []), r) => pure (.capture target body, r)
              | _ => none
          | _ => none
      | "include" => do
          let (e, r) ← readOperand ts
          match r with
          | [] => pure (.fragment e false, ps)
          | [.ident "ignore", .ident "missing"] => pure (.fragment e true, ps)
          | _ => none
      | _ => none

/-- Reads a choice behind its condition's keyword. -/
def readChoice (fuel : Nat) (ts : List Token) (ps : List Piece) : Option (Node × List Piece) :=
  match fuel with
  | 0 => none
  | fuel + 1 => do
      let condition ← readWhole ts
      let (yes, closing, r) ← readNodes fuel ps
      match closing with
      | some ("endif", []) => pure (.choose condition yes [], r)
      | some ("else", []) => do
          match ← readNodes fuel r with
          | (otherwise, some ("endif", []), r) => pure (.choose condition yes otherwise, r)
          | _ => none
      | some ("elif", ts) => do
          let (n, r) ← readChoice fuel ts r
          pure (.choose condition yes [n], r)
      | _ => none

end

/-- Reads a written template. -/
def read (s : List Char) : Option (List Node) := do
  let ps ← piecesOf s
  match ← readNodes (3 * ps.length + 3) ps with
  | (nodes, none, []) => pure nodes
  | _ => none

end Lectern.Template
