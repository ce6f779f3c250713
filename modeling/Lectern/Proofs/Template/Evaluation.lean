import Mathlib
import Lectern.Template.Render

/-!
# Evaluating templates

Equations for the parts of a template, by which it is evaluated step by step. A part that makes no
calls gives a text and an environment; one that does gives them unless too many calls are nested,
which `within` says. A loop is evaluated by what its body gives for each item
(`Loop.render_eq_within`), where the body may bind names but not change others.
-/

namespace Lectern.Template

open Text

/-! ## Results within the bounds -/

section

variable {α β ε : Type} {p q : Bool} {a : α} {b : β}

/-- A result that is given unless too many calls are nested. -/
def within (fits : Bool) (a : α) : Except Fault α := if fits then .ok a else .error .tooDeep

@[simp] theorem within_true (a : α) : within true a = .ok a := rfl

@[simp] theorem within_false (a : α) : within false a = .error .tooDeep := rfl

@[simp] theorem ok_bind (a : α) (f : α → Except ε β) : (Except.ok a >>= f) = f a := rfl

@[simp] theorem error_bind (why : ε) (f : α → Except ε β) :
    (Except.error why >>= f) = .error why := rfl

@[simp] theorem pure_eq_ok (a : α) : (pure a : Except ε α) = .ok a := rfl

theorem within_bind {f : α → Except Fault β} (h : f a = within q b) :
    within p a >>= f = within (p && q) b := by
  cases p with
  | false => rfl
  | true => rw [within_true, ok_bind, h, Bool.true_and]

theorem within_bind_ok {f : α → Except Fault β} (h : f a = .ok b) :
    within p a >>= f = within p b := by
  rw [within_bind (q := true) h, Bool.and_true]

end

/-! ## Environments -/

namespace Env

variable {env env₁ env₂ : Env} {names names' : List String}

theorem lookup_frame_cons (n m : String) (v : Value) (f : List (String × Value))
    (r : List (List (String × Value))) (l : Option Loop) (k : Nat) :
    (⟨((n, v) :: f) :: r, l, k⟩ : Env).lookup m =
      if m = n then v else (⟨f :: r, l, k⟩ : Env).lookup m := by
  rw [lookup, lookup, List.findSome?_cons, List.findSome?_cons, List.lookup_cons]
  by_cases h : m = n
  · subst h
    simp
  · rw [beq_eq_false_iff_ne.2 h, if_neg h]

theorem lookup_set (env : Env) (n m : String) (v : Value) :
    (env.set n v).lookup m = if m = n then v else env.lookup m := by
  obtain ⟨frames, l, k⟩ := env
  cases frames with
  | nil =>
    rw [set, lookup_frame_cons]
    rfl
  | cons f r => exact lookup_frame_cons n m v f r l k

@[simp] theorem lookup_set_self (env : Env) (n : String) (v : Value) :
    (env.set n v).lookup n = v := by
  rw [lookup_set, if_pos rfl]

theorem lookup_set_of_ne {n m : String} (h : m ≠ n) (v : Value) :
    (env.set n v).lookup m = env.lookup m := by
  rw [lookup_set, if_neg h]

@[simp] theorem lookup_push (env : Env) (n : String) : env.push.lookup n = env.lookup n := rfl

@[simp] theorem loop_set (env : Env) (n : String) (v : Value) : (env.set n v).loop = env.loop := by
  rw [set]
  cases env.frames <;> rfl

@[simp] theorem depth_set (env : Env) (n : String) (v : Value) :
    (env.set n v).depth = env.depth := by
  rw [set]
  cases env.frames <;> rfl

/-- An environment that differs from another at most in the values of some names. -/
structure Agrees (names : List String) (env env' : Env) : Prop where
  loop : env'.loop = env.loop
  depth : env'.depth = env.depth
  lookup : ∀ n, n ∉ names → env'.lookup n = env.lookup n

theorem Agrees.refl (names : List String) (env : Env) : Agrees names env env :=
  ⟨rfl, rfl, fun _ _ => rfl⟩

theorem Agrees.trans (h : Agrees names env env₁) (h' : Agrees names env₁ env₂) :
    Agrees names env env₂ :=
  ⟨h'.loop.trans h.loop, h'.depth.trans h.depth,
    fun n hn => (h'.lookup n hn).trans (h.lookup n hn)⟩

theorem agrees_set {n : String} (hn : n ∈ names) (v : Value) : Agrees names env (env.set n v) := by
  refine ⟨loop_set env n v, depth_set env n v, fun m hm => lookup_set_of_ne ?_ v⟩
  rintro rfl
  exact hm hn

end Env

/-! ## Values -/

@[simp] theorem field_map (fields : List (String × Value)) (n : String) :
    (Value.map fields).field n = .ok ((fields.lookup n).getD .undefined) := rfl

@[simp] theorem written_str (s : List Char) : (Value.str s).written = .ok (escapeStrict s) := rfl

@[simp] theorem written_safe (s : List Char) : (Value.safe s).written = .ok s := rfl

theorem written_natCast (n : Nat) : (Value.int n).written = .ok (Nat.toDigits 10 n) := by
  have hneg : ¬ (n : Int) < 0 := by omega
  have htext : (Value.int n).written = .ok (Value.intText n) := rfl
  rw [htext, Value.intText, if_neg hneg, Int.natAbs_natCast]

/-- Texts are the same if their characters are. -/
theorem same_str (s t : String) :
    (Value.str s.toList).same (.str t.toList) = decide (s = t) := by
  rw [show (Value.str s.toList).same (.str t.toList) = (s.toList == t.toList) from rfl,
    Bool.eq_iff_iff]
  simp [String.toList_inj]

@[simp] theorem truth_bool (b : Bool) : (Value.bool b).truth = .ok b := rfl

@[simp] theorem truth_str (s : List Char) : (Value.str s).truth = .ok !s.isEmpty := rfl

@[simp] theorem truth_list (vs : List Value) : (Value.list vs).truth = .ok !vs.isEmpty := rfl

@[simp] theorem truth_none : Value.none.truth = .ok false := rfl

@[simp] theorem truth_int (n : Int) : (Value.int n).truth = .ok (n != 0) := rfl

/-! ## Expressions -/

section

variable (calls : Calls) (env : Env)

@[simp] theorem eval_literal (v : Value) : (Expr.literal v).eval calls env = .ok v := rfl

@[simp] theorem eval_name (n : String) : (Expr.name n).eval calls env = .ok (env.lookup n) := rfl

@[simp] theorem eval_field (e : Expr) (n : String) :
    (Expr.field e n).eval calls env = e.eval calls env >>= fun v => v.field n := rfl

@[simp] theorem evalAll_nil : Expr.evalAll calls env [] = .ok [] := rfl

@[simp] theorem evalAll_cons (e : Expr) (r : List Expr) :
    Expr.evalAll calls env (e :: r) = e.eval calls env >>= fun v =>
      Expr.evalAll calls env r >>= fun vs => .ok (v :: vs) := rfl

@[simp] theorem eval_filter (n : String) (e : Expr) (args : List Expr) :
    (Expr.filter n e args).eval calls env = e.eval calls env >>= fun v =>
      Expr.evalAll calls env args >>= fun vs => applyFilter n v vs := rfl

theorem eval_style (e : Expr) {s : List Char} (h : e.eval calls env = .ok (.str s)) :
    (Expr.call "style" [e]).eval calls env = .ok (.safe (styleChars s)) := by
  have hcall : (Expr.call "style" [e]).eval calls env =
      Expr.evalAll calls env [e] >>= fun vs => callFunction env "style" vs := rfl
  rw [hcall, evalAll_cons, h]
  rfl

theorem eval_loop (e : Expr) {l : Loop} {v : Value} (hl : env.loop = some l)
    (h : e.eval calls env = .ok v) :
    (Expr.call "loop" [e]).eval calls env = (calls.loop l env v).map .safe := by
  have hargs : Expr.evalAll calls env [e] = .ok [v] := by
    rw [evalAll_cons, h]
    rfl
  rw [Expr.eval, hargs, ok_bind, if_pos rfl, hl]

theorem eval_eq (e : Expr) {v w : Value} (h : e.eval calls env = .ok v) :
    (Expr.binary .eq e (.literal w)).eval calls env = .ok (.bool (v.same w)) := by
  have heq : (Expr.binary .eq e (.literal w)).eval calls env =
      e.eval calls env >>= fun v => applyBinary .eq v w := rfl
  rw [heq, h]
  rfl

theorem eval_add (e : Expr) {m n : Int} (h : e.eval calls env = .ok (.int m)) :
    (Expr.binary .add e (.literal (.int n))).eval calls env = .ok (.int (m + n)) := by
  have hadd : (Expr.binary .add e (.literal (.int n))).eval calls env =
      e.eval calls env >>= fun v => applyBinary .add v (.int n) := rfl
  rw [hadd, h]
  rfl

theorem eval_and (e e' : Expr) {b : Bool} (h : e.eval calls env = .ok (.bool b)) :
    (Expr.binary .and e e').eval calls env =
      if b then e'.eval calls env else .ok (.bool false) := by
  have hand : (Expr.binary .and e e').eval calls env =
      e.eval calls env >>= fun v => v.truth >>= fun t =>
        if t then e'.eval calls env else .ok v := rfl
  rw [hand, h]
  cases b <;> rfl

theorem filterM_eq_ok {α : Type} {p : Value → Except Fault Bool} {f : α → Value} {q : α → Bool}
    {l : List α} (h : ∀ a ∈ l, p (f a) = .ok (q a)) :
    (l.map f).filterM p = .ok ((l.filter q).map f) := by
  have haux : ∀ acc : List Value, (l.map f).filterAuxM p acc =
      .ok (((l.filter q).map f).reverse ++ acc) := by
    induction l with
    | nil => exact fun acc => rfl
    | cons a r ih =>
      intro acc
      obtain ⟨ha, hr⟩ := List.forall_mem_cons.1 h
      rw [List.map_cons, List.filterAuxM, ha, ok_bind, ih hr]
      cases hq : q a <;> simp [hq]
  rw [List.filterM, haux, ok_bind, List.append_nil, List.reverse_reverse]
  rfl

/-- The texts of a joined list. -/
theorem applyFilter_join (vs : List Value) (s : List Char) :
    applyFilter "join" (.list vs) [.str s] = .ok (.str (Value.joined s vs)) := rfl

theorem applyFilter_length (vs : List Value) :
    applyFilter "length" (.list vs) [] = .ok (.int vs.length) := rfl

theorem applyFilter_list (vs : List Value) : applyFilter "list" (.list vs) [] = .ok (.list vs) :=
  rfl

theorem applyFilter_safe (s : List Char) : applyFilter "safe" (.str s) [] = .ok (.safe s) := rfl

end

/-! ## Nodes -/

section

variable {calls : Calls} {env env₁ env₂ : Env} {s t : List Char} {p q : Bool}

@[simp] theorem render_text (s : List Char) : (Node.text s).render calls env = .ok (s, env) := rfl

@[simp] theorem render_write (e : Expr) :
    (Node.write e).render calls env =
      e.eval calls env >>= fun v => v.written >>= fun s => .ok (s, env) := rfl

@[simp] theorem render_choose (e : Expr) (yes otherwise : List Node) :
    (Node.choose e yes otherwise).render calls env =
      e.eval calls env >>= fun v => v.truth >>= fun b =>
        if b then Node.renderAll calls env yes else Node.renderAll calls env otherwise := rfl

@[simp] theorem render_set (n : String) (e : Expr) :
    (Node.set n e).render calls env = e.eval calls env >>= fun v => .ok ([], env.set n v) := rfl

/-- A fragment that a theme has is rendered as what calling it gives. -/
theorem render_fragment {name : String} (optional : Bool)
    (h : calls.fragment name env = within p (s, env₁)) :
    (Node.fragment (.literal (.str name.toList)) optional).render calls env =
      within p (s, env₁) := by
  have hname : (Value.str name.toList).string? = some name.toList := rfl
  rw [Node.render, eval_literal, ok_bind, hname]
  simp only [String.ofList_toList, h]
  cases p <;> rfl

@[simp] theorem renderAll_nil : Node.renderAll calls env [] = .ok ([], env) := rfl

@[simp] theorem renderAll_cons (n : Node) (r : List Node) :
    Node.renderAll calls env (n :: r) =
      n.render calls env >>= fun p =>
        Node.renderAll calls p.2 r >>= fun q => .ok (p.1 ++ q.1, q.2) := rfl

/-- Nodes give what they give one after the other. -/
theorem renderAll_cons_within {n : Node} {r : List Node}
    (h : n.render calls env = within p (s, env₁))
    (hr : Node.renderAll calls env₁ r = within q (t, env₂)) :
    Node.renderAll calls env (n :: r) = within (p && q) (s ++ t, env₂) := by
  rw [renderAll_cons, h]
  refine within_bind ?_
  dsimp only
  rw [hr]
  exact within_bind_ok rfl

/-- A node that makes no calls gives its text in front of what the others give. -/
theorem renderAll_cons_ok {n : Node} {r : List Node} (h : n.render calls env = .ok (s, env₁))
    (hr : Node.renderAll calls env₁ r = within q (t, env₂)) :
    Node.renderAll calls env (n :: r) = within q (s ++ t, env₂) := by
  rw [renderAll_cons_within (show n.render calls env = within true (s, env₁) from h) hr,
    Bool.true_and]

/-- The end of nodes that are rendered one after the other. -/
theorem renderAll_nil_within : Node.renderAll calls env [] = within true ([], env) := rfl

theorem renderAll_singleton (n : Node) : Node.renderAll calls env [n] = n.render calls env := by
  rw [renderAll_cons]
  cases n.render calls env with
  | error why => rfl
  | ok p => rw [ok_bind, renderAll_nil, ok_bind, List.append_nil]

theorem renderAll_append (l r : List Node) :
    Node.renderAll calls env (l ++ r) =
      Node.renderAll calls env l >>= fun p =>
        Node.renderAll calls p.2 r >>= fun q => .ok (p.1 ++ q.1, q.2) := by
  induction l generalizing env with
  | nil =>
    rw [List.nil_append, renderAll_nil, ok_bind]
    cases Node.renderAll calls env r <;> rfl
  | cons n l ih =>
    rw [List.cons_append, renderAll_cons, renderAll_cons]
    cases n.render calls env with
    | error why => rfl
    | ok p =>
      rw [ok_bind, ok_bind, ih]
      cases Node.renderAll calls p.2 l with
      | error why => rfl
      | ok q =>
        rw [ok_bind, ok_bind, ok_bind]
        cases Node.renderAll calls q.2 r with
        | error why => rfl
        | ok q' => rw [ok_bind, ok_bind, ok_bind, List.append_assoc]

end

/-! ## Loops -/

section

variable {α : Type} {calls : Calls} {env : Env} {names : List String} {x : String}
  {f : α → Value} {l : List α} {fits : α → Bool} {out : Nat → α → List Char} {depth length : Nat}

/-- A body gives its text for each item, in an environment in which its name stands for the item;
it may bind the given names. -/
def BodyGives (body : Env → Except Fault (List Char × Env)) (names : List String) (x : String)
    (f : α → Value) (l : List α) (fits : α → Bool) (out : Nat → α → List Char) (env : Env) : Prop :=
  ∀ a ∈ l, ∀ (env₁ : Env) (index : Nat), env.Agrees names env₁ → env₁.lookup x = f a →
    (env₁.lookup "loop").field "index" = .ok (.int (index + 1)) →
    ∃ env₂, env₁.Agrees names env₂ ∧ body env₁ = within (fits a) (out index a, env₂)

theorem rounds_eq_within {body : Env → Except Fault (List Char × Env)}
    (hx : x ∈ names) (hloop : "loop" ∈ names) (hne : x ≠ "loop")
    (hbody : BodyGives body names x f l fits out env) (index : Nat) (before : Option Value)
    (env₁ : Env) (henv : env.Agrees names env₁) :
    rounds body [x] depth length index before env₁ (l.map f) =
      within (l.all fits) ((l.zipIdx index).flatMap fun e => out e.2 e.1) := by
  induction l generalizing index before env₁ with
  | nil => rfl
  | cons a r ih =>
    have hround : rounds body [x] depth length index before env₁ ((a :: r).map f) =
        body ((env₁.set "loop"
            (roundInfo depth index length before (r.map f).head?)).set x (f a)) >>= fun p =>
          rounds body [x] depth length (index + 1) (some (f a)) p.2 (r.map f) >>= fun t =>
            .ok (p.1 ++ t) := rfl
    have hindex : (((env₁.set "loop" (roundInfo depth index length before
        (r.map f).head?)).set x (f a)).lookup "loop").field "index" = .ok (.int (index + 1)) := by
      rw [Env.lookup_set_of_ne hne.symm, Env.lookup_set_self]
      rfl
    obtain ⟨env₂, henv₂, hgives⟩ := hbody a (List.mem_cons_self ..) _ index
      (henv.trans ((Env.agrees_set hloop _).trans (Env.agrees_set hx _)))
      (Env.lookup_set_self _ _ _) hindex
    rw [hround, hgives, List.all_cons, List.zipIdx_cons, List.flatMap_cons]
    refine within_bind ?_
    dsimp only
    rw [ih (fun b hb => hbody b (List.mem_cons_of_mem a hb)) (index + 1) (some (f a)) env₂
      (henv.trans ((Env.agrees_set hloop _).trans ((Env.agrees_set hx _).trans henv₂)))]
    exact within_bind_ok rfl

/-- The environment in which the body of a loop is rendered first. -/
def Loop.inside (l : Loop) (env : Env) (depth : Nat) : Env :=
  { env.push with loop := if l.recursive then some l else none, depth := depth }

/-- A loop gives what its body gives for the items one after the other. -/
theorem Loop.render_eq_within {range : Expr} {recursive : Bool} {body : List Node}
    (hx : x ∈ names) (hloop : "loop" ∈ names) (hne : x ≠ "loop")
    (hbody : BodyGives (fun env => Node.renderAll calls env body) names x f l fits out
      (Loop.inside ⟨[x], range, none, recursive, body, []⟩ env depth)) :
    Loop.render calls env depth (.list (l.map f)) ⟨[x], range, none, recursive, body, []⟩ =
      within (l.all fits) (l.zipIdx.flatMap fun e => out e.2 e.1) := by
  cases l with
  | nil => rfl
  | cons a r =>
    exact rounds_eq_within hx hloop hne hbody 0 none _ (Env.Agrees.refl _ _)

theorem flatMap_zipIdx {β : Type} (g : α → List β) (l : List α) :
    (l.zipIdx.flatMap fun e => g e.1) = l.flatMap g := by
  conv_rhs => rw [← List.zipIdx_map_fst 0 l, List.flatMap_map]

theorem render_loop {range : Expr} {condition : Option Expr} {recursive : Bool}
    {body otherwise : List Node} {xs : List String} {v : Value}
    (h : range.eval calls env = .ok v) :
    (Node.loop ⟨xs, range, condition, recursive, body, otherwise⟩).render calls env =
      Loop.render calls env 0 v ⟨xs, range, condition, recursive, body, otherwise⟩ >>= fun s =>
        .ok (s, env) := by
  have hloop : (Node.loop ⟨xs, range, condition, recursive, body, otherwise⟩).render calls env =
      range.eval calls env >>= fun v =>
        Loop.render calls env 0 v ⟨xs, range, condition, recursive, body, otherwise⟩ >>= fun s =>
          .ok (s, env) := rfl
  rw [hloop, h, ok_bind]

/-- Repeats nodes for the items of a list. -/
def forEach (name : String) (range : Expr) (body : List Node) : Node :=
  .loop ⟨[name], range, none, false, body, []⟩

/-- A loop whose body binds nothing gives what its body gives for the items, with their indexes. -/
theorem render_forEach {range : Expr} {body : List Node} (hne : x ≠ "loop")
    (hrange : range.eval calls env = .ok (.list (l.map f)))
    (hbody : ∀ a ∈ l, ∀ (env₁ : Env) (index : Nat),
      (∀ n, n ≠ x → n ≠ "loop" → env₁.lookup n = env.lookup n) → env₁.lookup x = f a →
      (env₁.lookup "loop").field "index" = .ok (.int (index + 1)) →
      Node.renderAll calls env₁ body = within (fits a) (out index a, env₁)) :
    (forEach x range body).render calls env =
      within (l.all fits) (l.zipIdx.flatMap (fun e => out e.2 e.1), env) := by
  have hgives : BodyGives (fun env => Node.renderAll calls env body) [x, "loop"] x f l fits out
      (Loop.inside ⟨[x], range, none, false, body, []⟩ env 0) := by
    intro a ha env₁ index henv hx hindex
    refine ⟨env₁, Env.Agrees.refl _ _, hbody a ha env₁ index (fun n hn hn' => ?_) hx hindex⟩
    rw [henv.lookup n (by simp [hn, hn'])]
    rfl
  rw [forEach, render_loop hrange, Loop.render_eq_within (by simp) (by simp) hne hgives]
  exact within_bind_ok rfl

/-- The same for a body that makes no calls and does not look at the index. -/
theorem render_forEach_ok {range : Expr} {body : List Node} {text : α → List Char}
    (hne : x ≠ "loop") (hrange : range.eval calls env = .ok (.list (l.map f)))
    (hbody : ∀ a ∈ l, ∀ env₁ : Env, env₁.lookup x = f a →
      Node.renderAll calls env₁ body = .ok (text a, env₁)) :
    (forEach x range body).render calls env = .ok (l.flatMap text, env) := by
  have hwithin : ∀ a ∈ l, ∀ (env₁ : Env) (index : Nat),
      (∀ n, n ≠ x → n ≠ "loop" → env₁.lookup n = env.lookup n) → env₁.lookup x = f a →
      (env₁.lookup "loop").field "index" = .ok (.int (index + 1)) →
      Node.renderAll calls env₁ body = within true (text a, env₁) :=
    fun a ha env₁ _ _ hx _ => hbody a ha env₁ hx
  rw [render_forEach hne hrange hwithin, flatMap_zipIdx, List.all_eq_true.2 fun _ _ => rfl,
    within_true]

end

end Lectern.Template
