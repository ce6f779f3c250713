import Mathlib
import Lectern.Template.Basic

/-!
# Comparing templates

A test whether two templates are the same, for the expressions and statements that occur in the
bundled ones. By `eq_of_areSame` a template that has been read can be given by its nodes.
-/

namespace Lectern.Template

mutual

/-- Are the expressions the same? -/
def Expr.isSame : Expr → Expr → Bool
  | .literal (.str s), .literal (.str t) => s == t
  | .literal (.int m), .literal (.int n) => m == n
  | .name m, .name n => m == n
  | .field e m, .field f n => e.isSame f && m == n
  | .call m args, .call n args' => m == n && Expr.areSame args args'
  | .filter m e args, .filter n f args' => m == n && e.isSame f && Expr.areSame args args'
  | .binary op a b, .binary op' a' b' => op == op' && a.isSame a' && b.isSame b'
  | _, _ => false

/-- Are the expressions the same one by one? -/
def Expr.areSame : List Expr → List Expr → Bool
  | [], [] => true
  | e :: r, f :: s => e.isSame f && Expr.areSame r s
  | _, _ => false

end

/-- Are the bindings the same one by one? -/
def sameBindings : List (String × Expr) → List (String × Expr) → Bool
  | [], [] => true
  | (m, e) :: r, (n, f) :: s => m == n && e.isSame f && sameBindings r s
  | _, _ => false

mutual

/-- Are the nodes the same? -/
def Node.isSame : Node → Node → Bool
  | .text s, .text t => s == t
  | .write e, .write f => e.isSame f
  | .choose c yes otherwise, .choose c' yes' otherwise' =>
      c.isSame c' && Node.areSame yes yes' && Node.areSame otherwise otherwise'
  | .loop l, .loop l' => l.isSame l'
  | .bind bs body, .bind bs' body' => sameBindings bs bs' && Node.areSame body body'
  | .set m e, .set n f => m == n && e.isSame f
  | .fragment e optional, .fragment f optional' => e.isSame f && optional == optional'
  | _, _ => false

/-- Are the nodes the same one by one? -/
def Node.areSame : List Node → List Node → Bool
  | [], [] => true
  | n :: r, n' :: r' => n.isSame n' && Node.areSame r r'
  | _, _ => false

/-- Are the loops the same? -/
def Loop.isSame : Loop → Loop → Bool
  | ⟨names, range, none, recursive, body, otherwise⟩,
      ⟨names', range', none, recursive', body', otherwise'⟩ =>
      names == names' && range.isSame range' && recursive == recursive' &&
        Node.areSame body body' && Node.areSame otherwise otherwise'
  | _, _ => false

end

mutual

theorem Expr.eq_of_isSame : ∀ {e f : Expr}, e.isSame f = true → e = f
  | .literal v, f, h => by
    cases v <;> cases f with
    | literal w => cases w <;> simp_all [Expr.isSame]
    | _ => simp [Expr.isSame] at h
  | .name m, f, h => by cases f <;> simp_all [Expr.isSame]
  | .field e m, f, h => by
    cases f with
    | field f n =>
      simp only [Expr.isSame, Bool.and_eq_true, beq_iff_eq] at h
      rw [Expr.eq_of_isSame h.1, h.2]
    | _ => simp [Expr.isSame] at h
  | .call m args, f, h => by
    cases f with
    | call n args' =>
      simp only [Expr.isSame, Bool.and_eq_true, beq_iff_eq] at h
      rw [h.1, Expr.eq_of_areSame h.2]
    | _ => simp [Expr.isSame] at h
  | .filter m e args, f, h => by
    cases f with
    | filter n f args' =>
      simp only [Expr.isSame, Bool.and_eq_true, beq_iff_eq] at h
      rw [h.1.1, Expr.eq_of_isSame h.1.2, Expr.eq_of_areSame h.2]
    | _ => simp [Expr.isSame] at h
  | .binary op a b, f, h => by
    cases f with
    | binary op' a' b' =>
      simp only [Expr.isSame, Bool.and_eq_true, beq_iff_eq] at h
      rw [h.1.1, Expr.eq_of_isSame h.1.2, Expr.eq_of_isSame h.2]
    | _ => simp [Expr.isSame] at h
  | .list _, _, h | .map _, _, h | .index _ _, _, h | .invoke _ _, _, h | .test _ _ _ _, _, h
  | .not _, _, h | .negate _, _, h | .choose _ _ _, _, h => by simp [Expr.isSame] at h

theorem Expr.eq_of_areSame : ∀ {l r : List Expr}, Expr.areSame l r = true → l = r
  | [], r, h => by cases r <;> simp_all [Expr.areSame]
  | e :: l, r, h => by
    cases r with
    | nil => simp [Expr.areSame] at h
    | cons f r =>
      simp only [Expr.areSame, Bool.and_eq_true] at h
      rw [Expr.eq_of_isSame h.1, Expr.eq_of_areSame h.2]

end

theorem eq_of_sameBindings {l r : List (String × Expr)} (h : sameBindings l r = true) : l = r := by
  induction l generalizing r with
  | nil => cases r <;> simp_all [sameBindings]
  | cons b l ih =>
    cases r with
    | nil => simp [sameBindings] at h
    | cons b' r =>
      simp only [sameBindings, Bool.and_eq_true, beq_iff_eq] at h
      rw [Prod.ext h.1.1 (Expr.eq_of_isSame h.1.2), ih h.2]

mutual

theorem Node.eq_of_isSame : ∀ {n n' : Node}, n.isSame n' = true → n = n'
  | .text s, n', h => by cases n' <;> simp_all [Node.isSame]
  | .write e, n', h => by
    cases n' with
    | write f =>
      have hsame : e.isSame f = true := by simpa [Node.isSame] using h
      rw [Expr.eq_of_isSame hsame]
    | _ => simp [Node.isSame] at h
  | .choose c yes otherwise, n', h => by
    cases n' with
    | choose c' yes' otherwise' =>
      simp only [Node.isSame, Bool.and_eq_true] at h
      rw [Expr.eq_of_isSame h.1.1, Node.eq_of_areSame h.1.2, Node.eq_of_areSame h.2]
    | _ => simp [Node.isSame] at h
  | .loop l, n', h => by
    cases n' with
    | loop l' =>
      have hsame : l.isSame l' = true := by simpa [Node.isSame] using h
      rw [Loop.eq_of_isSame hsame]
    | _ => simp [Node.isSame] at h
  | .bind bs body, n', h => by
    cases n' with
    | bind bs' body' =>
      simp only [Node.isSame, Bool.and_eq_true] at h
      rw [eq_of_sameBindings h.1, Node.eq_of_areSame h.2]
    | _ => simp [Node.isSame] at h
  | .set m e, n', h => by
    cases n' with
    | set n f =>
      simp only [Node.isSame, Bool.and_eq_true, beq_iff_eq] at h
      rw [h.1, Expr.eq_of_isSame h.2]
    | _ => simp [Node.isSame] at h
  | .fragment e optional, n', h => by
    cases n' with
    | fragment f optional' =>
      simp only [Node.isSame, Bool.and_eq_true, beq_iff_eq] at h
      rw [Expr.eq_of_isSame h.1, h.2]
    | _ => simp [Node.isSame] at h
  | .capture _ _, _, h => by simp [Node.isSame] at h

theorem Node.eq_of_areSame : ∀ {l r : List Node}, Node.areSame l r = true → l = r
  | [], r, h => by cases r <;> simp_all [Node.areSame]
  | n :: l, r, h => by
    cases r with
    | nil => simp [Node.areSame] at h
    | cons n' r =>
      simp only [Node.areSame, Bool.and_eq_true] at h
      rw [Node.eq_of_isSame h.1, Node.eq_of_areSame h.2]

theorem Loop.eq_of_isSame : ∀ {l l' : Loop}, l.isSame l' = true → l = l'
  | ⟨names, range, none, recursive, body, otherwise⟩, l', h => by
    obtain ⟨names', range', condition', recursive', body', otherwise'⟩ := l'
    cases condition' with
    | some c => simp [Loop.isSame] at h
    | none =>
      simp only [Loop.isSame, Bool.and_eq_true, beq_iff_eq] at h
      obtain ⟨⟨⟨⟨hnames, hrange⟩, hrecursive⟩, hbody⟩, hotherwise⟩ := h
      rw [hnames, Expr.eq_of_isSame hrange, hrecursive, Node.eq_of_areSame hbody,
        Node.eq_of_areSame hotherwise]
  | ⟨_, _, some _, _, _, _⟩, l', h => by simp [Loop.isSame] at h

end

/-- What has been read is known if it passes the test. -/
theorem eq_some_of_areSame {read : Option (List Node)} {nodes : List Node}
    (h : read.any (Node.areSame · nodes) = true) : read = some nodes := by
  obtain ⟨nodes', rfl, hsame⟩ := (Option.any_eq_true _ _).1 h
  rw [Node.eq_of_areSame hsame]

end Lectern.Template
