import Lectern.Proofs.Page.Reading

/-!
# What a page holds

Questions to the trees of a page: which elements it has, in which order, what their attributes are,
and which text they show. The answers do not depend on how the texts of the trees are cut
(`allElements_allAtoms`), and a value that was escaped shows as it was (`decode_escapeStrict`).
-/

namespace Lectern

open Text

namespace Markup

/-! ## Elements -/

mutual

/-- The elements in a part of a page, each in front of those inside of it. -/
def elements : Markup → List Markup
  | text _ => []
  | element tag attributes body => .element tag attributes body :: allElements body
  | void tag attributes => [.void tag attributes]

/-- The elements in parts of a page. -/
def allElements : List Markup → List Markup
  | [] => []
  | m :: r => m.elements ++ allElements r

end

/-- What an element holds. -/
def body : Markup → List Markup
  | element _ _ body => body
  | text _ | void _ _ => []

/-- Is it an element with the tag? -/
def hasTag (tag : String) : Markup → Bool
  | element t _ _ | void t _ => t = tag
  | text _ => false

/-- Is it a heading, of any level? -/
def isHeading : Markup → Bool
  | element tag _ _ =>
      match tag.toList with
      | 'h' :: level => !level.isEmpty && level.all Char.isDigit
      | _ => false
  | text _ | void _ _ => false

variable {l r : List Markup}

@[simp] theorem allElements_nil : allElements [] = [] := rfl

@[simp] theorem allElements_cons (m : Markup) (r : List Markup) :
    allElements (m :: r) = m.elements ++ allElements r := rfl

@[simp] theorem elements_text (s : List Char) : (text s).elements = [] := rfl

@[simp] theorem elements_element (tag : String) (attributes : List (String × List Char))
    (body : List Markup) :
    (element tag attributes body).elements = .element tag attributes body :: allElements body := rfl

@[simp] theorem elements_void (tag : String) (attributes : List (String × List Char)) :
    (void tag attributes).elements = [.void tag attributes] := rfl

@[simp] theorem allElements_append (l r : List Markup) :
    allElements (l ++ r) = allElements l ++ allElements r := by
  induction l with
  | nil => rfl
  | cons m l ih => rw [List.cons_append, allElements_cons, allElements_cons, ih, List.append_assoc]

theorem allElements_flatMap {α : Type} (f : α → List Markup) (l : List α) :
    allElements (l.flatMap f) = l.flatMap fun a => allElements (f a) := by
  induction l with
  | nil => rfl
  | cons a l ih => rw [List.flatMap_cons, List.flatMap_cons, allElements_append, ih]

/-! ## Texts -/

mutual

/-- The texts in a part of a page, as they stand in it. -/
def source : Markup → List Char
  | text s => s
  | element _ _ body => allSource body
  | void _ _ => []

/-- The texts in parts of a page, as they stand in it. -/
def allSource : List Markup → List Char
  | [] => []
  | m :: r => m.source ++ allSource r

end

@[simp] theorem allSource_nil : allSource [] = [] := rfl

@[simp] theorem allSource_cons (m : Markup) (r : List Markup) :
    allSource (m :: r) = m.source ++ allSource r := rfl

@[simp] theorem allSource_append (l r : List Markup) :
    allSource (l ++ r) = allSource l ++ allSource r := by
  induction l with
  | nil => rfl
  | cons m l ih => rw [List.cons_append, allSource_cons, allSource_cons, ih, List.append_assoc]

theorem allSource_flatMap {α : Type} (f : α → List Markup) (l : List α) :
    allSource (l.flatMap f) = l.flatMap fun a => allSource (f a) := by
  induction l with
  | nil => rfl
  | cons a l ih => rw [List.flatMap_cons, List.flatMap_cons, allSource_append, ih]

/-- The entities with the characters that they stand for. -/
def references : List (List Char × Char) :=
  [("&amp;".toList, '&'), ("&lt;".toList, '<'), ("&gt;".toList, '>'), ("&quot;".toList, '"'),
    ("&#x27;".toList, '\''), ("&#x2f;".toList, '/')]

/-- The entity at the start of a text: what it stands for, and the number of its characters behind
the first one. -/
def reference? (s : List Char) : Option (Char × Nat) :=
  references.findSome? fun e => if e.1.isPrefixOf s then some (e.2, e.1.length - 1) else none

/-- The text with its entities replaced, where the first characters belong to an entity that has
been replaced. -/
def decodeBehind : Nat → List Char → List Char
  | _, [] => []
  | n + 1, _ :: r => decodeBehind n r
  | 0, c :: r =>
      match reference? (c :: r) with
      | some (d, n) => d :: decodeBehind n r
      | none => c :: decodeBehind 0 r

/-- The text with its entities replaced by the characters that they stand for. -/
def decode (s : List Char) : List Char := decodeBehind 0 s

/-- The text that an element shows. -/
def shown (m : Markup) : List Char := decode (allSource m.body)

theorem reference?_eq_none {c : Char} (hc : c ≠ '&') (s : List Char) :
    reference? (c :: s) = none := by
  have hstart : ∀ e ∈ references, e.1.head? = some '&' := by decide
  rw [reference?, List.findSome?_eq_none_iff]
  intro e he
  refine if_neg fun h => ?_
  obtain ⟨r, hr⟩ := List.isPrefixOf_iff_prefix.1 h
  have hhead : (e.1 ++ r).head? = some '&' := by rw [List.head?_append, hstart e he]; rfl
  rw [hr] at hhead
  exact hc (Option.some.inj hhead)

theorem decode_escapeChar (c : Char) (s : List Char) :
    decode (escapeChar c ++ s) = c :: decode s := by
  rw [escapeChar, entity?]
  by_cases hamp : c = '&'
  · subst hamp
    rfl
  by_cases hlt : c = '<'
  · subst hlt
    rfl
  by_cases hgt : c = '>'
  · subst hgt
    rfl
  by_cases hquot : c = '"'
  · subst hquot
    rfl
  by_cases hapos : c = '\''
  · subst hapos
    rfl
  rw [if_neg hamp, if_neg hlt, if_neg hgt, if_neg hquot, if_neg hapos]
  show decodeBehind 0 (c :: s) = c :: decodeBehind 0 s
  rw [decodeBehind, reference?_eq_none hamp]

theorem decode_escapeCharStrict (c : Char) (s : List Char) :
    decode (escapeCharStrict c ++ s) = c :: decode s := by
  rw [escapeCharStrict]
  split_ifs with hslash
  · subst hslash
    rfl
  · exact decode_escapeChar c s

/-- Inline text shows as it is. -/
theorem decode_escape (s : List Char) : decode (escape s) = s := by
  induction s with
  | nil => rfl
  | cons c s ih => rw [escape_cons, decode_escapeChar, ih]

/-- A value that is put into a page shows as it is. -/
theorem decode_escapeStrict (s : List Char) : decode (escapeStrict s) = s := by
  induction s with
  | nil => rfl
  | cons c s ih => rw [escapeStrict_cons, decode_escapeCharStrict, ih]

/-! ## Attributes -/

/-- The value of an attribute of an element. -/
def attribute? (name : String) : Markup → Option (List Char)
  | element _ attributes _ | void _ attributes => (attributes.lookup name).map decode
  | text _ => none

/-- Does the element have the value for its attribute? -/
def hasAttribute (name : String) (v : List Char) (m : Markup) : Bool := m.attribute? name = some v

/-! ## Trees that are cut into characters -/

/-- The element with the texts in it taken apart into characters. -/
def atomized : Markup → Markup
  | element tag attributes body => .element tag attributes (allAtoms body)
  | text s => .text s
  | void tag attributes => .void tag attributes

theorem allElements_chars (s : List Char) : allElements (s.map fun c => text [c]) = [] := by
  induction s with
  | nil => rfl
  | cons c s ih => rw [List.map_cons, allElements_cons, ih, elements_text, List.append_nil]

theorem allSource_chars (s : List Char) : allSource (s.map fun c => text [c]) = s := by
  induction s with
  | nil => rfl
  | cons c s ih =>
    rw [List.map_cons, allSource_cons, ih]
    rfl

mutual

theorem allElements_atoms : ∀ m : Markup, allElements m.atoms = m.elements.map atomized
  | .text s => allElements_chars s
  | .element tag attributes body => by
    rw [atoms, allElements_cons, elements_element, elements_element, allElements_allAtoms body,
      List.map_cons, allElements_nil, List.append_nil, atomized]
  | .void _ _ => rfl

/-- The elements of a page do not depend on how its texts are cut. -/
theorem allElements_allAtoms :
    ∀ l : List Markup, allElements (allAtoms l) = (allElements l).map atomized
  | [] => rfl
  | m :: r => by
    rw [allAtoms, allElements_append, allElements_atoms m, allElements_allAtoms r,
      allElements_cons, List.map_append]

end

mutual

theorem allSource_atoms : ∀ m : Markup, allSource m.atoms = m.source
  | .text s => allSource_chars s
  | .element tag attributes body => by
    rw [atoms, allSource_cons, source, allSource_allAtoms body, source, allSource_nil,
      List.append_nil]
  | .void _ _ => rfl

theorem allSource_allAtoms : ∀ l : List Markup, allSource (allAtoms l) = allSource l
  | [] => rfl
  | m :: r => by
    rw [allAtoms, allSource_append, allSource_atoms m, allSource_allAtoms r, allSource_cons]

end

@[simp] theorem hasTag_atomized (tag : String) (m : Markup) :
    m.atomized.hasTag tag = m.hasTag tag := by cases m <;> rfl

@[simp] theorem attribute?_atomized (name : String) (m : Markup) :
    m.atomized.attribute? name = m.attribute? name := by cases m <;> rfl

@[simp] theorem hasAttribute_atomized (name : String) (v : List Char) (m : Markup) :
    m.atomized.hasAttribute name v = m.hasAttribute name v := by
  rw [hasAttribute, hasAttribute, attribute?_atomized]

@[simp] theorem isHeading_atomized (m : Markup) : m.atomized.isHeading = m.isHeading := by
  cases m <;> rfl

theorem body_atomized (m : Markup) : m.atomized.body = allAtoms m.body := by cases m <;> rfl

@[simp] theorem shown_atomized (m : Markup) : m.atomized.shown = m.shown := by
  rw [shown, shown, body_atomized, allSource_allAtoms]

end Markup

end Lectern
