import Lectern.Proofs.Page.ElementTemplate
import Lectern.Proofs.Page.Pages

/-!
# The parts of page templates

Nodes that the templates of both kinds of pages are made of, and what they give where the names of
a document are bound (`Env.Shows`): a text that may be missing, the speaker notes of a section, its
elements, what is said about the authors, and a loop over the sections.
-/

namespace Lectern

open Template (Value)

/-- Sections are nested nowhere more deeply than that in a document. -/
def Document.NestedWithin (d : Document) (n : Nat) : Prop :=
  (∀ s ∈ d.sections, Element.nestings s.elems ≤ n) ∧
    ∀ a ∈ d.authors, Element.nestings a.elems ≤ n

instance (d : Document) (n : Nat) : Decidable (d.NestedWithin n) :=
  inferInstanceAs (Decidable (_ ∧ _))

theorem Document.decide_nestedWithin (d : Document) (n : Nat) :
    decide (d.NestedWithin n) =
      (d.sections.all (fun s => decide (Element.nestings s.elems ≤ n)) &&
        d.authors.all fun a => decide (Element.nestings a.elems ≤ n)) := by
  rw [Bool.eq_iff_iff, decide_eq_true_iff]
  simp [Document.NestedWithin]

namespace Template

open Text Markup

/-! ## Nodes -/

/-- A field of the document. -/
def ofDocument (field : String) : Expr := .field (.name "doc") field

/-- A field of the section that is rendered. -/
def ofSection (field : String) : Expr := .field (.name "s") field

/-- What a page starts with, up to its title. -/
def beforeTitle : List Char :=
  doctype ++ newline 0 ++ startTag "html" [] ++ newline 2 ++ startTag "head" [] ++ newline 4 ++
    startTag "title" []

/-- Writes a value between two texts, if it counts as true. -/
def ifPresent (e : Expr) (before after : List Char) : Node :=
  .choose e [.text before, .write e, .text after] []

/-- Renders the elements that an expression gives. -/
def elementsOf (e : Expr) : Node :=
  .bind [("elems", e)] [.fragment (.literal (.str "action.tmpl".toList)) false]

/-- The speaker notes. -/
def notesNode : Node :=
  .choose (.binary .and (.name "notes_enabled") (ofSection "notes"))
    [.text (newline 8 ++ startTag "aside" [fixed "class" "notes"]),
      forEach "n" (ofSection "notes")
        [.text (newline 10 ++ startTag "p" []), writeStyled (.name "n"), .text (endTag "p")],
      .text (newline 8 ++ endTag "aside")] []

/-- What is said about the authors. -/
def authorsNode (style : String) : Node :=
  forEach "author" (ofDocument "authors")
    [.text (newline 8 ++ startTag "div" [fixed "class" style]),
      elementsOf (.field (.name "author") "elems"), .text (newline 8 ++ endTag "div")]

/-! ## What the nodes give -/

/-- The names of a document and of the switches are bound. -/
structure Env.Shows (env : Env) (d : Document) (o : Options) : Prop where
  doc : env.lookup "doc" = d.toValue
  date : env.lookup "date" = Value.ofString? d.displayTime
  play : env.lookup "play_enabled" = .bool o.play
  notes : env.lookup "notes_enabled" = .bool o.notes

theorem shows_values (d : Document) (o : Options) :
    Env.Shows { frames := [Theme.values d o] } d o := ⟨rfl, rfl, rfl, rfl⟩

theorem Env.Shows.of_lookup {env env₁ : Env} {d : Document} {o : Options} {x : String}
    (h : env.Shows d o) (hx : x ∉ ["doc", "date", "play_enabled", "notes_enabled"])
    (henv : ∀ n, n ≠ x → n ≠ "loop" → env₁.lookup n = env.lookup n) : env₁.Shows d o := by
  simp only [List.mem_cons, List.not_mem_nil, or_false, not_or] at hx
  obtain ⟨hdoc, hdate, hplay, hnotes⟩ := hx
  exact ⟨(henv _ (Ne.symm hdoc) (by decide)).trans h.doc,
    (henv _ (Ne.symm hdate) (by decide)).trans h.date,
    (henv _ (Ne.symm hplay) (by decide)).trans h.play,
    (henv _ (Ne.symm hnotes) (by decide)).trans h.notes⟩

section

variable {fragments : Fragments} {calls : Calls} {env : Env} {d : Document} {o : Options} {n : Nat}

theorem eval_ofDocument (h : env.Shows d o) {field : String} {v : Value}
    (hv : d.toValue.field field = .ok v) : (ofDocument field).eval calls env = .ok v := by
  rw [ofDocument, eval_field, eval_name, ok_bind, h.doc, hv]

theorem eval_subtitle (h : env.Shows d o) :
    (ofDocument "subtitle").eval calls env = .ok (Value.ofString? d.subtitle) :=
  eval_ofDocument h rfl

theorem eval_date (h : env.Shows d o) :
    (Expr.name "date").eval calls env = .ok (Value.ofString? d.displayTime) := by
  rw [eval_name, h.date]

theorem eval_sections (h : env.Shows d o) :
    (ofDocument "sections").eval calls env = .ok (.list (d.sections.map Section.toValue)) :=
  eval_ofDocument h rfl

theorem eval_authors (h : env.Shows d o) :
    (ofDocument "authors").eval calls env = .ok (.list (d.authors.map Author.toValue)) :=
  eval_ofDocument h rfl

theorem render_title (h : env.Shows d o) :
    (Node.write (ofDocument "title")).render calls env =
      .ok (escapeStrict d.title.toList, env) := by
  have htitle : (ofDocument "title").eval calls env = .ok (.str d.title.toList) :=
    eval_ofDocument h rfl
  rw [render_write, htitle, ok_bind, written_str, ok_bind]

/-- What is rendered for a text that may be missing. -/
theorem render_ifText {e : Expr} {s : Option String} {nodes : List Node} {f : String → List Markup}
    (h : e.eval calls env = .ok (Value.ofString? s))
    (hnodes : ∀ t, s = some t → Node.renderAll calls env nodes = .ok (printAll (f t), env)) :
    (Node.choose e nodes []).render calls env = .ok (printAll (ifText s f), env) := by
  rw [render_choose, h, ok_bind]
  cases s with
  | none => rfl
  | some t =>
    have hvalue : Value.ofString? (some t) = .str t.toList := rfl
    rw [hvalue, truth_str, ok_bind, ifText_some]
    cases t.toList.isEmpty with
    | true => rfl
    | false => exact hnodes t rfl

theorem render_ifPresent {e : Expr} {s : Option String}
    (h : e.eval calls env = .ok (Value.ofString? s)) {before after : List Char}
    {f : String → List Markup}
    (hf : ∀ s, printAll (f s) = before ++ (escapeStrict s.toList ++ after)) :
    (ifPresent e before after).render calls env = .ok (printAll (ifText s f), env) := by
  refine render_ifText h ?_
  rintro t rfl
  have hvalue : e.eval calls env = .ok (.str t.toList) := h
  simp [hvalue, hf]

theorem eval_ofSection {v w : Value} {field : String} (hs : env.lookup "s" = v)
    (h : v.field field = .ok w) : (ofSection field).eval calls env = .ok w := by
  rw [ofSection, eval_field, eval_name, ok_bind, hs, h]

theorem render_elementsOf (hf : fragments "action.tmpl" = some [.loop elementLoop])
    {x : String} {v : Value} {elems : List Element} (hx : env.lookup x = v)
    (helems : v.field "elems" = .ok (.list (Element.allToValues elems)))
    (hplay : env.lookup "play_enabled" = .bool o.play) :
    (elementsOf (.field (.name x) "elems")).render (Template.calls fragments (n + 1)) env =
      within (decide (Element.nestings elems ≤ n))
        (printAll (Element.allTrees o.play elems), env) := by
  have hfield : (Expr.field (.name x) "elems").eval (Template.calls fragments (n + 1)) env.push =
      .ok (.list (elems.map Element.toValue)) := by
    rw [eval_field, eval_name, Env.lookup_push, ok_bind, hx, helems, allToValues_eq_map]
  have hbind : (elementsOf (.field (.name x) "elems")).render
        (Template.calls fragments (n + 1)) env =
      bindAll (Template.calls fragments (n + 1)) env.push [("elems", .field (.name x) "elems")] >>=
        fun inner => Node.renderAll (Template.calls fragments (n + 1)) inner
          [.fragment (.literal (.str "action.tmpl".toList)) false] >>= fun p => .ok (p.1, env) :=
    rfl
  have hinside : bindAll (Template.calls fragments (n + 1)) env.push
        [("elems", .field (.name x) "elems")] =
      .ok (env.push.set "elems" (.list (elems.map Element.toValue))) := by
    rw [bindAll, hfield]
    rfl
  have hinner : Node.renderAll (Template.calls fragments n)
      (env.push.set "elems" (.list (elems.map Element.toValue))) [.loop elementLoop] =
      within (decide (Element.nestings elems ≤ n))
        (printAll (Element.allTrees o.play elems),
          env.push.set "elems" (.list (elems.map Element.toValue))) := by
    refine render_action fragments (Env.lookup_set_self _ _ _) ?_
    rw [Env.lookup_set_of_ne (by decide), Env.lookup_push, hplay]
  have hcall : (Template.calls fragments (n + 1)).fragment "action.tmpl"
        (env.push.set "elems" (.list (elems.map Element.toValue))) =
      within (decide (Element.nestings elems ≤ n))
        (printAll (Element.allTrees o.play elems),
          env.push.set "elems" (.list (elems.map Element.toValue))) := by
    rw [← hinner]
    simp only [Template.calls, hf]
  rw [hbind, hinside, ok_bind, renderAll_singleton, render_fragment false hcall]
  exact within_bind_ok rfl

theorem render_notesNode (h : env.Shows d o) {s : Section} {v : Value} (hs : env.lookup "s" = v)
    (hnotes : v.field "notes" = .ok (Value.ofStrings s.notes)) :
    notesNode.render calls env = .ok (printAll (notesTrees o s), env) := by
  have hsection : (ofSection "notes").eval calls env =
      .ok (.list (s.notes.map Value.ofString)) := eval_ofSection hs hnotes
  have henabled : (Expr.name "notes_enabled").eval calls env = .ok (.bool o.notes) := by
    rw [eval_name, h.notes]
  have hbody : ∀ note ∈ s.notes, ∀ env₁ : Env, env₁.lookup "n" = Value.ofString note →
      Node.renderAll calls env₁
        [.text (newline 10 ++ startTag "p" []), writeStyled (.name "n"), .text (endTag "p")] =
        .ok (printAll [line 10, .element "p" [] (styled note)], env₁) := by
    intro note _ env₁ hnote
    have hname : (Expr.name "n").eval calls env₁ = .ok (.str note.toList) := by
      rw [eval_name, hnote]
      rfl
    simp [render_writeStyled hname, print, line]
  rw [notesNode, render_choose, eval_and calls env _ _ henabled, notesTrees]
  cases o.notes with
  | false => rfl
  | true =>
    rw [if_pos rfl, hsection, ok_bind, truth_list, ok_bind, List.isEmpty_map, Bool.true_and]
    cases s.notes.isEmpty with
    | true => rfl
    | false =>
      simp [render_forEach_ok (by decide) hsection hbody, print, line, printAll_flatMap]

/-- A loop over the sections gives what its nodes give for each of them. -/
theorem render_overSections (h : env.Shows d o) {nodes : List Node}
    {trees : Section → Nat → List Markup}
    (hnodes : ∀ (s : Section) (index : Nat) (env₁ : Env), env₁.Shows d o →
      env₁.lookup "s" = s.toValue → (env₁.lookup "loop").field "index" = .ok (.int (index + 1)) →
      Node.renderAll calls env₁ nodes =
        within (decide (Element.nestings s.elems ≤ n)) (printAll (trees s index), env₁)) :
    (forEach "s" (ofDocument "sections") nodes).render calls env =
      within (d.sections.all fun s => decide (Element.nestings s.elems ≤ n))
        (d.sections.zipIdx.flatMap fun e => printAll (trees e.1 e.2), env) :=
  render_forEach (by decide) (eval_sections h) fun s _ env₁ index henv hs hindex =>
    hnodes s index env₁ (h.of_lookup (by decide) henv) hs hindex

theorem render_authorsNode (hf : fragments "action.tmpl" = some [.loop elementLoop])
    (h : env.Shows d o) (style : String) :
    (authorsNode style).render (Template.calls fragments (n + 1)) env =
      within (d.authors.all fun a => decide (Element.nestings a.elems ≤ n))
        (printAll (authorsTrees o d style), env) := by
  have hbody : ∀ a ∈ d.authors, ∀ (env₁ : Env) (index : Nat),
      (∀ n, n ≠ "author" → n ≠ "loop" → env₁.lookup n = env.lookup n) →
      env₁.lookup "author" = a.toValue →
      (env₁.lookup "loop").field "index" = .ok (.int (index + 1)) →
      Node.renderAll (Template.calls fragments (n + 1)) env₁
        [.text (newline 8 ++ startTag "div" [fixed "class" style]),
          elementsOf (.field (.name "author") "elems"), .text (newline 8 ++ endTag "div")] =
        within (decide (Element.nestings a.elems ≤ n))
          (printAll [line 8, .element "div" [fixed "class" style]
            (Element.allTrees o.play a.elems ++ [line 8])], env₁) := by
    intro a _ env₁ _ henv ha _
    have helems := render_elementsOf (n := n) hf ha (rfl : a.toValue.field "elems" = _)
      (h.of_lookup (by decide) henv).play
    have hnodes := renderAll_cons_ok (render_text (newline 8 ++ startTag "div" [fixed "class" style]))
      (renderAll_cons_within helems (renderAll_cons_ok (render_text (newline 8 ++ endTag "div"))
        renderAll_nil_within))
    rw [hnodes, Bool.and_true]
    simp [print, line]
  rw [authorsNode, render_forEach (by decide) (eval_authors h) hbody,
    flatMap_zipIdx fun a : Author => printAll [line 8, .element "div" [fixed "class" style]
      (Element.allTrees o.play a.elems ++ [line 8])], authorsTrees, printAll_flatMap]

end

end Template

end Lectern
