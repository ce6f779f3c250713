import Lectern.Proofs.Page.PartTemplates

/-!
# The template of slide decks

The nodes of the template that renders a slide deck, and what they give: the trees of its page,
unless sections are nested too deeply (`render_slides`).
-/

namespace Lectern.Template

open Text Markup

/-! ## Nodes -/

/-- The attribute for the strings in a field of the section, if there are any. -/
def stringsNode (name field separator : String) : Node :=
  .choose (ofSection field)
    [.text (openAttribute name), .write (joinedBy separator (ofSection field)), .text ['"']] []

/-- The title of a section, as a heading at a level. -/
def slideHeading (level : Nat) : List Node :=
  [.text (newline 8 ++ startTag (headingTag level) []), .write (ofSection "title"),
    .text (endTag (headingTag level))]

/-- A slide. -/
def slideNodes : List Node :=
  [.text (newline 6 ++ openTag "article"), stringsNode "class" "classes" " ",
    stringsNode "style" "styles" "; ", .text ['>'],
    .choose (ofSection "elems") (slideHeading 3) (slideHeading 2),
    elementsOf (ofSection "elems"), notesNode,
    .text (newline 8 ++ startTag "span" [fixed "class" "pagenumber"]),
    .write (.binary .add (.field (.name "loop") "index") (.literal (.int 1))),
    .text (endTag "span" ++ newline 6 ++ endTag "article" ++ newline 6)]

/-- A line of the first slide below the title. -/
def lineNode (e : Expr) : Node :=
  ifPresent e (newline 8 ++ startTag (headingTag 3) []) (endTag (headingTag 3))

/-- The template of slide decks. -/
def slidesNodes : List Node :=
  [.text beforeTitle, .write (ofDocument "title"),
    .text (endTag "title" ++
      printAll (headTrees "static/styles.css" ["static/slides.js", "static/play.js"]) ++
      newline 2 ++ endTag "head" ++ print (gap 2) ++
      startTag "body" [fixed "style" "display: none"] ++ print (gap 4) ++
      startTag "section" [fixed "class" "slides layout-widescreen"] ++ print (gap 6) ++
      startTag "article" [] ++ newline 8 ++ startTag (headingTag 1) []),
    .write (ofDocument "title"), .text (endTag (headingTag 1)), lineNode (ofDocument "subtitle"),
    lineNode (.name "date"), authorsNode "presenter",
    .text (newline 6 ++ endTag "article" ++ newline 6),
    forEach "s" (ofDocument "sections") slideNodes,
    .text (print (gap 6) ++ startTag "article" [] ++ newline 8 ++
      print (.element (headingTag 3) [] [words "Thank you"])),
    authorsNode "presenter",
    .text (newline 6 ++ endTag "article" ++ print (gap 4) ++ endTag "section" ++ print (gap 4) ++
      print helpBox ++ print (gap 2) ++ endTag "body" ++ newline 0 ++ endTag "html")]

/-- The template of slide decks, as it is read from its text. -/
theorem read_slides : Template.read Bundled.slides.toList = some slidesNodes := by
  refine eq_some_of_areSame ?_
  rw [Bundled.slides, Bundled.toList_textOf, Bundled.slidesPieces]
  simp only [List.flatMap_cons, List.flatMap_nil]
  -- the kernel reads a list of characters much faster than a string
  repeat rw [String.toList_ofList]
  decide +kernel

/-! ## What the nodes give -/

section

variable {fragments : Fragments} {calls : Calls} {env : Env} {d : Document} {o : Options} {n : Nat}

theorem render_stringsNode {v : Value} {field : String} {ss : List String}
    (hs : env.lookup "s" = v) (h : v.field field = .ok (Value.ofStrings ss))
    (name separator : String) :
    (stringsNode name field separator).render calls env =
      .ok ((stringsAttribute name separator ss).flatMap attributeText, env) := by
  have heval : (ofSection field).eval calls env = .ok (.list (ss.map Value.ofString)) :=
    eval_ofSection hs h
  rw [stringsNode, render_choose, heval, ok_bind, truth_list, ok_bind, List.isEmpty_map,
    stringsAttribute]
  cases ss.isEmpty with
  | true => rfl
  | false => simp [eval_joinedBy heval, joined, attributeText]

theorem render_slideHeading {v : Value} {title : String} (hs : env.lookup "s" = v)
    (h : v.field "title" = .ok (.str title.toList)) (level : Nat) :
    Node.renderAll calls env (slideHeading level) =
      .ok (printAll [line 8, .element (headingTag level) [] [value title]], env) := by
  have htitle : (ofSection "title").eval calls env = .ok (.str title.toList) :=
    eval_ofSection hs h
  simp [slideHeading, htitle, print, line, value]

/-- A slide shows its section, with the number of its page. -/
theorem render_slideNodes (hf : fragments "action.tmpl" = some [.loop elementLoop])
    (h : env.Shows d o) {s : Section} {index : Nat} (hs : env.lookup "s" = s.toValue)
    (hindex : (env.lookup "loop").field "index" = .ok (.int (index + 1))) :
    Node.renderAll (Template.calls fragments (n + 1)) env slideNodes =
      within (decide (Element.nestings s.elems ≤ n))
        (printAll (slideTrees o s (index + 2)), env) := by
  have hclass : (stringsNode "class" "classes" " ").render (Template.calls fragments (n + 1)) env =
      .ok ((stringsAttribute "class" " " s.classes).flatMap attributeText, env) :=
    render_stringsNode hs rfl "class" " "
  have hstyle : (stringsNode "style" "styles" "; ").render (Template.calls fragments (n + 1)) env =
      .ok ((stringsAttribute "style" "; " s.styles).flatMap attributeText, env) :=
    render_stringsNode hs rfl "style" "; "
  have helems : (ofSection "elems").eval (Template.calls fragments (n + 1)) env =
      .ok (.list (Element.allToValues s.elems)) := eval_ofSection hs rfl
  have hheading : (Node.choose (ofSection "elems") (slideHeading 3) (slideHeading 2)).render
        (Template.calls fragments (n + 1)) env =
      .ok (printAll [line 8, .element (headingTag (if s.elems.isEmpty then 2 else 3)) []
        [value s.title]], env) := by
    rw [render_choose, helems, ok_bind, truth_list, ok_bind, allToValues_eq_map, List.isEmpty_map]
    cases s.elems.isEmpty with
    | true => exact render_slideHeading hs rfl 2
    | false => exact render_slideHeading hs rfl 3
  have hbody : (elementsOf (ofSection "elems")).render (Template.calls fragments (n + 1)) env = _ :=
    render_elementsOf (n := n) hf hs (rfl : s.toValue.field "elems" = _) h.play
  have hnotes : notesNode.render (Template.calls fragments (n + 1)) env = _ :=
    render_notesNode h hs rfl
  have hnumber : (Node.write (.binary .add (.field (.name "loop") "index")
        (.literal (.int 1)))).render (Template.calls fragments (n + 1)) env =
      .ok (Nat.toDigits 10 (index + 2), env) := by
    have heval := eval_add (Template.calls fragments (n + 1)) env (.field (.name "loop") "index")
      (m := index + 1) (n := 1) hindex
    rw [render_write, heval, ok_bind]
    have hcast : ((index : Int) + 1 + 1) = (index + 2 : Nat) := by omega
    rw [hcast, written_natCast, ok_bind]
  simp only [slideNodes, renderAll_cons, render_text, hclass, hstyle, hheading, hbody, ok_bind]
  cases decide (Element.nestings s.elems ≤ n) with
  | false => rfl
  | true =>
    simp only [within_true, hnotes, hnumber, ok_bind, renderAll_nil]
    simp [slideTrees, print, line, startTag]

theorem render_lineNode {e : Expr} {s : Option String}
    (h : e.eval calls env = .ok (Value.ofString? s)) :
    (lineNode e).render calls env =
      .ok (printAll (ifText s fun s => [line 8, .element (headingTag 3) [] [value s]]), env) :=
  render_ifPresent h fun s => by simp [print, line, value]

/-- The template of slide decks gives the page of a deck. -/
theorem render_slides (hf : fragments "action.tmpl" = some [.loop elementLoop])
    (h : env.Shows d o) :
    Node.renderAll (Template.calls fragments (n + 1)) env slidesNodes =
      within (decide (d.NestedWithin n)) (doctype ++ printAll (slidesTrees o d), env) := by
  have hsections := render_overSections (n := n) h fun s index env₁ henv hs hindex =>
    render_slideNodes hf henv hs hindex
  rw [slidesNodes]
  -- one step for each node of the template
  refine (renderAll_cons_ok (render_text _) <| renderAll_cons_ok (render_title h) <|
    renderAll_cons_ok (render_text _) <| renderAll_cons_ok (render_title h) <|
    renderAll_cons_ok (render_text _) <| renderAll_cons_ok (render_lineNode (eval_subtitle h)) <|
    renderAll_cons_ok (render_lineNode (eval_date h)) <|
    renderAll_cons_within (render_authorsNode hf h "presenter") <|
    renderAll_cons_ok (render_text _) <| renderAll_cons_within hsections <|
    renderAll_cons_ok (render_text _) <|
    renderAll_cons_within (render_authorsNode hf h "presenter") <|
    renderAll_cons_ok (render_text _) renderAll_nil_within).trans ?_
  -- the authors stand on two slides, but they are nested too deeply on both or on none
  rw [Bool.and_true, Bool.and_comm, Bool.and_assoc, Bool.and_self, d.decide_nestedWithin]
  simp only [beforeTitle, slidesTrees, slideShow, titleSlide, thanksSlide, printAll_append,
    printAll_cons, printAll_nil, printAll_flatMap, print, line, gap, value, List.append_assoc,
    List.append_nil, List.cons_append, List.nil_append]

end

end Lectern.Template
