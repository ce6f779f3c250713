import Lectern.Proofs.Page.Elements
import Lectern.Proofs.Template.Evaluation
import Lectern.Proofs.Template.Sameness
import Lectern.Theme

/-!
# The template of elements

The nodes of the template that renders a list of elements, and what they give: the trees of the
elements, unless their sections are nested too deeply (`render_action`). The kind of an element
chooses the nodes for it (`render_elementNodes_eq`).
-/

namespace Lectern.Template

open Text Markup

/-! ## Nodes -/

/-- A field of the element that is rendered. -/
def ofElement (field : String) : Expr := .field (.name "e") field

/-- The strings or numbers of a list with a separator between them. -/
def joinedBy (separator : String) (e : Expr) : Expr :=
  .filter "join" e [.literal (.str separator.toList)]

/-- Writes a text with inline markup. -/
def writeStyled (e : Expr) : Node := .write (.call "style" [e])

/-- What is rendered for an element of a kind, and for one of another kind. -/
def ifKind (kind : String) (yes otherwise : List Node) : Node :=
  .choose (.binary .eq (ofElement "kind") (.literal (.str kind.toList))) yes otherwise

/-- The attribute for a height or a width. -/
def sizeNode (name : String) : Node :=
  .choose (ofElement name)
    [.text (openAttribute name), .write (ofElement name), .text ['"']] []

/-- A part of a program that is not shown. -/
def hiddenNode (field : String) : Node :=
  .choose (ofElement field)
    [.text (startTag "pre" [fixed "style" "display: none"] ++ startTag "span" []),
      .write (ofElement field), .text (endTag "span" ++ endTag "pre")] []

/-- The heading of a section. -/
def headingNodes : List Node :=
  [.set "level" (.binary .add (.filter "length" (ofElement "number") []) (.literal (.int 1))),
    .text (newline 0 ++ openTag "h"), .write (.name "level"),
    .text (openAttribute "id" ++ "TOC_".toList), .write (joinedBy "." (ofElement "number")),
    .text ['"', '>'], .write (ofElement "title"), .text ('<' :: '/' :: "h".toList),
    .write (.name "level"), .text ['>']]

/-- A section. -/
def sectionNodes : List Node := headingNodes ++ [.write (.call "loop" [ofElement "elems"])]

/-- A list. -/
def listNodes : List Node :=
  [.text (newline 0 ++ startTag "ul" []),
    forEach "b" (ofElement "bullets")
      [.text (newline 2 ++ startTag "li" []), writeStyled (.name "b"), .text (endTag "li")],
    .text (newline 0 ++ endTag "ul")]

/-- A preformatted text. -/
def preformattedNodes : List Node :=
  [.text (newline 0 ++ startTag "div" [fixed "class" "code"] ++ startTag "pre" []),
    .write (joinedBy "\n" (ofElement "lines")), .text (endTag "pre" ++ endTag "div")]

/-- A paragraph. -/
def paragraphNodes : List Node :=
  [.text (newline 0 ++ startTag "p" []),
    forEach "l" (ofElement "lines") [.text (newline 2), writeStyled (.name "l")],
    .text (newline 0 ++ endTag "p")]

/-- An excerpt. -/
def codeNodes : List Node :=
  [.text (newline 0 ++ openTag "div" ++ openAttribute "class" ++ "code".toList),
    .choose (.call "playable" [.name "e"]) [.text " playground".toList] [], .text ['"'],
    .choose (ofElement "edit")
      [.text (attributeText (fixed "contenteditable" "true") ++
        attributeText (fixed "spellcheck" "false"))] [],
    .text ['>'], hiddenNode "prefix", .text (openTag "pre"),
    .choose (ofElement "numbers") [.text (attributeText (fixed "class" "numbers"))] [],
    .text ['>'],
    forEach "line" (ofElement "lines")
      [.text (openTag "span" ++ openAttribute "num"), .write (.field (.name "line") "number"),
        .text ['"', '>'], .write (.field (.name "line") "text"),
        .text (endTag "span" ++ newline 0)],
    .text (endTag "pre"), hiddenNode "suffix", .text (endTag "div")]

/-- A picture. -/
def imageNodes : List Node :=
  [.text (newline 0 ++ startTag "div" [fixed "class" "image"] ++ newline 2 ++ openTag "img" ++
      openAttribute "src"),
    .write (ofElement "url"), .text ['"'], sizeNode "height", sizeNode "width",
    .text ('>' :: newline 0 ++ endTag "div")]

/-- A frame. -/
def iframeNodes : List Node :=
  [.text (newline 0 ++ openTag "iframe" ++ openAttribute "src"), .write (ofElement "url"),
    .text ['"'], sizeNode "height", sizeNode "width", .text ('>' :: endTag "iframe")]

/-- A link. -/
def linkNodes : List Node :=
  [.text (newline 0 ++ startTag "p" [fixed "class" "link"] ++ openTag "a" ++
      openAttribute "href"),
    .write (ofElement "url"), .text ('"' :: attributeText (fixed "target" "_blank") ++ ['>']),
    writeStyled (ofElement "label"), .text (endTag "a" ++ endTag "p")]

/-- A caption. -/
def captionNodes : List Node :=
  [.text (newline 0 ++ startTag "figcaption" []), writeStyled (ofElement "text"),
    .text (endTag "figcaption")]

/-- An element. -/
def elementNodes : List Node :=
  [ifKind "section" sectionNodes
    [ifKind "list" listNodes
      [ifKind "text" [.choose (ofElement "pre") preformattedNodes paragraphNodes]
        [ifKind "code" codeNodes
          [ifKind "image" imageNodes
            [ifKind "iframe" iframeNodes
              [ifKind "link" linkNodes
                [ifKind "caption" captionNodes
                  [ifKind "html"
                    [.text (newline 0), .write (.filter "safe" (ofElement "html") [])]
                    []]]]]]]]]]

/-- The loop over the elements. -/
def elementLoop : Loop := ⟨["e"], .name "elems", none, true, elementNodes, []⟩

/-- The template of elements, as it is read from its text. -/
theorem read_action : Template.read Bundled.action.toList = some [.loop elementLoop] := by
  refine eq_some_of_areSame ?_
  rw [Bundled.action, Bundled.toList_textOf, Bundled.actionPieces]
  simp only [List.flatMap_cons, List.flatMap_nil]
  -- the kernel reads a list of characters much faster than a string
  repeat rw [String.toList_ofList]
  decide +kernel

/-! ## What the nodes give -/

section

variable {calls : Calls} {env : Env} {play : Bool}

theorem eval_ofElement {v w : Value} {field : String} (he : env.lookup "e" = v)
    (h : v.field field = .ok w) : (ofElement field).eval calls env = .ok w := by
  rw [ofElement, eval_field, eval_name, ok_bind, he, h]

theorem eval_joinedBy {e : Expr} {vs : List Value} (h : e.eval calls env = .ok (.list vs))
    (separator : String) :
    (joinedBy separator e).eval calls env =
      .ok (.str (Value.joined separator.toList vs)) := by
  rw [joinedBy, eval_filter, h, ok_bind, evalAll_cons, eval_literal, ok_bind, evalAll_nil, ok_bind,
    ok_bind, applyFilter_join]

theorem render_writeStyled {e : Expr} {s : String} (h : e.eval calls env = .ok (.str s.toList)) :
    (writeStyled e).render calls env = .ok (printAll (styled s), env) := by
  rw [writeStyled, render_write, eval_style calls env e h, ok_bind, written_safe, ok_bind,
    printAll_styled]

theorem render_ifKind {v : Value} {kind : String} (he : env.lookup "e" = v)
    (h : v.field "kind" = .ok (.str kind.toList)) (kind' : String) (yes otherwise : List Node) :
    (ifKind kind' yes otherwise).render calls env =
      if kind = kind' then Node.renderAll calls env yes
      else Node.renderAll calls env otherwise := by
  rw [ifKind, render_choose, eval_eq calls env _ (eval_ofElement he h), ok_bind, truth_bool,
    ok_bind, same_str]
  by_cases hk : kind = kind' <;> simp [hk]

theorem render_sizeNode {v : Value} {name : String} {n : Option Nat} (he : env.lookup "e" = v)
    (h : v.field name = .ok (Value.ofNat? n)) :
    (sizeNode name).render calls env =
      .ok ((sizeAttribute name n).flatMap attributeText, env) := by
  have heval : (ofElement name).eval calls env = .ok (Value.ofNat? n) := eval_ofElement he h
  rw [sizeNode, render_choose, heval, ok_bind]
  rcases n with _ | _ | n
  · rfl
  · rfl
  · have htruth : (Value.ofNat? (some (n + 1))).truth = .ok true := rfl
    have hwritten : (Value.ofNat? (some (n + 1))).written = .ok (Nat.toDigits 10 (n + 1)) :=
      written_natCast (n + 1)
    rw [htruth, ok_bind]
    simp [heval, hwritten, sizeAttribute, attributeText]

theorem render_textIf {e : Expr} {b : Bool} (h : e.eval calls env = .ok (.bool b))
    (s : List Char) :
    (Node.choose e [.text s] []).render calls env = .ok (if b then s else [], env) := by
  rw [render_choose, h, ok_bind, truth_bool, ok_bind]
  cases b <;> simp

theorem render_hiddenNode {v : Value} {field s : String} (he : env.lookup "e" = v)
    (h : v.field field = .ok (.str s.toList)) :
    (hiddenNode field).render calls env = .ok (printAll (hiddenPart s), env) := by
  have heval : (ofElement field).eval calls env = .ok (.str s.toList) := eval_ofElement he h
  rw [hiddenNode, render_choose, heval, ok_bind, truth_str, ok_bind, hiddenPart]
  by_cases hs : s.toList.isEmpty <;> simp [hs, heval, print, value]

/-! ### The kinds of elements -/

theorem render_link {url label : String}
    (he : env.lookup "e" = (Element.link url label).toValue) :
    Node.renderAll calls env linkNodes =
      .ok (printAll ((Element.link url label).trees play), env) := by
  have hurl : (ofElement "url").eval calls env = .ok (.str url.toList) := eval_ofElement he rfl
  have hlabel : (ofElement "label").eval calls env = .ok (.str label.toList) :=
    eval_ofElement he rfl
  simp [linkNodes, hurl, render_writeStyled hlabel, Element.trees, print, startTag, attributeText,
    line]

theorem render_caption {s : String} (he : env.lookup "e" = (Element.caption s).toValue) :
    Node.renderAll calls env captionNodes =
      .ok (printAll ((Element.caption s).trees play), env) := by
  have htext : (ofElement "text").eval calls env = .ok (.str s.toList) := eval_ofElement he rfl
  simp [captionNodes, render_writeStyled htext, Element.trees, print, line]

theorem render_image {url : String} {width height : Option Nat}
    (he : env.lookup "e" = (Element.image url width height).toValue) :
    Node.renderAll calls env imageNodes =
      .ok (printAll ((Element.image url width height).trees play), env) := by
  have hurl : (ofElement "url").eval calls env = .ok (.str url.toList) := eval_ofElement he rfl
  have hheight : (sizeNode "height").render calls env = _ := render_sizeNode he rfl
  have hwidth : (sizeNode "width").render calls env = _ := render_sizeNode he rfl
  simp [imageNodes, hurl, hheight, hwidth, Element.trees, print, startTag, attributeText, line]

theorem render_iframe {url : String} {width height : Option Nat}
    (he : env.lookup "e" = (Element.iframe url width height).toValue) :
    Node.renderAll calls env iframeNodes =
      .ok (printAll ((Element.iframe url width height).trees play), env) := by
  have hurl : (ofElement "url").eval calls env = .ok (.str url.toList) := eval_ofElement he rfl
  have hheight : (sizeNode "height").render calls env = _ := render_sizeNode he rfl
  have hwidth : (sizeNode "width").render calls env = _ := render_sizeNode he rfl
  simp [iframeNodes, hurl, hheight, hwidth, Element.trees, print, startTag, attributeText, line]

theorem render_list {bullets : List String}
    (he : env.lookup "e" = (Element.list bullets).toValue) :
    Node.renderAll calls env listNodes =
      .ok (printAll ((Element.list bullets).trees play), env) := by
  have hbullets : (ofElement "bullets").eval calls env =
      .ok (.list (bullets.map Value.ofString)) := eval_ofElement he rfl
  have hbody : ∀ b ∈ bullets, ∀ env₁ : Env, env₁.lookup "b" = Value.ofString b →
      Node.renderAll calls env₁
        [.text (newline 2 ++ startTag "li" []), writeStyled (.name "b"), .text (endTag "li")] =
        .ok (printAll [line 2, .element "li" [] (styled b)], env₁) := by
    intro b _ env₁ hb
    have hname : (Expr.name "b").eval calls env₁ = .ok (.str b.toList) := by
      rw [eval_name, hb]
      rfl
    simp [render_writeStyled hname, print, line]
  simp [listNodes, render_forEach_ok (by decide) hbullets hbody, Element.trees, print, line,
    printAll_flatMap]

theorem render_paragraph {lines : List String}
    (he : env.lookup "e" = (Element.text lines false).toValue) :
    Node.renderAll calls env paragraphNodes =
      .ok (printAll ((Element.text lines false).trees play), env) := by
  have hlines : (ofElement "lines").eval calls env =
      .ok (.list (lines.map Value.ofString)) := eval_ofElement he rfl
  have hbody : ∀ l ∈ lines, ∀ env₁ : Env, env₁.lookup "l" = Value.ofString l →
      Node.renderAll calls env₁ [.text (newline 2), writeStyled (.name "l")] =
        .ok (printAll (line 2 :: styled l), env₁) := by
    intro l _ env₁ hl
    have hname : (Expr.name "l").eval calls env₁ = .ok (.str l.toList) := by
      rw [eval_name, hl]
      rfl
    simp [render_writeStyled hname, print, line]
  simp [paragraphNodes, render_forEach_ok (by decide) hlines hbody, Element.trees, print, line,
    printAll_flatMap]

theorem render_preformatted {lines : List String}
    (he : env.lookup "e" = (Element.text lines true).toValue) :
    Node.renderAll calls env preformattedNodes =
      .ok (printAll ((Element.text lines true).trees play), env) := by
  have hlines : (ofElement "lines").eval calls env =
      .ok (.list (lines.map Value.ofString)) := eval_ofElement he rfl
  simp [preformattedNodes, eval_joinedBy hlines, Element.trees, print, line, joined]

theorem eval_playable {c : Code} (he : env.lookup "e" = c.toValue)
    (hplay : env.lookup "play_enabled" = .bool play) :
    (Expr.call "playable" [.name "e"]).eval calls env = .ok (.bool (c.playableWhen play)) := by
  have hcall : (Expr.call "playable" [.name "e"]).eval calls env =
      callFunction env "playable" [env.lookup "e"] := rfl
  have hplayable : callFunction env "playable" [c.toValue] =
      .ok (.bool (Code.isPlayable (env.lookup "play_enabled").isTrue c.play
        (String.ofList c.ext.toList))) := rfl
  rw [hcall, he, hplayable, hplay, String.ofList_toList]
  rfl

theorem render_code {c : Code} (he : env.lookup "e" = c.toValue)
    (hplay : env.lookup "play_enabled" = .bool play) :
    Node.renderAll calls env codeNodes = .ok (printAll (c.trees play), env) := by
  have hedit : (ofElement "edit").eval calls env = .ok (.bool c.edit) := eval_ofElement he rfl
  have hnumbers : (ofElement "numbers").eval calls env = .ok (.bool c.numbers) :=
    eval_ofElement he rfl
  have hbefore : (hiddenNode "prefix").render calls env =
      .ok (printAll (hiddenPart c.before), env) := render_hiddenNode he rfl
  have hafter : (hiddenNode "suffix").render calls env =
      .ok (printAll (hiddenPart c.after), env) := render_hiddenNode he rfl
  have hlines : (ofElement "lines").eval calls env =
      .ok (.list (c.lines.map CodeLine.toValue)) := eval_ofElement he rfl
  have hbody : ∀ l ∈ c.lines, ∀ env₁ : Env, env₁.lookup "line" = l.toValue →
      Node.renderAll calls env₁
        [.text (openTag "span" ++ openAttribute "num"), .write (.field (.name "line") "number"),
          .text ['"', '>'], .write (.field (.name "line") "text"),
          .text (endTag "span" ++ newline 0)] =
        .ok (printAll [.element "span" [("num", Nat.toDigits 10 l.number)] [value l.text],
          line 0], env₁) := by
    intro l _ env₁ hl
    have hnumber : (Expr.field (.name "line") "number").eval calls env₁ = .ok (.int l.number) := by
      rw [eval_field, eval_name, hl]
      rfl
    have htext : (Expr.field (.name "line") "text").eval calls env₁ =
        .ok (.str l.text.toList) := by
      rw [eval_field, eval_name, hl]
      rfl
    simp only [renderAll_cons, render_text, render_write, hnumber, htext, written_natCast,
      written_str, ok_bind, renderAll_nil]
    simp [print, line, value, startTag, attributeText]
  simp only [codeNodes, renderAll_cons, render_text, render_textIf (eval_playable he hplay),
    render_textIf hedit, render_textIf hnumbers, hbefore, hafter,
    render_forEach_ok (by decide) hlines hbody, ok_bind, renderAll_nil]
  have hattributes (b : Bool) (l : List (String × List Char)) :
      (if b then l else []).flatMap attributeText = if b then l.flatMap attributeText else [] := by
    cases b <;> rfl
  simp only [Code.trees, print, line, startTag, attributeText, hattributes, printAll_cons,
    printAll_nil, printAll_append, printAll_flatMap, List.flatMap_cons, List.flatMap_nil,
    List.append_assoc, List.append_nil]

theorem render_html {s : String} (he : env.lookup "e" = (Element.html s).toValue) :
    Node.renderAll calls env
        [.text (newline 0), .write (.filter "safe" (ofElement "html") [])] =
      .ok (printAll ((Element.html s).trees play), env) := by
  have hhtml : (ofElement "html").eval calls env = .ok (.str s.toList) := eval_ofElement he rfl
  simp [hhtml, applyFilter_safe, Element.trees, print, line]

theorem allToValues_eq_map (elems : List Element) :
    Element.allToValues elems = elems.map Element.toValue := by
  induction elems with
  | nil => rfl
  | cons e r ih => rw [Element.allToValues, ih, List.map_cons]

theorem render_heading {number : List Nat} {title : String} {elems : List Element}
    {notes classes styles : List String}
    (he : env.lookup "e" = (Element.sub ⟨number, title, elems, notes, classes, styles⟩).toValue) :
    Node.renderAll calls env headingNodes =
      .ok (printAll [line 0, .element (headingTag (number.length + 1)) [("id", anchor number)]
        [value title]], env.set "level" (.int (number.length + 1 : Nat))) := by
  have hlength : (Expr.filter "length" (ofElement "number") []).eval calls env =
      .ok (.int (number.length : Nat)) := by
    have hnumber : (ofElement "number").eval calls env =
        .ok (.list (number.map Value.ofNat)) := eval_ofElement he rfl
    rw [eval_filter, hnumber, ok_bind, evalAll_nil, ok_bind, applyFilter_length, List.length_map]
  have hset := eval_add calls env _ hlength (n := 1)
  rw [← Nat.cast_succ] at hset
  have he₁ : (env.set "level" (.int (number.length + 1 : Nat))).lookup "e" =
      (Element.sub ⟨number, title, elems, notes, classes, styles⟩).toValue := by
    rw [Env.lookup_set_of_ne (by decide), he]
  have hnumber : (ofElement "number").eval calls
      (env.set "level" (.int (number.length + 1 : Nat))) =
      .ok (.list (number.map Value.ofNat)) := eval_ofElement he₁ rfl
  have htitle : (ofElement "title").eval calls
      (env.set "level" (.int (number.length + 1 : Nat))) = .ok (.str title.toList) :=
    eval_ofElement he₁ rfl
  simp only [headingNodes, renderAll_cons, render_set, hset, render_text, render_write, eval_name,
    Env.lookup_set_self, written_natCast, eval_joinedBy hnumber, htitle, written_str, ok_bind,
    renderAll_nil]
  simp [print, line, startTag, openTag, endTag, attributeText, headingTag, anchor, value]

theorem render_section {number : List Nat} {title : String} {elems : List Element}
    {notes classes styles : List String} {fits : Bool} {s : List Char}
    (he : env.lookup "e" = (Element.sub ⟨number, title, elems, notes, classes, styles⟩).toValue)
    (hloop : env.loop = some elementLoop)
    (hcall : ∀ env₁ : Env, env.Agrees ["level"] env₁ →
      calls.loop elementLoop env₁ (.list (elems.map Element.toValue)) = within fits s) :
    Node.renderAll calls env sectionNodes =
      within fits (printAll [line 0, .element (headingTag (number.length + 1))
        [("id", anchor number)] [value title]] ++ s,
        env.set "level" (.int (number.length + 1 : Nat))) := by
  have he₁ : (env.set "level" (.int (number.length + 1 : Nat))).lookup "e" =
      (Element.sub ⟨number, title, elems, notes, classes, styles⟩).toValue := by
    rw [Env.lookup_set_of_ne (by decide), he]
  have helems : (ofElement "elems").eval calls
      (env.set "level" (.int (number.length + 1 : Nat))) =
      .ok (.list (elems.map Element.toValue)) := by
    rw [← allToValues_eq_map]
    exact eval_ofElement he₁ rfl
  have hwrite : (Node.write (.call "loop" [ofElement "elems"])).render calls
      (env.set "level" (.int (number.length + 1 : Nat))) =
      within fits (s, env.set "level" (.int (number.length + 1 : Nat))) := by
    rw [render_write, eval_loop calls _ _ ((Env.loop_set env _ _).trans hloop) helems,
      hcall _ (Env.agrees_set (List.mem_singleton_self _) _)]
    cases fits <;> rfl
  rw [sectionNodes, renderAll_append, render_heading he, ok_bind, renderAll_singleton, hwrite]
  exact within_bind_ok rfl

/-! ### Kinds of elements -/

/-- The name of the kind of an element. -/
def kindName : Element → String
  | .sub _ => "section"
  | .text _ _ => "text"
  | .list _ => "list"
  | .code _ => "code"
  | .image _ _ _ => "image"
  | .iframe _ _ _ => "iframe"
  | .link _ _ => "link"
  | .caption _ => "caption"
  | .html _ => "html"

/-- The nodes for elements of the kind of an element. -/
def branchOf : Element → List Node
  | .sub _ => sectionNodes
  | .text _ true => preformattedNodes
  | .text _ false => paragraphNodes
  | .list _ => listNodes
  | .code _ => codeNodes
  | .image _ _ _ => imageNodes
  | .iframe _ _ _ => iframeNodes
  | .link _ _ => linkNodes
  | .caption _ => captionNodes
  | .html _ => [.text (newline 0), .write (.filter "safe" (ofElement "html") [])]

theorem field_kind (e : Element) : e.toValue.field "kind" = .ok (.str (kindName e).toList) := by
  cases e with
  | sub s => cases s; rfl
  | _ => rfl

theorem exists_sub_of_kindName {e : Element} (h : kindName e = "section") :
    ∃ s, e = .sub s := by
  cases e with
  | sub s => exact ⟨s, rfl⟩
  | _ => simp [kindName] at h

theorem nesting_eq_zero {e : Element} (h : kindName e ≠ "section") : e.nesting = 0 := by
  cases e with
  | sub s => exact absurd rfl h
  | _ => rfl

/-- The nodes of the template choose those of the kind. -/
theorem render_elementNodes_eq (e : Element) (he : env.lookup "e" = e.toValue) :
    Node.renderAll calls env elementNodes = Node.renderAll calls env (branchOf e) := by
  have hkind := @render_ifKind calls env _ _ he (field_kind e)
  cases e with
  | text lines pre =>
    have hpre : (ofElement "pre").eval calls env = .ok (.bool pre) := eval_ofElement he rfl
    cases pre <;>
      simp only [elementNodes, renderAll_singleton, hkind, kindName, branchOf, render_choose, hpre,
        ok_bind, truth_bool, String.reduceEq, Bool.false_eq_true, if_true, if_false]
  | _ =>
    simp only [elementNodes, renderAll_singleton, hkind, kindName, branchOf, String.reduceEq,
      if_true, if_false]

/-! ### Elements at any depth -/

/-- The loop can be called on elements: it gives their trees unless they are nested too deeply. -/
def CallGives (calls : Calls) (play : Bool) (depth : Nat) : Prop :=
  ∀ (env : Env) (elems : List Element), env.lookup "play_enabled" = .bool play →
    calls.loop elementLoop env (.list (elems.map Element.toValue)) =
      within (decide (Element.nestings elems + 1 ≤ depth))
        (printAll (Element.allTrees play elems))

/-- The nodes of an element that is no section give its trees, however deep they are. -/
theorem render_branchOf (he : env.lookup "e" = e.toValue)
    (hplay : env.lookup "play_enabled" = .bool play) (hsection : kindName e ≠ "section") :
    Node.renderAll calls env (branchOf e) = .ok (printAll (e.trees play), env) := by
  cases e with
  | sub s => exact absurd rfl hsection
  | text lines pre =>
    cases pre with
    | true => exact render_preformatted he
    | false => exact render_paragraph he
  | list bullets => exact render_list he
  | code c => exact render_code he hplay
  | image url width height => exact render_image he
  | iframe url width height => exact render_iframe he
  | link url label => exact render_link he
  | caption s => exact render_caption he
  | html s => exact render_html he

/-- The nodes of an element give its trees, if calls of the loop do. -/
theorem render_elementNodes {n : Nat} (hcall : CallGives calls play n) (e : Element)
    (he : env.lookup "e" = e.toValue) (hplay : env.lookup "play_enabled" = .bool play)
    (hloop : env.loop = some elementLoop) :
    ∃ env₁, env.Agrees ["e", "loop", "level"] env₁ ∧
      Node.renderAll calls env elementNodes =
        within (decide (e.nesting ≤ n)) (printAll (e.trees play), env₁) := by
  rw [render_elementNodes_eq e he]
  by_cases hsection : kindName e = "section"
  · obtain ⟨s, rfl⟩ := exists_sub_of_kindName hsection
    obtain ⟨number, title, elems, notes, classes, styles⟩ := s
    have hsub : ∀ env₁ : Env, env.Agrees ["level"] env₁ →
        calls.loop elementLoop env₁ (.list (elems.map Element.toValue)) =
          within (decide (Element.nestings elems + 1 ≤ n))
            (printAll (Element.allTrees play elems)) := fun env₁ henv =>
      hcall env₁ elems ((henv.lookup _ (by decide)).trans hplay)
    refine ⟨env.set "level" (.int (number.length + 1 : Nat)), Env.agrees_set (by decide) _, ?_⟩
    rw [branchOf, render_section he hloop hsub, Element.trees, printAll_append]
    rfl
  · refine ⟨env, Env.Agrees.refl _ _, ?_⟩
    rw [render_branchOf he hplay hsection, nesting_eq_zero hsection, decide_eq_true n.zero_le,
      within_true]

/-- A run of the loop gives the trees of its elements, if calls of the loop from its body do. -/
theorem render_elementLoop {n : Nat} (hcall : CallGives calls play n) (depth : Nat)
    (elems : List Element) (hplay : env.lookup "play_enabled" = .bool play) :
    Loop.render calls env depth (.list (elems.map Element.toValue)) elementLoop =
      within (decide (Element.nestings elems ≤ n)) (printAll (Element.allTrees play elems)) := by
  have hbody : BodyGives (fun env => Node.renderAll calls env elementNodes)
      ["e", "loop", "level"] "e" Element.toValue elems (fun e => decide (e.nesting ≤ n))
      (fun _ e => printAll (e.trees play)) (elementLoop.inside env depth) := by
    intro e _ env₁ _ henv he _
    refine render_elementNodes hcall e he ?_ (henv.loop.trans rfl)
    rw [henv.lookup _ (by decide)]
    exact hplay
  have hall : (elems.all fun e => decide (e.nesting ≤ n)) =
      decide (Element.nestings elems ≤ n) := by
    rw [Bool.eq_iff_iff, List.all_eq_true, decide_eq_true_eq, nestings_le_iff]
    simp
  rw [elementLoop, Loop.render_eq_within (by decide) (by decide) (by decide) hbody, hall,
    flatMap_zipIdx fun e : Element => printAll (e.trees play), allTrees_eq_flatMap,
    printAll_flatMap]

/-- With calls up to a depth the loop can be called on elements that are nested less deeply. -/
theorem callGives_calls (fragments : Fragments) (play : Bool) (n : Nat) :
    CallGives (Template.calls fragments n) play n := by
  induction n with
  | zero =>
    intro env elems _
    rw [decide_eq_false (Nat.not_succ_le_zero _)]
    rfl
  | succ n ih =>
    intro env elems hplay
    rw [decide_eq_decide.2 Nat.succ_le_succ_iff]
    exact render_elementLoop ih (env.depth + 1) elems hplay

/-- The template of elements gives their trees, unless they are nested too deeply. -/
theorem render_action (fragments : Fragments) {n : Nat} {elems : List Element}
    (helems : env.lookup "elems" = .list (elems.map Element.toValue))
    (hplay : env.lookup "play_enabled" = .bool play) :
    Node.renderAll (Template.calls fragments n) env [.loop elementLoop] =
      within (decide (Element.nestings elems ≤ n))
        (printAll (Element.allTrees play elems), env) := by
  have hrange : (Expr.name "elems").eval (Template.calls fragments n) env =
      .ok (.list (elems.map Element.toValue)) := by
    rw [eval_name, helems]
  have hloop := render_elementLoop (callGives_calls fragments play n) 0 elems hplay
  rw [elementLoop] at hloop ⊢
  rw [renderAll_singleton, render_loop hrange, hloop]
  exact within_bind_ok rfl

end

end Lectern.Template
