import Lectern.Proofs.Page.PartTemplates

/-!
# The template of articles

The nodes of the template that renders an article, and what they give: the trees of its page, unless
sections are nested too deeply (`render_article`). The table of contents is a loop that calls itself
for the subsections of a section (`render_contentsLoop`).
-/

namespace Lectern.Template

open Text Markup

/-! ## Nodes -/

/-- The subsections of a section. -/
def subsectionsOf : Expr :=
  .filter "list" (.filter "selectattr" (ofSection "elems")
    [.literal (.str "kind".toList), .literal (.str "equalto".toList),
      .literal (.str "section".toList)]) []

/-- The entry of a section in the table of contents. -/
def entryNodes : List Node :=
  [.text (newline 12 ++ startTag "li" [] ++ openTag "a" ++ openAttribute "href" ++
      '#' :: "TOC_".toList),
    .write (joinedBy "." (ofSection "number")), .text ['"', '>'], .write (ofSection "title"),
    .text (endTag "a" ++ endTag "li")]

/-- The entries of a section and of its subsections. -/
def contentsNodes : List Node :=
  entryNodes ++
    [.set "subs" subsectionsOf,
      .choose (.name "subs")
        [.text (newline 12 ++ startTag "ul" []), .write (.call "loop" [.name "subs"]),
          .text (endTag "ul")] []]

/-- The loop over the entries of the table of contents. -/
def contentsLoop : Loop := ⟨["s"], ofDocument "sections", none, true, contentsNodes, []⟩

/-- The table of contents. -/
def contentsNode : Node :=
  .choose (ofDocument "sections")
    [.text (newline 8 ++ startTag "div" [fixed "id" "toc"] ++ newline 10 ++
        startTag "ul" [fixed "class" "toc"]),
      .loop contentsLoop,
      .text (newline 10 ++ endTag "ul" ++ newline 8 ++ endTag "div")] []

/-- A section of the document. -/
def articleSectionNodes : List Node :=
  [.text (newline 8 ++ openTag (headingTag 2) ++ openAttribute "id" ++ "TOC_".toList),
    .write (joinedBy "." (ofSection "number")), .text ['"', '>'], .write (ofSection "title"),
    .text (endTag (headingTag 2)), elementsOf (ofSection "elems"), notesNode]

/-- What is said about the authors, under a heading. -/
def creditsNode : Node :=
  .choose (ofDocument "authors")
    [.text (newline 8 ++ print (.element (headingTag 2) [] [words "Authors"])),
      authorsNode "author"] []

/-- The description for search engines. -/
def summaryNode : Node :=
  ifPresent (ofDocument "summary")
    (newline 4 ++ openTag "meta" ++ attributeText (fixed "name" "description") ++
      openAttribute "content") ['"', '>']

/-- The keywords for search engines. -/
def tagsNode : Node :=
  .choose (ofDocument "tags")
    [.text (newline 4 ++ openTag "meta" ++ attributeText (fixed "name" "keywords") ++
        openAttribute "content"),
      .write (joinedBy ", " (ofDocument "tags")), .text ['"', '>']] []

/-- The places where the article has appeared before. -/
def oldUrlsNode : Node :=
  forEach "url" (ofDocument "old_url")
    [.text (newline 8 ++ startTag "p" [fixed "class" "old-url"] ++
        "Previously published at ".toList),
      .write (.name "url"), .text (endTag "p")]

/-- The end of a box that fills the width of the page, and of the container in it. -/
def boxEnd : List Char := newline 6 ++ endTag "div" ++ newline 4 ++ endTag "div"

/-- The start of a box that fills the width of the page, and of a container in it. -/
def boxStart (id : String) : List Char :=
  startTag "div" [fixed "id" id] ++ newline 6 ++ startTag "div" [fixed "class" "container"]

/-- The template of articles. -/
def articleNodes : List Node :=
  [.text beforeTitle, .write (ofDocument "title"),
    .text (endTag "title" ++ printAll (headTrees "static/article.css" ["static/play.js"])),
    summaryNode, tagsNode,
    .text (newline 2 ++ endTag "head" ++ newline 2 ++ startTag "body" [] ++ newline 4 ++
      boxStart "topbar" ++ newline 8 ++ startTag "div" [fixed "id" "heading"]),
    .write (ofDocument "title"),
    .choose (ofDocument "subtitle") [.text " - ".toList, .write (ofDocument "subtitle")] [],
    .text (endTag "div" ++ boxEnd ++ print (gap 4) ++ boxStart "page" ++ newline 8 ++
      startTag (headingTag 1) []),
    .write (ofDocument "title"),
    ifPresent (ofDocument "subtitle") (startTag "br" [] ++ startTag "small" []) (endTag "small"),
    .text (endTag (headingTag 1)),
    ifPresent (.name "date") (newline 8 ++ startTag "p" [fixed "class" "date"]) (endTag "p"),
    contentsNode, forEach "s" (ofDocument "sections") articleSectionNodes, creditsNode,
    .text (boxEnd ++ print (gap 4) ++ boxStart "footer"), oldUrlsNode,
    .text (boxEnd ++ newline 2 ++ endTag "body" ++ newline 0 ++ endTag "html")]

/-- The template of articles, as it is read from its text. -/
theorem read_article : Template.read Bundled.article.toList = some articleNodes := by
  refine eq_some_of_areSame ?_
  rw [Bundled.article, Bundled.toList_textOf, Bundled.articlePieces]
  simp only [List.flatMap_cons, List.flatMap_nil]
  -- the kernel reads a list of characters much faster than a string
  repeat rw [String.toList_ofList]
  decide +kernel

/-! ## The table of contents -/

section

variable {fragments : Fragments} {calls : Calls} {env : Env} {v : Value} {s : Section} {n : Nat}

/-- A value has the fields of a section that the table of contents shows. -/
structure ShowsSection (v : Value) (s : Section) : Prop where
  number : v.field "number" = .ok (.list (s.number.map Value.ofNat))
  title : v.field "title" = .ok (.str s.title.toList)
  elems : v.field "elems" = .ok (.list (s.elems.map Element.toValue))

theorem showsSection_toValue (s : Section) : ShowsSection s.toValue s := by
  refine ⟨rfl, rfl, ?_⟩
  rw [← allToValues_eq_map]
  rfl

theorem showsSection_sub (s : Section) : ShowsSection (Element.sub s).toValue s := by
  cases s
  refine ⟨rfl, rfl, ?_⟩
  rw [← allToValues_eq_map]
  rfl

theorem decide_kindName (e : Element) :
    decide (kindName e = "section") = e.section?.isSome := by
  cases e <;> rfl

theorem filter_section (elems : List Element) :
    (elems.filter fun e => e.section?.isSome) =
      (elems.filterMap Element.section?).map Element.sub := by
  induction elems with
  | nil => rfl
  | cons e r ih =>
    cases e with
    | sub s => exact congrArg (Element.sub s :: ·) ih
    | _ => exact ih

/-- The elements of a section are selected that are its subsections. -/
theorem eval_subsectionsOf (hs : env.lookup "s" = v) (h : ShowsSection v s) :
    subsectionsOf.eval calls env =
      .ok (.list ((s.subsections.map Element.sub).map Element.toValue)) := by
  have helems : (ofSection "elems").eval calls env = .ok (.list (s.elems.map Element.toValue)) :=
    eval_ofSection hs h.elems
  have hkind : ∀ e ∈ s.elems,
      (do
        let w ← e.toValue.field "kind"
        let passed ← passes "equalto" w [.str "section".toList]
        pure (passed == true)) = .ok e.section?.isSome := by
    intro e _
    have hpasses : passes "equalto" (.str (kindName e).toList) [.str "section".toList] =
        .ok ((Value.str (kindName e).toList).same (.str "section".toList)) := rfl
    rw [field_kind, ok_bind, hpasses, ok_bind, same_str, decide_kindName, beq_true]
    rfl
  have hfilter : applyFilter "selectattr" (.list (s.elems.map Element.toValue))
        [.str "kind".toList, .str "equalto".toList, .str "section".toList] =
      (s.elems.map Element.toValue).filterM (fun v => do
        let w ← v.field "kind"
        let passed ← passes "equalto" w [.str "section".toList]
        pure (passed == true)) >>= fun vs => .ok (.list vs) := rfl
  rw [subsectionsOf, eval_filter, eval_filter, helems, ok_bind]
  simp only [evalAll_cons, evalAll_nil, eval_literal, ok_bind]
  rw [hfilter, filterM_eq_ok hkind, ok_bind, ok_bind, applyFilter_list, filter_section,
    Section.subsections]

theorem render_entryNodes (hs : env.lookup "s" = v) (h : ShowsSection v s) :
    Node.renderAll calls env entryNodes =
      .ok (printAll [line 12,
        .element "li" [] [.element "a" [("href", '#' :: anchor s.number)] [value s.title]]],
        env) := by
  have hnumber : (ofSection "number").eval calls env = .ok (.list (s.number.map Value.ofNat)) :=
    eval_ofSection hs h.number
  have htitle : (ofSection "title").eval calls env = .ok (.str s.title.toList) :=
    eval_ofSection hs h.title
  simp [entryNodes, eval_joinedBy hnumber, htitle, print, line, value, startTag, attributeText,
    anchor]

/-- The loop can be called on sections: it gives their entries unless they are nested too
deeply. -/
def ContentsGive (calls : Calls) (depth : Nat) : Prop :=
  ∀ (env : Env) (l : List Section), l ≠ [] →
    calls.loop contentsLoop env (.list ((l.map Element.sub).map Element.toValue)) =
      within (l.all fun s => decide (Element.nestings s.elems + 1 ≤ depth))
        (printAll (l.flatMap Section.contents))

/-- The nodes of an entry give it with the entries of its subsections, if calls of the loop do. -/
theorem render_contentsNodes (hcall : ContentsGive calls n) (hs : env.lookup "s" = v)
    (h : ShowsSection v s) (hloop : env.loop = some contentsLoop) :
    ∃ env₁, env.Agrees ["s", "loop", "subs"] env₁ ∧
      Node.renderAll calls env contentsNodes =
        within (decide (Element.nestings s.elems ≤ n)) (printAll s.contents, env₁) := by
  have hset : (Node.set "subs" subsectionsOf).render calls env =
      .ok ([], env.set "subs" (.list ((s.subsections.map Element.sub).map Element.toValue))) := by
    rw [render_set, eval_subsectionsOf hs h, ok_bind]
  have hfits : decide (Element.nestings s.elems ≤ n) =
      s.subsections.all fun t => decide (Element.nestings t.elems + 1 ≤ n) := by
    rw [Bool.eq_iff_iff, decide_eq_true_iff, nestings_le_iff_subsections, List.all_eq_true]
    simp
  refine ⟨env.set "subs" (.list ((s.subsections.map Element.sub).map Element.toValue)),
    Env.agrees_set (by decide) _, ?_⟩
  rw [contentsNodes, renderAll_append, render_entryNodes hs h, ok_bind, hfits, contents_eq]
  simp only [renderAll_cons, hset, render_choose, eval_name, Env.lookup_set_self, ok_bind,
    truth_list, List.isEmpty_map]
  cases hsubs : s.subsections with
  | nil => simp
  | cons t r =>
    have hwrite : (Node.write (.call "loop" [.name "subs"])).render calls
          (env.set "subs" (.list (((t :: r).map Element.sub).map Element.toValue))) =
        within ((t :: r).all fun t => decide (Element.nestings t.elems + 1 ≤ n))
          (printAll ((t :: r).flatMap Section.contents),
            env.set "subs" (.list (((t :: r).map Element.sub).map Element.toValue))) := by
      rw [render_write, eval_loop calls _ _ ((Env.loop_set env _ _).trans hloop)
        (by rw [eval_name, Env.lookup_set_self]), hcall _ _ (List.cons_ne_nil t r)]
      cases (t :: r).all fun t => decide (Element.nestings t.elems + 1 ≤ n) <;> rfl
    simp only [List.isEmpty_cons, Bool.not_false, if_true, Bool.false_eq_true, if_false,
      render_text, hwrite, ok_bind, renderAll_nil]
    cases (t :: r).all fun t => decide (Element.nestings t.elems + 1 ≤ n) with
    | false => rfl
    | true => simp [print, line]

/-- A run of the loop gives the entries of its sections, if calls of the loop from its body do. -/
theorem render_contentsLoop (hcall : ContentsGive calls n) (depth : Nat) {f : Section → Value}
    (hf : ∀ s, ShowsSection (f s) s) (l : List Section) :
    Loop.render calls env depth (.list (l.map f)) contentsLoop =
      within (l.all fun s => decide (Element.nestings s.elems ≤ n))
        (printAll (l.flatMap Section.contents)) := by
  have hbody : BodyGives (fun env => Node.renderAll calls env contentsNodes)
      ["s", "loop", "subs"] "s" f l (fun s => decide (Element.nestings s.elems ≤ n))
      (fun _ s => printAll s.contents) (contentsLoop.inside env depth) :=
    fun s _ env₁ _ henv hs _ => render_contentsNodes hcall hs (hf s) (henv.loop.trans rfl)
  rw [contentsLoop, Loop.render_eq_within (by decide) (by decide) (by decide) hbody,
    flatMap_zipIdx fun s : Section => printAll s.contents, printAll_flatMap]

/-- With calls up to a depth the loop can be called on sections that are nested less deeply. -/
theorem contentsGive_calls (fragments : Fragments) (n : Nat) :
    ContentsGive (Template.calls fragments n) n := by
  induction n with
  | zero =>
    intro env l hl
    cases l with
    | nil => exact absurd rfl hl
    | cons s r =>
      rw [List.all_cons, decide_eq_false (Nat.not_succ_le_zero _)]
      rfl
  | succ n ih =>
    intro env l _
    have hdepth (s : Section) : decide (Element.nestings s.elems + 1 ≤ n + 1) =
        decide (Element.nestings s.elems ≤ n) := decide_eq_decide.2 Nat.succ_le_succ_iff
    simp only [hdepth]
    have hvalue : ∀ s, ShowsSection ((Element.toValue ∘ Element.sub) s) s := showsSection_sub
    rw [List.map_map]
    exact render_contentsLoop ih (env.depth + 1) hvalue l

end

/-! ## What the nodes give -/

section

variable {fragments : Fragments} {calls : Calls} {env : Env} {d : Document} {o : Options} {n : Nat}

/-- The table of contents is rendered if the sections are: it calls itself once less deeply. -/
theorem render_contentsNode (h : env.Shows d o) :
    contentsNode.render (Template.calls fragments n) env =
      within (d.sections.all fun s => decide (Element.nestings s.elems ≤ n))
        (printAll (contentsTrees d), env) := by
  have hloop : (Node.loop contentsLoop).render (Template.calls fragments n) env =
      within (d.sections.all fun s => decide (Element.nestings s.elems ≤ n))
        (printAll (d.sections.flatMap Section.contents), env) := by
    have hrender : Loop.render (Template.calls fragments n) env 0
        (.list (d.sections.map Section.toValue)) contentsLoop = _ :=
      render_contentsLoop (contentsGive_calls fragments n) 0 showsSection_toValue d.sections
    rw [contentsLoop] at hrender ⊢
    rw [render_loop (eval_sections h), hrender]
    exact within_bind_ok rfl
  rw [contentsNode, render_choose, eval_sections h, ok_bind, truth_list, ok_bind, List.isEmpty_map,
    contentsTrees]
  cases hempty : d.sections.isEmpty with
  | true =>
    rw [List.isEmpty_iff] at hempty
    rw [hempty]
    rfl
  | false =>
    simp only [Bool.not_false, if_true, Bool.false_eq_true, if_false, renderAll_cons, render_text,
      hloop, ok_bind, renderAll_nil]
    cases d.sections.all fun s => decide (Element.nestings s.elems ≤ n) with
    | false => rfl
    | true => simp [print, line]

theorem render_articleSectionNodes (hf : fragments "action.tmpl" = some [.loop elementLoop])
    (h : env.Shows d o) {s : Section} (hs : env.lookup "s" = s.toValue) :
    Node.renderAll (Template.calls fragments (n + 1)) env articleSectionNodes =
      within (decide (Element.nestings s.elems ≤ n)) (printAll (sectionTrees o s), env) := by
  have hnumber : (ofSection "number").eval (Template.calls fragments (n + 1)) env =
      .ok (.list (s.number.map Value.ofNat)) := eval_ofSection hs rfl
  have htitle : (ofSection "title").eval (Template.calls fragments (n + 1)) env =
      .ok (.str s.title.toList) := eval_ofSection hs rfl
  have hbody : (elementsOf (ofSection "elems")).render (Template.calls fragments (n + 1)) env = _ :=
    render_elementsOf (n := n) hf hs (rfl : s.toValue.field "elems" = _) h.play
  have hnotes : notesNode.render (Template.calls fragments (n + 1)) env = _ :=
    render_notesNode h hs rfl
  simp only [articleSectionNodes, renderAll_cons, render_text, render_write, eval_joinedBy hnumber,
    htitle, written_str, hbody, ok_bind]
  cases decide (Element.nestings s.elems ≤ n) with
  | false => rfl
  | true =>
    simp only [within_true, hnotes, ok_bind, renderAll_nil]
    simp [sectionTrees, print, line, value, startTag, attributeText, anchor]

theorem render_creditsNode (hf : fragments "action.tmpl" = some [.loop elementLoop])
    (h : env.Shows d o) :
    creditsNode.render (Template.calls fragments (n + 1)) env =
      within (d.authors.all fun a => decide (Element.nestings a.elems ≤ n))
        (printAll (creditsTrees o d), env) := by
  rw [creditsNode, render_choose, eval_authors h, ok_bind, truth_list, ok_bind, List.isEmpty_map,
    creditsTrees]
  cases hempty : d.authors.isEmpty with
  | true =>
    rw [List.isEmpty_iff] at hempty
    rw [hempty]
    rfl
  | false =>
    simp only [Bool.not_false, if_true, Bool.false_eq_true, if_false, renderAll_cons, render_text,
      render_authorsNode hf h, ok_bind, renderAll_nil]
    cases d.authors.all fun a => decide (Element.nestings a.elems ≤ n) with
    | false => rfl
    | true => simp [line, print]

theorem render_summaryNode (h : env.Shows d o) :
    summaryNode.render calls env = .ok (printAll (ifText d.summary fun s =>
      [line 4, .void "meta" [fixed "name" "description", ("content", escapeStrict s.toList)]]),
        env) := by
  have hsummary : (ofDocument "summary").eval calls env = .ok (Value.ofString? d.summary) :=
    eval_ofDocument h rfl
  exact render_ifPresent hsummary fun s => by simp [print, line, startTag, attributeText]

theorem render_tagsNode (h : env.Shows d o) :
    tagsNode.render calls env = .ok (printAll (if d.tags.isEmpty then [] else
      [line 4, .void "meta" [fixed "name" "keywords", ("content", joined ", " d.tags)]]), env) := by
  have htags : (ofDocument "tags").eval calls env = .ok (.list (d.tags.map Value.ofString)) :=
    eval_ofDocument h rfl
  rw [tagsNode, render_choose, htags, ok_bind, truth_list, ok_bind, List.isEmpty_map]
  cases d.tags.isEmpty with
  | true => rfl
  | false => simp [eval_joinedBy htags, print, line, startTag, attributeText, joined]

theorem render_oldUrlsNode (h : env.Shows d o) :
    oldUrlsNode.render calls env =
      .ok (printAll (d.oldUrls.flatMap fun url =>
        [line 8,
          .element "p" [fixed "class" "old-url"] [words "Previously published at ", value url]]),
        env) := by
  have hurls : (ofDocument "old_url").eval calls env = .ok (.list (d.oldUrls.map Value.ofString)) :=
    eval_ofDocument h rfl
  have hbody : ∀ url ∈ d.oldUrls, ∀ env₁ : Env, env₁.lookup "url" = Value.ofString url →
      Node.renderAll calls env₁
        [.text (newline 8 ++ startTag "p" [fixed "class" "old-url"] ++
            "Previously published at ".toList),
          .write (.name "url"), .text (endTag "p")] =
        .ok (printAll [line 8, .element "p" [fixed "class" "old-url"]
          [words "Previously published at ", value url]], env₁) := by
    intro url _ env₁ hurl
    have hname : (Expr.name "url").eval calls env₁ = .ok (.str url.toList) := by
      rw [eval_name, hurl]
      rfl
    simp only [renderAll_cons, render_text, render_write, hname, written_str, ok_bind,
      renderAll_nil]
    simp only [printAll_cons, printAll_nil, print, line, words, value, List.append_assoc,
      List.append_nil]
  rw [oldUrlsNode, render_forEach_ok (by decide) hurls hbody, printAll_flatMap]

/-- The subtitle behind the title in the bar at the top. -/
theorem render_barSubtitle (h : env.Shows d o) :
    (Node.choose (ofDocument "subtitle")
        [.text " - ".toList, .write (ofDocument "subtitle")] []).render calls env =
      .ok (printAll (ifText d.subtitle fun s => [words " - ", value s]), env) := by
  refine render_ifText (eval_subtitle h) fun s hs => ?_
  have hvalue : (ofDocument "subtitle").eval calls env = .ok (.str s.toList) := by
    rw [eval_subtitle h, hs]
    rfl
  simp [hvalue, print, words, value]

/-- The table of contents fails only where the sections do: it calls itself once less deeply. -/
theorem fits_contents (l : List Section) (n : Nat) :
    ((l.all fun s => decide (Element.nestings s.elems ≤ n + 1)) &&
        l.all fun s => decide (Element.nestings s.elems ≤ n)) =
      l.all fun s => decide (Element.nestings s.elems ≤ n) := by
  rw [Bool.and_eq_right_iff_imp, List.all_eq_true, List.all_eq_true]
  exact fun hall s hs => decide_eq_true ((of_decide_eq_true (hall s hs)).trans n.le_succ)

/-- The template of articles gives the page of an article. -/
theorem render_article (hf : fragments "action.tmpl" = some [.loop elementLoop])
    (h : env.Shows d o) :
    Node.renderAll (Template.calls fragments (n + 1)) env articleNodes =
      within (decide (d.NestedWithin n)) (doctype ++ printAll (articleTrees o d), env) := by
  have hsmall : (ifPresent (ofDocument "subtitle") (startTag "br" [] ++ startTag "small" [])
        (endTag "small")).render (Template.calls fragments (n + 1)) env =
      .ok (printAll (ifText d.subtitle fun s => [.void "br" [], .element "small" [] [value s]]),
        env) := render_ifPresent (eval_subtitle h) fun s => by simp [print, value]
  have hday : (ifPresent (.name "date") (newline 8 ++ startTag "p" [fixed "class" "date"])
        (endTag "p")).render (Template.calls fragments (n + 1)) env =
      .ok (printAll (ifText d.displayTime fun s =>
        [line 8, .element "p" [fixed "class" "date"] [value s]]), env) :=
    render_ifPresent (eval_date h) fun s => by simp [print, value, line]
  have hsections := render_overSections (n := n) h fun s _ env₁ henv hs _ =>
    render_articleSectionNodes hf henv hs
  rw [articleNodes]
  -- one step for each node of the template
  refine (renderAll_cons_ok (render_text _) <| renderAll_cons_ok (render_title h) <|
    renderAll_cons_ok (render_text _) <| renderAll_cons_ok (render_summaryNode h) <|
    renderAll_cons_ok (render_tagsNode h) <| renderAll_cons_ok (render_text _) <|
    renderAll_cons_ok (render_title h) <| renderAll_cons_ok (render_barSubtitle h) <|
    renderAll_cons_ok (render_text _) <| renderAll_cons_ok (render_title h) <|
    renderAll_cons_ok hsmall <| renderAll_cons_ok (render_text _) <| renderAll_cons_ok hday <|
    renderAll_cons_within (render_contentsNode h) <| renderAll_cons_within hsections <|
    renderAll_cons_within (render_creditsNode hf h) <| renderAll_cons_ok (render_text _) <|
    renderAll_cons_ok (render_oldUrlsNode h) <| renderAll_cons_ok (render_text _)
    renderAll_nil_within).trans ?_
  rw [← Bool.and_assoc, fits_contents, Bool.and_true, d.decide_nestedWithin,
    flatMap_zipIdx fun s : Section => printAll (sectionTrees o s)]
  simp only [beforeTitle, boxStart, boxEnd, articleTrees, topBar, articleBody, articleFoot,
    descriptionTrees, printAll_append, printAll_cons, printAll_nil, printAll_flatMap, print,
    line, gap, value, List.append_assoc, List.append_nil, List.cons_append, List.nil_append]

end

end Lectern.Template
