import Lectern.Proofs.Page.ArticleTemplate
import Lectern.Proofs.Page.SlidesTemplate

/-!
# Pages of the bundled theme

The bundled theme renders a document to the trees of its page, whatever its strings are, unless its
sections are nested more deeply than templates can call each other (`page_ofBundled`). So no other
failure can be reached (`page_accepts`), and a document without markup of its author's gives a
well-formed page (`page_wellFormed`).
-/

namespace Lectern

open Template Markup

namespace Theme

/-- The theme of the bundled templates, by the nodes that are read from them. -/
def ofBundled : Theme := ⟨[.loop elementLoop], slidesNodes, articleNodes⟩

theorem readTemplate_of_read {dir : Path} {name text : String} {nodes : List Template.Node}
    (h : Template.read text.toList = some nodes) : readTemplate dir name text = .ok nodes := by
  rw [readTemplate, h]

theorem bundled_eq : bundled = .ok ofBundled := by
  have haction : textOf bundledFiles directory actionName = .ok Bundled.action := by
    rw [textOf, bundledFiles, if_pos rfl]
  have hslides : textOf bundledFiles directory (Kind.templateName .slides) =
      .ok Bundled.slides := by
    rw [textOf, bundledFiles, if_neg (by decide), if_pos rfl]
  have harticle : textOf bundledFiles directory (Kind.templateName .article) =
      .ok Bundled.article := by
    rw [textOf, bundledFiles, if_neg (by decide), if_neg (by decide), if_pos rfl]
  rw [bundled, load, haction, ok_bind, hslides, ok_bind, readTemplate_of_read read_action, ok_bind,
    readTemplate_of_read read_slides, ok_bind, harticle, ok_bind,
    readTemplate_of_read read_article, ok_bind, pure_eq_ok, ofBundled]

/-- The deepest nesting of sections that is rendered: the fragment for elements takes one call, and
its loop takes one for each level below. A template engine also counts the frames of loops and
blocks (see `depthLimit`), so its own bound is a little lower. -/
def deepest : Nat := depthLimit - 1

/-- The template for a kind gives the trees of a page, unless sections are nested more deeply than
calls are allowed to be. -/
theorem renderAll_ofBundled (d : Document) (o : Options) (k : Kind) (limit : Nat) :
    Node.renderAll (calls (ofBundled.fragments k) (limit + 1)) { frames := [values d o] }
        (ofBundled.template k) =
      within (decide (d.NestedWithin limit))
        (doctype ++ printAll (d.trees o k), { frames := [values d o] }) := by
  have hf : ofBundled.fragments k "action.tmpl" = some [.loop elementLoop] := if_pos rfl
  cases k with
  | slides => exact render_slides hf (shows_values d o)
  | article => exact render_article hf (shows_values d o)

/-- The page of a document is what its trees give, unless its sections are nested too deeply. -/
theorem page_ofBundled (d : Document) (o : Options) (k : Kind) :
    ofBundled.page k d o =
      if d.NestedWithin deepest then .ok (doctype ++ printAll (d.trees o k))
      else .error (.render .tooDeep) := by
  have hrender : render (ofBundled.fragments k) (ofBundled.template k) (values d o) =
      within (decide (d.NestedWithin deepest)) (doctype ++ printAll (d.trees o k)) := by
    rw [render, show depthLimit = deepest + 1 from rfl, renderAll_ofBundled]
    exact within_bind_ok rfl
  rw [page, hrender]
  by_cases hnested : d.NestedWithin deepest
  · rw [if_pos hnested, decide_eq_true hnested, within_true]
  · rw [if_neg hnested, decide_eq_false hnested, within_false]

/-- The bundled templates render every document, whatever it holds and wherever its elements stand.
The depth at which rendering is given up is the only thing that can fail, wherever it is set: no
value that is missing is used, and no filter, test or function is refused its arguments. -/
theorem page_accepts (d : Document) (k : Kind) (o : Options) :
    ∃ t, bundled = .ok t ∧
      (d.NestedWithin deepest → ∃ html, t.page k d o = .ok html) ∧
      (¬ d.NestedWithin deepest → t.page k d o = .error (.render .tooDeep)) ∧
      ∀ limit, ∃ result, Node.renderAll (calls (t.fragments k) (limit + 1))
          { frames := [values d o] } (t.template k) =
        if d.NestedWithin limit then .ok result else .error .tooDeep := by
  refine ⟨ofBundled, bundled_eq, fun hnested => ?_, fun hnested => ?_, fun limit => ?_⟩
  · rw [page_ofBundled, if_pos hnested]
    exact ⟨_, rfl⟩
  · rw [page_ofBundled, if_neg hnested]
  · rw [renderAll_ofBundled, within]
    simp only [decide_eq_true_eq]
    exact ⟨_, rfl⟩

/-- No string of a document can break or forge the markup of its page: whatever the strings are in
a document without markup of its author's, its page is well-formed, for both kinds of documents and
for all switches; and it has a page unless its sections are nested too deeply. -/
theorem page_wellFormed (d : Document) (h : d.NoHtml) (k : Kind) (o : Options) :
    ∃ t, bundled = .ok t ∧
      (d.NestedWithin deepest → ∃ html, t.page k d o = .ok html ∧ WellFormed html) ∧
      (¬ d.NestedWithin deepest → t.page k d o = .error (.render .tooDeep)) := by
  refine ⟨ofBundled, bundled_eq, fun hnested => ?_, fun hnested => ?_⟩
  · refine ⟨doctype ++ printAll (d.trees o k), ?_, wellFormed_of_allProper (d.trees_proper o k h)⟩
    rw [page_ofBundled, if_pos hnested]
  · rw [page_ofBundled, if_neg hnested]

/-- A document whose strings look like markup. -/
def forged : Document where
  title := "</title><script>"
  subtitle := some "&amp;"
  authors := [⟨[.link "\" onclick=\"" "a <b> *c*"]⟩]
  sections :=
    [⟨[1], "1 < 2", [.text ["</p>", "`<i>`"] false,
      .sub ⟨[1, 1], "\">", [.code (.ofText "a.go" "a < b && c > d")], [], [], []⟩],
      ["</aside>"], ["\">"], []⟩]

theorem page_wellFormed_forged : forged.NoHtml ∧ forged.NestedWithin deepest ∧
    ∃ t, bundled = .ok t ∧
      ∃ html, t.page .slides forged { notes := true } = .ok html ∧ WellFormed html := by
  have h : forged.NoHtml := ⟨List.forall_mem_singleton.2 ⟨trivial, ⟨trivial, trivial⟩, trivial⟩,
    List.forall_mem_singleton.2 ⟨trivial, trivial⟩⟩
  have hnested : forged.NestedWithin deepest := by decide
  obtain ⟨t, ht, hpage, -⟩ := page_wellFormed forged h .slides { notes := true }
  exact ⟨h, hnested, t, ht, hpage hnested⟩

end Theme

end Lectern
