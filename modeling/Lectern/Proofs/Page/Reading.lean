import Lectern.Proofs.Page.Markup
import Lectern.Proofs.Source.Passages

/-!
# Reading pages

A page is read as a browser reads it: first character by character into tags and characters of
texts, and then into trees, in which every start tag needs the end tag of its name. What is printed
from proper trees is read as these trees, with their texts taken apart into characters
(`read_printAll`), so a page can be asked what it holds.
-/

namespace Lectern

namespace Markup

/-! ## Tokens -/

/-- A token of a page: a character of a text, or a tag that starts or ends an element. -/
inductive Token where
  | char (c : Char)
  | start (tag : String) (attributes : List (String × List Char))
  | stop (tag : String)

/-- The token of a tag without attributes. -/
def tagToken (name : List Char) : Token :=
  match name with
  | '/' :: tag => .stop (String.ofList tag)
  | tag => .start (String.ofList tag) []

/-- Where in a page a character stands: in a text, or in a tag, with what has been read of it. -/
inductive Place where
  | text
  | tag (name : List Char)
  | behind (tag : String) (attributes : List (String × List Char))
  | name (tag : String) (attributes : List (String × List Char)) (name : List Char)
  | equals (tag : String) (attributes : List (String × List Char)) (name : String)
  | value (tag : String) (attributes : List (String × List Char)) (name : String)
      (value : List Char)

/-- Reads a character: the tokens that it ends, and the place behind it. -/
def step (p : Place) (c : Char) : Option (List Token × Place) :=
  match p with
  | .text => if c = '<' then some ([], .tag []) else some ([.char c], .text)
  | .tag s =>
      if c = '>' then some ([tagToken s], .text)
      else if c = ' ' then some ([], .name (String.ofList s) [] [])
      else some ([], .tag (s ++ [c]))
  | .behind tag attributes =>
      if c = '>' then some ([.start tag attributes], .text)
      else if c = ' ' then some ([], .name tag attributes [])
      else none
  | .name tag attributes s =>
      if c = '=' then some ([], .equals tag attributes (String.ofList s))
      else some ([], .name tag attributes (s ++ [c]))
  | .equals tag attributes s => if c = '"' then some ([], .value tag attributes s []) else none
  | .value tag attributes s v =>
      if c = '"' then some ([], .behind tag (attributes ++ [(s, v)]))
      else some ([], .value tag attributes s (v ++ [c]))

/-- Reads characters from a place on: their tokens, and the place behind them. -/
def run (p : Place) : List Char → Option (List Token × Place)
  | [] => some ([], p)
  | c :: r => (step p c).bind fun x => (run x.2 r).map fun y => (x.1 ++ y.1, y.2)

/-! ## Trees of tokens -/

/-- Puts a token in front of parts of a page. With them the end tags are given that have no start
tag yet, each with the parts behind it. -/
def put (t : Token) (behind : List Markup × List (String × List Markup)) :
    Option (List Markup × List (String × List Markup)) :=
  match t, behind with
  | .char c, (parts, ends) => some (.text [c] :: parts, ends)
  | .stop tag, (parts, ends) => some ([], (tag, parts) :: ends)
  | .start tag attributes, (parts, ends) =>
      if tag ∈ voidTags then some (.void tag attributes :: parts, ends)
      else
        match ends with
        | (tag', rest) :: ends =>
            if tag' = tag then some (.element tag attributes parts :: rest, ends) else none
        | [] => none

/-- Builds the parts of a page from their tokens, from the last one on. -/
def build : List Token → Option (List Markup × List (String × List Markup))
  | [] => some ([], [])
  | t :: r => (build r).bind (put t)

/-- The parts of a text that ends outside of all tags and elements. -/
def read (s : List Char) : Option (List Markup) :=
  match run .text s with
  | some (tokens, .text) =>
      match build tokens with
      | some (parts, []) => some parts
      | _ => none
  | _ => none

/-- The parts of a page behind the document type. -/
def readPage (page : List Char) : Option (List Markup) :=
  (doctype.isPrefixOf? page).bind read

/-! ## The tokens of trees -/

mutual

/-- The tokens of a part of a page. -/
def tokens : Markup → List Token
  | text s => s.map .char
  | element tag attributes body => .start tag attributes :: allTokens body ++ [.stop tag]
  | void tag attributes => [.start tag attributes]

/-- The tokens of parts of a page. -/
def allTokens : List Markup → List Token
  | [] => []
  | m :: r => m.tokens ++ allTokens r

end

mutual

/-- The part of a page with its texts taken apart into characters. -/
def atoms : Markup → List Markup
  | text s => s.map fun c => .text [c]
  | element tag attributes body => [.element tag attributes (allAtoms body)]
  | void tag attributes => [.void tag attributes]

/-- Parts of a page with their texts taken apart into characters. -/
def allAtoms : List Markup → List Markup
  | [] => []
  | m :: r => m.atoms ++ allAtoms r

end

/-! ## Reading characters -/

variable {p q z : Place} {s t : List Char} {ts us : List Token}

theorem run_cons {c : Char} (hstep : step p c = some (ts, q)) (h : run q s = some (us, z)) :
    run p (c :: s) = some (ts ++ us, z) := by
  rw [run, hstep, Option.bind_some, h, Option.map_some]

theorem run_append (h : run p s = some (ts, q)) (h' : run q t = some (us, z)) :
    run p (s ++ t) = some (ts ++ us, z) := by
  induction s generalizing p ts with
  | nil =>
    obtain ⟨rfl, rfl⟩ := Prod.mk.inj (Option.some.inj h)
    exact h'
  | cons c s ih =>
    rw [run] at h
    obtain ⟨⟨first, p'⟩, hstep, h⟩ := Option.bind_eq_some_iff.1 h
    obtain ⟨⟨more, q'⟩, hmore, h⟩ := Option.map_eq_some_iff.1 h
    obtain ⟨rfl, rfl⟩ := Prod.mk.inj h
    rw [List.cons_append, List.append_assoc]
    exact run_cons hstep (ih hmore)

theorem run_text (h : '<' ∉ s) : run .text s = some (s.map .char, .text) := by
  induction s with
  | nil => rfl
  | cons c s ih =>
    rw [List.mem_cons, not_or] at h
    have hstep : step .text c = some ([.char c], .text) := if_neg (Ne.symm h.1)
    exact run_cons hstep (ih h.2)

theorem run_tag (name : List Char) (hend : '>' ∉ s) (hspace : ' ' ∉ s) :
    run (.tag name) s = some ([], .tag (name ++ s)) := by
  induction s generalizing name with
  | nil => rw [List.append_nil, run]
  | cons c s ih =>
    rw [List.mem_cons, not_or] at hend hspace
    have hstep : step (.tag name) c = some ([], .tag (name ++ [c])) := by
      rw [step, if_neg (Ne.symm hend.1), if_neg (Ne.symm hspace.1)]
    have hrest := ih (name ++ [c]) hend.2 hspace.2
    rw [List.append_assoc, List.singleton_append] at hrest
    exact run_cons hstep hrest

variable (tag : String) (attributes : List (String × List Char))

theorem run_name (name : List Char) (h : '=' ∉ s) :
    run (.name tag attributes name) s = some ([], .name tag attributes (name ++ s)) := by
  induction s generalizing name with
  | nil => rw [List.append_nil, run]
  | cons c s ih =>
    rw [List.mem_cons, not_or] at h
    have hrest := ih (name ++ [c]) h.2
    rw [List.append_assoc, List.singleton_append] at hrest
    have hstep : step (.name tag attributes name) c =
        some ([], .name tag attributes (name ++ [c])) := if_neg (Ne.symm h.1)
    exact run_cons hstep hrest

theorem run_value (name : String) (v : List Char) (h : '"' ∉ s) :
    run (.value tag attributes name v) s = some ([], .value tag attributes name (v ++ s)) := by
  induction s generalizing v with
  | nil => rw [List.append_nil, run]
  | cons c s ih =>
    rw [List.mem_cons, not_or] at h
    have hrest := ih (v ++ [c]) h.2
    rw [List.append_assoc, List.singleton_append] at hrest
    have hstep : step (.value tag attributes name v) c =
        some ([], .value tag attributes name (v ++ [c])) := if_neg (Ne.symm h.1)
    exact run_cons hstep hrest

/-! ## Reading tags -/

theorem Escaped.not_quote (h : Escaped s) : '"' ∉ s := by
  have hentity : ∀ e ∈ entities, '"' ∉ e.toList := by decide
  induction h with
  | nil => exact List.not_mem_nil
  | char hd _ ih =>
    rw [List.mem_cons, not_or]
    refine ⟨?_, ih⟩
    rintro rfl
    exact hd (by decide)
  | entity he _ ih =>
    rw [List.mem_append, not_or]
    exact ⟨hentity _ he, ih⟩

/-- The characters that end a name are none of a tag. -/
theorem ends_not_mem_tag {tag : String} (h : IsBodyTag tag ∨ tag ∈ voidTags) :
    '>' ∉ tag.toList ∧ ' ' ∉ tag.toList ∧ '/' ∉ tag.toList := by
  have hbody : ∀ tag ∈ bodyTags, '>' ∉ tag.toList ∧ ' ' ∉ tag.toList ∧ '/' ∉ tag.toList := by
    decide
  have hvoid : ∀ tag ∈ voidTags, '>' ∉ tag.toList ∧ ' ' ∉ tag.toList ∧ '/' ∉ tag.toList := by
    decide
  rcases h with (h | ⟨level, -, rfl⟩) | h
  · exact hbody tag h
  · exact ⟨not_mem_headingTag rfl (by decide) level, not_mem_headingTag rfl (by decide) level,
      not_mem_headingTag rfl (by decide) level⟩
  · exact hvoid tag h

/-- The elements with a body are told from those without by their tags. -/
theorem not_mem_voidTags {tag : String} (h : IsBodyTag tag) : tag ∉ voidTags := by
  have hbody : ∀ tag ∈ bodyTags, tag ∉ voidTags := by decide
  have hvoid : ∀ tag ∈ voidTags, tag.toList.head? ≠ some 'h' := by decide
  rcases h with h | ⟨level, -, rfl⟩
  · exact hbody tag h
  · intro hmem
    exact hvoid _ hmem (by rw [headingTag, String.toList_ofList]; rfl)

variable {tag attributes}

theorem run_attributeText {a : String × List Char} (hname : a.1 ∈ attributeNames)
    (hvalue : Escaped a.2) :
    run (.behind tag attributes) (attributeText a) = some ([], .behind tag (attributes ++ [a])) := by
  have hequals : ∀ name ∈ attributeNames, '=' ∉ name.toList := by decide
  have hopen : run (.behind tag attributes) (openAttribute a.1) =
      some ([], .value tag attributes a.1 []) := by
    have hquote : run (.name tag attributes ([] ++ a.1.toList)) ['=', '"'] =
        some ([], .value tag attributes a.1 []) := by
      simp [run, step, String.ofList_toList]
    have h := run_append (run_name tag attributes [] (hequals a.1 hname)) hquote
    have hstep : step (.behind tag attributes) ' ' = some ([], .name tag attributes []) := rfl
    exact run_cons hstep h
  have hclose : run (.value tag attributes a.1 a.2) ['"'] =
      some ([], .behind tag (attributes ++ [a])) := rfl
  rw [attributeText]
  exact run_append (run_append hopen (run_value tag attributes a.1 [] hvalue.not_quote)) hclose

theorem run_attributes (attributes : List (String × List Char)) {more : List (String × List Char)}
    (h : ProperAttributes more) :
    run (.behind tag attributes) (more.flatMap attributeText) =
      some ([], .behind tag (attributes ++ more)) := by
  induction more generalizing attributes with
  | nil => rw [List.append_nil, List.flatMap_nil, run]
  | cons a r ih =>
    obtain ⟨⟨hname, hvalue⟩, hr⟩ := List.forall_mem_cons.1 h
    have hrest := ih (attributes ++ [a]) hr
    rw [List.append_assoc, List.singleton_append] at hrest
    rw [List.flatMap_cons]
    exact run_append (run_attributeText hname hvalue) hrest

/-- Behind the name of a tag its attributes are read as behind an attribute. -/
theorem run_tag_space (name : List Char) :
    run (.tag name) (' ' :: s) = run (.behind (String.ofList name) []) (' ' :: s) := rfl

theorem run_startTag (htag : IsBodyTag tag ∨ tag ∈ voidTags) (h : ProperAttributes attributes) :
    run .text (startTag tag attributes) = some ([.start tag attributes], .text) := by
  obtain ⟨hend, hspace, hslash⟩ := ends_not_mem_tag htag
  have hless : step .text '<' = some ([], .tag []) := rfl
  have hopen : run .text (openTag tag) = some ([], .tag tag.toList) :=
    run_cons hless (run_tag [] hend hspace)
  have hrest : run (.tag tag.toList) (attributes.flatMap attributeText ++ ['>']) =
      some ([.start tag attributes], .text) := by
    cases attributes with
    | nil =>
      have htoken : tagToken tag.toList = .start tag [] := by
        rw [tagToken, String.ofList_toList]
        intro t ht
        exact hslash (ht ▸ List.mem_cons_self ..)
      rw [← htoken]
      rfl
    | cons a r =>
      have hend : run (.behind tag (a :: r)) ['>'] = some ([.start tag (a :: r)], .text) := rfl
      have hbehind := run_append (run_attributes [] h) hend
      obtain ⟨t, ht⟩ : ∃ t, (a :: r).flatMap attributeText ++ ['>'] = ' ' :: t := ⟨_, rfl⟩
      rw [ht] at hbehind ⊢
      rw [run_tag_space, String.ofList_toList]
      exact hbehind
  rw [startTag, List.append_assoc]
  exact run_append hopen hrest

theorem run_endTag (htag : IsBodyTag tag) :
    run .text (endTag tag) = some ([.stop tag], .text) := by
  obtain ⟨hend, hspace, -⟩ := ends_not_mem_tag (Or.inl htag)
  have hstop : run (.tag (['/'] ++ tag.toList)) ['>'] = some ([.stop tag], .text) := by
    simp [run, step, tagToken, String.ofList_toList]
  have hname := run_append (run_tag ['/'] hend hspace) hstop
  have hless : step .text '<' = some ([], .tag []) := rfl
  have hslash : step (.tag []) '/' = some ([], .tag ['/']) := rfl
  exact run_cons hless (run_cons hslash hname)

/-! ## Reading trees -/

mutual

theorem run_print : ∀ {m : Markup}, m.Proper → run .text m.print = some (m.tokens, .text)
  | .text _, h => run_text h.not_lt
  | .element _ _ _, ⟨htag, hattributes, hbody⟩ =>
    run_append (run_append (run_startTag (Or.inl htag) hattributes) (run_printAll hbody))
      (run_endTag htag)
  | .void _ _, ⟨htag, hattributes⟩ => run_startTag (Or.inr htag) hattributes

theorem run_printAll : ∀ {l : List Markup}, AllProper l →
    run .text (printAll l) = some (allTokens l, .text)
  | [], _ => rfl
  | _ :: _, ⟨hm, hr⟩ => run_append (run_print hm) (run_printAll hr)

end

theorem build_chars (s : List Char) (r : List Token) :
    build (s.map .char ++ r) = (build r).map fun x => (s.map (fun c => .text [c]) ++ x.1, x.2) := by
  induction s with
  | nil => simp
  | cons c s ih =>
    rw [List.map_cons, List.cons_append, build, ih]
    cases build r <;> rfl

mutual

/-- A proper part of a page is built from its tokens. -/
theorem build_tokens : ∀ {m : Markup}, m.Proper → ∀ r : List Token,
    build (m.tokens ++ r) = (build r).map fun x => (m.atoms ++ x.1, x.2)
  | .text s, _, r => build_chars s r
  | .element tag attributes body, ⟨htag, _, hbody⟩, r => by
    have hstop : build (.stop tag :: r) = (build r).map fun x => ([], (tag, x.1) :: x.2) := by
      rw [build]
      cases build r <;> rfl
    rw [tokens, List.cons_append, List.cons_append, List.append_assoc, List.singleton_append,
      build, build_allTokens hbody, hstop]
    cases build r with
    | none => rfl
    | some x => simp [put, not_mem_voidTags htag, atoms]
  | .void tag attributes, ⟨htag, _⟩, r => by
    rw [tokens, List.singleton_append, build]
    cases build r with
    | none => rfl
    | some x => simp [put, htag, atoms]

theorem build_allTokens : ∀ {l : List Markup}, AllProper l → ∀ r : List Token,
    build (allTokens l ++ r) = (build r).map fun x => (allAtoms l ++ x.1, x.2)
  | [], _, r => by simp [allTokens, allAtoms]
  | m :: l, ⟨hm, hl⟩, r => by
    rw [allTokens, List.append_assoc, build_tokens hm, build_allTokens hl, Option.map_map, allAtoms]
    simp [Function.comp_def]

end

/-- What is printed from proper trees is read as these trees, with their texts taken apart. -/
theorem read_printAll {l : List Markup} (h : AllProper l) :
    read (printAll l) = some (allAtoms l) := by
  have hbuild : build (allTokens l) = some (allAtoms l, []) := by
    have := build_allTokens h []
    rw [List.append_nil] at this
    rw [this, build, Option.map_some, List.append_nil]
  rw [read, run_printAll h]
  simp only [hbuild]

theorem readPage_printAll {l : List Markup} (h : AllProper l) :
    readPage (doctype ++ printAll l) = some (allAtoms l) := by
  rw [readPage, Source.isPrefixOf?_append, Option.bind_some, read_printAll h]

end Markup

end Lectern
