import Lectern.Proofs.Page.Identified
import Lectern.Proofs.Page.Programs

/-!
# The blocks of a page

What a reader of a page sees in parts of it: headings, paragraphs, lists, excerpts and so on, each
with what it shows. Nothing is passed over: what is no block of a known kind is told as well. The
elements of a document without markup of its author's are read again as the blocks of their contents
(`allBlocks_allTrees`).
-/

namespace Lectern

open Text Markup
open Template (Value)

/-! ## Blocks -/

/-- A listing: is it hidden, what does it show, and which pieces with which numbers is it made
of? -/
structure Listing where
  hidden : Bool
  shown : List Char
  labels : List (Option (List Char) × List Char)
deriving DecidableEq, Repr

/-- A block of a page. Where a text is styled, a block has the markup of it. -/
inductive Block where
  /-- A character between the blocks that is not white space. -/
  | stray (c : Char)
  | heading (tag : String) (id : Option (List Char)) (title : List Char)
  | paragraph (styled : List Char)
  | list (items : List (List Char))
  | code (listings : List Listing)
  | image (urls : List (Option (List Char)))
  | iframe (url : Option (List Char))
  | link (targets : List (Option (List Char) × List Char))
  | caption (styled : List Char)
  | notes (items : List (List Char))
  | pageNumber (shown : List Char)
  | date (shown : List Char)
  | contents
  /-- Something else. -/
  | other (tag : String)
deriving DecidableEq, Repr

/-! ## Reading blocks -/

namespace Markup

/-- The tag of an element. -/
def tag : Markup → String
  | element tag _ _ | void tag _ => tag
  | text _ => ""

/-- Is it white space? -/
def isSpace : Markup → Bool
  | text s => s.all Char.isWhitespace
  | element _ _ _ | void _ _ => false

/-- Are all the parts elements with the tag, white space apart? -/
def holdsOnly (tag : String) (parts : List Markup) : Bool :=
  parts.all fun m => m.hasTag tag || m.isSpace

/-- The elements with the tag that are among the parts themselves. -/
def tagged (tag : String) (parts : List Markup) : List Markup := parts.filter (·.hasTag tag)

/-- The markup in an element. -/
def content (m : Markup) : List Char := printAll m.body

/-- Is the class among those of the element? -/
def hasClass (c : String) (m : Markup) : Bool :=
  (m.attribute? "class").any fun v => decide (c.toList ∈ v.splitOn ' ')

/-- Is it a box of the class for elements with a tag? -/
def isBox (tag c held : String) (m : Markup) : Bool :=
  m.hasTag tag && m.hasClass c && holdsOnly held m.body

/-- The pieces of a listing: what stands as their numbers, and what they show. -/
def labels (parts : List Markup) : List (Option (List Char) × List Char) :=
  ((allElements parts).filter (·.hasTag "span")).map fun m => (m.attribute? "num", m.shown)

/-- The listing in an element. -/
def listing (m : Markup) : Listing where
  hidden := m.hasAttribute "style" "display: none".toList
  shown := m.shown
  labels := Markup.labels m.body

/-- The block that an element is. -/
def block (m : Markup) : Block :=
  if m.isHeading then .heading m.tag (m.attribute? "id") m.shown
  else if m.isBox "p" "link" "a" then
    .link ((tagged "a" m.body).map fun a => (a.attribute? "href", a.content))
  else if m.hasTag "p" && m.hasClass "date" then .date m.shown
  else if m.hasTag "p" then .paragraph m.content
  else if m.hasTag "ul" && holdsOnly "li" m.body then .list ((tagged "li" m.body).map content)
  else if m.isBox "div" "code" "pre" then .code ((tagged "pre" m.body).map listing)
  else if m.isBox "div" "image" "img" then .image ((tagged "img" m.body).map (attribute? "src"))
  else if m.hasTag "iframe" then .iframe (m.attribute? "src")
  else if m.hasTag "figcaption" then .caption m.content
  else if m.isBox "aside" "notes" "p" then .notes ((tagged "p" m.body).map content)
  else if m.hasTag "span" && m.hasClass "pagenumber" then .pageNumber m.shown
  else if m.hasTag "div" && m.hasAttribute "id" "toc".toList then .contents
  else .other m.tag

/-- The blocks that a part of a page is. -/
def blocks : Markup → List Block
  | text s => (s.filter fun c => !c.isWhitespace).map .stray
  | element tag attributes body => [block (.element tag attributes body)]
  | void tag attributes => [block (.void tag attributes)]

/-- The blocks that parts of a page are. -/
def allBlocks (parts : List Markup) : List Block := parts.flatMap blocks

variable {l r : List Markup}

@[simp] theorem allBlocks_nil : allBlocks [] = [] := rfl

@[simp] theorem allBlocks_cons (m : Markup) (r : List Markup) :
    allBlocks (m :: r) = m.blocks ++ allBlocks r := rfl

@[simp] theorem allBlocks_append (l r : List Markup) :
    allBlocks (l ++ r) = allBlocks l ++ allBlocks r := List.flatMap_append

@[simp] theorem holdsOnly_nil (tag : String) : holdsOnly tag [] = true := rfl

@[simp] theorem holdsOnly_cons (tag : String) (m : Markup) (r : List Markup) :
    holdsOnly tag (m :: r) = ((m.hasTag tag || m.isSpace) && holdsOnly tag r) := rfl

@[simp] theorem holdsOnly_append (tag : String) (l r : List Markup) :
    holdsOnly tag (l ++ r) = (holdsOnly tag l && holdsOnly tag r) := List.all_append

theorem holdsOnly_flatMap {α : Type} {tag : String} {f : α → List Markup} {l : List α}
    (h : ∀ a ∈ l, holdsOnly tag (f a) = true) : holdsOnly tag (l.flatMap f) = true := by
  rw [holdsOnly, List.all_flatMap]
  exact List.all_eq_true.2 h

@[simp] theorem tagged_nil (tag : String) : tagged tag [] = [] := rfl

@[simp] theorem tagged_cons (tag : String) (m : Markup) (r : List Markup) :
    tagged tag (m :: r) = if m.hasTag tag then m :: tagged tag r else tagged tag r :=
  List.filter_cons

@[simp] theorem tagged_append (tag : String) (l r : List Markup) :
    tagged tag (l ++ r) = tagged tag l ++ tagged tag r := List.filter_append ..

theorem tagged_flatMap {α : Type} (tag : String) (f : α → List Markup) (l : List α) :
    tagged tag (l.flatMap f) = l.flatMap fun a => tagged tag (f a) := List.filter_flatMap ..

/-! ## Blocks of trees that are cut into characters -/

theorem printAll_chars (s : List Char) : printAll (s.map fun c => text [c]) = s := by
  induction s with
  | nil => rfl
  | cons c s ih =>
    rw [List.map_cons, printAll_cons, ih]
    rfl

mutual

theorem printAll_atoms : ∀ m : Markup, printAll m.atoms = m.print
  | .text s => printAll_chars s
  | .element tag attributes body => by
    rw [atoms, printAll_cons, print, printAll_allAtoms body, print, printAll_nil, List.append_nil]
  | .void _ _ => List.append_nil _

/-- Trees are printed as they are, however their texts are cut. -/
theorem printAll_allAtoms : ∀ l : List Markup, printAll (allAtoms l) = printAll l
  | [] => rfl
  | m :: r => by
    rw [allAtoms, printAll_append, printAll_atoms m, printAll_allAtoms r, printAll_cons]

end

theorem tagged_allAtoms (tag : String) (l : List Markup) :
    tagged tag (allAtoms l) = (tagged tag l).map atomized := by
  have hatoms (m : Markup) : tagged tag m.atoms = (tagged tag [m]).map atomized := by
    cases m with
    | text s =>
      refine (List.filter_eq_nil_iff.2 fun a ha => ?_ : tagged tag (text s).atoms = [])
      obtain ⟨c, -, rfl⟩ := List.mem_map.1 ha
      exact Bool.false_ne_true
    | element t _ _ | void t _ => by_cases h : t = tag <;> simp [atoms, hasTag, atomized, h]
  induction l with
  | nil => rfl
  | cons m r ih => rw [allAtoms, tagged_append, hatoms, ih, ← List.map_append, ← tagged_append]; rfl

theorem holdsOnly_allAtoms (tag : String) (l : List Markup) :
    holdsOnly tag (allAtoms l) = holdsOnly tag l := by
  have hatoms (m : Markup) : holdsOnly tag m.atoms = (m.hasTag tag || m.isSpace) := by
    cases m with
    | text s => simp [holdsOnly, atoms, hasTag, isSpace, Function.comp_def]
    | element _ _ _ | void _ _ => exact Bool.and_true _
  induction l with
  | nil => rfl
  | cons m r ih => rw [allAtoms, holdsOnly_append, hatoms, ih, holdsOnly_cons]

@[simp] theorem tag_atomized (m : Markup) : m.atomized.tag = m.tag := by cases m <;> rfl

@[simp] theorem content_atomized (m : Markup) : m.atomized.content = m.content := by
  rw [content, body_atomized, printAll_allAtoms, content]

@[simp] theorem hasClass_atomized (c : String) (m : Markup) :
    m.atomized.hasClass c = m.hasClass c := by
  rw [hasClass, attribute?_atomized, hasClass]

@[simp] theorem isBox_atomized (tag c held : String) (m : Markup) :
    m.atomized.isBox tag c held = m.isBox tag c held := by
  rw [isBox, hasTag_atomized, hasClass_atomized, body_atomized, holdsOnly_allAtoms, isBox]

theorem labels_allAtoms (l : List Markup) : labels (allAtoms l) = labels l := by
  rw [labels, allElements_allAtoms, List.filter_map, List.map_map]
  simp [Function.comp_def, labels]

@[simp] theorem listing_atomized (m : Markup) : m.atomized.listing = m.listing := by
  rw [listing, listing, hasAttribute_atomized, shown_atomized, body_atomized, labels_allAtoms]

/-- The block that an element is does not depend on how its texts are cut. -/
theorem block_atomized (m : Markup) : m.atomized.block = m.block := by
  simp only [block, isHeading_atomized, tag_atomized, attribute?_atomized, shown_atomized,
    isBox_atomized, body_atomized, tagged_allAtoms, List.map_map, hasTag_atomized,
    hasClass_atomized, content_atomized, holdsOnly_allAtoms, hasAttribute_atomized,
    Function.comp_def, listing_atomized]

theorem allBlocks_atoms (m : Markup) : allBlocks m.atoms = m.blocks := by
  cases m with
  | text s =>
    rw [atoms, allBlocks, List.flatMap_map]
    induction s with
    | nil => rfl
    | cons c s ih =>
      rw [List.flatMap_cons, ih, blocks, blocks, ← List.map_append, ← List.filter_append]
      rfl
  | element tag attributes body =>
    exact congrArg (fun b => [b]) (block_atomized (.element tag attributes body))
  | void _ _ => rfl

/-- The blocks of a page do not depend on how its texts are cut. -/
theorem allBlocks_allAtoms (l : List Markup) : allBlocks (allAtoms l) = allBlocks l := by
  induction l with
  | nil => rfl
  | cons m r ih => rw [allAtoms, allBlocks_append, allBlocks_atoms, ih, allBlocks_cons]

/-! ## Blocks of single elements -/

@[simp] theorem hasTag_element (t tag : String) (attributes : List (String × List Char))
    (body : List Markup) : (element t attributes body).hasTag tag = decide (t = tag) := rfl

@[simp] theorem hasTag_void (t tag : String) (attributes : List (String × List Char)) :
    (void t attributes).hasTag tag = decide (t = tag) := rfl

@[simp] theorem hasTag_line (tag : String) (n : Nat) : (line n).hasTag tag = false := rfl

@[simp] theorem body_element (tag : String) (attributes : List (String × List Char))
    (body : List Markup) : (element tag attributes body).body = body := rfl

@[simp] theorem content_element (tag : String) (attributes : List (String × List Char))
    (body : List Markup) : (element tag attributes body).content = printAll body := rfl

theorem isWhitespace_newline (n : Nat) : (newline n).all Char.isWhitespace = true := by
  rw [newline, List.all_cons, List.all_replicate]
  exact ite_self _

@[simp] theorem isSpace_line (n : Nat) : (line n).isSpace = true := isWhitespace_newline n

@[simp] theorem isSpace_gap (n : Nat) : (gap n).isSpace = true := isWhitespace_newline n

theorem blocks_text {s : List Char} (h : s.all Char.isWhitespace = true) :
    (text s).blocks = [] := by
  rw [blocks, List.map_eq_nil_iff, List.filter_eq_nil_iff]
  intro c hc
  simp [List.all_eq_true.1 h c hc]

@[simp] theorem blocks_line (n : Nat) : (line n).blocks = [] :=
  blocks_text (isWhitespace_newline n)

@[simp] theorem blocks_gap (n : Nat) : (gap n).blocks = [] := blocks_text (isWhitespace_newline n)

variable {attributes : List (String × List Char)} {body : List Markup}

theorem block_heading (level : Nat) (attributes : List (String × List Char)) (body : List Markup) :
    (element (headingTag level) attributes body).block =
      .heading (headingTag level) ((attributes.lookup "id").map decode)
        (decode (allSource body)) := if_pos (isHeading_headingTag ..)

theorem block_paragraph (body : List Markup) :
    (element "p" [] body).block = .paragraph (printAll body) := rfl

theorem block_list (h : holdsOnly "li" body = true) :
    (element "ul" [] body).block = .list ((tagged "li" body).map content) := by
  simp [block, isHeading, isBox, h]

theorem block_code (hclass : (element "div" attributes body).hasClass "code" = true)
    (h : holdsOnly "pre" body = true) :
    (element "div" attributes body).block = .code ((tagged "pre" body).map listing) := by
  simp [block, isHeading, isBox, hclass, h]

theorem block_image (h : holdsOnly "img" body = true) :
    (element "div" [fixed "class" "image"] body).block =
      .image ((tagged "img" body).map (attribute? "src")) := by
  have hcode : (element "div" [fixed "class" "image"] body).hasClass "code" = false := rfl
  have hclass : (element "div" [fixed "class" "image"] body).hasClass "image" = true := rfl
  simp [block, isHeading, isBox, hcode, hclass, h]

theorem block_iframe (attributes : List (String × List Char)) :
    (element "iframe" attributes body).block =
      .iframe ((element "iframe" attributes body).attribute? "src") := by
  simp [block, isHeading, isBox]

theorem block_link (h : holdsOnly "a" body = true) :
    (element "p" [fixed "class" "link"] body).block =
      .link ((tagged "a" body).map fun a => (a.attribute? "href", a.content)) := by
  have hclass : (element "p" [fixed "class" "link"] body).hasClass "link" = true := rfl
  simp [block, isHeading, isBox, hclass, h]

theorem block_caption (body : List Markup) :
    (element "figcaption" [] body).block = .caption (printAll body) := by
  simp [block, isHeading, isBox]

theorem block_notes (h : holdsOnly "p" body = true) :
    (element "aside" [fixed "class" "notes"] body).block =
      .notes ((tagged "p" body).map content) := by
  have hclass : (element "aside" [fixed "class" "notes"] body).hasClass "notes" = true := rfl
  simp [block, isHeading, isBox, hclass, h]

theorem block_pageNumber (body : List Markup) :
    (element "span" [fixed "class" "pagenumber"] body).block =
      .pageNumber (decode (allSource body)) := by
  have hclass : (element "span" [fixed "class" "pagenumber"] body).hasClass "pagenumber" = true :=
    rfl
  simp [block, isHeading, isBox, hclass, shown]

theorem block_date (body : List Markup) :
    (element "p" [fixed "class" "date"] body).block = .date (decode (allSource body)) := by
  have hlink : (element "p" [fixed "class" "date"] body).hasClass "link" = false := rfl
  have hclass : (element "p" [fixed "class" "date"] body).hasClass "date" = true := rfl
  simp [block, isHeading, isBox, hlink, hclass, shown]

theorem block_contents (body : List Markup) :
    (element "div" [fixed "id" "toc"] body).block = .contents := rfl

end Markup

/-! ## The blocks of elements -/

/-- The listing of a part of a program that is not shown. -/
def hiddenListing (s : String) : List Listing :=
  if s.toList.isEmpty then [] else [⟨true, s.toList, [(none, s.toList)]⟩]

/-- The listings of an excerpt: its lines with their numbers, between those of what is hidden. -/
def Code.listings (c : Code) : List Listing :=
  hiddenListing c.before ++
    [⟨false, unlines (c.lines.map (·.text.toList)),
      c.lines.map fun l => (some (Nat.toDigits 10 l.number), l.text.toList)⟩] ++
    hiddenListing c.after

mutual

/-- The blocks that show an element. -/
def Element.blocks : Element → List Block
  | .sub ⟨number, title, elems, _, _, _⟩ =>
      .heading (headingTag (number.length + 1)) (some (place number)) title.toList ::
        Element.allBlocks elems
  | .text lines true =>
      [.code [⟨false, Value.joined "\n".toList (lines.map Value.ofString), []⟩]]
  | .text lines false =>
      [.paragraph ((lines.flatMap fun l => "\n  ".toList ++ styleChars l.toList) ++ "\n".toList)]
  | .list bullets => [.list (bullets.map fun b => styleChars b.toList)]
  | .code c => [.code c.listings]
  | .image url _ _ => [.image [some url.toList]]
  | .iframe url _ _ => [.iframe (some url.toList)]
  | .link url label => [.link [(some url.toList, styleChars label.toList)]]
  | .caption s => [.caption (styleChars s.toList)]
  | .html _ => []

/-- The blocks that show elements. -/
def Element.allBlocks : List Element → List Block
  | [] => []
  | e :: r => e.blocks ++ Element.allBlocks r

end

theorem allBlocks_line (n : Nat) (tag : String) (attributes : List (String × List Char))
    (body : List Markup) :
    Markup.allBlocks [line n, .element tag attributes body] =
      [(Markup.element tag attributes body).block] := by
  rw [allBlocks_cons, blocks_line]
  rfl

/-- A text without entities shows as it is. -/
theorem decode_eq_self {s : List Char} (h : '&' ∉ s) : decode s = s := by
  induction s with
  | nil => rfl
  | cons c s ih =>
    obtain ⟨hc, hs⟩ := not_or.1 (mt List.mem_cons.2 h)
    show decodeBehind 0 (c :: s) = c :: s
    rw [decodeBehind, reference?_eq_none (Ne.symm hc)]
    exact congrArg (c :: ·) (ih hs)

theorem decode_toDigits (n : Nat) : decode (Nat.toDigits 10 n) = Nat.toDigits 10 n :=
  decode_eq_self fun h => absurd (Nat.isDigit_of_mem_toDigits (by decide) (by decide) h) (by decide)

theorem labels_span (attributes : List (String × List Char)) (s : String) (r : List Markup) :
    labels (.element "span" attributes [value s] :: r) =
      ((attributes.lookup "num").map decode, s.toList) :: labels r := by
  have hshown : (Markup.element "span" attributes [value s]).shown = s.toList := shown_value ..
  have hvalue : allElements [value s] = [] := rfl
  rw [labels, allElements_cons, elements_element, hvalue, List.cons_append,
    List.filter_cons_of_pos rfl, List.map_cons, hshown]
  rfl

theorem labels_linesTrees (lines : List CodeLine) :
    labels (linesTrees lines) =
      lines.map fun l => (some (Nat.toDigits 10 l.number), l.text.toList) := by
  induction lines with
  | nil => rfl
  | cons l r ih =>
    have hline : labels (line 0 :: linesTrees r) = labels (linesTrees r) := rfl
    rw [linesTrees, List.flatMap_cons, List.cons_append, labels_span, List.singleton_append,
      ← linesTrees, hline, ih, List.map_cons, List.lookup_cons_self, Option.map_some,
      decode_toDigits]

theorem listing_hiddenPart (s : String) :
    (tagged "pre" (hiddenPart s)).map listing = hiddenListing s := by
  rw [hiddenPart, hiddenListing]
  split_ifs
  · rfl
  · have hhidden : (Markup.element "pre" [fixed "style" "display: none"]
        [.element "span" [] [value s]]).hasAttribute "style" "display: none".toList = true := rfl
    have hlisting : (Markup.element "pre" [fixed "style" "display: none"]
        [.element "span" [] [value s]]).listing = ⟨true, s.toList, [(none, s.toList)]⟩ := by
      rw [listing, hhidden, shown_pre_value, body_element, labels_span]
      rfl
    simp [hlisting]

theorem listing_lines {attributes : List (String × List Char)}
    (h : attributes.lookup "style" = none) (lines : List CodeLine) :
    (Markup.element "pre" attributes (linesTrees lines)).listing =
      ⟨false, unlines (lines.map (·.text.toList)),
        lines.map fun l => (some (Nat.toDigits 10 l.number), l.text.toList)⟩ := by
  have hhidden : (Markup.element "pre" attributes (linesTrees lines)).hasAttribute "style"
      "display: none".toList = false := by
    simp [hasAttribute, attribute?, h]
  have hshown : (Markup.element "pre" attributes (linesTrees lines)).shown =
      unlines (lines.map (·.text.toList)) := by
    rw [shown, body_element, allSource_linesTrees, decode_escapeStrict]
  rw [listing, hhidden, hshown, body_element, labels_linesTrees]

theorem holdsOnly_hiddenPart (s : String) : holdsOnly "pre" (hiddenPart s) = true := by
  rw [hiddenPart]
  split_ifs <;> rfl

/-- An excerpt is read as its listings. -/
theorem allBlocks_codeTrees (play : Bool) (c : Code) :
    Markup.allBlocks (c.trees play) = [.code c.listings] := by
  obtain ⟨attributes, numbers, htrees, hclass, hnumbers⟩ : ∃ attributes numbers, c.trees play =
      [line 0, .element "div" attributes (hiddenPart c.before ++
        [.element "pre" numbers (linesTrees c.lines)] ++ hiddenPart c.after)] ∧
      (∀ body, (Markup.element "div" attributes body).hasClass "code" = true) ∧
      numbers.lookup "style" = none := by
    refine ⟨_, _, rfl, fun body => ?_, ?_⟩
    · cases c.playableWhen play <;> rfl
    · cases c.numbers <;> rfl
  rw [htrees, allBlocks_line, block_code (hclass _) (by simp [holdsOnly_hiddenPart])]
  simp [listing_hiddenPart, listing_lines hnumbers, Code.listings]

theorem decode_allSource_value (s : String) : decode (allSource [value s]) = s.toList :=
  shown_value "" [] s

theorem decode_id_anchor (number : List Nat) :
    ([("id", anchor number)].lookup "id").map decode = some (place number) :=
  congrArg some (decode_anchor number)

/-- Styled strings that stand in elements with a tag, each on a line of its own, are these elements
and nothing else. -/
theorem tagged_styled (tag : String) (indent outdent : Nat) (ss : List String) :
    holdsOnly tag ((ss.flatMap fun s => [line indent, .element tag [] (styled s)]) ++
        [line outdent]) = true ∧
      (tagged tag ((ss.flatMap fun s => [line indent, .element tag [] (styled s)]) ++
        [line outdent])).map content = ss.map fun s => styleChars s.toList := by
  constructor
  · rw [holdsOnly_append, holdsOnly_flatMap fun s _ => by simp]
    simp
  · have hitem (s : String) : (tagged tag [line indent, .element tag [] (styled s)]).map content =
        [styleChars s.toList] := by
      simp [printAll_styled]
    have hend : (tagged tag [line outdent]).map content = [] := by simp
    rw [tagged_append, tagged_flatMap, List.map_append, List.map_flatMap, hend, List.append_nil]
    simp only [hitem, ← List.map_eq_flatMap]

mutual

/-- What a page shows for an element is read as the blocks of the element. -/
theorem Element.allBlocks_trees (play : Bool) :
    ∀ e : Element, e.NoHtml → Markup.allBlocks (e.trees play) = e.blocks
  | .sub ⟨number, title, elems, _, _, _⟩, h => by
    rw [Element.trees, allBlocks_append, allBlocks_line, block_heading, decode_id_anchor,
      decode_allSource_value, Element.allBlocks_allTrees play elems h, Element.blocks]
    rfl
  | .text lines true, _ => by
    have hlisting : (Markup.element "pre" [] [.text (joined "\n" lines)]).listing =
        ⟨false, Value.joined "\n".toList (lines.map Value.ofString), []⟩ := by
      have hshown : decode (allSource [.text (joined "\n" lines)]) =
          Value.joined "\n".toList (lines.map Value.ofString) := by
        rw [allSource_cons, allSource_nil, List.append_nil, source, joined, decode_escapeStrict]
      rw [listing, shown, body_element, hshown]
      rfl
    rw [Element.trees, allBlocks_line, block_code rfl (by simp), tagged_cons, if_pos (by simp),
      tagged_nil, List.map_singleton, hlisting, Element.blocks]
  | .text lines false, _ => by
    have hlines : printAll (lines.flatMap fun l => line 2 :: styled l) =
        lines.flatMap fun l => "\n  ".toList ++ styleChars l.toList := by
      rw [printAll_flatMap]
      simp only [printAll_cons, printAll_styled]
      rfl
    rw [Element.trees, allBlocks_line, block_paragraph, printAll_append, hlines]
    rfl
  | .list bullets, _ => by
    obtain ⟨hholds, hitems⟩ := tagged_styled "li" 2 0 bullets
    rw [Element.trees, allBlocks_line, block_list hholds, hitems, Element.blocks]
  | .code c, _ => allBlocks_codeTrees play c
  | .image url width height, _ => by
    rw [Element.trees, allBlocks_line, block_image (by simp)]
    simp [attribute?, decode_escapeStrict, Element.blocks]
  | .iframe url width height, _ => by
    rw [Element.trees, allBlocks_line, block_iframe]
    simp [attribute?, decode_escapeStrict, Element.blocks]
  | .link url label, _ => by
    rw [Element.trees, allBlocks_line, block_link (by simp)]
    simp [attribute?, decode_escapeStrict, Element.blocks, printAll_styled]
  | .caption s, _ => by
    rw [Element.trees, allBlocks_line, block_caption, printAll_styled, Element.blocks]
  | .html _, h => h.elim

/-- What a page shows for elements is read as the blocks of the elements, in their order. -/
theorem Element.allBlocks_allTrees (play : Bool) :
    ∀ elems : List Element, Element.AllNoHtml elems →
      Markup.allBlocks (Element.allTrees play elems) = Element.allBlocks elems
  | [], _ => rfl
  | e :: r, h => by
    rw [Element.allTrees, allBlocks_append, Element.allBlocks_trees play e h.1,
      Element.allBlocks_allTrees play r h.2, Element.allBlocks]

end

end Lectern
