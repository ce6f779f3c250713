import Mathlib.Tactic
import Lectern.Document.Stored
import Lectern.Proofs.Calendar

/-!
# Documents are read back from their stored form

`Document.Fits` says of a document that its numbers can be stored. Just these documents are read
back from their stored form, and every document that is read from a JSON value is one of them
(`stored_faithfully`).
-/

namespace Lectern

open Json (str arr obj ofStrings ofOption)

/-! ## Documents that can be stored -/

/-- An excerpt whose line numbers can be stored. -/
def Code.Fits (c : Code) : Prop := ∀ l ∈ c.lines, l.number < numberBound

/-- A width or height that can be stored, if there is one. -/
def SizeFits (size : Option Nat) : Prop := ∀ n ∈ size, n < sizeBound

mutual

/-- An element whose numbers can be stored. -/
def Element.Fits : Element → Prop
  | .sub ⟨number, _, elems, _, _, _⟩ => (∀ n ∈ number, n < numberBound) ∧ Element.AllFit elems
  | .code c => c.Fits
  | .image _ width height | .iframe _ width height => SizeFits width ∧ SizeFits height
  | .text _ _ | .list _ | .link _ _ | .caption _ | .html _ => True

/-- Elements whose numbers can be stored. -/
def Element.AllFit : List Element → Prop
  | [] => True
  | e :: r => e.Fits ∧ Element.AllFit r

end

/-- A section whose numbers can be stored. -/
def Section.Fits (s : Section) : Prop := (∀ n ∈ s.number, n < numberBound) ∧ Element.AllFit s.elems

@[simp] theorem Element.fits_sub {s : Section} : (sub s).Fits ↔ s.Fits := by
  cases s
  exact Iff.rfl

/-- A document whose numbers can be stored. -/
structure Document.Fits (d : Document) : Prop where
  authors : ∀ a ∈ d.authors, Element.AllFit a.elems
  sections : ∀ s ∈ d.sections, s.Fits

theorem allFit_iff {elems : List Element} : Element.AllFit elems ↔ ∀ e ∈ elems, e.Fits := by
  induction elems with
  | nil => simp [Element.AllFit]
  | cons e r ih => rw [Element.AllFit, ih, List.forall_mem_cons]

/-! ## Fields -/

namespace Json

@[simp] theorem field?_obj_nil (key : String) : (obj []).field? key = none := rfl

@[simp] theorem field?_obj_cons (name : String) (j : Json) (fields : List (String × Json))
    (key : String) :
    (obj ((name, j) :: fields)).field? key =
      if key = name then some j else (obj fields).field? key := by
  by_cases h : key = name
  · rw [if_pos h, field?, List.lookup_cons, beq_iff_eq.2 h]
  · rw [if_neg h, field?, List.lookup_cons, beq_eq_false_iff_ne.2 h]
    rfl

/-- The kind of an element is what its stored form says. -/
@[simp] theorem stringAt?_ofKind_kind (kind : String) (fields : List (String × Json)) :
    (ofKind kind fields).stringAt? "kind" = some kind := by
  simp [ofKind, stringAt?, string?]

/-- The kind stands in front of the other fields and hides none of them. -/
theorem field?_ofKind {kind : String} {fields : List (String × Json)} {key : String}
    (h : key ≠ "kind") : (ofKind kind fields).field? key = (obj fields).field? key := by
  rw [ofKind, field?_obj_cons, if_neg h]

/-- What is written item by item is read back item by item. -/
theorem mapM_map_eq_some {α β : Type} {write : α → β} {read : β → Option α} {l : List α}
    (h : ∀ a ∈ l, read (write a) = some a) : (l.map write).mapM read = some l := by
  induction l with
  | nil => rfl
  | cons a l ih =>
    rw [List.map_cons, List.mapM_cons, h a (List.mem_cons_self ..),
      ih fun b hb => h b (List.mem_cons_of_mem a hb)]
    rfl

/-- All that is read item by item is read from some item. -/
theorem exists_of_mem_mapM {α β : Type} {read : α → Option β} {l : List α} {r : List β}
    (h : l.mapM read = some r) : ∀ b ∈ r, ∃ a ∈ l, read a = some b := by
  induction l generalizing r with
  | nil =>
    obtain rfl : [] = r := Option.some.inj h
    simp
  | cons a l ih =>
    rw [List.mapM_cons] at h
    obtain ⟨b, hb, h⟩ := Option.bind_eq_some_iff.1 h
    obtain ⟨s, hs, h⟩ := Option.bind_eq_some_iff.1 h
    obtain rfl := Option.some.inj h
    intro c hc
    rcases List.mem_cons.1 hc with rfl | hc
    · exact ⟨a, List.mem_cons_self .., hb⟩
    · obtain ⟨a', ha', hread⟩ := ih hs c hc
      exact ⟨a', List.mem_cons_of_mem a ha', hread⟩

/-! ## Values -/

@[simp] theorem string?_str (s : String) : (str s).string? = some s := rfl

@[simp] theorem bool?_bool (b : Bool) : (Json.bool b).bool? = some b := rfl

@[simp] theorem items?_arr (items : List Json) : (arr items).items? = some items := rfl

@[simp] theorem strings?_ofStrings (ss : List String) : (ofStrings ss).strings? = some ss :=
  mapM_map_eq_some fun _ _ => rfl

theorem natBelow?_ofNat {bound n : Nat} (h : n < bound) :
    natBelow? bound (Json.ofNat n) = some n := if_pos h

theorem natBelow?_eq_some {bound n : Nat} {j : Json} (h : natBelow? bound j = some n) :
    n < bound := by
  unfold natBelow? at h
  split at h
  · split_ifs at h with hlt
    obtain rfl := Option.some.inj h
    exact hlt
  · cases h

/-- An option is read back if its value is, and is not written as null. -/
theorem optional?_ofOption {α : Type} {write : α → Json} {read : Json → Option α} {o : Option α}
    (hnull : ∀ a, write a ≠ null) (h : ∀ a ∈ o, read (write a) = some a) :
    optional? read (some (ofOption write o)) = some o := by
  cases o with
  | none => rfl
  | some a =>
    have ha := h a rfl
    rw [ofOption]
    unfold optional?
    split
    · rename_i heq
      cases heq
    · rename_i heq
      exact absurd (Option.some.inj heq) (hnull a)
    · rename_i heq
      obtain rfl := Option.some.inj heq
      rw [ha, Option.map_some]

theorem optional?_size {size : Option Nat} (h : SizeFits size) :
    optional? (natBelow? sizeBound) (some (ofOption Json.ofNat size)) = some size :=
  optional?_ofOption (fun _ e => by cases e) fun n hn => natBelow?_ofNat (h n hn)

theorem optional?_string (s : Option String) :
    optional? string? (some (ofOption str s)) = some s :=
  optional?_ofOption (fun _ e => by cases e) fun _ _ => rfl

/-- A size that is read can be stored. -/
theorem sizeFits_of_optional? {o : Option Json} {size : Option Nat}
    (h : optional? (natBelow? sizeBound) o = some size) : SizeFits size := by
  intro n hn
  unfold optional? at h
  split at h
  · obtain rfl := Option.some.inj h
    cases hn
  · obtain rfl := Option.some.inj h
    cases hn
  · obtain ⟨m, hm, rfl⟩ := Option.map_eq_some_iff.1 h
    obtain rfl := Option.some.inj hn
    exact natBelow?_eq_some hm

end Json

open Json

/-! ## Reading back -/

theorem CodeLine.ofJson?_toJson {l : CodeLine} (h : l.number < numberBound) :
    ofJson? l.toJson = some l := by
  simp [ofJson?, toJson, stringAt?, natBelow?_ofNat h]

theorem Code.ofJson?_toFields {c : Code} (h : c.Fits) (kind : String) :
    ofJson? (ofKind kind c.toFields) = some c := by
  have hlines : (c.lines.map CodeLine.toJson).mapM CodeLine.ofJson? = some c.lines :=
    mapM_map_eq_some fun l hl => CodeLine.ofJson?_toJson (h l hl)
  simp [ofJson?, ofKind, toFields, stringAt?, boolAt?, itemsAt?, hlines]

theorem boxOfJson?_boxFields (url : String) {width height : Option Nat} (hwidth : SizeFits width)
    (hheight : SizeFits height) (kind : String) :
    boxOfJson? (ofKind kind (boxFields url width height)) = some (url, width, height) := by
  simp [boxOfJson?, ofKind, boxFields, stringAt?, optionalAt?, optional?_size hwidth,
    optional?_size hheight]

theorem Element.allToJson_eq_map (elems : List Element) :
    Element.allToJson elems = elems.map Element.toJson := by
  induction elems with
  | nil => rfl
  | cons e r ih => rw [Element.allToJson, ih, List.map_cons]

theorem Element.toJson_sub (s : Section) :
    (sub s).toJson = ofKind "section" (sectionFields s.number s.title (allToJson s.elems) s.notes
      s.classes s.styles) := by
  cases s
  rfl

/-- A section is read back if its elements are, whichever fields stand in front of its own. -/
theorem Section.ofJsonWith?_sectionFields {element : Json → Option Element} {s : Section}
    (hnumber : ∀ n ∈ s.number, n < numberBound)
    (helems : ∀ e ∈ s.elems, element e.toJson = some e) {j : Json}
    (hfields : ∀ key, key ≠ "kind" → j.field? key =
      (obj (sectionFields s.number s.title (Element.allToJson s.elems) s.notes s.classes
        s.styles)).field? key) :
    ofJsonWith? element j = some s := by
  cases s
  have hnumbers := mapM_map_eq_some fun n hn => natBelow?_ofNat (hnumber n hn)
  have hread := mapM_map_eq_some helems
  rw [Element.allToJson_eq_map] at hfields
  simp [ofJsonWith?, stringAt?, stringsAt?, itemsAt?, hfields, sectionFields, hnumbers, hread]

theorem Json.depth_le_depthItems {items : List Json} {j : Json} (h : j ∈ items) :
    j.depth ≤ depthItems items := by
  induction items with
  | nil => cases h
  | cons i r ih =>
    rw [depthItems]
    rcases List.mem_cons.1 h with rfl | h
    · exact Nat.le_max_left ..
    · exact (ih h).trans (Nat.le_max_right ..)

theorem Element.depth_toJson_pos (e : Element) : 0 < e.toJson.depth := by
  cases e with
  | sub s =>
    cases s
    simp [toJson, ofKind, Json.depth]
  | _ => simp [toJson, ofKind, Json.depth]

/-- The elements of a section lie in it. -/
theorem Section.depth_toJson_lt {s : Section} {e : Element} (he : e ∈ s.elems) :
    e.toJson.depth + 1 < (Element.sub s).toJson.depth := by
  obtain ⟨number, title, elems, notes, classes, styles⟩ := s
  have hmem : e.toJson.depth ≤ depthItems (Element.allToJson elems) := by
    rw [Element.allToJson_eq_map]
    exact depth_le_depthItems (List.mem_map_of_mem he)
  simp only [Element.toJson, ofKind, sectionFields, Json.depth, depthFields]
  omega

/-- An element is read back wherever its stored form is not too deep. -/
theorem Element.ofJsonWithin?_toJson (depth : Nat) {e : Element} (hdepth : e.toJson.depth ≤ depth)
    (h : e.Fits) : ofJsonWithin? depth e.toJson = some e := by
  induction depth generalizing e with
  | zero =>
    have hpos := depth_toJson_pos e
    omega
  | succ depth ih =>
    cases e with
    | sub s =>
      have hread : Section.ofJsonWith? (ofJsonWithin? depth) (toJson (.sub s)) = some s := by
        have helems : ∀ e ∈ s.elems, ofJsonWithin? depth e.toJson = some e := fun e he => by
          have hlt := Section.depth_toJson_lt he
          exact ih (by omega) (allFit_iff.1 (fits_sub.1 h).2 e he)
        rw [toJson_sub]
        exact Section.ofJsonWith?_sectionFields (fits_sub.1 h).1 helems fun _ => field?_ofKind
      have hkind : (toJson (.sub s)).stringAt? "kind" = some "section" := by
        rw [toJson_sub, stringAt?_ofKind_kind]
      simp [ofJsonWithin?, hkind, hread]
    | code c =>
      have hread := Code.ofJson?_toFields h "code"
      simp [ofJsonWithin?, toJson, hread]
    | image url width height =>
      have hread := boxOfJson?_boxFields url h.1 h.2 "image"
      simp [ofJsonWithin?, toJson, hread]
    | iframe url width height =>
      have hread := boxOfJson?_boxFields url h.1 h.2 "iframe"
      simp [ofJsonWithin?, toJson, hread]
    | text lines pre => simp [ofJsonWithin?, toJson, ofKind, stringAt?, stringsAt?, boolAt?]
    | list bullets => simp [ofJsonWithin?, toJson, ofKind, stringAt?, stringsAt?]
    | link url label => simp [ofJsonWithin?, toJson, ofKind, stringAt?]
    | caption s => simp [ofJsonWithin?, toJson, ofKind, stringAt?]
    | html s => simp [ofJsonWithin?, toJson, ofKind, stringAt?]

theorem Element.ofJson?_toJson {e : Element} (h : e.Fits) : ofJson? e.toJson = some e :=
  ofJsonWithin?_toJson e.toJson.depth le_rfl h

theorem Section.ofJson?_toJson {s : Section} (h : s.Fits) : ofJson? s.toJson = some s :=
  ofJsonWith?_sectionFields h.1
    (fun e he => Element.ofJson?_toJson (allFit_iff.1 h.2 e he)) fun _ _ => rfl

theorem Author.ofJson?_toJson {a : Author} (h : Element.AllFit a.elems) :
    ofJson? a.toJson = some a := by
  have helems : (a.elems.map Element.toJson).mapM Element.ofJson? = some a.elems :=
    mapM_map_eq_some fun e he => Element.ofJson?_toJson (allFit_iff.1 h e he)
  simp [ofJson?, toJson, itemsAt?, Element.allToJson_eq_map, helems]

theorem Moment.ofJson?_toJson (m : Moment) : ofJson? m.toJson = some m := by
  simp [ofJson?, toJson, ofStored?_stored]

theorem Document.ofJson?_toJson {d : Document} (h : d.Fits) : ofJson? d.toJson = some d := by
  have htime : optional? Moment.ofJson? (some (ofOption Moment.toJson d.time)) = some d.time :=
    optional?_ofOption (fun _ e => by cases e) fun m _ => Moment.ofJson?_toJson m
  have hauthors : (d.authors.map Author.toJson).mapM Author.ofJson? = some d.authors :=
    mapM_map_eq_some fun a ha => Author.ofJson?_toJson (h.authors a ha)
  have hsections : (d.sections.map Section.toJson).mapM Section.ofJson? = some d.sections :=
    mapM_map_eq_some fun s hs => Section.ofJson?_toJson (h.sections s hs)
  simp [ofJson?, toJson, stringAt?, stringsAt?, itemsAt?, optionalAt?, optional?_string, htime,
    hauthors, hsections]

/-! ## What is read can be stored -/

theorem CodeLine.lt_of_ofJson? {j : Json} {l : CodeLine} (h : ofJson? j = some l) :
    l.number < numberBound := by
  simp only [ofJson?, Option.bind_eq_bind, Option.bind_eq_some_iff] at h
  obtain ⟨_, ⟨_, _, hnumber⟩, _, _, hl⟩ := h
  obtain rfl := Option.some.inj hl
  exact natBelow?_eq_some hnumber

theorem Code.fits_of_ofJson? {j : Json} {c : Code} (h : ofJson? j = some c) : c.Fits := by
  simp only [ofJson?, Option.bind_eq_bind, Option.bind_eq_some_iff] at h
  obtain ⟨_, _, _, _, _, _, _, _, _, _, lines, ⟨_, _, hlines⟩, _, _, _, _, hc⟩ := h
  obtain rfl := Option.some.inj hc
  intro l hl
  obtain ⟨_, _, hread⟩ := exists_of_mem_mapM hlines l hl
  exact CodeLine.lt_of_ofJson? hread

theorem sizeFits_of_boxOfJson? {j : Json} {url : String} {width height : Option Nat}
    (h : boxOfJson? j = some (url, width, height)) : SizeFits width ∧ SizeFits height := by
  simp only [boxOfJson?, optionalAt?, Option.bind_eq_bind, Option.bind_eq_some_iff] at h
  obtain ⟨_, _, _, hwidth, _, hheight, hbox⟩ := h
  obtain ⟨rfl, rfl, rfl⟩ := Option.some.inj hbox
  exact ⟨sizeFits_of_optional? hwidth, sizeFits_of_optional? hheight⟩

/-- A section that is read can be stored if its elements can. -/
theorem Section.fits_of_ofJsonWith? {element : Json → Option Element} {j : Json} {s : Section}
    (helement : ∀ j e, element j = some e → e.Fits) (h : ofJsonWith? element j = some s) :
    s.Fits := by
  simp only [ofJsonWith?, Option.bind_eq_bind, Option.bind_eq_some_iff] at h
  obtain ⟨_, ⟨_, _, hnumber⟩, _, _, _, ⟨_, _, helems⟩, _, _, _, _, _, _, hs⟩ := h
  obtain rfl := Option.some.inj hs
  refine ⟨fun n hn => ?_, allFit_iff.2 fun e he => ?_⟩
  · obtain ⟨_, _, hread⟩ := exists_of_mem_mapM hnumber n hn
    exact natBelow?_eq_some hread
  · obtain ⟨j, _, hread⟩ := exists_of_mem_mapM helems e he
    exact helement j e hread

theorem Element.fits_of_ofJsonWithin? (depth : Nat) {j : Json} {e : Element}
    (h : ofJsonWithin? depth j = some e) : e.Fits := by
  induction depth generalizing j e with
  | zero => cases h
  | succ depth ih =>
    rw [ofJsonWithin?, Option.bind_eq_bind, Option.bind_eq_some_iff] at h
    obtain ⟨kind, -, h⟩ := h
    -- One case for each kind; the kinds without numbers can always be stored.
    split at h
    · obtain ⟨s, hs, rfl⟩ := Option.map_eq_some_iff.1 h
      exact fits_sub.2 (Section.fits_of_ofJsonWith? (fun _ _ => ih) hs)
    · simp only [Option.bind_eq_bind, Option.bind_eq_some_iff] at h
      obtain ⟨_, _, _, _, he⟩ := h
      obtain rfl := Option.some.inj he
      trivial
    · obtain ⟨_, _, rfl⟩ := Option.map_eq_some_iff.1 h
      trivial
    · obtain ⟨c, hc, rfl⟩ := Option.map_eq_some_iff.1 h
      exact Code.fits_of_ofJson? hc
    · obtain ⟨⟨_, _, _⟩, hbox, rfl⟩ := Option.map_eq_some_iff.1 h
      exact sizeFits_of_boxOfJson? hbox
    · obtain ⟨⟨_, _, _⟩, hbox, rfl⟩ := Option.map_eq_some_iff.1 h
      exact sizeFits_of_boxOfJson? hbox
    · simp only [Option.bind_eq_some_iff] at h
      obtain ⟨_, _, _, _, he⟩ := h
      obtain rfl := Option.some.inj he
      trivial
    · obtain ⟨_, _, rfl⟩ := Option.map_eq_some_iff.1 h
      trivial
    · obtain ⟨_, _, rfl⟩ := Option.map_eq_some_iff.1 h
      trivial
    · cases h

theorem Section.fits_of_ofJson? {j : Json} {s : Section} (h : ofJson? j = some s) : s.Fits :=
  fits_of_ofJsonWith? (fun j _ => Element.fits_of_ofJsonWithin? j.depth) h

theorem Author.allFit_of_ofJson? {j : Json} {a : Author} (h : ofJson? j = some a) :
    Element.AllFit a.elems := by
  simp only [ofJson?, Option.bind_eq_bind, Option.bind_eq_some_iff] at h
  obtain ⟨_, ⟨_, _, helems⟩, ha⟩ := h
  obtain rfl := Option.some.inj ha
  refine allFit_iff.2 fun e he => ?_
  obtain ⟨j, _, hread⟩ := exists_of_mem_mapM helems e he
  exact Element.fits_of_ofJsonWithin? j.depth hread

theorem Document.fits_of_ofJson? {j : Json} {d : Document} (h : ofJson? j = some d) : d.Fits := by
  simp only [ofJson?, Option.bind_eq_bind, Option.bind_eq_some_iff] at h
  obtain ⟨_, _, _, _, _, _, _, _, _, _, _, _, _, ⟨_, _, hauthors⟩, _, ⟨_, _, hsections⟩, hd⟩ := h
  obtain rfl := Option.some.inj hd
  constructor
  · intro a ha
    obtain ⟨_, _, hread⟩ := exists_of_mem_mapM hauthors a ha
    exact Author.allFit_of_ofJson? hread
  · intro s hs
    obtain ⟨_, _, hread⟩ := exists_of_mem_mapM hsections s hs
    exact Section.fits_of_ofJson? hread

/-- Just the documents whose numbers can be stored are read back from their stored form. Every
document that is read from a JSON value is one of them. -/
theorem Document.stored_faithfully (d : Document) :
    (ofJson? d.toJson = some d ↔ d.Fits) ∧ ∀ j, ofJson? j = some d → ofJson? d.toJson = some d := by
  refine ⟨⟨fits_of_ofJson?, ofJson?_toJson⟩, fun j hj => ?_⟩
  have hfits : d.Fits := fits_of_ofJson? hj
  exact ofJson?_toJson hfits

/-- A document with the greatest numbers, a leap second and a section in a section in an
author. -/
def roomyDocument : Document where
  title := "\"Roomy\" <1>"
  subtitle := some ""
  time := some ⟨-262143, 12, 31, 23, 59, 59, 1999999999, rfl, rfl⟩
  oldUrls := ["/old", ""]
  authors := [⟨[.sub ⟨[1], "In an author", [.sub ⟨[], "Deeper", [], [], [], []⟩], [], [], []⟩]⟩]
  sections := [⟨[18446744073709551615], "Code", [.code ⟨"a.go", ".go", true, false, true,
    [⟨18446744073709551615, "x"⟩], "before\n", "after\n"⟩, .image "a.png" (some 4294967295) none,
    .preformatted "<p>", .html "<b>"], ["a note"], ["class"], ["style"]⟩]

/-- A stored document with a field of no meaning, and without the fields that may be missing. -/
def terseStored : Json :=
  obj [("title", str "Terse"), ("comment", .real "1.5"), ("tags", arr []),
    ("time", str "+12345-01-02T03:04:05.006"), ("old_url", arr []), ("authors", arr []),
    ("sections", arr [])]

/-- The document that is stored tersely. -/
def terseDocument : Document where
  title := "Terse"
  time := some ⟨12345, 1, 2, 3, 4, 5, 6000000, rfl, rfl⟩

theorem Document.stored_faithfully_roomy :
    ofJson? roomyDocument.toJson = some roomyDocument ∧
      ofJson? terseStored = some terseDocument ∧
        ofJson? terseDocument.toJson = some terseDocument := by
  have hroomy : roomyDocument.Fits := by
    constructor <;>
      simp [roomyDocument, Section.Fits, Element.AllFit, Element.Fits, Code.Fits, SizeFits,
        Element.preformatted, numberBound, sizeBound]
  have htime : Moment.ofJson? (str "+12345-01-02T03:04:05.006") =
      some ⟨12345, 1, 2, 3, 4, 5, 6000000, rfl, rfl⟩ := by decide
  have hterse : ofJson? terseStored = some terseDocument := by
    simp [ofJson?, terseStored, stringAt?, stringsAt?, itemsAt?, optionalAt?, optional?,
      strings?, htime, terseDocument]
  exact ⟨(stored_faithfully roomyDocument).1.2 hroomy, hterse,
    (stored_faithfully terseDocument).2 terseStored hterse⟩

end Lectern
