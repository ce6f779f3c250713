import Lectern.Proofs.Source.Comments
import Lectern.Proofs.Source.Shape

/-!
# The opening of a source

A source opens with the lines up to the first empty one behind its title. They tell the header,
whatever stands behind them (`readHeader_opening`), and a source whose header is read has them
(`exists_opening`). Reading the header alone gives what the whole source is read with
(`readLines_titlesOnly_of_full`), or the problem for which the source is refused.
-/

namespace Lectern.Source

open Text

variable {files files' : Files} {base : Path}

/-- The lines with which a source opens: comments and empty lines, the title, and lines of the
header, none of them empty. -/
structure Opening where
  front : List (List Char)
  title : List Char
  header : List (List Char)
  front_idle : ∀ t ∈ front, isComment t = true ∨ t = []
  title_isLine : isComment title = false ∧ title ≠ []
  header_filled : ∀ t ∈ header, t ≠ []

namespace Opening

/-- The lines of an opening, with the empty one that ends it. -/
def lines (o : Opening) : List (List Char) := o.front ++ o.title :: (o.header ++ [[]])

/-- The opening of a source that starts with its title. -/
def ofTitle (title : List Char) (header : List (List Char))
    (htitle : isComment title = false ∧ title ≠ []) (hheader : ∀ t ∈ header, t ≠ []) : Opening where
  front := []
  title := title
  header := header
  front_idle := fun _ ht => absurd ht List.not_mem_nil
  title_isLine := htitle
  header_filled := hheader

/-- The opening with one more line in front that is a comment or empty. -/
def cons (t : List Char) (ht : isComment t = true ∨ t = []) (o : Opening) : Opening :=
  { o with
    front := t :: o.front
    front_idle := List.forall_mem_cons.2 ⟨ht, o.front_idle⟩ }

end Opening

/-! ## Reading the header of an opening -/

/-- The header with what numbered lines tell, one after the other. -/
def tellLines (d : Document) (ls : List Line) : Except Located Document :=
  ls.foldlM (fun d l => (headerLine d l.text).mapError (⟨l.number, ·⟩)) d

/-- The header of an opening, or the first problem in it. -/
def Opening.told (o : Opening) : Except Located Document :=
  tellLines { title := String.ofList o.title } (numberedFrom (o.front.length + 2) o.header)

theorem numberedFrom_append (first : Nat) (a b : List (List Char)) :
    numberedFrom first (a ++ b) = numberedFrom first a ++ numberedFrom (first + a.length) b := by
  rw [numberedFrom, numberFrom_append, List.filter_append]
  rfl

theorem text_ne_nil_of_mem_numberedFrom {first : Nat} {texts : List (List Char)}
    (h : ∀ t ∈ texts, t ≠ []) : ∀ l ∈ numberedFrom first texts, l.text ≠ [] := by
  intro l hl
  have htext : l.text ∈ (numberedFrom first texts).map (·.text) := List.mem_map_of_mem hl
  rw [map_text_numberedFrom] at htext
  exact h l.text (List.mem_of_mem_filter htext)

theorem readHeader_cons_empty (stop n : Nat) (rest : List Line) :
    readHeader stop (⟨n, []⟩ :: rest) = readHeader stop rest := rfl

theorem readHeaderLines_filled {ls : List Line} (h : ∀ l ∈ ls, l.text ≠ []) (stop : Nat)
    (d : Document) (n : Nat) (rest : List Line) :
    readHeaderLines stop d (ls ++ ⟨n, []⟩ :: rest) = (tellLines d ls).map fun d' => (d', rest) := by
  induction ls generalizing d with
  | nil => rfl
  | cons l r ih =>
    have hl : ¬ l.text.isEmpty = true := by simpa using h l (List.mem_cons_self ..)
    rw [List.cons_append, readHeaderLines, if_neg hl, tellLines, List.foldlM_cons]
    cases headerLine d l.text with
    | error problem => rfl
    | ok d₁ => exact ih (fun m hm => h m (List.mem_cons_of_mem l hm)) d₁

/-- The lines of an opening tell its header, whatever stands behind them. -/
theorem readHeader_opening (o : Opening) (stop : Nat) (rest : List (List Char)) :
    readHeader stop (numbered (o.lines ++ rest)) =
      o.told.map fun d => (d, numberedFrom (o.lines.length + 1) rest) := by
  have hfront : ∀ (front : List (List Char)) (first : Nat) (behind : List Line),
      (∀ t ∈ front, isComment t = true ∨ t = []) →
        readHeader stop (numberedFrom first front ++ behind) = readHeader stop behind := by
    intro front
    induction front with
    | nil => exact fun _ _ _ => rfl
    | cons t r ih =>
      intro first behind h
      have ih := ih (first + 1) behind fun u hu => h u (List.mem_cons_of_mem t hu)
      rcases h t (List.mem_cons_self ..) with ht | rfl
      · rw [numberedFrom_cons_comment ht, ih]
      · rw [numberedFrom_cons_line rfl, List.cons_append, readHeader_cons_empty, ih]
  have htitle : ¬ o.title.isEmpty = true := by simpa using o.title_isLine.2
  have hheader : ∀ l ∈ numberedFrom (o.front.length + 2) o.header, l.text ≠ [] :=
    text_ne_nil_of_mem_numberedFrom o.header_filled
  have hlines : numbered (o.lines ++ rest) = numberedFrom 1 o.front ++
      ⟨o.front.length + 1, o.title⟩ :: (numberedFrom (o.front.length + 2) o.header ++
        ⟨o.front.length + 2 + o.header.length, []⟩ ::
          numberedFrom (o.lines.length + 1) rest) := by
    have hlength : o.lines.length + 1 = o.front.length + 2 + o.header.length + 1 := by
      simp only [Opening.lines, List.length_append, List.length_cons, List.length_nil]
      omega
    rw [hlength, Opening.lines, List.append_assoc, List.cons_append, List.append_assoc,
      List.singleton_append, ← numberedFrom_cons_line rfl, ← numberedFrom_append,
      ← numberedFrom_cons_line o.title_isLine.1, Nat.add_comm o.front.length 1,
      ← numberedFrom_append]
    rfl
  rw [hlines, hfront o.front 1 _ o.front_idle, readHeader, if_neg htitle,
    readHeaderLines_filled hheader]
  rfl

/-- A source that starts with an opening is read from the header of the opening on. -/
theorem readLines_opening (mode : Mode) (o : Opening) (rest : List (List Char)) :
    readLines files base mode (o.lines ++ rest) = o.told.bind fun d =>
      match mode with
      | .titlesOnly => .ok d
      | .full => readBody files base d (numberedFrom (o.lines.length + 1) rest) := by
  rw [readLines, readHeader_opening]
  cases o.told <;> cases mode <;> rfl

/-- A source whose header is read starts with an opening. -/
theorem exists_opening {stop first : Nat} {texts : List (List Char)} {d : Document}
    {rest : List Line} (h : readHeader stop (numberedFrom first texts) = .ok (d, rest)) :
    ∃ (o : Opening) (behind : List (List Char)), texts = o.lines ++ behind := by
  induction texts generalizing first with
  | nil => cases h
  | cons t r ih =>
    by_cases hidle : isComment t = true ∨ t = []
    · have hr : readHeader stop (numberedFrom (first + 1) r) = .ok (d, rest) := by
        rcases hidle with ht | rfl
        · rwa [numberedFrom_cons_comment ht] at h
        · rwa [numberedFrom_cons_line rfl, readHeader_cons_empty] at h
      obtain ⟨o, behind, rfl⟩ := ih hr
      exact ⟨o.cons t hidle, behind, rfl⟩
    · obtain ⟨hcomment, ht⟩ := not_or.1 hidle
      rw [Bool.not_eq_true] at hcomment
      rw [numberedFrom_cons_line hcomment, readHeader, if_neg (by simpa using ht)] at h
      obtain ⟨l, hl, hlines⟩ := readHeaderLines_rest h
      have hempty : [] ∈ r := by
        have hmem : l ∈ numberedFrom (first + 1) r :=
          (List.dropWhile_suffix _).subset (hlines ▸ List.mem_cons_self ..)
        have htext : l.text ∈ (numberedFrom (first + 1) r).map (·.text) := List.mem_map_of_mem hmem
        rw [map_text_numberedFrom, hl] at htext
        exact List.mem_of_mem_filter htext
      obtain ⟨header, behind, rfl, hheader⟩ := List.eq_append_cons_of_mem hempty
      refine ⟨.ofTitle t header ⟨hcomment, ht⟩ fun u hu e => hheader (e ▸ hu), behind, ?_⟩
      simp [Opening.lines, Opening.ofTitle]

theorem exists_opening_of_read {name : Path} {mode : Mode} {text : String} {d : Document}
    (h : read files name mode text = .ok d) :
    ∃ (o : Opening) (behind : List (List Char)), Text.lines text.toList = o.lines ++ behind := by
  obtain ⟨d₀, rest, hheader⟩ := readHeader_of_readLines (readLines_of_read h)
  have hnumbered : numbered (Text.lines text.toList) = numberedFrom 1 (Text.lines text.toList) :=
    rfl
  exact exists_opening (hnumbered ▸ hheader)

/-! ## Reading the header alone -/

/-- A source that is read in full has a header, whatever is in the files it refers to. -/
theorem readLines_titlesOnly_of_full {texts : List (List Char)} {d : Document}
    (h : readLines files base .full texts = .ok d) :
    readLines files' base .titlesOnly texts = .ok { d with authors := [], sections := [] } := by
  obtain ⟨d₀, rest, items, hheader, -, rfl⟩ := readLines_full_eq_ok_iff.1 h
  obtain ⟨hauthors, hsections⟩ := readHeader_bare hheader
  refine readLines_titlesOnly_eq_ok_iff.2 ⟨rest, ?_⟩
  rw [hheader, ← hauthors, ← hsections]

/-- A source without a header is refused for it. -/
theorem readLines_full_of_titlesOnly {mode : Mode} {texts : List (List Char)} {what : Located}
    (h : readLines files base .titlesOnly texts = .error what) :
    readLines files' base mode texts = .error what := by
  unfold readLines at h ⊢
  cases hheader : readHeader (texts.length + 1) (numbered texts) with
  | error what' =>
    rw [hheader] at h
    exact h
  | ok header =>
    rw [hheader] at h
    cases h

/-- The header of a source depends on its opening alone. -/
theorem readLines_titlesOnly_congr {texts texts' : List (List Char)} {o : Opening}
    (h : o.lines <+: texts) (h' : o.lines <+: texts') :
    readLines files base .titlesOnly texts = readLines files' base .titlesOnly texts' := by
  obtain ⟨rest, rfl⟩ := h
  obtain ⟨rest', rfl⟩ := h'
  rw [readLines_opening, readLines_opening]

end Lectern.Source
