import Lectern.Proofs.Source.Addresses
import Lectern.Source.Command

/-!
# The lines of an excerpt

An excerpt has the lines of the range that its address picks, with the numbers that they have in the
file, but for those that end in `OMIT` (`isExcerptOf_excerpt`).
-/

namespace Lectern.Source

open Text

/-- The line ends in `OMIT`, with nothing but blanks behind it. -/
def EndsInOmit (t : List Char) : Prop :=
  ∃ front gap, t = front ++ ("OMIT".toList ++ gap) ∧ isBlankLine gap = true

theorem isOmitted_iff {t : List Char} : isOmitted t = true ↔ EndsInOmit t := by
  rw [isOmitted, List.isSuffixOf_iff_suffix]
  constructor
  · rintro ⟨front, hfront⟩
    obtain ⟨gap, hgap, ht⟩ := exists_dropEndWhile_append isBlank t
    refine ⟨front, gap, ?_, hgap⟩
    rw [← List.append_assoc, hfront]
    exact ht.symm
  · rintro ⟨front, gap, rfl, hgap⟩
    have htrim : trimEnd (front ++ ("OMIT".toList ++ gap)) = front ++ "OMIT".toList := by
      rw [← List.append_assoc, trimEnd_append, if_pos hgap, trimEnd_append, if_neg (by decide)]
      rfl
    rw [htrim]
    exact List.suffix_append ..

/-- The excerpt of the lines behind the first `lo` ones up to the line with the number `hi`. -/
structure IsExcerptOf (lines : List (List Char)) (play : Bool) (lo hi : Nat) (code : Code) :
    Prop where
  increasing : code.lines.Pairwise fun l m => l.number < m.number
  mem_iff : ∀ l : CodeLine, l ∈ code.lines ↔
    lo + 1 ≤ l.number ∧ l.number ≤ hi ∧
      ∃ t, lines[l.number - 1]? = some t ∧ l.text = String.ofList t ∧ ¬ EndsInOmit t
  before : code.before =
    if play then String.ofList ((lines.take lo).flatMap (· ++ ['\n'])) else ""
  after : code.after =
    if play then String.ofList ((lines.drop hi).flatMap (· ++ ['\n'])) else ""

variable {range : Range} {lines : List (List Char)}

/-- The lines of a list keep their numbers when the first ones are dropped. -/
theorem drop_zipIdx {α : Type} (l : List α) (n : Nat) : l.zipIdx.drop n = (l.drop n).zipIdx n := by
  apply List.ext_getElem?
  intro i
  rw [List.getElem?_drop, List.getElem?_zipIdx, List.getElem?_zipIdx, List.getElem?_drop,
    Nat.zero_add]

theorem getElem?_take_eq_some_iff {α : Type} {l : List α} {n i : Nat} {a : α} :
    (l.take n)[i]? = some a ↔ i < n ∧ l[i]? = some a := by
  rw [List.getElem?_take]
  split_ifs with hi <;> simp [hi]

theorem mem_excerptLines_iff {l : CodeLine} :
    l ∈ excerptLines range lines ↔
      range.lo + 1 ≤ l.number ∧ l.number ≤ range.hi ∧
        ∃ t, lines[l.number - 1]? = some t ∧ l.text = String.ofList t ∧ ¬ EndsInOmit t := by
  rw [excerptLines, List.mem_filterMap, drop_zipIdx]
  constructor
  · rintro ⟨⟨t, i⟩, hmem, hl⟩
    rw [List.mk_mem_zipIdx_iff_le_and_getElem?_sub, List.getElem?_drop] at hmem
    obtain ⟨hlo, ht⟩ := hmem
    rw [Nat.add_sub_cancel' hlo, getElem?_take_eq_some_iff] at ht
    dsimp only at hl
    split_ifs at hl with homit
    obtain rfl := Option.some.inj hl
    exact ⟨Nat.succ_le_succ hlo, ht.1, t, ht.2, rfl, isOmitted_iff.not.1 homit⟩
  · rintro ⟨hlo, hhi, t, ht, htext, homit⟩
    refine ⟨(t, l.number - 1), ?_, ?_⟩
    · rw [List.mk_mem_zipIdx_iff_le_and_getElem?_sub, List.getElem?_drop,
        Nat.add_sub_cancel' (by omega), getElem?_take_eq_some_iff]
      exact ⟨by omega, by omega, ht⟩
    · have hnumber : l.number - 1 + 1 = l.number := by omega
      dsimp only
      rw [if_neg (isOmitted_iff.not.2 homit), hnumber, ← htext]

theorem pairwise_excerptLines (range : Range) (lines : List (List Char)) :
    (excerptLines range lines).Pairwise fun l m => l.number < m.number := by
  have hnumbers : ((lines.take range.hi).zipIdx.drop range.lo).Pairwise
      fun x y => x.2 < y.2 := by
    rw [drop_zipIdx]
    have hmap : (((lines.take range.hi).drop range.lo).zipIdx range.lo).map Prod.snd |>.Pairwise
        (· < ·) := by
      rw [List.zipIdx_map_snd]
      exact List.pairwise_lt_range'
    exact List.pairwise_map.1 hmap
  refine List.Pairwise.filterMap _ ?_ hnumbers
  rintro ⟨t, i⟩ ⟨u, j⟩ hlt l hl m hm
  dsimp only at hl hm
  split_ifs at hl hm
  obtain rfl := Option.some.inj hl
  obtain rfl := Option.some.inj hm
  exact Nat.succ_lt_succ hlt

theorem isExcerptOf_excerpt (l : ExcerptLine) (play : Bool) (range : Range)
    (lines : List (List Char)) :
    IsExcerptOf lines play range.lo range.hi (excerpt l play range lines) where
  increasing := pairwise_excerptLines range lines
  mem_iff := fun _ => mem_excerptLines_iff
  before := rfl
  after := rfl

/-! ## Excerpt commands -/

variable {files : Files} {base : Path} {text : List Char}

/-- The excerpt of a command is one of the file that it names, at the address that it gives. -/
theorem readExcerpt_eq_ok_iff {code : Code} :
    readExcerpt files base text = .ok code ↔
      ∃ l contents range,
        readExcerptLine text (text.length + 1) false false (nextField text).2 = .ok l ∧
        files (base.join ⟨l.file⟩) = .ok contents ∧
        resolveAddress (trim l.address) (Text.lines contents.toList) = .ok range ∧
        code = excerpt l ((nextField text).1 = ".play".toList) range
          (Text.lines contents.toList) := by
  rw [readExcerpt]
  dsimp only [bind, Except.bind]
  cases hl : readExcerptLine text (text.length + 1) false false (nextField text).2 with
  | error why => simp
  | ok l =>
    cases hcontents : files (base.join ⟨l.file⟩) with
    | error why => simp [hcontents]
    | ok contents =>
      cases haddr : resolveAddress (trim l.address) (Text.lines contents.toList) with
      | error why => simp [hcontents, haddr]
      | ok range => simp [hcontents, haddr, pure, Except.pure, eq_comm]

/-- A command whose address picks no range gives no excerpt. -/
theorem readExcerpt_of_resolveAddress {l : ExcerptLine} {contents : String} {why : AddressFault}
    (hl : readExcerptLine text (text.length + 1) false false (nextField text).2 = .ok l)
    (hcontents : files (base.join ⟨l.file⟩) = .ok contents)
    (haddr : resolveAddress (trim l.address) (Text.lines contents.toList) = .error why) :
    readExcerpt files base text = .error (.badAddress l.file why) := by
  rw [readExcerpt]
  dsimp only [bind, Except.bind]
  rw [hl]
  dsimp only
  rw [hcontents]
  dsimp only
  rw [haddr]
  rfl

end Lectern.Source
