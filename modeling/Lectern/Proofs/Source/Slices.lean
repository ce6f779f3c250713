import Lectern.Proofs.Source.Excerpts
import Lectern.Proofs.Text.Offsets

/-!
# Excerpts read by slices

Excerpt commands, addresses and lines read once more with texts cut at byte offsets and lists of
lines cut at indices. A slice that is out of range or that starts or ends inside of a character does
not exist, and then there is no result at all. `Sliced.readExcerpt_eq` says that every slice exists:
for every command and every file the result is there, and it is that of `readExcerpt`.
-/

namespace Lectern.Source

open Text
open Disk (byteLength)

/-- A result that is there because every slice on the way to it exists. -/
def sure {ε α : Type} (x : Except ε α) : ExceptT ε Option α := ExceptT.mk (some x)

variable {ε α β : Type}

theorem lift_some_bind (a : α) (f : α → ExceptT ε Option β) :
    (liftM (some a) : ExceptT ε Option α) >>= f = f a := rfl

theorem sure_ok_bind (a : α) (f : α → ExceptT ε Option β) : sure (.ok a) >>= f = f a := rfl

theorem sure_ite (c : Prop) [Decidable c] (x y : Except ε α) :
    (if c then sure x else sure y) = sure (if c then x else y) :=
  (apply_ite sure c x y).symm

/-- A spot with its column in bytes. -/
def Spot.inBytes (lines : List (List Char)) (spot : Spot) : Spot :=
  ⟨spot.line, byteLength (((lines[spot.line]?).getD []).take spot.column)⟩

theorem Spot.inBytes_of_getElem? {lines : List (List Char)} {i : Nat} {t : List Char}
    (ht : lines[i]? = some t) (k : Nat) :
    (⟨i, k⟩ : Spot).inBytes lines = ⟨i, byteLength (t.take k)⟩ := by
  rw [Spot.inBytes, ht, Option.getD_some]

/-- All bytes of a line stand in front of its end. -/
theorem Spot.inBytes_end {lines : List (List Char)} {i : Nat} {t : List Char}
    (ht : lines[i]? = some t) : (⟨i, t.length⟩ : Spot).inBytes lines = ⟨i, byteLength t⟩ := by
  rw [Spot.inBytes_of_getElem? ht, List.take_length]

namespace Sliced

/-! ## Reading by slices -/

/-- The first field of a text and what follows it. -/
def nextField (s : List Char) : Option (List Char × List Char) :=
  match offset? isBlank (trimStart s) with
  | some i => cutAt? i (trimStart s)
  | none => some (trimStart s, [])

/-- The offset of the first slash that no backslash escapes, for a text that starts at the offset
`pos`. -/
def slashOffset? (escaped : Bool) (pos : Nat) : List Char → Option Nat
  | [] => none
  | c :: r =>
      if c = '/' && !escaped then some pos
      else slashOffset? (c = '\\' && !escaped) (pos + c.utf8Size) r

/-- What stands in front of the first slash that no backslash escapes, and what follows it. -/
def splitAtSlash (s : List Char) : Option (Option (List Char × List Char)) :=
  match slashOffset? false 0 s with
  | none => some none
  | some i => do
      let (raw, _) ← cutAt? i s
      let (_, rest) ← cutAt? (i + 1) s
      pure (some (raw, rest))

/-- Reads one end of an address and gives the rest of the text. -/
def readBound (s : List Char) : ExceptT AddressFault Option (Bound × List Char) :=
  match s with
  | '$' :: r => pure (.last, r)
  | '/' :: body => do
      match ← splitAtSlash body with
      | none => throw (.unterminated s)
      | some (raw, r) =>
          match Pattern.read (unescapeSlashes raw) with
          | .ok p => pure (.pattern (unescapeSlashes raw) p, r)
          | .error why => throw (.badPattern (unescapeSlashes raw) why)
  | s =>
      let n := (offset? (!Char.isDigit ·) s).getD (byteLength s)
      if n = 0 then throw (.malformed s)
      else do
        let (digits, rest) ← cutAt? n s
        if numberLimit < ofDigits digits then throw (.badNumber digits)
        else pure (.line (ofDigits digits), rest)

/-- The end of the first match in a text, in bytes. -/
def findEnd? (p : Pattern) (t : List Char) : Option Nat :=
  (p.find? t).map fun m => byteLength (t.take m.2)

/-- The first line from index `line` on in which the pattern is found, and the end of its match. -/
def findLine (p : Pattern) (line : Nat) : List (List Char) → Option Spot
  | [] => none
  | t :: r =>
      match findEnd? p t with
      | some stop => some ⟨line, stop⟩
      | none => findLine p (line + 1) r

/-- Finds one end of a range from a spot with its column in bytes. -/
def locate (b : Bound) (lines : List (List Char)) (start : Spot) :
    ExceptT AddressFault Option Spot :=
  match b with
  | .line n =>
      if 1 ≤ n ∧ n ≤ lines.length then do
        let t ← (lines[n - 1]? : Option (List Char))
        pure ⟨n - 1, byteLength t⟩
      else throw (.outOfRange n lines.length)
  | .last =>
      match lines.getLast? with
      | some t => pure ⟨lines.length - 1, byteLength t⟩
      | none => throw .emptyFile
  | .pattern text p => do
      let sameLine ←
        match lines[start.line]? with
        | none => pure none
        | some t => do
            let (_, tail) ← cutAt? start.column t
            pure ((findEnd? p tail).map fun stop => ⟨start.line, start.column + stop⟩)
      match sameLine <|> findLine p (start.line + 1) (lines.drop (start.line + 1)) with
      | some spot => pure spot
      | none => throw (.noMatch text)

/-- The line of the second end of an address, where `rest` follows the first end, which is found at
`start`. -/
def stopLine (addr : List Char) (lines : List (List Char)) (start : Spot) (rest : List Char) :
    ExceptT AddressFault Option Nat :=
  match trimStart rest with
  | [] => pure start.line
  | ',' :: r => do
      let read ← readBound (trimStart r)
      if !(trim read.2).isEmpty then throw (.trailing (trim read.2))
      else do
        let stop ← locate read.1 lines start
        pure stop.line
  | _ => throw (.malformed addr)

/-- The range of an address without blanks around it; an empty one picks all lines. -/
def resolveAddress (addr : List Char) (lines : List (List Char)) :
    ExceptT AddressFault Option Range :=
  if addr.isEmpty then pure ⟨0, lines.length⟩
  else do
    let read ← readBound addr
    let start ← locate read.1 lines ⟨0, 0⟩
    let stop ← stopLine addr lines start read.2
    if stop < start.line then throw (.reversed addr)
    else pure ⟨start.line, stop + 1⟩

/-- The elements of a list from one index up to another one. -/
def slice? {α : Type} (lo hi : Nat) (l : List α) : Option (List α) :=
  if lo ≤ hi ∧ hi ≤ l.length then some ((l.take hi).drop lo) else none

/-- Reads the options and the file name of an excerpt behind its command. -/
def readExcerptLine (command : List Char) : Nat → Bool → Bool → List Char →
    ExceptT Problem Option ExcerptLine
  | 0, _, _, _ => throw (.missingFileName command)
  | fuel + 1, edit, numbers, s => do
      let (field, rest) ← nextField s
      if field.isEmpty then throw (.missingFileName command)
      else if field = "-edit".toList then readExcerptLine command fuel true numbers rest
      else if field = "-numbers".toList then readExcerptLine command fuel edit true rest
      else if field.head? = some '-' then throw (.unknownFlag field)
      else pure ⟨edit, numbers, field, rest⟩

/-- The excerpt of a file of which the range is picked. -/
def excerpt (l : ExcerptLine) (play : Bool) (range : Range) (lines : List (List Char)) :
    Option Code := do
  let fileName := String.ofList (((⟨l.file⟩ : Path).fileName?).getD l.file)
  let shown ← slice? range.lo range.hi lines
  let front ← if play then slice? 0 range.lo lines else some []
  let behind ← if play then slice? range.hi lines.length lines else some []
  pure
    { fileName := fileName
      ext := Code.extensionOf fileName
      play := play
      edit := l.edit
      numbers := l.numbers
      lines := shown.zipIdx.filterMap fun (text, i) =>
        if isOmitted text then none else some ⟨range.lo + i + 1, String.ofList text⟩
      before := String.ofList (unlines front)
      after := String.ofList (unlines behind) }

/-- Reads an excerpt command and the file it names, from the directory `base`. -/
def readExcerpt (files : Files) (base : Path) (text : List Char) :
    ExceptT Problem Option Code := do
  let (command, rest) ← nextField text
  let l ← readExcerptLine text (text.length + 1) false false rest
  let path := base.join ⟨l.file⟩
  match files path with
  | .error why => throw (.unreadableFile path why)
  | .ok contents =>
      let lines := Text.lines contents.toList
      match ← (resolveAddress (trim l.address) lines).run with
      | .error why => throw (.badAddress l.file why)
      | .ok range => excerpt l (command = ".play".toList) range lines

/-! ## Every slice exists -/

theorem nextField_eq (s : List Char) : nextField s = some (Text.nextField s) := by
  rw [nextField, Text.nextField, List.span_eq_takeWhile_dropWhile, offset?_eq]
  by_cases hany : (trimStart s).any isBlank = true
  · rw [if_pos hany]
    exact cutAt?_takeWhile _ _
  · have hall : ∀ c ∈ trimStart s, (!isBlank c) = true := by simpa using hany
    rw [if_neg hany, List.takeWhile_eq_self_iff.2 hall, List.dropWhile_eq_nil_iff.2 hall]

theorem slashOffset?_eq (escaped : Bool) (pos : Nat) (s : List Char) :
    slashOffset? escaped pos s =
      (Source.splitAtSlash escaped s).map fun r => pos + byteLength r.1 := by
  induction s generalizing escaped pos with
  | nil => rfl
  | cons c r ih =>
    rw [slashOffset?, Source.splitAtSlash]
    split_ifs
    · rfl
    · rw [ih, Option.map_map]
      congr 1
      funext x
      exact Nat.add_assoc ..

theorem append_of_splitAtSlash {escaped : Bool} {s raw rest : List Char}
    (h : Source.splitAtSlash escaped s = some (raw, rest)) : s = raw ++ '/' :: rest := by
  induction s generalizing escaped raw with
  | nil => cases h
  | cons c r ih =>
    rw [Source.splitAtSlash] at h
    split_ifs at h with hslash
    · obtain ⟨rfl, rfl⟩ := Prod.mk.inj (Option.some.inj h)
      rw [Bool.and_eq_true, decide_eq_true_iff] at hslash
      rw [hslash.1, List.nil_append]
    · obtain ⟨⟨raw, rest⟩, hr, heq⟩ := Option.map_eq_some_iff.1 h
      obtain ⟨rfl, rfl⟩ := Prod.mk.inj heq
      rw [ih hr, List.cons_append]

theorem splitAtSlash_eq (s : List Char) :
    splitAtSlash s = some (Source.splitAtSlash false s) := by
  rw [splitAtSlash, slashOffset?_eq]
  cases h : Source.splitAtSlash false s with
  | none => rfl
  | some split =>
    obtain ⟨raw, rest⟩ := split
    have hs := append_of_splitAtSlash h
    have hslash : cutAt? (byteLength raw + 1) s = some (raw ++ ['/'], rest) := by
      rw [hs]
      exact cutAt?_add raw ['/'] rest
    rw [Option.map_some, Nat.zero_add]
    dsimp only
    rw [hslash, hs, cutAt?_byteLength]
    rfl

theorem readBound_eq (s : List Char) : readBound s = sure (Source.readBound s) := by
  unfold readBound
  split
  · rfl
  · rename_i body
    rw [splitAtSlash_eq, lift_some_bind, Source.readBound]
    cases Source.splitAtSlash false body with
    | none => rfl
    | some split =>
      obtain ⟨raw, rest⟩ := split
      dsimp only
      cases Pattern.read (unescapeSlashes raw) <;> rfl
  · -- Neither a dollar nor a slash: the digits are cut off where the first other character stands.
    rename_i hdollar hslash
    rw [Source.readBound.eq_3 _ hdollar hslash]
    have hcut := cutAt?_offset Char.isDigit s
    have hlen := (cutAt?_eq_some_iff.1 hcut).2
    rw [← hlen] at hcut ⊢
    dsimp only
    rw [hcut, lift_some_bind]
    dsimp only
    by_cases hempty : s.takeWhile Char.isDigit = []
    · have hzero : byteLength (s.takeWhile Char.isDigit) = 0 := byteLength_eq_zero_iff.2 hempty
      rw [if_pos hzero, hempty]
      rfl
    · have hzero : ¬ byteLength (s.takeWhile Char.isDigit) = 0 :=
        byteLength_eq_zero_iff.not.2 hempty
      have hsome : ¬ (s.takeWhile Char.isDigit).isEmpty = true := by
        rwa [List.isEmpty_iff]
      rw [if_neg hzero, if_neg hsome]
      exact sure_ite (numberLimit < ofDigits (s.takeWhile Char.isDigit))
        (.error (AddressFault.badNumber _)) (.ok (Bound.line _, _))

theorem findLine_eq (p : Pattern) {lines rest : List (List Char)} {k : Nat}
    (h : lines.drop k = rest) :
    findLine p k rest = (Source.findLine p k rest).map (Spot.inBytes lines) := by
  induction rest generalizing k with
  | nil => rfl
  | cons t r ih =>
    obtain ⟨ht, -, hr⟩ := Pattern.drop_eq_cons h
    rw [findLine, Source.findLine, findEnd?]
    cases p.find? t with
    | none => exact ih hr
    | some m => exact congrArg some (Spot.inBytes_of_getElem? ht m.2).symm

theorem locate_line_eq (n : Nat) (lines : List (List Char)) (start : Spot) :
    locate (.line n) lines (start.inBytes lines) =
      sure (((Bound.line n).locate lines start).map (Spot.inBytes lines)) := by
  rw [locate, Bound.locate]
  by_cases hn : 1 ≤ n ∧ n ≤ lines.length
  · obtain ⟨hpos, hle⟩ := hn
    have ht : lines[n - 1]? = some lines[n - 1] := List.getElem?_eq_getElem (by omega)
    rw [if_pos ⟨hpos, hle⟩, ht, lift_some_bind]
    dsimp only
    rw [if_neg (by omega), Except.map, Spot.inBytes_end ht]
    rfl
  · rw [if_neg hn]
    cases ht : lines[n - 1]? with
    | none => rfl
    | some t =>
      have hlt := (List.getElem?_eq_some_iff.1 ht).1
      dsimp only
      rw [if_pos (by omega)]
      rfl

theorem locate_last_eq (lines : List (List Char)) (start : Spot) :
    locate .last lines (start.inBytes lines) =
      sure ((Bound.last.locate lines start).map (Spot.inBytes lines)) := by
  rw [locate, Bound.locate, List.getLast?_eq_getElem?]
  cases ht : lines[lines.length - 1]? with
  | none => rfl
  | some t =>
    dsimp only [Except.map]
    rw [Spot.inBytes_end ht]
    rfl

theorem locate_pattern_eq (text : List Char) (p : Pattern) (lines : List (List Char))
    (start : Spot) : locate (.pattern text p) lines (start.inBytes lines) =
      sure (((Bound.pattern text p).locate lines start).map (Spot.inBytes lines)) := by
  have hlater := findLine_eq p (@rfl _ (lines.drop (start.line + 1)))
  rw [locate, locate_pattern, searched_self, Spot.inBytes]
  dsimp only
  rw [hlater]
  cases ht : lines[start.line]? with
  | none =>
    dsimp only [Option.map_none, Option.bind_none, Option.none_or]
    cases Source.findLine p (start.line + 1) (lines.drop (start.line + 1)) <;> rfl
  | some t =>
    dsimp only [Option.getD_some, Option.map_some, Option.bind_some]
    rw [cutAt?_take, lift_some_bind]
    dsimp only
    rw [findEnd?]
    cases hm : p.find? (t.drop start.column) with
    | none =>
      dsimp only [Option.map_none, Option.none_or]
      cases Source.findLine p (start.line + 1) (lines.drop (start.line + 1)) <;> rfl
    | some m =>
      -- The bytes up to the end of the match are those in front of the cut and those behind it.
      have hstop : byteLength (t.take start.column) +
          byteLength ((t.drop start.column).take m.2) =
          byteLength (t.take (start.column + m.2)) := by
        rw [List.take_add, Disk.byteLength_append]
      dsimp only [Option.map_some, Option.some_or, Except.map]
      rw [Spot.inBytes_of_getElem? ht, hstop]
      rfl

theorem locate_eq (b : Bound) (lines : List (List Char)) (start : Spot) :
    locate b lines (start.inBytes lines) =
      sure ((b.locate lines start).map (Spot.inBytes lines)) := by
  cases b with
  | line n => exact locate_line_eq n lines start
  | last => exact locate_last_eq lines start
  | pattern text p => exact locate_pattern_eq text p lines start

theorem stopLine_eq (addr : List Char) (lines : List (List Char)) (start : Spot)
    (rest : List Char) : stopLine addr lines (start.inBytes lines) rest =
      sure (Source.stopLine addr lines start rest) := by
  unfold stopLine Source.stopLine
  generalize trimStart rest = s
  rcases s with _ | ⟨c, r⟩
  · rfl
  by_cases hc : c = ','
  · subst hc
    simp only
    rw [readBound_eq]
    cases Source.readBound (trimStart r) with
    | error why => rfl
    | ok read =>
      rw [sure_ok_bind]
      dsimp only [Except.bind]
      rw [locate_eq]
      split_ifs
      · rfl
      · cases read.1.locate lines start <;> rfl
  · simp only [List.cons.injEq, hc, false_and, imp_self, implies_true]
    rfl

theorem resolveAddress_eq (addr : List Char) (lines : List (List Char)) :
    resolveAddress addr lines = sure (Source.resolveAddress addr lines) := by
  rw [resolveAddress]
  by_cases haddr : addr = []
  · rw [haddr]
    rfl
  rw [if_neg (by simpa using haddr), readBound_eq, resolveAddress_of_ne_nil haddr]
  cases Source.readBound addr with
  | error why => rfl
  | ok read =>
    have hzero : (⟨0, 0⟩ : Spot) = (⟨0, 0⟩ : Spot).inBytes lines := by
      rw [Spot.inBytes, List.take_zero]
      rfl
    have hstart := locate_eq read.1 lines ⟨0, 0⟩
    rw [← hzero] at hstart
    rw [sure_ok_bind, hstart, Except.bind]
    cases read.1.locate lines ⟨0, 0⟩ with
    | error why => rfl
    | ok start =>
      rw [Except.map, sure_ok_bind, stopLine_eq, Except.bind]
      cases Source.stopLine addr lines start read.2 with
      | error why => rfl
      | ok stop =>
        rw [sure_ok_bind, Except.bind]
        exact sure_ite (stop < start.line) (.error (AddressFault.reversed addr))
          (.ok (Range.mk start.line (stop + 1)))

theorem readExcerptLine_eq (command : List Char) (fuel : Nat) (edit numbers : Bool)
    (s : List Char) : readExcerptLine command fuel edit numbers s =
      sure (Source.readExcerptLine command fuel edit numbers s) := by
  induction fuel generalizing edit numbers s with
  | zero => rfl
  | succ fuel ih =>
    rw [readExcerptLine, Source.readExcerptLine, nextField_eq, lift_some_bind]
    dsimp only
    split_ifs
    · rfl
    · exact ih true numbers _
    · exact ih edit true _
    · rfl
    · rfl

theorem slice?_eq {α : Type} {lo hi : Nat} {l : List α} (hle : lo ≤ hi) (hhi : hi ≤ l.length) :
    slice? lo hi l = some ((l.take hi).drop lo) :=
  if_pos ⟨hle, hhi⟩

theorem excerpt_eq {range : Range} {lines : List (List Char)} (hle : range.lo ≤ range.hi)
    (hhi : range.hi ≤ lines.length) (l : ExcerptLine) (play : Bool) :
    excerpt l play range lines = some (Source.excerpt l play range lines) := by
  have hlines : ((lines.take range.hi).drop range.lo).zipIdx.filterMap (fun (text, i) =>
      if isOmitted text then none
      else some (⟨range.lo + i + 1, String.ofList text⟩ : CodeLine)) =
      excerptLines range lines := by
    rw [excerptLines, drop_zipIdx, List.zipIdx_eq_map_add (i := range.lo), List.filterMap_map]
    rfl
  have hshown := slice?_eq hle hhi
  have hfront := slice?_eq (Nat.zero_le range.lo) (hle.trans hhi)
  have hbehind := slice?_eq hhi le_rfl
  rw [List.drop_zero] at hfront
  rw [List.take_length] at hbehind
  rw [excerpt, hshown, hfront, hbehind]
  cases play <;> simp [Source.excerpt, hlines]

theorem readExcerpt_eq (files : Files) (base : Path) (text : List Char) :
    readExcerpt files base text = sure (Source.readExcerpt files base text) := by
  rw [readExcerpt, Source.readExcerpt, nextField_eq, lift_some_bind]
  dsimp only
  rw [readExcerptLine_eq]
  cases Source.readExcerptLine text (text.length + 1) false false (Text.nextField text).2 with
  | error why => rfl
  | ok l =>
    rw [sure_ok_bind]
    dsimp only [bind, Except.bind]
    cases files (base.join ⟨l.file⟩) with
    | error why => rfl
    | ok contents =>
      dsimp only
      rw [resolveAddress_eq]
      cases haddr : Source.resolveAddress (trim l.address) (Text.lines contents.toList) with
      | error why => rfl
      | ok range =>
        obtain ⟨hle, hhi, -⟩ := resolveAddress_bounds haddr
        exact congrArg (fun code : Option Code => (liftM code : ExceptT Problem Option Code))
          (excerpt_eq hle hhi l _)

end Sliced

/-! ## Excerpts of addressed lines -/

/-- An excerpt has exactly the addressed lines of its file, and reading it cuts nothing out of range
or inside of a character. Where the file lacks an end of the address, or the second end stands in
front of the first one, there is no excerpt. -/
theorem readExcerpt_addressed (files : Files) (base : Path) (text : List Char) :
    Sliced.readExcerpt files base text = sure (readExcerpt files base text) ∧
      (∀ code, readExcerpt files base text = .ok code →
        ∃ l contents lo hi,
          readExcerptLine text (text.length + 1) false false (nextField text).2 = .ok l ∧
          files (base.join ⟨l.file⟩) = .ok contents ∧
          resolveAddress (trim l.address) (Text.lines contents.toList) = .ok ⟨lo, hi⟩ ∧
          lo ≤ hi ∧ hi ≤ (Text.lines contents.toList).length ∧ (trim l.address ≠ [] → lo < hi) ∧
          IsExcerptOf (Text.lines contents.toList) ((nextField text).1 = ".play".toList) lo hi
            code) ∧
      ∀ l contents,
        readExcerptLine text (text.length + 1) false false (nextField text).2 = .ok l →
        files (base.join ⟨l.file⟩) = .ok contents →
        PicksNothing (Text.lines contents.toList) (trim l.address) →
        ∃ why, readExcerpt files base text = .error (.badAddress l.file why) := by
  refine ⟨Sliced.readExcerpt_eq files base text, fun code hcode => ?_,
    fun l contents hl hcontents hnothing => ?_⟩
  · obtain ⟨l, contents, ⟨lo, hi⟩, hl, hcontents, haddr, rfl⟩ := readExcerpt_eq_ok_iff.1 hcode
    obtain ⟨hle, hhi, hlt⟩ := resolveAddress_bounds haddr
    exact ⟨l, contents, lo, hi, hl, hcontents, haddr, hle, hhi, hlt,
      isExcerptOf_excerpt l _ ⟨lo, hi⟩ _⟩
  · cases haddr : resolveAddress (trim l.address) (Text.lines contents.toList) with
    | error why => exact ⟨why, readExcerpt_of_resolveAddress hl hcontents haddr⟩
    | ok range => exact absurd haddr (hnothing.ne_ok range)

/-- A program with three lines, the second one of which is to be left out. -/
def accentedProgram : String := "un\né // OMIT\nété\n"

/-- The excerpt of the program from the first `é` on. -/
def accentedCode : Code where
  fileName := "a.txt"
  ext := ".txt"
  play := true
  lines := [⟨3, "été"⟩]
  before := "un\n"

theorem readExcerpt_addressed_accentedProgram :
    readExcerpt (fun _ => .ok accentedProgram) ⟨[]⟩ ".play a.txt /é/,$".toList =
        .ok accentedCode ∧
      (∃ lo hi, lo < hi ∧ hi ≤ 3 ∧
        IsExcerptOf (Text.lines accentedProgram.toList) true lo hi accentedCode) ∧
      ∃ file why, readExcerpt (fun _ => .ok accentedProgram) ⟨[]⟩ ".play a.txt 4,$".toList =
        .error (.badAddress file why) := by
  have hread : readExcerpt (fun _ => .ok accentedProgram) ⟨[]⟩ ".play a.txt /é/,$".toList =
      .ok accentedCode := by decide +kernel
  -- The address of a command that is read, as a value that can be compared.
  have haddress {text addr : List Char} {n : Nat} {l : ExcerptLine}
      (h : (readExcerptLine text n false false (nextField text).2).toOption.map (·.address) =
        some addr)
      (hl : readExcerptLine text n false false (nextField text).2 = .ok l) :
      l.address = addr := by
    rw [hl] at h
    exact Option.some.inj h
  obtain ⟨-, hok, -⟩ := readExcerpt_addressed (fun _ => .ok accentedProgram) ⟨[]⟩
    ".play a.txt /é/,$".toList
  obtain ⟨-, -, herror⟩ := readExcerpt_addressed (fun _ => .ok accentedProgram) ⟨[]⟩
    ".play a.txt 4,$".toList
  refine ⟨hread, ?_, ?_⟩
  · obtain ⟨l, contents, lo, hi, hl, hcontents, -, -, hhi, hlt, hcode⟩ := hok _ hread
    obtain rfl : accentedProgram = contents := Except.ok.inj hcontents
    have haddr : l.address = " /é/,$".toList := haddress (by decide +kernel) hl
    rw [haddr] at hlt
    exact ⟨lo, hi, hlt (by decide +kernel), hhi, hcode⟩
  · cases hl : readExcerptLine ".play a.txt 4,$".toList (".play a.txt 4,$".toList.length + 1) false
        false (nextField ".play a.txt 4,$".toList).2 with
    | error why =>
      have hsome : (readExcerptLine ".play a.txt 4,$".toList 16 false false
          (nextField ".play a.txt 4,$".toList).2).toOption.isSome = true := by decide +kernel
      rw [show readExcerptLine _ 16 _ _ _ = _ from hl] at hsome
      cases hsome
    | ok l =>
      have haddr : l.address = " 4,$".toList := haddress (by decide +kernel) hl
      have hmissing : StartsMissing (Text.lines accentedProgram.toList) (['4'] ++ [',', '$']) :=
        .number (List.cons_ne_nil _ _) (by simp) (stopsDigits_cons rfl _) (by decide)
      have hnothing : PicksNothing (Text.lines accentedProgram.toList) (trim l.address) := by
        rw [haddr]
        exact .first hmissing
      obtain ⟨why, hwhy⟩ := herror l _ hl rfl hnothing
      exact ⟨l.file, why, hwhy⟩

end Lectern.Source
