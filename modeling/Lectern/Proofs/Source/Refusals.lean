import Mathlib
import Lectern.Proofs.Source.Comments
import Lectern.Proofs.Source.Notes

/-!
# Why a source is refused

A source that is refused is refused at a line of its own or at its end. A problem at a line is one
of this line (`Concerns`), and each stage of reading finds it whatever lines stand behind, and
whatever files there are that the lines up to this one do not refer to. `read_error_at_line` puts
the stages together.
-/

namespace Lectern.Source

open Text

variable {files files' : Files} {base : Path} {text : List Char} {problem : Problem}

/-! ## Problems of a line -/

/-- The line that the wording of a problem quotes, if it quotes one (`message_of_quotedLine?`). -/
def Problem.quotedLine? : Problem → Option (List Char)
  | headerLine t | strayLine t | unknownCommand t | badInvocation t | missingFileName t => some t
  | missingTitle | unfinishedHeader | unknownFlag _ | unreadableFile _ _ | badAddress _ _ => none

/-- The problems of the end of a source. -/
def Problem.IsOfEnd : Problem → Prop
  | missingTitle | unfinishedHeader => True
  | _ => False

/-- The problems of commands. -/
def Problem.IsOfCommand : Problem → Prop
  | unknownCommand _ | badInvocation _ | missingFileName _ | unknownFlag _ | unreadableFile _ _
  | badAddress _ _ => True
  | missingTitle | unfinishedHeader | headerLine _ | strayLine _ => False

/-- The problem is one of the line: if its wording quotes a line, it is this one, and if it is a
problem of a command, the line starts with a dot and is refused for it as a command. -/
structure Concerns (files : Files) (base : Path) (line : List Char) (problem : Problem) : Prop where
  within : ¬ problem.IsOfEnd
  quoted : ∀ t, problem.quotedLine? = some t → line = t
  command : problem.IsOfCommand →
    line.head? = some '.' ∧ readCommand files base line = .error problem

/-- What quotes a line quotes it at the end of its wording. -/
theorem message_of_quotedLine? {t : List Char} (h : problem.quotedLine? = some t) :
    ∃ lead, problem.message = lead ++ quote t := by
  cases problem with
  | headerLine _ | strayLine _ | unknownCommand _ | badInvocation _ | missingFileName _ =>
    obtain rfl := Option.some.inj h
    exact ⟨_, rfl⟩
  | _ => cases h

/-- The problems for which a line is refused as a command. -/
inductive RefusedFor (text : List Char) : Problem → Prop
  | unknownCommand : RefusedFor text (.unknownCommand text)
  | badInvocation : RefusedFor text (.badInvocation text)
  | missingFileName : RefusedFor text (.missingFileName text)
  | unknownFlag (flag : List Char) : RefusedFor text (.unknownFlag flag)
  | unreadableFile (path : Path) (why : Fault) : RefusedFor text (.unreadableFile path why)
  | badAddress (file : List Char) (why : AddressFault) : RefusedFor text (.badAddress file why)

theorem readExcerptLine_eq_error {fuel : Nat} {edit numbers : Bool} {s : List Char}
    (h : readExcerptLine text fuel edit numbers s = .error problem) : RefusedFor text problem := by
  induction fuel generalizing edit numbers s with
  | zero =>
    obtain rfl := Except.error.inj h
    exact .missingFileName
  | succ fuel ih =>
    rw [readExcerptLine] at h
    dsimp only at h
    split_ifs at h
    · obtain rfl := Except.error.inj h
      exact .missingFileName
    · exact ih h
    · exact ih h
    · obtain rfl := Except.error.inj h
      exact .unknownFlag _

theorem readExcerpt_eq_error (h : readExcerpt files base text = .error problem) :
    RefusedFor text problem := by
  unfold readExcerpt at h
  dsimp only [bind, Except.bind] at h
  cases hl : readExcerptLine text (text.length + 1) false false (nextField text).2 with
  | error problem' =>
    rw [hl] at h
    obtain rfl := Except.error.inj h
    exact readExcerptLine_eq_error hl
  | ok l =>
    rw [hl] at h
    dsimp only at h
    split at h
    · obtain rfl := Except.error.inj h
      exact .unreadableFile _ _
    · split at h
      · obtain rfl := Except.error.inj h
        exact .badAddress _ _
      · cases h

/-- A line is refused as a command for a problem of commands, which quotes no other line. -/
theorem readCommand_eq_error (h : readCommand files base text = .error problem) :
    RefusedFor text problem := by
  unfold readCommand at h
  dsimp only at h
  split at h
  case h_2 | h_3 => exact readExcerpt_eq_error (map_eq_error h)
  case h_8 =>
    split at h
    · obtain rfl := Except.error.inj h
      exact .badInvocation
    · split at h
      · cases h
      · obtain rfl := Except.error.inj h
        exact .unreadableFile _ _
  case h_9 =>
    obtain rfl := Except.error.inj h
    exact .unknownCommand
  case h_7 => cases h
  all_goals
    split at h
    all_goals first
      | cases h; done
      | obtain rfl := Except.error.inj h
        exact .badInvocation

theorem concerns_command (hdot : text.head? = some '.')
    (h : readCommand files base text = .error problem) : Concerns files base text problem := by
  have hfor := readCommand_eq_error h
  refine ⟨?_, fun t ht => ?_, fun _ => ⟨hdot, h⟩⟩
  · cases hfor <;> exact id
  · cases hfor with
    | unknownCommand | badInvocation | missingFileName => exact Option.some.inj ht
    | unknownFlag | unreadableFile | badAddress => cases ht

theorem concerns_strayLine (text : List Char) : Concerns files base text (.strayLine text) :=
  ⟨id, fun _ ht => Option.some.inj ht, False.elim⟩

theorem concerns_headerLine (text : List Char) : Concerns files base text (.headerLine text) :=
  ⟨id, fun _ ht => Option.some.inj ht, False.elim⟩

/-! ## Problems of lines of the header and of the body -/

theorem headerLine_eq_error {d : Document} (h : headerLine d text = .error problem) :
    Concerns files base text problem := by
  unfold headerLine at h
  -- all kinds of lines but the last are read
  iterate 6
    split at h
    next => cases h
  obtain rfl := Except.error.inj h
  exact concerns_headerLine text

theorem beginBlock_eq_error {depth : Nat} (h : beginBlock files base depth text = .error problem) :
    Concerns files base text problem := by
  unfold beginBlock at h
  dsimp only at h
  split at h
  · split at h <;> cases h
  split at h
  · cases h
  split at h
  · cases h
  split at h
  next hdot =>
    exact concerns_command hdot (map_eq_error h)
  next => cases h

theorem beginLine_eq_error {depth : Nat} (h : beginLine files base depth text = .error problem) :
    Concerns files base text problem := by
  unfold beginLine at h
  split at h
  · cases h
  split at h
  · split at h
    · cases h
    · split at h
      · obtain rfl := Except.error.inj h
        exact concerns_strayLine text
      · exact beginBlock_eq_error h
  all_goals
    split at h
    · obtain rfl := Except.error.inj h
      exact concerns_strayLine text
    · exact beginBlock_eq_error h

theorem closeAndBegin_eq_error {st : State}
    (h : closeAndBegin files base st text = .error problem) : Concerns files base text problem := by
  unfold closeAndBegin at h
  exact beginLine_eq_error (map_eq_error h)

theorem readLine_eq_error {st : State} (h : readLine files base st text = .error problem) :
    Concerns files base text problem := by
  unfold readLine at h
  split at h
  case h_1 => exact closeAndBegin_eq_error h
  case h_2 =>
    split at h
    · cases h
    · split at h
      · exact closeAndBegin_eq_error h
      · cases h
  case h_3 =>
    split at h
    · cases h
    · exact closeAndBegin_eq_error h
  case h_4 =>
    split at h
    · cases h
    · split at h
      · cases h
      · exact closeAndBegin_eq_error h

/-! ## Refusals at a line -/

/-- The lines are refused at one of them, for a problem of this line; and so are, with any other
files that are the same where the lines up to this one refer to them, all lines that start with
these. A reading also depends on the number of the place behind the last line. -/
def Refuses {α : Type} (files : Files) (base : Path)
    (run : Files → Nat → List Line → Except Located α) (lines : List Line) (why : Located) : Prop :=
  ∃ before l after, lines = before ++ l :: after ∧ why.line = l.number ∧
    Concerns files base l.text why.problem ∧
    ∀ (files' : Files) (stop : Nat) (after' : List Line),
      SameReferences files files' base ((before ++ [l]).map (·.text)) →
        run files' stop (before ++ l :: after') = .error why

/-- What a reading does with lines behind others, it does with them all. -/
theorem Refuses.behind {α β : Type} {run : Files → Nat → List Line → Except Located α}
    {run' : Files → Nat → List Line → Except Located β} {front rest : List Line} {why : Located}
    (h : Refuses files base run rest why)
    (hrun : ∀ (files' : Files) (stop : Nat) (rest' : List Line),
      SameReferences files files' base (front.map (·.text)) → rest'.head? = rest.head? →
        run files' stop rest' = .error why → run' files' stop (front ++ rest') = .error why) :
    Refuses files base run' (front ++ rest) why := by
  obtain ⟨before, l, after, rfl, hline, hconcerns, hstable⟩ := h
  refine ⟨front ++ before, l, after, (List.append_assoc ..).symm, hline, hconcerns, ?_⟩
  intro files' stop after' hsame
  rw [List.append_assoc, List.map_append] at hsame
  rw [List.append_assoc]
  refine hrun files' stop _ (fun t ht => hsame t (List.mem_append_left _ ht)) ?_
    (hstable files' stop after' fun t ht => hsame t (List.mem_append_right _ ht))
  cases before <;> rfl

/-- What a reading does behind a line that it has read, it does with this line as well. -/
theorem Refuses.cons {α β : Type} {run : Files → Nat → List Line → Except Located α}
    {run' : Files → Nat → List Line → Except Located β} {l : Line} {rest : List Line}
    {why : Located} (h : Refuses files base run rest why)
    (hrun : ∀ (files' : Files) (stop : Nat) (rest' : List Line),
      (∀ p ∈ referencedFile? base l.text, files p = files' p) →
        run files' stop rest' = .error why → run' files' stop (l :: rest') = .error why) :
    Refuses files base run' (l :: rest) why := by
  rw [← List.singleton_append]
  exact h.behind fun files' stop rest' hsame _ =>
    hrun files' stop rest' (hsame l.text (List.mem_singleton_self _))

theorem refuses_first {α : Type} {run : Files → Nat → List Line → Except Located α} {l : Line}
    (h : Concerns files base l.text problem)
    (hrun : ∀ (files' : Files) (stop : Nat) (r : List Line),
      (∀ p ∈ referencedFile? base l.text, files p = files' p) →
        run files' stop (l :: r) = .error ⟨l.number, problem⟩) (r : List Line) :
    Refuses files base run (l :: r) ⟨l.number, problem⟩ :=
  ⟨[], l, r, rfl, rfl, h, fun files' stop after' hsame =>
    hrun files' stop after' (hsame l.text (List.mem_singleton_self _))⟩

/-! ### Headers -/

theorem readHeaderLines_eq_error {stop : Nat} {d : Document} {lines : List Line} {why : Located}
    (h : readHeaderLines stop d lines = .error why) :
    (why.line = stop ∧ why.problem.IsOfEnd) ∨
      Refuses files base (fun _ stop lines => readHeaderLines stop d lines) lines why := by
  induction lines generalizing d with
  | nil =>
    obtain rfl := Except.error.inj h
    exact .inl ⟨rfl, trivial⟩
  | cons l r ih =>
    rw [readHeaderLines] at h
    split_ifs at h with hempty
    cases hline : headerLine d l.text with
    | error problem =>
      rw [hline] at h
      obtain rfl := Except.error.inj h
      refine .inr (refuses_first (headerLine_eq_error hline) (fun _ _ r' _ => ?_) r)
      rw [readHeaderLines, if_neg hempty, hline]
    | ok d₁ =>
      rw [hline] at h
      refine (ih h).imp_right fun hrefuses => hrefuses.cons fun _ stop' r' _ h' => ?_
      rw [readHeaderLines, if_neg hempty, hline]
      exact h'

/-- A header is refused at a line of its own, or because the source ends. -/
theorem readHeader_eq_error {stop : Nat} {lines : List Line} {why : Located}
    (h : readHeader stop lines = .error why) :
    (why.line = stop ∧ why.problem.IsOfEnd) ∨
      Refuses files base (fun _ => readHeader) lines why := by
  induction lines with
  | nil =>
    obtain rfl := Except.error.inj h
    exact .inl ⟨rfl, trivial⟩
  | cons l r ih =>
    rw [readHeader] at h
    split_ifs at h with hempty
    · refine (ih h).imp_right fun hrefuses => hrefuses.cons fun _ stop' r' _ h' => ?_
      rw [readHeader, if_pos hempty]
      exact h'
    · refine (readHeaderLines_eq_error h).imp_right fun hrefuses =>
        hrefuses.cons fun _ stop' r' _ h' => ?_
      rw [readHeader, if_neg hempty]
      exact h'

/-! ### Bodies -/

/-- Items are refused at one of their lines only: blocks end where the source ends. -/
theorem readItems_eq_error {st : State} {lines : List Line} {why : Located}
    (h : readItems files base st lines = .error why) :
    Refuses files base (fun files' _ lines => readItems files' base st lines) lines why := by
  induction lines generalizing st with
  | nil => cases h
  | cons l r ih =>
    rw [readItems] at h
    cases hline : readLine files base st l.text with
    | error problem =>
      rw [hline] at h
      obtain rfl := Except.error.inj h
      refine refuses_first (readLine_eq_error hline) (fun files' _ r' hsame => ?_) r
      rw [readItems, ← readLine_congr hsame, hline]
    | ok read =>
      obtain ⟨items, st'⟩ := read
      rw [hline] at h
      refine (ih (map_eq_error h)).cons fun files' _ r' hsame h' => ?_
      rw [readItems, ← readLine_congr hsame, hline]
      exact congrArg (Except.map (items ++ ·)) h'

/-- The authors are read from any lines; the items behind them may be refused. -/
theorem readBody_eq_error {d : Document} {lines : List Line} {why : Located}
    (h : readBody files base d lines = .error why) :
    Refuses files base (fun files' _ lines => readBody files' base d lines) lines why := by
  unfold readBody at h
  have hrefuses := readItems_eq_error (map_eq_error h)
  have hsplit : lines.takeWhile (·.text.head? ≠ some '*') ++ (readAuthors [] lines).2 = lines := by
    rw [readAuthors_rest, List.takeWhile_append_dropWhile]
  rw [← hsplit]
  refine hrefuses.behind fun files' stop rest hsame hhead h' => ?_
  -- the items start at the first line with a star, which is the same in the other lines
  have hrest : (readAuthors [] (lines.takeWhile (·.text.head? ≠ some '*') ++ rest)).2 = rest := by
    rw [readAuthors_rest] at hhead ⊢
    rw [List.dropWhile_append_of_pos fun l hl =>
      List.mem_takeWhile_imp (p := fun l : Line => decide (l.text.head? ≠ some '*')) hl]
    cases rest with
    | nil => rfl
    | cons l r =>
      have hstar := List.head?_dropWhile_not (fun l : Line => decide (l.text.head? ≠ some '*')) lines
      rw [← hhead] at hstar
      exact List.dropWhile_cons_of_neg (by simpa using hstar)
  show ((readItems files' base {} _).map _) = _
  rw [hrest, h']
  rfl

/-- Reads numbered lines as a source; `stop` is the number of the place behind the last one. -/
def readNumbered (base : Path) (mode : Mode) (files : Files) (stop : Nat) (lines : List Line) :
    Except Located Document := do
  let (d, rest) ← readHeader stop lines
  match mode with
  | .titlesOnly => pure d
  | .full => readBody files base d rest

theorem readLines_eq_readNumbered (mode : Mode) (texts : List (List Char)) :
    readLines files base mode texts =
      readNumbered base mode files (texts.length + 1) (numbered texts) := rfl

/-- A source is refused at a line of its own, or because it ends. -/
theorem readNumbered_eq_error {mode : Mode} {stop : Nat} {lines : List Line} {why : Located}
    (h : readNumbered base mode files stop lines = .error why) :
    (why.line = stop ∧ why.problem.IsOfEnd) ∨
      Refuses files base (readNumbered base mode) lines why := by
  unfold readNumbered at h
  cases hheader : readHeader stop lines with
  | error why' =>
    rw [hheader] at h
    obtain rfl := Except.error.inj h
    rw [← List.nil_append lines]
    refine (readHeader_eq_error hheader).imp_right fun hrefuses =>
      hrefuses.behind fun files' stop' rest' _ _ h' => ?_
    show readHeader stop' rest' >>= _ = _
    rw [h']
    rfl
  | ok header =>
    obtain ⟨d, rest⟩ := header
    rw [hheader] at h
    obtain ⟨front, rfl, hfront⟩ := readHeader_eq_ok hheader
    cases mode with
    | titlesOnly => cases h
    | full =>
      refine .inr ((readBody_eq_error h).behind fun files' stop' rest' _ _ h' => ?_)
      show readHeader stop' (front ++ rest') >>= _ = _
      rw [hfront]
      exact h'

/-! ## Lines of a source -/

/-- A line with its number is a line of the source at that place, and no comment; in front of it
stand the numbered lines of those in front of its place. -/
theorem numberedFrom_eq_append {first : Nat} {texts : List (List Char)} {before after : List Line}
    {l : Line} (h : numberedFrom first texts = before ++ l :: after) :
    ∃ front behind, texts = front ++ l.text :: behind ∧ before = numberedFrom first front ∧
      l.number = first + front.length ∧ isComment l.text = false := by
  induction texts generalizing first before with
  | nil => cases before <;> cases h
  | cons t r ih =>
    cases ht : isComment t with
    | true =>
      rw [numberedFrom_cons_comment ht] at h
      obtain ⟨front, behind, rfl, rfl, hnumber, hl⟩ := ih h
      refine ⟨t :: front, behind, rfl, (numberedFrom_cons_comment ht first front).symm, ?_, hl⟩
      rw [hnumber, List.length_cons]
      omega
    | false =>
      rw [numberedFrom_cons_line ht] at h
      cases before with
      | nil =>
        obtain ⟨rfl, -⟩ := List.cons.inj h
        exact ⟨[], r, rfl, rfl, rfl, ht⟩
      | cons l' before =>
        obtain ⟨rfl, hr⟩ := List.cons.inj h
        obtain ⟨front, behind, rfl, rfl, hnumber, hl⟩ := ih hr
        refine ⟨t :: front, behind, rfl, (numberedFrom_cons_line ht first front).symm, ?_, hl⟩
        rw [hnumber, List.length_cons]
        omega

theorem readLines_eq_error {mode : Mode} {texts : List (List Char)} {n : Nat}
    (h : readLines files base mode texts = .error ⟨n, problem⟩) :
    (n = texts.length + 1 ∧ problem.IsOfEnd) ∨
      ∃ front line behind, texts = front ++ line :: behind ∧ n = front.length + 1 ∧
        isComment line = false ∧ Concerns files base line problem ∧
        ∀ (files' : Files) (behind' : List (List Char)),
          SameReferences files files' base (front ++ [line]) →
            readLines files' base mode (front ++ line :: behind') = .error ⟨n, problem⟩ := by
  rw [readLines_eq_readNumbered] at h
  refine (readNumbered_eq_error h).imp_right ?_
  rintro ⟨before, l, after, hlines, hline, hconcerns, hstable⟩
  have hnumbered : numberedFrom 1 texts = before ++ l :: after := hlines
  obtain ⟨front, behind, rfl, rfl, hnumber, hcomment⟩ := numberedFrom_eq_append hnumbered
  refine ⟨front, l.text, behind, rfl, ?_, hcomment, hconcerns, fun files' behind' hsame => ?_⟩
  · have hn : n = l.number := hline
    omega
  rw [readLines_eq_readNumbered, numbered_append]
  have hcons : numberedFrom (1 + front.length) (l.text :: behind') =
      l :: numberedFrom (1 + front.length + 1) behind' := by
    rw [numberedFrom_cons_line hcomment, ← hnumber]
  rw [hcons]
  refine hstable files' _ _ fun t ht => ?_
  rw [List.map_append, List.mem_append, map_text_numberedFrom] at ht
  cases ht with
  | inl ht => exact hsame t (List.mem_append_left _ (List.mem_of_mem_filter ht))
  | inr ht => exact hsame t (List.mem_append_right _ ht)

/-- A source that is refused is refused at a line of its own or at its end, and the wording says
at which. The line is no comment, and the problem is one of this line; it is the same whatever
lines stand behind, and whatever is in the files that no line up to this one refers to. -/
theorem read_error_at_line {name : Path} {mode : Mode} {text : String} {why : Failure}
    (h : read files name mode text = .error why) :
    ∃ n problem, why = .atLine name ⟨n, problem⟩ ∧
      why.message = name.chars ++ ':' :: Nat.toDigits 10 n ++ (": ".toList ++ problem.message) ∧
      1 ≤ n ∧ n ≤ (lines text.toList).length + 1 ∧
      (n = (lines text.toList).length + 1 ↔ problem.IsOfEnd) ∧
      (n ≤ (lines text.toList).length →
        (∃ line, (lines text.toList)[n - 1]? = some line ∧ isComment line = false ∧
          Concerns files name.parent line problem) ∧
        ∀ (files' : Files) (text' : String),
          (lines text'.toList).take n = (lines text.toList).take n →
          SameReferences files files' name.parent ((lines text.toList).take n) →
          read files' name mode text' = .error why) := by
  unfold read at h
  split at h
  · cases h
  rename_i what hread
  obtain ⟨n, problem⟩ := what
  obtain rfl := Except.error.inj h
  refine ⟨n, problem, rfl, message_atLine name problem n, ?_⟩
  rcases readLines_eq_error hread with ⟨rfl, hend⟩ | ⟨front, line, behind, htexts, rfl, hrest⟩
  · exact ⟨Nat.le_add_left .., Nat.le_refl _, ⟨fun _ => hend, fun _ => rfl⟩,
      fun hle => absurd hle (Nat.not_succ_le_self _)⟩
  obtain ⟨hcomment, hconcerns, hstable⟩ := hrest
  have hlength : (lines text.toList).length = front.length + (behind.length + 1) := by
    rw [htexts, List.length_append, List.length_cons]
  have htake : (lines text.toList).take (front.length + 1) = front ++ [line] := by
    rw [htexts, List.take_length_add_append, List.take_succ_cons, List.take_zero]
  refine ⟨Nat.le_add_left .., by omega, ⟨fun hn => by omega, fun hend => ?_⟩, fun _ => ⟨⟨line, ?_,
    hcomment, hconcerns⟩, fun files' text' hsame hfiles => ?_⟩⟩
  · exact absurd hend hconcerns.within
  · rw [htexts, Nat.add_sub_cancel, List.getElem?_append_right (Nat.le_refl _), Nat.sub_self]
    rfl
  · rw [htake] at hsame hfiles
    have htexts' : lines text'.toList =
        front ++ line :: (lines text'.toList).drop (front.length + 1) := by
      conv_lhs => rw [← List.take_append_drop (front.length + 1) (lines text'.toList), hsame]
      rw [List.append_assoc, List.singleton_append]
    unfold read
    rw [htexts', hstable files' _ hfiles]

/-- A source with comments, and with a command in the middle that does not exist. -/
def mistypedTalk : String := "# by\nTalk\n\n# one\n* One\n- a\n.nope b\n\n.code x.go\n"

theorem read_error_at_line_mistypedTalk :
    ∃ n problem,
      read (fun _ => .error .notFound) (Path.ofString "talk.slide") .full mistypedTalk =
        .error (.atLine (Path.ofString "talk.slide") ⟨n, problem⟩) ∧
      1 ≤ n ∧ ¬ problem.IsOfEnd ∧
      (∃ line, (lines mistypedTalk.toList)[n - 1]? = some line ∧ isComment line = false ∧
        Concerns (fun _ => .error .notFound) (Path.ofString "talk.slide").parent line problem) ∧
      read (fun _ => .ok "package x\n") (Path.ofString "talk.slide") .full
          "# by\nTalk\n\n# one\n* One\n- a\n.nope b\n* Two" =
        .error (.atLine (Path.ofString "talk.slide") ⟨n, problem⟩) := by
  have hread : read (fun _ => .error .notFound) (Path.ofString "talk.slide") .full mistypedTalk =
      .error (.atLine (Path.ofString "talk.slide") ⟨7, .unknownCommand ".nope b".toList⟩) := by cbv
  obtain ⟨n, problem, hwhy, -, hpos, -, hend, hline⟩ := read_error_at_line hread
  obtain ⟨rfl, rfl⟩ := Located.mk.inj (Failure.atLine.inj hwhy).2
  obtain ⟨hconcerns, hstable⟩ := hline (by decide)
  have hnone : ∀ t ∈ (lines mistypedTalk.toList).take 7,
      referencedFile? (Path.ofString "talk.slide").parent t = none := by decide
  refine ⟨7, _, hread, hpos, fun h => absurd (hend.2 h) (by decide), hconcerns,
    hstable _ _ (by decide) fun t ht p hp => ?_⟩
  rw [hnone t ht] at hp
  cases hp

end Lectern.Source
