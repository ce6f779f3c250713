import Mathlib
import Lectern.Proofs.Source.Joining

/-!
# Sources with and without their comments

A source is read as if its comments were not there. The two runs are kept in step by a relation
between the numbers of their lines: they give the same document, or are refused for the same
problem at lines that correspond (`read_withoutComments`). Every source has one without its comments
(`exists_lines_withoutComments`).
-/

namespace Lectern.Source

open Text

/-! ## Two readings of the same lines -/

variable {R : Nat → Nat → Prop}

/-- The lines have the same text, and their numbers correspond. -/
structure Line.Matches (R : Nat → Nat → Prop) (l l' : Line) : Prop where
  text : l.text = l'.text
  number : R l.number l'.number

/-- Two readings give related results, or the same problem at lines that correspond. -/
inductive Alike (R : Nat → Nat → Prop) {α : Type} (Q : α → α → Prop) :
    Except Located α → Except Located α → Prop
  | ok {a a' : α} (h : Q a a') : Alike R Q (.ok a) (.ok a')
  | error {n n' : Nat} {problem : Problem} (h : R n n') :
      Alike R Q (.error ⟨n, problem⟩) (.error ⟨n', problem⟩)

theorem Alike.map {α β : Type} {Q : α → α → Prop} {Q' : β → β → Prop}
    {x x' : Except Located α} {f f' : α → β} (h : Alike R Q x x')
    (hf : ∀ a a', Q a a' → Q' (f a) (f' a')) : Alike R Q' (x.map f) (x'.map f') := by
  cases h with
  | ok h => exact .ok (hf _ _ h)
  | error h => exact .error h

theorem Alike.bind {α β : Type} {Q : α → α → Prop} {Q' : β → β → Prop}
    {x x' : Except Located α} {f f' : α → Except Located β} (h : Alike R Q x x')
    (hf : ∀ a a', Q a a' → Alike R Q' (f a) (f' a')) : Alike R Q' (x >>= f) (x' >>= f') := by
  cases h with
  | ok h => exact hf _ _ h
  | error h => exact .error h

/-- A header is the same, and the lines behind it match. -/
def SameHeader (R : Nat → Nat → Prop) (p p' : Document × List Line) : Prop :=
  p.1 = p'.1 ∧ List.Forall₂ (Line.Matches R) p.2 p'.2

theorem readHeaderLines_alike {stop stop' : Nat} (hstop : R stop stop') {lines lines' : List Line}
    (h : List.Forall₂ (Line.Matches R) lines lines') (d : Document) :
    Alike R (SameHeader R) (readHeaderLines stop d lines) (readHeaderLines stop' d lines') := by
  induction h generalizing d with
  | nil => exact .error hstop
  | @cons l l' r r' hl hr ih =>
    rw [readHeaderLines, readHeaderLines, hl.text]
    by_cases hempty : l'.text.isEmpty = true
    · rw [if_pos hempty, if_pos hempty]
      exact .ok ⟨rfl, hr⟩
    · rw [if_neg hempty, if_neg hempty]
      cases headerLine d l'.text with
      | ok d => exact ih d
      | error problem => exact .error hl.number

theorem readHeader_alike {stop stop' : Nat} (hstop : R stop stop') {lines lines' : List Line}
    (h : List.Forall₂ (Line.Matches R) lines lines') :
    Alike R (SameHeader R) (readHeader stop lines) (readHeader stop' lines') := by
  induction h with
  | nil => exact .error hstop
  | @cons l l' r r' hl hr ih =>
    rw [readHeader, readHeader, hl.text]
    by_cases hempty : l'.text.isEmpty = true
    · rw [if_pos hempty, if_pos hempty]
      exact ih
    · rw [if_neg hempty, if_neg hempty]
      exact readHeaderLines_alike hstop hr _

theorem readAuthors_alike {lines lines' : List Line}
    (h : List.Forall₂ (Line.Matches R) lines lines') (elems : List Element) :
    (readAuthors elems lines).1 = (readAuthors elems lines').1 ∧
      List.Forall₂ (Line.Matches R) (readAuthors elems lines).2 (readAuthors elems lines').2 := by
  induction h generalizing elems with
  | nil => exact ⟨rfl, .nil⟩
  | @cons l l' r r' hl hr ih =>
    rw [readAuthors, readAuthors, hl.text]
    by_cases hstar : l'.text.head? = some '*'
    · rw [if_pos hstar, if_pos hstar]
      exact ⟨rfl, .cons hl hr⟩
    by_cases hnote : (noteText? l'.text).isSome = true
    · rw [if_neg hstar, if_neg hstar, if_pos hnote, if_pos hnote]
      exact ih elems
    by_cases hempty : l'.text.isEmpty = true
    · simp only [if_neg hstar, if_neg hnote, if_pos hempty]
      obtain ⟨hauthors, hrest⟩ := ih []
      exact ⟨by rw [hauthors], hrest⟩
    · rw [if_neg hstar, if_neg hstar, if_neg hnote, if_neg hnote, if_neg hempty, if_neg hempty]
      exact ih _

theorem readItems_alike {files : Files} {base : Path} {lines lines' : List Line}
    (h : List.Forall₂ (Line.Matches R) lines lines') (st : State) :
    Alike R Eq (readItems files base st lines) (readItems files base st lines') := by
  induction h generalizing st with
  | nil => exact .ok rfl
  | @cons l l' r r' hl hr ih =>
    rw [readItems, readItems, hl.text]
    cases readLine files base st l'.text with
    | error problem => exact .error hl.number
    | ok read =>
      obtain ⟨items, st⟩ := read
      exact (ih st).map fun _ _ h => congrArg (items ++ ·) h

theorem readBody_alike {files : Files} {base : Path} {lines lines' : List Line}
    (h : List.Forall₂ (Line.Matches R) lines lines') (d : Document) :
    Alike R Eq (readBody files base d lines) (readBody files base d lines') := by
  obtain ⟨hauthors, hrest⟩ := readAuthors_alike h []
  unfold readBody
  refine (readItems_alike hrest {}).map fun items items' hitems => ?_
  rw [hauthors, hitems]

/-! ## Leaving out the comments -/

/-- The lines that are no comments. -/
def withoutComments (texts : List (List Char)) : List (List Char) := texts.filter (!isComment ·)

/-- A line of a source and the same line when comments are left out, or the places behind the last
line of both; lines are counted from 1. -/
inductive SamePlace (texts : List (List Char)) : Nat → Nat → Prop
  | line {front behind : List (List Char)} {t : List Char} (htexts : texts = front ++ t :: behind)
      (ht : isComment t = false) :
      SamePlace texts (front.length + 1) ((withoutComments front).length + 1)
  | stop : SamePlace texts (texts.length + 1) ((withoutComments texts).length + 1)

theorem withoutComments_append (a b : List (List Char)) :
    withoutComments (a ++ b) = withoutComments a ++ withoutComments b :=
  List.filter_append ..

theorem withoutComments_cons_comment {t : List Char} (ht : isComment t = true)
    (r : List (List Char)) : withoutComments (t :: r) = withoutComments r :=
  List.filter_cons_of_neg (by simp [ht])

theorem withoutComments_cons_line {t : List Char} (ht : isComment t = false)
    (r : List (List Char)) : withoutComments (t :: r) = t :: withoutComments r :=
  List.filter_cons_of_pos (by simp [ht])

theorem numberedFrom_cons_comment {t : List Char} (ht : isComment t = true) (first : Nat)
    (r : List (List Char)) : numberedFrom first (t :: r) = numberedFrom (first + 1) r :=
  List.filter_cons_of_neg (by simp [ht])

theorem numberedFrom_cons_line {t : List Char} (ht : isComment t = false) (first : Nat)
    (r : List (List Char)) :
    numberedFrom first (t :: r) = ⟨first, t⟩ :: numberedFrom (first + 1) r :=
  List.filter_cons_of_pos (by simp [ht])

/-- The lines behind the first ones match, whether comments are left out or not. -/
theorem numberedFrom_matches (front rest : List (List Char)) :
    List.Forall₂ (Line.Matches (SamePlace (front ++ rest)))
      (numberedFrom (front.length + 1) rest)
      (numberedFrom ((withoutComments front).length + 1) (withoutComments rest)) := by
  induction rest generalizing front with
  | nil => exact .nil
  | cons t r ih =>
    have ih := ih (front ++ [t])
    rw [List.append_assoc, List.singleton_append, withoutComments_append,
      List.length_append, List.length_append, List.length_singleton] at ih
    cases ht : isComment t with
    | true =>
      rw [withoutComments_cons_comment ht] at ih ⊢
      rw [numberedFrom_cons_comment ht]
      exact ih
    | false =>
      rw [withoutComments_cons_line ht] at ih ⊢
      rw [numberedFrom_cons_line ht, numberedFrom_cons_line ht]
      exact .cons ⟨rfl, .line rfl ht⟩ ih

/-- Lines are read alike with and without the comments among them. -/
theorem readLines_alike (files : Files) (base : Path) (mode : Mode) (texts : List (List Char)) :
    Alike (SamePlace texts) Eq (readLines files base mode texts)
      (readLines files base mode (withoutComments texts)) := by
  have hlines : List.Forall₂ (Line.Matches (SamePlace texts)) (numbered texts)
      (numbered (withoutComments texts)) := numberedFrom_matches [] texts
  refine (readHeader_alike .stop hlines).bind fun ⟨d, lines⟩ ⟨d', lines'⟩ ⟨hd, hlines⟩ => ?_
  obtain rfl : d = d' := hd
  cases mode with
  | titlesOnly => exact .ok rfl
  | full => exact readBody_alike hlines d

/-- A line that is ended by a carriage return and a line feed is read back, whatever else it
ends with. -/
theorem lines_append_crlf {l : List Char} (h : '\n' ∉ l) (r : List Char) :
    lines (l ++ '\r' :: '\n' :: r) = l :: lines r := by
  induction l with
  | nil => rfl
  | cons c l ih =>
    have hc : c ≠ '\n' := fun e => h (e ▸ List.mem_cons_self ..)
    have hl : '\n' ∉ l := fun hmem => h (List.mem_cons_of_mem c hmem)
    have hnext : ∀ r', l ++ '\r' :: '\n' :: r ≠ '\n' :: r' := by
      intro r' e
      cases l with
      | nil => cases e
      | cons d l => exact hl ((List.cons.inj e).1 ▸ List.mem_cons_self ..)
    rw [List.cons_append, lines, ih hl]
    · exact fun e => hc e
    · exact fun r' _ e => hnext r' e

/-- Every source has one without its comments. -/
theorem exists_lines_withoutComments (text : String) :
    ∃ text' : String, lines text'.toList = withoutComments (lines text.toList) := by
  have hlines : ∀ ls : List (List Char), (∀ l ∈ ls, '\n' ∉ l) →
      lines (ls.flatMap fun l => l ++ ['\r', '\n']) = ls := by
    intro ls h
    induction ls with
    | nil => rfl
    | cons l r ih =>
      rw [List.flatMap_cons, List.append_assoc, List.cons_append, List.singleton_append,
        lines_append_crlf (h l (List.mem_cons_self ..)),
        ih fun m hm => h m (List.mem_cons_of_mem l hm)]
  refine ⟨String.ofList ((withoutComments (lines text.toList)).flatMap fun l => l ++ ['\r', '\n']),
    ?_⟩
  rw [String.toList_ofList]
  exact hlines _ fun l hl => newline_not_mem_of_mem_lines _ l (List.mem_of_mem_filter hl)

/-- The wording of a failure has the number of its line in one place. -/
theorem message_atLine (name : Path) (problem : Problem) (n : Nat) :
    (Failure.atLine name ⟨n, problem⟩).message =
      name.chars ++ ':' :: Nat.toDigits 10 n ++ (": ".toList ++ problem.message) := by
  unfold Failure.message
  exact List.append_assoc _ _ _

/-- Comments are invisible: a source and the same source without its comments are both read as the
same document, or both refused with wordings that differ in the number of the line alone. The two
numbers are those of the same line, or of the places behind the last lines. -/
theorem read_withoutComments {text text' : String}
    (h : lines text'.toList = withoutComments (lines text.toList)) (files : Files) (name : Path)
    (mode : Mode) :
    (∃ d, read files name mode text = .ok d ∧ read files name mode text' = .ok d) ∨
      ∃ e e' n n' why, read files name mode text = .error e ∧
        read files name mode text' = .error e' ∧ SamePlace (lines text.toList) n n' ∧
        e.message = name.chars ++ ':' :: Nat.toDigits 10 n ++ why ∧
        e'.message = name.chars ++ ':' :: Nat.toDigits 10 n' ++ why := by
  have halike := readLines_alike files name.parent mode (lines text.toList)
  rw [← h] at halike
  unfold read
  generalize readLines files name.parent mode (lines text.toList) = x at halike ⊢
  generalize readLines files name.parent mode (lines text'.toList) = x' at halike ⊢
  cases halike with
  | ok hd =>
    subst hd
    exact .inl ⟨_, rfl, rfl⟩
  | @error n n' problem hplace =>
    have hmessage := message_atLine name problem
    exact .inr ⟨_, _, n, n', _, rfl, rfl, hplace, hmessage n, hmessage n'⟩

/-- A source with comments in all its parts and a command that does not exist. -/
def remarkedTalk : String :=
  "# by\nTalk\n#\n\n# the author\nGopher\n* One\n- a\n# between\n- b\n\n#.code\n.nope\n"

/-- The same source without its comments. -/
def plainTalk : String := "Talk\n\nGopher\n* One\n- a\n- b\n\n.nope\n"

theorem read_withoutComments_remarkedTalk :
    ∃ e e' n n' why,
      read (fun _ => .error .notFound) (Path.ofString "talk.slide") .full remarkedTalk = .error e ∧
      read (fun _ => .error .notFound) (Path.ofString "talk.slide") .full plainTalk = .error e' ∧
      SamePlace (lines remarkedTalk.toList) n n' ∧
      e.message = (Path.ofString "talk.slide").chars ++ ':' :: Nat.toDigits 10 n ++ why ∧
      e'.message = (Path.ofString "talk.slide").chars ++ ':' :: Nat.toDigits 10 n' ++ why := by
  have h : lines plainTalk.toList = withoutComments (lines remarkedTalk.toList) := by cbv
  have hread : read (fun _ => .error .notFound) (Path.ofString "talk.slide") .full remarkedTalk =
      .error (.atLine (Path.ofString "talk.slide") ⟨13, .unknownCommand ".nope".toList⟩) := by cbv
  refine (read_withoutComments h _ _ .full).resolve_left ?_
  rintro ⟨d, hd, -⟩
  rw [hread] at hd
  cases hd

end Lectern.Source
