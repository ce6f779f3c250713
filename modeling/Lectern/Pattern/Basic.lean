import Lectern.Pattern.CharSet

/-!
# Patterns and their matches

A pattern is searched in a line. Of all matches the leftmost counts, and of those that start there
the one that the pattern prefers: the left side of an alternative before the right one, one more
round of a greedy repetition before the end of it.

The search keeps the list of what is left to match, most preferred first. `Pattern.steps` says how
a pattern can begin at a place: by accepting there, or by taking a character of a set and going on
with another pattern. One place of the line after the other, the list of patterns is replaced by
what their steps leave, without duplicates, so the work is bounded by the length of the line and
the size of the pattern.
-/

namespace Lectern

/-- A condition on the place between two characters. -/
inductive Anchor where
  | textStart
  | textEnd
  | lineStart
  | lineEnd
  | lineStartAnyEnd
  | lineEndAnyEnd
  | wordEdge (letters : CharSet)
  | noWordEdge (letters : CharSet)
  | wordStart (letters : CharSet)
  | wordEnd (letters : CharSet)
  | wordStartHalf (letters : CharSet)
  | wordEndHalf (letters : CharSet)
deriving DecidableEq, Repr

/-- Does the condition hold between the characters `before` and `after`, each absent at an end of
the text? -/
def Anchor.holds (before after : Option Char) : Anchor → Bool
  | textStart => before.isNone
  | textEnd => after.isNone
  | lineStart => before.all (· = '\n')
  | lineEnd => after.all (· = '\n')
  | lineStartAnyEnd => before.all fun c => c = '\n' || c = '\r' && after != some '\n'
  | lineEndAnyEnd => after.all fun c => c = '\r' || c = '\n' && before != some '\r'
  | wordEdge w => before.any w.has != after.any w.has
  | noWordEdge w => before.any w.has == after.any w.has
  | wordStart w => !before.any w.has && after.any w.has
  | wordEnd w => before.any w.has && !after.any w.has
  | wordStartHalf w => !before.any w.has
  | wordEndHalf w => !after.any w.has

/-- A pattern. `rounds` repeats a pattern once or more; `more` is what a repetition leaves to be
done after a round: any number of further rounds. -/
inductive Pattern where
  | empty
  | chars (s : CharSet)
  | anchor (a : Anchor)
  | seq (p q : Pattern)
  | alt (p q : Pattern)
  | rounds (greedy : Bool) (p : Pattern)
  | more (greedy : Bool) (p : Pattern)
deriving DecidableEq, Repr

namespace Pattern

/-- One pattern after the other, where nothing is left of a matched one. -/
def andThen : Pattern → Pattern → Pattern
  | empty, q => q
  | p, q => seq p q

/-- Can the pattern match without taking a character, as far as its form shows? -/
def isNullable : Pattern → Bool
  | empty => true
  | chars _ => false
  | anchor _ => true
  | seq p q => p.isNullable && q.isNullable
  | alt p q => p.isNullable || q.isNullable
  | rounds _ p => p.isNullable
  | more _ _ => true

/-- The pattern or nothing; a greedy choice prefers the pattern. -/
def optional (greedy : Bool) (p : Pattern) : Pattern :=
  if greedy then alt p empty else alt empty p

/-- Any number of rounds. A pattern that can match nothing is tried once before the choice to
leave, so that its own preference for nothing is kept. -/
def star (greedy : Bool) (p : Pattern) : Pattern :=
  if p.isNullable then optional greedy (rounds greedy p) else more greedy p

/-- `n` copies in a row, followed by `last`. -/
def copies (p : Pattern) (last : Pattern) : Nat → Pattern
  | 0 => last
  | n + 1 => andThen p (copies p last n)

/-- At least `n` rounds. -/
def atLeast (greedy : Bool) (p : Pattern) : Nat → Pattern
  | 0 => star greedy p
  | n + 1 => copies p (rounds greedy p) n

/-- Up to `n` rounds, each of which may be the last. -/
def upTo (greedy : Bool) (p : Pattern) : Nat → Pattern
  | 0 => empty
  | n + 1 => optional greedy (andThen p (upTo greedy p n))

/-- From `n` up to `n + extra` rounds. -/
def between (greedy : Bool) (p : Pattern) (n extra : Nat) : Pattern :=
  copies p (upTo greedy p extra) n

/-! ## Matching -/

/-- How a pattern can begin at a place. -/
inductive Step where
  | accept
  | take (s : CharSet) (next : Pattern)
deriving DecidableEq, Repr

/-- The ways a pattern can begin between two characters, most preferred first. -/
def steps (before after : Option Char) : Pattern → List Step
  | empty => [.accept]
  | chars s => [.take s empty]
  | anchor a => if a.holds before after then [.accept] else []
  | seq p q =>
      (p.steps before after).eraseDups.flatMap fun
        | .accept => q.steps before after
        | .take s p' => [.take s (andThen p' q)]
  | alt p q => p.steps before after ++ q.steps before after
  | rounds greedy p =>
      (p.steps before after).map fun
        | .accept => .accept
        | .take s p' => .take s (andThen p' (more greedy p))
  | more greedy p =>
      let again := (p.steps before after).filterMap fun
        | .accept => none
        | .take s p' => some (.take s (andThen p' (more greedy p)))
      if greedy then again ++ [.accept] else .accept :: again

/-- The end of the preferred match among the patterns `live`, most preferred first, that are to be
matched at position `pos` before the characters `rest`; `best` is the end found so far, by a
pattern less preferred than these. -/
def matchFrom (before : Option Char) (live : List Pattern) (rest : List Char) (pos : Nat)
    (best : Option Nat) : Option Nat :=
  let all := live.flatMap (steps before rest.head?)
  let ahead := all.takeWhile (· ≠ .accept)
  let best := if all.contains .accept then some pos else best
  match rest with
  | [] => best
  | c :: r =>
      let next := ahead.filterMap fun
        | .accept => none
        | .take s p => if s.has c then some p else none
      if next.isEmpty then best else matchFrom (some c) next.eraseDups r (pos + 1) best

/-- The leftmost match in a text, of which `before` is the character in front and `pos` the
position of its start: the positions where the match starts and ends. -/
def findFrom (p : Pattern) (before : Option Char) (pos : Nat) (s : List Char) :
    Option (Nat × Nat) :=
  match matchFrom before [p] s pos none with
  | some stop => some (pos, stop)
  | none =>
      match s with
      | [] => none
      | c :: r => p.findFrom (some c) (pos + 1) r

/-- The positions where the leftmost match in a text starts and ends. -/
def find? (p : Pattern) (s : List Char) : Option (Nat × Nat) := p.findFrom none 0 s

end Pattern

end Lectern
