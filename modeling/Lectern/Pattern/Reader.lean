import Lectern.Pattern.Basic

/-!
# The written form of patterns

Patterns are written in the usual notation: literals, `.`, `^`, `$`, alternatives, groups, greedy
and lazy repetitions, bracketed classes with set operations, escapes, and flags that hold to the
end of their group. `Pattern.read` accepts a text and gives its pattern, or says that the text is
malformed or that its repetitions ask for too large a pattern.

Three rules of the engines that read this notation are not followed to the letter:

* Of the properties of characters, as in `\p{Lu}`, only `any`, `assigned`, `ascii`, white space and
  the general categories have names here. With the name of a script, as in `\p{Greek}`, or of any
  other property, as in `\p{Alphabetic}`, a text is malformed.
* Groups and classes may be nested to any depth, where an engine stops at some 250 levels.
* An engine limits the bytes of the program that it makes of a pattern; `sizeLimit` limits the
  number of parts of the pattern instead, so near the limit the two may differ.
-/

namespace Lectern

open Text

namespace Pattern

/-- Why a text is not accepted as a pattern. -/
inductive Fault where
  | malformed
  | tooLarge
deriving DecidableEq, Repr

/-- The flags that hold at a place of a pattern. -/
structure Flags where
  caseless : Bool := false
  multiLine : Bool := false
  dotAll : Bool := false
  swapGreed : Bool := false
  anyLineEnd : Bool := false
  verbose : Bool := false
  unicode : Bool := true

/-- What is known at a place of a pattern: the flags, the group names in use, and whether a
repetition before it was too large to be built. -/
structure Reading where
  flags : Flags := {}
  names : List (List Char) := []
  large : Bool := false

/-- The greatest number of parts of a pattern that is built. It stands for a limit of 10 MiB on the
program that an engine makes of a pattern, at 32 bytes a part. -/
def sizeLimit : Nat := 327680

/-- The number of parts of a pattern. -/
def size : Pattern → Nat
  | empty | chars _ | anchor _ => 1
  | seq p q | alt p q => p.size + q.size
  | rounds _ p | more _ p => p.size + 1

/-- Without the blanks and comments that mean nothing in verbose patterns. -/
def skipBlanks (inComment : Bool) : List Char → List Char
  | [] => []
  | c :: r =>
      if inComment then skipBlanks (c != '\n') r
      else if c = '#' then skipBlanks true r
      else if isBlank c then skipBlanks false r
      else c :: r

/-- The rest of the pattern that means something under the flags. -/
def Flags.skip (f : Flags) (s : List Char) : List Char :=
  if f.verbose then skipBlanks false s else s

/-! ## Escapes -/

/-- What an escape stands for. -/
inductive Escape where
  | literal (c : Char)
  | set (s : CharSet)
  | anchor (a : Anchor)

/-- The value of a hexadecimal digit. -/
def hexDigit? (c : Char) : Option Nat :=
  if '0' ≤ c && c ≤ '9' then some (c.toNat - 48)
  else if 'a' ≤ c && c ≤ 'f' then some (c.toNat - 87)
  else if 'A' ≤ c && c ≤ 'F' then some (c.toNat - 55)
  else none

/-- The value of a non-empty text of hexadecimal digits. -/
def hexValue? (s : List Char) : Option Nat :=
  if s.isEmpty then none
  else s.foldl (fun n c => do pure (16 * (← n) + (← hexDigit? c))) (some 0)

/-- The character with a code point, if it is one. -/
def charOf? (n : Nat) : Option Char :=
  if n.isValidChar then some (Char.ofNat n) else none

/-- Reads the code point of `\x`, `\u` or `\U`: `digits` hexadecimal digits, or any number of them
in braces. -/
def readHex (digits : Nat) : List Char → Option (Char × List Char)
  | '{' :: r =>
      match r.span (· ≠ '}') with
      | (ds, _ :: r) => (hexValue? ds).bind charOf? |>.map (·, r)
      | _ => none
  | r =>
      if r.length < digits then none
      else (hexValue? (r.take digits)).bind charOf? |>.map (·, r.drop digits)

/-- The general categories with a name, short or long, written without blanks, hyphens and
underscores in lower case. -/
def categories? (name : String) : Option (List Category) :=
  match name with
  | "lu" | "uppercaseletter" => some [.uppercaseLetter]
  | "ll" | "lowercaseletter" => some [.lowercaseLetter]
  | "lt" | "titlecaseletter" => some [.titlecaseLetter]
  | "lm" | "modifierletter" => some [.modifierLetter]
  | "lo" | "otherletter" => some [.otherLetter]
  | "lc" | "casedletter" => some [.uppercaseLetter, .lowercaseLetter, .titlecaseLetter]
  | "l" | "letter" =>
      some [.uppercaseLetter, .lowercaseLetter, .titlecaseLetter, .modifierLetter, .otherLetter]
  | "mn" | "nonspacingmark" => some [.nonspacingMark]
  | "mc" | "spacingmark" => some [.spacingMark]
  | "me" | "enclosingmark" => some [.enclosingMark]
  | "m" | "mark" | "combiningmark" => some [.nonspacingMark, .spacingMark, .enclosingMark]
  | "nd" | "decimalnumber" | "digit" => some [.decimalNumber]
  | "nl" | "letternumber" => some [.letterNumber]
  | "no" | "othernumber" => some [.otherNumber]
  | "n" | "number" => some [.decimalNumber, .letterNumber, .otherNumber]
  | "pc" | "connectorpunctuation" => some [.connectorPunctuation]
  | "pd" | "dashpunctuation" => some [.dashPunctuation]
  | "ps" | "openpunctuation" => some [.openPunctuation]
  | "pe" | "closepunctuation" => some [.closePunctuation]
  | "pi" | "initialpunctuation" => some [.initialPunctuation]
  | "pf" | "finalpunctuation" => some [.finalPunctuation]
  | "po" | "otherpunctuation" => some [.otherPunctuation]
  | "p" | "punctuation" | "punct" =>
      some [.connectorPunctuation, .dashPunctuation, .openPunctuation, .closePunctuation,
        .initialPunctuation, .finalPunctuation, .otherPunctuation]
  | "sm" | "mathsymbol" => some [.mathSymbol]
  | "sc" | "currencysymbol" => some [.currencySymbol]
  | "sk" | "modifiersymbol" => some [.modifierSymbol]
  | "so" | "othersymbol" => some [.otherSymbol]
  | "s" | "symbol" => some [.mathSymbol, .currencySymbol, .modifierSymbol, .otherSymbol]
  | "zs" | "spaceseparator" => some [.spaceSeparator]
  | "zl" | "lineseparator" => some [.lineSeparator]
  | "zp" | "paragraphseparator" => some [.paragraphSeparator]
  | "z" | "separator" => some [.spaceSeparator, .lineSeparator, .paragraphSeparator]
  | "cc" | "control" | "cntrl" => some [.control]
  | "cf" | "format" => some [.format]
  | "cs" | "surrogate" => some [.surrogate]
  | "co" | "privateuse" => some [.privateUse]
  | "cn" | "unassigned" => some [.unassigned]
  | "c" | "other" => some [.control, .format, .surrogate, .privateUse, .unassigned]
  | _ => none

/-- The set of characters with a property name. Scripts and properties that are no general
categories, such as `Greek` and `Alphabetic`, have none. -/
def property? (name : List Char) : Option CharSet :=
  let key := String.ofList <|
    (name.filter fun c => !(isBlank c || c = '_' || c = '-')).map Char.toLower
  match key with
  | "any" => some .any
  | "assigned" => some (.compl (.category [.unassigned]))
  | "ascii" => some .ascii
  | "whitespace" | "wspace" | "space" => some .blank
  | key => (categories? key).map .category

/-- The set of a property query: a name, or a name and its value. -/
def propertyQuery? (query : List Char) : Option CharSet :=
  let isGeneral (name : List Char) : Bool :=
    let key := String.ofList ((name.filter Char.isAlphanum).map Char.toLower)
    key = "gc" || key = "generalcategory"
  match query.span (fun c => c ≠ '=' && c ≠ ':') with
  | (name, []) => property? name
  | (name, sep :: value) =>
      if sep = '=' && name.getLast? = some '!' then
        if isGeneral name then (property? value).map .compl else none
      else if isGeneral name then property? value
      else none

/-- Reads what follows `\p` or `\P`. -/
def readProperty (flags : Flags) (negated : Bool) (s : List Char) :
    Option (CharSet × List Char) := do
  let (query, r) ←
    match s with
    | '{' :: r =>
        match r.span (· ≠ '}') with
        | (query, _ :: r) => some (query, r)
        | _ => none
    | c :: r => some ([c], r)
    | [] => none
  if !flags.unicode then none
  let (negated, query) :=
    if query.head? = some '^' then (!negated, query.tail) else (negated, query)
  let set ← propertyQuery? query
  let set := if flags.caseless then .upToCase set else set
  pure (if negated then .compl set else set, r)

/-- The word boundary with a name, as in `\b{start}`. -/
def namedBoundary? (letters : CharSet) (name : String) : Option Anchor :=
  match name with
  | "start" => some (.wordStart letters)
  | "end" => some (.wordEnd letters)
  | "start-half" => some (.wordStartHalf letters)
  | "end-half" => some (.wordEndHalf letters)
  | _ => none

/-- Reads what follows `\b`: a name in braces makes a special boundary; other braces are left to
be read as a repetition. -/
def readBoundary (letters : CharSet) (s : List Char) : Option (Anchor × List Char) :=
  let isNameChar (c : Char) : Bool := c.isAlpha || c = '-'
  match s with
  | ['{'] => none
  | '{' :: c :: r =>
      if isNameChar c then
        match (c :: r).span isNameChar with
        | (name, '}' :: r) => (namedBoundary? letters (String.ofList name)).map (·, r)
        | _ => none
      else some (.wordEdge letters, s)
  | s => some (.wordEdge letters, s)

/-- Is the ASCII character neither a letter, a digit nor an angle bracket, so that an escape of it
stands for itself? -/
def isEscapable (c : Char) : Bool :=
  c.toNat < 128 && !c.isAlphanum && c ≠ '<' && c ≠ '>'

/-- Reads what follows a backslash. -/
def readEscape (flags : Flags) : List Char → Option (Escape × List Char)
  | [] => none
  | c :: r =>
      let letters := if flags.unicode then .word else .asciiWord
      let set (s ascii : CharSet) := some (Escape.set (if flags.unicode then s else ascii), r)
      let compl (s : CharSet) := if flags.unicode then some (Escape.set (.compl s), r) else none
      let literal (n : Nat) := some (Escape.literal (Char.ofNat n), r)
      let hex (digits : Nat) : Option (Escape × List Char) :=
        (readHex digits r).map fun (c, r) => (.literal c, r)
      match c with
      | 'd' => set .digit .asciiDigit
      | 's' => set .blank .asciiBlank
      | 'w' => set .word .asciiWord
      | 'D' => compl .digit
      | 'S' => compl .blank
      | 'W' => compl .word
      | 'x' =>
          match hex 2 with
          | some (.literal d, r') =>
              if !flags.unicode && 127 < d.toNat && r.head? ≠ some '{' then none
              else some (.literal d, r')
          | e => e
      | 'u' => hex 4
      | 'U' => hex 8
      | 'p' => (readProperty flags false r).map fun (s, r) => (.set s, r)
      | 'P' => (readProperty flags true r).map fun (s, r) => (.set s, r)
      | 'a' => literal 7
      | 'f' => literal 12
      | 't' => literal 9
      | 'n' => literal 10
      | 'r' => literal 13
      | 'v' => literal 11
      | 'A' => some (.anchor .textStart, r)
      | 'z' => some (.anchor .textEnd, r)
      | 'b' => (readBoundary letters r).map fun (a, r) => (.anchor a, r)
      | 'B' => some (.anchor (.noWordEdge letters), r)
      | '<' => some (.anchor (.wordStart letters), r)
      | '>' => some (.anchor (.wordEnd letters), r)
      | c => if isEscapable c then some (.literal c, r) else none

/-! ## Bracketed classes -/

/-- An operation on two sets of a bracketed class. -/
inductive SetOp where
  | inter
  | diff
  | symmDiff

/-- The set of an operation. -/
def SetOp.apply : SetOp → CharSet → CharSet → CharSet
  | inter, s, t => .inter s t
  | diff, s, t => .diff s t
  | symmDiff, s, t => .symmDiff s t

/-- The set so far: the pending operation applied to its two sides. -/
def closeOp (pending : Option (SetOp × CharSet)) (s : CharSet) : CharSet :=
  match pending with
  | some (op, left) => op.apply left s
  | none => s

/-- The set as the flags want it: with all case variants of its members if case is ignored. -/
def Flags.fold (f : Flags) (s : CharSet) : CharSet := if f.caseless then .upToCase s else s

/-- Reads one member of a class that is no class itself: a literal or an escape. -/
def readMember (flags : Flags) : List Char → Option (Escape × List Char)
  | '\\' :: r =>
      match readEscape flags r with
      | some (.anchor _, _) => none
      | e => e
  | c :: r => some (.literal c, r)
  | [] => none

/-- Reads a member or a range of characters. -/
def readRange (flags : Flags) (s : List Char) : Option (CharSet × List Char) := do
  let (first, r) ← readMember flags s
  let r := flags.skip r
  let alone : Option (CharSet × List Char) :=
    match first with
    | .literal c =>
        if !flags.unicode && 127 < c.toNat then none else some (flags.fold (.single c), r)
    | .set set => some (set, r)
    | .anchor _ => none
  match r with
  | '-' :: r' =>
      let r' := flags.skip r'
      if r'.head? = some ']' || r'.head? = some '-' then alone
      else
        let (last, r'') ← readMember flags r'
        match first, last with
        | .literal c, .literal d =>
            if d.toNat < c.toNat then none
            else if !flags.unicode && 127 < d.toNat then none
            else some (flags.fold (.range c d), r'')
        | _, _ => none
  | _ => alone

/-- Reads a class by name, as in `[:alpha:]` or `[:^alpha:]`, from behind its bracket. -/
def readNamedClass (flags : Flags) : List Char → Option (CharSet × List Char)
  | ':' :: r =>
      let (negated, r) := if r.head? = some '^' then (true, r.tail) else (false, r)
      match r.span (· ≠ ':') with
      | (name, ':' :: ']' :: r) => do
          let set ← CharSet.named? (String.ofList name)
          let set := flags.fold set
          pure (if negated then .compl set else set, r)
      | _ => none
  | _ => none

mutual

/-- Reads a bracketed class from behind its bracket; `fuel` bounds the depth. -/
def readClass (fuel : Nat) (flags : Flags) (s : List Char) : Option (CharSet × List Char) :=
  match fuel with
  | 0 => none
  | fuel + 1 => do
      let s := flags.skip s
      let (negated, s) := if s.head? = some '^' then (true, flags.skip s.tail) else (false, s)
      let dashes := s.takeWhile (· = '-')
      let s := s.dropWhile (· = '-')
      let dash := if dashes.isEmpty then CharSet.none else .single '-'
      let (start, s) :=
        if dashes.isEmpty && s.head? = some ']' then (CharSet.single ']', s.tail) else (dash, s)
      let (set, r) ← readMembers fuel flags none start s
      if negated && !flags.unicode then none
      else pure (if negated then .compl set else set, r)

/-- Reads the members of a class up to its closing bracket: `pending` is the operation whose right
side is being read, `acc` the set of the members so far. -/
def readMembers (fuel : Nat) (flags : Flags) (pending : Option (SetOp × CharSet)) (acc : CharSet)
    (s : List Char) : Option (CharSet × List Char) :=
  match fuel with
  | 0 => none
  | fuel + 1 =>
      match flags.skip s with
      | [] => none
      | ']' :: r => some (closeOp pending acc, r)
      | '&' :: '&' :: r => readMembers fuel flags (some (.inter, closeOp pending acc)) .none r
      | '-' :: '-' :: r => readMembers fuel flags (some (.diff, closeOp pending acc)) .none r
      | '~' :: '~' :: r => readMembers fuel flags (some (.symmDiff, closeOp pending acc)) .none r
      | '[' :: r => do
          let (set, r) ←
            match readNamedClass flags r with
            | some named => some named
            | none => readClass fuel flags r
          readMembers fuel flags pending (.union acc set) r
      | r => do
          let (set, r) ← readRange flags r
          readMembers fuel flags pending (.union acc set) r

end

/-! ## Repetitions -/

/-- How often a pattern is repeated: at least `least` times, and at most `most` times if there is
a limit. -/
structure Count where
  least : Nat
  most : Option Nat

/-- Reads a decimal number of at most 32 bits, with blanks around it. -/
def readNumber (s : List Char) : Option (Nat × List Char) :=
  let (digits, r) := (trimStart s).span Char.isDigit
  let n := digits.foldl (fun n c => 10 * n + (c.toNat - 48)) 0
  if digits.isEmpty || 0x100000000 ≤ n then none else some (n, trimStart r)

/-- Reads the counts of a repetition from behind the opening brace. -/
def readCounts (s : List Char) : Option (Count × List Char) :=
  match readNumber s with
  | some (n, '}' :: r) => some (⟨n, some n⟩, r)
  | some (n, ',' :: '}' :: r) => some (⟨n, none⟩, r)
  | some (n, ',' :: r) =>
      match readNumber r with
      | some (m, '}' :: r) => if m < n then none else some (⟨n, some m⟩, r)
      | _ => none
  | _ => none

/-- Reads a repetition sign, if the text starts with one. -/
def readRepetition : List Char → Option (Option (Count × List Char))
  | '?' :: r => some (some (⟨0, some 1⟩, r))
  | '*' :: r => some (some (⟨0, none⟩, r))
  | '+' :: r => some (some (⟨1, none⟩, r))
  | '{' :: r => some (readCounts r)
  | _ => none

/-- The number of parts of a repeated pattern. -/
def Count.size (k : Count) (p : Pattern) : Nat := p.size * max 1 (k.most.getD (k.least + 1))

/-- The repeated pattern. -/
def Count.apply (k : Count) (greedy : Bool) (p : Pattern) : Pattern :=
  match k.most with
  | none => atLeast greedy p k.least
  | some m =>
      if m = k.least then
        match m with
        | 0 => empty
        | n + 1 => copies p p n
      else between greedy p k.least (m - k.least)

/-! ## Groups and sequences -/

/-- Sets or clears the flag with a letter. -/
def Flags.set? (f : Flags) (letter : Char) (on : Bool) : Option Flags :=
  match letter with
  | 'i' => some { f with caseless := on }
  | 'm' => some { f with multiLine := on }
  | 's' => some { f with dotAll := on }
  | 'U' => some { f with swapGreed := on }
  | 'R' => some { f with anyLineEnd := on }
  | 'x' => some { f with verbose := on }
  | 'u' => some { f with unicode := on }
  | _ => none

/-- Reads the letters of a flag group up to its colon or closing parenthesis: `seen` are the
letters so far, `minus` says whether a minus sign was read, `dangling` whether it was last. -/
def readFlags (flags : Flags) (seen : List Char) (minus dangling : Bool) :
    List Char → Option (Flags × List Char × List Char)
  | [] => none
  | c :: r =>
      if c = ':' || c = ')' then if dangling then none else some (flags, seen, c :: r)
      else if c = '-' then if minus then none else readFlags flags seen true true r
      else if seen.contains c then none
      else do readFlags (← flags.set? c (!minus)) (c :: seen) minus false r

/-- Is the text a group name: letters, digits, underscores, dots and brackets, of which the first
is a letter or an underscore? -/
def isGroupName : List Char → Bool
  | [] => false
  | c :: r =>
      let isLetter (c : Char) : Bool := c.isAlpha || 128 ≤ c.toNat && isWordChar c
      (isLetter c || c = '_') &&
        r.all fun c => isLetter c || c.isDigit || c = '_' || c = '.' || c = '[' || c = ']'

/-- The pattern of one literal character. -/
def Flags.literal (f : Flags) (c : Char) : Pattern := chars (f.fold (.single c))

/-- The pattern of a character that stands alone. -/
def Flags.plain? (f : Flags) (c : Char) : Option Pattern :=
  match c with
  | '.' =>
      if !f.unicode then none
      else if f.dotAll then some (chars .any)
      else if f.anyLineEnd then some (chars (.compl (.union (.single '\r') (.single '\n'))))
      else some (chars (.compl (.single '\n')))
  | '^' =>
      some (anchor (if !f.multiLine then .textStart
        else if f.anyLineEnd then .lineStartAnyEnd else .lineStart))
  | '$' =>
      some (anchor (if !f.multiLine then .textEnd
        else if f.anyLineEnd then .lineEndAnyEnd else .lineEnd))
  | c => some (f.literal c)

mutual

/-- Reads alternatives up to the end of their group; `fuel` bounds the depth. -/
def readAlternatives (fuel : Nat) (st : Reading) (s : List Char) :
    Option (Pattern × Reading × List Char) :=
  match fuel with
  | 0 => none
  | fuel + 1 => do
      let (p, st, r) ← readSequence fuel st none s
      match r with
      | '|' :: r => do
          let (q, st, r) ← readAlternatives fuel st r
          pure (alt p q, st, r)
      | r => pure (p, st, r)

/-- Reads the rest of a sequence; `last` is the part before it, which a repetition sign repeats. -/
def readSequence (fuel : Nat) (st : Reading) (last : Option Pattern) (s : List Char) :
    Option (Pattern × Reading × List Char) :=
  match fuel with
  | 0 => none
  | fuel + 1 =>
      match st.flags.skip s with
      | [] => some (last.getD empty, st, [])
      | '|' :: r => some (last.getD empty, st, '|' :: r)
      | ')' :: r => some (last.getD empty, st, ')' :: r)
      | c :: r =>
          match readRepetition (c :: r) with
          | some counts => do
              let p ← last
              let (k, r) ← counts
              let (lazy_, r) := if r.head? = some '?' then (true, r.tail) else (false, r)
              if sizeLimit < k.size p then
                readSequence fuel { st with large := true } (some empty) r
              else readSequence fuel st (some (k.apply (lazy_ == st.flags.swapGreed) p)) r
          | none => do
              let (item, st, r) ← readItem fuel st c r
              let (q, st, r) ← readSequence fuel st item r
              pure (andThen (last.getD empty) q, st, r)

/-- Reads one part of a sequence that starts with `c`; a group that only sets flags is no part. -/
def readItem (fuel : Nat) (st : Reading) (c : Char) (s : List Char) :
    Option (Option Pattern × Reading × List Char) :=
  match fuel with
  | 0 => none
  | fuel + 1 =>
      match c with
      | '(' => readGroup fuel st (st.flags.skip s)
      | '[' => (readClass (fuel + 1) st.flags s).map fun (set, r) => (some (chars set), st, r)
      | '\\' =>
          (readEscape st.flags s).map fun (e, r) =>
            match e with
            | .literal c => (some (st.flags.literal c), st, r)
            | .set set => (some (chars set), st, r)
            | .anchor a => (some (anchor a), st, r)
      | c => (st.flags.plain? c).map fun p => (some p, st, s)

/-- Reads a group from behind its parenthesis. -/
def readGroup (fuel : Nat) (st : Reading) (s : List Char) :
    Option (Option Pattern × Reading × List Char) :=
  match fuel with
  | 0 => none
  | fuel + 1 =>
      let body (inner : Reading) (s : List Char) := do
        match ← readAlternatives fuel inner s with
        | (p, inner, ')' :: r) => some (some p, { inner with flags := st.flags }, r)
        | _ => none
      let named (s : List Char) :=
        match s.span (· ≠ '>') with
        | (name, '>' :: r) =>
            if isGroupName name && !st.names.contains name then
              body { st with names := name :: st.names } r
            else none
        | _ => none
      match s with
      | '?' :: '=' :: _ | '?' :: '!' :: _ => none
      | '?' :: '<' :: '=' :: _ | '?' :: '<' :: '!' :: _ => none
      | '?' :: 'P' :: '<' :: r => named r
      | '?' :: '<' :: r => named r
      | '?' :: r => do
          match ← readFlags st.flags [] false false r with
          | (flags, _, ':' :: r) => body { st with flags := flags } r
          | (flags, seen, _ :: r) =>
              if seen.isEmpty then none else some (none, { st with flags := flags }, r)
          | _ => none
      | s => body st s

end

/-- Reads a whole text as a pattern. The notation is the one that the module describes: other names
of properties than those of `property?` make the text malformed, nesting has no limit, and the size
is limited by `sizeLimit`. -/
def read (s : List Char) : Except Fault Pattern :=
  match readAlternatives (8 * s.length + 8) {} s with
  | some (p, st, []) => if st.large || sizeLimit < p.size then .error .tooLarge else .ok p
  | _ => .error .malformed

end Pattern

end Lectern
