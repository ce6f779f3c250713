import Lectern.Disk.Basic
import Lectern.Source.Address

/-!
# What can be wrong with a source
-/

namespace Lectern.Source

open Text

/-- What is wrong with a line of a source, or with its end. -/
inductive Problem where
  | missingTitle
  | unfinishedHeader
  | headerLine (text : List Char)
  | strayLine (text : List Char)
  | unknownCommand (text : List Char)
  | badInvocation (text : List Char)
  | missingFileName (text : List Char)
  | unknownFlag (flag : List Char)
  | unreadableFile (path : Path) (why : Fault)
  | badAddress (file : List Char) (why : AddressFault)
deriving DecidableEq, Repr

/-- The wording of a problem. -/
def Problem.message : Problem → List Char
  | missingTitle => "unexpected EOF: missing title".toList
  | unfinishedHeader => "unexpected EOF in header".toList
  | headerLine t => "unexpected header line ".toList ++ quote t
  | strayLine t => "unexpected line ".toList ++ quote t
  | unknownCommand t => "unknown command ".toList ++ quote t
  | badInvocation t => "incorrect invocation: ".toList ++ quote t
  | missingFileName t => "missing file name: ".toList ++ quote t
  | unknownFlag t => "unknown flag ".toList ++ quote t
  | unreadableFile p why =>
      "cannot read ".toList ++ p.chars ++ ": ".toList ++ why.message.toList
  | badAddress file why => file ++ ": ".toList ++ why.message

/-- A problem and the number of the line where it was noticed. -/
structure Located where
  line : Nat
  problem : Problem
deriving DecidableEq, Repr

/-- Why a source gives no document. -/
inductive Failure where
  | atLine (name : Path) (what : Located)
  | cannotOpen (path : Path) (why : Fault)
  | cannotRead (path : Path) (why : Fault)
deriving DecidableEq, Repr

/-- The wording of a failure. -/
def Failure.message : Failure → List Char
  | atLine name what =>
      name.chars ++ ':' :: Nat.toDigits 10 what.line ++ ": ".toList ++ what.problem.message
  | cannotOpen p why => "cannot open ".toList ++ p.chars ++ ": ".toList ++ why.message.toList
  | cannotRead p why => "cannot read ".toList ++ p.chars ++ ": ".toList ++ why.message.toList

/-- How the texts of referenced files are read. -/
abbrev Files := Path → Except Fault String

end Lectern.Source
