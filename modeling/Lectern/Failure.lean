import Lectern.Source.Problem
import Lectern.Template.Value

/-!
# Why a run fails
-/

namespace Lectern

open Text

/-- Why a template cannot be used: it cannot be read, or it is not well formed. -/
inductive LoadFault where
  | unreadable (why : Fault)
  | malformed
deriving DecidableEq, Repr

/-- Why an asset cannot be copied: the disk refuses, or the page lies inside the directory of the
assets. -/
inductive CopyFault where
  | disk (why : Fault)
  | insideAssets (root : Path)
deriving DecidableEq, Repr

/-- Why a run fails. -/
inductive Failure where
  | source (why : Source.Failure)
  | unsupportedKind (name : List Char)
  | templateLoad (path : Path) (why : LoadFault)
  | render (why : Template.Fault)
  | assetCopy (path : Path) (why : CopyFault)
  | outputWrite (path : Path) (why : Fault)
deriving DecidableEq, Repr

/-- The wording of the reason why a template cannot be used. -/
def LoadFault.message : LoadFault → List Char
  | unreadable why => why.message.toList
  | malformed => "syntax error".toList

/-- The wording of the reason why an asset cannot be copied. -/
def CopyFault.message : CopyFault → List Char
  | disk why => why.message.toList
  | insideAssets root => "output lies inside the asset directory ".toList ++ root.chars

namespace Failure

/-- The wording of a failure. -/
def messageChars : Failure → List Char
  | source why => "Parse error: ".toList ++ why.message
  | unsupportedKind name => "Unsupported document kind: ".toList ++ quote name
  | templateLoad p why => "Cannot load template ".toList ++ p.chars ++ ": ".toList ++ why.message
  | render why => "Rendering error: ".toList ++ why.message.toList
  | assetCopy p why => "Cannot copy asset ".toList ++ p.chars ++ ": ".toList ++ why.message
  | outputWrite p why =>
      "Cannot write output ".toList ++ p.chars ++ ": ".toList ++ why.message.toList

/-- The wording of a failure, as a string. -/
def message (f : Failure) : String := String.ofList f.messageChars

end Failure

end Lectern
