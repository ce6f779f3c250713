/-!
# Looking for a text in a text
-/

namespace Lectern.Text

/-- What follows the first occurrence of `needle`, if there is one. -/
def after? (needle : List Char) (s : List Char) : Option (List Char) :=
  match needle.isPrefixOf? s with
  | some rest => some rest
  | none =>
      match s with
      | [] => none
      | _ :: r => after? needle r

/-- Does `needle` occur in the text? -/
def occursIn (needle s : List Char) : Bool := (after? needle s).isSome

/-- The text with every tab replaced by four spaces. -/
def expandTabs (s : List Char) : List Char :=
  s.flatMap fun c => if c = '\t' then [' ', ' ', ' ', ' '] else [c]

/-- The label that is shown for an address without one: the address without a leading `mailto:`,
or without all that comes up to the first `://`. -/
def dropScheme (url : List Char) : List Char :=
  match "mailto:".toList.isPrefixOf? url with
  | some rest => rest
  | none => (after? "://".toList url).getD url

@[simp] theorem expandTabs_nil : expandTabs [] = [] := rfl

@[simp] theorem expandTabs_append (s t : List Char) :
    expandTabs (s ++ t) = expandTabs s ++ expandTabs t := by
  simp [expandTabs]

end Lectern.Text
