import CanvasLink.Bridge.Error
import CanvasLink.Text.Blank
import CanvasLink.Text.LowerCase
import CanvasLink.Text.Search
import CanvasLink.Wire.Target

/-!
# CanvasLink — picking a document

A target is eligible when it is a page whose URL contains one of the patterns. Without a selector
the first eligible target is taken; with one, the first whose id is the selector or whose title
contains it, letter case aside.
-/

namespace CanvasLink.Target

open CanvasLink.Text CanvasLink.Wire

/-- Whether one text contains another. -/
def contains (text part : String) : Bool :=
  occursIn part.toList text.toList

/-- Whether the target is a page, as far as its kind tells. -/
def isPage (t : TargetDescriptor) : Bool :=
  t.kind == "" || t.kind == "page"

/-- Whether the target may be attached to. -/
def isEligible (patterns : List String) (t : TargetDescriptor) : Bool :=
  isPage t && patterns.any fun pattern => contains t.url pattern

/-- The selector without blanks at its ends; an empty one counts as none. -/
def effectiveSelector (selector : Option String) : Option String :=
  (selector.map fun s => String.ofList (trim s.toList)).filter (· ≠ "")

/-- Whether the title contains the selector when both are in lower case. -/
def titleMatches (selector : String) (t : TargetDescriptor) : Bool :=
  occursIn (lowerCase selector.toList) (lowerCase t.title.toList)

/-- Whether the target is the one that a selector names. -/
def isSelected (selector : String) (t : TargetDescriptor) : Bool :=
  t.id == selector || titleMatches selector t

/-- Why no document was picked. -/
inductive Missing where
  /-- No target is eligible. -/
  | noDocument (patterns : List String)
  /-- No eligible target matches; their titles are listed. -/
  | noMatch (selector : String) (titles : List String)
deriving DecidableEq, Repr

def Missing.message : Missing → String
  | .noDocument patterns =>
    "no open Figma document found (looked for URLs containing " ++ ", ".intercalate patterns ++ ")"
  | .noMatch selector titles =>
    "no open Figma document matches \"" ++ selector ++ "\"; open documents: " ++
      ", ".intercalate (titles.map fun title => "\"" ++ title ++ "\"")

/-- Picks the document to attach to. -/
def pick (targets : List TargetDescriptor) (patterns : List String) (selector : Option String) :
    Except Missing TargetDescriptor :=
  match targets.filter (isEligible patterns) with
  | [] => .error (.noDocument patterns)
  | first :: others =>
    match effectiveSelector selector with
    | none => .ok first
    | some selector =>
      match (first :: others).find? (isSelected selector) with
      | some chosen => .ok chosen
      | none => .error (.noMatch selector ((first :: others).map (·.title)))

/-- Picks the document to attach to, with failures as errors of the bridge. -/
def select (targets : List TargetDescriptor) (patterns : List String) (selector : Option String) :
    Except Bridge.Error TargetDescriptor :=
  (pick targets patterns selector).mapError fun missing => .notFound missing.message

end CanvasLink.Target
