import CanvasLink.Markup.Color

/-!
# CanvasLink — frames

A frame is what one unit of markup describes: a container with a fill, automatic layout and a list
of text leaves. Defaults hold for every setting the markup leaves out.
-/

namespace CanvasLink.Markup

open CanvasLink.Text

/-- Direction in which a frame lays out its leaves. -/
inductive Axis where
  | horizontal
  | vertical
deriving DecidableEq, Repr

/-- Name of the direction in the target's layout property. -/
def Axis.mode : Axis → String
  | .horizontal => "HORIZONTAL"
  | .vertical => "VERTICAL"

/-- Inner spacing of a frame, in pixels. -/
structure Padding where
  top : Float
  right : Float
  bottom : Float
  left : Float

/-- The same spacing on all four sides. -/
def Padding.uniform (amount : Float) : Padding :=
  ⟨amount, amount, amount, amount⟩

/-- Style half of a font name. -/
inductive FontStyle where
  | regular
  | medium
  | bold
deriving DecidableEq, Repr

namespace FontStyle

/-- All styles, in the order in which fonts are loaded. -/
def all : List FontStyle :=
  [regular, medium, bold]

/-- The style's name in the target. -/
def name : FontStyle → String
  | regular => "Regular"
  | medium => "Medium"
  | bold => "Bold"

/-- The style that a weight names; weights that are not known count as regular. -/
def ofWeight (weight : List Char) : FontStyle :=
  let word := String.ofList (trim weight)
  if word = "medium" then medium
  else if word = "bold" then bold
  else regular

end FontStyle

/-- A text leaf. -/
structure Leaf where
  content : String := ""
  style : FontStyle := .regular
  size : Float := 14
  color : Color := Color.black
  /-- Stretch to the frame's width and grow vertically with the content. -/
  fillWidth : Bool := false

/-- The root container, with its leaves in source order. -/
structure Frame where
  name : String := "Frame"
  width : Float := 100
  height : Float := 100
  x : Float := 0
  y : Float := 0
  fill : Color := Color.white
  cornerRadius : Float := 0
  axis : Axis := .vertical
  gap : Float := 0
  padding : Padding := Padding.uniform 0
  leaves : List Leaf := []

/-- The distinct styles of the leaves, in the order in which fonts are loaded. -/
def Frame.fontStyles (frame : Frame) : List FontStyle :=
  FontStyle.all.filter fun style => frame.leaves.any (·.style == style)

end CanvasLink.Markup
