import CanvasLink.Decimal.Numeral
import CanvasLink.Markup.Error
import CanvasLink.Markup.Frame

/-!
# CanvasLink — attributes and what they set

An attribute that its element recognises is read as a setting: a key together with a value of the
key's type. Settings are then applied in source order, so the last one of a key wins; padding is
resolved when all of them are known, because the most specific key wins there whatever its place.
-/

namespace CanvasLink.Markup

open CanvasLink.Text

/-- The value of an attribute as it is written. -/
inductive AttributeValue where
  /-- A quoted text, with its entities decoded. -/
  | literal (text : String)
  /-- A bare token in braces. -/
  | expression (token : String)
  /-- The attribute's name stands alone. -/
  | flag
deriving DecidableEq, Repr

/-- The text of a value that has one. -/
def AttributeValue.text? : AttributeValue → Option String
  | literal text => some text
  | expression token => some token
  | flag => none

structure Attribute where
  name : String
  value : AttributeValue
deriving DecidableEq, Repr

/-- Reading, where a refusal is placed by the input that is left. -/
abbrev Reading := Except (Refusal (List Char))

namespace Attribute

/-- The refusal of an attribute that does not hold what it should. -/
def invalid {α : Type} (a : Attribute) (element : Element) (expected : Expectation) : Reading α :=
  .error (.invalidValue element a.name (a.value.text?.getD "") expected)

/-- Any text. -/
def text (a : Attribute) (element : Element) : Reading String :=
  match a.value.text? with
  | some text => .ok text
  | none => a.invalid element .anyValue

/-- The finite number that the value writes, if it writes one. -/
def number? (a : Attribute) : Option Float :=
  match a.value.text? with
  | some text => (Decimal.read? (trim text.toList)).filter Float.isFinite
  | none => none

/-- A finite number. -/
def number (a : Attribute) (element : Element) : Reading Float :=
  match a.number? with
  | some n => .ok n
  | none => a.invalid element .number

/-- A finite number above zero. -/
def positive (a : Attribute) (element : Element) : Reading Float :=
  match a.number? with
  | some n => if 0 < n then .ok n else a.invalid element .positiveNumber
  | none => a.invalid element .positiveNumber

/-- A color. -/
def color (a : Attribute) (element : Element) : Reading Color :=
  match a.value.text? with
  | some text =>
    match Color.ofHex? text.toList with
    | some color => .ok color
    | none => a.invalid element .color
  | none => a.invalid element .color

/-- A layout direction. -/
def axis (a : Attribute) (element : Element) : Reading Axis :=
  match a.text element with
  | .ok "row" => .ok .horizontal
  | .ok "col" => .ok .vertical
  | .ok "column" => .ok .vertical
  | .ok _ => a.invalid element .direction
  | .error refusal => .error refusal

end Attribute

/-! ## Settings of a frame -/

/-- The sides that a padding attribute speaks of. -/
inductive Edge where
  | all
  | horizontal
  | vertical
  | top
  | right
  | bottom
  | left
deriving DecidableEq, Repr

/-- What an attribute of a frame sets. -/
inductive FrameKey where
  | name
  | width
  | height
  | x
  | y
  | fill
  | cornerRadius
  | axis
  | gap
  | padding (edge : Edge)
deriving DecidableEq, Repr

/-- The key that an attribute name stands for. -/
def FrameKey.ofName? : String → Option FrameKey
  | "name" => some .name
  | "w" => some .width
  | "width" => some .width
  | "h" => some .height
  | "height" => some .height
  | "x" => some .x
  | "y" => some .y
  | "bg" => some .fill
  | "fill" => some .fill
  | "rounded" => some .cornerRadius
  | "radius" => some .cornerRadius
  | "flex" => some .axis
  | "gap" => some .gap
  | "p" => some (.padding .all)
  | "padding" => some (.padding .all)
  | "px" => some (.padding .horizontal)
  | "py" => some (.padding .vertical)
  | "pt" => some (.padding .top)
  | "pr" => some (.padding .right)
  | "pb" => some (.padding .bottom)
  | "pl" => some (.padding .left)
  | _ => none

/-- A key of a frame with its value. -/
inductive FrameSetting where
  | name (text : String)
  | width (n : Float)
  | height (n : Float)
  | x (n : Float)
  | y (n : Float)
  | fill (color : Color)
  | cornerRadius (n : Float)
  | axis (axis : Axis)
  | gap (n : Float)
  | padding (edge : Edge) (n : Float)

/-- Reads the value of an attribute as its key asks. -/
def FrameKey.read (a : Attribute) : FrameKey → Reading FrameSetting
  | .name => (a.text .frame).map .name
  | .width => (a.positive .frame).map .width
  | .height => (a.positive .frame).map .height
  | .x => (a.number .frame).map .x
  | .y => (a.number .frame).map .y
  | .fill => (a.color .frame).map .fill
  | .cornerRadius => (a.number .frame).map .cornerRadius
  | .axis => (a.axis .frame).map .axis
  | .gap => (a.number .frame).map .gap
  | .padding edge => (a.number .frame).map (.padding edge)

/-- The settings among the attributes of a frame, in source order. Attributes that are not
recognised are passed over; the first bad value is refused. -/
def FrameSetting.ofAttributes : List Attribute → Reading (List FrameSetting)
  | [] => .ok []
  | a :: rest =>
    match FrameKey.ofName? a.name with
    | none => ofAttributes rest
    | some key => do
      let setting ← key.read a
      let settings ← ofAttributes rest
      return setting :: settings

/-- Padding as far as the attributes fix it. -/
structure PaddingPlan where
  all : Option Float := none
  horizontal : Option Float := none
  vertical : Option Float := none
  top : Option Float := none
  right : Option Float := none
  bottom : Option Float := none
  left : Option Float := none

namespace PaddingPlan

/-- The plan with one more attribute taken in. -/
def set (plan : PaddingPlan) (n : Float) : Edge → PaddingPlan
  | .all => { plan with all := some n }
  | .horizontal => { plan with horizontal := some n }
  | .vertical => { plan with vertical := some n }
  | .top => { plan with top := some n }
  | .right => { plan with right := some n }
  | .bottom => { plan with bottom := some n }
  | .left => { plan with left := some n }

/-- Each side takes its own value, else that of its axis, else the common one, else zero. -/
def resolve (plan : PaddingPlan) : Padding :=
  let base := plan.all.getD 0
  let horizontal := plan.horizontal.getD base
  let vertical := plan.vertical.getD base
  { top := plan.top.getD vertical
    right := plan.right.getD horizontal
    bottom := plan.bottom.getD vertical
    left := plan.left.getD horizontal }

end PaddingPlan

/-- A frame while its settings are applied, with the padding still open. -/
structure FrameDraft where
  frame : Frame := {}
  plan : PaddingPlan := {}

/-- The draft with one more setting applied. -/
def FrameDraft.apply (draft : FrameDraft) : FrameSetting → FrameDraft
  | .name text => { draft with frame.name := text }
  | .width n => { draft with frame.width := n }
  | .height n => { draft with frame.height := n }
  | .x n => { draft with frame.x := n }
  | .y n => { draft with frame.y := n }
  | .fill color => { draft with frame.fill := color }
  | .cornerRadius n => { draft with frame.cornerRadius := n }
  | .axis axis => { draft with frame.axis := axis }
  | .gap n => { draft with frame.gap := n }
  | .padding edge n => { draft with plan := draft.plan.set n edge }

/-- The frame that settings describe, still without leaves. -/
def Frame.ofSettings (settings : List FrameSetting) : Frame :=
  let draft := settings.foldl FrameDraft.apply {}
  { draft.frame with padding := draft.plan.resolve }

/-- The frame that the attributes of a `<Frame>` tag describe. -/
def Frame.ofAttributes (attributes : List Attribute) : Reading Frame :=
  (FrameSetting.ofAttributes attributes).map Frame.ofSettings

/-! ## Settings of a leaf -/

/-- What an attribute of a text leaf sets. -/
inductive LeafKey where
  | size
  | style
  | color
  | fillWidth
deriving DecidableEq, Repr

/-- The key that an attribute name stands for. -/
def LeafKey.ofName? : String → Option LeafKey
  | "size" => some .size
  | "weight" => some .style
  | "color" => some .color
  | "w" => some .fillWidth
  | _ => none

/-- A key of a leaf with its value. -/
inductive LeafSetting where
  | size (n : Float)
  | style (style : FontStyle)
  | color (color : Color)
  | fillWidth (fill : Bool)

/-- Reads the value of an attribute as its key asks. Every weight and every width is accepted: a
weight that is not known is regular, and only the width `fill` has an effect. -/
def LeafKey.read (a : Attribute) : LeafKey → Reading LeafSetting
  | .size => (a.positive .text).map .size
  | .style => .ok (.style (FontStyle.ofWeight (a.value.text?.getD "").toList))
  | .color => (a.color .text).map .color
  | .fillWidth => .ok (.fillWidth (a.value.text? == some "fill"))

/-- The settings among the attributes of a leaf, in source order. -/
def LeafSetting.ofAttributes : List Attribute → Reading (List LeafSetting)
  | [] => .ok []
  | a :: rest =>
    match LeafKey.ofName? a.name with
    | none => ofAttributes rest
    | some key => do
      let setting ← key.read a
      let settings ← ofAttributes rest
      return setting :: settings

/-- The leaf with one more setting applied. -/
def Leaf.apply (leaf : Leaf) : LeafSetting → Leaf
  | .size n => { leaf with size := n }
  | .style style => { leaf with style := style }
  | .color color => { leaf with color := color }
  | .fillWidth fill => { leaf with fillWidth := fill }

/-- The leaf that the attributes of a `<Text>` tag and its content describe. -/
def Leaf.ofAttributes (attributes : List Attribute) (content : String) : Reading Leaf :=
  (LeafSetting.ofAttributes attributes).map fun settings =>
    settings.foldl Leaf.apply { content := content }

end CanvasLink.Markup
