import CanvasLink.Decimal.Layout
import CanvasLink.Json.Quoted
import CanvasLink.Markup.Frame

/-!
# CanvasLink — scripts

A compiled frame is a script for the target's scripting interface: a list of statements inside an
asynchronous function that is called at once. The order of the statements is what the target asks
for:

1. every font the leaves need is loaded, in one group, before any node exists;
2. the frame is created and styled;
3. each leaf is created, styled, filled with text and appended, in source order;
4. the script's result is the frame's id and name.

`Frame.statements` is the compiler proper; `Script.render` writes statements as text, one
statement a line.
-/

namespace CanvasLink.Markup

/-- The nodes that a script holds in variables. -/
inductive Node where
  | frame
  | leaf (index : Nat)
deriving DecidableEq, Repr

/-- The properties that a script assigns. -/
inductive Property where
  | name
  | x
  | y
  | cornerRadius
  | fills
  | layoutMode
  | itemSpacing
  | paddingTop
  | paddingRight
  | paddingBottom
  | paddingLeft
  | primaryAxisSizingMode
  | counterAxisSizingMode
  | clipsContent
  | fontName
  | fontSize
  | characters
  | textAutoResize
  | layoutSizingHorizontal
deriving DecidableEq, Repr

/-- The values that a script assigns. -/
inductive Literal where
  | string (text : String)
  | number (n : Float)
  | boolean (b : Bool)
  /-- The font of a style. -/
  | font (style : FontStyle)
  /-- A list of one solid paint. -/
  | solid (color : Color)

/-- A statement of a script. -/
inductive Statement where
  /-- Defines the function that turns six digits into the channels of a color. -/
  | defineColor
  /-- Loads fonts together and waits for all of them. -/
  | loadFonts (styles : List FontStyle)
  | create (node : Node)
  | resize (width height : Float)
  | assign (node : Node) (property : Property) (value : Literal)
  /-- Appends a leaf to the frame. -/
  | append (index : Nat)
  /-- Ends the script with the frame's id and name. -/
  | finish

/-! ## Compilation -/

/-- The statements that create and style the frame itself. -/
def Frame.setup (frame : Frame) : List Statement :=
  [.create .frame,
   .assign .frame .name (.string frame.name),
   .resize frame.width frame.height,
   .assign .frame .x (.number frame.x),
   .assign .frame .y (.number frame.y),
   .assign .frame .cornerRadius (.number frame.cornerRadius),
   .assign .frame .fills (.solid frame.fill),
   .assign .frame .layoutMode (.string frame.axis.mode),
   .assign .frame .itemSpacing (.number frame.gap),
   .assign .frame .paddingTop (.number frame.padding.top),
   .assign .frame .paddingRight (.number frame.padding.right),
   .assign .frame .paddingBottom (.number frame.padding.bottom),
   .assign .frame .paddingLeft (.number frame.padding.left),
   .assign .frame .primaryAxisSizingMode (.string "FIXED"),
   .assign .frame .counterAxisSizingMode (.string "FIXED"),
   .assign .frame .clipsContent (.boolean true)]

/-- The statements that create, fill and append one leaf. A leaf may only be stretched once it
stands inside the frame. -/
def Leaf.setup (index : Nat) (leaf : Leaf) : List Statement :=
  [.create (.leaf index),
   .assign (.leaf index) .fontName (.font leaf.style),
   .assign (.leaf index) .fontSize (.number leaf.size),
   .assign (.leaf index) .characters (.string leaf.content),
   .assign (.leaf index) .fills (.solid leaf.color)]
  ++ (if leaf.fillWidth then [.assign (.leaf index) .textAutoResize (.string "HEIGHT")] else [])
  ++ [.append index]
  ++ (if leaf.fillWidth then
        [.assign (.leaf index) .layoutSizingHorizontal (.string "FILL")]
      else [])

/-- The statements for leaves that are numbered from `index` on. -/
def Leaf.setupFrom (index : Nat) : List Leaf → List Statement
  | [] => []
  | leaf :: leaves => leaf.setup index ++ setupFrom (index + 1) leaves

/-- The statement that loads the fonts of the leaves, if there are any. -/
def Frame.fontLoading (frame : Frame) : List Statement :=
  match frame.fontStyles with
  | [] => []
  | styles => [.loadFonts styles]

/-- All statements of a frame's script, in order. -/
def Frame.statements (frame : Frame) : List Statement :=
  [.defineColor] ++ frame.fontLoading ++ frame.setup ++ Leaf.setupFrom 0 frame.leaves ++ [.finish]

/-! ## Text -/

/-- A character inside a script string. Two line separators are escaped beyond what JSON asks,
because older engines take them for the end of a line. -/
def escapeScriptChar (c : Char) : List Char :=
  if c = '\u2028' then ['\\', 'u', '2', '0', '2', '8']
  else if c = '\u2029' then ['\\', 'u', '2', '0', '2', '9']
  else Json.escapeChar c

/-- A text as a script string. -/
def scriptString (s : String) : String :=
  String.ofList ('"' :: s.toList.flatMap escapeScriptChar ++ ['"'])

/-- The variable that holds a node. -/
def Node.variable : Node → String
  | .frame => "frame"
  | .leaf index => "text" ++ toString index

/-- The call that creates a node. -/
def Node.creation : Node → String
  | .frame => "figma.createFrame()"
  | .leaf _ => "figma.createText()"

def Property.text : Property → String
  | .name => "name"
  | .x => "x"
  | .y => "y"
  | .cornerRadius => "cornerRadius"
  | .fills => "fills"
  | .layoutMode => "layoutMode"
  | .itemSpacing => "itemSpacing"
  | .paddingTop => "paddingTop"
  | .paddingRight => "paddingRight"
  | .paddingBottom => "paddingBottom"
  | .paddingLeft => "paddingLeft"
  | .primaryAxisSizingMode => "primaryAxisSizingMode"
  | .counterAxisSizingMode => "counterAxisSizingMode"
  | .clipsContent => "clipsContent"
  | .fontName => "fontName"
  | .fontSize => "fontSize"
  | .characters => "characters"
  | .textAutoResize => "textAutoResize"
  | .layoutSizingHorizontal => "layoutSizingHorizontal"

/-- Font family of every leaf. -/
def fontFamily : String := "Inter"

/-- The object that names the font of a style. -/
def FontStyle.font (style : FontStyle) : String :=
  "\x7b family: " ++ scriptString fontFamily ++ ", style: " ++ scriptString style.name ++ " \x7d"

/-- The list of one solid paint of a color. -/
def Color.paint (color : Color) : String :=
  "[\x7b type: \"SOLID\", color: rgb(\"" ++ String.ofList color.toHex ++ "\") \x7d]"

def Literal.text : Literal → String
  | .string text => scriptString text
  | .number n => Decimal.plain.render n
  | .boolean b => if b then "true" else "false"
  | .font style => style.font
  | .solid color => color.paint

/-- Turns six digits into the channels of a color: each byte divided by 255. -/
def colorFunction : String :=
  "const rgb = (hex) => (\x7b r: parseInt(hex.slice(0, 2), 16) / 255, g: parseInt(hex.slice(2, 4), 16) / 255, b: parseInt(hex.slice(4, 6), 16) / 255 \x7d);"

/-- The lines of a statement. Only the loading of fonts takes more than one. -/
def Statement.lines : Statement → List String
  | .defineColor => [colorFunction]
  | .loadFonts styles =>
    ["await Promise.all(["] ++
      styles.map (fun style => "  figma.loadFontAsync(" ++ style.font ++ "),") ++ ["]);"]
  | .create node => ["const " ++ node.variable ++ " = " ++ node.creation ++ ";"]
  | .resize width height =>
    [Node.frame.variable ++ ".resize(" ++ Decimal.plain.render width ++ ", " ++
      Decimal.plain.render height ++ ");"]
  | .assign node property value =>
    [node.variable ++ "." ++ property.text ++ " = " ++ value.text ++ ";"]
  | .append index =>
    [Node.frame.variable ++ ".appendChild(" ++ (Node.leaf index).variable ++ ");"]
  | .finish =>
    ["return \x7b id: " ++ Node.frame.variable ++ ".id, name: " ++ Node.frame.variable ++
      ".name \x7d;"]

/-- The lines of a script: the statements, indented, inside the function that is called. -/
def Statement.script (statements : List Statement) : List String :=
  ["(async () => \x7b"] ++ (statements.flatMap lines).map ("  " ++ ·) ++ ["\x7d)()"]

/-- The script that builds a frame. -/
def Frame.emit (frame : Frame) : String :=
  "\n".intercalate (Statement.script frame.statements)

end CanvasLink.Markup
