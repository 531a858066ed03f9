import CanvasLink.Markup.Color
import CanvasLink.Proofs.Script.Reading

/-!
# CanvasLink — running a script

The target that a script runs against. It enforces what the real one does:

* a font can be used once a group of loads with it has been awaited; the characters of a text
  element cannot be set before that;
* only an element that has a parent can be told to fill it;
* a name is declared once, and before it is used.

Whatever the rules refuse is raised, and a run that raises has no result. `World.trace` keeps what
a run has done, in order.
-/

namespace CanvasLink.Script

/-! ## The target -/

structure Font where
  family : String
  style : String
deriving DecidableEq

inductive Value where
  | absent
  | text (value : String)
  | number (value : Float)
  | boolean (b : Bool)
  | object (keys : List String) (values : List Value)
  | list (items : List Value)
  | element (index : Nat)
  /-- A promise that these fonts are loaded. -/
  | loading (fonts : List Font)

inductive Kind where
  | frame
  | text
deriving DecidableEq

def Kind.type : Kind → String
  | .frame => "FRAME"
  | .text => "TEXT"

/-- An element, with its properties in the order in which they were first set. -/
structure Element where
  kind : Kind
  properties : List (String × Value)
  parent : Option Nat := none
  children : List Nat := []

inductive Event where
  | requested (font : Font)
  /-- A group of loads has been awaited. -/
  | loaded (fonts : List Font)
  | created (element : Nat)
  | assigned (element : Nat) (property : String)
  | appended (parent child : Nat)
deriving DecidableEq

structure World where
  bindings : List (String × Value) := []
  /-- Whether `rgb` has been declared. -/
  colors : Bool := false
  loaded : List Font := []
  elements : List Element := []
  trace : List Event := []

inductive Failure where
  | notAScript
  | unbound (name : String)
  | redeclared (name : String)
  | notAnElement
  | notCallable (callee : List String)
  | fontNotLoaded
  | fillOutsideParent

abbrev Run := Except Failure

/-! ## Elements -/

def Element.property? (e : Element) (name : String) : Option Value :=
  e.properties.lookup name

/-- The properties with one of them set. -/
def setProperty (name : String) (value : Value) : List (String × Value) → List (String × Value)
  | [] => [(name, value)]
  | (other, old) :: rest =>
    if other = name then (name, value) :: rest else (other, old) :: setProperty name value rest

/-- The font that an object names. -/
def Value.font? : Value → Option Font
  | .object ["family", "style"] [.text family, .text style] => some ⟨family, style⟩
  | _ => none

def Value.fonts? : Value → Option (List Font)
  | .loading fonts => some fonts
  | _ => none

/-- Whether a text element may be given characters. -/
def World.canWrite (w : World) (e : Element) : Bool :=
  match (e.property? "fontName").bind Value.font? with
  | some font => font ∈ w.loaded
  | none => false

/-- What the target has against a property's value. -/
def World.refusal? (w : World) (e : Element) (property : String) (value : Value) :
    Option Failure :=
  match e.kind, property, value with
  | .text, "characters", _ => if w.canWrite e then none else some .fontNotLoaded
  | .text, "layoutSizingHorizontal", .text "FILL" =>
    if e.parent.isNone then some .fillOutsideParent else none
  | _, _, _ => none

def World.setProperty (w : World) (index : Nat) (property : String) (value : Value) :
    Run World :=
  match w.elements[index]? with
  | none => .error .notAnElement
  | some e =>
    match w.refusal? e property value with
    | some failure => .error failure
    | none =>
      .ok { w with
        elements := w.elements.set index
          { e with properties := Script.setProperty property value e.properties }
        trace := w.trace ++ [Event.assigned index property] }

def World.create (w : World) (kind : Kind) : Value × World :=
  let index := w.elements.length
  let id := toString (index + 1) ++ ":1"
  (.element index,
    { w with
      elements := w.elements ++ [⟨kind, [("id", .text id), ("type", .text kind.type)], none, []⟩]
      trace := w.trace ++ [Event.created index] })

def World.append (w : World) (parent child : Nat) : Run World :=
  match w.elements[parent]?, w.elements[child]? with
  | some p, some c =>
    .ok { w with
      elements := (w.elements.set child { c with parent := some parent }).set parent
        { p with children := p.children ++ [child] }
      trace := w.trace ++ [Event.appended parent child] }
  | _, _ => .error .notAnElement

/-! ## Names and calls -/

/-- Names that the target gives a meaning of its own. -/
def reserved : List String := ["figma", "Promise", "rgb"]

def World.declare (w : World) (name : String) (value : Value) : Run World :=
  if name ∈ reserved ∨ (w.bindings.lookup name).isSome then .error (.redeclared name)
  else .ok { w with bindings := (name, value) :: w.bindings }

def World.value (w : World) (name : String) : Run Value :=
  match w.bindings.lookup name with
  | some value => .ok value
  | none => .error (.unbound name)

def World.element (w : World) (name : String) : Run Nat :=
  match w.value name with
  | .ok (.element index) => .ok index
  | .ok _ => .error .notAnElement
  | .error failure => .error failure

/-- The value of a path. -/
def World.read (w : World) : List String → Run Value
  | [name] => w.value name
  | [name, property] => do
    let index ← w.element name
    match w.elements[index]? with
    | some e => .ok ((e.property? property).getD .absent)
    | none => .error .notAnElement
  | _ => .error .notAnElement

/-- The channels that six digits write, each a byte divided by 255. -/
def channels (c : Markup.Color) : Value :=
  .object ["r", "g", "b"] [.number (c.red.toNat.toFloat / 255), .number (c.green.toNat.toFloat / 255),
    .number (c.blue.toNat.toFloat / 255)]

def World.call (w : World) : List String → List Value → Run (Value × World)
  | ["figma", "createFrame"], [] => .ok (w.create .frame)
  | ["figma", "createText"], [] => .ok (w.create .text)
  | ["figma", "loadFontAsync"], [value] =>
    match value.font? with
    | some font => .ok (.loading [font], { w with trace := w.trace ++ [Event.requested font] })
    | none => .error (.notCallable ["figma", "loadFontAsync"])
  | ["Promise", "all"], [.list promises] =>
    match promises.mapM Value.fonts? with
    | some fonts => .ok (.loading fonts.flatten, w)
    | none => .error (.notCallable ["Promise", "all"])
  | ["rgb"], [.text digits] =>
    match w.colors, Markup.Color.ofDigits? digits.toList with
    | true, some color => .ok (channels color, w)
    | _, _ => .error (.notCallable ["rgb"])
  | [name, "resize"], [.number width, .number height] => do
    let index ← w.element name
    let w ← w.setProperty index "width" (.number width)
    let w ← w.setProperty index "height" (.number height)
    return (.absent, w)
  | [name, "appendChild"], [.element child] => do
    let parent ← w.element name
    let w ← w.append parent child
    return (.element child, w)
  | callee, _ => .error (.notCallable callee)

/-! ## Expressions and statements -/

mutual

def Expr.eval : Expr → World → Run (Value × World)
  | .text value, w => .ok (.text value, w)
  | .number value, w => .ok (.number value, w)
  | .boolean b, w => .ok (.boolean b, w)
  | .path names, w => (w.read names).map fun value => (value, w)
  | .object keys values, w => (evalAll values w).map fun (values, w) => (.object keys values, w)
  | .list items, w => (evalAll items w).map fun (values, w) => (.list values, w)
  | .call callee arguments, w => do
    let (values, w) ← evalAll arguments w
    w.call callee values

/-- The values of expressions, from the first one on. -/
def evalAll : List Expr → World → Run (List Value × World)
  | [], w => .ok ([], w)
  | e :: es, w => do
    let (value, w) ← e.eval w
    let (values, w) ← evalAll es w
    return (value :: values, w)

end

def World.wait (w : World) : Value → World
  | .loading fonts => { w with loaded := w.loaded ++ fonts, trace := w.trace ++ [Event.loaded fonts] }
  | _ => w

def World.assign (w : World) : List String → Value → Run World
  | [name, property], value => do
    let index ← w.element name
    w.setProperty index property value
  | _, _ => .error .notAnElement

/-- One statement other than `return`. -/
def Stmt.exec : Stmt → World → Run World
  | .colors, w => .ok { w with colors := true }
  | .constant name e, w => do
    let (value, w) ← e.eval w
    w.declare name value
  | .assign path e, w => do
    let (value, w) ← e.eval w
    w.assign path value
  | .evaluate e, w => do
    let (_, w) ← e.eval w
    return w
  | .wait e, w => do
    let (value, w) ← e.eval w
    return w.wait value
  | .result _, w => .ok w

/-- Statements up to the first `return`, with its value. -/
def runAll : List Stmt → World → Run (Value × World)
  | [], w => .ok (.absent, w)
  | .result e :: _, w => e.eval w
  | statement :: statements, w => do
    let w ← statement.exec w
    runAll statements w

/-- **Runs a script** in a fresh target. -/
def run (script : String) : Run (Value × World) :=
  match program? script with
  | some statements => runAll statements {}
  | none => .error .notAScript

end CanvasLink.Script
