import CanvasLink.Proofs.Markup.Colors
import CanvasLink.Proofs.Script.Engine
import CanvasLink.Proofs.Script.Parsing

/-!
# CanvasLink — what a script builds

Running the script of a frame builds that frame: `Built` says what the target holds and has done
at the end, in terms of the frame alone.

* `Steps` — statements that take one state of the target to another, whatever follows them.
* `steps_assign`, `steps_leaf` — one lemma for each kind of step, from which the frame and its
  leaves are assembled.
* **`run_emit`** — the headline.
-/

namespace CanvasLink.Script

open CanvasLink.Markup

/-! ## What should be there -/

def fontOf (style : FontStyle) : Font :=
  ⟨fontFamily, style.name⟩

def literalValue : Literal → Value
  | .string value => .text value
  | .number value => .number value
  | .boolean b => .boolean b
  | .font style => .object ["family", "style"] [.text fontFamily, .text style.name]
  | .solid color => .list [.object ["type", "color"] [.text "SOLID", channels color]]

/-- The element of a frame, with `count` children. -/
def frameElement (frame : Frame) (count : Nat) : Element where
  kind := .frame
  properties :=
    [("id", .text "1:1"), ("type", .text "FRAME"), ("name", .text frame.name),
     ("width", .number frame.width), ("height", .number frame.height), ("x", .number frame.x),
     ("y", .number frame.y), ("cornerRadius", .number frame.cornerRadius),
     ("fills", literalValue (.solid frame.fill)), ("layoutMode", .text frame.axis.mode),
     ("itemSpacing", .number frame.gap), ("paddingTop", .number frame.padding.top),
     ("paddingRight", .number frame.padding.right), ("paddingBottom", .number frame.padding.bottom),
     ("paddingLeft", .number frame.padding.left), ("primaryAxisSizingMode", .text "FIXED"),
     ("counterAxisSizingMode", .text "FIXED"), ("clipsContent", .boolean true)]
  children := (List.range count).map (· + 1)

/-- The element of the leaf with an index. -/
def leafElement (index : Nat) (leaf : Leaf) : Element where
  kind := .text
  properties :=
    [("id", .text (toString (index + 2) ++ ":1")), ("type", .text "TEXT"),
     ("fontName", literalValue (.font leaf.style)), ("fontSize", .number leaf.size),
     ("characters", .text leaf.content), ("fills", literalValue (.solid leaf.color))] ++
    (if leaf.fillWidth then
      [("textAutoResize", .text "HEIGHT"), ("layoutSizingHorizontal", .text "FILL")]
    else [])
  parent := some 0

/-- All that is done to the element of a leaf, in order. -/
def leafHistory (index : Nat) (leaf : Leaf) : List Event :=
  [Event.created (index + 1), .assigned (index + 1) "fontName", .assigned (index + 1) "fontSize",
   .assigned (index + 1) "characters", .assigned (index + 1) "fills"] ++
  (if leaf.fillWidth then [Event.assigned (index + 1) "textAutoResize"] else []) ++
  [Event.appended 0 (index + 1)] ++
  (if leaf.fillWidth then [Event.assigned (index + 1) "layoutSizingHorizontal"] else [])

/-- Whether an event is about an element other than the frame. -/
def Event.concerns (element : Nat) : Event → Bool
  | .created i => i == element
  | .assigned i _ => i == element
  | .appended _ child => child == element
  | _ => false

def Event.isLoad : Event → Bool
  | .requested _ => true
  | .loaded _ => true
  | _ => false

/-- One group of loads that is awaited; nothing when there is nothing to load. -/
def loadHistory : List FontStyle → List Event
  | [] => []
  | styles => styles.map (fun style => .requested (fontOf style)) ++ [Event.loaded (styles.map fontOf)]

def frameNumbers (frame : Frame) : List Float :=
  [frame.width, frame.height, frame.x, frame.y, frame.cornerRadius, frame.gap, frame.padding.top,
   frame.padding.right, frame.padding.bottom, frame.padding.left] ++ frame.leaves.map (·.size)

/-- The target holds the frame and nothing else, and has built it in an order that it allows. -/
structure Built (frame : Frame) (result : Value) (w : World) : Prop where
  /-- Every style of the leaves is requested once, in one awaited group, before anything else is
  done; no other one is. -/
  loads : ∃ styles rest, styles.Nodup ∧
    (∀ style, style ∈ styles ↔ ∃ leaf ∈ frame.leaves, leaf.style = style) ∧
    w.trace = loadHistory styles ++ rest ∧ ∀ e ∈ rest, e.isLoad = false
  elements : w.elements =
    frameElement frame frame.leaves.length :: frame.leaves.mapIdx fun i leaf => leafElement i leaf
  leaves : ∀ index leaf, frame.leaves[index]? = some leaf →
    w.trace.filter (Event.concerns (index + 1)) = leafHistory index leaf
  result : result = .object ["id", "name"] [.text "1:1", .text frame.name]

/-! ## Steps -/

/-- Statements that take one state of the target to another, whatever follows them. -/
def Steps (statements : List Statement) (w w' : World) : Prop :=
  ∀ rest, runAll (statements.map stmtOf ++ rest) w = runAll rest w'

/-- No statement leaves the target as it is. -/
theorem Steps.nil (w : World) : Steps [] w w :=
  fun _ => rfl

/-- Statements take the target on from where those before them left it. -/
theorem Steps.append {a b : List Statement} {w w' w'' : World} (ha : Steps a w w')
    (hb : Steps b w' w'') : Steps (a ++ b) w w'' := by
  intro rest
  rw [List.map_append, List.append_assoc, ha, hb]

/-- A statement other than the last one takes the target where its execution does. -/
theorem Steps.of_exec {s : Statement} {w w' : World} (hs : s ≠ .finish)
    (h : (stmtOf s).exec w = .ok w') : Steps [s] w w' := by
  intro rest
  have hrun : runAll (stmtOf s :: rest) w = (stmtOf s).exec w >>= runAll rest := by
    cases s <;> first | rfl | exact absurd rfl hs
  rw [List.map_singleton, List.singleton_append, hrun, h]
  rfl

/-! ## Values -/

/-- A literal evaluates to its value, once the color function is defined. -/
theorem eval_literal (value : Literal) {w : World} (hw : w.colors = true) :
    (literalExpr value).eval w = .ok (literalValue value, w) := by
  cases value with
  | solid color =>
    have hcall : w.call ["rgb"] [.text (String.ofList color.toHex)] = .ok (channels color, w) := by
      simp [World.call, hw, Color.ofDigits?_toHex]
    simp [literalExpr, paintExpr, Expr.eval, evalAll, hcall, literalValue, bind, Except.bind,
      Except.map, pure, Except.pure]
  | _ => rfl

/-! ## Elements -/

/-- Whether a property of an element is set without a condition. -/
def IsFree (kind : Kind) (property : String) : Prop :=
  kind = .frame ∨ property ≠ "characters" ∧ property ≠ "layoutSizingHorizontal"

/-- A property that is free is never refused. -/
theorem refusal?_of_isFree {e : Element} {property : String} (h : IsFree e.kind property)
    (w : World) (value : Value) : w.refusal? e property value = none := by
  unfold World.refusal?
  split
  · next hkind =>
    rcases h with h | h
    · rw [hkind] at h
      cases h
    · exact absurd rfl h.1
  · next hkind =>
    rcases h with h | h
    · rw [hkind] at h
      cases h
    · exact absurd rfl h.2
  · rfl

/-- The characters of a text are not refused when the font that it is in has been loaded. -/
theorem refusal?_characters {w : World} {e : Element} {style : FontStyle}
    (hfont : e.property? "fontName" = some (literalValue (.font style)))
    (hloaded : fontOf style ∈ w.loaded) (value : Value) :
    w.refusal? e "characters" value = none := by
  have hwrite : w.canWrite e = true := by
    rw [World.canWrite, hfont]
    exact decide_eq_true hloaded
  unfold World.refusal?
  split
  · rw [if_pos hwrite]
  · next hproperty => simp at hproperty
  · rfl

/-- The state with a property of the last element set. -/
def World.withLast (w : World) (others : List Element) (e : Element) (events : List Event) : World :=
  { w with elements := others ++ [e], trace := w.trace ++ events }

/-- A property of the newest element is set where nothing speaks against it. -/
theorem setProperty_last {w : World} {others : List Element} {e : Element} {property : String}
    {value : Value} (hw : w.elements = others ++ [e]) (h : w.refusal? e property value = none) :
    w.setProperty others.length property value =
      .ok (w.withLast others
        { e with properties := setProperty property value e.properties }
        [.assigned others.length property]) := by
  unfold World.setProperty World.withLast
  simp [hw, h]

/-- One assignment to the element created last. -/
theorem steps_assign {w : World} (others : List Element) {e : Element} {node : Node}
    (property : Property) (value : Literal) (hw : w.elements = others ++ [e])
    (hcolors : w.colors = true)
    (hname : w.bindings.lookup node.variable = some (.element others.length))
    (h : w.refusal? e property.text (literalValue value) = none) :
    Steps [.assign node property value] w
      (w.withLast others
        { e with properties := setProperty property.text (literalValue value) e.properties }
        [.assigned others.length property.text]) := by
  refine Steps.of_exec (by simp) ?_
  have helement : w.element node.variable = .ok others.length := by
    simp [World.element, World.value, hname]
  simp [stmtOf, Stmt.exec, eval_literal value hcolors, World.assign, helement,
    setProperty_last hw h, bind, Except.bind]

/-- The properties after assignments, one after the other. -/
def assigned (assignments : List (Property × Literal)) (properties : List (String × Value)) :
    List (String × Value) :=
  assignments.foldl (fun properties a => setProperty a.1.text (literalValue a.2) properties)
    properties

/-- Assignments without conditions to the element created last. Induction on the assignments. -/
theorem steps_assignAll {node : Node} {others : List Element} {assignments : List (Property × Literal)}
    {w : World} {e : Element} (hw : w.elements = others ++ [e]) (hcolors : w.colors = true)
    (hname : w.bindings.lookup node.variable = some (.element others.length))
    (h : ∀ a ∈ assignments, IsFree e.kind a.1.text) :
    Steps (assignments.map fun a => .assign node a.1 a.2) w
      (w.withLast others { e with properties := assigned assignments e.properties }
        (assignments.map fun a => .assigned others.length a.1.text)) := by
  -- The world and its last element change with every assignment.
  induction assignments generalizing w e with
  | nil =>
    have hsame : w.withLast others { e with properties := assigned [] e.properties } [] = w := by
      simp [World.withLast, assigned, ← hw]
    rw [List.map_nil, List.map_nil, hsame]
    exact Steps.nil w
  | cons a assignments ih =>
    have hfirst := steps_assign others a.1 a.2 hw hcolors hname
      (refusal?_of_isFree (h a (by simp)) w (literalValue a.2))
    have hrest := ih (w := w.withLast others
        { e with properties := setProperty a.1.text (literalValue a.2) e.properties }
        [.assigned others.length a.1.text]) rfl hcolors hname
      fun b hb => h b (List.mem_cons_of_mem a hb)
    have hboth := hfirst.append hrest
    simpa [World.withLast, assigned] using hboth

/-- To resize the newest frame sets its width and its height. -/
theorem steps_resize {w : World} {others : List Element} {e : Element} (width height : Float)
    (hw : w.elements = others ++ [e]) (hkind : e.kind = .frame)
    (hname : w.bindings.lookup "frame" = some (.element others.length)) :
    Steps [.resize width height] w
      (w.withLast others
        { e with properties :=
            setProperty "height" (.number height) (setProperty "width" (.number width) e.properties) }
        [.assigned others.length "width", .assigned others.length "height"]) := by
  have helement : w.element "frame" = .ok others.length := by
    simp [World.element, World.value, hname]
  have hfree (e : Element) (hkind : e.kind = .frame) (w : World) (property : String)
      (value : Value) : w.refusal? e property value = none :=
    refusal?_of_isFree (.inl hkind) w value
  have hwidth := setProperty_last hw (hfree e hkind w "width" (.number width))
  -- The width is assigned first, so the height meets the element already changed.
  let e' : Element := { e with properties := setProperty "width" (.number width) e.properties }
  let w' : World := w.withLast others e' [.assigned others.length "width"]
  have hw' : w'.elements = others ++ [e'] := rfl
  have hheight := setProperty_last hw' (hfree e' hkind w' "height" (.number height))
  refine Steps.of_exec (by simp) ?_
  simp only [w', e'] at hheight
  simp [stmtOf, Stmt.exec, Expr.eval, evalAll, World.call, helement, hwidth, hheight, bind,
    Except.bind, pure, Except.pure]
  simp [World.withLast]

theorem steps_create {node : Node} (kind : Kind) {w : World}
    (hkind : ∀ w, (creationExpr node).eval w = .ok (w.create kind))
    (hname : node.variable ∉ reserved) (hfresh : w.bindings.lookup node.variable = none) :
    Steps [.create node] w
      { w with
        bindings := (node.variable, .element w.elements.length) :: w.bindings
        elements := w.elements ++
          [⟨kind, [("id", .text (toString (w.elements.length + 1) ++ ":1")),
            ("type", .text kind.type)], none, []⟩]
        trace := w.trace ++ [Event.created w.elements.length] } := by
  refine Steps.of_exec (by simp) ?_
  simp [stmtOf, Stmt.exec, hkind, World.create, World.declare, hname, hfresh, bind, Except.bind]

/-! ## The frame -/

/-- Where the loading of fonts leads from a fresh target. -/
def loadedWorld (styles : List FontStyle) : World where
  colors := true
  loaded := styles.map fontOf
  trace := loadHistory styles

/-- Fonts are requested one after the other, and none is loaded by that alone. -/
theorem evalAll_loads (styles : List FontStyle) (w : World) :
    evalAll (styles.map loadExpr) w =
      .ok (styles.map fun style => .loading [fontOf style],
        { w with trace := w.trace ++ styles.map fun style => .requested (fontOf style) }) := by
  induction styles generalizing w with
  | nil => simp [evalAll]
  | cons style styles ih =>
    have hload : (loadExpr style).eval w =
        .ok (.loading [fontOf style],
          { w with trace := w.trace ++ [Event.requested (fontOf style)] }) := by
      simp [loadExpr, fontExpr, Expr.eval, evalAll, World.call, Value.font?, fontOf, bind,
        Except.bind, Except.map, pure, Except.pure]
    simp [evalAll, hload, ih, bind, Except.bind, pure, Except.pure]

/-- The group of loads asks for all fonts and is not yet awaited. -/
theorem eval_group (styles : List FontStyle) (w : World) :
    (Expr.call ["Promise", "all"] [.list (styles.map loadExpr)]).eval w =
      .ok (.loading (styles.map fontOf),
        { w with trace := w.trace ++ styles.map fun style => .requested (fontOf style) }) := by
  have hflat : (styles.map fun style => [fontOf style]).flatten = styles.map fontOf := by
    rw [← List.flatMap_def]
    exact List.map_eq_flatMap.symm
  -- Each loading stands for its own font, and the group for all of them.
  have hfonts : (styles.map fun style => Value.loading [fontOf style]).mapM Value.fonts? =
      some (styles.map fun style => [fontOf style]) := by
    clear hflat
    induction styles with
    | nil => rfl
    | cons style styles ih =>
      rw [List.map_cons, List.mapM_cons, ih]
      rfl
  simp [Expr.eval, evalAll, evalAll_loads, World.call, hfonts, hflat, bind, Except.bind,
    Except.map, pure, Except.pure]

/-- When the fonts have been awaited all of them are loaded, and nothing else has been done. -/
theorem steps_loads (frame : Frame) :
    Steps ([Statement.defineColor] ++ frame.fontLoading) {} (loadedWorld frame.fontStyles) := by
  have hcolors : Steps [.defineColor] {} { colors := true } := Steps.of_exec (by simp) rfl
  refine hcolors.append ?_
  cases hstyles : frame.fontStyles with
  | nil =>
    rw [Frame.fontLoading, hstyles]
    exact Steps.nil _
  | cons style styles =>
    rw [Frame.fontLoading, hstyles]
    refine Steps.of_exec (by simp) ?_
    rw [stmtOf, Stmt.exec, eval_group]
    rfl

/-- Where the statements of the frame itself lead, and then those of `leaves`. -/
def leafWorld (frame : Frame) (frameTrace : List Event) (leaves : List Leaf) : World where
  bindings :=
    ((List.range leaves.length).reverse.map fun i => ((Node.leaf i).variable, .element (i + 1))) ++
      [("frame", .element 0)]
  colors := true
  loaded := frame.fontStyles.map fontOf
  elements := frameElement frame leaves.length :: leaves.mapIdx fun i leaf => leafElement i leaf
  trace := frameTrace ++ (leaves.mapIdx fun i leaf => leafHistory i leaf).flatten

/-- All that is done to the frame before its first leaf, in order. -/
def frameHistory : List Event :=
  .created 0 :: ["name", "width", "height", "x", "y", "cornerRadius", "fills", "layoutMode",
    "itemSpacing", "paddingTop", "paddingRight", "paddingBottom", "paddingLeft",
    "primaryAxisSizingMode", "counterAxisSizingMode", "clipsContent"].map (.assigned 0)

/-- The target while the frame is being styled. -/
def frameWorld (frame : Frame) (properties : List (String × Value)) (events : List Event) :
    World where
  bindings := [("frame", .element 0)]
  colors := true
  loaded := frame.fontStyles.map fontOf
  elements := [⟨.frame, properties, none, []⟩]
  trace := loadHistory frame.fontStyles ++ events

/-- All properties of a frame are free, so its assignments are made one after the other. -/
theorem steps_frame_assignAll (frame : Frame) (assignments : List (Property × Literal))
    (properties : List (String × Value)) (events : List Event) :
    Steps (assignments.map fun a => .assign .frame a.1 a.2) (frameWorld frame properties events)
      (frameWorld frame (assigned assignments properties)
        (events ++ assignments.map fun a => .assigned 0 a.1.text)) := by
  have hw : (frameWorld frame properties events).elements = [] ++ [⟨.frame, properties, none, []⟩] :=
    rfl
  have hname : (frameWorld frame properties events).bindings.lookup (Node.variable .frame) =
      some (.element 0) := rfl
  have hsteps := steps_assignAll hw rfl hname fun a (_ : a ∈ assignments) => .inl rfl
  simpa [World.withLast, frameWorld] using hsteps

/-- What is assigned to the frame once it has its size. -/
def frameAssignments (frame : Frame) : List (Property × Literal) :=
  [(.x, .number frame.x), (.y, .number frame.y), (.cornerRadius, .number frame.cornerRadius),
   (.fills, .solid frame.fill), (.layoutMode, .string frame.axis.mode),
   (.itemSpacing, .number frame.gap), (.paddingTop, .number frame.padding.top),
   (.paddingRight, .number frame.padding.right), (.paddingBottom, .number frame.padding.bottom),
   (.paddingLeft, .number frame.padding.left), (.primaryAxisSizingMode, .string "FIXED"),
   (.counterAxisSizingMode, .string "FIXED"), (.clipsContent, .boolean true)]

/-- The assignments of a frame are all that its element should hold. -/
theorem assigned_frame (frame : Frame) :
    assigned (frameAssignments frame)
      (setProperty "height" (.number frame.height) (setProperty "width" (.number frame.width)
        (assigned [(.name, .string frame.name)] [("id", .text "1:1"), ("type", .text "FRAME")]))) =
      (frameElement frame 0).properties := by
  simp [assigned, frameAssignments, setProperty, Property.text, frameElement, literalValue]

/-- The statements of the frame leave it as it should be, without leaves. -/
theorem steps_frame (frame : Frame) :
    Steps frame.setup (loadedWorld frame.fontStyles)
      (leafWorld frame (loadHistory frame.fontStyles ++ frameHistory) []) := by
  have hname : Node.frame.variable ∉ reserved := by simp [Node.variable, reserved]
  have hid : toString (0 + 1) ++ ":1" = "1:1" := rfl
  have hcreate : Steps [.create .frame] (loadedWorld frame.fontStyles)
      (frameWorld frame [("id", .text "1:1"), ("type", .text "FRAME")] [.created 0]) := by
    have hsteps := steps_create .frame (w := loadedWorld frame.fontStyles) (fun _ => rfl)
      hname rfl
    rw [loadedWorld, List.length_nil, hid] at hsteps
    exact hsteps
  have hresize (properties : List (String × Value)) (events : List Event) :
      Steps [.resize frame.width frame.height] (frameWorld frame properties events)
        (frameWorld frame
          (setProperty "height" (.number frame.height)
            (setProperty "width" (.number frame.width) properties))
          (events ++ [Event.assigned 0 "width", .assigned 0 "height"])) := by
    have hw : (frameWorld frame properties events).elements =
        [] ++ [⟨.frame, properties, none, []⟩] := rfl
    have hsteps := steps_resize frame.width frame.height hw rfl rfl
    simpa [World.withLast, frameWorld] using hsteps
  have hfirst := steps_frame_assignAll frame [(.name, .string frame.name)]
    [("id", .text "1:1"), ("type", .text "FRAME")] [.created 0]
  have hall := ((hcreate.append hfirst).append (hresize _ _)).append
    (steps_frame_assignAll frame (frameAssignments frame) _ _)
  -- The events of the four stages, put together, are the history of a frame.
  have hevents : ([Event.created 0] ++ [(.name, .string frame.name)].map
        (fun a : Property × Literal => .assigned 0 a.1.text) ++
        [Event.assigned 0 "width", .assigned 0 "height"] ++
        (frameAssignments frame).map fun a => .assigned 0 a.1.text) = frameHistory := rfl
  have hworld : frameWorld frame (frameElement frame 0).properties frameHistory =
      leafWorld frame (loadHistory frame.fontStyles ++ frameHistory) [] := by
    simp [frameWorld, leafWorld, frameElement]
  rw [assigned_frame, hevents, hworld] at hall
  exact hall

/-! ## The leaves -/

/-- Leaves with different indices have different names. -/
theorem variable_leaf_inj {i j : Nat} (h : (Node.leaf i).variable = (Node.leaf j).variable) :
    i = j := by
  have hlist := congrArg String.toList h
  have hdigits : Nat.toDigits 10 i = Nat.toDigits 10 j := by
    simpa [Node.variable] using hlist
  have hvalue := congrArg (fun digits => Nat.ofDigitChars 10 digits 0) hdigits
  simpa [Nat.ofDigitChars_ten_toDigits] using hvalue

/-- No leaf has the name of the frame. -/
theorem variable_leaf_ne_frame (i : Nat) : (Node.leaf i).variable ≠ "frame" := by
  intro h
  have hlist := congrArg (fun s => s.toList.head?) h
  have hhead : (Node.leaf i).variable.toList.head? = some 't' := by
    simp [Node.variable]
  have hframe : "frame".toList.head? = some 'f' := by
    simp
  simp only [hhead, hframe] at hlist
  exact absurd hlist (by decide)

/-- The next variable has not been declared. -/
theorem lookup_leafWorld (frame : Frame) (frameTrace : List Event) (leaves : List Leaf) :
    (leafWorld frame frameTrace leaves).bindings.lookup (Node.leaf leaves.length).variable =
      none := by
  rw [List.lookup_eq_none_iff]
  intro binding hbinding
  rw [leafWorld, List.mem_append, List.mem_map, List.mem_singleton] at hbinding
  rw [bne_iff_ne]
  rcases hbinding with ⟨i, hi, rfl⟩ | rfl
  · intro h
    have hlt : i < leaves.length := by simpa using hi
    have := variable_leaf_inj h
    omega
  · exact variable_leaf_ne_frame _

/-- The name of the frame stays bound to it, however many leaves there are. -/
theorem lookup_frame (frame : Frame) (frameTrace : List Event) (leaves : List Leaf) :
    (leafWorld frame frameTrace leaves).bindings.lookup "frame" = some (.element 0) := by
  have hnone : (((List.range leaves.length).reverse.map fun i =>
      ((Node.leaf i).variable, Value.element (i + 1)))).lookup "frame" = none := by
    rw [List.lookup_eq_none_iff]
    intro binding hbinding
    obtain ⟨i, -, rfl⟩ := List.mem_map.1 hbinding
    rw [bne_iff_ne]
    exact (variable_leaf_ne_frame i).symm
  rw [leafWorld, List.lookup_append, hnone]
  rfl

/-- No leaf has a reserved name. -/
theorem variable_leaf_notMem_reserved (i : Nat) : (Node.leaf i).variable ∉ reserved := by
  intro hmem
  have hhead : (Node.leaf i).variable.toList.head? = some 't' := by
    simp [Node.variable]
  have hreserved : ∀ name ∈ reserved, name.toList.head? ≠ some 't' := by
    simp [reserved]
  exact hreserved _ hmem hhead

/-- The target while the next leaf is being made: `e` is its element, and the frame has `count`
children. -/
def leafStage (frame : Frame) (frameTrace : List Event) (leaves : List Leaf) (count : Nat)
    (e : Element) (events : List Event) : World where
  bindings := ((Node.leaf leaves.length).variable, .element (leaves.length + 1)) ::
    (leafWorld frame frameTrace leaves).bindings
  colors := true
  loaded := frame.fontStyles.map fontOf
  elements := (frameElement frame count :: leaves.mapIdx fun i leaf => leafElement i leaf) ++ [e]
  trace := (leafWorld frame frameTrace leaves).trace ++ events

section Leaf

variable (frame : Frame) (frameTrace : List Event) (leaves : List Leaf)

/-- A new leaf is the last element, with the next index. -/
theorem steps_leaf_create :
    Steps [.create (.leaf leaves.length)] (leafWorld frame frameTrace leaves)
      (leafStage frame frameTrace leaves leaves.length
        ⟨.text, [("id", .text (toString (leaves.length + 2) ++ ":1")), ("type", .text "TEXT")],
          none, []⟩ [.created (leaves.length + 1)]) := by
  have hlength : (leafWorld frame frameTrace leaves).elements.length = leaves.length + 1 := by
    simp [leafWorld]
  have hsteps := steps_create .text (w := leafWorld frame frameTrace leaves)
    (fun _ => rfl) (variable_leaf_notMem_reserved leaves.length)
    (lookup_leafWorld frame frameTrace leaves)
  rw [hlength] at hsteps
  exact hsteps

/-- An assignment to the leaf that is being made sets its property, where nothing speaks against
it. -/
theorem steps_leaf_assign (count : Nat) (e : Element) (events : List Event) (property : Property)
    (value : Literal)
    (h : (leafStage frame frameTrace leaves count e events).refusal? e property.text
      (literalValue value) = none) :
    Steps [.assign (.leaf leaves.length) property value]
      (leafStage frame frameTrace leaves count e events)
      (leafStage frame frameTrace leaves count
        { e with properties := setProperty property.text (literalValue value) e.properties }
        (events ++ [Event.assigned (leaves.length + 1) property.text])) := by
  let others := frameElement frame count :: leaves.mapIdx fun i leaf => leafElement i leaf
  have hlength : others.length = leaves.length + 1 := by
    simp [others]
  have hname : (leafStage frame frameTrace leaves count e events).bindings.lookup
      (Node.leaf leaves.length).variable = some (.element others.length) := by
    rw [hlength]
    exact List.lookup_cons_self
  have hsteps := steps_assign others property value rfl rfl hname h
  rw [hlength] at hsteps
  simpa [World.withLast, leafStage, others] using hsteps

/-- To append the leaf makes it the last child of the frame. -/
theorem steps_leaf_append (e : Element) (events : List Event) :
    Steps [.append leaves.length] (leafStage frame frameTrace leaves leaves.length e events)
      (leafStage frame frameTrace leaves (leaves.length + 1) { e with parent := some 0 }
        (events ++ [Event.appended 0 (leaves.length + 1)])) := by
  let w := leafStage frame frameTrace leaves leaves.length e events
  -- The leaf's own variable, bound last, does not hide the frame's.
  have hframe : w.element "frame" = .ok 0 := by
    have hne : ("frame" == (Node.leaf leaves.length).variable) = false := by
      rw [beq_eq_false_iff_ne]
      exact (variable_leaf_ne_frame leaves.length).symm
    simp only [World.element, World.value, w, leafStage, List.lookup_cons, hne,
      lookup_frame frame frameTrace leaves]
  have hchild : w.read [(Node.leaf leaves.length).variable] =
      .ok (.element (leaves.length + 1)) := by
    simp [World.read, World.value, w, leafStage]
  have happend : w.append 0 (leaves.length + 1) =
      .ok (leafStage frame frameTrace leaves (leaves.length + 1) { e with parent := some 0 }
        (events ++ [Event.appended 0 (leaves.length + 1)])) := by
    simp [World.append, w, leafStage, frameElement, List.range_succ]
  refine Steps.of_exec (by simp) ?_
  simp [stmtOf, Stmt.exec, Expr.eval, evalAll, World.call, hframe, hchild, happend, bind,
    Except.bind, Except.map, pure, Except.pure, w]

end Leaf

theorem leafStage_eq_leafWorld (frame : Frame) (frameTrace : List Event) (leaves : List Leaf)
    (leaf : Leaf) :
    leafStage frame frameTrace leaves (leaves.length + 1) (leafElement leaves.length leaf)
      (leafHistory leaves.length leaf) = leafWorld frame frameTrace (leaves ++ [leaf]) := by
  simp [leafStage, leafWorld, List.range_succ, List.mapIdx_append]

/-- The properties of a leaf that is not stretched. -/
def leafProperties (index : Nat) (leaf : Leaf) : List (String × Value) :=
  [("id", .text (toString (index + 2) ++ ":1")), ("type", .text "TEXT"),
   ("fontName", literalValue (.font leaf.style)), ("fontSize", .number leaf.size),
   ("characters", .text leaf.content), ("fills", literalValue (.solid leaf.color))]

/-- The events before a leaf is stretched or appended. -/
def leafOpening (index : Nat) : List Event :=
  [.created (index + 1), .assigned (index + 1) "fontName", .assigned (index + 1) "fontSize",
   .assigned (index + 1) "characters", .assigned (index + 1) "fills"]

/-- A leaf is filled: its font is set before its characters are. -/
theorem steps_leaf_fill (frame : Frame) (frameTrace : List Event) (leaves : List Leaf) {leaf : Leaf}
    (hstyle : leaf.style ∈ frame.fontStyles) :
    Steps
      [.create (.leaf leaves.length),
       .assign (.leaf leaves.length) .fontName (.font leaf.style),
       .assign (.leaf leaves.length) .fontSize (.number leaf.size),
       .assign (.leaf leaves.length) .characters (.string leaf.content),
       .assign (.leaf leaves.length) .fills (.solid leaf.color)]
      (leafWorld frame frameTrace leaves)
      (leafStage frame frameTrace leaves leaves.length
        ⟨.text, leafProperties leaves.length leaf, none, []⟩ (leafOpening leaves.length)) := by
  have hcreate := steps_leaf_create frame frameTrace leaves
  have hfontName := hcreate.append (steps_leaf_assign frame frameTrace leaves _ _ _
    .fontName (.font leaf.style)
    (refusal?_of_isFree (.inr (by simp [Property.text])) _ _))
  have hfontSize := hfontName.append (steps_leaf_assign frame frameTrace leaves _ _ _
    .fontSize (.number leaf.size)
    (refusal?_of_isFree (.inr (by simp [Property.text])) _ _))
  -- The one assignment that can be refused: the characters need their font loaded.
  have hcharacters := hfontSize.append (steps_leaf_assign frame frameTrace leaves _ _ _
    .characters (.string leaf.content) (by
      refine refusal?_characters ?_ (List.mem_map_of_mem hstyle) _
      simp [Element.property?, setProperty, Property.text, List.lookup_cons]))
  have hfills := hcharacters.append (steps_leaf_assign frame frameTrace leaves _ _ _
    .fills (.solid leaf.color)
    (refusal?_of_isFree (.inr (by simp [Property.text])) _ _))
  have hproperties : setProperty "fills" (literalValue (.solid leaf.color))
      (setProperty "characters" (literalValue (.string leaf.content))
        (setProperty "fontSize" (literalValue (.number leaf.size))
          (setProperty "fontName" (literalValue (.font leaf.style))
            [("id", .text (toString (leaves.length + 2) ++ ":1")), ("type", .text "TEXT")]))) =
      leafProperties leaves.length leaf := by
    simp [setProperty, leafProperties, literalValue]
  simp only [Property.text, hproperties] at hfills
  exact hfills

/-- **One leaf.** It is stretched in two steps, one before it is appended and one after. -/
theorem steps_leaf (frame : Frame) (frameTrace : List Event) (leaves : List Leaf) {leaf : Leaf}
    (hstyle : leaf.style ∈ frame.fontStyles) :
    Steps (leaf.setup leaves.length) (leafWorld frame frameTrace leaves)
      (leafWorld frame frameTrace (leaves ++ [leaf])) := by
  have hfill := steps_leaf_fill frame frameTrace leaves hstyle
  rw [← leafStage_eq_leafWorld, Leaf.setup]
  cases hwidth : leaf.fillWidth with
  | false =>
    -- The leaf is as wide as its text: it is only appended.
    have happend := hfill.append (steps_leaf_append frame frameTrace leaves _ _)
    have helement : leafElement leaves.length leaf =
        ⟨.text, leafProperties leaves.length leaf, some 0, []⟩ := by
      simp [leafElement, leafProperties, hwidth]
    have hhistory : leafHistory leaves.length leaf =
        leafOpening leaves.length ++ [Event.appended 0 (leaves.length + 1)] := by
      simp [leafHistory, leafOpening, hwidth]
    rw [helement, hhistory]
    simpa using happend
  | true =>
    -- Filling the frame is refused to what has no parent, and so comes behind the append.
    have hresize := hfill.append (steps_leaf_assign frame frameTrace leaves _ _ _
      .textAutoResize (.string "HEIGHT")
      (refusal?_of_isFree (.inr (by simp [Property.text])) _ _))
    have happend := hresize.append (steps_leaf_append frame frameTrace leaves _ _)
    have hstretch := happend.append (steps_leaf_assign frame frameTrace leaves _ _ _
      .layoutSizingHorizontal (.string "FILL")
      (by simp [World.refusal?, Property.text, literalValue]))
    have helement : leafElement leaves.length leaf =
        ⟨.text, setProperty "layoutSizingHorizontal" (.text "FILL")
          (setProperty "textAutoResize" (.text "HEIGHT") (leafProperties leaves.length leaf)),
          some 0, []⟩ := by
      simp [leafElement, leafProperties, setProperty, hwidth]
    have hhistory : leafHistory leaves.length leaf =
        leafOpening leaves.length ++ [Event.assigned (leaves.length + 1) "textAutoResize"] ++
          [Event.appended 0 (leaves.length + 1)] ++
          [Event.assigned (leaves.length + 1) "layoutSizingHorizontal"] := by
      simp [leafHistory, leafOpening, hwidth]
    rw [helement, hhistory]
    simpa [Property.text, literalValue] using hstretch

/-- All leaves from an index on. Induction on the leaves. -/
theorem steps_leaves (frame : Frame) (frameTrace : List Event) (leaves others : List Leaf)
    (hstyle : ∀ leaf ∈ others, leaf.style ∈ frame.fontStyles) :
    Steps (Leaf.setupFrom leaves.length others) (leafWorld frame frameTrace leaves)
      (leafWorld frame frameTrace (leaves ++ others)) := by
  induction others generalizing leaves with
  | nil =>
    rw [List.append_nil]
    exact Steps.nil _
  | cons leaf others ih =>
    have hfirst := steps_leaf frame frameTrace leaves (hstyle leaf (by simp))
    have hrest := ih (leaves ++ [leaf]) fun l hl => hstyle l (List.mem_cons_of_mem leaf hl)
    rw [List.length_append, List.length_singleton, List.append_assoc] at hrest
    exact hfirst.append hrest

/-! ## The script -/

/-- Leaves with finite sizes are set up with finite numbers. -/
theorem finiteNumbers_setupFrom (leaves : List Leaf) (index : Nat)
    (h : ∀ leaf ∈ leaves, leaf.size.isFinite = true) :
    ∀ s ∈ Leaf.setupFrom index leaves, FiniteNumbers s := by
  induction leaves generalizing index with
  | nil => exact fun s hs => absurd hs List.not_mem_nil
  | cons leaf leaves ih =>
    intro s hs
    rw [Leaf.setupFrom, List.mem_append] at hs
    rcases hs with hs | hs
    · have hsize := h leaf (by simp)
      have hall : ∀ s ∈ leaf.setup index, FiniteNumbers s := by
        cases hwidth : leaf.fillWidth <;> simp [Leaf.setup, hwidth, FiniteNumbers, hsize]
      exact hall s hs
    · exact ih (index + 1) (fun l hl => h l (List.mem_cons_of_mem leaf hl)) s hs

/-- A frame with finite numbers is built with finite numbers. -/
theorem finiteNumbers_statements {frame : Frame} (h : ∀ x ∈ frameNumbers frame, x.isFinite = true) :
    ∀ s ∈ frame.statements, FiniteNumbers s := by
  intro s hs
  have hleaves := finiteNumbers_setupFrom frame.leaves 0 fun leaf hleaf =>
    h leaf.size (List.mem_append_right _ (List.mem_map_of_mem hleaf))
  have hsetup : ∀ s ∈ frame.setup, FiniteNumbers s := by
    simp only [frameNumbers, List.mem_append] at h
    have hframe := fun x hx => h x (.inl hx)
    simp only [List.forall_mem_cons] at hframe
    simp [Frame.setup, FiniteNumbers, hframe]
  have hloading : ∀ s ∈ frame.fontLoading, FiniteNumbers s := by
    rw [Frame.fontLoading]
    split
    · exact fun s hs => absurd hs List.not_mem_nil
    · simp [FiniteNumbers]
  simp only [Frame.statements, List.mem_append, List.mem_singleton] at hs
  rcases hs with (((rfl | hs) | hs) | hs) | rfl
  · trivial
  · exact hloading s hs
  · exact hsetup s hs
  · exact hleaves s hs
  · trivial

/-- What is done to a leaf concerns that leaf and no other one. -/
theorem filter_leafHistory (index i : Nat) (leaf : Leaf) :
    (leafHistory i leaf).filter (Event.concerns (index + 1)) =
      if i = index then leafHistory i leaf else [] := by
  split
  · next heq =>
    subst heq
    cases hwidth : leaf.fillWidth <;> simp [leafHistory, hwidth, Event.concerns]
  · next hne =>
    cases hwidth : leaf.fillWidth <;> simp [leafHistory, hwidth, Event.concerns, hne]

/-- Of what is done to the leaves, one leaf is concerned by its own history. Induction on the
leaves, from the last one on. -/
theorem filter_histories (index : Nat) (leaves : List Leaf) :
    (leaves.mapIdx fun i leaf => leafHistory i leaf).flatten.filter (Event.concerns (index + 1)) =
      (leaves[index]?.map (leafHistory index)).getD [] := by
  -- From the end, since a leaf is numbered by how many stand before it.
  induction leaves using List.reverseRecOn with
  | nil => rfl
  | append_singleton leaves leaf ih =>
    rw [List.mapIdx_append, List.flatten_append, List.filter_append, ih]
    simp only [List.mapIdx_cons, List.mapIdx_nil, List.flatten_cons, List.flatten_nil,
      List.append_nil, Nat.zero_add, filter_leafHistory]
    rcases Nat.lt_trichotomy index leaves.length with hlt | rfl | hgt
    · rw [if_neg (by omega), List.append_nil, List.getElem?_append_left hlt]
    · simp
    · rw [if_neg (by omega), List.getElem?_eq_none (by omega),
        List.getElem?_eq_none (by simp; omega)]
      rfl

/-- Neither the frame nor a leaf loads a font. -/
theorem loads_history (frame : Frame) :
    ∀ e ∈ frameHistory ++ (frame.leaves.mapIdx fun i leaf => leafHistory i leaf).flatten,
      e.isLoad = false := by
  intro e he
  rcases List.mem_append.1 he with he | he
  · have hframe : ∀ e ∈ frameHistory, e.isLoad = false := by
      simp [frameHistory, Event.isLoad]
    exact hframe e he
  · obtain ⟨history, hhistory, he⟩ := List.mem_flatten.1 he
    obtain ⟨i, hi, rfl⟩ := List.mem_mapIdx.1 hhistory
    have hleaf (leaf : Leaf) : ∀ e ∈ leafHistory i leaf, e.isLoad = false := by
      cases hwidth : leaf.fillWidth <;> simp [leafHistory, hwidth, Event.isLoad]
    exact hleaf _ e he

/-- The loading of fonts concerns no element. -/
theorem concerns_loadHistory (styles : List FontStyle) (index : Nat) :
    (loadHistory styles).filter (Event.concerns index) = [] := by
  cases styles with
  | nil => rfl
  | cons style styles =>
    rw [List.filter_eq_nil_iff]
    intro e he
    have hload : loadHistory (style :: styles) =
        (style :: styles).map (fun style => .requested (fontOf style)) ++
          [Event.loaded ((style :: styles).map fontOf)] := rfl
    rw [hload, List.mem_append, List.mem_map, List.mem_singleton] at he
    rcases he with ⟨style, -, rfl⟩ | rfl <;> simp [Event.concerns]

/-- The state in which all statements leave the target. -/
def finalWorld (frame : Frame) : World :=
  leafWorld frame (loadHistory frame.fontStyles ++ frameHistory) frame.leaves

/-- Where the statements lead the frame is built. -/
theorem built_finalWorld (frame : Frame) :
    Built frame (.object ["id", "name"] [.text "1:1", .text frame.name]) (finalWorld frame) where
  loads := by
    refine ⟨frame.fontStyles,
      frameHistory ++ (frame.leaves.mapIdx fun i leaf => leafHistory i leaf).flatten, ?_, ?_,
      List.append_assoc _ _ _, loads_history frame⟩
    · exact List.filter_sublist.nodup (by decide)
    · intro style
      -- The font styles are a selection from all there are, kept in their order.
      have hall : style ∈ FontStyle.all := by cases style <;> decide
      simp [Frame.fontStyles, hall]
  elements := rfl
  leaves := by
    intro index leaf hleaf
    have hframe : frameHistory.filter (Event.concerns (index + 1)) = [] := by
      simp [frameHistory, Event.concerns]
    rw [finalWorld, leafWorld, List.filter_append, List.filter_append, concerns_loadHistory, hframe,
      filter_histories, hleaf]
    rfl
  result := rfl

/-- The script ends with the identity and the name of the frame. -/
theorem eval_result (frame : Frame) :
    runAll [stmtOf .finish] (finalWorld frame) =
      .ok (.object ["id", "name"] [.text "1:1", .text frame.name], finalWorld frame) := by
  have helement : (finalWorld frame).element "frame" = .ok 0 := by
    simp [World.element, World.value, finalWorld, lookup_frame]
  have hread (property : String) : (finalWorld frame).read ["frame", property] =
      .ok (((frameElement frame frame.leaves.length).property? property).getD .absent) := by
    have hframe : (finalWorld frame).elements[0]? =
        some (frameElement frame frame.leaves.length) := rfl
    simp only [World.read, helement, hframe, bind, Except.bind]
  have hid : (frameElement frame frame.leaves.length).property? "id" = some (.text "1:1") := by
    simp [Element.property?, frameElement]
  have hname : (frameElement frame frame.leaves.length).property? "name" =
      some (.text frame.name) := by
    simp [Element.property?, frameElement, List.lookup_cons]
  simp [runAll, stmtOf, Expr.eval, evalAll, hread, hid, hname, bind, Except.bind, Except.map, pure,
    Except.pure]

/-- **The script of a frame builds the frame.** -/
theorem run_emit (frame : Frame) (h : ∀ x ∈ frameNumbers frame, x.isFinite = true) :
    ∃ result w, run frame.emit = .ok (result, w) ∧ Built frame result w := by
  refine ⟨_, finalWorld frame, ?_, built_finalWorld frame⟩
  have hstyle : ∀ leaf ∈ frame.leaves, leaf.style ∈ frame.fontStyles := by
    intro leaf hleaf
    have hall : leaf.style ∈ FontStyle.all := by cases leaf.style <;> decide
    simp only [Frame.fontStyles, List.mem_filter, List.any_eq_true, beq_iff_eq]
    exact ⟨hall, leaf, hleaf, rfl⟩
  have hloads := steps_loads frame
  have hframe := hloads.append (steps_frame frame)
  have hleaves := hframe.append (steps_leaves frame _ [] frame.leaves hstyle)
  rw [run, program?_emit (finiteNumbers_statements h), Frame.statements, List.map_append]
  exact (hleaves _).trans (eval_result frame)

/-- A frame with a styled leaf that fills it and a plain one that does not. -/
def card : Frame :=
  { name := "Card", width := 240, height := 120,
    leaves := [{ content := "Wide", style := .medium, fillWidth := true }, { content := "Hi", size := 14 }] }

/-- The script of the card builds the card. -/
theorem run_emit_card : ∃ result w, run card.emit = .ok (result, w) ∧ Built card result w :=
  run_emit card (by decide +kernel)

end CanvasLink.Script
