import CanvasLink.Proofs.Script.Lines
import CanvasLink.Proofs.Script.Simulation

/-!
# CanvasLink — texts stay inside their strings

What a frame's texts can do to its script: each of them is one string, and nothing else depends on
it.

* `partsOf` — what a script is around the texts of its frame.
* `toList_emit_eq_weave` — a script is its parts with the texts between them.
* `Alike` — frames that only differ in numbers that are written alike.
* `alike_of_emit_eq` — a script tells its frame.
* **`emit_confines_texts`** — the headline.
-/

namespace CanvasLink.Markup

/-- The texts of a frame that somebody wrote, in the order in which they stand in its script. -/
def Frame.texts (frame : Frame) : List String :=
  frame.name :: frame.leaves.map (·.content)

/-- The frame without its texts. -/
def Frame.silent (frame : Frame) : Frame :=
  { frame with name := "", leaves := frame.leaves.map fun leaf => { leaf with content := "" } }

end CanvasLink.Markup

namespace CanvasLink.Script

open CanvasLink.Markup

/-! ## Parts -/

/-- Parts with texts between them. -/
def weave : List (List Char) → List (List Char) → List Char
  | part :: parts, text :: texts => part ++ text ++ weave parts texts
  | parts, _ => parts.flatten

/-- What stands in front of the value of an assignment. -/
def assignment (node : Node) (property : Property) : List Char :=
  ("  " ++ node.variable ++ "." ++ property.text ++ " = ").toList

/-- What stands around the content of a leaf, from `before` on. -/
def leafParts (before : List Char) (index : Nat) : List Leaf → List (List Char)
  | [] => [before ++ bodyText [.finish] ++ "\x7d)()".toList]
  | leaf :: leaves =>
    (before ++ bodyText ((leaf.setup index).take 3) ++ assignment (.leaf index) .characters) ::
      leafParts ([';', '\n'] ++ bodyText ((leaf.setup index).drop 4)) (index + 1) leaves

/-- What stands around the texts of a frame. -/
def partsOf (frame : Frame) : List (List Char) :=
  ("(async () => \x7b".toList ++ ['\n'] ++
    bodyText ([.defineColor] ++ frame.fontLoading ++ [.create .frame]) ++
    assignment .frame .name) ::
    leafParts ([';', '\n'] ++ bodyText (frame.setup.drop 2)) 0 frame.leaves

/-- There is one part more than there are texts. -/
theorem length_partsOf (frame : Frame) : (partsOf frame).length = frame.texts.length + 1 := by
  have hleaves (before : List Char) (index : Nat) (leaves : List Leaf) :
      (leafParts before index leaves).length = leaves.length + 1 := by
    induction leaves generalizing before index with
    | nil => rfl
    | cons leaf leaves ih => rw [leafParts, List.length_cons, ih, List.length_cons]
  rw [partsOf, List.length_cons, hleaves, Frame.texts, List.length_cons, List.length_map]

theorem bodyText_append (a b : List Statement) : bodyText (a ++ b) = bodyText a ++ bodyText b := by
  simp only [bodyText, List.flatMap_append]

/-- The line of an assignment is its target, its text in quotes, and the end of the line. -/
theorem bodyText_assign (node : Node) (property : Property) (text : String) :
    bodyText [.assign node property (.string text)] =
      assignment node property ++ (scriptString text).toList ++ [';', '\n'] := by
  have hend : ";".toList = [';'] := String.toList_ofList
  have hindent : "  ".toList = [' ', ' '] := String.toList_ofList
  simp [bodyText, Statement.lines, lineText, assignment, Literal.text, hend, hindent]

/-- The parts of the leaves, with their texts between them, are the rest of the script. -/
theorem weave_leafParts (before : List Char) (index : Nat) (leaves : List Leaf) :
    weave (leafParts before index leaves)
        (leaves.map fun leaf => (scriptString leaf.content).toList) =
      before ++ bodyText (Leaf.setupFrom index leaves) ++ bodyText [.finish] ++
        "\x7d)()".toList := by
  -- `before` is what is still to be written in front of the next text.
  induction leaves generalizing before index with
  | nil =>
    rw [leafParts, Leaf.setupFrom, List.map_nil]
    simp [weave, bodyText]
  | cons leaf leaves ih =>
    have hsetup : leaf.setup index = (leaf.setup index).take 3 ++
        [.assign (.leaf index) .characters (.string leaf.content)] ++
        (leaf.setup index).drop 4 := rfl
    rw [Leaf.setupFrom, hsetup, leafParts, List.map_cons, weave, ih]
    simp only [bodyText_append, bodyText_assign, List.append_assoc]

/-- **A script is its parts with the texts between them.** -/
theorem toList_emit_eq_weave (frame : Frame) :
    frame.emit.toList =
      weave (partsOf frame) (frame.texts.map fun text => (scriptString text).toList) := by
  have hsetup : frame.setup = [.create .frame] ++ [.assign .frame .name (.string frame.name)] ++
      frame.setup.drop 2 := rfl
  have hleaves := weave_leafParts ([';', '\n'] ++ bodyText (frame.setup.drop 2)) 0 frame.leaves
  have hcontents : (frame.leaves.map (·.content)).map (fun text => (scriptString text).toList) =
      frame.leaves.map fun leaf => (scriptString leaf.content).toList := List.map_map
  rw [toList_emit, Frame.statements, hsetup, partsOf, Frame.texts, List.map_cons, weave, hcontents,
    hleaves]
  simp only [bodyText_append, bodyText_assign, List.append_assoc]

/-- The parts do not depend on the texts. -/
theorem partsOf_silent (frame : Frame) : partsOf frame.silent = partsOf frame := by
  -- The parts hold what is written around the contents, so these may as well be empty.
  have hleaves (before : List Char) (index : Nat) (leaves : List Leaf) :
      leafParts before index (leaves.map fun leaf => { leaf with content := "" }) =
        leafParts before index leaves := by
    induction leaves generalizing before index with
    | nil => rfl
    | cons leaf leaves ih =>
      rw [List.map_cons, leafParts, leafParts, ih]
      rfl
  have hfonts : frame.silent.fontStyles = frame.fontStyles := by
    refine List.filter_congr fun style _ => ?_
    show (frame.leaves.map _).any _ = _
    rw [List.any_map]
    rfl
  have hloading : frame.silent.fontLoading = frame.fontLoading := by
    rw [Frame.fontLoading, hfonts]
    rfl
  rw [partsOf, hloading]
  exact congrArg _ (hleaves _ _ _)

/-! ## A script tells its frame -/

/-- Leaves that differ at most in numbers that are written alike. -/
structure LeafAlike (a b : Leaf) : Prop where
  content : a.content = b.content
  style : a.style = b.style
  size : Decimal.plain.render a.size = Decimal.plain.render b.size
  color : a.color = b.color
  fillWidth : a.fillWidth = b.fillWidth

/-- Frames that differ at most in numbers that are written alike. -/
structure Alike (a b : Frame) : Prop where
  name : a.name = b.name
  width : Decimal.plain.render a.width = Decimal.plain.render b.width
  height : Decimal.plain.render a.height = Decimal.plain.render b.height
  x : Decimal.plain.render a.x = Decimal.plain.render b.x
  y : Decimal.plain.render a.y = Decimal.plain.render b.y
  fill : a.fill = b.fill
  cornerRadius : Decimal.plain.render a.cornerRadius = Decimal.plain.render b.cornerRadius
  axis : a.axis = b.axis
  gap : Decimal.plain.render a.gap = Decimal.plain.render b.gap
  top : Decimal.plain.render a.padding.top = Decimal.plain.render b.padding.top
  right : Decimal.plain.render a.padding.right = Decimal.plain.render b.padding.right
  bottom : Decimal.plain.render a.padding.bottom = Decimal.plain.render b.padding.bottom
  left : Decimal.plain.render a.padding.left = Decimal.plain.render b.padding.left
  leaves : List.Forall₂ LeafAlike a.leaves b.leaves

/-- What stands between the same texts is the same. -/
theorem inner_eq {s t u v : String} (h : s ++ t ++ u = s ++ v ++ u) : t = v :=
  (String.append_right_inj s).1 ((String.append_left_inj u).1 h)

/-- Different colors are written differently. -/
theorem paint_inj {c d : Color} (h : c.paint = d.paint) : c = d := by
  have hhex : c.toHex = d.toHex := String.ofList_injective (inner_eq h)
  have hread := Color.ofDigits?_toHex c
  rw [hhex, Color.ofDigits?_toHex] at hread
  exact (Option.some.inj hread).symm

theorem font_inj {s t : FontStyle} (h : s.font = t.font) : s = t := by
  have hname : s.name = t.name := scriptString_inj (inner_eq h)
  cases s <;> cases t <;> first | rfl | exact absurd hname (by decide)

theorem mode_inj {a b : Axis} (h : scriptString a.mode = scriptString b.mode) : a = b := by
  have hmode := scriptString_inj h
  cases a <;> cases b <;> first | rfl | exact absurd hmode (by decide)

/-- A line that resizes tells both numbers as they are written. -/
theorem size_inj {w w' h h' : Float}
    (heq : "frame" ++ ".resize(" ++ Decimal.plain.render w ++ ", " ++ Decimal.plain.render h ++
      ");" =
      "frame" ++ ".resize(" ++ Decimal.plain.render w' ++ ", " ++ Decimal.plain.render h' ++ ");") :
    Decimal.plain.render w = Decimal.plain.render w' ∧
      Decimal.plain.render h = Decimal.plain.render h' := by
  -- No number holds a comma, so that the first one ends where the comma stands.
  have hcomma (x : Float) (s : List Char) :=
    takeWhile_append_stops (s := ',' :: s) (mem_plain_render x)
    fun c hc => Option.some.inj hc ▸ (by decide)
  have hseparator : ", ".toList = [',', ' '] := String.toList_ofList
  simp only [String.append_assoc, String.append_right_inj] at heq
  have hlist := congrArg String.toList heq
  simp only [String.toList_append, hseparator, List.cons_append, List.nil_append] at hlist
  have hwidth := congrArg (List.takeWhile isNumeric) hlist
  rw [(hcomma w _).1, (hcomma w' _).1] at hwidth
  rw [hwidth, List.append_cancel_left_eq, List.cons.injEq, List.cons.injEq] at hlist
  exact ⟨String.toList_inj.1 hwidth, String.toList_inj.1 (List.append_cancel_right hlist.2.2)⟩

/-- The line that ends a script. -/
def lastLine : String :=
  "return \x7b id: " ++ "frame" ++ ".id, name: " ++ "frame" ++ ".name \x7d;"

/-- Where a leaf is created the script does not end. -/
theorem create_ne_lastLine (index : Nat) (rest : List String) :
    ("const " ++ (Node.leaf index).variable ++ " = " ++ (Node.leaf index).creation ++ ";") :: rest ≠
      [lastLine] := by
  -- One begins with `const`, the other with `return`.
  intro h
  have hlast : lastLine.toList.head? = some 'r' := by
    simp [lastLine, String.toList_append, -String.reduceAppend]
  rw [← (List.cons.inj h).1] at hlast
  simp [String.toList_append, -String.reduceAppend] at hlast

/-- What a leaf has behind its color shows whether it fills the frame: the frame only speaks when
nothing is left to be set before. -/
theorem fillWidth_of_rest {index : Nat} {a b : Leaf} {x y : List String}
    (h : ((a.setup index).drop 5).flatMap Statement.lines ++ x =
      ((b.setup index).drop 5).flatMap Statement.lines ++ y) :
    a.fillWidth = b.fillWidth ∧ x = y := by
  -- A line about a text never equals one about the frame: they differ in the first letter.
  have hne (s t : String) : "text" ++ s ≠ "frame" ++ t := by
    intro heq
    have hhead := congrArg (fun s => s.toList.head?) heq
    simp at hhead
  cases ha : a.fillWidth <;> cases hb : b.fillWidth <;>
    simp only [Leaf.setup, ha, hb, Statement.lines, Node.variable, String.append_assoc, if_true,
      Bool.false_eq_true, if_false, List.drop_succ_cons, List.drop_zero, List.cons_append,
      List.nil_append, List.flatMap_cons, List.flatMap_nil, List.cons.injEq] at h
  case false.false => exact ⟨rfl, h.2⟩
  case false.true => exact absurd h.1.symm (hne _ _)
  case true.false => exact absurd h.1 (hne _ _)
  case true.true => exact ⟨rfl, h.2.2.2⟩

/-- Lines of leaves that are the same are those of leaves that are alike. -/
theorem leaves_alike {index : Nat} {as bs : List Leaf}
    (h : (Leaf.setupFrom index as).flatMap Statement.lines ++ [lastLine] =
      (Leaf.setupFrom index bs).flatMap Statement.lines ++ [lastLine]) :
    List.Forall₂ LeafAlike as bs := by
  induction as generalizing index bs with
  | nil =>
    cases bs with
    | nil => exact .nil
    | cons b bs => exact absurd h.symm (create_ne_lastLine index _)
  | cons a as ih =>
    cases bs with
    | nil => exact absurd h (create_ne_lastLine index _)
    | cons b bs =>
      rw [Leaf.setupFrom, Leaf.setupFrom, List.flatMap_append, List.flatMap_append,
        List.append_assoc, List.append_assoc, ← List.take_append_drop 5 (a.setup index),
        ← List.take_append_drop 5 (b.setup index), List.flatMap_append, List.flatMap_append,
        List.append_assoc, List.append_assoc] at h
      -- The first five lines are there for every leaf; what follows depends on its flag.
      have hlength (leaf : Leaf) :
          (((leaf.setup index).take 5).flatMap Statement.lines).length = 5 := rfl
      obtain ⟨hlines, hrest⟩ := List.append_inj h ((hlength a).trans (hlength b).symm)
      obtain ⟨hfill, htail⟩ := fillWidth_of_rest hrest
      simp only [Leaf.setup, List.cons_append, List.nil_append, List.take_succ_cons, List.take_zero,
        List.flatMap_cons, List.flatMap_nil, Statement.lines, Literal.text, List.cons.injEq,
        true_and, and_true] at hlines
      obtain ⟨hstyle, hsize, hcontent, hcolor⟩ := hlines
      exact .cons ⟨scriptString_inj (inner_eq hcontent), font_inj (inner_eq hstyle), inner_eq hsize,
        paint_inj (inner_eq hcolor), hfill⟩ (ih htail)

/-- The line that creates the frame. -/
def createLine : String :=
  "const " ++ "frame" ++ " = " ++ "figma.createFrame()" ++ ";"

/-- No line that loads fonts creates the frame. -/
theorem ne_createLine_of_loading (frame : Frame) :
    ∀ line ∈ frame.fontLoading.flatMap Statement.lines, line ≠ createLine := by
  have hhead : createLine.toList.head? = some 'c' := by simp [createLine]
  -- `await`, an indented call and a bracket: no line of the loading starts with a `c`.
  have hne (line : String) (hline : line.toList.head? ≠ some 'c') : line ≠ createLine := by
    rintro rfl
    exact hline hhead
  unfold Frame.fontLoading
  split
  · exact fun line hline => absurd hline List.not_mem_nil
  · intro line hline
    rw [List.flatMap_singleton, Statement.lines, List.mem_append, List.mem_append,
      List.mem_singleton, List.mem_map, List.mem_singleton] at hline
    rcases hline with (rfl | ⟨style, -, rfl⟩) | rfl
    · exact hne _ (by simp)
    · exact hne _ (by simp)
    · exact hne _ (by simp)

/-- Nor does the line of the color function. -/
theorem colorFunction_ne_createLine : colorFunction ≠ createLine := by
  -- Both define a constant; the names differ.
  have hcolor : (colorFunction.toList.drop 6).head? = some 'r' := by
    unfold colorFunction
    rw [String.toList_ofList]
    rfl
  have hcreate : (createLine.toList.drop 6).head? = some 'f' := by simp [createLine]
  intro heq
  rw [heq, hcreate] at hcolor
  cases hcolor

/-- What stands before the frame is created is the same for many frames, and can be passed over. -/
theorem dropWhile_lines (frame : Frame) :
    (frame.statements.flatMap Statement.lines).dropWhile (· ≠ createLine) =
      frame.setup.flatMap Statement.lines ++
        ((Leaf.setupFrom 0 frame.leaves).flatMap Statement.lines ++ [lastLine]) := by
  have hbefore : ∀ line ∈ [colorFunction] ++ frame.fontLoading.flatMap Statement.lines,
      decide (line ≠ createLine) = true := by
    intro line hline
    rw [decide_eq_true_eq]
    rcases List.mem_append.1 hline with hline | hline
    · rw [List.mem_singleton.1 hline]
      exact colorFunction_ne_createLine
    · exact ne_createLine_of_loading frame line hline
  have hlines : frame.statements.flatMap Statement.lines =
      ([colorFunction] ++ frame.fontLoading.flatMap Statement.lines) ++
        (frame.setup.flatMap Statement.lines ++
          ((Leaf.setupFrom 0 frame.leaves).flatMap Statement.lines ++ [lastLine])) := by
    simp only [Frame.statements, List.flatMap_append, List.append_assoc]
    rfl
  rw [hlines, List.dropWhile_append_of_pos hbefore]
  exact List.dropWhile_cons_of_neg (by simp [createLine, Node.variable, Node.creation])

/-- **A script tells its frame.** -/
theorem alike_of_emit_eq {a b : Frame} (h : a.emit = b.emit) : Alike a b := by
  have hscript : Statement.script a.statements = Statement.script b.statements := by
    have hlines := splitOn_emit a
    rw [h, splitOn_emit] at hlines
    exact List.map_injective_iff.2 (fun _ _ => String.toList_injective) hlines.symm
  have hbody : a.statements.flatMap Statement.lines = b.statements.flatMap Statement.lines := by
    have hindented := List.append_cancel_left (List.append_cancel_right hscript)
    refine List.map_injective_iff.2 (fun s t hst => ?_) hindented
    exact (String.append_right_inj _).1 hst
  have hbuilt := dropWhile_lines a
  rw [hbody, dropWhile_lines b] at hbuilt
  -- The frame itself takes as many lines whatever it is like.
  have hlength (frame : Frame) : (frame.setup.flatMap Statement.lines).length = 16 := rfl
  obtain ⟨hsetup, hleaves⟩ := List.append_inj hbuilt.symm ((hlength a).trans (hlength b).symm)
  simp only [Frame.setup, List.flatMap_cons, List.flatMap_nil, Statement.lines, Literal.text,
    List.cons_append, List.nil_append, List.cons.injEq, true_and, and_true] at hsetup
  obtain ⟨hname, hsize, hx, hy, hradius, hfill, hmode, hgap, htop, hright, hbottom, hleft⟩ := hsetup
  obtain ⟨hwidth, hheight⟩ := size_inj hsize
  exact ⟨scriptString_inj (inner_eq hname), hwidth, hheight, inner_eq hx, inner_eq hy,
    paint_inj (inner_eq hfill), inner_eq hradius, mode_inj (inner_eq hmode), inner_eq hgap,
    inner_eq htop, inner_eq hright, inner_eq hbottom, inner_eq hleft, leaves_alike hleaves⟩

/-! ## The headline -/

/-- **Texts stay inside their strings.** Whatever characters the texts of a frame hold, its script
has the lines of its statements, as many as the styles and flags of the leaves say: one for each
statement, but for the group that loads the fonts, which has one for each style and two around them.
Each text stands in it as one string, out of which nothing gets and which reads back as the text;
frames that differ in their texts alone have the same script around these strings; and a script
tells its frame. -/
theorem emit_confines_texts (frame : Frame) :
    (frame.emit.toList.splitOn '\n' = (Statement.script frame.statements).map String.toList ∧
      ∀ s ∈ frame.statements, (∀ styles, s ≠ .loadFonts styles) → s.lines.length = 1) ∧
    (frame.emit.toList.splitOn '\n').length =
      20 + (if frame.leaves = [] then 0 else 2 + (frame.leaves.map (·.style)).dedup.length) +
        6 * frame.leaves.length + 2 * frame.leaves.countP (·.fillWidth) ∧
    (∀ text ∈ frame.texts, ∃ body,
      (scriptString text).toList = '"' :: (body ++ ['"']) ∧ Inert body ∧
      ∀ rest, text? (body ++ '"' :: rest) = some (.text text, rest)) ∧
    (∃ parts, parts.length = frame.texts.length + 1 ∧ ∀ other : Frame, other.silent = frame.silent →
      other.emit.toList = weave parts (other.texts.map fun text => (scriptString text).toList)) ∧
    ∀ other : Frame, frame.emit = other.emit → Alike frame other := by
  refine ⟨⟨splitOn_emit frame, fun s _ => length_lines_eq_one⟩, ?_, ?_, ?_,
    fun _ => alike_of_emit_eq⟩
  · rw [splitOn_emit, List.length_map, length_script]
  · intro text _
    exact ⟨_, toList_scriptString text, inert_flatMap text.toList, text?_append text⟩
  · refine ⟨partsOf frame, length_partsOf frame, fun other hother => ?_⟩
    rw [toList_emit_eq_weave, ← partsOf_silent other, hother, partsOf_silent]

/-- A card with texts that would like to be code. -/
def hostileCard : Frame :=
  { card with
    name := "\"; figma.closePlugin(); \"\n\u2028"
    leaves := [{ content := "\\", style := .medium, fillWidth := true }, { content := "\")\n//" }] }

/-- The texts that would like to be code stand between the same parts as those of the card. -/
theorem emit_confines_texts_hostileCard :
    hostileCard.silent = card.silent ∧ ∃ parts, parts.length = 4 ∧
      hostileCard.emit.toList =
        weave parts (hostileCard.texts.map fun text => (scriptString text).toList) ∧
      card.emit.toList = weave parts (card.texts.map fun text => (scriptString text).toList) := by
  obtain ⟨-, -, -, ⟨parts, hlength, hparts⟩, -⟩ := emit_confines_texts card
  exact ⟨rfl, parts, hlength, hparts hostileCard rfl, hparts card rfl⟩

end CanvasLink.Script
