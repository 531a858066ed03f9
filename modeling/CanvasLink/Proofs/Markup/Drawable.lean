import CanvasLink.Proofs.Markup.Invisible
import CanvasLink.Proofs.Markup.Printing

/-!
# CanvasLink — accepted frames can be drawn

What the numbers and the contents of a frame are like once its markup is accepted, and what of them
reaches the script.

* `FrameSetting.WrittenBy.admissible`, `LeafSetting.WrittenBy.admissible` — an attribute writes a
  finite number or nothing, so that no text of a number can overflow into an infinite one.
* `unpadded_decodeEntities` — decoding happens behind trimming and brings no blank to the ends.
* `Stmt.Drawable` — what the target asks of the numbers in a statement.
* `exists_parse_iff_describable` — the frames that markup can describe are the accepted ones.
* **`parse_drawable`** — the headline.
-/

namespace CanvasLink.Markup

open CanvasLink.Text
open CanvasLink.Script (frameNumbers)

/-! ## Settings -/

/-- What an attribute of a frame writes is finite, and above zero where it is a size. -/
theorem FrameSetting.WrittenBy.admissible {a : Attribute} {setting : FrameSetting}
    (h : WrittenBy a setting) : setting.Admissible := by
  have finite {n : Float} (hn : a.Writes n) : n.isFinite = true := by
    obtain ⟨-, -, -, -, -, hfinite⟩ := hn
    exact hfinite
  cases h with
  | width _ hn | height _ hn => exact ⟨finite hn.1, hn.2⟩
  | x _ hn | y _ hn | cornerRadius _ hn | gap _ hn | padding _ hn => exact finite hn
  | name | fill | row | column => trivial

/-- What an attribute of a leaf writes is finite, and above zero where it is a size. -/
theorem LeafSetting.WrittenBy.admissible {a : Attribute} {setting : LeafSetting}
    (h : WrittenBy a setting) : setting.Admissible := by
  cases h with
  | size _ hn =>
    obtain ⟨⟨-, -, -, -, -, hfinite⟩, hpos⟩ := hn
    exact ⟨hfinite, hpos⟩
  | style | color | fillWidth => trivial

/-- What the relation says of every second part holds of the whole second list. -/
theorem forall_of_forall₂ {α β : Type} {R : α → β → Prop} {p : β → Prop} {as : List α} {bs : List β}
    (h : List.Forall₂ R as bs) (hp : ∀ a b, R a b → p b) : ∀ b ∈ bs, p b := by
  induction h with
  | nil => simp
  | cons hab _ ih => exact List.forall_mem_cons.2 ⟨hp _ _ hab, ih⟩

/-- A size is finite and above zero. -/
def IsSize (n : Float) : Prop :=
  n.isFinite = true ∧ 0 < n

/-- A part of a frame or a leaf is what some setting gives for it, or its default. -/
theorem lastValue_getD {σ α : Type} {pick : σ → Option α} {settings : List σ} {p : α → Prop}
    (h : ∀ setting ∈ settings, ∀ value, pick setting = some value → p value) {default : α}
    (hdefault : p default) : p ((lastValue pick settings).getD default) := by
  cases hlast : lastValue pick settings with
  | none => exact hdefault
  | some value =>
    obtain ⟨setting, hsetting, hpick⟩ := List.mem_filterMap.1 (List.mem_of_getLast? hlast)
    exact h setting hsetting value hpick

section Frames

variable {settings : List FrameSetting} (h : ∀ setting ∈ settings, setting.Admissible)

include h

/-- The sizes of a frame. -/
theorem size_ofLast {pick : FrameSetting → Option Float}
    (hpick : pick ∈ [FrameSetting.width?, FrameSetting.height?]) :
    IsSize ((lastValue pick settings).getD 100) := by
  have hdefault : IsSize 100 := ⟨by decide +kernel, by decide +kernel⟩
  refine lastValue_getD (p := IsSize) (fun setting hsetting n hn => ?_) hdefault
  have hok := h setting hsetting
  simp only [List.mem_cons, List.not_mem_nil, or_false] at hpick
  obtain rfl | rfl := hpick
  all_goals
    cases setting <;> cases hn
    exact hok

/-- The other numbers of a frame but those of its padding. -/
theorem finite_ofLast {pick : FrameSetting → Option Float}
    (hpick : pick ∈ [FrameSetting.x?, FrameSetting.y?, FrameSetting.cornerRadius?,
      FrameSetting.gap?]) : ((lastValue pick settings).getD 0).isFinite = true := by
  have hdefault : (0 : Float).isFinite = true := by decide +kernel
  refine lastValue_getD (p := fun n : Float => n.isFinite = true)
    (fun setting hsetting n hn => ?_) hdefault
  have hok := h setting hsetting
  simp only [List.mem_cons, List.not_mem_nil, or_false] at hpick
  obtain rfl | rfl | rfl | rfl := hpick
  all_goals
    cases setting <;> cases hn
    exact hok

/-- One step of a side's way to its value: the value of an edge, or what the side falls back on. -/
theorem finite_padding (edge : Edge) {fallback : Float} (hfallback : fallback.isFinite = true) :
    ((lastValue (FrameSetting.padding? edge) settings).getD fallback).isFinite = true := by
  refine lastValue_getD (p := fun n : Float => n.isFinite = true)
    (fun setting hsetting n hn => ?_) hfallback
  have hok := h setting hsetting
  cases setting with
  | padding other m =>
    simp only [FrameSetting.padding?, Option.ite_none_right_eq_some, Option.some.injEq] at hn
    obtain ⟨-, rfl⟩ := hn
    exact hok
  | _ => cases hn

/-- **Admissible settings make a frame that can be described**, whatever is given twice or left
out. -/
theorem describable_ofLast {leaves : List Leaf}
    (hsizes : ∀ leaf ∈ leaves, IsSize leaf.size)
    (hcontents : ∀ leaf ∈ leaves, Unpadded leaf.content.toList) :
    (Frame.ofLast settings leaves).Describable where
  finite := by
    have hzero : (0 : Float).isFinite = true := by decide +kernel
    -- A side falls back on its axis, the axis on the common value, and that on zero.
    have hbase := finite_padding h .all hzero
    have hhorizontal := finite_padding h .horizontal hbase
    have hvertical := finite_padding h .vertical hbase
    simp only [frameNumbers, List.forall_mem_append, List.forall_mem_cons, List.forall_mem_map]
    exact ⟨⟨(size_ofLast h (by simp)).1, (size_ofLast h (by simp)).1, finite_ofLast h (by simp),
      finite_ofLast h (by simp), finite_ofLast h (by simp), finite_ofLast h (by simp),
      finite_padding h .top hvertical, finite_padding h .right hhorizontal,
      finite_padding h .bottom hvertical, finite_padding h .left hhorizontal, by simp⟩,
      fun leaf hleaf => (hsizes leaf hleaf).1⟩
  width := (size_ofLast h (by simp)).2
  height := (size_ofLast h (by simp)).2
  sizes leaf hleaf := (hsizes leaf hleaf).2
  contents := hcontents

end Frames

/-- The size of a leaf is its last one, or the one of a leaf without attributes. -/
theorem Leaf.Denoted.size {attributes : List Attribute} {content : String} {leaf : Leaf}
    (h : Leaf.Denoted attributes content leaf) : IsSize leaf.size := by
  obtain ⟨settings, hwritten, rfl⟩ := h
  have hdefault : IsSize 14 := ⟨by decide +kernel, by decide +kernel⟩
  refine lastValue_getD (p := IsSize) (fun setting hsetting n hn => ?_) hdefault
  have hok : setting.Admissible :=
    forall_of_forall₂ hwritten (fun _ _ => LeafSetting.WrittenBy.admissible) setting hsetting
  cases setting <;> cases hn
  exact hok

/-! ## Contents -/

/-- A text with something in it does not vanish when it is decoded. -/
theorem decodeEntities_ne_nil {s : List Char} (h : s ≠ []) : decodeEntities s ≠ [] := by
  fun_cases decodeEntities s
  case case7 => exact absurd rfl h
  all_goals exact List.cons_ne_nil _ _

/-- A character that is not blank, in front of a text that does not end in a blank. -/
theorem not_isBlank_getLast?_cons {c : Char} {t : List Char} (hc : isBlank c = false)
    (ht : ∀ d ∈ t.getLast?, isBlank d = false) : ∀ d ∈ (c :: t).getLast?, isBlank d = false := by
  cases t with
  | nil =>
    intro d hd
    cases hd
    exact hc
  | cons e t => rwa [List.getLast?_cons_cons]

/-- What is left of a text that does not end in a blank does not end in one. -/
theorem not_isBlank_getLast?_append (left : List Char) {t : List Char}
    (h : ∀ d ∈ (left ++ t).getLast?, isBlank d = false) : ∀ d ∈ t.getLast?, isBlank d = false := by
  intro d hd
  refine h d ?_
  rw [List.getLast?_append, Option.mem_def.1 hd]
  rfl

/-- **Decoding brings no blank character to the ends.** A content is trimmed before it is decoded,
and no entity stands for a blank. -/
theorem unpadded_decodeEntities {s : List Char} (h : Unpadded s) :
    Unpadded (decodeEntities s) := by
  obtain ⟨hhead, hlast⟩ := h
  constructor
  · fun_cases decodeEntities s
    case case6 => exact hhead
    case case7 => exact hhead
    all_goals
      intro c hc
      cases hc
      decide
  · clear hhead
    fun_induction decodeEntities s with
    | case6 c s _ _ _ _ _ ih =>
      have hrest := ih (not_isBlank_getLast?_tail hlast)
      cases s with
      | nil => exact hlast
      | cons d s =>
        -- A text that is left is decoded to a text, and its last character is the last one here.
        have hne := decodeEntities_ne_nil (List.cons_ne_nil d s)
        obtain ⟨e, t, ht⟩ := List.exists_cons_of_ne_nil hne
        rw [ht, List.getLast?_cons_cons, ← ht]
        exact hrest
    | case7 => exact hlast
    | case1 s ih | case2 s ih =>
      exact not_isBlank_getLast?_cons (by decide)
        (ih (not_isBlank_getLast?_append [_, _, _, _] hlast))
    | case3 s ih =>
      exact not_isBlank_getLast?_cons (by decide)
        (ih (not_isBlank_getLast?_append [_, _, _, _, _] hlast))
    | case4 s ih | case5 s ih =>
      exact not_isBlank_getLast?_cons (by decide)
        (ih (not_isBlank_getLast?_append [_, _, _, _, _, _] hlast))

/-! ## Documents -/

/-- The size of a leaf in a document is drawable. -/
theorem TextElement.size {t : List Char} {leaf : Leaf} (h : TextElement t leaf) :
    IsSize leaf.size := by
  cases h with
  | empty _ _ _ hleaf => exact hleaf.size
  | filled _ _ _ _ _ _ hleaf => exact hleaf.size

/-- The content of a leaf in a document has no blank characters at its ends. -/
theorem TextElement.content {t : List Char} {leaf : Leaf} (h : TextElement t leaf) :
    Unpadded leaf.content.toList := by
  cases h with
  | empty _ _ _ hleaf =>
    obtain ⟨settings, -, rfl⟩ := hleaf
    exact unpadded_of_not_isBlank (by simp [Leaf.ofLast])
  | filled _ _ _ _ htrim _ hleaf =>
    obtain ⟨settings, -, rfl⟩ := hleaf
    obtain ⟨-, -, -, -, -, hends⟩ := htrim
    rw [Leaf.ofLast, String.toList_ofList]
    exact unpadded_decodeEntities hends

/-- Every leaf of a frame comes from a text element. -/
theorem Children.textElement {s : List Char} {leaves : List Leaf} (h : Children s leaves) :
    ∀ leaf ∈ leaves, ∃ t, TextElement t leaf := by
  induction h with
  | nil => simp
  | character _ _ ih | comment _ _ ih | passed _ _ ih => exact ih
  | text ht _ ih => exact List.forall_mem_cons.2 ⟨⟨_, ht⟩, ih⟩

/-- What the attributes of a tag and the leaves in it denote can be described. -/
theorem Frame.Denoted.describable {attributes : List Attribute} {leaves : List Leaf} {frame : Frame}
    (h : Frame.Denoted attributes leaves frame)
    (hleaves : ∀ leaf ∈ leaves, ∃ t, TextElement t leaf) : frame.Describable := by
  obtain ⟨settings, hwritten, rfl⟩ := h
  have hsettings := forall_of_forall₂ hwritten fun _ _ => FrameSetting.WrittenBy.admissible
  refine describable_ofLast hsettings (fun leaf hleaf => ?_) (fun leaf hleaf => ?_)
  · obtain ⟨t, ht⟩ := hleaves leaf hleaf
    exact ht.size
  · obtain ⟨t, ht⟩ := hleaves leaf hleaf
    exact ht.content

/-- The frame of a document can be described. -/
theorem Document.describable {s : List Char} {frame : Frame} (h : Document s frame) :
    frame.Describable := by
  obtain ⟨-, hroot, -⟩ := h
  cases hroot with
  | empty _ _ _ hframe => exact hframe.describable (by simp)
  | filled _ _ _ hchildren _ hframe => exact hframe.describable hchildren.textElement

theorem document_of_parse {markup : String} {frame : Frame} (h : Frame.parse markup = .ok frame) :
    Document markup.toList frame :=
  document_of_readDocument (parse_eq_ok_iff_readDocument.1 h)

/-- **The frames that some markup is accepted as are the describable ones**: nothing more than that
holds of all of them. -/
theorem exists_parse_iff_describable {frame : Frame} :
    (∃ markup, Frame.parse markup = .ok frame) ↔ frame.Describable := by
  constructor
  · rintro ⟨markup, h⟩
    exact (document_of_parse h).describable
  · intro h
    obtain ⟨s, hs⟩ := exists_printed h.finite
    refine ⟨String.ofList s, parse_of_document ?_⟩
    rw [String.toList_ofList]
    exact document_of_printed h hs

end CanvasLink.Markup

namespace CanvasLink.Script

open CanvasLink.Markup

/-! ## Numbers in a script -/

mutual

/-- The numbers that an expression writes, from the first one on. -/
def Expr.numbers : Expr → List Float
  | .number value => [value]
  | .object _ values => numbersOf values
  | .list items => numbersOf items
  | .call _ arguments => numbersOf arguments
  | .text _ | .boolean _ | .path _ => []

/-- The numbers that expressions write. -/
def numbersOf : List Expr → List Float
  | [] => []
  | e :: es => e.numbers ++ numbersOf es

end

/-- The numbers that a statement writes. -/
def Stmt.numbers : Stmt → List Float
  | .constant _ e | .assign _ e | .evaluate e | .wait e | .result e => e.numbers
  | .colors => []

/-- The properties that take a number. -/
def measures : List String :=
  ["x", "y", "cornerRadius", "itemSpacing", "paddingTop", "paddingRight", "paddingBottom",
   "paddingLeft", "fontSize"]

/-- What the target asks of a statement: every number in it is finite, a number is written where
one belongs, and what is a size is above zero. -/
structure Stmt.Drawable (statement : Stmt) : Prop where
  finite : ∀ x ∈ statement.numbers, x.isFinite = true
  measured : ∀ node property e, statement = .assign [node, property] e → property ∈ measures →
    ∃ x, e = .number x ∧ (property = "fontSize" → 0 < x)
  resized : ∀ node arguments, statement = .evaluate (.call [node, "resize"] arguments) →
    ∃ width height, arguments = [.number width, .number height] ∧ 0 < width ∧ 0 < height

/-- A number is assigned where one belongs, and sizes are above zero. -/
def Sized : Statement → Prop
  | .resize width height => 0 < width ∧ 0 < height
  | .assign _ property value =>
    property.text ∈ measures → ∃ x, value = .number x ∧ (property = .fontSize → 0 < x)
  | _ => True

/-- Fonts are loaded without numbers. -/
theorem numbersOf_loads (styles : List FontStyle) : numbersOf (styles.map loadExpr) = [] := by
  induction styles with
  | nil => simp [numbersOf]
  | cons style styles ih =>
    simp [numbersOf, Expr.numbers, loadExpr, fontExpr, ih]

/-- A statement with finite numbers is written with finite numbers. -/
theorem finite_stmtOf {statement : Statement} (h : FiniteNumbers statement) :
    ∀ x ∈ (stmtOf statement).numbers, x.isFinite = true := by
  cases statement with
  | defineColor => simp [stmtOf, Stmt.numbers]
  | loadFonts styles => simp [stmtOf, Stmt.numbers, Expr.numbers, numbersOf, numbersOf_loads]
  | create node => cases node <;> simp [stmtOf, Stmt.numbers, creationExpr, Expr.numbers, numbersOf]
  | resize width height =>
    simpa [stmtOf, Stmt.numbers, Expr.numbers, numbersOf, FiniteNumbers] using h
  | assign node property value =>
    cases value with
    | number x => simpa [stmtOf, Stmt.numbers, literalExpr, Expr.numbers, FiniteNumbers] using h
    | _ => simp [stmtOf, Stmt.numbers, literalExpr, fontExpr, paintExpr, Expr.numbers, numbersOf]
  | append index => simp [stmtOf, Stmt.numbers, Expr.numbers, numbersOf]
  | finish => simp [stmtOf, Stmt.numbers, Expr.numbers, numbersOf]

/-- **A statement with finite numbers and sizes above zero is drawn.** -/
theorem drawable_stmtOf {statement : Statement} (h : FiniteNumbers statement)
    (hsized : Sized statement) : (stmtOf statement).Drawable where
  finite := finite_stmtOf h
  -- Only an assignment can measure, and what is assigned to a size is a positive number.
  measured node property e heq hmeasure := by
    cases statement with
    | assign target assigned value =>
      cases heq
      obtain ⟨x, rfl, hpos⟩ := hsized hmeasure
      refine ⟨x, rfl, fun hsize => hpos ?_⟩
      cases assigned <;> first | rfl | exact absurd hsize (by decide)
    | _ => cases heq
  resized node arguments heq := by
    cases statement with
    | resize width height =>
      cases heq
      exact ⟨width, height, rfl, hsized⟩
    | append index => simp [stmtOf] at heq
    | _ => cases heq

/-- Leaves with sizes above zero are set up with these. -/
theorem sized_setupFrom (leaves : List Leaf) (index : Nat) (h : ∀ leaf ∈ leaves, 0 < leaf.size) :
    ∀ statement ∈ Leaf.setupFrom index leaves, Sized statement := by
  induction leaves generalizing index with
  | nil => simp [Leaf.setupFrom]
  | cons leaf leaves ih =>
    rw [List.forall_mem_cons] at h
    rw [Leaf.setupFrom, List.forall_mem_append]
    refine ⟨?_, ih (index + 1) h.2⟩
    cases hwidth : leaf.fillWidth <;>
      simp [Leaf.setup, hwidth, Sized, Property.text, measures, h.1]

/-- All statements of a frame that can be described have sizes above zero. -/
theorem sized_statements {frame : Frame} (h : frame.Describable) :
    ∀ statement ∈ frame.statements, Sized statement := by
  have hloading : ∀ statement ∈ frame.fontLoading, Sized statement := by
    rw [Frame.fontLoading]
    split <;> simp [Sized]
  have hsetup : ∀ statement ∈ frame.setup, Sized statement := by
    simp [Frame.setup, Sized, Property.text, measures, h.width, h.height]
  simp only [Frame.statements, List.forall_mem_append, List.forall_mem_singleton]
  exact ⟨⟨⟨⟨trivial, hloading⟩, hsetup⟩, sized_setupFrom frame.leaves 0 h.sizes⟩, trivial⟩

end CanvasLink.Script

namespace CanvasLink.Markup

open CanvasLink.Script

/-- **Accepted frames can be drawn.** The sizes of every frame that is accepted are finite and above
zero, its other numbers are finite, and no content has blank characters at its ends. So a script
that is compiled is a program in which every number is finite, stands where the target asks for one,
and is above zero where it is a size. -/
theorem parse_drawable (markup : String) :
    (∀ frame, Frame.parse markup = .ok frame → frame.Describable) ∧
    ∀ script, compile markup = .ok script →
      ∃ program, program? script = some program ∧ ∀ statement ∈ program, statement.Drawable := by
  have hframe (frame : Frame) (h : Frame.parse markup = .ok frame) : frame.Describable :=
    (document_of_parse h).describable
  refine ⟨hframe, fun script hscript => ?_⟩
  obtain ⟨frame, hparse, rfl⟩ := map_eq_ok.1 hscript
  have hok := hframe frame hparse
  have hfinite := finiteNumbers_statements hok.finite
  refine ⟨_, program?_emit hfinite, ?_⟩
  intro statement hstatement
  obtain ⟨source, hsource, rfl⟩ := List.mem_map.1 hstatement
  exact drawable_stmtOf (hfinite source hsource) (sized_statements hok source hsource)

/-- A frame with a content that starts and ends with an entity, and its script. -/
theorem parse_drawable_ticket :
    Frame.parse (String.ofList ticketMarkup) = .ok ticket ∧ ticket.Describable ∧
    compile (String.ofList ticketMarkup) = .ok ticket.emit ∧
    ∃ program, program? ticket.emit = some program ∧ ∀ statement ∈ program, statement.Drawable := by
  have hparse : Frame.parse (String.ofList ticketMarkup) = .ok ticket := by
    apply parse_of_document
    rw [String.toList_ofList]
    exact document_of_printed describable_ticket printed_ticket
  have hcompile : compile (String.ofList ticketMarkup) = .ok ticket.emit := by
    rw [compile, hparse]
    rfl
  obtain ⟨hframes, hscripts⟩ := parse_drawable (String.ofList ticketMarkup)
  exact ⟨hparse, hframes ticket hparse, hcompile, hscripts ticket.emit hcompile⟩

end CanvasLink.Markup
