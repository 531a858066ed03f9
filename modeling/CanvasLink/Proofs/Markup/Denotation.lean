import CanvasLink.Markup.Attribute
import CanvasLink.Proofs.Outcomes
import CanvasLink.Proofs.Text.Cutting
import Mathlib.Data.List.Forall2

/-!
# CanvasLink — what the attributes of an element denote

The reader of attributes turns them into settings and applies these one after another. This module
says what comes of it without following the reader:

* `FrameSetting.WrittenBy`, `LeafSetting.WrittenBy` — which setting an attribute writes, name by
  name. An attribute that the element recognises and that writes nothing is refused.
* `Frame.ofLast`, `Leaf.ofLast` — the frame or leaf of a list of settings: every part is the last
  value that is given for it, or its default; a side of the padding is the last value of the most
  specific attribute that is given.
* `Frame.Denoted`, `Leaf.Denoted` — both together.

The headlines are `frame_ofAttributes_eq_ok_iff` and `leaf_ofAttributes_eq_ok_iff`: the reader of
attributes computes exactly this.
-/

namespace CanvasLink.Markup

open CanvasLink.Text

/-! ## Values -/

/-- The attribute writes a finite number, with blank characters around it or without. -/
def Attribute.Writes (a : Attribute) (n : Float) : Prop :=
  ∃ text numeral, a.value.text? = some text ∧ Trimmed text.toList numeral ∧
    Decimal.read? numeral = some n ∧ n.isFinite = true

/-- The attribute writes a finite number above zero. -/
def Attribute.WritesPositive (a : Attribute) (n : Float) : Prop :=
  a.Writes n ∧ 0 < n

/-- The attribute writes a color. -/
def Attribute.WritesColor (a : Attribute) (color : Color) : Prop :=
  ∃ text, a.value.text? = some text ∧ Color.ofHex? text.toList = some color

/-- A number is read exactly if the attribute writes it. -/
theorem number?_eq_some_iff {a : Attribute} {n : Float} :
    a.number? = some n ↔ a.Writes n := by
  cases h : a.value.text? with
  | none => simp [Attribute.number?, Attribute.Writes, h]
  | some text => simp [Attribute.number?, Attribute.Writes, h, trimmed_iff]

/-- A number is accepted exactly if the attribute writes it. -/
theorem number_eq_ok_iff {a : Attribute} {element : Element} {n : Float} :
    a.number element = .ok n ↔ a.Writes n := by
  rw [← number?_eq_some_iff, Attribute.number]
  split
  · next m hm => simp [hm]
  · next hnone => simp [hnone, Attribute.invalid]

/-- A size is accepted exactly if the attribute writes it, and it is above zero. -/
theorem positive_eq_ok_iff {a : Attribute} {element : Element} {n : Float} :
    a.positive element = .ok n ↔ a.WritesPositive n := by
  rw [Attribute.WritesPositive, ← number?_eq_some_iff, Attribute.positive]
  split
  · next m hm =>
    split
    · next hpos =>
      simp only [hm, Except.ok.injEq, Option.some.injEq]
      exact ⟨fun h => ⟨h, h ▸ hpos⟩, And.left⟩
    · next hpos =>
      simp only [hm, Attribute.invalid, reduceCtorEq, Option.some.injEq, false_iff, not_and]
      exact fun h => h ▸ hpos
  · next hnone => simp [hnone, Attribute.invalid]

/-- A color is accepted exactly if the attribute writes it. -/
theorem color_eq_ok_iff {a : Attribute} {element : Element} {color : Color} :
    a.color element = .ok color ↔ a.WritesColor color := by
  rw [Attribute.color, Attribute.WritesColor]
  split
  · next text htext =>
    split
    · next found hfound => simp [htext, hfound]
    · next hfound => simp [htext, hfound, Attribute.invalid]
  · next hnone => simp [hnone, Attribute.invalid]

/-! ## Settings -/

/-- The names that a frame recognises. -/
def frameNames : List String :=
  ["name", "w", "width", "h", "height", "x", "y", "bg", "fill", "rounded", "radius", "flex", "gap",
   "p", "padding", "px", "py", "pt", "pr", "pb", "pl"]

/-- The setting of a frame that an attribute writes. -/
inductive FrameSetting.WrittenBy (a : Attribute) : FrameSetting → Prop
  | name {text} : a.name = "name" → a.value.text? = some text → WrittenBy a (.name text)
  | width {n} : a.name ∈ ["w", "width"] → a.WritesPositive n → WrittenBy a (.width n)
  | height {n} : a.name ∈ ["h", "height"] → a.WritesPositive n → WrittenBy a (.height n)
  | x {n} : a.name = "x" → a.Writes n → WrittenBy a (.x n)
  | y {n} : a.name = "y" → a.Writes n → WrittenBy a (.y n)
  | fill {color} : a.name ∈ ["bg", "fill"] → a.WritesColor color → WrittenBy a (.fill color)
  | cornerRadius {n} : a.name ∈ ["rounded", "radius"] → a.Writes n → WrittenBy a (.cornerRadius n)
  | row : a.name = "flex" → a.value.text? = some "row" → WrittenBy a (.axis .horizontal)
  | column {text} : a.name = "flex" → a.value.text? = some text → text ∈ ["col", "column"] →
      WrittenBy a (.axis .vertical)
  | gap {n} : a.name = "gap" → a.Writes n → WrittenBy a (.gap n)
  | padding {edge n} : (a.name, edge) ∈ [("p", .all), ("padding", .all), ("px", .horizontal),
      ("py", .vertical), ("pt", .top), ("pr", .right), ("pb", .bottom), ("pl", .left)] →
      a.Writes n → WrittenBy a (.padding edge n)

/-- The names that a text leaf recognises. -/
def leafNames : List String :=
  ["size", "weight", "color", "w"]

/-- The setting of a leaf that an attribute writes. Every weight and every width is taken: a weight
that is not known, and one without a value, is regular. -/
inductive LeafSetting.WrittenBy (a : Attribute) : LeafSetting → Prop
  | size {n} : a.name = "size" → a.WritesPositive n → WrittenBy a (.size n)
  | style : a.name = "weight" →
      WrittenBy a (.style (FontStyle.ofWeight (a.value.text?.getD "").toList))
  | color {color} : a.name = "color" → a.WritesColor color → WrittenBy a (.color color)
  | fillWidth : a.name = "w" → WrittenBy a (.fillWidth (a.value.text? == some "fill"))

/-- A direction is accepted exactly if one of its words stands there. -/
theorem axis_eq_ok_iff {a : Attribute} {element : Element} {axis : Axis} :
    a.axis element = .ok axis ↔
      (axis = .horizontal ∧ a.value.text? = some "row") ∨
      (axis = .vertical ∧ ∃ text, a.value.text? = some text ∧ text ∈ ["col", "column"]) := by
  unfold Attribute.axis Attribute.text
  cases h : a.value.text? with
  | none => simp [Attribute.invalid]
  | some text =>
    simp only [Option.some.injEq, exists_eq_left', List.mem_cons, List.not_mem_nil, or_false]
    split
    · next heq => cases heq; simp [eq_comm]
    · next heq => cases heq; simp [eq_comm]
    · next heq => cases heq; simp [eq_comm]
    · next hrow hcol hcolumn heq =>
      cases heq
      -- The remaining branch is reached by none of the three words.
      have h₁ : text ≠ "row" := fun h => hrow (by rw [h])
      have h₂ : text ≠ "col" := fun h => hcol (by rw [h])
      have h₃ : text ≠ "column" := fun h => hcolumn (by rw [h])
      simp [Attribute.invalid, h₁, h₂, h₃]
    · next heq => cases heq

/-- Every text is accepted where one stands. -/
theorem text_eq_ok_iff {a : Attribute} {element : Element} {text : String} :
    a.text element = .ok text ↔ a.value.text? = some text := by
  unfold Attribute.text
  split
  · next found hfound => simp [hfound]
  · next hnone => simp [hnone, Attribute.invalid]

/-- The names that frames know, with the settings that go by them. -/
theorem frameKey_ofName?_eq_some_iff {s : String} {key : FrameKey} :
    FrameKey.ofName? s = some key ↔
      (s, key) ∈ [("name", .name), ("w", .width), ("width", .width), ("h", .height),
        ("height", .height), ("x", .x), ("y", .y), ("bg", .fill), ("fill", .fill),
        ("rounded", .cornerRadius), ("radius", .cornerRadius), ("flex", .axis), ("gap", .gap),
        ("p", .padding .all), ("padding", .padding .all), ("px", .padding .horizontal),
        ("py", .padding .vertical), ("pt", .padding .top), ("pr", .padding .right),
        ("pb", .padding .bottom), ("pl", .padding .left)] := by
  constructor
  · intro h
    unfold FrameKey.ofName? at h
    split at h <;> cases h <;> simp
  · intro h
    simp only [List.mem_cons, Prod.mk.injEq, List.not_mem_nil, or_false] at h
    rcases h with ⟨rfl, rfl⟩ | ⟨rfl, rfl⟩ | ⟨rfl, rfl⟩ | ⟨rfl, rfl⟩ | ⟨rfl, rfl⟩ | ⟨rfl, rfl⟩ |
      ⟨rfl, rfl⟩ | ⟨rfl, rfl⟩ | ⟨rfl, rfl⟩ | ⟨rfl, rfl⟩ | ⟨rfl, rfl⟩ | ⟨rfl, rfl⟩ | ⟨rfl, rfl⟩ |
      ⟨rfl, rfl⟩ | ⟨rfl, rfl⟩ | ⟨rfl, rfl⟩ | ⟨rfl, rfl⟩ | ⟨rfl, rfl⟩ | ⟨rfl, rfl⟩ | ⟨rfl, rfl⟩ |
      ⟨rfl, rfl⟩ <;> rfl

/-- A name that is not listed is unknown to frames. -/
theorem frameKey_ofName?_eq_none_iff {s : String} :
    FrameKey.ofName? s = none ↔ s ∉ frameNames := by
  constructor
  · intro h hs
    simp only [frameNames, List.mem_cons, List.not_mem_nil, or_false] at hs
    rcases hs with rfl | rfl | rfl | rfl | rfl | rfl | rfl | rfl | rfl | rfl | rfl | rfl | rfl |
      rfl | rfl | rfl | rfl | rfl | rfl | rfl | rfl <;> cases h
  · intro h
    cases hkey : FrameKey.ofName? s with
    | none => rfl
    | some key =>
      refine absurd ?_ h
      have hmem := List.mem_map_of_mem (f := Prod.fst) (frameKey_ofName?_eq_some_iff.1 hkey)
      simpa [frameNames] using hmem

/-- The reader of a frame's attribute and the setting that the attribute writes, key by key. -/
theorem frameKey_read_eq_ok_iff {a : Attribute} {setting : FrameSetting} :
    (∃ key, FrameKey.ofName? a.name = some key ∧ key.read a = .ok setting) ↔
      FrameSetting.WrittenBy a setting := by
  simp only [frameKey_ofName?_eq_some_iff]
  constructor
  · rintro ⟨key, hkey, hread⟩
    cases key with
    | name =>
      obtain ⟨text, htext, rfl⟩ := map_eq_ok.1 hread
      exact .name (by simpa using hkey) (text_eq_ok_iff.1 htext)
    | width =>
      obtain ⟨n, hn, rfl⟩ := map_eq_ok.1 hread
      exact .width (by simpa using hkey) (positive_eq_ok_iff.1 hn)
    | height =>
      obtain ⟨n, hn, rfl⟩ := map_eq_ok.1 hread
      exact .height (by simpa using hkey) (positive_eq_ok_iff.1 hn)
    | x =>
      obtain ⟨n, hn, rfl⟩ := map_eq_ok.1 hread
      exact .x (by simpa using hkey) (number_eq_ok_iff.1 hn)
    | y =>
      obtain ⟨n, hn, rfl⟩ := map_eq_ok.1 hread
      exact .y (by simpa using hkey) (number_eq_ok_iff.1 hn)
    | fill =>
      obtain ⟨color, hcolor, rfl⟩ := map_eq_ok.1 hread
      exact .fill (by simpa using hkey) (color_eq_ok_iff.1 hcolor)
    | cornerRadius =>
      obtain ⟨n, hn, rfl⟩ := map_eq_ok.1 hread
      exact .cornerRadius (by simpa using hkey) (number_eq_ok_iff.1 hn)
    | axis =>
      obtain ⟨axis, haxis, rfl⟩ := map_eq_ok.1 hread
      -- The one key with two ways of being written.
      rcases axis_eq_ok_iff.1 haxis with ⟨rfl, hrow⟩ | ⟨rfl, text, htext, hcol⟩
      · exact .row (by simpa using hkey) hrow
      · exact .column (by simpa using hkey) htext hcol
    | gap =>
      obtain ⟨n, hn, rfl⟩ := map_eq_ok.1 hread
      exact .gap (by simpa using hkey) (number_eq_ok_iff.1 hn)
    | padding edge =>
      obtain ⟨n, hn, rfl⟩ := map_eq_ok.1 hread
      exact .padding (by simpa using hkey) (number_eq_ok_iff.1 hn)
  · intro h
    cases h with
    | name hname htext =>
      exact ⟨.name, by simp [hname], map_eq_ok.2 ⟨_, text_eq_ok_iff.2 htext, rfl⟩⟩
    | width hname hn =>
      exact ⟨.width, by simpa using hname, map_eq_ok.2 ⟨_, positive_eq_ok_iff.2 hn, rfl⟩⟩
    | height hname hn =>
      exact ⟨.height, by simpa using hname, map_eq_ok.2 ⟨_, positive_eq_ok_iff.2 hn, rfl⟩⟩
    | x hname hn =>
      exact ⟨.x, by simp [hname], map_eq_ok.2 ⟨_, number_eq_ok_iff.2 hn, rfl⟩⟩
    | y hname hn =>
      exact ⟨.y, by simp [hname], map_eq_ok.2 ⟨_, number_eq_ok_iff.2 hn, rfl⟩⟩
    | fill hname hcolor =>
      exact ⟨.fill, by simpa using hname, map_eq_ok.2 ⟨_, color_eq_ok_iff.2 hcolor, rfl⟩⟩
    | cornerRadius hname hn =>
      exact ⟨.cornerRadius, by simpa using hname,
        map_eq_ok.2 ⟨_, number_eq_ok_iff.2 hn, rfl⟩⟩
    | row hname htext =>
      exact ⟨.axis, by simp [hname],
        map_eq_ok.2 ⟨_, axis_eq_ok_iff.2 (.inl ⟨rfl, htext⟩), rfl⟩⟩
    | column hname htext hcol =>
      exact ⟨.axis, by simp [hname],
        map_eq_ok.2 ⟨_, axis_eq_ok_iff.2 (.inr ⟨rfl, _, htext, hcol⟩), rfl⟩⟩
    | gap hname hn =>
      exact ⟨.gap, by simp [hname], map_eq_ok.2 ⟨_, number_eq_ok_iff.2 hn, rfl⟩⟩
    | @padding edge n hname hn =>
      exact ⟨.padding edge, by simpa using hname,
        map_eq_ok.2 ⟨_, number_eq_ok_iff.2 hn, rfl⟩⟩

/-- The names that leaves know, with the settings that go by them. -/
theorem leafKey_ofName?_eq_some_iff {s : String} {key : LeafKey} :
    LeafKey.ofName? s = some key ↔
      (s, key) ∈ [("size", .size), ("weight", .style), ("color", .color), ("w", .fillWidth)] := by
  constructor
  · intro h
    unfold LeafKey.ofName? at h
    split at h <;> cases h <;> simp
  · intro h
    simp only [List.mem_cons, Prod.mk.injEq, List.not_mem_nil, or_false] at h
    rcases h with ⟨rfl, rfl⟩ | ⟨rfl, rfl⟩ | ⟨rfl, rfl⟩ | ⟨rfl, rfl⟩ <;> rfl

/-- A name that is not listed is unknown to leaves. -/
theorem leafKey_ofName?_eq_none_iff {s : String} :
    LeafKey.ofName? s = none ↔ s ∉ leafNames := by
  constructor
  · intro h hs
    simp only [leafNames, List.mem_cons, List.not_mem_nil, or_false] at hs
    rcases hs with rfl | rfl | rfl | rfl <;> cases h
  · intro h
    cases hkey : LeafKey.ofName? s with
    | none => rfl
    | some key =>
      refine absurd ?_ h
      have hmem := List.mem_map_of_mem (f := Prod.fst) (leafKey_ofName?_eq_some_iff.1 hkey)
      simpa [leafNames] using hmem

/-- The reader of a leaf's attribute and the setting that the attribute writes, key by key. -/
theorem leafKey_read_eq_ok_iff {a : Attribute} {setting : LeafSetting} :
    (∃ key, LeafKey.ofName? a.name = some key ∧ key.read a = .ok setting) ↔
      LeafSetting.WrittenBy a setting := by
  simp only [leafKey_ofName?_eq_some_iff]
  constructor
  · rintro ⟨key, hkey, hread⟩
    cases key with
    | size =>
      obtain ⟨n, hn, rfl⟩ := map_eq_ok.1 hread
      exact .size (by simpa using hkey) (positive_eq_ok_iff.1 hn)
    | style =>
      cases hread
      exact .style (by simpa using hkey)
    | color =>
      obtain ⟨color, hcolor, rfl⟩ := map_eq_ok.1 hread
      exact .color (by simpa using hkey) (color_eq_ok_iff.1 hcolor)
    | fillWidth =>
      cases hread
      exact .fillWidth (by simpa using hkey)
  · intro h
    cases h with
    | size hname hn =>
      exact ⟨.size, by simp [hname], map_eq_ok.2 ⟨_, positive_eq_ok_iff.2 hn, rfl⟩⟩
    | style hname => exact ⟨.style, by simp [hname], rfl⟩
    | color hname hcolor =>
      exact ⟨.color, by simp [hname], map_eq_ok.2 ⟨_, color_eq_ok_iff.2 hcolor, rfl⟩⟩
    | fillWidth hname => exact ⟨.fillWidth, by simp [hname], rfl⟩

/-! ## The last value of each kind -/

/-- The last value of one kind among settings. -/
def lastValue {σ α : Type} (pick : σ → Option α) (settings : List σ) : Option α :=
  (settings.filterMap pick).getLast?

/-- A setting counts if no later one does. -/
theorem lastValue_cons {σ α : Type} (pick : σ → Option α) (setting : σ) (settings : List σ) :
    lastValue pick (setting :: settings) = (lastValue pick settings).or (pick setting) := by
  cases h : pick setting with
  | none => simp [lastValue, List.filterMap_cons_none h]
  | some value =>
    rw [lastValue, List.filterMap_cons_some h, List.getLast?_cons, lastValue]
    cases (settings.filterMap pick).getLast? <;> rfl

/-- A part that each setting replaces or leaves alone holds the last value given for it, else what
it held before. Induction on the settings. -/
theorem foldl_eq_lastValue_or {δ σ α : Type} (step : δ → σ → δ) (part : δ → Option α)
    (pick : σ → Option α) (h : ∀ d s, part (step d s) = (pick s).or (part d))
    (settings : List σ) (d : δ) :
    part (settings.foldl step d) = (lastValue pick settings).or (part d) := by
  induction settings generalizing d with
  | nil => rfl
  | cons setting settings ih =>
    rw [List.foldl_cons, ih, h, lastValue_cons, Option.or_assoc]

/-- A part that each step overwrites or leaves alone has its last value in the end. -/
theorem foldl_eq_lastValue_getD {δ σ α : Type} (step : δ → σ → δ) (part : δ → α)
    (pick : σ → Option α) (h : ∀ d s, part (step d s) = (pick s).getD (part d))
    (settings : List σ) (d : δ) :
    part (settings.foldl step d) = (lastValue pick settings).getD (part d) := by
  have hor := foldl_eq_lastValue_or step (fun d => some (part d)) pick
    (fun d s => by rw [h]; cases pick s <;> rfl) settings d
  cases hlast : lastValue pick settings <;> simp_all

/-! ## Frames -/

namespace FrameSetting

def name? : FrameSetting → Option String
  | .name text => some text
  | _ => none

def width? : FrameSetting → Option Float
  | .width n => some n
  | _ => none

def height? : FrameSetting → Option Float
  | .height n => some n
  | _ => none

def x? : FrameSetting → Option Float
  | .x n => some n
  | _ => none

def y? : FrameSetting → Option Float
  | .y n => some n
  | _ => none

def fill? : FrameSetting → Option Color
  | .fill color => some color
  | _ => none

def cornerRadius? : FrameSetting → Option Float
  | .cornerRadius n => some n
  | _ => none

def axis? : FrameSetting → Option Axis
  | .axis direction => some direction
  | _ => none

def gap? : FrameSetting → Option Float
  | .gap n => some n
  | _ => none

def padding? (edge : Edge) : FrameSetting → Option Float
  | .padding other n => if other = edge then some n else none
  | _ => none

end FrameSetting

/-- The frame that settings and leaves describe. A side of the padding takes the last value of its
own attribute, else of its axis, else of the common one. -/
def Frame.ofLast (settings : List FrameSetting) (leaves : List Leaf) : Frame :=
  let padding (edge : Edge) := lastValue (FrameSetting.padding? edge) settings
  let base := (padding .all).getD 0
  let horizontal := (padding .horizontal).getD base
  let vertical := (padding .vertical).getD base
  { name := (lastValue FrameSetting.name? settings).getD "Frame"
    width := (lastValue FrameSetting.width? settings).getD 100
    height := (lastValue FrameSetting.height? settings).getD 100
    x := (lastValue FrameSetting.x? settings).getD 0
    y := (lastValue FrameSetting.y? settings).getD 0
    fill := (lastValue FrameSetting.fill? settings).getD Color.white
    cornerRadius := (lastValue FrameSetting.cornerRadius? settings).getD 0
    axis := (lastValue FrameSetting.axis? settings).getD .vertical
    gap := (lastValue FrameSetting.gap? settings).getD 0
    padding :=
      { top := (padding .top).getD vertical
        right := (padding .right).getD horizontal
        bottom := (padding .bottom).getD vertical
        left := (padding .left).getD horizontal }
    leaves := leaves }

/-- The frame that the attributes of its tag and its leaves denote. -/
def Frame.Denoted (attributes : List Attribute) (leaves : List Leaf) (frame : Frame) : Prop :=
  ∃ settings,
    List.Forall₂ FrameSetting.WrittenBy (attributes.filter (·.name ∈ frameNames)) settings ∧
    frame = Frame.ofLast settings leaves

/-- What a plan fixes for one edge. -/
def PaddingPlan.get (plan : PaddingPlan) : Edge → Option Float
  | .all => plan.all
  | .horizontal => plan.horizontal
  | .vertical => plan.vertical
  | .top => plan.top
  | .right => plan.right
  | .bottom => plan.bottom
  | .left => plan.left

/-- A setting changes the plan for its own edge only. -/
theorem plan_get_apply (edge : Edge) (draft : FrameDraft) (setting : FrameSetting) :
    (draft.apply setting).plan.get edge =
      (FrameSetting.padding? edge setting).or (draft.plan.get edge) := by
  cases setting with
  | padding other n => cases other <;> cases edge <;> rfl
  | _ => cases edge <;> rfl

/-- Every part of the frame that the fold over the settings builds is the last value given for
it. -/
theorem frame_ofSettings_eq (settings : List FrameSetting) :
    Frame.ofSettings settings = Frame.ofLast settings [] := by
  have part {α : Type} (get : FrameDraft → α) (pick : FrameSetting → Option α)
      (h : ∀ d s, get (d.apply s) = (pick s).getD (get d)) :=
    foldl_eq_lastValue_getD FrameDraft.apply get pick h settings {}
  have hname := part (·.frame.name) FrameSetting.name? (by intro d s; cases s <;> rfl)
  have hwidth := part (·.frame.width) FrameSetting.width? (by intro d s; cases s <;> rfl)
  have hheight := part (·.frame.height) FrameSetting.height? (by intro d s; cases s <;> rfl)
  have hx := part (·.frame.x) FrameSetting.x? (by intro d s; cases s <;> rfl)
  have hy := part (·.frame.y) FrameSetting.y? (by intro d s; cases s <;> rfl)
  have hfill := part (·.frame.fill) FrameSetting.fill? (by intro d s; cases s <;> rfl)
  have hradius := part (·.frame.cornerRadius) FrameSetting.cornerRadius?
    (by intro d s; cases s <;> rfl)
  have haxis := part (·.frame.axis) FrameSetting.axis? (by intro d s; cases s <;> rfl)
  have hgap := part (·.frame.gap) FrameSetting.gap? (by intro d s; cases s <;> rfl)
  -- No setting touches the leaves, so their last value is the one the draft starts with.
  have hleaves := part (·.frame.leaves) (fun _ => none) (by intro d s; cases s <;> rfl)
  have hside (edge : Edge) : (settings.foldl FrameDraft.apply {}).plan.get edge =
      lastValue (FrameSetting.padding? edge) settings := by
    rw [foldl_eq_lastValue_or FrameDraft.apply (·.plan.get edge) _ (plan_get_apply edge)]
    cases edge <;> exact Option.or_none
  have hpadding : (settings.foldl FrameDraft.apply {}).plan.resolve =
      (Frame.ofLast settings []).padding := by
    simp only [Frame.ofLast, ← hside]
    rfl
  have hnone : lastValue (fun _ : FrameSetting => (none : Option (List Leaf))) settings = none := by
    simp [lastValue]
  rw [hnone] at hleaves
  rw [Frame.ofSettings, hpadding]
  simp only [Frame.ofLast, Frame.mk.injEq]
  exact ⟨hname, hwidth, hheight, hx, hy, hfill, hradius, haxis, hgap, trivial, hleaves⟩

/-! ## Lists of attributes

Frames and leaves read their attributes alike: an attribute whose name has no key is passed over,
any other one is read as its key asks, and the first that cannot be read is refused. -/

/-- A reader of attributes gives the settings that the recognised attributes write, one for each of
them. Induction on the attributes. -/
theorem readSettings_eq_ok_iff {κ σ : Type} {names : List String} {ofName? : String → Option κ}
    {readKey : Attribute → κ → Reading σ} {WrittenBy : Attribute → σ → Prop}
    {read : List Attribute → Reading (List σ)}
    (hnames : ∀ s, ofName? s = none ↔ s ∉ names)
    (hwritten : ∀ a setting,
      (∃ key, ofName? a.name = some key ∧ readKey a key = .ok setting) ↔ WrittenBy a setting)
    (hnil : read [] = .ok [])
    (hcons : ∀ a rest, read (a :: rest) =
      match ofName? a.name with
      | none => read rest
      | some key => do
        let setting ← readKey a key
        let settings ← read rest
        return setting :: settings)
    {attributes : List Attribute} {settings : List σ} :
    read attributes = .ok settings ↔
      List.Forall₂ WrittenBy (attributes.filter (·.name ∈ names)) settings := by
  induction attributes generalizing settings with
  | nil =>
    rw [hnil, List.filter_nil, List.forall₂_nil_left_iff, Except.ok.injEq]
    exact eq_comm
  | cons a attributes ih =>
    rw [hcons]
    cases hkey : ofName? a.name with
    | none =>
      -- An unknown attribute is passed over on both sides.
      have hname := (hnames a.name).1 hkey
      rw [List.filter_cons_of_neg (by simpa using hname)]
      exact ih
    | some key =>
      have hname : a.name ∈ names := by
        by_contra hnot
        rw [(hnames a.name).2 hnot] at hkey
        cases hkey
      rw [List.filter_cons_of_pos (by simpa using hname), List.forall₂_cons_left_iff, bind_eq_ok]
      constructor
      · rintro ⟨setting, hread, hrest⟩
        obtain ⟨others, hothers, hsettings⟩ := bind_eq_ok.1 hrest
        cases hsettings
        exact ⟨setting, others, (hwritten a setting).1 ⟨key, hkey, hread⟩, ih.1 hothers, rfl⟩
      · rintro ⟨setting, others, hsetting, hothers, rfl⟩
        obtain ⟨key', hkey', hread⟩ := (hwritten a setting).2 hsetting
        -- The key is determined by the name, so the setting is read by the same one.
        rw [hkey] at hkey'
        cases hkey'
        exact ⟨setting, hread, bind_eq_ok.2 ⟨others, ih.2 hothers, rfl⟩⟩

/-- Attributes are accepted exactly if those with known names each write a setting, in order. -/
theorem frameSetting_ofAttributes_eq_ok_iff {attributes : List Attribute}
    {settings : List FrameSetting} :
    FrameSetting.ofAttributes attributes = .ok settings ↔
      List.Forall₂ FrameSetting.WrittenBy (attributes.filter (·.name ∈ frameNames)) settings :=
  readSettings_eq_ok_iff (fun _ => frameKey_ofName?_eq_none_iff)
    (fun _ _ => frameKey_read_eq_ok_iff) rfl fun a rest => by
      rw [FrameSetting.ofAttributes]
      cases FrameKey.ofName? a.name <;> rfl

/-- The same for the attributes of a leaf. -/
theorem leafSetting_ofAttributes_eq_ok_iff {attributes : List Attribute}
    {settings : List LeafSetting} :
    LeafSetting.ofAttributes attributes = .ok settings ↔
      List.Forall₂ LeafSetting.WrittenBy (attributes.filter (·.name ∈ leafNames)) settings :=
  readSettings_eq_ok_iff (fun _ => leafKey_ofName?_eq_none_iff)
    (fun _ _ => leafKey_read_eq_ok_iff) rfl fun a rest => by
      rw [LeafSetting.ofAttributes]
      cases LeafKey.ofName? a.name <;> rfl

theorem frame_ofAttributes_eq_ok_iff_nil {attributes : List Attribute} {frame : Frame} :
    Frame.ofAttributes attributes = .ok frame ↔ Frame.Denoted attributes [] frame := by
  rw [Frame.ofAttributes, map_eq_ok, Frame.Denoted]
  simp only [frame_ofSettings_eq, frameSetting_ofAttributes_eq_ok_iff, @eq_comm _ frame]

/-- **The frame of a tag's attributes.** With its leaves added it is the frame that the attributes
and the leaves denote. -/
theorem frame_ofAttributes_eq_ok_iff {attributes : List Attribute} {leaves : List Leaf}
    {frame : Frame} :
    (∃ bare, Frame.ofAttributes attributes = .ok bare ∧ { bare with leaves := leaves } = frame) ↔
      Frame.Denoted attributes leaves frame := by
  constructor
  · rintro ⟨bare, hbare, rfl⟩
    obtain ⟨settings, hsettings, rfl⟩ := map_eq_ok.1 hbare
    refine ⟨settings, frameSetting_ofAttributes_eq_ok_iff.1 hsettings, ?_⟩
    rw [frame_ofSettings_eq]
    rfl
  · rintro ⟨settings, hsettings, rfl⟩
    refine ⟨Frame.ofLast settings [], ?_, rfl⟩
    refine map_eq_ok.2 ⟨settings, frameSetting_ofAttributes_eq_ok_iff.2 hsettings, ?_⟩
    exact frame_ofSettings_eq settings

/-! ## Leaves -/

namespace LeafSetting

def size? : LeafSetting → Option Float
  | .size n => some n
  | _ => none

def style? : LeafSetting → Option FontStyle
  | .style weight => some weight
  | _ => none

def color? : LeafSetting → Option Color
  | .color paint => some paint
  | _ => none

def fillWidth? : LeafSetting → Option Bool
  | .fillWidth fill => some fill
  | _ => none

end LeafSetting

/-- The leaf that settings and a content describe. -/
def Leaf.ofLast (settings : List LeafSetting) (content : String) : Leaf where
  content := content
  style := (lastValue LeafSetting.style? settings).getD .regular
  size := (lastValue LeafSetting.size? settings).getD 14
  color := (lastValue LeafSetting.color? settings).getD Color.black
  fillWidth := (lastValue LeafSetting.fillWidth? settings).getD false

/-- The leaf that the attributes of its tag and its content denote. -/
def Leaf.Denoted (attributes : List Attribute) (content : String) (leaf : Leaf) : Prop :=
  ∃ settings,
    List.Forall₂ LeafSetting.WrittenBy (attributes.filter (·.name ∈ leafNames)) settings ∧
    leaf = Leaf.ofLast settings content

/-- Settings applied one after the other make the leaf of their last values. -/
theorem leaf_foldl_eq (settings : List LeafSetting) (content : String) :
    settings.foldl Leaf.apply { content := content } = Leaf.ofLast settings content := by
  have part {α : Type} (get : Leaf → α) (pick : LeafSetting → Option α)
      (h : ∀ leaf s, get (leaf.apply s) = (pick s).getD (get leaf)) :=
    foldl_eq_lastValue_getD Leaf.apply get pick h settings { content := content }
  -- The content is no setting: no attribute touches it.
  have hcontent := part (·.content) (fun _ => none) (by intro leaf s; cases s <;> rfl)
  have hstyle := part (·.style) LeafSetting.style? (by intro leaf s; cases s <;> rfl)
  have hsize := part (·.size) LeafSetting.size? (by intro leaf s; cases s <;> rfl)
  have hcolor := part (·.color) LeafSetting.color? (by intro leaf s; cases s <;> rfl)
  have hfill := part (·.fillWidth) LeafSetting.fillWidth? (by intro leaf s; cases s <;> rfl)
  have hnone : lastValue (fun _ : LeafSetting => (none : Option String)) settings = none := by
    simp [lastValue]
  rw [hnone] at hcontent
  cases hleaf : settings.foldl Leaf.apply { content := content }
  simp only [hleaf] at hcontent hstyle hsize hcolor hfill
  simp only [Leaf.ofLast, Leaf.mk.injEq]
  exact ⟨hcontent, hstyle, hsize, hcolor, hfill⟩

/-- **The leaf of a tag's attributes and its content.** -/
theorem leaf_ofAttributes_eq_ok_iff {attributes : List Attribute} {content : String}
    {leaf : Leaf} :
    Leaf.ofAttributes attributes content = .ok leaf ↔ Leaf.Denoted attributes content leaf := by
  rw [Leaf.ofAttributes, map_eq_ok, Leaf.Denoted]
  simp only [leaf_foldl_eq, leafSetting_ofAttributes_eq_ok_iff, @eq_comm _ leaf]

end CanvasLink.Markup
