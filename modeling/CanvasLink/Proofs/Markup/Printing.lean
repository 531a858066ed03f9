import CanvasLink.Markup.Compile
import CanvasLink.Proofs.Markup.Acceptance
import CanvasLink.Proofs.Decimal.Reading
import CanvasLink.Proofs.Script.Simulation

/-!
# CanvasLink — parsing undoes printing

The texts that print a frame, whichever way a printer writes its strings, and the frame that the
parser makes of each of them.

* `Escaped` — how a string may be written: every `&` as its entity, any of the other four
  characters as its entity or as it is, one by one.
* `IsNumeral` — the text of a number. Nothing is asked of it but that it reads as the number.
* `Frame.Printed` — the texts that print a frame, with the attributes of a tag in any order.
* `Frame.Describable` — the frames that markup can describe.
* **`parse_printed`** — a text that prints a frame parses as that frame and compiles to its script.
* `exists_printed` — every frame with finite numbers has such a text.

A printed text is a document, so all the reading is done by `readDocument_of_document`; what is
left is that the printed attributes and contents denote the settings and texts they were made from.
-/

namespace CanvasLink.Markup

open CanvasLink.Text
open CanvasLink.Script (frameNumbers)

/-! ## Strings -/

/-- The entities, with the characters they stand for. -/
def entities : List (List Char × Char) :=
  [("&amp;".toList, '&'), ("&lt;".toList, '<'), ("&gt;".toList, '>'), ("&quot;".toList, '"'),
   ("&apos;".toList, '\'')]

/-- A text, first as it is written and then as it is meant. No `&` is written as itself. -/
inductive Escaped : List Char → List Char → Prop
  | nil : Escaped [] []
  | entity {entity c w t} : (entity, c) ∈ entities → Escaped w t → Escaped (entity ++ w) (c :: t)
  | plain {c w t} : c ≠ '&' → Escaped w t → Escaped (c :: w) (c :: t)

theorem decodeEntities_cons {c : Char} (hc : c ≠ '&') (s : List Char) :
    decodeEntities (c :: s) = c :: decodeEntities s := by
  simp [decodeEntities, hc]

/-- An entity is decoded on its own: nothing that it decodes to is read again. -/
theorem decodeEntities_entity {entity : List Char} {c : Char} (h : (entity, c) ∈ entities)
    (s : List Char) : decodeEntities (entity ++ s) = c :: decodeEntities s := by
  simp only [entities, List.mem_cons, Prod.mk.injEq, List.not_mem_nil, or_false] at h
  obtain ⟨rfl, rfl⟩ | ⟨rfl, rfl⟩ | ⟨rfl, rfl⟩ | ⟨rfl, rfl⟩ | ⟨rfl, rfl⟩ := h
  all_goals rfl

/-- Decoding undoes every way of escaping a text. -/
theorem decodeEntities_of_escaped {w t : List Char} (h : Escaped w t) : decodeEntities w = t := by
  induction h with
  | nil => rfl
  | entity hentity _ ih => rw [decodeEntities_entity hentity, ih]
  | plain hc _ ih => rw [decodeEntities_cons hc, ih]

/-- A text without `&` may be written as it is. -/
theorem escaped_self {t : List Char} (h : '&' ∉ t) : Escaped t t := by
  induction t with
  | nil => exact .nil
  | cons c t ih =>
    rw [List.mem_cons, not_or] at h
    exact .plain (Ne.symm h.1) (ih h.2)

/-- A character with its entity in its place, if it has one. -/
def escapeChar (c : Char) : List Char :=
  match entities.find? (·.2 == c) with
  | some (entity, _) => entity
  | none => [c]

/-- A text may be written with all its entities. -/
theorem escaped_flatMap (t : List Char) : Escaped (t.flatMap escapeChar) t := by
  induction t with
  | nil => exact .nil
  | cons c t ih =>
    rw [List.flatMap_cons, escapeChar]
    split
    · next entity d hfind =>
      have hc : d = c := by simpa using List.find?_some hfind
      exact .entity (hc ▸ List.mem_of_find?_eq_some hfind) ih
    · next hfind =>
      -- Only `&` may not stand for itself, and the table has an entity for it.
      refine .plain ?_ ih
      rintro rfl
      exact absurd hfind (by decide)

/-- With all its entities a text holds none of their characters but `&`. -/
theorem notMem_flatMap_escapeChar {c : Char} (hc : c ∈ ['<', '>', '"', '\'']) (t : List Char) :
    c ∉ t.flatMap escapeChar := by
  rw [List.mem_flatMap]
  rintro ⟨d, -, hmem⟩
  rw [escapeChar] at hmem
  split at hmem
  · next entity e hfind =>
    -- No entity is spelled with one of the four.
    have hnone : ∀ c ∈ ['<', '>', '"', '\''], ∀ entry ∈ entities, c ∉ entry.1 := by
      simp only [List.forall_mem_cons]
      exact ⟨by decide, by decide, by decide, by decide, by simp⟩
    exact hnone c hc _ (List.mem_of_find?_eq_some hfind) hmem
  · next hfind =>
    -- Each of the four has an entity, so it is never left as it is.
    have hsome : ∀ c ∈ ['<', '>', '"', '\''], entities.find? (·.2 == c) ≠ none := by
      simp only [List.forall_mem_cons]
      exact ⟨by decide, by decide, by decide, by decide, by simp⟩
    rw [List.mem_singleton] at hmem
    exact hsome c hc (hmem ▸ hfind)

/-- No blank character stands at either end. -/
def Unpadded (t : List Char) : Prop :=
  (∀ c ∈ t.head?, isBlank c = false) ∧ ∀ c ∈ t.getLast?, isBlank c = false

instance (t : List Char) : Decidable (Unpadded t) :=
  decidable_of_iff
    (t.head?.all (!isBlank ·) = true ∧ t.getLast?.all (!isBlank ·) = true) <| by
      simp [Unpadded, Option.all_eq_true]

/-- A text without blank characters at its ends is its own trimmed form. -/
theorem Unpadded.trimmed {t : List Char} (h : Unpadded t) : Trimmed t t :=
  ⟨[], [], by simp, .nil, .nil, h.1, h.2⟩

theorem unpadded_of_not_isBlank {w : List Char} (h : ∀ c ∈ w, isBlank c = false) : Unpadded w :=
  ⟨fun c hc => h c (List.mem_of_mem_head? hc), fun c hc => h c (List.mem_of_getLast? hc)⟩

/-- An entity starts with `&` and ends with `;`, neither of which is blank. -/
theorem entity_ends {entity : List Char} {c : Char} (h : (entity, c) ∈ entities) :
    entity.head? = some '&' ∧ entity.getLast? = some ';' := by
  simp only [entities, List.mem_cons, Prod.mk.injEq, List.not_mem_nil, or_false] at h
  obtain ⟨rfl, -⟩ | ⟨rfl, -⟩ | ⟨rfl, -⟩ | ⟨rfl, -⟩ | ⟨rfl, -⟩ := h
  all_goals decide

/-- A text that does not end in a blank character does so no more without its first one. -/
theorem not_isBlank_getLast?_tail {c : Char} {t : List Char}
    (h : ∀ d ∈ (c :: t).getLast?, isBlank d = false) : ∀ d ∈ t.getLast?, isBlank d = false := by
  cases t with
  | nil => simp
  | cons e t => rwa [List.getLast?_cons_cons] at h

/-- Escaping keeps blank characters away from the ends: what it puts there is no blank. -/
theorem Escaped.unpadded {w t : List Char} (h : Escaped w t) (ht : Unpadded t) : Unpadded w := by
  obtain ⟨hhead, hlast⟩ := ht
  constructor
  · intro d hd
    cases h with
    | nil => simp at hd
    | entity hentity =>
      rw [List.head?_append, (entity_ends hentity).1] at hd
      cases hd
      decide
    | plain => exact hhead d hd
  · clear hhead
    induction h with
    | nil => simp
    | @entity entity c w t hentity hw ih =>
      intro d hd
      rw [List.getLast?_append, (entity_ends hentity).2] at hd
      cases hw' : w.getLast? with
      | none =>
        rw [hw'] at hd
        cases hd
        decide
      | some e =>
        rw [hw'] at hd
        cases hd
        exact ih (not_isBlank_getLast?_tail hlast) d hw'
    | @plain c w t hc hw ih =>
      intro d hd
      cases w with
      | nil =>
        -- Only the empty text is written without a character.
        have ht : t = [] := (decodeEntities_of_escaped hw).symm
        subst ht
        exact hlast d hd
      | cons e w =>
        rw [List.getLast?_cons_cons] at hd
        exact ih (not_isBlank_getLast?_tail hlast) d hd

/-! ## Values

What stands between the quotes of an attribute is decoded as a whole, so a number, a color or a
word has to survive decoding, and no quote may end it early. -/

/-- The text of a number, with blank characters around it or without. -/
def IsNumeral (w : List Char) (x : Float) : Prop :=
  Decimal.read? (trim w) = some x

instance (w : List Char) (x : Float) : Decidable (IsNumeral w x) := by
  unfold IsNumeral
  infer_instance

/-- The text of a color, with a `#` or without. -/
def IsColor (w : List Char) (color : Color) : Prop :=
  w = color.toHex ∨ w = '#' :: color.toHex

/-- The characters of a text mean themselves between quotes. -/
def Verbatim (w : List Char) : Prop :=
  '"' ∉ w ∧ '&' ∉ w

theorem Verbatim.decode {w : List Char} (h : Verbatim w) : decodeEntities w = w :=
  decodeEntities_of_escaped (escaped_self h.2)

/-- The characters of numerals are not blank. -/
theorem isBlank_eq_false_of_isNumeralChar {c : Char} (h : Decimal.isNumeralChar c = true) :
    isBlank c = false := by
  rw [← Bool.not_eq_true]
  intro hblank
  have hname := isNameChar_eq_false_of_isBlank hblank
  simp only [isNameChar, Bool.or_eq_false_iff] at hname
  simp only [Decimal.isNumeralChar, hname, Bool.false_or, decide_eq_true_eq, List.mem_cons,
    List.not_mem_nil, or_false] at h
  obtain rfl | rfl | rfl := h
  all_goals exact absurd hblank (by decide)

/-- Every finite number has a text: its plain form. -/
theorem isNumeral_render {x : Float} (hx : x.isFinite = true) :
    IsNumeral (Decimal.plain.render x).toList x := by
  have hread := Decimal.read?_plain_render hx
  have hblank : ∀ c ∈ (Decimal.plain.render x).toList, isBlank c = false := by
    intro c hc
    exact isBlank_eq_false_of_isNumeralChar (Decimal.isNumeralChar_of_read? hread c hc)
  rw [IsNumeral, trimmed_iff.1 (unpadded_of_not_isBlank hblank).trimmed]
  exact hread

instance (w : List Char) : Decidable (Verbatim w) := by
  unfold Verbatim
  infer_instance

/-- A numeral means itself between quotes. -/
theorem IsNumeral.verbatim {w : List Char} {x : Float} (h : IsNumeral w x) : Verbatim w := by
  obtain ⟨left, right, hw, hleft, hright, -⟩ := trimmed_iff.2 (rfl : trim w = trim w)
  have hmiddle := Decimal.isNumeralChar_of_read? h
  -- Every character of `w` is a blank of the margins or one of the numeral.
  have hnot {c : Char} (hblank : isBlank c = false) (hc : Decimal.isNumeralChar c = false) :
      c ∉ w := by
    intro hmem
    rw [hw, List.mem_append, List.mem_append] at hmem
    obtain hmem | hmem | hmem := hmem
    · rw [hleft c hmem] at hblank
      cases hblank
    · rw [hmiddle c hmem] at hc
      cases hc
    · rw [hright c hmem] at hblank
      cases hblank
  exact ⟨hnot (by decide) (by decide), hnot (by decide) (by decide)⟩

/-- The digits of a color are none of the characters that would end it or be trimmed. -/
theorem mem_toHex {color : Color} {c : Char} (h : c ∈ color.toHex) :
    c ∉ ['#', '+', '"', '&'] ∧ isBlank c = false :=
  (Color.plain_of_isHexDigit (Color.isHexDigit_of_map_toLower color.map_toLower_toHex c h)).symm

/-- The text of a color has no quotes, no entities and no blank characters in it. -/
theorem IsColor.mem {w : List Char} {color : Color} (h : IsColor w color) {c : Char} (hc : c ∈ w) :
    c ∉ ['"', '&'] ∧ isBlank c = false := by
  have hhex (hc : c ∈ color.toHex) : c ∉ ['"', '&'] ∧ isBlank c = false := by
    obtain ⟨hne, hblank⟩ := mem_toHex hc
    exact ⟨fun h => hne (List.mem_append_right ['#', '+'] h), hblank⟩
  obtain rfl | rfl := h
  · exact hhex hc
  · obtain rfl | hc := List.mem_cons.1 hc
    · decide
    · exact hhex hc

theorem IsColor.verbatim {w : List Char} {color : Color} (h : IsColor w color) : Verbatim w :=
  ⟨fun hc => (h.mem hc).1 (by decide), fun hc => (h.mem hc).1 (by decide)⟩

/-- The text of a color is read as the color, with `#` or without. -/
theorem IsColor.ofHex? {w : List Char} {color : Color} (h : IsColor w color) :
    Color.ofHex? w = some color := by
  have hspelled {hash : List Char} (hhash : hash = [] ∨ hash = ['#']) :
      Color.ofHex? (hash ++ color.toHex) = some color := by
    rw [← List.append_nil (hash ++ color.toHex)]
    exact Color.ofHex?_eq_some_iff.2
      (Color.spelled_of_map_toLower .nil .nil hhash color.map_toLower_toHex)
  obtain rfl | rfl := h
  · exact hspelled (.inl rfl)
  · exact hspelled (.inr rfl)

/-! ## Attributes -/

/-- The settings of a frame, one for each of its parts. -/
def Frame.settings (frame : Frame) : List FrameSetting :=
  [.name frame.name, .width frame.width, .height frame.height, .x frame.x, .y frame.y,
   .fill frame.fill, .cornerRadius frame.cornerRadius, .axis frame.axis, .gap frame.gap,
   .padding .top frame.padding.top, .padding .right frame.padding.right,
   .padding .bottom frame.padding.bottom, .padding .left frame.padding.left]

/-- The words for a direction. -/
def axisWords : List (String × Axis) :=
  [("row", .horizontal), ("col", .vertical), ("column", .vertical)]

/-- How a setting of a frame is printed: the attribute's name and what stands between its quotes. -/
inductive FrameSetting.PrintedAs : FrameSetting → String → List Char → Prop
  | name {text w} : Escaped w text.toList → '"' ∉ w → PrintedAs (.name text) "name" w
  | width {n w} : IsNumeral w n → PrintedAs (.width n) "w" w
  | height {n w} : IsNumeral w n → PrintedAs (.height n) "h" w
  | x {n w} : IsNumeral w n → PrintedAs (.x n) "x" w
  | y {n w} : IsNumeral w n → PrintedAs (.y n) "y" w
  | fill {color w} : IsColor w color → PrintedAs (.fill color) "fill" w
  | cornerRadius {n w} : IsNumeral w n → PrintedAs (.cornerRadius n) "radius" w
  | axis {word axis} : (word, axis) ∈ axisWords → PrintedAs (.axis axis) "flex" word.toList
  | gap {n w} : IsNumeral w n → PrintedAs (.gap n) "gap" w
  | padding {edge name n w} : (name, edge) ∈ [("pt", Edge.top), ("pr", .right), ("pb", .bottom),
      ("pl", .left)] → IsNumeral w n → PrintedAs (.padding edge n) name w

/-- The settings of a leaf. A width is given only to a leaf that stretches. -/
def Leaf.settings (leaf : Leaf) : List LeafSetting :=
  [.size leaf.size, .style leaf.style, .color leaf.color] ++
    if leaf.fillWidth then [.fillWidth true] else []

/-- The weight of a style. -/
def FontStyle.weight : FontStyle → String
  | .regular => "regular"
  | .medium => "medium"
  | .bold => "bold"

/-- How a setting of a leaf is printed. -/
inductive LeafSetting.PrintedAs : LeafSetting → String → List Char → Prop
  | size {n w} : IsNumeral w n → PrintedAs (.size n) "size" w
  | style {style} : PrintedAs (.style style) "weight" style.weight.toList
  | color {color w} : IsColor w color → PrintedAs (.color color) "color" w
  | fillWidth : PrintedAs (.fillWidth true) "w" "fill".toList

/-- Attributes that print settings, one for each. -/
inductive PrintedAttributes {σ : Type} (PrintedAs : σ → String → List Char → Prop) :
    List Char → List σ → Prop
  | nil : PrintedAttributes PrintedAs [] []
  | cons {setting name w s settings} : PrintedAs setting name w →
      PrintedAttributes PrintedAs s settings →
      PrintedAttributes PrintedAs (' ' :: (name.toList ++ '=' :: '"' :: (w ++ '"' :: s)))
        (setting :: settings)

/-- **Printed attributes denote their settings.** A printed attribute is one of those that the
element recognises, and it writes its setting; so the list of them writes the list of settings. -/
theorem PrintedAttributes.denote {σ : Type} {PrintedAs : σ → String → List Char → Prop}
    {WrittenBy : Attribute → σ → Prop} {s : List Char} {settings : List σ}
    (h : PrintedAttributes PrintedAs s settings) (names : List String)
    (hname : ∀ {setting name w}, PrintedAs setting name w → name ∈ names)
    (hnames : ∀ name ∈ names, Name name.toList)
    (hquote : ∀ {setting name w}, PrintedAs setting name w → '"' ∉ w)
    (hwritten : ∀ setting ∈ settings, ∀ {name w}, PrintedAs setting name w →
      WrittenBy ⟨name, .literal (String.ofList (decodeEntities w))⟩ setting) :
    ∃ attributes, AttributeList s attributes ∧
      List.Forall₂ WrittenBy (attributes.filter (·.name ∈ names)) settings := by
  induction h with
  | nil => exact ⟨[], .nil .nil, .nil⟩
  | @cons setting name w s settings hsetting _ ih =>
    obtain ⟨attributes, hlist, hsettings⟩ := ih fun other hother =>
      hwritten other (List.mem_cons_of_mem _ hother)
    have hmem : name ∈ names := hname hsetting
    -- Each setting is printed between double quotes, which its text does not contain.
    have hspelling : Spelling ('"' :: (w ++ ['"']))
        (.literal (String.ofList (decodeEntities w))) :=
      .quoted (by decide) (hquote hsetting)
    refine ⟨⟨name, .literal (String.ofList (decodeEntities w))⟩ :: attributes, ?_, ?_⟩
    · have hcons := AttributeList.valued .space (hnames name hmem) .nil .nil hspelling hlist
      simpa using hcons
    · rw [List.filter_cons_of_pos (by simpa using hmem)]
      exact .cons (hwritten setting List.mem_cons_self hsetting) hsettings

/-! ## Settings -/

/-- What an attribute may set: a finite number, above zero for a width or a height. -/
def FrameSetting.Admissible : FrameSetting → Prop
  | .width n | .height n => n.isFinite = true ∧ 0 < n
  | .x n | .y n | .cornerRadius n | .gap n | .padding _ n => n.isFinite = true
  | .name _ | .fill _ | .axis _ => True

/-- An attribute with a numeral sets its number. -/
theorem IsNumeral.writes {w : List Char} {x : Float} (h : IsNumeral w x) (hx : x.isFinite = true)
    (name : String) : Attribute.Writes ⟨name, .literal (String.ofList (decodeEntities w))⟩ x := by
  refine ⟨_, trim w, rfl, ?_, h, hx⟩
  rw [String.toList_ofList, h.verbatim.decode]
  exact trimmed_iff.2 rfl

/-- An attribute with the text of a color sets the color. -/
theorem IsColor.writes {w : List Char} {color : Color} (h : IsColor w color) (name : String) :
    Attribute.WritesColor ⟨name, .literal (String.ofList (decodeEntities w))⟩ color := by
  refine ⟨_, rfl, ?_⟩
  rw [String.toList_ofList, h.verbatim.decode]
  exact h.ofHex?

theorem literal_text_of_verbatim {word : String} (h : Verbatim word.toList) :
    (AttributeValue.literal (String.ofList (decodeEntities word.toList))).text? = some word := by
  rw [h.decode, String.ofList_toList]
  rfl

theorem verbatim_of_axisWords {word : String} {axis : Axis} (h : (word, axis) ∈ axisWords) :
    Verbatim word.toList := by
  have hall : ∀ entry ∈ axisWords, Verbatim entry.1.toList := by decide
  exact hall _ h

namespace FrameSetting.PrintedAs

variable {setting : FrameSetting} {name : String} {w : List Char}

/-- Settings of a frame are printed under names that frames know. -/
theorem mem_frameNames (h : PrintedAs setting name w) : name ∈ frameNames := by
  cases h with
  | padding hedge =>
    simp only [List.mem_cons, Prod.mk.injEq, List.not_mem_nil, or_false] at hedge
    obtain ⟨rfl, -⟩ | ⟨rfl, -⟩ | ⟨rfl, -⟩ | ⟨rfl, -⟩ := hedge
    all_goals decide
  | _ => decide

/-- No printed value has quotes in it, so its closing quote is the first one. -/
theorem notMem_quote (h : PrintedAs setting name w) : '"' ∉ w := by
  cases h with
  | name _ hquote => exact hquote
  | fill hcolor => exact hcolor.verbatim.1
  | axis hword => exact (verbatim_of_axisWords hword).1
  | padding _ hn => exact hn.verbatim.1
  | width hn | height hn | x hn | y hn | cornerRadius hn | gap hn => exact hn.verbatim.1

/-- A printed attribute sets what it was printed from. -/
theorem writtenBy (h : PrintedAs setting name w) (hok : setting.Admissible) :
    WrittenBy ⟨name, .literal (String.ofList (decodeEntities w))⟩ setting := by
  cases h with
  | @name text w hescaped _ =>
    refine .name rfl ?_
    rw [decodeEntities_of_escaped hescaped, String.ofList_toList]
    rfl
  | width hn => exact .width (by simp) ⟨hn.writes hok.1 _, hok.2⟩
  | height hn => exact .height (by simp) ⟨hn.writes hok.1 _, hok.2⟩
  | x hn => exact .x rfl (hn.writes hok _)
  | y hn => exact .y rfl (hn.writes hok _)
  | fill hcolor => exact .fill (by simp) (hcolor.writes _)
  | cornerRadius hn => exact .cornerRadius (by simp) (hn.writes hok _)
  | @axis word axis hword =>
    have htext := literal_text_of_verbatim (verbatim_of_axisWords hword)
    -- The three words an axis may be printed with: `col` and `column` mean the same.
    simp only [axisWords, List.mem_cons, Prod.mk.injEq, List.not_mem_nil, or_false] at hword
    obtain ⟨rfl, rfl⟩ | ⟨rfl, rfl⟩ | ⟨rfl, rfl⟩ := hword
    · exact .row rfl htext
    · exact .column rfl htext (by decide)
    · exact .column rfl htext (by decide)
  | gap hn => exact .gap rfl (hn.writes hok _)
  | padding hedge hn =>
    refine .padding ?_ (hn.writes hok _)
    simp only [List.mem_cons, List.not_mem_nil, or_false] at hedge ⊢
    simp only [hedge, or_true]

end FrameSetting.PrintedAs

/-- What an attribute of a leaf may set: a size is finite and above zero. -/
def LeafSetting.Admissible : LeafSetting → Prop
  | .size n => n.isFinite = true ∧ 0 < n
  | .style _ | .color _ | .fillWidth _ => True

namespace LeafSetting.PrintedAs

variable {setting : LeafSetting} {name : String} {w : List Char}

theorem mem_leafNames (h : PrintedAs setting name w) : name ∈ leafNames := by
  cases h
  all_goals decide

/-- The values of a leaf mean themselves between quotes. -/
theorem verbatim (h : PrintedAs setting name w) : Verbatim w := by
  cases h with
  | size hn => exact hn.verbatim
  | @style style => cases style <;> decide
  | color hcolor => exact hcolor.verbatim
  | fillWidth => decide

/-- A printed attribute sets what it was printed from. -/
theorem writtenBy (h : PrintedAs setting name w) (hok : setting.Admissible) :
    WrittenBy ⟨name, .literal (String.ofList (decodeEntities w))⟩ setting := by
  have hverbatim := h.verbatim
  cases h with
  | size hn => exact .size rfl ⟨hn.writes hok.1 _, hok.2⟩
  | @style style =>
    have hstyle : FontStyle.ofWeight style.weight.toList = style := by cases style <;> decide
    have hwritten := WrittenBy.style
      (a := ⟨"weight", .literal (String.ofList (decodeEntities style.weight.toList))⟩) rfl
    rwa [literal_text_of_verbatim hverbatim, Option.getD_some, hstyle] at hwritten
  | color hcolor => exact .color rfl (hcolor.writes _)
  | fillWidth => exact .fillWidth rfl

end LeafSetting.PrintedAs

/-! ## What the settings of a frame make -/

/-- Where a kind is given once, or not at all, the order of the settings does not matter for it. -/
theorem lastValue_of_perm {σ α : Type} {pick : σ → Option α} {settings others : List σ}
    (h : settings.Perm others) (hone : (others.filterMap pick).length ≤ 1) :
    lastValue pick settings = lastValue pick others := by
  have hperm := h.filterMap pick
  unfold lastValue
  match hothers : others.filterMap pick, hone with
  | [], _ =>
    rw [hothers, List.perm_nil] at hperm
    rw [hperm]
  | [value], _ =>
    rw [hothers, List.perm_singleton] at hperm
    rw [hperm]

/-- **The settings of a frame make the frame**, in any order. -/
theorem frame_ofLast_of_perm {frame : Frame} {settings : List FrameSetting}
    (h : settings.Perm frame.settings) : Frame.ofLast settings frame.leaves = frame := by
  -- Every setting is printed once, so its last value does not depend on the order.
  have part {α : Type} (pick : FrameSetting → Option α)
      (hone : (frame.settings.filterMap pick).length ≤ 1) :
      lastValue pick settings = lastValue pick frame.settings := lastValue_of_perm h hone
  have hpadding (edge : Edge) : lastValue (FrameSetting.padding? edge) settings =
      lastValue (FrameSetting.padding? edge) frame.settings := by
    apply part
    cases edge
    all_goals exact Nat.le_of_ble_eq_true rfl
  simp only [Frame.ofLast, hpadding, part FrameSetting.name? (Nat.le_refl 1),
    part FrameSetting.width? (Nat.le_refl 1), part FrameSetting.height? (Nat.le_refl 1),
    part FrameSetting.x? (Nat.le_refl 1), part FrameSetting.y? (Nat.le_refl 1),
    part FrameSetting.fill? (Nat.le_refl 1), part FrameSetting.cornerRadius? (Nat.le_refl 1),
    part FrameSetting.axis? (Nat.le_refl 1), part FrameSetting.gap? (Nat.le_refl 1)]
  rfl

/-- **The settings of a leaf make the leaf**, in any order. -/
theorem leaf_ofLast_of_perm {leaf : Leaf} {settings : List LeafSetting}
    (h : settings.Perm leaf.settings) : Leaf.ofLast settings leaf.content = leaf := by
  have part {α : Type} (pick : LeafSetting → Option α)
      (hone : (leaf.settings.filterMap pick).length ≤ 1) :
      lastValue pick settings = lastValue pick leaf.settings := lastValue_of_perm h hone
  obtain ⟨content, style, size, color, fillWidth⟩ := leaf
  -- A leaf that does not stretch has no width among its settings.
  cases fillWidth
  all_goals
    simp only [Leaf.ofLast, part LeafSetting.style? (Nat.le_refl 1),
      part LeafSetting.size? (Nat.le_refl 1), part LeafSetting.color? (Nat.le_refl 1),
      part LeafSetting.fillWidth? (Nat.le_of_ble_eq_true rfl)]
    rfl

/-! ## Frames -/

/-- The texts that print a leaf. -/
inductive Leaf.Printed : Leaf → List Char → Prop
  | mk {leaf : Leaf} {settings s w} : PrintedAttributes LeafSetting.PrintedAs s settings →
      settings.Perm leaf.settings → Escaped w leaf.content.toList → '<' ∉ w →
      Printed leaf ("<Text".toList ++ s ++ ['>'] ++ w ++ "</Text>".toList)

/-- The texts that print a frame: its own tag, its leaves in order, its end tag. -/
inductive Frame.Printed : Frame → List Char → Prop
  | mk {frame : Frame} {settings s texts} : PrintedAttributes FrameSetting.PrintedAs s settings →
      settings.Perm frame.settings → List.Forall₂ Leaf.Printed frame.leaves texts →
      Printed frame ("<Frame".toList ++ s ++ ['>'] ++ texts.flatten ++ "</Frame>".toList)

/-- A frame that markup can describe: its numbers are finite, its sizes and those of its leaves
above zero, and no content has blank characters at its ends. -/
structure Frame.Describable (frame : Frame) : Prop where
  finite : ∀ x ∈ frameNumbers frame, x.isFinite = true
  width : 0 < frame.width
  height : 0 < frame.height
  sizes : ∀ leaf ∈ frame.leaves, 0 < leaf.size
  contents : ∀ leaf ∈ frame.leaves, Unpadded leaf.content.toList

/-- The settings of a frame that markup can describe are all ones that an attribute may set. -/
theorem Frame.Describable.admissible {frame : Frame} (h : frame.Describable) :
    ∀ setting ∈ frame.settings, setting.Admissible := by
  have hfinite := h.finite
  simp only [frameNumbers, List.forall_mem_append, List.forall_mem_cons] at hfinite
  obtain ⟨⟨hwidth, hheight, hx, hy, hradius, hgap, htop, hright, hbottom, hleft, -⟩, -⟩ := hfinite
  simp only [Frame.settings, List.forall_mem_cons, FrameSetting.Admissible]
  exact ⟨trivial, ⟨hwidth, h.width⟩, ⟨hheight, h.height⟩, hx, hy, trivial, hradius, trivial, hgap,
    htop, hright, hbottom, hleft, by simp⟩

/-- The same for the settings of its leaves. -/
theorem Frame.Describable.leaf_admissible {frame : Frame} (h : frame.Describable) {leaf : Leaf}
    (hleaf : leaf ∈ frame.leaves) : ∀ setting ∈ leaf.settings, setting.Admissible := by
  have hfinite : leaf.size.isFinite = true :=
    h.finite _ (List.mem_append_right _ (List.mem_map_of_mem hleaf))
  simp only [Leaf.settings, List.forall_mem_append, List.forall_mem_cons, LeafSetting.Admissible]
  refine ⟨⟨⟨hfinite, h.sizes leaf hleaf⟩, trivial, trivial, by simp⟩, ?_⟩
  intro setting hsetting
  split at hsetting
  · cases List.mem_singleton.1 hsetting
    trivial
  · cases hsetting

instance (n : List Char) : Decidable (Name n) :=
  decidable_of_iff (n.head?.any isNameStart = true ∧ n.tail.all isNameChar = true) <| by
    cases n <;> simp [Name]

theorem name_of_mem : ∀ name ∈ "Frame" :: "Text" :: (frameNames ++ leafNames),
    Name name.toList := by
  decide

/-- Printed attributes begin with a blank, so that the name of the tag ends in front of them. -/
theorem PrintedAttributes.stopsName {σ : Type} {PrintedAs : σ → String → List Char → Prop}
    {s : List Char} {settings : List σ} (h : PrintedAttributes PrintedAs s settings) :
    StopsName s := by
  cases h with
  | nil => simp [StopsName]
  | cons =>
    intro c hc
    cases hc
    decide

/-- **Printed leaves are text elements** that denote the leaf. -/
theorem textElement_of_printed {leaf : Leaf} {t : List Char} (h : leaf.Printed t)
    (hok : ∀ setting ∈ leaf.settings, setting.Admissible)
    (hcontent : Unpadded leaf.content.toList) : TextElement t leaf := by
  obtain ⟨hattributes, hperm, hescaped, hflat⟩ := h
  rename_i settings s w
  have hname : Name "Text".toList := name_of_mem "Text" (by simp)
  obtain ⟨attributes, hlist, hwritten⟩ := hattributes.denote leafNames
    (fun h => h.mem_leafNames) (fun name h => name_of_mem name (by simp [h])) (fun h => h.verbatim.1)
    fun setting hsetting _ _ h => h.writtenBy (hok setting (hperm.mem_iff.1 hsetting))
  have htag := OpenTag.mk false hname hattributes.stopsName hlist
  have hend := EndTag.mk hname Blanks.nil
  -- Decoding the escaped content gives the content back.
  have hdenoted : Leaf.Denoted attributes (String.ofList (decodeEntities w)) leaf := by
    refine ⟨settings, hwritten, ?_⟩
    rw [decodeEntities_of_escaped hescaped, String.ofList_toList, leaf_ofLast_of_perm hperm]
  have helement := TextElement.filled htag rfl rfl hflat (hescaped.unpadded hcontent).trimmed hend
    hdenoted
  simpa [tagEnd] using helement

/-- Printed leaves are children of the grammar, with these leaves. -/
theorem children_of_printed {leaves : List Leaf} {texts : List (List Char)}
    (h : List.Forall₂ Leaf.Printed leaves texts)
    (hok : ∀ leaf ∈ leaves, ∀ setting ∈ leaf.settings, setting.Admissible)
    (hcontents : ∀ leaf ∈ leaves, Unpadded leaf.content.toList) :
    Children texts.flatten leaves := by
  induction h with
  | nil => exact .nil
  | cons hleaf _ ih =>
    rw [List.forall_mem_cons] at hok hcontents
    exact .text (textElement_of_printed hleaf hok.1 hcontents.1) (ih hok.2 hcontents.2)

/-- **Printed frames are documents** that denote the frame. -/
theorem document_of_printed {frame : Frame} {s : List Char} (hframe : frame.Describable)
    (h : frame.Printed s) : Document s frame := by
  obtain ⟨hattributes, hperm, hleaves⟩ := h
  rename_i settings s texts
  have hname : Name "Frame".toList := name_of_mem "Frame" (by simp)
  obtain ⟨attributes, hlist, hwritten⟩ := hattributes.denote frameNames
    (fun h => h.mem_frameNames) (fun name h => name_of_mem name (by simp [h]))
    (fun h => h.notMem_quote)
    fun setting hsetting _ _ h => h.writtenBy (hframe.admissible setting (hperm.mem_iff.1 hsetting))
  have htag := OpenTag.mk false hname hattributes.stopsName hlist
  have hchildren := children_of_printed hleaves (fun _ => hframe.leaf_admissible) hframe.contents
  have hdenoted : Frame.Denoted attributes frame.leaves frame :=
    ⟨settings, hwritten, (frame_ofLast_of_perm hperm).symm⟩
  have hroot := Root.filled htag rfl rfl hchildren (EndTag.mk hname Blanks.nil) hdenoted
  have hdocument := Document.mk .nil hroot .nil
  simpa [tagEnd] using hdocument

/-- **Parsing undoes printing.** Any text that prints a frame parses as exactly that frame, and so
it compiles to the frame's script. -/
theorem parse_printed {frame : Frame} {s : List Char} (hframe : frame.Describable)
    (h : frame.Printed s) :
    Frame.parse (String.ofList s) = .ok frame ∧ compile (String.ofList s) = .ok frame.emit := by
  have hparse : Frame.parse (String.ofList s) = .ok frame := by
    rw [Frame.parse, String.toList_ofList, readDocument_of_document (document_of_printed hframe h)]
  refine ⟨hparse, ?_⟩
  rw [compile, hparse]
  rfl

/-- A leaf whose content looks like markup and like an entity. -/
def ticketTitle : Leaf :=
  { content := "&lt;b> & </Text>", style := .bold, fillWidth := true }

/-- A frame whose strings look like markup and like entities. -/
def ticket : Frame :=
  { name := "A & B \"<i>'", width := 240, height := 120, x := 0, y := 0.5, fill := ⟨0, 255, 16⟩,
    axis := .horizontal, gap := 8, padding := ⟨1, 2, 3, 4⟩,
    leaves := [ticketTitle, {}] }

/-- One of the texts that print the frame. -/
def ticketMarkup : List Char :=
  "<Frame name=\"A &amp; B &quot;&lt;i&gt;&apos;\" w=\"240\" h=\" 1.2e2 \" x=\"0\" y=\".5\"".toList ++
  " fill=\"#00ff10\" radius=\"0\" flex=\"row\" gap=\"+8.0\" pt=\"1\" pr=\"2\" pb=\"3\" pl=\"4\">".toList ++
  "<Text size=\"14\" weight=\"bold\" color=\"000000\" w=\"fill\">".toList ++
  "&amp;lt;b&gt; &amp; &lt;/Text&gt;</Text>".toList ++
  "<Text size=\"14\" weight=\"regular\" color=\"#000000\"></Text></Frame>".toList

/-- The ticket can be described. -/
theorem describable_ticket : ticket.Describable where
  finite := by decide +kernel
  width := by decide +kernel
  height := by decide +kernel
  sizes := by decide +kernel
  contents := by decide +kernel

/-- The markup of the ticket prints it. -/
theorem printed_ticket : ticket.Printed ticketMarkup := by
  have hframe : PrintedAttributes FrameSetting.PrintedAs _ ticket.settings :=
    .cons (.name (escaped_flatMap _) (notMem_flatMap_escapeChar (by decide) _)) <|
    .cons (.width (w := "240".toList) (by decide +kernel)) <|
    .cons (.height (w := " 1.2e2 ".toList) (by decide +kernel)) <|
    .cons (.x (w := "0".toList) (by decide +kernel)) <|
    .cons (.y (w := ".5".toList) (by decide +kernel)) <|
    .cons (.fill (.inr rfl)) <|
    .cons (.cornerRadius (w := "0".toList) (by decide +kernel)) <|
    .cons (.axis (.head _)) <|
    .cons (.gap (w := "+8.0".toList) (by decide +kernel)) <|
    .cons (.padding (w := "1".toList) (.head _) (by decide +kernel)) <|
    .cons (.padding (w := "2".toList) (.tail _ (.head _)) (by decide +kernel)) <|
    .cons (.padding (w := "3".toList) (.tail _ (.tail _ (.head _))) (by decide +kernel)) <|
    .cons (.padding (w := "4".toList) (.tail _ (.tail _ (.tail _ (.head _)))) (by decide +kernel))
    .nil
  have htitle : PrintedAttributes LeafSetting.PrintedAs _ ticketTitle.settings :=
    .cons (.size (w := "14".toList) (by decide +kernel)) <|
    .cons .style <| .cons (.color (.inl rfl)) <| .cons .fillWidth .nil
  have hnote : PrintedAttributes LeafSetting.PrintedAs _ (Leaf.settings {}) :=
    .cons (.size (w := "14".toList) (by decide +kernel)) <|
    .cons .style <| .cons (.color (.inr rfl)) .nil
  have hcontent (leaf : Leaf) := escaped_flatMap leaf.content.toList
  have hflat (leaf : Leaf) : '<' ∉ leaf.content.toList.flatMap escapeChar :=
    notMem_flatMap_escapeChar (by decide) _
  have hprinted := Frame.Printed.mk hframe (.refl _)
    (.cons (.mk htitle (.refl _) (hcontent _) (hflat _))
      (.cons (.mk hnote (.refl _) (hcontent _) (hflat _)) .nil))
  convert hprinted using 1
  decide +kernel

/-- Strings that look like markup and like entities come back as they were. -/
theorem parse_printed_ticket : ticket.Describable ∧ ticket.Printed ticketMarkup ∧
    Frame.parse (String.ofList ticketMarkup) = .ok ticket ∧
    compile (String.ofList ticketMarkup) = .ok ticket.emit :=
  ⟨describable_ticket, printed_ticket, parse_printed describable_ticket printed_ticket⟩

/-! ## Every frame has a text

`parse_printed` speaks of the texts that print a frame; there always is one. -/

/-- Settings that can each be printed can be printed one after the other. -/
theorem exists_printedAttributes {σ : Type} {PrintedAs : σ → String → List Char → Prop}
    {settings : List σ} (h : ∀ setting ∈ settings, ∃ name w, PrintedAs setting name w) :
    ∃ s, PrintedAttributes PrintedAs s settings := by
  induction settings with
  | nil => exact ⟨[], .nil⟩
  | cons setting settings ih =>
    rw [List.forall_mem_cons] at h
    obtain ⟨⟨name, w, hsetting⟩, hsettings⟩ := h
    obtain ⟨s, hs⟩ := ih hsettings
    exact ⟨_, .cons hsetting hs⟩

/-- Every leaf with a finite size has a text. -/
theorem exists_leaf_printed {leaf : Leaf} (hsize : leaf.size.isFinite = true) :
    ∃ t, leaf.Printed t := by
  obtain ⟨s, hs⟩ : ∃ s, PrintedAttributes LeafSetting.PrintedAs s leaf.settings := by
    apply exists_printedAttributes
    simp only [Leaf.settings, List.forall_mem_append, List.forall_mem_cons]
    refine ⟨⟨⟨_, _, .size (isNumeral_render hsize)⟩, ⟨_, _, .style⟩, ⟨_, _, .color (.inl rfl)⟩,
      by simp⟩, fun setting hsetting => ?_⟩
    split at hsetting
    · cases List.mem_singleton.1 hsetting
      exact ⟨_, _, .fillWidth⟩
    · cases hsetting
  exact ⟨_, .mk hs (.refl _) (escaped_flatMap _) (notMem_flatMap_escapeChar (by decide) _)⟩

/-- Leaves with finite sizes have texts. -/
theorem exists_leaves_printed {leaves : List Leaf}
    (h : ∀ leaf ∈ leaves, leaf.size.isFinite = true) :
    ∃ texts, List.Forall₂ Leaf.Printed leaves texts := by
  induction leaves with
  | nil => exact ⟨[], .nil⟩
  | cons leaf leaves ih =>
    rw [List.forall_mem_cons] at h
    obtain ⟨t, ht⟩ := exists_leaf_printed h.1
    obtain ⟨texts, htexts⟩ := ih h.2
    exact ⟨t :: texts, .cons ht htexts⟩

/-- **Every frame with finite numbers has a text that prints it.** -/
theorem exists_printed {frame : Frame} (h : ∀ x ∈ frameNumbers frame, x.isFinite = true) :
    ∃ s, frame.Printed s := by
  rw [frameNumbers, List.forall_mem_append] at h
  obtain ⟨hframe, hleaves⟩ := h
  obtain ⟨texts, htexts⟩ : ∃ texts, List.Forall₂ Leaf.Printed frame.leaves texts :=
    exists_leaves_printed fun leaf hleaf => hleaves _ (List.mem_map_of_mem hleaf)
  obtain ⟨s, hs⟩ : ∃ s, PrintedAttributes FrameSetting.PrintedAs s frame.settings := by
    apply exists_printedAttributes
    simp only [List.forall_mem_cons] at hframe
    obtain ⟨hwidth, hheight, hx, hy, hradius, hgap, htop, hright, hbottom, hleft, -⟩ := hframe
    have hnumeral {x : Float} (hx : x.isFinite = true) := isNumeral_render hx
    -- Of the words for an axis any will do.
    have haxis : ∃ word, (word, frame.axis) ∈ axisWords := by
      cases frame.axis
      · exact ⟨"row", by decide⟩
      · exact ⟨"col", by decide⟩
    obtain ⟨word, hword⟩ := haxis
    simp only [Frame.settings, List.forall_mem_cons]
    exact ⟨⟨_, _, .name (escaped_flatMap _) (notMem_flatMap_escapeChar (by decide) _)⟩,
      ⟨_, _, .width (hnumeral hwidth)⟩, ⟨_, _, .height (hnumeral hheight)⟩,
      ⟨_, _, .x (hnumeral hx)⟩, ⟨_, _, .y (hnumeral hy)⟩, ⟨_, _, .fill (.inl rfl)⟩,
      ⟨_, _, .cornerRadius (hnumeral hradius)⟩, ⟨_, _, .axis hword⟩, ⟨_, _, .gap (hnumeral hgap)⟩,
      ⟨_, _, .padding (.head _) (hnumeral htop)⟩,
      ⟨_, _, .padding (.tail _ (.head _)) (hnumeral hright)⟩,
      ⟨_, _, .padding (.tail _ (.tail _ (.head _))) (hnumeral hbottom)⟩,
      ⟨_, _, .padding (.tail _ (.tail _ (.tail _ (.head _)))) (hnumeral hleft)⟩, by simp⟩
  exact ⟨_, .mk hs (.refl _) htexts⟩

end CanvasLink.Markup
