import CanvasLink.Proofs.Markup.Printing

/-!
# CanvasLink — which attribute of a frame counts

Attributes may repeat, go by several names and come in any order. For each setting the last one
that is given counts, and for a side of the padding the most specific one.

* `FrameKey.names` — the settings of a frame, each with the names that it goes by.
* `lastNamed` — the attribute that counts for a setting.
* `gives_lastValue` — the value that a setting ends up with is what that attribute writes.
* `AgreeOnLast`, `ofLast_eq_of_agreeOnLast` — attributes that agree on what counts make one frame.
* `SidePadding` — where a side of the padding takes its value from.
* **`frame_of_last_values`** — the headline.
-/

namespace CanvasLink.Markup

open CanvasLink.Text

/-! ## Settings and their names -/

/-- The names that a setting goes by. -/
def FrameKey.names : FrameKey → List String
  | .name => ["name"]
  | .width => ["w", "width"]
  | .height => ["h", "height"]
  | .x => ["x"]
  | .y => ["y"]
  | .fill => ["bg", "fill"]
  | .cornerRadius => ["rounded", "radius"]
  | .axis => ["flex"]
  | .gap => ["gap"]
  | .padding .all => ["p", "padding"]
  | .padding .horizontal => ["px"]
  | .padding .vertical => ["py"]
  | .padding .top => ["pt"]
  | .padding .right => ["pr"]
  | .padding .bottom => ["pb"]
  | .padding .left => ["pl"]

/-- The setting that a value is for. -/
def FrameSetting.key : FrameSetting → FrameKey
  | .name _ => .name
  | .width _ => .width
  | .height _ => .height
  | .x _ => .x
  | .y _ => .y
  | .fill _ => .fill
  | .cornerRadius _ => .cornerRadius
  | .axis _ => .axis
  | .gap _ => .gap
  | .padding edge _ => .padding edge

/-- A name is read as a setting exactly if the setting goes by it. -/
theorem frameKey_ofName?_iff_mem_names {s : String} {key : FrameKey} :
    FrameKey.ofName? s = some key ↔ s ∈ key.names := by
  rw [frameKey_ofName?_eq_some_iff]
  cases key with
  | padding edge => cases edge <;> simp [FrameKey.names]
  | _ => simp [FrameKey.names]

/-- The names of a setting are known to frames. -/
theorem mem_frameNames_of_mem_names {s : String} {key : FrameKey} (h : s ∈ key.names) :
    s ∈ frameNames := by
  by_contra hnot
  rw [← frameKey_ofName?_iff_mem_names, frameKey_ofName?_eq_none_iff.2 hnot] at h
  cases h

/-- What is read for a setting is a value of this setting. -/
theorem frameKey_read_key {a : Attribute} {key : FrameKey} {setting : FrameSetting}
    (h : key.read a = .ok setting) : setting.key = key := by
  cases key
  all_goals
    obtain ⟨value, -, rfl⟩ := map_eq_ok.1 h
    rfl

namespace FrameSetting.WrittenBy

variable {a : Attribute} {setting other : FrameSetting}

/-- An attribute writes a setting under one of the names of that. -/
theorem mem_names (h : WrittenBy a setting) : a.name ∈ setting.key.names := by
  obtain ⟨key, hkey, hread⟩ := frameKey_read_eq_ok_iff.2 h
  rw [frameKey_read_key hread]
  exact frameKey_ofName?_iff_mem_names.1 hkey

/-- An attribute writes one value. -/
theorem unique (h : WrittenBy a setting) (h' : WrittenBy a other) : setting = other := by
  obtain ⟨key, hkey, hread⟩ := frameKey_read_eq_ok_iff.2 h
  obtain ⟨key', hkey', hread'⟩ := frameKey_read_eq_ok_iff.2 h'
  obtain rfl : key = key' := Option.some.inj (hkey.symm.trans hkey')
  exact Except.ok.inj (hread.symm.trans hread')

end FrameSetting.WrittenBy

/-! ## The attribute that counts -/

/-- The last attribute that goes by one of the names. -/
def lastNamed (names : List String) (attributes : List Attribute) : Option Attribute :=
  (attributes.filter (·.name ∈ names)).getLast?

/-- Lists that are related pairwise end in a related pair. -/
theorem rel_getLast? {α β : Type} {R : α → β → Prop} {as : List α} {bs : List β}
    (h : List.Forall₂ R as bs) : Option.Rel R as.getLast? bs.getLast? := by
  induction h with
  | nil => exact .none
  | cons hab hrest ih =>
    cases hrest with
    | nil => exact .some hab
    | cons => simpa only [List.getLast?_cons_cons] using ih

/-- The attribute writes a value for a setting, of which `pick` takes the part that counts. -/
def Attribute.Gives {α : Type} (pick : FrameSetting → Option α) (a : Attribute) (value : α) :
    Prop :=
  ∃ setting, FrameSetting.WrittenBy a setting ∧ pick setting = some value

section Values

variable {α : Type} {key : FrameKey} {pick : FrameSetting → Option α}
  (hpick : ∀ setting, (pick setting).isSome = decide (setting.key = key))

include hpick

/-- The recognised attributes that go by a name of a setting, and the values that are given for it,
one for each of them. -/
theorem gives_filterMap {attributes : List Attribute} {settings : List FrameSetting}
    (h : List.Forall₂ FrameSetting.WrittenBy attributes settings) :
    List.Forall₂ (Attribute.Gives pick) (attributes.filter (·.name ∈ key.names))
      (settings.filterMap pick) := by
  induction h with
  | nil => exact .nil
  | @cons a setting attributes settings hwritten _ ih =>
    -- An attribute counts for the key exactly if its setting is one of the key's.
    have hsame : a.name ∈ key.names ↔ (pick setting).isSome := by
      rw [hpick, decide_eq_true_iff, ← frameKey_ofName?_iff_mem_names,
        frameKey_ofName?_iff_mem_names.2 hwritten.mem_names, Option.some.injEq]
    cases hvalue : pick setting with
    | none =>
      have hname : a.name ∉ key.names := by simp [hsame, hvalue]
      rw [List.filter_cons_of_neg (by simpa using hname), List.filterMap_cons_none hvalue]
      exact ih
    | some value =>
      have hname : a.name ∈ key.names := by simp [hsame, hvalue]
      rw [List.filter_cons_of_pos (by simpa using hname), List.filterMap_cons_some hvalue]
      exact .cons ⟨setting, hwritten, hvalue⟩ ih

/-- **The value of a setting is the one that the attribute that counts writes.** -/
theorem gives_lastValue {attributes : List Attribute} {settings : List FrameSetting}
    (h : List.Forall₂ FrameSetting.WrittenBy (attributes.filter (·.name ∈ frameNames)) settings) :
    Option.Rel (Attribute.Gives pick) (lastNamed key.names attributes)
      (lastValue pick settings) := by
  have hrecognised : attributes.filter (·.name ∈ key.names) =
      (attributes.filter (·.name ∈ frameNames)).filter (·.name ∈ key.names) := by
    rw [List.filter_filter]
    refine List.filter_congr fun a _ => ?_
    by_cases hname : a.name ∈ key.names
    · simp [hname, mem_frameNames_of_mem_names hname]
    · simp [hname]
  rw [lastNamed, hrecognised]
  exact rel_getLast? (gives_filterMap hpick h)

end Values

/-- A setting is a padding of an edge exactly if it is for that edge. -/
theorem isSome_padding? (edge : Edge) (setting : FrameSetting) :
    (FrameSetting.padding? edge setting).isSome = decide (setting.key = .padding edge) := by
  cases setting with
  | padding other n =>
    by_cases h : other = edge <;> simp [FrameSetting.padding?, FrameSetting.key, h]
  | _ => rfl

/-! ## Attributes that write the same -/

/-- The attributes write the same. -/
def SetsAlike (a b : Attribute) : Prop :=
  ∀ setting, FrameSetting.WrittenBy a setting ↔ FrameSetting.WrittenBy b setting

/-- What is read of an attribute depends on the text of its value only. -/
theorem read_of_text?_eq {a b : Attribute} (h : a.value.text? = b.value.text?) {key : FrameKey}
    {setting : FrameSetting} (hread : key.read a = .ok setting) : key.read b = .ok setting := by
  cases key
  all_goals
    obtain ⟨value, hvalue, rfl⟩ := map_eq_ok.1 hread
    refine map_eq_ok.2 ⟨value, ?_, rfl⟩
    simp only [text_eq_ok_iff, number_eq_ok_iff, positive_eq_ok_iff, color_eq_ok_iff,
      axis_eq_ok_iff, Attribute.WritesPositive, Attribute.Writes, Attribute.WritesColor,
      ← h] at hvalue ⊢
    exact hvalue

/-- The names of one setting may stand for each other, and what is written in quotes may as well be
written in braces. -/
theorem setsAlike_of_names {a b : Attribute} {key : FrameKey} (ha : a.name ∈ key.names)
    (hb : b.name ∈ key.names) (hvalue : a.value.text? = b.value.text?) : SetsAlike a b := by
  intro setting
  rw [← frameKey_read_eq_ok_iff, ← frameKey_read_eq_ok_iff,
    frameKey_ofName?_iff_mem_names.2 ha, frameKey_ofName?_iff_mem_names.2 hb]
  constructor
  · rintro ⟨key, hkey, hread⟩
    exact ⟨key, hkey, read_of_text?_eq hvalue hread⟩
  · rintro ⟨key, hkey, hread⟩
    exact ⟨key, hkey, read_of_text?_eq hvalue.symm hread⟩

/-- The attributes agree, for every setting, on the last value given for it. -/
def AgreeOnLast (attributes others : List Attribute) : Prop :=
  ∀ key : FrameKey,
    Option.Rel SetsAlike (lastNamed key.names attributes) (lastNamed key.names others)

/-- **Attributes that agree on the last values make the same frame.** -/
theorem ofLast_eq_of_agreeOnLast {attributes others : List Attribute}
    {settings otherSettings : List FrameSetting}
    (h : List.Forall₂ FrameSetting.WrittenBy (attributes.filter (·.name ∈ frameNames)) settings)
    (h' : List.Forall₂ FrameSetting.WrittenBy (others.filter (·.name ∈ frameNames)) otherSettings)
    (hagree : AgreeOnLast attributes others) (leaves : List Leaf) :
    Frame.ofLast settings leaves = Frame.ofLast otherSettings leaves := by
  have part {α : Type} (key : FrameKey) (pick : FrameSetting → Option α)
      (hpick : ∀ setting, (pick setting).isSome = decide (setting.key = key)) :
      lastValue pick settings = lastValue pick otherSettings := by
    have hlast := gives_lastValue hpick h
    have hlast' := gives_lastValue hpick h'
    have hattributes := hagree key
    revert hlast hlast' hattributes
    generalize lastNamed key.names attributes = counting
    generalize lastNamed key.names others = counting'
    generalize lastValue pick settings = value
    generalize lastValue pick otherSettings = value'
    -- For each key the last attributes of both lists write the same settings, or neither list has
    -- one.
    rintro (⟨setting, hwritten, hvalue⟩ | -) (⟨setting', hwritten', hvalue'⟩ | -) (halike | -)
    · obtain rfl := ((halike setting).1 hwritten).unique hwritten'
      rw [← hvalue, ← hvalue']
    · rfl
  have hpadding (edge : Edge) := part (.padding edge) (FrameSetting.padding? edge)
    (isSome_padding? edge)
  simp only [Frame.ofLast, hpadding, part .name FrameSetting.name? (by rintro (_ | _) <;> rfl),
    part .width FrameSetting.width? (by rintro (_ | _) <;> rfl),
    part .height FrameSetting.height? (by rintro (_ | _) <;> rfl),
    part .x FrameSetting.x? (by rintro (_ | _) <;> rfl),
    part .y FrameSetting.y? (by rintro (_ | _) <;> rfl),
    part .fill FrameSetting.fill? (by rintro (_ | _) <;> rfl),
    part .cornerRadius FrameSetting.cornerRadius? (by rintro (_ | _) <;> rfl),
    part .axis FrameSetting.axis? (by rintro (_ | _) <;> rfl),
    part .gap FrameSetting.gap? (by rintro (_ | _) <;> rfl)]

/-! ## What is accepted -/

/-- Every recognised attribute has a value that its setting takes. -/
def Valid (attributes : List Attribute) : Prop :=
  ∀ a ∈ attributes, a.name ∈ frameNames → ∃ setting, FrameSetting.WrittenBy a setting

/-- There is a list that is related pairwise exactly if each element has a partner. -/
theorem exists_forall₂_iff {α β : Type} {R : α → β → Prop} {as : List α} :
    (∃ bs, List.Forall₂ R as bs) ↔ ∀ a ∈ as, ∃ b, R a b := by
  induction as with
  | nil => simp
  | cons a as ih =>
    rw [List.forall_mem_cons, ← ih]
    constructor
    · rintro ⟨_, hab | @⟨_, b, _, bs, hab, hrest⟩⟩
      exact ⟨⟨b, hab⟩, bs, hrest⟩
    · rintro ⟨⟨b, hab⟩, bs, hrest⟩
      exact ⟨b :: bs, .cons hab hrest⟩

/-- The tag of a frame is accepted when every recognised attribute has a value that its setting
takes. -/
theorem exists_ofAttributes_iff_valid {attributes : List Attribute} :
    (∃ frame, Frame.ofAttributes attributes = .ok frame) ↔ Valid attributes := by
  have hvalid : Valid attributes ↔ ∀ a ∈ attributes.filter (·.name ∈ frameNames),
      ∃ setting, FrameSetting.WrittenBy a setting := by
    simp [Valid, List.mem_filter]
  rw [hvalid, ← exists_forall₂_iff]
  simp only [frame_ofAttributes_eq_ok_iff_nil, Frame.Denoted]
  constructor
  · rintro ⟨-, settings, h, -⟩
    exact ⟨settings, h⟩
  · rintro ⟨settings, h⟩
    exact ⟨_, settings, h, rfl⟩

/-- What is recognised of attributes: the pairs of a name and the text of a value. -/
def recognised (attributes : List Attribute) : List (String × Option String) :=
  (attributes.filter (·.name ∈ frameNames)).map fun a => (a.name, a.value.text?)

/-- Which recognised pairs there are decides about acceptance, and nothing else does. -/
theorem valid_of_recognised_subset {attributes others : List Attribute}
    (h : recognised attributes ⊆ recognised others) (hvalid : Valid others) : Valid attributes := by
  intro a ha hname
  have hmem : (a.name, a.value.text?) ∈ recognised others :=
    h (List.mem_map_of_mem (List.mem_filter.2 ⟨ha, by simpa using hname⟩))
  obtain ⟨b, hb, hpair⟩ := List.mem_map.1 hmem
  rw [Prod.mk.injEq] at hpair
  obtain ⟨setting, hwritten⟩ := hvalid b (List.mem_filter.1 hb).1 (hpair.1 ▸ hname)
  obtain ⟨key, hkey, hread⟩ := frameKey_read_eq_ok_iff.2 hwritten
  exact ⟨setting, frameKey_read_eq_ok_iff.1 ⟨key, hpair.1 ▸ hkey, read_of_text?_eq hpair.2 hread⟩⟩

/-! ## Padding -/

/-- The padding of a side: the last value of the side's own attribute, else of the attribute of its
axis, else of the common one, else zero. -/
inductive SidePadding (attributes : List Attribute) (side axis : Edge) : Float → Prop
  | side {a n} : lastNamed (FrameKey.padding side).names attributes = some a → a.Writes n →
      SidePadding attributes side axis n
  | axis {a n} : lastNamed (FrameKey.padding side).names attributes = none →
      lastNamed (FrameKey.padding axis).names attributes = some a → a.Writes n →
      SidePadding attributes side axis n
  | all {a n} : lastNamed (FrameKey.padding side).names attributes = none →
      lastNamed (FrameKey.padding axis).names attributes = none →
      lastNamed (FrameKey.padding .all).names attributes = some a → a.Writes n →
      SidePadding attributes side axis n
  | zero : lastNamed (FrameKey.padding side).names attributes = none →
      lastNamed (FrameKey.padding axis).names attributes = none →
      lastNamed (FrameKey.padding .all).names attributes = none →
      SidePadding attributes side axis 0

/-- An attribute gives a padding by writing its number. -/
theorem writes_of_gives_padding {edge : Edge} {a : Attribute} {n : Float}
    (h : a.Gives (FrameSetting.padding? edge) n) : a.Writes n := by
  obtain ⟨setting, hwritten, hn⟩ := h
  cases hwritten with
  | padding _ hwrites =>
    simp only [FrameSetting.padding?, Option.ite_none_right_eq_some, Option.some.injEq] at hn
    obtain ⟨-, rfl⟩ := hn
    exact hwrites
  | _ => cases hn

/-- **A side takes the value of the most specific attribute that is given.** -/
theorem sidePadding_ofLast {attributes : List Attribute} {settings : List FrameSetting}
    (h : List.Forall₂ FrameSetting.WrittenBy (attributes.filter (·.name ∈ frameNames)) settings)
    (side axis : Edge) :
    SidePadding attributes side axis
      ((lastValue (FrameSetting.padding? side) settings).getD
        ((lastValue (FrameSetting.padding? axis) settings).getD
          ((lastValue (FrameSetting.padding? .all) settings).getD 0))) := by
  have last (edge : Edge) :
      (lastNamed (FrameKey.padding edge).names attributes = none ∧
        lastValue (FrameSetting.padding? edge) settings = none) ∨
      ∃ a n, lastNamed (FrameKey.padding edge).names attributes = some a ∧
        lastValue (FrameSetting.padding? edge) settings = some n ∧ a.Writes n := by
    have hgives := gives_lastValue (isSome_padding? edge) h
    revert hgives
    generalize lastNamed (FrameKey.padding edge).names attributes = counting
    generalize lastValue (FrameSetting.padding? edge) settings = value
    rintro (hgives | -)
    · exact .inr ⟨_, _, rfl, rfl, writes_of_gives_padding hgives⟩
    · exact .inl ⟨rfl, rfl⟩
  -- The fallback of a side: its own value, its axis', the common one, zero.
  obtain ⟨hside, hnone⟩ | ⟨a, n, hside, hn, hwrites⟩ := last side
  · rw [hnone, Option.getD_none]
    obtain ⟨haxis, hnone⟩ | ⟨a, n, haxis, hn, hwrites⟩ := last axis
    · rw [hnone, Option.getD_none]
      obtain ⟨hall, hnone⟩ | ⟨a, n, hall, hn, hwrites⟩ := last .all
      · rw [hnone, Option.getD_none]
        exact .zero hside haxis hall
      · rw [hn, Option.getD_some]
        exact .all hside haxis hall hwrites
    · rw [hn, Option.getD_some]
      exact .axis hside haxis hwrites
  · rw [hn, Option.getD_some]
    exact .side hside hwrites

/-! ## Frames in documents -/

/-- A document depends on the tag of its frame through the frame that the attributes make, and
through nothing else of the tag. -/
theorem readDocument_congr {w t t' : List Char} {tag tag' : Tag} (hw : Trivia w)
    (ht : OpenTag t tag) (ht' : OpenTag t' tag') (hname : tag.name = tag'.name)
    (hself : tag.selfClosing = tag'.selfClosing)
    (hframe : Frame.ofAttributes tag.attributes = Frame.ofAttributes tag'.attributes)
    (rest : List Char) : readDocument (w ++ (t ++ rest)) = readDocument (w ++ (t' ++ rest)) := by
  have hread : readFrame (t ++ rest) = readFrame (t' ++ rest) := by
    rw [readFrame, readFrame, if_pos (startsElement_append ht rest),
      if_pos (startsElement_append ht' rest), readOpenTag_append ht, readOpenTag_append ht']
    simp only [hname, hself, hframe]
  rw [readDocument, readDocument, skipTrivia_append hw, skipTrivia_append hw,
    skipTrivia_of_stops (ht.stopsTrivia rest), skipTrivia_of_stops (ht'.stopsTrivia rest)]
  simp only [hread]

/-! ## The headline -/

/-- **The last values make the frame.** The tag of a frame is accepted when every recognised
attribute has a value that its setting takes, so that only the set of its recognised pairs counts
for that. Lists of attributes that agree, for every setting, on the last value given for it make the
same frame, in whatever document they stand, and whatever the order, the repetitions and the
attributes that are not recognised. A side of the padding takes the last value of its own attribute,
else of its axis, else of the common attribute, else it is zero. -/
theorem frame_of_last_values (attributes others : List Attribute) :
    ((∃ frame, Frame.ofAttributes attributes = .ok frame) ↔ Valid attributes) ∧
    ((∀ pair, pair ∈ recognised attributes ↔ pair ∈ recognised others) →
      ((∃ frame, Frame.ofAttributes attributes = .ok frame) ↔
        ∃ frame, Frame.ofAttributes others = .ok frame)) ∧
    (Valid attributes → Valid others → AgreeOnLast attributes others →
      (∃ frame, Frame.ofAttributes attributes = .ok frame ∧
        Frame.ofAttributes others = .ok frame) ∧
      ∀ (before t t' after : String) (selfClosing : Bool) (frame : Frame), Trivia before.toList →
        OpenTag t.toList ⟨"Frame", attributes, selfClosing⟩ →
        OpenTag t'.toList ⟨"Frame", others, selfClosing⟩ →
        (Frame.parse (before ++ t ++ after) = .ok frame ↔
          Frame.parse (before ++ t' ++ after) = .ok frame)) ∧
    ∀ frame, Frame.ofAttributes attributes = .ok frame →
      SidePadding attributes .top .vertical frame.padding.top ∧
      SidePadding attributes .right .horizontal frame.padding.right ∧
      SidePadding attributes .bottom .vertical frame.padding.bottom ∧
      SidePadding attributes .left .horizontal frame.padding.left := by
  refine ⟨exists_ofAttributes_iff_valid, fun hpairs => ?_, fun hvalid hothers hagree => ?_,
    fun frame hframe => ?_⟩
  · rw [exists_ofAttributes_iff_valid, exists_ofAttributes_iff_valid]
    exact ⟨valid_of_recognised_subset fun pair => (hpairs pair).2,
      valid_of_recognised_subset fun pair => (hpairs pair).1⟩
  · obtain ⟨frame, hframe⟩ := exists_ofAttributes_iff_valid.2 hvalid
    obtain ⟨other, hother⟩ := exists_ofAttributes_iff_valid.2 hothers
    obtain ⟨settings, hsettings, rfl⟩ := frame_ofAttributes_eq_ok_iff_nil.1 hframe
    obtain ⟨otherSettings, hotherSettings, rfl⟩ := frame_ofAttributes_eq_ok_iff_nil.1 hother
    rw [← ofLast_eq_of_agreeOnLast hsettings hotherSettings hagree] at hother
    refine ⟨⟨_, hframe, hother⟩, fun before t t' after selfClosing frame hbefore ht ht' => ?_⟩
    -- The tags agree in everything but their attributes, which give the same frame.
    have hread := readDocument_congr hbefore ht ht' rfl rfl (hframe.trans hother.symm) after.toList
    simp only [parse_eq_ok_iff_readDocument, String.toList_append, List.append_assoc, hread]
  · obtain ⟨settings, hsettings, rfl⟩ := frame_ofAttributes_eq_ok_iff_nil.1 hframe
    have hside := sidePadding_ofLast hsettings
    exact ⟨hside .top .vertical, hside .right .horizontal, hside .bottom .vertical,
      hside .left .horizontal⟩

/-! ### One tag, written twice -/

/-- The attributes of `<Frame px="3" w="9" p="1" width="2"/>`. -/
def plainAttributes : List Attribute :=
  [⟨"px", .literal "3"⟩, ⟨"w", .literal "9"⟩, ⟨"p", .literal "1"⟩, ⟨"width", .literal "2"⟩]

/-- The attributes of `<Frame p="1" w="9" hidden width={2} px="3"/>`. -/
def shuffledAttributes : List Attribute :=
  [⟨"p", .literal "1"⟩, ⟨"w", .literal "9"⟩, ⟨"hidden", .flag⟩, ⟨"width", .expression "2"⟩,
   ⟨"px", .literal "3"⟩]

/-- All attributes of the first tag have values that their settings take. -/
theorem valid_plainAttributes : Valid plainAttributes := by
  have hthree : Attribute.Writes ⟨"px", .literal "3"⟩ 3 :=
    number?_eq_some_iff.1 (by decide +kernel)
  have hnine : Attribute.WritesPositive ⟨"w", .literal "9"⟩ 9 :=
    ⟨number?_eq_some_iff.1 (by decide +kernel), by decide +kernel⟩
  have hone : Attribute.Writes ⟨"p", .literal "1"⟩ 1 :=
    number?_eq_some_iff.1 (by decide +kernel)
  have htwo : Attribute.WritesPositive ⟨"width", .literal "2"⟩ 2 :=
    ⟨number?_eq_some_iff.1 (by decide +kernel), by decide +kernel⟩
  simp only [Valid, plainAttributes, List.forall_mem_cons]
  exact ⟨fun _ => ⟨.padding .horizontal 3, .padding (by simp) hthree⟩,
    fun _ => ⟨.width 9, .width (by simp) hnine⟩,
    fun _ => ⟨.padding .all 1, .padding (by simp) hone⟩,
    fun _ => ⟨.width 2, .width (by simp) htwo⟩, by simp⟩

/-- What is recognised in the second tag is what is recognised in the first one. -/
theorem mem_recognised_shuffledAttributes (pair : String × Option String) :
    pair ∈ recognised plainAttributes ↔ pair ∈ recognised shuffledAttributes := by
  have hplain : recognised plainAttributes =
      [("px", some "3"), ("w", some "9"), ("p", some "1"), ("width", some "2")] := by decide
  have hshuffled : recognised shuffledAttributes =
      [("p", some "1"), ("w", some "9"), ("width", some "2"), ("px", some "3")] := by decide
  rw [hplain, hshuffled]
  simp only [List.mem_cons, List.not_mem_nil, or_false]
  tauto

/-- The two tags agree on the last value of every setting. -/
theorem agreeOnLast_shuffledAttributes : AgreeOnLast plainAttributes shuffledAttributes := by
  intro key
  cases key with
  | width =>
    have hname : "width" ∈ FrameKey.width.names := by decide
    exact .some (setsAlike_of_names hname hname rfl)
  | padding edge =>
    cases edge with
    | all => exact .some fun _ => .rfl
    | horizontal => exact .some fun _ => .rfl
    | _ => exact .none
  | _ => exact .none

theorem attributeList_quoted (n raw : List Char) {s : List Char} {attributes : List Attribute}
    (hn : Name n) (hraw : '"' ∉ raw) (h : AttributeList s attributes) :
    AttributeList ([' '] ++ (n ++ ([] ++ '=' :: ([] ++ ('"' :: (raw ++ ['"']) ++ s)))))
      (⟨String.ofList n, .literal (String.ofList (decodeEntities raw))⟩ :: attributes) :=
  .valued .space hn .nil .nil (.quoted (by decide) hraw) h

/-- The first tag has the plain attributes. -/
theorem openTag_plainAttributes :
    OpenTag "<Frame px=\"3\" w=\"9\" p=\"1\" width=\"2\"/>".toList
      ⟨"Frame", plainAttributes, true⟩ :=
  .mk (n := "Frame".toList) true (by decide) (by simp [StopsName]; decide)
    (attributeList_quoted "px".toList ['3'] (by decide) (by decide) <|
      attributeList_quoted "w".toList ['9'] (by decide) (by decide) <|
      attributeList_quoted "p".toList ['1'] (by decide) (by decide) <|
      attributeList_quoted "width".toList ['2'] (by decide) (by decide) (.nil .nil))

/-- The second tag has the shuffled attributes. -/
theorem openTag_shuffledAttributes :
    OpenTag "<Frame p=\"1\" w=\"9\" hidden width=\x7b2\x7d px=\"3\"/>".toList
      ⟨"Frame", shuffledAttributes, true⟩ := by
  have hbraced : Spelling ('\x7b' :: (['2'] ++ ['\x7d'])) (.expression "2") :=
    .braced (by decide) (trimmed_iff.2 (by decide)) (.bare (by simp [quotes]))
  exact .mk (n := "Frame".toList) true (by decide) (by simp [StopsName]; decide)
    (attributeList_quoted "p".toList ['1'] (by decide) (by decide) <|
      attributeList_quoted "w".toList ['9'] (by decide) (by decide) <|
      .flag (n := "hidden".toList) .space (by decide) (by simp [StopsName]; decide) <|
      .valued (n := "width".toList) .space (by decide) .nil .nil hbraced <|
      attributeList_quoted "px".toList ['3'] (by decide) (by decide) (.nil .nil))

/-- Both tags make one frame, with its width from the second of two attributes and its padding from
two that come in either order. -/
theorem frame_of_last_values_shuffled :
    (∃ frame, Frame.ofAttributes shuffledAttributes = .ok frame) ∧
    ∃ frame, Frame.ofAttributes plainAttributes = .ok frame ∧
      Frame.ofAttributes shuffledAttributes = .ok frame ∧
      Frame.parse ("" ++ "<Frame px=\"3\" w=\"9\" p=\"1\" width=\"2\"/>" ++ "") = .ok frame ∧
      Frame.parse ("" ++ "<Frame p=\"1\" w=\"9\" hidden width=\x7b2\x7d px=\"3\"/>" ++ "") =
        .ok frame ∧
      SidePadding plainAttributes .top .vertical frame.padding.top ∧
      SidePadding plainAttributes .left .horizontal frame.padding.left := by
  obtain ⟨haccepted, hset, hframe, hpadding⟩ :=
    frame_of_last_values plainAttributes shuffledAttributes
  have hshuffled := (hset mem_recognised_shuffledAttributes).1 (haccepted.2 valid_plainAttributes)
  obtain ⟨⟨frame, hplain, hsame⟩, hparse⟩ := hframe valid_plainAttributes
    (exists_ofAttributes_iff_valid.1 hshuffled) agreeOnLast_shuffledAttributes
  obtain ⟨htop, -, -, hleft⟩ := hpadding frame hplain
  have hiff := hparse "" _ _ "" true frame (by rw [String.toList_empty]; exact .nil)
    openTag_plainAttributes openTag_shuffledAttributes
  have hread : Frame.parse ("" ++ "<Frame px=\"3\" w=\"9\" p=\"1\" width=\"2\"/>" ++ "") =
      .ok frame := by
    have hroot := Root.empty openTag_plainAttributes rfl rfl
      (frame_ofAttributes_eq_ok_iff_nil.1 hplain)
    have hdocument := Document.mk .nil hroot .nil
    rw [parse_eq_ok_iff_readDocument]
    simpa using readDocument_of_document hdocument
  exact ⟨hshuffled, frame, hplain, hsame, hread, hiff.1 hread, htop, hleft⟩

end CanvasLink.Markup
