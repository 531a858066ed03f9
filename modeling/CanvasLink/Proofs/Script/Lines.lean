import CanvasLink.Proofs.Script.Writing
import Mathlib.Data.List.Dedup

/-!
# CanvasLink — the lines of a script

No text of a frame and no number of it holds a line feed once it is written, so that the lines of a
script are those of its statements, and their number is known from the styles and the flags of the
leaves.

* `mem_plain_render` — the characters of a number, finite or not.
* **`splitOn_emit`** — the lines.
* **`length_script`** — how many there are.
-/

namespace CanvasLink.Script

open CanvasLink.Markup

/-! ## Texts -/

/-- Whether a character can stand inside a script string at all. -/
def isHarmless (c : Char) : Bool :=
  0x20 ≤ c.toNat && c != '\u2028' && c != '\u2029'

/-- What stands between the quotes of a script string: harmless characters, of which a quote or a
backslash stands behind a backslash that belongs to it. -/
inductive Inert : List Char → Prop
  | nil : Inert []
  | plain {c : Char} {s : List Char} (hc : isHarmless c = true) (hquote : c ≠ '"')
    (hslash : c ≠ '\\') (h : Inert s) : Inert (c :: s)
  | escaped {c : Char} {s : List Char} (hc : isHarmless c = true) (h : Inert s) :
    Inert ('\\' :: c :: s)

/-- All characters between the quotes are harmless. -/
theorem Inert.isHarmless_of_mem {s : List Char} (h : Inert s) : ∀ c ∈ s, isHarmless c = true := by
  induction h with
  | nil => exact fun _ hc => absurd hc List.not_mem_nil
  | plain hc _ _ _ ih => exact List.forall_mem_cons.2 ⟨hc, ih⟩
  | escaped hc _ ih =>
    exact List.forall_mem_cons.2 ⟨by decide, List.forall_mem_cons.2 ⟨hc, ih⟩⟩

/-- Harmless characters that are neither quotes nor backslashes stand for themselves. -/
theorem Inert.append_plain {word s : List Char} (h : Inert s)
    (hword : ∀ c ∈ word, isHarmless c = true ∧ c ≠ '"' ∧ c ≠ '\\') : Inert (word ++ s) := by
  induction word with
  | nil => exact h
  | cons c word ih =>
    obtain ⟨⟨hc, hquote, hslash⟩, hword⟩ := List.forall_mem_cons.1 hword
    exact .plain hc hquote hslash (ih hword)

theorem hexDigit_harmless : ∀ n < 16, isHarmless (Json.hexDigit n) = true ∧
    Json.hexDigit n ≠ '"' ∧ Json.hexDigit n ≠ '\\' := by
  decide

/-- Whatever a character is, its escaped form can stand between quotes. -/
theorem inert_escapeScriptChar (c : Char) {s : List Char} (h : Inert s) :
    Inert (escapeScriptChar c ++ s) := by
  unfold escapeScriptChar
  split
  · exact .escaped (by decide) (h.append_plain (by simp [isHarmless]))
  split
  · exact .escaped (by decide) (h.append_plain (by simp [isHarmless]))
  · next h₁ h₂ =>
    unfold Json.escapeChar
    split
    -- No short escape applies: a control character is written as a code, any other as itself.
    case h_8 hquote hslash _ _ _ _ _ =>
      split
      · have hdigit (n : Nat) := hexDigit_harmless (n % 16) (Nat.mod_lt n (by decide))
        have hcode : ∀ d ∈ Json.hexCode c, isHarmless d = true ∧ d ≠ '"' ∧ d ≠ '\\' := by
          simp only [Json.hexCode, List.forall_mem_cons]
          exact ⟨hdigit _, hdigit _, hdigit _, hdigit _, fun _ hd => absurd hd List.not_mem_nil⟩
        exact .escaped (by decide) (h.append_plain hcode)
      · next hc =>
        refine .plain ?_ hquote hslash h
        simp [isHarmless, h₁, h₂]
        omega
    all_goals exact .escaped (by decide) h

/-- **No text gets out of its quotes.** -/
theorem inert_flatMap (text : List Char) : Inert (text.flatMap escapeScriptChar) := by
  induction text with
  | nil => exact .nil
  | cons c text ih => exact inert_escapeScriptChar c ih

theorem toList_scriptString (text : String) :
    (scriptString text).toList = '"' :: (text.toList.flatMap escapeScriptChar ++ ['"']) := by
  rw [scriptString, String.toList_ofList]
  rfl

/-- Different texts are different script strings. -/
theorem scriptString_inj {s t : String} (h : scriptString s = scriptString t) : s = t := by
  have hlist := congrArg String.toList h
  rw [toList_scriptString, toList_scriptString, List.cons.injEq] at hlist
  have hread := text?_append s []
  rw [hlist.2, text?_append t []] at hread
  cases hread
  rfl

/-! ## Numbers -/

/-- The characters of a written number. -/
def isNumeric (c : Char) : Bool :=
  c.isDigit || c ∈ ['.', '-', 'N', 'a', 'i', 'n', 'f']

theorem isNumeric_of_isDigit {c : Char} (h : c.isDigit = true) : isNumeric c = true := by
  rw [isNumeric, h, Bool.true_or]

/-- Digits with a point among them are characters of a number. -/
theorem mem_positional {digits : List Char} (hdigits : ∀ c ∈ digits, c.isDigit = true)
    (exponent : Int) :
    ∀ c ∈ (Decimal.positional "" digits exponent).toList, isNumeric c = true := by
  intro c hc
  unfold Decimal.positional at hc
  split at hc
  · simp only [String.append_empty, String.toList_ofList, List.mem_append] at hc
    rcases hc with hc | hc
    · exact isNumeric_of_isDigit (hdigits c hc)
    · exact isNumeric_of_isDigit (Decimal.isDigit_of_mem_zeros hc)
  · -- Zeros in front keep a digit before the point.
    have hpadded : ∀ c ∈ List.replicate ((-exponent).toNat + 1 - digits.length) '0' ++ digits,
        c.isDigit = true := by
      intro c hc
      rcases List.mem_append.1 hc with hc | hc
      · exact Decimal.isDigit_of_mem_zeros hc
      · exact hdigits c hc
    dsimp only at hc
    simp only [String.toList_append, String.toList_ofList, List.mem_append] at hc
    rcases hc with (hc | hc) | hc
    · exact isNumeric_of_isDigit (hpadded c (List.mem_of_mem_take hc))
    · have hpoint : c = '.' := by simpa using hc
      subst hpoint
      decide
    · exact isNumeric_of_isDigit (hpadded c (List.mem_of_mem_drop hc))

/-- The magnitude of a number is written with characters of a number. -/
theorem mem_magnitude (x : Float) :
    ∀ c ∈ (Decimal.plain.magnitude x).toList, isNumeric c = true := by
  have hdigits (n : Nat) (exponent : Int) :
      ∀ c ∈ (Decimal.stripZeros (Nat.toDigits 10 n) exponent).1, c.isDigit = true := by
    intro c hc
    obtain ⟨zeros, hsplit, -⟩ := Decimal.stripZeros_eq (Nat.toDigits 10 n) exponent
    have hmem : c ∈ Nat.toDigits 10 n := hsplit ▸ List.mem_append_left _ hc
    exact Nat.isDigit_of_mem_toDigits (by decide) (by decide) hmem
  exact mem_positional (hdigits _ (Decimal.shortest x .up).exponent) _

/-- **The characters of a number**, whatever number it is. -/
theorem mem_plain_render (x : Float) :
    ∀ c ∈ (Decimal.plain.render x).toList, isNumeric c = true := by
  -- A minus sign is as numeric as the digits behind it.
  have hsign (negative : Bool) (text : String) (htext : ∀ c ∈ text.toList, isNumeric c = true) :
      ∀ c ∈ ((if negative then "-" else "") ++ text).toList, isNumeric c = true := by
    intro c hc
    rw [String.toList_append, List.mem_append] at hc
    rcases hc with hc | hc
    · cases negative with
      | false => simp at hc
      | true =>
        have hminus : c = '-' := by simpa using hc
        subst hminus
        decide
    · exact htext c hc
  have hword (word : List Char) (hword : word.all isNumeric = true) :
      ∀ c ∈ (String.ofList word).toList, isNumeric c = true := by
    rw [String.toList_ofList]
    exact List.all_eq_true.1 hword
  unfold Decimal.Layout.render
  split
  · exact hword ['N', 'a', 'N'] (by decide)
  · dsimp only
    split
    · exact hsign _ "inf" (hword ['i', 'n', 'f'] (by decide))
    · split
      · rw [String.append_assoc]
        exact hsign _ "0" (hword ['0'] (by decide))
      · exact hsign _ _ (mem_magnitude x)

/-! ## Line feeds -/

/-- A text that stands on one line. -/
def Inline (text : String) : Prop :=
  '\n' ∉ text.toList

theorem Inline.append {s t : String} (hs : Inline s) (ht : Inline t) : Inline (s ++ t) := by
  rw [Inline, String.toList_append, List.mem_append]
  exact fun h => h.elim hs ht

/-- A script string stands on one line, whatever its text. -/
theorem inline_scriptString (text : String) : Inline (scriptString text) := by
  rw [Inline, toList_scriptString]
  intro h
  have hmem : '\n' ∈ text.toList.flatMap escapeScriptChar := by simpa using h
  exact absurd ((inert_flatMap text.toList).isHarmless_of_mem _ hmem) (by decide)

theorem inline_render (x : Float) : Inline (Decimal.plain.render x) :=
  fun h => absurd (mem_plain_render x _ h) (by decide)

/-- The name of a node stands on one line. -/
theorem inline_variable (node : Node) : Inline node.variable := by
  intro h
  obtain ⟨c, s, hname, hc, hs⟩ := isWord_iff.1 (isWord_variable node)
  rw [hname] at h
  rcases List.mem_cons.1 h with rfl | h
  · exact absurd hc (by decide)
  · exact absurd (hs _ h) (by decide)

/-- A font stands on one line. -/
theorem inline_font (style : FontStyle) : Inline style.font := by
  unfold FontStyle.font
  have hopen : Inline "\x7b family: " := by simp [Inline]
  have hstyle : Inline ", style: " := by simp [Inline]
  have hclose : Inline " \x7d" := by simp [Inline]
  exact (((hopen.append (inline_scriptString _)).append hstyle).append
    (inline_scriptString _)).append hclose

/-- A paint stands on one line. -/
theorem inline_paint (color : Color) : Inline color.paint := by
  have hbyte (b : UInt8) : '\n' ∉ Color.byteDigits b := by
    have hdigit : ∀ n < 16, Color.digit n ≠ '\n' := by decide
    have hb := b.toNat_lt
    intro h
    rcases List.mem_cons.1 h with h | h
    · exact hdigit _ (by omega) h.symm
    · exact hdigit _ (Nat.mod_lt _ (by decide)) (List.mem_singleton.1 h).symm
  have hopen : Inline "[\x7b type: \"SOLID\", color: rgb(\"" := by simp [Inline]
  have hclose : Inline "\") \x7d]" := by simp [Inline]
  have hhex : Inline (String.ofList color.toHex) := by
    simp [Inline, Color.toHex, hbyte]
  exact (hopen.append hhex).append hclose

/-- A literal stands on one line. -/
theorem inline_literal (value : Literal) : Inline value.text := by
  cases value with
  | string text => exact inline_scriptString text
  | number x => exact inline_render x
  | boolean b => cases b <;> simp [Inline, Literal.text]
  | font style => exact inline_font style
  | solid color => exact inline_paint color

theorem inline_property (property : Property) : Inline property.text := by
  cases property <;> simp [Inline, Property.text]

theorem inline_creation (node : Node) : Inline node.creation := by
  cases node <;> simp [Inline, Node.creation]

/-- The lines of a statement are lines. -/
theorem inline_lines (s : Statement) : ∀ line ∈ s.lines, Inline line := by
  cases s with
  | defineColor =>
    refine List.forall_mem_singleton.2 ?_
    rw [colorFunction, Inline, String.toList_ofList]
    decide
  | loadFonts styles =>
    have hopen : Inline "  figma.loadFontAsync(" := by simp [Inline]
    have hclose : Inline ")," := by simp [Inline]
    intro line hline
    rw [Statement.lines, List.mem_append, List.mem_append, List.mem_singleton, List.mem_map,
      List.mem_singleton] at hline
    rcases hline with (rfl | ⟨style, -, rfl⟩) | rfl
    · simp [Inline]
    · exact (hopen.append (inline_font style)).append hclose
    · simp [Inline]
  | create node =>
    refine List.forall_mem_singleton.2 ?_
    have hconst : Inline "const " := by simp [Inline]
    have hequals : Inline " = " := by simp [Inline]
    have hend : Inline ";" := by simp [Inline]
    exact (((hconst.append (inline_variable node)).append hequals).append
      (inline_creation node)).append hend
  | resize width height =>
    refine List.forall_mem_singleton.2 ?_
    have hcall : Inline ".resize(" := by simp [Inline]
    have hcomma : Inline ", " := by simp [Inline]
    have hend : Inline ");" := by simp [Inline]
    exact (((((inline_variable _).append hcall).append (inline_render width)).append hcomma).append
      (inline_render height)).append hend
  | assign node property value =>
    refine List.forall_mem_singleton.2 ?_
    have hpoint : Inline "." := by simp [Inline]
    have hequals : Inline " = " := by simp [Inline]
    have hend : Inline ";" := by simp [Inline]
    exact (((((inline_variable node).append hpoint).append (inline_property property)).append
      hequals).append (inline_literal value)).append hend
  | append index =>
    refine List.forall_mem_singleton.2 ?_
    have hcall : Inline ".appendChild(" := by simp [Inline]
    have hend : Inline ");" := by simp [Inline]
    exact (((inline_variable _).append hcall).append (inline_variable _)).append hend
  | finish =>
    refine List.forall_mem_singleton.2 ?_
    have hreturn : Inline "return \x7b id: " := by simp [Inline]
    have hid : Inline ".id, name: " := by simp [Inline]
    have hend : Inline ".name \x7d;" := by simp [Inline]
    exact (((hreturn.append (inline_variable _)).append hid).append (inline_variable _)).append hend

/-- **The lines of a script** are those of its statements, between the first and the last one. -/
theorem splitOn_emit (frame : Frame) :
    frame.emit.toList.splitOn '\n' = (Statement.script frame.statements).map String.toList := by
  rw [Frame.emit, String.toList_intercalate]
  -- Splitting undoes the joining as long as no line has a line feed of its own.
  refine List.splitOn_intercalate '\n' ?_ (by simp [Statement.script])
  intro chars hchars
  obtain ⟨line, hline, rfl⟩ := List.mem_map.1 hchars
  rw [Statement.script, List.mem_append, List.mem_append, List.mem_singleton, List.mem_map,
    List.mem_singleton] at hline
  rcases hline with (rfl | ⟨text, htext, rfl⟩) | rfl
  · simp
  · obtain ⟨s, -, htext⟩ := List.mem_flatMap.1 htext
    have hindent : Inline "  " := by simp [Inline]
    exact hindent.append (inline_lines s text htext)
  · simp

/-- Only the loading of fonts takes more than one line. -/
theorem length_lines_eq_one {s : Statement} (h : ∀ styles, s ≠ .loadFonts styles) :
    s.lines.length = 1 := by
  cases s with
  | loadFonts styles => exact absurd rfl (h styles)
  | _ => rfl

/-! ## The number of lines -/

/-- A leaf takes six lines, and two more if it is stretched. -/
theorem length_lines_leaves (index : Nat) (leaves : List Leaf) :
    ((Leaf.setupFrom index leaves).flatMap Statement.lines).length =
      6 * leaves.length + 2 * leaves.countP (·.fillWidth) := by
  induction leaves generalizing index with
  | nil => rfl
  | cons leaf leaves ih =>
    rw [Leaf.setupFrom, List.flatMap_append, List.length_append, ih, List.length_cons,
      List.countP_cons]
    cases hfill : leaf.fillWidth <;> simp [Leaf.setup, hfill, Statement.lines] <;> omega

/-- The styles that are loaded are those of the leaves. -/
theorem mem_fontStyles {frame : Frame} {style : FontStyle} :
    style ∈ frame.fontStyles ↔ style ∈ frame.leaves.map (·.style) := by
  have hall : style ∈ FontStyle.all := by cases style <;> decide
  rw [Frame.fontStyles, List.mem_filter, List.any_eq_true, List.mem_map]
  simp [hall]

/-- Each style is loaded once. -/
theorem length_fontStyles (frame : Frame) :
    frame.fontStyles.length = (frame.leaves.map (·.style)).dedup.length := by
  have hnodup : frame.fontStyles.Nodup := List.Nodup.filter _ (by decide)
  refine ((List.perm_ext_iff_of_nodup hnodup (List.nodup_dedup _)).2 fun style => ?_).length_eq
  rw [List.mem_dedup, mem_fontStyles]

/-- **How many lines there are.** -/
theorem length_script (frame : Frame) :
    (Statement.script frame.statements).length =
      20 + (if frame.leaves = [] then 0 else 2 + (frame.leaves.map (·.style)).dedup.length) +
        6 * frame.leaves.length + 2 * frame.leaves.countP (·.fillWidth) := by
  -- Without leaves no font is loaded, and the group takes no line at all.
  have hfonts : (frame.fontLoading.flatMap Statement.lines).length =
      if frame.leaves = [] then 0 else 2 + (frame.leaves.map (·.style)).dedup.length := by
    have hlength := length_fontStyles frame
    unfold Frame.fontLoading
    split
    · next hnone =>
      have hleaves : frame.leaves = [] := by
        refine List.eq_nil_iff_forall_not_mem.2 fun leaf hleaf => ?_
        have hmem := mem_fontStyles.2 (List.mem_map_of_mem hleaf)
        rw [hnone] at hmem
        cases hmem
      rw [if_pos hleaves]
      rfl
    · next hsome =>
      have hleaves : frame.leaves ≠ [] := by
        intro hleaves
        refine hsome (List.eq_nil_iff_forall_not_mem.2 fun style hstyle => ?_)
        rw [mem_fontStyles, hleaves] at hstyle
        cases hstyle
      rw [if_neg hleaves, ← hlength]
      simp [Statement.lines]
      omega
  rw [Frame.statements, Statement.script]
  simp only [List.flatMap_append, List.length_append, List.length_map, hfonts, length_lines_leaves]
  simp [Frame.setup, Statement.lines]
  omega

end CanvasLink.Script
