import CanvasLink.Proofs.Script.Lexing

/-!
# CanvasLink — the lexemes of a script

Every statement of a script is a list of lexemes, line by line; this module only compares texts.
`tokens?_emit` is all that the reader of statements needs to know about the text.
-/

namespace CanvasLink.Script

open CanvasLink.Markup

/-! ## Parts of statements -/

def fontLexemes (style : FontStyle) : List Lexeme :=
  [.mark '\x7b', .blank ' ', .word "family", .mark ':', .blank ' ', .text fontFamily, .mark ',',
   .blank ' ', .word "style", .mark ':', .blank ' ', .text style.name, .blank ' ', .mark '\x7d']

def paintLexemes (color : Color) : List Lexeme :=
  [.mark '[', .mark '\x7b', .blank ' ', .word "type", .mark ':', .blank ' ', .text "SOLID",
   .mark ',', .blank ' ', .word "color", .mark ':', .blank ' ', .word "rgb", .mark '(',
   .text (String.ofList color.toHex), .mark ')', .blank ' ', .mark '\x7d', .mark ']']

def literalLexemes : Literal → List Lexeme
  | .string value => [.text value]
  | .number value => [.number value]
  | .boolean b => [.word (if b then "true" else "false")]
  | .font style => fontLexemes style
  | .solid color => paintLexemes color

def creationLexemes : Node → List Lexeme
  | .frame => [.word "figma", .mark '.', .word "createFrame", .mark '(', .mark ')']
  | .leaf _ => [.word "figma", .mark '.', .word "createText", .mark '(', .mark ')']

/-- One channel of the color function. -/
def channelLexemes (key : String) (first last : Float) : List Lexeme :=
  [.word key, .mark ':', .blank ' ', .word "parseInt", .mark '(', .word "hex", .mark '.',
   .word "slice", .mark '(', .number first, .mark ',', .blank ' ', .number last, .mark ')',
   .mark ',', .blank ' ', .number 16, .mark ')', .blank ' ', .mark '/', .blank ' ', .number 255]

def colorLexemes : List Lexeme :=
  [Lexeme.word "const", .blank ' ', .word "rgb", .blank ' ', .mark '=', .blank ' ', .mark '(',
   .word "hex", .mark ')', .blank ' ', .arrow, .blank ' ', .mark '(', .mark '\x7b', .blank ' '] ++
    channelLexemes "r" 0 2 ++ [Lexeme.mark ',', .blank ' '] ++
    channelLexemes "g" 2 4 ++ [Lexeme.mark ',', .blank ' '] ++
    channelLexemes "b" 4 6 ++ [Lexeme.blank ' ', .mark '\x7d', .mark ')']

/-- A line: two blanks, what stands on it, and a line feed. -/
def line (lexemes : List Lexeme) : List Lexeme :=
  [Lexeme.blank ' ', .blank ' '] ++ lexemes ++ [Lexeme.blank '\n']

def loadLexemes (style : FontStyle) : List Lexeme :=
  line ([Lexeme.blank ' ', .blank ' ', .word "figma", .mark '.', .word "loadFontAsync", .mark '('] ++
    fontLexemes style ++ [Lexeme.mark ')', .mark ','])

def statementLexemes : Statement → List Lexeme
  | .defineColor => line (colorLexemes ++ [Lexeme.mark ';'])
  | .loadFonts styles =>
    line [.word "await", .blank ' ', .word "Promise", .mark '.', .word "all", .mark '(', .mark '[']
      ++ styles.flatMap loadLexemes ++ line [.mark ']', .mark ')', .mark ';']
  | .create node =>
    line ([Lexeme.word "const", .blank ' ', .word node.variable, .blank ' ', .mark '=', .blank ' '] ++
      creationLexemes node ++ [Lexeme.mark ';'])
  | .resize width height =>
    line [.word "frame", .mark '.', .word "resize", .mark '(', .number width, .mark ',', .blank ' ',
      .number height, .mark ')', .mark ';']
  | .assign node property value =>
    line ([Lexeme.word node.variable, .mark '.', .word property.text, .blank ' ', .mark '=', .blank ' '] ++
      literalLexemes value ++ [Lexeme.mark ';'])
  | .append index =>
    line [.word "frame", .mark '.', .word "appendChild", .mark '(', .word (Node.leaf index).variable,
      .mark ')', .mark ';']
  | .finish =>
    line [.word "return", .blank ' ', .mark '\x7b', .blank ' ', .word "id", .mark ':', .blank ' ',
      .word "frame", .mark '.', .word "id", .mark ',', .blank ' ', .word "name", .mark ':',
      .blank ' ', .word "frame", .mark '.', .word "name", .blank ' ', .mark '\x7d', .mark ';']

/-- The lexemes of a whole script. -/
def scriptLexemes (statements : List Statement) : List Lexeme :=
  [Lexeme.mark '(', .word "async", .blank ' ', .mark '(', .mark ')', .blank ' ', .arrow, .blank ' ',
   .mark '\x7b', .blank '\n'] ++ statements.flatMap statementLexemes ++
    [Lexeme.mark '\x7d', .mark ')', .mark '(', .mark ')']

/-! ### The numerals of the color function -/

theorem channel_numbers : ∀ x ∈ [(0 : Float), 2, 4, 6, 16, 255],
    x.isFinite = true ∧ Decimal.isNegative x = false := by
  decide +kernel

theorem channel_renders : [(0 : Float), 2, 4, 6, 16, 255].map Decimal.plain.render =
    ["0", "2", "4", "6", "16", "255"] := by
  decide +kernel

/-! ## Their text -/

/-- The text of lexemes. -/
def textOf (lexemes : List Lexeme) : List Char :=
  lexemes.flatMap Lexeme.chars

theorem textOf_append (a b : List Lexeme) : textOf (a ++ b) = textOf a ++ textOf b :=
  List.flatMap_append

theorem textOf_flatMap {α : Type} (f : α → List Lexeme) (xs : List α) :
    textOf (xs.flatMap f) = xs.flatMap fun x => textOf (f x) :=
  List.flatMap_assoc

/-- The text of a line. -/
def lineText (text : String) : List Char :=
  [' ', ' '] ++ text.toList ++ ['\n']

theorem textOf_line {lexemes : List Lexeme} {text : String} (h : textOf lexemes = text.toList) :
    textOf (line lexemes) = lineText text := by
  rw [line, textOf_append, textOf_append, h]
  rfl

/-- A statement that stands on one line. -/
theorem textOf_only_line {lexemes : List Lexeme} {text : String} (h : textOf lexemes = text.toList) :
    textOf (line lexemes) = [text].flatMap lineText :=
  (textOf_line h).trans (List.flatMap_singleton lineText text).symm

theorem escapeScriptChar_digit : ∀ n < 16, escapeScriptChar (Color.digit n) = [Color.digit n] := by
  decide

/-- The digits of a color stand between quotes as they are. -/
theorem scriptString_toHex (color : Color) :
    (scriptString (String.ofList color.toHex)).toList = '"' :: (color.toHex ++ ['"']) := by
  have hbyte (b : UInt8) : (Color.byteDigits b).flatMap escapeScriptChar = Color.byteDigits b := by
    have hlow : b.toNat % 16 < 16 := Nat.mod_lt _ (by decide)
    have hhigh : b.toNat / 16 < 16 := by
      have hb := b.toNat_lt
      omega
    simp [Color.byteDigits, escapeScriptChar_digit _ hlow, escapeScriptChar_digit _ hhigh]
  simp [scriptString, Color.toHex, hbyte]

theorem textOf_singleton (l : Lexeme) : textOf [l] = l.chars :=
  List.flatMap_singleton Lexeme.chars l

theorem textOf_font (style : FontStyle) : textOf (fontLexemes style) = style.font.toList := by
  simp [textOf, fontLexemes, Lexeme.chars, FontStyle.font]

/-- The lexemes of a paint are those of its text. -/
theorem textOf_paint (color : Color) : textOf (paintLexemes color) = color.paint.toList := by
  have hsolid : (scriptString "SOLID").toList = ['"', 'S', 'O', 'L', 'I', 'D', '"'] := by
    simp [scriptString, escapeScriptChar, Json.escapeChar]
  have hhex := scriptString_toHex color
  unfold paintLexemes Color.paint
  -- The digits are opaque from here on, so that no literal is compared with them.
  generalize color.toHex = hex at hhex
  simp only [textOf, Lexeme.chars, List.flatMap_cons, List.flatMap_nil, hsolid, hhex]
  simp

/-- The lexemes of a literal are those of its text. -/
theorem textOf_literal (value : Literal) : textOf (literalLexemes value) = value.text.toList := by
  cases value with
  | string value => exact textOf_singleton (.text value)
  | number value => exact textOf_singleton (.number value)
  | boolean b => cases b <;> simp [textOf, literalLexemes, Lexeme.chars, Literal.text]
  | font style => exact textOf_font style
  | solid color => exact textOf_paint color

theorem textOf_creation (node : Node) :
    textOf (creationLexemes node) = node.creation.toList := by
  cases node <;> simp [textOf, creationLexemes, Lexeme.chars, Node.creation]

/-- The lexemes of the color function are those of its text. -/
theorem textOf_color : textOf (colorLexemes ++ [Lexeme.mark ';']) = colorFunction.toList := by
  have hrenders := channel_renders
  simp only [List.map_cons, List.map_nil, List.cons.injEq, and_true] at hrenders
  -- The literal is a list of characters here; decoding it would be slow.
  rw [colorFunction, String.toList_ofList]
  simp [textOf, colorLexemes, channelLexemes, Lexeme.chars, hrenders]

/-- The lexemes of a line that loads a font are those of its text. -/
theorem textOf_load (style : FontStyle) :
    textOf (loadLexemes style) = lineText ("  figma.loadFontAsync(" ++ style.font ++ "),") := by
  refine textOf_line ?_
  rw [textOf_append, textOf_append, textOf_font]
  simp [textOf, Lexeme.chars]

/-- The text of a statement is its lines. -/
theorem textOf_statement (statement : Statement) :
    textOf (statementLexemes statement) = statement.lines.flatMap lineText := by
  cases statement with
  | defineColor => exact textOf_only_line textOf_color
  | loadFonts styles =>
    have hopen : textOf [.word "await", .blank ' ', .word "Promise", .mark '.', .word "all",
        .mark '(', .mark '['] = "await Promise.all([".toList := by
      simp [textOf, Lexeme.chars]
    have hclose : textOf [.mark ']', .mark ')', .mark ';'] = "]);".toList := by
      simp [textOf, Lexeme.chars]
    rw [statementLexemes, textOf_append, textOf_append, textOf_line hopen, textOf_line hclose,
      textOf_flatMap, Statement.lines]
    simp only [textOf_load, List.flatMap_append, List.flatMap_map, List.flatMap_singleton]
  | create node =>
    have htext : textOf ([Lexeme.word "const", .blank ' ', .word node.variable, .blank ' ', .mark '=',
        .blank ' '] ++ creationLexemes node ++ [Lexeme.mark ';']) =
        ("const " ++ node.variable ++ " = " ++ node.creation ++ ";").toList := by
      rw [textOf_append, textOf_append, textOf_creation]
      simp [textOf, Lexeme.chars]
    exact textOf_only_line htext
  | resize width height =>
    have htext : textOf [.word "frame", .mark '.', .word "resize", .mark '(', .number width,
        .mark ',', .blank ' ', .number height, .mark ')', .mark ';'] =
        ("frame" ++ ".resize(" ++ Decimal.plain.render width ++ ", " ++
          Decimal.plain.render height ++ ");").toList := by
      simp [textOf, Lexeme.chars]
    exact textOf_only_line htext
  | assign node property value =>
    have htext : textOf ([Lexeme.word node.variable, .mark '.', .word property.text, .blank ' ',
        .mark '=', .blank ' '] ++ literalLexemes value ++ [Lexeme.mark ';']) =
        (node.variable ++ "." ++ property.text ++ " = " ++ value.text ++ ";").toList := by
      rw [textOf_append, textOf_append, textOf_literal]
      simp [textOf, Lexeme.chars]
    exact textOf_only_line htext
  | append index =>
    have htext : textOf [.word "frame", .mark '.', .word "appendChild", .mark '(',
        .word (Node.leaf index).variable, .mark ')', .mark ';'] =
        ("frame" ++ ".appendChild(" ++ (Node.leaf index).variable ++ ");").toList := by
      simp [textOf, Lexeme.chars]
    exact textOf_only_line htext
  | finish =>
    have htext : textOf [.word "return", .blank ' ', .mark '\x7b', .blank ' ', .word "id",
        .mark ':', .blank ' ', .word "frame", .mark '.', .word "id", .mark ',', .blank ' ',
        .word "name", .mark ':', .blank ' ', .word "frame", .mark '.', .word "name", .blank ' ',
        .mark '\x7d', .mark ';'] =
        ("return \x7b id: " ++ "frame" ++ ".id, name: " ++ "frame" ++ ".name \x7d;").toList := by
      simp [textOf, Lexeme.chars]
    exact textOf_only_line htext

/-- A separator stands behind every part but the last one. -/
theorem intercalate_append_singleton {α : Type} (sep last : List α) (ls : List (List α)) :
    sep.intercalate (ls ++ [last]) = (ls.flatMap fun l => l ++ sep) ++ last := by
  induction ls with
  | nil => simp
  | cons l ls ih =>
    rw [List.cons_append, List.intercalate_cons_of_ne_nil (by simp), ih, List.flatMap_cons]
    simp only [List.append_assoc]

/-- The text of the lines of statements. -/
def bodyText (statements : List Statement) : List Char :=
  (statements.flatMap Statement.lines).flatMap lineText

/-- A script is its body between its first and its last line. -/
theorem toList_emit (frame : Frame) :
    frame.emit.toList =
      "(async () => \x7b".toList ++ ['\n'] ++ bodyText frame.statements ++ "\x7d)()".toList := by
  -- Joining by line feeds is the same as ending every line but the last with one.
  have hlines : bodyText frame.statements =
      (((frame.statements.flatMap Statement.lines).map ("  " ++ ·)).map String.toList).flatMap
        fun l => l ++ ['\n'] := by
    rw [List.flatMap_map, List.flatMap_map]
    refine List.flatMap_congr fun text _ => ?_
    rw [lineText, String.toList_append]
    rfl
  rw [hlines]
  unfold Frame.emit Statement.script
  rw [String.toList_intercalate, List.map_append, List.map_append, List.map_singleton,
    List.map_singleton, intercalate_append_singleton]
  have hfeed : "\n".toList = ['\n'] := String.toList_ofList
  rw [hfeed, List.flatMap_append, List.flatMap_singleton]

/-- **The text of a script is the text of its lexemes.** -/
theorem textOf_script (frame : Frame) :
    textOf (scriptLexemes frame.statements) = frame.emit.toList := by
  have hopen : textOf [.mark '(', .word "async", .blank ' ', .mark '(', .mark ')', .blank ' ',
      .arrow, .blank ' ', .mark '\x7b', .blank '\n'] =
      "(async () => \x7b".toList ++ ['\n'] := by
    simp [textOf, Lexeme.chars]
  have hclose : textOf [.mark '\x7d', .mark ')', .mark '(', .mark ')'] =
      "\x7d)()".toList := by
    simp [textOf, Lexeme.chars]
  have hbody : textOf (frame.statements.flatMap statementLexemes) = bodyText frame.statements := by
    simp only [bodyText, textOf_flatMap, textOf_statement, List.flatMap_assoc]
  rw [scriptLexemes, textOf_append, textOf_append, hopen, hclose, hbody, toList_emit]

/-! ## No two of them touch -/

/-- Lexemes that are separate may follow each other if they are so where they meet. -/
theorem Separate.append {a b : List Lexeme} (ha : Separate a) (hb : Separate b)
    (h : ∀ x ∈ a.getLast?, ∀ y ∈ b.head?, x.touches y = false) : Separate (a ++ b) := by
  refine ⟨List.forall_mem_append.2 ⟨ha.1, hb.1⟩, ?_⟩
  exact List.isChain_append.2 ⟨ha.2, hb.2, h⟩

/-- Marks and blanks touch nothing behind them. -/
theorem Separate.cons {l : Lexeme} {lexemes : List Lexeme} (hl : l.isValid = true)
    (h : ∀ y ∈ lexemes.head?, l.touches y = false) (hlexemes : Separate lexemes) :
    Separate (l :: lexemes) :=
  ⟨List.forall_mem_cons.2 ⟨hl, hlexemes.1⟩, List.isChain_cons.2 ⟨h, hlexemes.2⟩⟩

/-- Every lexeme ends in front of a mark other than a dot, which could go on a number. -/
theorem touches_mark (l : Lexeme) {c : Char} (hc : c ≠ '.') : l.touches (.mark c) = false := by
  cases l <;> simp [Lexeme.touches, hc]

/-- In front of a blank every lexeme ends. -/
theorem touches_blank (l : Lexeme) (c : Char) : l.touches (.blank c) = false := by
  cases l <;> rfl

/-- What ends in a blank touches nothing behind it. -/
theorem Separate.append_of_blank {a b : List Lexeme} (ha : Separate a) (hb : Separate b) {c : Char}
    (hlast : a.getLast? = some (.blank c)) : Separate (a ++ b) := by
  refine ha.append hb fun l hl _ _ => ?_
  rw [hlast] at hl
  cases hl
  rfl

/-- Lexemes with a mark other than a point behind them. -/
theorem Separate.append_mark {lexemes : List Lexeme} (h : Separate lexemes) {c : Char}
    (hmark : isMark c = true) (hc : c ≠ '.') : Separate (lexemes ++ [Lexeme.mark c]) := by
  refine h.append ⟨?_, List.isChain_singleton _⟩ fun x _ y hy => ?_
  · simpa [Lexeme.isValid] using hmark
  · cases hy
    exact touches_mark x hc

/-- On a line of their own lexemes stay separate. -/
theorem separate_line {lexemes : List Lexeme} (h : Separate lexemes) : Separate (line lexemes) := by
  have hend : Separate (lexemes ++ [Lexeme.blank '\n']) := by
    refine h.append ⟨?_, List.isChain_singleton _⟩ fun x _ y hy => ?_
    · simp [Lexeme.isValid, isSpace]
    · cases hy
      exact touches_blank x '\n'
  have hspace : isSpace ' ' = true := by decide
  rw [line, List.append_assoc]
  exact .cons hspace (fun _ _ => rfl) (.cons hspace (fun _ _ => rfl) hend)

theorem Separate.nil : Separate [] :=
  ⟨by simp, List.isChain_nil⟩

/-- A statement ends its last line, so that none touches the next one. -/
theorem separate_flatMap {α : Type} {f : α → List Lexeme} {xs : List α}
    (h : ∀ x ∈ xs, Separate (f x) ∧ (f x).getLast? = some (.blank '\n')) :
    Separate (xs.flatMap f) := by
  induction xs with
  | nil => exact Separate.nil
  | cons x xs ih =>
    obtain ⟨hx, hlast⟩ := h x (by simp)
    have hrest := ih fun y hy => h y (List.mem_cons_of_mem x hy)
    rw [List.flatMap_cons]
    exact hx.append_of_blank hrest hlast

theorem getLast?_line (lexemes : List Lexeme) :
    (line lexemes).getLast? = some (.blank '\n') :=
  List.getLast?_concat

/-- A statement ends in a line feed, whatever follows it. -/
theorem getLast?_statementLexemes (statement : Statement) :
    (statementLexemes statement).getLast? = some (.blank '\n') := by
  cases statement with
  | loadFonts styles =>
    rw [statementLexemes, List.getLast?_append, getLast?_line]
    rfl
  | _ => exact getLast?_line _

/-- The names of nodes are words. -/
theorem isWord_variable (node : Node) : isWord node.variable.toList = true := by
  cases node with
  | frame => simp [Node.variable, isWord, isWordStart, isWordChar]
  | leaf index =>
    -- The index is printed in decimal digits, which may follow the letters.
    have hdigits : ∀ c ∈ (toString index).toList, isWordChar c = true := by
      intro c hc
      have hdigit : c.isDigit = true :=
        Nat.isDigit_of_mem_toDigits (b := 10) (by decide) (by decide) (by simpa using hc)
      simp [isWordChar, hdigit]
    refine isWord_iff.2 ⟨'t', ['e', 'x', 't'] ++ (toString index).toList, ?_, by decide, ?_⟩
    · rw [Node.variable, String.toList_append]
      rfl
    · intro c hc
      rcases List.mem_append.1 hc with hc | hc
      · have hcases : c = 'e' ∨ c = 'x' ∨ c = 't' := by simpa using hc
        rcases hcases with rfl | rfl | rfl <;> decide
      · exact hdigits c hc

theorem isWord_property (property : Property) : isWord property.text.toList = true := by
  cases property <;> simp [Property.text, isWord, isWordStart, isWordChar]

theorem separate_font (style : FontStyle) : Separate (fontLexemes style) := by
  refine ⟨?_, by simp [fontLexemes, Lexeme.touches]⟩
  simp [fontLexemes, Lexeme.isValid, isWord, isWordStart, isWordChar, isMark, isSpace]

theorem separate_paint (color : Color) : Separate (paintLexemes color) := by
  refine ⟨?_, by simp [paintLexemes, Lexeme.touches]⟩
  simp [paintLexemes, Lexeme.isValid, isWord, isWordStart, isWordChar, isMark, isSpace]

/-- Literals are separate if their numbers are finite. -/
theorem separate_literal {value : Literal} (h : ∀ x, value = .number x → x.isFinite = true) :
    Separate (literalLexemes value) := by
  cases value with
  | string value => exact ⟨by simp [literalLexemes, Lexeme.isValid], List.isChain_singleton _⟩
  | number value =>
    exact ⟨by simpa [literalLexemes, Lexeme.isValid] using h, List.isChain_singleton _⟩
  | boolean b =>
    refine ⟨?_, List.isChain_singleton _⟩
    cases b <;> simp [literalLexemes, Lexeme.isValid, isWord, isWordStart, isWordChar]
  | font style => exact separate_font style
  | solid color => exact separate_paint color

theorem separate_creation (node : Node) : Separate (creationLexemes node) := by
  cases node with
  | frame => exact ⟨by decide +kernel, by simp [creationLexemes, Lexeme.touches]⟩
  | leaf index =>
    rw [creationLexemes]
    exact ⟨by decide +kernel, by simp [Lexeme.touches]⟩

theorem separate_load (style : FontStyle) : Separate (loadLexemes style) := by
  have hcall : Separate [.blank ' ', .blank ' ', .word "figma", .mark '.',
      .word "loadFontAsync", .mark '('] := ⟨by decide +kernel, by simp [Lexeme.touches]⟩
  have hend : Separate [.mark ')', .mark ','] :=
    ⟨by simp [Lexeme.isValid, isMark], by simp [Lexeme.touches]⟩
  have hfont := hcall.append (separate_font style) fun l hl _ _ => by cases hl; rfl
  refine separate_line (hfont.append hend fun l _ l' hl' => ?_)
  cases hl'
  exact touches_mark l (by decide)

/-- The fonts are loaded on lines of their own. -/
theorem separate_loadFonts (styles : List FontStyle) :
    Separate (statementLexemes (.loadFonts styles)) := by
  have hopen : Separate [.word "await", .blank ' ', .word "Promise", .mark '.', .word "all",
      .mark '(', .mark '['] := ⟨by decide +kernel, by simp [Lexeme.touches]⟩
  have hloads : Separate (styles.flatMap loadLexemes) :=
    separate_flatMap fun style _ => ⟨separate_load style, getLast?_line _⟩
  have hclose : Separate [.mark ']', .mark ')', .mark ';'] :=
    ⟨by simp [Lexeme.isValid, isMark], by simp [Lexeme.touches]⟩
  have hfirst := (separate_line hopen).append_of_blank hloads (getLast?_line _)
  refine hfirst.append (separate_line hclose) fun l _ l' hl' => ?_
  cases hl'
  exact touches_blank l ' '

/-- The numbers of a statement are finite. -/
def FiniteNumbers : Statement → Prop
  | .resize width height => width.isFinite = true ∧ height.isFinite = true
  | .assign _ _ (.number x) => x.isFinite = true
  | _ => True

/-- The lexemes of a statement are separate if its numbers are finite. -/
theorem separate_statement {statement : Statement} (h : FiniteNumbers statement) :
    Separate (statementLexemes statement) := by
  cases statement with
  | defineColor =>
    have hnumbers := channel_numbers
    simp only [List.forall_mem_cons] at hnumbers
    refine separate_line ⟨?_, by simp [colorLexemes, channelLexemes, Lexeme.touches]⟩
    simp [colorLexemes, channelLexemes, Lexeme.isValid, hnumbers, isWord, isWordStart, isWordChar,
      isMark, isSpace]
  | loadFonts styles => exact separate_loadFonts styles
  | create node =>
    have hname : Separate [.word "const", .blank ' ', .word node.variable, .blank ' ', .mark '=',
        .blank ' '] := by
      refine ⟨?_, by simp [Lexeme.touches]⟩
      simp only [List.forall_mem_cons, Lexeme.isValid, isWord_variable]
      decide +kernel
    -- The blank behind `=` keeps the value apart from what comes before.
    have hvalue := hname.append_of_blank (separate_creation node) rfl
    exact separate_line (hvalue.append_mark (by decide) (by decide))
  | resize width height =>
    refine separate_line ⟨?_, by simp [Lexeme.touches]⟩
    simp only [List.forall_mem_cons, Lexeme.isValid, h.1, h.2]
    decide +kernel
  | assign node property value =>
    have hname : Separate [.word node.variable, .mark '.', .word property.text, .blank ' ',
        .mark '=', .blank ' '] := by
      refine ⟨?_, by simp [Lexeme.touches]⟩
      simp [Lexeme.isValid, isWord_variable, isWord_property, isMark, isSpace]
    have hvalue : Separate (literalLexemes value) := separate_literal fun x hx => by
      subst hx
      exact h
    exact separate_line ((hname.append_of_blank hvalue rfl).append_mark (by decide) (by decide))
  | append index =>
    refine separate_line ⟨?_, by simp [Lexeme.touches]⟩
    simp only [List.forall_mem_cons, Lexeme.isValid, isWord_variable]
    decide +kernel
  | finish => exact separate_line ⟨by decide +kernel, by simp [Lexeme.touches]⟩

/-- **The tokens of a script**, statement by statement. -/
theorem tokens?_emit {frame : Frame} (h : ∀ s ∈ frame.statements, FiniteNumbers s) :
    tokens? frame.emit.toList =
      some (opening ++ frame.statements.flatMap (fun s => (statementLexemes s).flatMap Lexeme.tokens)
        ++ closing) := by
  -- Each statement ends with a line feed, so none runs into the next.
  have hbody : Separate (frame.statements.flatMap statementLexemes) :=
    separate_flatMap fun s hs => ⟨separate_statement (h s hs), getLast?_statementLexemes s⟩
  have hopen : Separate [.mark '(', .word "async", .blank ' ', .mark '(', .mark ')', .blank ' ',
      .arrow, .blank ' ', .mark '\x7b', .blank '\n'] :=
    ⟨by decide +kernel, by simp [Lexeme.touches]⟩
  have hclose : Separate [.mark '\x7d', .mark ')', .mark '(', .mark ')'] :=
    ⟨by simp [Lexeme.isValid, isMark], by simp [Lexeme.touches]⟩
  have hscript : Separate (scriptLexemes frame.statements) := by
    refine (hopen.append_of_blank hbody rfl).append hclose fun l _ l' hl' => ?_
    cases hl'
    exact touches_mark l (by decide)
  rw [← textOf_script, textOf, tokens?_of_lexemes hscript, scriptLexemes, List.flatMap_append,
    List.flatMap_append, List.flatMap_assoc]
  rfl

end CanvasLink.Script
