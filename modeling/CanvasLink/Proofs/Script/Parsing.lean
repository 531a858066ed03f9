import CanvasLink.Proofs.Script.Writing

/-!
# CanvasLink — the statements of a script's text

The reader of statements finds in a script the statements it was written from, one for each, read
as the language reads them (`stmtOf`).

* `Parses` — tokens that are read as one expression, whatever closes it behind them.
* **`program?_emit`** — the headline.
-/

namespace CanvasLink.Script

open CanvasLink.Markup

/-! ## What a script says -/

def fontExpr (style : FontStyle) : Expr :=
  .object ["family", "style"] [.text fontFamily, .text style.name]

def paintExpr (color : Color) : Expr :=
  .list [.object ["type", "color"]
    [.text "SOLID", .call ["rgb"] [.text (String.ofList color.toHex)]]]

def literalExpr : Literal → Expr
  | .string value => .text value
  | .number value => .number value
  | .boolean b => .boolean b
  | .font style => fontExpr style
  | .solid color => paintExpr color

def creationExpr : Node → Expr
  | .frame => .call ["figma", "createFrame"] []
  | .leaf _ => .call ["figma", "createText"] []

def loadExpr (style : FontStyle) : Expr :=
  .call ["figma", "loadFontAsync"] [fontExpr style]

def stmtOf : Statement → Stmt
  | .defineColor => .colors
  | .loadFonts styles => .wait (.call ["Promise", "all"] [.list (styles.map loadExpr)])
  | .create node => .constant node.variable (creationExpr node)
  | .resize width height => .evaluate (.call ["frame", "resize"] [.number width, .number height])
  | .assign node property value => .assign [node.variable, property.text] (literalExpr value)
  | .append index =>
    .evaluate (.call ["frame", "appendChild"] [.path [(Node.leaf index).variable]])
  | .finish => .result (.object ["id", "name"] [.path ["frame", "id"], .path ["frame", "name"]])

/-! ## Expressions -/

/-- The tokens are read as an expression with fuel from `least` on, whatever closes it. -/
def Parses (least : Nat) (tokens : List Token) (e : Expr) : Prop :=
  ∀ fuel rest, least ≤ fuel → (∀ t ∈ rest.head?, t ∈ [.mark ',', .mark ')', .mark ']', .mark '\x7d']) →
    expr? fuel (tokens ++ rest) = some (e, rest)

/-- The tokens of a number are read as it, sign and all. -/
theorem parses_number {x : Float} (h : x.isFinite = true) : Parses 1 (numberTokens x) (.number x) := by
  intro fuel rest hfuel _
  obtain ⟨fuel, rfl⟩ := Nat.exists_eq_add_of_le hfuel
  rw [Nat.add_comm, numberTokens]
  split
  · simp [expr?, Decimal.neg_neg_of_isFinite h]
  · simp [expr?]

def tokensOf (lexemes : List Lexeme) : List Token :=
  lexemes.flatMap Lexeme.tokens

/-- The tokens of a font are read as its object. -/
theorem parses_font (style : FontStyle) :
    Parses 4 (tokensOf (fontLexemes style)) (fontExpr style) := by
  intro fuel rest hfuel _
  obtain ⟨fuel, rfl⟩ := Nat.exists_eq_add_of_le hfuel
  rw [Nat.add_comm]
  simp [tokensOf, fontLexemes, Lexeme.tokens, fontExpr, expr?, members?]

/-- The tokens of a paint are read as its list. -/
theorem parses_paint (color : Color) :
    Parses 8 (tokensOf (paintLexemes color)) (paintExpr color) := by
  intro fuel rest hfuel _
  obtain ⟨fuel, rfl⟩ := Nat.exists_eq_add_of_le hfuel
  rw [Nat.add_comm]
  simp [tokensOf, paintLexemes, Lexeme.tokens, paintExpr, expr?, members?, items?, trail]

theorem items?_cons {fuel : Nat} {close : Char} {tokens rest : List Token} {item : Expr}
    (hhead : tokens.head? ≠ some (.mark close))
    (h : expr? fuel tokens = some (item, .mark ',' :: rest)) :
    items? (fuel + 1) close tokens =
      (items? fuel close rest).map fun (items, rest) => (item :: items, rest) := by
  rw [items?, if_neg hhead, h]
  simp

theorem items?_last {fuel : Nat} {close : Char} {tokens rest : List Token} {item : Expr}
    (hclose : close ≠ ',') (hhead : tokens.head? ≠ some (.mark close))
    (h : expr? fuel tokens = some (item, .mark close :: rest)) :
    items? (fuel + 1) close tokens = some ([item], rest) := by
  rw [items?, if_neg hhead, h]
  simp [hclose]

theorem numberTokens_head? (x : Float) {close : Char} (hclose : close ≠ '-') (rest : List Token) :
    (numberTokens x ++ rest).head? ≠ some (.mark close) := by
  rw [numberTokens]
  split <;> simp [Ne.symm hclose]

/-- The loads of a group, each with its comma. Induction on the styles. -/
theorem items?_loads (styles : List FontStyle) (rest : List Token) :
    ∀ fuel, styles.length + 6 ≤ fuel →
      items? fuel ']' (styles.flatMap (fun style => tokensOf (loadLexemes style)) ++
        .mark ']' :: rest) = some (styles.map loadExpr, rest) := by
  induction styles with
  | nil =>
    intro fuel hfuel
    obtain ⟨fuel, rfl⟩ := Nat.exists_eq_add_of_le' hfuel
    simp [items?]
  | cons style styles ih =>
    intro fuel hfuel
    obtain ⟨fuel, rfl⟩ : ∃ n, fuel = n + 1 := ⟨fuel - 1, by omega⟩
    simp only [List.length_cons] at hfuel
    have hrest := ih fuel (by omega)
    -- One loading takes six units of fuel, however much follows.
    have hload (s : List Token) : expr? fuel (tokensOf (loadLexemes style) ++ s) =
        some (loadExpr style, .mark ',' :: s) := by
      obtain ⟨fuel, rfl⟩ : ∃ n, fuel = n + 6 := ⟨fuel - 6, by omega⟩
      simp [tokensOf, loadLexemes, line, fontLexemes, Lexeme.tokens, loadExpr, fontExpr, expr?,
        items?, members?, trail]
    have hhead (s : List Token) :
        (tokensOf (loadLexemes style) ++ s).head? ≠ some (.mark ']') := by
      simp [tokensOf, loadLexemes, line, Lexeme.tokens]
    rw [List.flatMap_cons, List.append_assoc, items?, if_neg (hhead _), hload]
    simp [hrest]

/-! ## Statements -/

/-- The tokens of a statement before its semicolon. -/
def statementTokens : Statement → List Token
  | .defineColor => colorTokens
  | .loadFonts styles =>
    [.word "await", .word "Promise", .mark '.', .word "all", .mark '(', .mark '['] ++
      styles.flatMap (fun style => tokensOf (loadLexemes style)) ++ [Token.mark ']', .mark ')']
  | .create node =>
    [Token.word "const", .word node.variable, .mark '='] ++ tokensOf (creationLexemes node)
  | .resize width height =>
    [Token.word "frame", .mark '.', .word "resize", .mark '('] ++ numberTokens width ++ [Token.mark ','] ++
      numberTokens height ++ [Token.mark ')']
  | .assign node property value =>
    [Token.word node.variable, .mark '.', .word property.text, .mark '='] ++
      tokensOf (literalLexemes value)
  | .append index =>
    [.word "frame", .mark '.', .word "appendChild", .mark '(', .word (Node.leaf index).variable,
     .mark ')']
  | .finish =>
    [.word "return", .mark '\x7b', .word "id", .mark ':', .word "frame", .mark '.', .word "id",
     .mark ',', .word "name", .mark ':', .word "frame", .mark '.', .word "name", .mark '\x7d']

theorem tokensOf_append (a b : List Lexeme) : tokensOf (a ++ b) = tokensOf a ++ tokensOf b :=
  List.flatMap_append

theorem tokensOf_line (lexemes : List Lexeme) : tokensOf (line lexemes) = tokensOf lexemes := by
  rw [line, tokensOf_append, tokensOf_append]
  simp [tokensOf, Lexeme.tokens]

/-- Every statement ends with a semicolon. -/
theorem tokensOf_statement (s : Statement) :
    tokensOf (statementLexemes s) = statementTokens s ++ [Token.mark ';'] := by
  cases s with
  | defineColor =>
    have hnumbers := channel_numbers
    simp only [List.forall_mem_cons] at hnumbers
    rw [statementLexemes, tokensOf_line]
    simp [tokensOf, colorLexemes, channelLexemes, Lexeme.tokens, numberTokens, hnumbers,
      statementTokens, colorTokens, channelTokens]
  | loadFonts styles =>
    simp only [statementLexemes, tokensOf_append, tokensOf_line]
    simp [tokensOf, Lexeme.tokens, statementTokens, List.flatMap_assoc]
  | resize width height =>
    rw [statementLexemes, tokensOf_line]
    simp [tokensOf, Lexeme.tokens, statementTokens]
  | _ =>
    simp only [statementLexemes, tokensOf_append, tokensOf_line]
    rfl

/-- Tokens that are read as an expression with enough fuel are so with their own number of fuel. -/
theorem whole?_of_parses {least : Nat} {tokens : List Token} {e : Expr} (h : Parses least tokens e)
    (hleast : least ≤ tokens.length) : whole? tokens = some e := by
  have hread := h tokens.length [] hleast (by simp)
  rw [List.append_nil] at hread
  rw [whole?, hread]

/-- The tokens of a literal are read as it. -/
theorem whole?_literal {value : Literal} (h : ∀ x, value = .number x → x.isFinite = true) :
    whole? (tokensOf (literalLexemes value)) = some (literalExpr value) := by
  cases value with
  | string value => rfl
  | number value =>
    have hread := parses_number (h value rfl)
    -- A number has at least one token, so the fuel `whole?` takes is enough.
    have hlength : 1 ≤ (numberTokens value).length := by
      rw [numberTokens]
      split <;> simp
    have htokens : tokensOf (literalLexemes (.number value)) = numberTokens value := by
      simp [tokensOf, literalLexemes, Lexeme.tokens]
    rw [htokens]
    exact whole?_of_parses hread hlength
  | boolean b => cases b <;> rfl
  | font style => exact whole?_of_parses (parses_font style) (by
      simp [tokensOf, literalLexemes, fontLexemes, Lexeme.tokens])
  | solid color =>
    refine whole?_of_parses (parses_paint color) ?_
    simp [tokensOf, literalLexemes, paintLexemes, Lexeme.tokens]

/-- The name of a node is none of the words with a meaning of their own. -/
theorem variable_notMem (node : Node) :
    node.variable ∉ ["const", "await", "return", "true", "false", "figma", "Promise", "rgb"] := by
  cases node with
  | frame => simp [Node.variable]
  | leaf index =>
    intro h
    have hmem := List.mem_map_of_mem (f := String.toList) h
    simp [Node.variable] at hmem

/-- A statement that begins with `const` binds a name. -/
theorem statement?_constant {name : String} {tokens : List Token} {e : Expr} (hname : name ≠ "rgb")
    (h : whole? tokens = some e) :
    statement? (.word "const" :: .word name :: .mark '=' :: tokens) = some (.constant name e) := by
  have hcolor : Token.word "const" :: .word name :: .mark '=' :: tokens ≠ colorTokens := by
    intro heq
    have hsecond := congrArg (·[1]?) heq
    exact hname (by simpa [colorTokens] using hsecond)
  simp [statement?, hcolor, h]

theorem statement?_wait {tokens : List Token} {e : Expr} (h : whole? tokens = some e) :
    statement? (.word "await" :: tokens) = some (.wait e) := by
  simp [statement?, colorTokens, h]

theorem statement?_result {tokens : List Token} {e : Expr} (h : whole? tokens = some e) :
    statement? (.word "return" :: tokens) = some (.result e) := by
  simp [statement?, colorTokens, h]

/-- A statement that begins with another word is an assignment or a call. -/
theorem statement?_word {name : String} (hname : name ∉ ["const", "await", "return"])
    (tokens : List Token) :
    statement? (.word name :: tokens) =
      match trail tokens with
      | (names, .mark '=' :: rest) => (whole? rest).map (.assign (name :: names))
      | _ => (whole? (.word name :: tokens)).map .evaluate := by
  -- The color function starts with `const`, which this statement does not.
  have hcolor : Token.word name :: tokens ≠ colorTokens := by
    intro heq
    have hfirst := congrArg (·[0]?) heq
    have hconst : name = "const" := by simpa [colorTokens] using hfirst
    exact hname (by simp [hconst])
  simp only [List.mem_cons, List.not_mem_nil, or_false, not_or] at hname
  obtain ⟨hconst, hawait, hreturn⟩ := hname
  unfold statement?
  rw [if_neg hcolor]
  split
  · next heq =>
    cases heq
    exact absurd rfl hconst
  · next heq =>
    cases heq
    exact absurd rfl hawait
  · next heq =>
    cases heq
    exact absurd rfl hreturn
  · next heq =>
    cases heq
    rfl
  · next hother => exact absurd rfl (hother name tokens)

theorem statement?_assign {name property : String} {tokens : List Token} {e : Expr}
    (hname : name ∉ ["const", "await", "return"]) (h : whole? tokens = some e) :
    statement? (.word name :: .mark '.' :: .word property :: .mark '=' :: tokens) =
      some (.assign [name, property] e) := by
  rw [statement?_word hname]
  simp [trail, h]

theorem statement?_call {name method : String} {tokens : List Token} {e : Expr}
    (hname : name ∉ ["const", "await", "return"])
    (h : whole? (.word name :: .mark '.' :: .word method :: .mark '(' :: tokens) = some e) :
    statement? (.word name :: .mark '.' :: .word method :: .mark '(' :: tokens) =
      some (.evaluate e) := by
  rw [statement?_word hname]
  simp [trail, h]

/-- The group of loads is read as one call with a list of calls. -/
theorem whole?_loads (styles : List FontStyle) :
    whole? ([.word "Promise", .mark '.', .word "all", .mark '(', .mark '['] ++
      (styles.flatMap (fun style => tokensOf (loadLexemes style)) ++ [Token.mark ']', .mark ')'])) =
        some (.call ["Promise", "all"] [.list (styles.map loadExpr)]) := by
  -- The fuel is counted in tokens, and every loading has fifteen.
  have hlength : (styles.flatMap fun style => tokensOf (loadLexemes style)).length =
      15 * styles.length := by
    induction styles with
    | nil => rfl
    | cons style styles ih =>
      rw [List.flatMap_cons, List.length_append, ih, List.length_cons]
      have hload : (tokensOf (loadLexemes style)).length = 15 := rfl
      omega
  have hread : Parses (styles.length + 9) ([.word "Promise", .mark '.', .word "all", .mark '(',
      .mark '['] ++ (styles.flatMap (fun style => tokensOf (loadLexemes style)) ++
        [Token.mark ']', .mark ')'])) (.call ["Promise", "all"] [.list (styles.map loadExpr)]) := by
    intro fuel rest hfuel _
    obtain ⟨fuel, rfl⟩ : ∃ n, fuel = n + 3 := ⟨fuel - 3, by omega⟩
    have hitems := items?_loads styles (.mark ')' :: rest) fuel (by omega)
    simp [expr?, trail, items?, hitems]
  cases styles with
  | nil => rfl
  | cons style styles =>
    refine whole?_of_parses hread ?_
    simp only [List.length_append, List.length_cons, List.length_nil] at hlength ⊢
    omega

/-- **A statement is read as what it says.** -/
theorem statement?_statementTokens {s : Statement} (h : FiniteNumbers s) :
    statement? (statementTokens s) = some (stmtOf s) := by
  have hframe : "frame" ∉ ["const", "await", "return"] := by simp
  cases s with
  | defineColor => exact if_pos rfl
  | loadFonts styles =>
    have hwhole := whole?_loads styles
    rw [← List.append_assoc] at hwhole
    exact statement?_wait hwhole
  | create node =>
    have hwhole : whole? (tokensOf (creationLexemes node)) = some (creationExpr node) := by
      cases node <;> rfl
    refine statement?_constant (fun hrgb => variable_notMem node ?_) hwhole
    simp [hrgb]
  | resize width height =>
    have hread : Parses 4 (statementTokens (.resize width height))
        (.call ["frame", "resize"] [.number width, .number height]) := by
      intro fuel rest hfuel _
      obtain ⟨fuel, rfl⟩ : ∃ n, fuel = n + 3 := ⟨fuel - 3, by omega⟩
      have hsecond := parses_number h.2 fuel (.mark ')' :: rest) (by omega) (by simp)
      have hfirst := parses_number h.1 (fuel + 1)
        (.mark ',' :: (numberTokens height ++ .mark ')' :: rest)) (by omega) (by simp)
      have hclose : ')' ≠ '-' := by decide
      -- Two numbers, either of which may start with a minus sign, but never with the closing
      -- bracket.
      have hitems := items?_cons (numberTokens_head? width hclose _) hfirst
      rw [items?_last (by decide) (numberTokens_head? height hclose _) hsecond] at hitems
      simp [statementTokens, expr?, trail, hitems]
    refine statement?_call hframe (whole?_of_parses hread ?_)
    simp
  | assign node property value =>
    have hname : node.variable ∉ ["const", "await", "return"] := fun hmem =>
      variable_notMem node (by simp at hmem ⊢; tauto)
    refine statement?_assign hname (whole?_literal fun x hx => ?_)
    subst hx
    exact h
  | append index =>
    have hname := variable_notMem (.leaf index)
    simp only [List.mem_cons, List.not_mem_nil, or_false, not_or] at hname
    refine statement?_call hframe ?_
    simp [whole?, expr?, trail, items?, hname]
  | finish => exact statement?_result rfl

/-! ## Programs -/

/-- A statement ends at its first semicolon. -/
theorem cut?_append {chunk : List Token} (h : .mark ';' ∉ chunk) (rest : List Token) :
    cut? (chunk ++ .mark ';' :: rest) = (cut? rest).map (chunk :: ·) := by
  induction chunk with
  | nil => rw [List.nil_append, cut?]
  | cons token chunk ih =>
    have htoken : token ≠ .mark ';' := fun heq => h (by simp [heq])
    have hrest := ih fun hmem => h (List.mem_cons_of_mem token hmem)
    rw [List.cons_append, cut?, hrest]
    · cases cut? rest <;> rfl
    · exact htoken

theorem semicolon_notMem_number (x : Float) : .mark ';' ∉ numberTokens x := by
  rw [numberTokens]
  split <;> simp

/-- A literal has no semicolon among its tokens, also if its text has one: that is one token. -/
theorem semicolon_notMem_literal (value : Literal) :
    .mark ';' ∉ tokensOf (literalLexemes value) := by
  cases value with
  | number value => simpa [tokensOf, literalLexemes, Lexeme.tokens] using
      semicolon_notMem_number value
  | _ => simp [tokensOf, literalLexemes, fontLexemes, paintLexemes, Lexeme.tokens]

/-- No semicolon stands inside a statement. -/
theorem semicolon_notMem (s : Statement) : .mark ';' ∉ statementTokens s := by
  cases s with
  | defineColor => simp [statementTokens, colorTokens, channelTokens]
  | loadFonts styles =>
    have hload (style : FontStyle) : .mark ';' ∉ tokensOf (loadLexemes style) := by
      simp [tokensOf, loadLexemes, line, fontLexemes, Lexeme.tokens]
    simp [statementTokens, hload]
  | create node => cases node <;> simp [statementTokens, tokensOf, creationLexemes, Lexeme.tokens]
  | resize width height => simp [statementTokens, semicolon_notMem_number]
  | assign node property value => simp [statementTokens, semicolon_notMem_literal]
  | append index => simp [statementTokens]
  | finish => simp [statementTokens]

/-- The body of a script stands between its opening and its closing. -/
theorem body?_append (tokens : List Token) :
    body? (opening ++ tokens ++ closing) = some tokens := by
  have hopen : opening <+: opening ++ tokens ++ closing := by
    rw [List.append_assoc]
    exact List.prefix_append _ _
  have hdrop : (opening ++ tokens ++ closing).drop opening.length = tokens ++ closing := by
    rw [List.append_assoc, List.drop_left]
  have hlength : (opening ++ tokens ++ closing).length - opening.length - closing.length =
      tokens.length := by
    simp only [List.length_append]
    omega
  rw [body?, hdrop, hlength, if_pos ⟨hopen, List.suffix_append _ _⟩, List.take_left]

/-- **A script is read as its statements.** -/
theorem program?_emit {frame : Frame} (h : ∀ s ∈ frame.statements, FiniteNumbers s) :
    program? frame.emit = some (frame.statements.map stmtOf) := by
  -- No statement has a semicolon inside, so cutting at them gives the statements.
  have hcut (statements : List Statement) :
      cut? (statements.flatMap fun s => statementTokens s ++ [Token.mark ';']) =
        some (statements.map statementTokens) := by
    induction statements with
    | nil => rfl
    | cons s statements ih =>
      rw [List.flatMap_cons, List.append_assoc, List.singleton_append,
        cut?_append (semicolon_notMem s), ih]
      rfl
  have hread (statements : List Statement) (h : ∀ s ∈ statements, FiniteNumbers s) :
      (statements.map statementTokens).mapM statement? = some (statements.map stmtOf) := by
    induction statements with
    | nil => rfl
    | cons s statements ih =>
      have hs := statement?_statementTokens (h s (by simp))
      have hrest := ih fun s' hs' => h s' (List.mem_cons_of_mem s hs')
      simp only [List.map_cons, List.mapM_cons, hs, hrest]
      rfl
  have htokens := tokens?_emit h
  have hsame : frame.statements.flatMap (fun s => (statementLexemes s).flatMap Lexeme.tokens) =
      frame.statements.flatMap fun s => statementTokens s ++ [Token.mark ';'] :=
    List.flatMap_congr fun s _ => tokensOf_statement s
  rw [hsame] at htokens
  simp only [program?, htokens, body?_append, hcut, hread _ h, Option.bind_eq_bind, Option.bind_some]

end CanvasLink.Script
