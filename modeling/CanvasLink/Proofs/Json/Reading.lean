import CanvasLink.Json.Source
import CanvasLink.Proofs.Json.Lexing
import Mathlib.Data.String.Basic

/-!
# CanvasLink — a JSON value that is written and read again

The text of a value is read to its end, into a source of the same structure (`Value.source`). What
can differ from the value is told by two things: how deep arrays and objects are nested, since those
that lie too deep have no value, and what each number is read as.

* `Value.tokens_compactChars` — the tokens of a written value.
* `assemble_tokens` — the machine takes the tokens of a value as one value.
* **`Document.read_compactChars`** — a written value is read to its end.
* **`Value.value?_source_iff`** — when it is read as itself; `Value.readsBack_of_isShort` — a
  condition that can be seen from its text.
-/

namespace CanvasLink.Json

open Decimal (StopsNumeral)

namespace Value

mutual

/-- The tokens of a value's text. -/
def tokens : Value → List Token
  | null => [.null]
  | boolean b => [.boolean b]
  | number n => [.number n.reread?]
  | string s => [.string (some s)]
  | array [] => [.openArray, .closeArray]
  | array (item :: items) => .openArray :: tokens item ++ itemTokens items ++ [.closeArray]
  | object [] => [.openObject, .closeObject]
  | object ((key, value) :: members) =>
    .openObject :: .string (some key) :: .colon :: tokens value ++ memberTokens members ++
      [.closeObject]

/-- Items behind the first one. -/
def itemTokens : List Value → List Token
  | [] => []
  | item :: items => .comma :: tokens item ++ itemTokens items

/-- Members behind the first one. -/
def memberTokens : List (String × Value) → List Token
  | [] => []
  | (key, value) :: members =>
    .comma :: .string (some key) :: .colon :: tokens value ++ memberTokens members

end

mutual

/-- The numbers in a value. -/
def numbers : Value → List Number
  | number n => [n]
  | array items => itemNumbers items
  | object members => memberNumbers members
  | _ => []

def itemNumbers : List Value → List Number
  | [] => []
  | item :: items => numbers item ++ itemNumbers items

def memberNumbers : List (String × Value) → List Number
  | [] => []
  | (_, value) :: members => numbers value ++ memberNumbers members

end

/-! ## Tokens -/

/-- A numeral ends in front of a mark. -/
theorem stopsNumeral_cons {c : Char} (h : c ∈ [',', ']', '\x7d']) (s : List Char) :
    StopsNumeral (c :: s) := by
  rintro _ ⟨⟩
  simp only [List.mem_cons, List.not_mem_nil, or_false] at h
  rcases h with rfl | rfl | rfl <;> decide

/-- A numeral ends in front of further items, or where it ends without them. -/
theorem stopsNumeral_compactItems (items : List Value) {s : List Char} (hs : StopsNumeral s) :
    StopsNumeral (compactItems items ++ s) := by
  cases items with
  | nil => exact hs
  | cons item items => exact stopsNumeral_cons (by decide) _

/-- A numeral ends in front of further members, or where it ends without them. -/
theorem stopsNumeral_compactMembers (members : List (String × Value)) {s : List Char}
    (hs : StopsNumeral s) : StopsNumeral (compactMembers members ++ s) := by
  cases members with
  | nil => exact hs
  | cons member members => exact stopsNumeral_cons (by decide) _

mutual

/-- The compact form of a value has the tokens of the value, whatever follows it. -/
theorem tokens_compactChars : ∀ {v : Value}, (∀ n ∈ v.numbers, n.IsProper) →
    ∀ {s : List Char}, StopsNumeral s →
      Json.tokens (v.compactChars ++ s) = v.tokens ++ Json.tokens s
  | null, _, s, _ => tokens_cons rfl rfl
  | boolean true, _, s, _ => tokens_cons rfl rfl
  | boolean false, _, s, _ => tokens_cons rfl rfl
  | number n, h, s, hs => tokens_number (h n (by simp [numbers])) hs
  | string t, _, s, _ => tokens_quoteString t s
  | array [], _, s, _ => by
    show Json.tokens ('[' :: ']' :: s) = _
    rw [tokens_cons rfl rfl, tokens_cons rfl rfl]
    rfl
  | array (item :: items), h, s, _ => by
    obtain ⟨hnumbers, hothers⟩ := List.forall_mem_append.1 h
    have hclose : Json.tokens (']' :: s) = .closeArray :: Json.tokens s := tokens_cons rfl rfl
    have hrest := tokens_compactItems hothers (stopsNumeral_cons (c := ']') (by decide) s)
    have hitem := tokens_compactChars hnumbers
      (stopsNumeral_compactItems items (stopsNumeral_cons (c := ']') (by decide) s))
    simp only [compactChars, tokens, List.cons_append, List.append_assoc, List.nil_append]
    rw [tokens_cons rfl rfl, hitem, hrest, hclose]
  | object [], _, s, _ => by
    show Json.tokens ('\x7b' :: '\x7d' :: s) = _
    rw [tokens_cons rfl rfl, tokens_cons rfl rfl]
    rfl
  | object ((key, value) :: members), h, s, _ => by
    obtain ⟨hnumbers, hothers⟩ := List.forall_mem_append.1 h
    have hclose : Json.tokens ('\x7d' :: s) = .closeObject :: Json.tokens s := tokens_cons rfl rfl
    have hrest := tokens_compactMembers hothers (stopsNumeral_cons (c := '\x7d') (by decide) s)
    have hvalue := tokens_compactChars hnumbers
      (stopsNumeral_compactMembers members (stopsNumeral_cons (c := '\x7d') (by decide) s))
    simp only [compactChars, tokens, List.cons_append, List.append_assoc, List.nil_append]
    rw [tokens_cons rfl rfl, tokens_quoteString, tokens_cons rfl rfl, hvalue, hrest, hclose]

theorem tokens_compactItems : ∀ {items : List Value}, (∀ n ∈ itemNumbers items, n.IsProper) →
    ∀ {s : List Char}, StopsNumeral s →
      Json.tokens (compactItems items ++ s) = itemTokens items ++ Json.tokens s
  | [], _, s, _ => rfl
  | item :: items, h, s, hs => by
    obtain ⟨hnumbers, hothers⟩ := List.forall_mem_append.1 h
    have hitem := tokens_compactChars hnumbers (stopsNumeral_compactItems items hs)
    have hrest := tokens_compactItems hothers hs
    simp only [compactItems, itemTokens, List.cons_append, List.append_assoc]
    rw [tokens_cons rfl rfl, hitem, hrest]

theorem tokens_compactMembers : ∀ {members : List (String × Value)},
    (∀ n ∈ memberNumbers members, n.IsProper) → ∀ {s : List Char}, StopsNumeral s →
      Json.tokens (compactMembers members ++ s) = memberTokens members ++ Json.tokens s
  | [], _, s, _ => rfl
  | (key, value) :: members, h, s, hs => by
    obtain ⟨hnumbers, hothers⟩ := List.forall_mem_append.1 h
    have hvalue := tokens_compactChars hnumbers (stopsNumeral_compactMembers members hs)
    have hrest := tokens_compactMembers hothers hs
    simp only [compactMembers, memberTokens, List.cons_append, List.append_assoc]
    rw [tokens_cons rfl rfl, tokens_quoteString, tokens_cons rfl rfl, hvalue, hrest]

end

/-! ## Sources -/

/-- What a number is read as, as a place in a text. -/
def numberSource : Option Number → Source
  | some n => .number n
  | none => .unreadable

/-- An array or object inside so many others. -/
def nested (depth : Nat) (source : Source) : Source :=
  if depth < maxDepth then source else .unreadable

mutual

/-- What the text of a value says, inside so many arrays and objects. -/
def source (depth : Nat) : Value → Source
  | null => .null
  | boolean b => .boolean b
  | number n => numberSource n.reread?
  | string s => .string s
  | array items => nested depth (.array (itemSources (depth + 1) items) true)
  | object members => nested depth (.object (memberSources (depth + 1) members) true)

def itemSources (depth : Nat) : List Value → List Source
  | [] => []
  | item :: items => source depth item :: itemSources depth items

def memberSources (depth : Nat) : List (String × Value) → List (String × Source)
  | [] => []
  | (key, value) :: members => (key, source depth value) :: memberSources depth members

end

end Value

open Value

/-- A source behind open brackets is too deep if there are too many of these. -/
theorem limitDepth_eq (stack : List Open) (source : Source) :
    limitDepth stack source = nested stack.length source := by
  unfold limitDepth nested
  congr 1
  simp only [List.isEmpty_iff, List.drop_eq_nil_iff, maxDepth]
  exact propext ⟨fun h => by omega, fun h => by omega⟩

/-- How reading goes on. -/
def Progress.resume (tokens : List Token) (stack : List Open) : Progress → Source × Bool
  | .more stack expectation => assemble stack expectation tokens
  | .done value => (value, tokens.isEmpty)
  | .stuck => (breakOff .unreadable stack, false)

theorem assemble_cons (stack : List Open) (expectation : Expectation) (token : Token)
    (tokens : List Token) :
    assemble stack expectation (token :: tokens) =
      (advance stack expectation token).resume tokens stack := by
  rw [assemble]
  cases advance stack expectation token <;> rfl

/-- No value starts with the end of an array. -/
theorem assemble_firstItem (v : Value) (stack : List Open) (tokens : List Token) :
    assemble stack .firstItem (v.tokens ++ tokens) = assemble stack .value (v.tokens ++ tokens) := by
  cases v with
  | array items => cases items <;> rfl
  | object members =>
    cases members with
    | nil => rfl
    | cons member members => rfl
  | _ => rfl

mutual

/-- **The tokens of a value** are taken as one value. -/
theorem assemble_tokens : ∀ (v : Value) (stack : List Open) (tokens : List Token),
    assemble stack .value (v.tokens ++ tokens) =
      (deliver (v.source stack.length) stack).resume tokens stack
  | .null, stack, tokens => assemble_cons ..
  | .boolean b, stack, tokens => assemble_cons ..
  | .number n, stack, tokens => by
    show assemble stack .value (.number n.reread? :: tokens) = _
    rw [assemble_cons, Value.source]
    cases n.reread? <;> rfl
  | .string s, stack, tokens => assemble_cons ..
  | .array [], stack, tokens => by
    show assemble stack .value (.openArray :: .closeArray :: tokens) = _
    rw [assemble_cons]
    show assemble (.array [] :: stack) .firstItem (.closeArray :: tokens) = _
    rw [assemble_cons]
    show (deliver (limitDepth stack (.array [] true)) stack).resume tokens _ = _
    rw [limitDepth_eq]
    cases stack <;> rfl
  | .array (item :: items), stack, tokens => by
    have hitem := assemble_tokens item (.array [] :: stack)
      (itemTokens items ++ .closeArray :: tokens)
    have hrest := assemble_itemTokens items [item.source (stack.length + 1)] stack tokens
    simp only [Value.tokens, List.cons_append, List.append_assoc, List.nil_append]
    rw [assemble_cons]
    show assemble (.array [] :: stack) .firstItem _ = _
    rw [assemble_firstItem, hitem]
    -- The first item has been delivered to the array, and the others go behind it.
    exact hrest
  | .object [], stack, tokens => by
    show assemble stack .value (.openObject :: .closeObject :: tokens) = _
    rw [assemble_cons]
    show assemble (.object [] true :: stack) .firstKey (.closeObject :: tokens) = _
    rw [assemble_cons]
    show (deliver (limitDepth stack (.object [] true)) stack).resume tokens _ = _
    rw [limitDepth_eq]
    cases stack <;> rfl
  | .object ((key, value) :: members), stack, tokens => by
    have hvalue := assemble_tokens value (.member [] true (some key) :: stack)
      (memberTokens members ++ .closeObject :: tokens)
    have hrest := assemble_memberTokens members [(key, value.source (stack.length + 1))] stack tokens
    simp only [Value.tokens, List.cons_append, List.append_assoc, List.nil_append]
    rw [assemble_cons]
    show assemble (.object [] true :: stack) .firstKey (.string (some key) :: .colon :: _) = _
    rw [assemble_cons]
    show assemble (.member [] true (some key) :: stack) .colon (.colon :: _) = _
    rw [assemble_cons]
    show assemble (.member [] true (some key) :: stack) .value _ = _
    rw [hvalue]
    exact hrest

/-- Items behind those that an array already has, up to its end. -/
theorem assemble_itemTokens : ∀ (items : List Value) (before : List Source) (stack : List Open)
    (tokens : List Token),
    assemble (.array before :: stack) .next (itemTokens items ++ .closeArray :: tokens) =
      (deliver (nested stack.length
        (.array (before.reverse ++ itemSources (stack.length + 1) items) true)) stack).resume
          tokens stack
  | [], before, stack, tokens => by
    show assemble (.array before :: stack) .next (.closeArray :: tokens) = _
    rw [assemble_cons]
    show (deliver (limitDepth stack (.array before.reverse true)) stack).resume tokens _ = _
    rw [limitDepth_eq, itemSources, List.append_nil]
    cases stack <;> rfl
  | item :: items, before, stack, tokens => by
    have hitem := assemble_tokens item (.array before :: stack)
      (itemTokens items ++ .closeArray :: tokens)
    have hrest := assemble_itemTokens items (item.source (stack.length + 1) :: before) stack tokens
    rw [List.reverse_cons, List.append_assoc, List.singleton_append] at hrest
    simp only [itemTokens, List.cons_append, List.append_assoc]
    rw [assemble_cons]
    show assemble (.array before :: stack) .value _ = _
    rw [hitem]
    exact hrest

/-- Members behind those that an object already has, up to its end. -/
theorem assemble_memberTokens : ∀ (members : List (String × Value))
    (before : List (String × Source)) (stack : List Open) (tokens : List Token),
    assemble (.object before true :: stack) .next (memberTokens members ++ .closeObject :: tokens) =
      (deliver (nested stack.length
        (.object (before.reverse ++ memberSources (stack.length + 1) members) true)) stack).resume
          tokens stack
  | [], before, stack, tokens => by
    show assemble (.object before true :: stack) .next (.closeObject :: tokens) = _
    rw [assemble_cons]
    show (deliver (limitDepth stack (.object before.reverse true)) stack).resume tokens _ = _
    rw [limitDepth_eq, memberSources, List.append_nil]
    cases stack <;> rfl
  | (key, value) :: members, before, stack, tokens => by
    have hvalue := assemble_tokens value (.member before true (some key) :: stack)
      (memberTokens members ++ .closeObject :: tokens)
    have hrest := assemble_memberTokens members ((key, value.source (stack.length + 1)) :: before)
      stack tokens
    rw [List.reverse_cons, List.append_assoc, List.singleton_append] at hrest
    simp only [memberTokens, List.cons_append, List.append_assoc]
    rw [assemble_cons]
    show assemble (.object before true :: stack) .key (.string (some key) :: .colon :: _) = _
    rw [assemble_cons]
    show assemble (.member before true (some key) :: stack) .colon (.colon :: _) = _
    rw [assemble_cons]
    show assemble (.member before true (some key) :: stack) .value _ = _
    rw [hvalue]
    exact hrest

end

/-- **A written value is read to its end.** -/
theorem Document.read_compactChars {v : Value} (h : ∀ n ∈ v.numbers, n.IsProper) :
    Document.read v.compactChars = ⟨v.source 0, true⟩ := by
  have htokens := tokens_compactChars h (s := []) (by simp [StopsNumeral])
  rw [tokens_nil, List.append_nil] at htokens
  rw [Document.read, htokens, assemble_tokens]
  rfl

/-- The compact form of a value is read as its source, with nothing behind it. -/
theorem Document.read_compact {v : Value} (h : ∀ n ∈ v.numbers, n.IsProper) :
    Document.read v.compact.toList = ⟨v.source 0, true⟩ := by
  rw [Value.compact, String.toList_ofList]
  exact Document.read_compactChars h

/-! ### Texts in an array -/

/-- In a list of texts there are no numbers. -/
theorem Value.itemNumbers_string (strings : List String) :
    itemNumbers (strings.map .string) = [] := by
  induction strings with
  | nil => rfl
  | cons s strings ih => exact ih

/-- In a list of texts nothing is nested. -/
theorem Value.itemSources_string (depth : Nat) (strings : List String) :
    itemSources depth (strings.map .string) = strings.map .string := by
  induction strings with
  | nil => rfl
  | cons s strings ih =>
    rw [List.map_cons, itemSources, ih]
    rfl

/-! ## Read as itself -/

/-! ### Ascending keys -/

/-- A key behind all others is put at the end. -/
theorem insert_of_forall_lt {α : Type} {key : String} {value : α} {members : List (String × α)}
    (h : ∀ member ∈ members, member.1 < key) :
    insert key value members = members ++ [(key, value)] := by
  induction members with
  | nil => rfl
  | cons member members ih =>
    obtain ⟨hlt, hrest⟩ := List.forall_mem_cons.1 h
    rw [insert, if_neg (not_lt_of_gt hlt), if_neg hlt.ne', ih hrest]
    rfl

/-- Members that ascend already stay as they are. -/
theorem sortMembers_eq {α : Type} {members : List (String × α)}
    (h : (members.map Prod.fst).Pairwise (· < ·)) : sortMembers members = members := by
  -- From the end, where the last member goes behind all others.
  induction members using List.reverseRecOn with
  | nil => rfl
  | append_singleton members member ih =>
    rw [List.map_append, List.pairwise_append] at h
    obtain ⟨hbefore, -, hlast⟩ := h
    have hsorted : sortMembers (members ++ [member]) =
        insert member.1 member.2 (sortMembers members) := by
      rw [sortMembers, List.foldl_append]
      rfl
    rw [hsorted, ih hbefore]
    exact insert_of_forall_lt fun other hother =>
      hlast _ (List.mem_map_of_mem hother) _ (by simp)

namespace Value

mutual

/-- How deep arrays and objects are nested in a value. -/
def height : Value → Nat
  | array items => itemsHeight items + 1
  | object members => membersHeight members + 1
  | _ => 0

def itemsHeight : List Value → Nat
  | [] => 0
  | item :: items => max (height item) (itemsHeight items)

def membersHeight : List (String × Value) → Nat
  | [] => 0
  | (_, value) :: members => max (height value) (membersHeight members)

end

mutual

/-- In every object of a value the keys ascend. -/
def IsSorted : Value → Prop
  | array items => ItemsSorted items
  | object members => (members.map Prod.fst).Pairwise (· < ·) ∧ MembersSorted members
  | _ => True

def ItemsSorted : List Value → Prop
  | [] => True
  | item :: items => IsSorted item ∧ ItemsSorted items

def MembersSorted : List (String × Value) → Prop
  | [] => True
  | (_, value) :: members => IsSorted value ∧ MembersSorted members

end

/-- What is nested is read exactly if it is not too deep. -/
theorem value?_nested {depth : Nat} {source : Source} {v : Value} :
    (nested depth source).value? = some v ↔ depth < maxDepth ∧ source.value? = some v := by
  unfold nested
  split
  · next h => exact (and_iff_right h).symm
  · next h => exact ⟨nofun, fun hread => absurd hread.1 h⟩

/-- Keys are read as they are. -/
theorem keys_memberSources {depth : Nat} {members : List (String × Value)}
    {read : List (String × Value)} (h : memberValues? (memberSources depth members) = some read) :
    read.map Prod.fst = members.map Prod.fst := by
  induction members generalizing read with
  | nil =>
    cases h
    rfl
  | cons member members ih =>
    obtain ⟨value, -, values, hvalues, hread⟩ : ∃ value, _ ∧ ∃ values, _ ∧ _ := by
      simpa only [memberSources, memberValues?, Option.bind_eq_bind, Option.bind_eq_some_iff] using h
    cases hread
    rw [List.map_cons, List.map_cons, ih hvalues]

mutual

/-- **A value is read as itself** exactly if nothing in it lies too deep and each of its numbers is
read as itself. -/
theorem value?_source_iff : ∀ {v : Value}, v.IsSorted → ∀ {depth : Nat}, depth ≤ maxDepth →
    ((v.source depth).value? = some v ↔
      depth + v.height ≤ maxDepth ∧ ∀ n ∈ v.numbers, n.reread? = some n)
  | null, _, depth, hdepth => iff_of_true rfl ⟨hdepth, by simp [numbers]⟩
  | boolean b, _, depth, hdepth => iff_of_true rfl ⟨hdepth, by simp [numbers]⟩
  | string s, _, depth, hdepth => iff_of_true rfl ⟨hdepth, by simp [numbers]⟩
  | number n, _, depth, hdepth => by
    have hread : (numberSource n.reread?).value? = some (number n) ↔ n.reread? = some n := by
      cases n.reread? <;> simp [numberSource, Source.value?]
    rw [source, hread]
    simp [numbers, height, hdepth]
  | array items, h, depth, _ => by
    rw [source, value?_nested]
    have hitems (hlt : depth + 1 ≤ maxDepth) := itemValues?_itemSources_iff h hlt
    simp only [Source.value?, if_true, Option.map_eq_some_iff, array.injEq, exists_eq_right, height,
      numbers]
    constructor
    · rintro ⟨hlt, hread⟩
      obtain ⟨hheight, hnumbers⟩ := (hitems hlt).1 hread
      exact ⟨by omega, hnumbers⟩
    · rintro ⟨hheight, hnumbers⟩
      exact ⟨by omega, (hitems (by omega)).2 ⟨by omega, hnumbers⟩⟩
  | object members, h, depth, _ => by
    rw [source, value?_nested]
    have hmembers (hlt : depth + 1 ≤ maxDepth) := memberValues?_memberSources_iff h.2 hlt
    -- What is read has the same keys, so that they need no sorting.
    have hsorted : (Source.object (memberSources (depth + 1) members) true).value? =
        some (object members) ↔ memberValues? (memberSources (depth + 1) members) = some members := by
      simp only [Source.value?, if_true, Option.map_eq_some_iff, sorted, object.injEq]
      constructor
      · rintro ⟨read, hread, hsort⟩
        rw [sortMembers_eq (keys_memberSources hread ▸ h.1)] at hsort
        rw [hread, hsort]
      · exact fun hread => ⟨members, hread, sortMembers_eq h.1⟩
    rw [hsorted]
    simp only [height, numbers]
    constructor
    · rintro ⟨hlt, hread⟩
      obtain ⟨hheight, hnumbers⟩ := (hmembers hlt).1 hread
      exact ⟨by omega, hnumbers⟩
    · rintro ⟨hheight, hnumbers⟩
      exact ⟨by omega, (hmembers (by omega)).2 ⟨by omega, hnumbers⟩⟩

/-- Items read as themselves exactly if they are not too deep and their numbers do. -/
theorem itemValues?_itemSources_iff : ∀ {items : List Value}, ItemsSorted items →
    ∀ {depth : Nat}, depth ≤ maxDepth →
      (itemValues? (itemSources depth items) = some items ↔
        depth + itemsHeight items ≤ maxDepth ∧ ∀ n ∈ itemNumbers items, n.reread? = some n)
  | [], _, depth, hdepth => iff_of_true rfl ⟨hdepth, by simp [itemNumbers]⟩
  | item :: items, h, depth, hdepth => by
    have hitem := value?_source_iff h.1 hdepth
    have hrest := itemValues?_itemSources_iff h.2 hdepth
    have hsplit : itemValues? (itemSources depth (item :: items)) = some (item :: items) ↔
        (item.source depth).value? = some item ∧
          itemValues? (itemSources depth items) = some items := by
      simp [itemSources, itemValues?, Option.bind_eq_some_iff]
    rw [hsplit, hitem, hrest]
    simp only [itemsHeight, itemNumbers, List.forall_mem_append]
    constructor
    · rintro ⟨⟨hheight, hnumbers⟩, hheights, hall⟩
      exact ⟨by omega, hnumbers, hall⟩
    · rintro ⟨hheight, hnumbers, hall⟩
      exact ⟨⟨by omega, hnumbers⟩, by omega, hall⟩

/-- The same for the members of an object. -/
theorem memberValues?_memberSources_iff : ∀ {members : List (String × Value)},
    MembersSorted members → ∀ {depth : Nat}, depth ≤ maxDepth →
      (memberValues? (memberSources depth members) = some members ↔
        depth + membersHeight members ≤ maxDepth ∧
          ∀ n ∈ memberNumbers members, n.reread? = some n)
  | [], _, depth, hdepth => iff_of_true rfl ⟨hdepth, by simp [memberNumbers]⟩
  | (key, value) :: members, h, depth, hdepth => by
    have hvalue := value?_source_iff h.1 hdepth
    have hrest := memberValues?_memberSources_iff h.2 hdepth
    have hsplit : memberValues? (memberSources depth ((key, value) :: members)) =
        some ((key, value) :: members) ↔ (value.source depth).value? = some value ∧
          memberValues? (memberSources depth members) = some members := by
      simp [memberSources, memberValues?, Option.bind_eq_some_iff]
    rw [hsplit, hvalue, hrest]
    simp only [membersHeight, memberNumbers, List.forall_mem_append]
    constructor
    · rintro ⟨⟨hheight, hnumbers⟩, hheights, hall⟩
      exact ⟨by omega, hnumbers, hall⟩
    · rintro ⟨hheight, hnumbers, hall⟩
      exact ⟨⟨by omega, hnumbers⟩, by omega, hall⟩

end

/-- The values that can be in memory. -/
structure IsProper (v : Value) : Prop where
  numbers : ∀ n ∈ v.numbers, n.IsProper
  sorted : v.IsSorted

/-- Nothing is lost of the value when it is written and read inside so many arrays and objects: none
of its own lies too deep, and each of its floating-point numbers is read as itself. -/
def ReadsBack (depth : Nat) (v : Value) : Prop :=
  depth + v.height ≤ maxDepth ∧
    ∀ x, Number.real x ∈ v.numbers → (Number.real x).reread? = some (.real x)

/-- The source of a value reads as the value exactly if it reads back at its depth. -/
theorem value?_source_iff_readsBack {v : Value} (h : v.IsProper) {depth : Nat}
    (hdepth : depth ≤ maxDepth) : (v.source depth).value? = some v ↔ v.ReadsBack depth := by
  rw [value?_source_iff h.sorted hdepth, ReadsBack]
  refine and_congr_right fun _ => ⟨fun hall x hx => hall _ hx, fun hall n hn => ?_⟩
  cases n with
  | integer i => exact Number.reread?_integer (h.numbers _ hn)
  | real x => exact hall x hn

/-- Nothing is lost of a value whose floating-point numbers have few digits. -/
theorem readsBack_of_isShort {v : Value} (h : v.IsProper) {depth : Nat}
    (hheight : depth + v.height ≤ maxDepth)
    (hshort : ∀ x, Number.real x ∈ v.numbers →
      ∃ d, Number.IsRealDigits x d ∧ Number.IsShort d) : v.ReadsBack depth := by
  refine ⟨hheight, fun x hx => ?_⟩
  obtain ⟨d, hd, hd'⟩ := hshort x hx
  exact Number.reread?_real (h.numbers _ hx) hd hd'

end Value

end CanvasLink.Json
