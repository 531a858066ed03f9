import CanvasLink.Proofs.Markup.Acceptance

/-!
# CanvasLink — what a document does not show

A document can be told more than it shows: comments, elements of unknown names and attributes of
unknown names leave its frame as it is. This module says where in a document there is room for them,
and that they are invisible there.

* `comment_iff` — the texts that make a comment between `<!--` and `-->`. A comment ends at the
  first `-->` counted from its own start, so that a few texts do not.
* `Balanced`, `BalancedElement` — elements that are balanced by their syntax. The reader, which
  counts tags of one name only, passes over them (`BalancedElement.passed`).
* `Spot`, `Invisible` — the kinds of places, and what cannot be seen there.
* `TagCut`, …, `Place` — the grammar once more, with a cut at a place of a kind. `Place.insert`
  fills the cut.
* **`parse_insert`** — the headline.
* `comment_visible` — a comment that is seen.
-/

namespace CanvasLink.Markup

open CanvasLink.Text

/-! ## Comments -/

/-- An end of a comment does not reach from a text into the end that follows. -/
theorem length_le_of_commentClose {a b : List Char} (hb : ¬ commentClose <:+: b)
    (h : a ++ commentClose <+: b ++ commentClose) : b.length ≤ a.length := by
  by_contra hlt
  have ha : a <+: b := by
    refine List.prefix_of_prefix_length_le ((List.prefix_append a _).trans h)
      (List.prefix_append b _) ?_
    omega
  obtain ⟨r, rfl⟩ := ha
  rw [List.append_assoc, List.prefix_append_right_inj] at h
  -- With less than three characters left, the third one would be a hyphen.
  rcases r with _ | ⟨x, _ | ⟨y, _ | ⟨z, r⟩⟩⟩
  · simp at hlt
  · simp [commentClose] at h
  · simp [commentClose] at h
  · refine hb ((List.IsPrefix.isInfix ?_).trans (List.suffix_append a _).isInfix)
    exact List.prefix_of_prefix_length_le h (List.prefix_append _ _) (by simp [commentClose])

/-- **What stands in a comment.** It holds no `-->`, and it does not make one together with the end
of the `<!--`. -/
theorem comment_iff {b : List Char} :
    Comment (commentOpen ++ (b ++ commentClose)) ↔
      ¬ commentClose <:+: b ∧ ¬ ['>'] <+: b ∧ ¬ ['-', '>'] <+: b := by
  constructor
  · rintro ⟨-, before, hends, hfirst⟩
    have hbefore : before = commentOpen ++ b := by
      rw [← List.append_assoc] at hends
      exact (List.append_cancel_right hends).symm
    subst hbefore
    refine ⟨?_, ?_, ?_⟩
    · rintro ⟨p, q, rfl⟩
      have hle := hfirst (commentOpen ++ p) ⟨q ++ commentClose, by simp⟩
      simp only [commentClose, List.length_append, List.length_cons, List.length_nil] at hle
      omega
    · rintro ⟨q, rfl⟩
      have hle := hfirst ['<', '!'] ⟨q ++ commentClose, by simp [commentOpen, commentClose]⟩
      simp only [commentOpen, List.length_append, List.length_cons, List.length_nil] at hle
      omega
    · rintro ⟨q, rfl⟩
      have hle := hfirst ['<', '!', '-'] ⟨q ++ commentClose, by simp [commentOpen, commentClose]⟩
      simp only [commentOpen, List.length_append, List.length_cons, List.length_nil] at hle
      omega
  · rintro ⟨hclose, hgreater, harrow⟩
    refine ⟨List.prefix_append _ _, commentOpen ++ b, (List.append_assoc _ _ _).symm, ?_⟩
    intro a ha
    -- The four places inside the `<!--` are looked at one by one.
    rcases a with _ | ⟨x, _ | ⟨y, _ | ⟨z, _ | ⟨w, a⟩⟩⟩⟩
    · simp [commentOpen, commentClose] at ha
    · simp [commentOpen, commentClose] at ha
    · simp only [commentOpen, commentClose, List.cons_append, List.nil_append,
        List.cons_prefix_cons] at ha
      refine absurd ?_ hgreater
      cases b with
      | nil => simp at ha
      | cons c b => simpa using ha.2.2.2.2
    · simp only [commentOpen, commentClose, List.cons_append, List.nil_append,
        List.cons_prefix_cons] at ha
      refine absurd ?_ harrow
      rcases b with _ | ⟨c, _ | ⟨d, b⟩⟩
      · simp at ha
      · simp at ha
      · simpa using ha.2.2.2.2
    · have hrest : a ++ commentClose <+: b ++ commentClose := by
        simp only [commentOpen, List.cons_append, List.nil_append, List.cons_prefix_cons] at ha
        exact ha.2.2.2.2
      have hle := length_le_of_commentClose hclose hrest
      simp only [commentOpen, List.length_append, List.length_cons, List.length_nil]
      omega

/-! ## Balanced elements -/

/-- What stands inside an element that is balanced: character data, comments and elements. -/
inductive Balanced : List Char → Prop
  | nil : Balanced []
  | character {c s} : c ≠ '<' → Balanced s → Balanced (c :: s)
  | comment {c s} : Comment c → Balanced s → Balanced (c ++ s)
  | empty {t tag s} : OpenTag t tag → tag.selfClosing = true → Balanced s → Balanced (t ++ s)
  | filled {t tag body e s} : OpenTag t tag → tag.selfClosing = false → Balanced body →
      EndTag e tag.name → Balanced s → Balanced (t ++ (body ++ (e ++ s)))

/-- An element that is balanced, with its name. -/
inductive BalancedElement : List Char → String → Prop
  | empty {t tag} : OpenTag t tag → tag.selfClosing = true → BalancedElement t tag.name
  | filled {t tag body e} : OpenTag t tag → tag.selfClosing = false → Balanced body →
      EndTag e tag.name → BalancedElement (t ++ (body ++ e)) tag.name

/-- The counter of the reader of passed elements stands behind balanced content where it stood in
front. Induction on the content. -/
theorem skipElement_append_balanced {body : List Char} (h : Balanced body) (name : String)
    (start : List Char) (depth : Nat) (s : List Char) :
    skipElement name start depth (body ++ s) = skipElement name start depth s := by
  induction h generalizing depth s with
  | nil => rfl
  | character hc _ ih => rw [List.cons_append, skipElement_cons hc, ih]
  | comment hc _ ih => rw [List.append_assoc, skipElement_append_comment hc, ih]
  | empty htag hself _ ih =>
    rw [List.append_assoc, skipElement_append_openTag htag, if_neg (by simp [hself]), ih]
  | @filled t tag body e rest htag hself _ hend _ ihbody ihrest =>
    simp only [List.append_assoc]
    rw [skipElement_append_openTag htag, ihbody, skipElement_append_endTag hend]
    -- An element of the same name opens one more level and closes it again.
    by_cases hname : tag.name = name
    · simp only [hname, hself, and_self, if_true, ihrest]
    · simp only [hname, false_and, if_false, ihrest]

/-- **Balanced elements are passed over.** -/
theorem BalancedElement.passed {t : List Char} {name : String} (h : BalancedElement t name)
    (hname : name ≠ "Text") : PassedElement t := by
  cases h with
  | empty htag hself => exact .empty htag hname hself
  | @filled t tag body e htag hself hbody hend =>
    have hskip : skipElement tag.name [] 0 ((body ++ e) ++ []) = .ok [] := by
      rw [List.append_assoc, skipElement_append_balanced hbody, skipElement_append_endTag hend,
        if_pos rfl]
    obtain ⟨all, hall, pieces, hpieces, hcloses⟩ := closes_of_skipElement hskip
    rw [List.append_cancel_right hall]
    exact .filled htag hname hself hpieces hcloses

/-! ## Attributes between attributes -/

/-- White space stands on one side of a seam. -/
def Spaced (left right : Option Char) : Prop :=
  (∃ c ∈ left, isBlank c = true) ∨ ∃ c ∈ right, isBlank c = true

section Attributes

variable {s t : List Char} {attributes others : List Attribute}

/-- A name does not end in a blank character. -/
theorem Name.getLast {n : List Char} (hn : Name n) (p : List Char) :
    ∀ c ∈ (p ++ n).getLast?, isBlank c = false := by
  obtain ⟨c, n, rfl, hc, hn⟩ := hn
  intro d hd
  rw [List.getLast?_append_of_ne_nil _ (List.cons_ne_nil c n)] at hd
  have hmem : d ∈ c :: n := List.mem_of_getLast? hd
  rw [Bool.eq_false_iff]
  intro hblank
  rcases List.mem_cons.1 hmem with rfl | hmem
  · exact Bool.false_ne_true ((isBlank_eq_false_of_isNameStart hc).symm.trans hblank)
  · have hname := isNameChar_eq_false_of_isBlank hblank
    exact Bool.false_ne_true (hname.symm.trans (hn d hmem))

/-- A name does not go on behind white space. -/
theorem Spaced.stopsName {n p : List Char} (hn : Name n)
    (h : Spaced (p ++ n).getLast? s.head?) : StopsName s := by
  obtain ⟨c, hc, hblank⟩ | ⟨c, hc, hblank⟩ := h
  · exact absurd hblank (by simp [hn.getLast p c hc])
  · intro d hd
    obtain rfl : c = d := Option.some.inj (hc.symm.trans hd)
    exact isNameChar_eq_false_of_isBlank hblank

/-- A seam in front of which there is white space has it at the end of what stands there last. -/
theorem Spaced.of_append {p : List Char} (hs : s ≠ []) {right : Option Char}
    (h : Spaced (p ++ s).getLast? right) : Spaced s.getLast? right := by
  rwa [List.getLast?_append_of_ne_nil _ hs] at h

/-- A seam stays spaced when more text follows what stands behind it. -/
theorem Spaced.head_append {left : Option Char} (h : Spaced left s.head?) (t : List Char) :
    Spaced left (s ++ t).head? := by
  refine h.imp_right fun ⟨c, hc, hblank⟩ => ⟨c, ?_, hblank⟩
  rw [List.head?_append, Option.mem_def.1 hc]
  rfl

/-- Attributes may follow each other behind white space. Induction on the first ones. -/
theorem AttributeList.append (hs : AttributeList s attributes) (ht : AttributeList t others)
    (h : s = [] ∨ t = [] ∨ Spaced s.getLast? t.head?) :
    AttributeList (s ++ t) (attributes ++ others) := by
  -- What is left of the first text is empty, or has its end.
  have hrest {p u : List Char} (hp : p ++ u ≠ [])
      (h : p ++ u = [] ∨ t = [] ∨ Spaced (p ++ u).getLast? t.head?) :
      u = [] ∨ t = [] ∨ Spaced u.getLast? t.head? := by
    by_cases hu : u = []
    · exact .inl hu
    · exact .inr ((h.resolve_left hp).imp_right (Spaced.of_append hu))
  induction hs with
  | nil hw => exact ht.blanks_append hw
  | @flag w n u attributes hw hn hstops _ ih =>
    have hne : w ++ n ++ u ≠ [] := by
      obtain ⟨c, n, rfl, -⟩ := hn
      simp
    rw [← List.append_assoc] at h
    have hstops' : StopsName (u ++ t) := by
      cases u with
      | cons c u => exact hstops
      | nil =>
        rw [List.append_nil] at h hne
        rcases h.resolve_left hne with rfl | hspaced
        · exact hstops
        · exact hspaced.stopsName hn
    rw [List.append_assoc, List.append_assoc]
    exact .flag hw hn hstops' (ih (hrest hne h))
  | @valued w n w₁ w₂ v value u attributes hw hn hw₁ hw₂ hv _ ih =>
    have hsplit : w ++ (n ++ (w₁ ++ '=' :: (w₂ ++ (v ++ u)))) =
        (w ++ (n ++ (w₁ ++ '=' :: (w₂ ++ v)))) ++ u := by simp
    have hu := hrest (p := w ++ (n ++ (w₁ ++ '=' :: (w₂ ++ v)))) (by simp) (hsplit ▸ h)
    simp only [List.append_assoc, List.cons_append]
    exact .valued hw hn hw₁ hw₂ hv (ih hu)

/-- Attributes start with white space or with a name. -/
theorem AttributeList.head (hs : AttributeList s attributes) :
    ∀ c ∈ s.head?, isBlank c = true ∨ isNameStart c = true := by
  -- In front of a name stand blanks or nothing.
  have hname {w n t : List Char} (hw : Blanks w) (hn : Name n) :
      ∀ c ∈ (w ++ (n ++ t)).head?, isBlank c = true ∨ isNameStart c = true := by
    obtain ⟨d, n, rfl, hd, -⟩ := hn
    cases w with
    | nil =>
      rintro c ⟨⟩
      exact .inr hd
    | cons e w =>
      rintro c ⟨⟩
      exact .inl (hw e List.mem_cons_self)
  cases hs with
  | nil hw => exact fun c hc => .inl (hw c (List.mem_of_head? hc))
  | flag hw hn => exact hname hw hn
  | valued hw hn => exact hname hw hn

/-- Attributes may stand in front of the rest of a tag, since no attribute starts like its end. -/
theorem AttributeList.append_of_after (hs : AttributeList s attributes)
    (ht : AttributeList t others) {selfClosing : Bool}
    (h : Spaced s.getLast? (t ++ tagEnd selfClosing).head? ∨
      (t ++ tagEnd selfClosing).head? ∈ [some '/', some '>']) :
    AttributeList (s ++ t) (attributes ++ others) := by
  refine hs.append ht ?_
  cases t with
  | nil => exact .inr (.inl rfl)
  | cons c t =>
    refine .inr (.inr (h.resolve_right ?_))
    intro hend
    simp only [List.cons_append, List.head?_cons, List.mem_cons, Option.some.injEq,
      List.not_mem_nil, or_false] at hend
    rcases ht.head c rfl with hc | hc
    · rcases hend with rfl | rfl <;> exact absurd hc (by decide)
    · rcases hend with rfl | rfl <;> exact absurd hc (by decide)

end Attributes

/-! ## Places -/

/-- The kinds of places at which a document can be cut. -/
inductive Spot where
  /-- Outside of the frame. -/
  | outside
  /-- Between two children of the frame. -/
  | child
  /-- Between two attributes of a tag that recognises these names, with the characters in front of
  the cut and behind it. -/
  | tag (names : List String) (before after : Option Char)

/-- What cannot be seen at a place. -/
inductive Invisible : Spot → List Char → Prop
  | nothing {spot} : Invisible spot []
  | comment {spot b} : spot = .outside ∨ spot = .child →
      ¬ commentClose <:+: b → ¬ ['>'] <+: b → ¬ ['-', '>'] <+: b →
      Invisible spot (commentOpen ++ (b ++ commentClose))
  | element {t name} : BalancedElement t name → name ≠ "Text" → Invisible .child t
  | attributes {names before after t attributes} : AttributeList t attributes →
      (∀ x ∈ attributes, x.name ∉ names) → Spaced before t.head? →
      Spaced t.getLast? after ∨ after ∈ [some '/', some '>'] →
      Invisible (.tag names before after) t

/-- An opening tag, cut between two attributes. -/
inductive TagCut : List Char → List Char → Tag → Prop
  | mk {n s t attributes others} (selfClosing : Bool) : Name n → StopsName (s ++ t) →
      AttributeList s attributes → AttributeList t others →
      AttributeList (s ++ t) (attributes ++ others) →
      TagCut ('<' :: (n ++ s)) (t ++ tagEnd selfClosing)
        ⟨String.ofList n, attributes ++ others, selfClosing⟩

/-- A text element, cut in its tag. -/
inductive TextElementCut : Spot → List Char → List Char → Leaf → Prop
  | empty {a b tag leaf} : TagCut a b tag → tag.name = "Text" → tag.selfClosing = true →
      Leaf.Denoted tag.attributes "" leaf →
      TextElementCut (.tag leafNames a.getLast? b.head?) a b leaf
  | filled {a b tag raw content e leaf} : TagCut a b tag → tag.name = "Text" →
      tag.selfClosing = false → '<' ∉ raw → Trimmed raw content → EndTag e "Text" →
      Leaf.Denoted tag.attributes (String.ofList (decodeEntities content)) leaf →
      TextElementCut (.tag leafNames a.getLast? b.head?) a (b ++ (raw ++ e)) leaf

/-- An element that is passed over, cut in its own tag or in one inside of it. No name means
anything there. -/
inductive PassedElementCut : Spot → List Char → List Char → Prop
  | empty {a b tag} : TagCut a b tag → tag.name ≠ "Text" → tag.selfClosing = true →
      PassedElementCut (.tag [] a.getLast? b.head?) a b
  | filled {a b tag pieces body} : TagCut a b tag → tag.name ≠ "Text" → tag.selfClosing = false →
      Stretch pieces body → Closes tag.name 1 pieces →
      PassedElementCut (.tag [] a.getLast? b.head?) a (b ++ body)
  | inside {t outer pieces s a b tag others r} : OpenTag t outer → outer.name ≠ "Text" →
      outer.selfClosing = false → Stretch pieces s → TagCut a b tag → Stretch others r →
      Closes outer.name 1 (pieces ++ .openTag tag.name tag.selfClosing :: others) →
      PassedElementCut (.tag [] a.getLast? b.head?) (t ++ (s ++ a)) (b ++ r)

/-- The children of a frame, cut between two of them or in a tag. -/
inductive ChildrenCut : Spot → List Char → List Char → List Leaf → Prop
  | between {s r leaves others} : Children s leaves → Children r others →
      ChildrenCut .child s r (leaves ++ others)
  | text {spot s a b r leaves leaf others} : Children s leaves → TextElementCut spot a b leaf →
      Children r others → ChildrenCut spot (s ++ a) (b ++ r) (leaves ++ leaf :: others)
  | passed {spot s a b r leaves others} : Children s leaves → PassedElementCut spot a b →
      Children r others → ChildrenCut spot (s ++ a) (b ++ r) (leaves ++ others)

/-- A frame element, cut in its tag or among its children. -/
inductive RootCut : Spot → List Char → List Char → Frame → Prop
  | empty {a b tag frame} : TagCut a b tag → tag.name = "Frame" → tag.selfClosing = true →
      Frame.Denoted tag.attributes [] frame →
      RootCut (.tag frameNames a.getLast? b.head?) a b frame
  | filled {a b tag s leaves e frame} : TagCut a b tag → tag.name = "Frame" →
      tag.selfClosing = false → Children s leaves → EndTag e "Frame" →
      Frame.Denoted tag.attributes leaves frame →
      RootCut (.tag frameNames a.getLast? b.head?) a (b ++ (s ++ e)) frame
  | inside {spot t tag a b leaves e frame} : OpenTag t tag → tag.name = "Frame" →
      tag.selfClosing = false → ChildrenCut spot a b leaves → EndTag e "Frame" →
      Frame.Denoted tag.attributes leaves frame → RootCut spot (t ++ a) (b ++ e) frame

/-- A place in a document. -/
inductive Place : Spot → List Char → List Char → Frame → Prop
  | before {s t root after frame} : Trivia s → Trivia t → Root root frame → Trivia after →
      Place .outside s (t ++ (root ++ after)) frame
  | after {before root s t frame} : Trivia before → Root root frame → Trivia s → Trivia t →
      Place .outside (before ++ (root ++ s)) t frame
  | root {spot before a b after frame} : Trivia before → RootCut spot a b frame → Trivia after →
      Place spot (before ++ a) (b ++ after) frame

/-! ## Filling a place -/

section Filling

variable {spot : Spot} {names : List String} {a b y : List Char} {tag : Tag}

/-- Attributes of other names do not change what an element recognises. -/
theorem TagCut.insert (h : TagCut a b tag)
    (hy : Invisible (.tag names a.getLast? b.head?) y) :
    ∃ tag', OpenTag (a ++ (y ++ b)) tag' ∧ tag'.name = tag.name ∧
      tag'.selfClosing = tag.selfClosing ∧
      tag'.attributes.filter (·.name ∈ names) = tag.attributes.filter (·.name ∈ names) := by
  obtain ⟨selfClosing, hn, hstops, hs, ht, hboth⟩ := h
  rename_i n s t attributes others
  generalize hspot : Spot.tag names ('<' :: (n ++ s)).getLast?
    (t ++ tagEnd selfClosing).head? = spot at hy
  cases hy with
  | nothing =>
    refine ⟨⟨String.ofList n, attributes ++ others, selfClosing⟩, ?_, rfl, rfl, rfl⟩
    have htag := OpenTag.mk selfClosing hn hstops hboth
    simpa using htag
  | comment h =>
    subst hspot
    rcases h with h | h <;> cases h
  | element => cases hspot
  | @attributes _ _ _ _ new hnew hnames hbefore hafter =>
    obtain ⟨rfl, rfl, rfl⟩ := Spot.tag.inj hspot
    have hyt : AttributeList (y ++ t) (new ++ others) := hnew.append_of_after ht hafter
    have hstops' : StopsName (s ++ (y ++ t)) := by
      cases s with
      | cons c s => exact hstops
      | nil =>
        -- Right behind the name of the tag, it takes white space to end the name.
        rw [List.append_nil] at hbefore
        exact (hbefore.head_append t).stopsName (p := ['<']) hn
    have hlist : AttributeList (s ++ (y ++ t)) (attributes ++ (new ++ others)) := by
      refine hs.append hyt ?_
      by_cases hne : s = []
      · exact .inl hne
      · rw [← List.cons_append] at hbefore
        exact .inr (.inr ((hbefore.of_append hne).head_append t))
    refine ⟨⟨String.ofList n, attributes ++ (new ++ others), selfClosing⟩, ?_, rfl, rfl, ?_⟩
    · have htag := OpenTag.mk selfClosing hn hstops' hlist
      simpa using htag
    · have hnone : new.filter (·.name ∈ names) = [] := by
        rw [List.filter_eq_nil_iff]
        exact fun x hx => by simpa using hnames x hx
      simp only [List.filter_append, hnone, List.nil_append]

/-- A frame is denoted by those of its attributes that have known names. -/
theorem Frame.Denoted.congr {attributes others : List Attribute} {leaves : List Leaf}
    {frame : Frame} (h : Frame.Denoted attributes leaves frame)
    (hsame : others.filter (·.name ∈ frameNames) = attributes.filter (·.name ∈ frameNames)) :
    Frame.Denoted others leaves frame := by
  unfold Frame.Denoted
  rw [hsame]
  exact h

/-- A leaf is denoted by those of its attributes that have known names. -/
theorem Leaf.Denoted.congr {attributes others : List Attribute} {content : String} {leaf : Leaf}
    (h : Leaf.Denoted attributes content leaf)
    (hsame : others.filter (·.name ∈ leafNames) = attributes.filter (·.name ∈ leafNames)) :
    Leaf.Denoted others content leaf := by
  unfold Leaf.Denoted
  rw [hsame]
  exact h

/-- What cannot be seen in a tag leaves a text element the one it was. -/
theorem TextElementCut.insert {leaf : Leaf} (h : TextElementCut spot a b leaf)
    (hy : Invisible spot y) : TextElement (a ++ (y ++ b)) leaf := by
  cases h with
  | empty htag hname hself hleaf =>
    obtain ⟨tag', htag', hname', hself', hsame⟩ := htag.insert hy
    exact .empty htag' (hname'.trans hname) (hself'.trans hself) (hleaf.congr hsame)
  | @filled _ b tag raw content e _ htag hname hself hraw htrim hend hleaf =>
    obtain ⟨tag', htag', hname', hself', hsame⟩ := htag.insert hy
    have htext := TextElement.filled htag' (hname'.trans hname) (hself'.trans hself) hraw htrim
      hend (hleaf.congr hsame)
    simpa only [List.append_assoc] using htext

/-- Stretches may be put together. -/
theorem Stretch.append {pieces others : List Piece} {s t : List Char} (hs : Stretch pieces s)
    (ht : Stretch others t) : Stretch (pieces ++ others) (s ++ t) := by
  induction hs with
  | nil => exact ht
  | cons hpiece _ ih =>
    rw [List.append_assoc]
    exact .cons hpiece ih

/-- What cannot be seen in its tags leaves an element to be passed over. -/
theorem PassedElementCut.insert (h : PassedElementCut spot a b) (hy : Invisible spot y) :
    PassedElement (a ++ (y ++ b)) := by
  cases h with
  | empty htag hname hself =>
    obtain ⟨tag', htag', hname', hself', -⟩ := htag.insert hy
    exact .empty htag' (hname' ▸ hname) (hself'.trans hself)
  | @filled _ b tag pieces body htag hname hself hbody hcloses =>
    obtain ⟨tag', htag', hname', hself', -⟩ := htag.insert hy
    have hpassed := PassedElement.filled htag' (hname' ▸ hname) (hself'.trans hself) hbody
      (hname' ▸ hcloses)
    simpa only [List.append_assoc] using hpassed
  | @inside t outer pieces s a b tag others r houter hname hself hs htag hr hcloses =>
    obtain ⟨tag', htag', hname', hself', -⟩ := htag.insert hy
    -- The tag inside is the same piece as before.
    have hpiece : Piece.Text (.openTag tag.name tag.selfClosing) (a ++ (y ++ b)) := by
      rw [← hname', ← hself']
      exact .openTag htag'
    have hpassed := PassedElement.filled houter hname hself (hs.append (.cons hpiece hr)) hcloses
    simpa only [List.append_assoc] using hpassed

/-- What cannot be seen among children leaves them the ones they were. -/
theorem ChildrenCut.insert {leaves : List Leaf} (h : ChildrenCut spot a b leaves)
    (hy : Invisible spot y) : Children (a ++ (y ++ b)) leaves := by
  cases h with
  | between hs hr =>
    refine hs.append ?_
    -- Between two children a comment is read over, and another element is passed.
    cases hy with
    | nothing => exact hr
    | comment _ hclose hgreater harrow =>
      exact .comment (comment_iff.2 ⟨hclose, hgreater, harrow⟩) hr
    | element helement hname => exact .passed (helement.passed hname) hr
  | text hs hleaf hr =>
    have hchildren := hs.append (.text (hleaf.insert hy) hr)
    simpa only [List.append_assoc] using hchildren
  | passed hs hpassed hr =>
    have hchildren := hs.append (.passed (hpassed.insert hy) hr)
    simpa only [List.append_assoc] using hchildren

/-- What cannot be seen in a frame leaves it the one it was. -/
theorem RootCut.insert {frame : Frame} (h : RootCut spot a b frame) (hy : Invisible spot y) :
    Root (a ++ (y ++ b)) frame := by
  cases h with
  | empty htag hname hself hframe =>
    obtain ⟨tag', htag', hname', hself', hsame⟩ := htag.insert hy
    exact .empty htag' (hname'.trans hname) (hself'.trans hself) (hframe.congr hsame)
  | filled htag hname hself hchildren hend hframe =>
    obtain ⟨tag', htag', hname', hself', hsame⟩ := htag.insert hy
    have hroot := Root.filled htag' (hname'.trans hname) (hself'.trans hself) hchildren hend
      (hframe.congr hsame)
    simpa only [List.append_assoc] using hroot
  | inside htag hname hself hchildren hend hframe =>
    have hroot := Root.filled htag hname hself (hchildren.insert hy) hend hframe
    simpa only [List.append_assoc] using hroot

/-- Outside of the frame there is room for trivia. -/
theorem Invisible.trivia (hy : Invisible .outside y) : Trivia y := by
  cases hy with
  | nothing => exact .nil
  | comment _ hclose hgreater harrow =>
    rw [← List.append_nil (commentOpen ++ _)]
    exact .comment (comment_iff.2 ⟨hclose, hgreater, harrow⟩) .nil

/-- **A place is filled.** -/
theorem Place.insert {frame : Frame} (h : Place spot a b frame) (hy : Invisible spot y) :
    Document (a ++ (y ++ b)) frame := by
  cases h with
  | before hs ht hroot hafter =>
    have hdocument := Document.mk (hs.append (hy.trivia.append ht)) hroot hafter
    simpa only [List.append_assoc] using hdocument
  | after hbefore hroot hs ht =>
    have hdocument := Document.mk hbefore hroot (hs.append (hy.trivia.append ht))
    simpa only [List.append_assoc] using hdocument
  | root hbefore hroot hafter =>
    have hdocument := Document.mk hbefore (hroot.insert hy) hafter
    simpa only [List.append_assoc] using hdocument

end Filling

/-! ## The headline -/

theorem parse_of_document {markup : String} {frame : Frame} (h : Document markup.toList frame) :
    Frame.parse markup = .ok frame := by
  unfold Frame.parse
  rw [readDocument_of_document h]

/-- **What is invisible does not show.** A markup that parses as a frame still does so with a
comment outside of the frame or among its children, with an element of any other name than `Text`
among its children, and with attributes that are not recognised in any tag. -/
theorem parse_insert {spot : Spot} {before after y : String} {frame found : Frame}
    (hparse : Frame.parse (before ++ after) = .ok frame)
    (hplace : Place spot before.toList after.toList found) (hy : Invisible spot y.toList) :
    Frame.parse (before ++ y ++ after) = .ok frame := by
  have hwhole : Document (before ++ after).toList found := by
    rw [String.toList_append]
    exact hplace.insert .nothing
  obtain rfl : found = frame := Except.ok.inj ((parse_of_document hwhole).symm.trans hparse)
  apply parse_of_document
  rw [String.toList_append, String.toList_append, List.append_assoc]
  exact hplace.insert hy

/-! ### A frame without attributes -/

theorem openTag_bare {n : List Char} (hn : Name n) :
    OpenTag ('<' :: (n ++ ['>'])) ⟨String.ofList n, [], false⟩ :=
  .mk false hn (by simp [StopsName]) (.nil .nil)

theorem name_of_all {c : Char} {s : List Char} (hc : isNameStart c = true)
    (hs : s.all isNameChar = true) : Name (c :: s) :=
  ⟨c, s, rfl, hc, List.all_eq_true.1 hs⟩

theorem name_frame : Name "Frame".toList :=
  name_of_all (by decide) (by decide)

/-- A leaf of one letter. -/
theorem textElement_x :
    TextElement ("<Text>".toList ++ (['x'] ++ "</Text>".toList)) { content := "x" } := by
  have hname : Name "Text".toList := name_of_all (by decide) (by decide)
  have htrim : Trimmed ['x'] ['x'] := trimmed_iff.2 (by decide)
  have hcontent : Leaf.Denoted [] (String.ofList (decodeEntities ['x'])) { content := "x" } := by
    have hdecode : decodeEntities ['x'] = ['x'] := by simp [decodeEntities]
    rw [hdecode]
    exact ⟨[], .nil, rfl⟩
  exact .filled (openTag_bare hname) rfl rfl (by decide) htrim (.mk hname .nil) hcontent

/-- Between two children of a frame without attributes there is a place. -/
theorem place_bare {s t : List Char} {leaves others : List Leaf} (hs : Children s leaves)
    (ht : Children t others) :
    Place .child ("<Frame>".toList ++ s) (t ++ "</Frame>".toList)
      { leaves := leaves ++ others } := by
  have hroot : RootCut .child ("<Frame>".toList ++ s) (t ++ "</Frame>".toList)
      { leaves := leaves ++ others } :=
    .inside (openTag_bare name_frame) rfl rfl (.between hs ht) (.mk name_frame .nil)
      ⟨[], .nil, rfl⟩
  have hplace := Place.root .nil hroot .nil
  rwa [List.append_nil] at hplace

/-- In front of a leaf there is room for a comment with a leaf in it and for an element, and in the
tag of the frame there is room for an attribute. -/
theorem parse_insert_bare :
    (Frame.parse ("<Frame>" ++ "<Text>x</Text></Frame>") = .ok { leaves := [{ content := "x" }] } ∧
      Place .child "<Frame>".toList "<Text>x</Text></Frame>".toList
        { leaves := [{ content := "x" }] } ∧
      Invisible .child "<!-- <Text>y</Text> -->".toList ∧
      Invisible .child "<Icon><Text>y</Text></Icon>".toList) ∧
    Frame.parse ("<Frame>" ++ "<!-- <Text>y</Text> -->" ++ "<Text>x</Text></Frame>") =
      .ok { leaves := [{ content := "x" }] } ∧
    Frame.parse ("<Frame>" ++ "<Icon><Text>y</Text></Icon>" ++ "<Text>x</Text></Frame>") =
      .ok { leaves := [{ content := "x" }] } ∧
    (Place (.tag frameNames (some 'e') (some '>')) "<Frame".toList "></Frame>".toList {} ∧
      Invisible (.tag frameNames (some 'e') (some '>')) " hidden".toList) ∧
    Frame.parse ("<Frame" ++ " hidden" ++ "></Frame>") = .ok {} := by
  have hchild : Place .child "<Frame>".toList "<Text>x</Text></Frame>".toList
      { leaves := [{ content := "x" }] } :=
    place_bare .nil (.text textElement_x .nil)
  have hparse : Frame.parse ("<Frame>" ++ "<Text>x</Text></Frame>") =
      .ok { leaves := [{ content := "x" }] } := by
    apply parse_of_document
    rw [String.toList_append]
    exact hchild.insert .nothing
  have hcomment : Invisible .child "<!-- <Text>y</Text> -->".toList :=
    .comment (b := " <Text>y</Text> ".toList) (.inr rfl) (by decide +kernel) (by decide +kernel)
      (by decide +kernel)
  have helement : Invisible .child "<Icon><Text>y</Text></Icon>".toList := by
    have hicon : Name "Icon".toList := name_of_all (by decide) (by decide)
    have htext : Name "Text".toList := name_of_all (by decide) (by decide)
    -- The element inserted holds a `Text` of its own, which is not a child of the frame.
    have hinner : Balanced ("<Text>".toList ++ (['y'] ++ ("</Text>".toList ++ []))) :=
      .filled (openTag_bare htext) rfl (.character (by decide) .nil) (.mk htext .nil) .nil
    exact .element (.filled (openTag_bare hicon) rfl hinner (.mk hicon .nil)) (by decide)
  have htag : Place (.tag frameNames (some 'e') (some '>')) "<Frame".toList "></Frame>".toList
      {} := by
    have hcut : TagCut "<Frame".toList ">".toList ⟨"Frame", [], false⟩ :=
      .mk (s := []) (t := []) false name_frame (by simp [StopsName]) (.nil .nil) (.nil .nil)
        (.nil .nil)
    have hroot := RootCut.filled hcut rfl rfl .nil (.mk name_frame .nil) ⟨[], .nil, rfl⟩
    exact .root .nil hroot .nil
  have hparse' : Frame.parse ("<Frame" ++ "></Frame>") = .ok {} := by
    apply parse_of_document
    rw [String.toList_append]
    exact htag.insert .nothing
  have hattribute : Invisible (.tag frameNames (some 'e') (some '>')) " hidden".toList := by
    have hname : Name "hidden".toList := name_of_all (by decide) (by decide)
    have hlist : AttributeList ([' '] ++ ("hidden".toList ++ [])) [⟨"hidden", .flag⟩] :=
      .flag (by simp [Blanks]; decide) hname (by simp [StopsName]) (.nil .nil)
    refine .attributes hlist ?_ (.inr ⟨' ', rfl, by decide⟩) (.inr (by decide))
    simp [frameNames]
  exact ⟨⟨hparse, hchild, hcomment, helement⟩, parse_insert hparse hchild hcomment,
    parse_insert hparse hchild helement, ⟨htag, hattribute⟩, parse_insert hparse' htag hattribute⟩

/-- **A comment that is seen.** Not every text without `-->` is hidden by `<!--` and `-->`: with a
`>` in front, the comment is over before the text begins. -/
theorem comment_visible :
    ¬ ∀ (before after b : String) (frame : Frame), Frame.parse (before ++ after) = .ok frame →
      Place .child before.toList after.toList frame → ¬ commentClose <:+: b.toList →
      Frame.parse (before ++ ("<!--" ++ b ++ "-->") ++ after) = .ok frame := by
  intro h
  have hplace : Place .child "<Frame>".toList "</Frame>".toList {} := place_bare .nil .nil
  have hparse : Frame.parse ("<Frame>" ++ "</Frame>") = .ok {} := by
    apply parse_of_document
    rw [String.toList_append]
    exact hplace.insert .nothing
  have hclose : ¬ commentClose <:+: "><Text>x</Text>".toList := by decide +kernel
  have hsame := h "<Frame>" "</Frame>" "><Text>x</Text>" {} hparse hplace hclose
  have hcomment : Comment "<!-->".toList :=
    ⟨⟨['>'], rfl⟩, ['<', '!'], endsAtFirst_of_notMem (by decide)⟩
  have hrest : Children "-->".toList [] := by
    have hflat : '<' ∉ "-->".toList := by decide
    have hcharacters := Children.characters hflat .nil
    rwa [List.append_nil] at hcharacters
  -- The comment is over in front of the leaf, and its own end is character data.
  have hchildren : Children ("<!--".toList ++ "><Text>x</Text>".toList ++ "-->".toList)
      [{ content := "x" }] := by
    have hsplit : "<!--".toList ++ "><Text>x</Text>".toList ++ "-->".toList =
        "<!-->".toList ++ (("<Text>".toList ++ (['x'] ++ "</Text>".toList)) ++ "-->".toList) := rfl
    rw [hsplit]
    exact .comment hcomment (.text textElement_x hrest)
  have hshown : Frame.parse ("<Frame>" ++ ("<!--" ++ "><Text>x</Text>" ++ "-->") ++ "</Frame>") =
      .ok { leaves := [{ content := "x" }] } := by
    apply parse_of_document
    simp only [String.toList_append]
    exact (place_bare hchildren .nil).insert .nothing
  have hleaves := congrArg Frame.leaves (Except.ok.inj (hshown.symm.trans hsame))
  cases hleaves

end CanvasLink.Markup
