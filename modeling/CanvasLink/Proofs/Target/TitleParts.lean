import CanvasLink.Proofs.Target.Selection

/-!
# CanvasLink — parts of titles as selectors

A title and a selector are put into lower case each on its own. Lower-casing goes character by
character, except that a capital sigma looks at the letters around it. So a part that is copied from
a title matches the title, unless a sigma near its end or its beginning takes another form in the
title than it has in the part alone.

* `lowerWithin` — the lower case of a part of a text, where it stands.
* `ChangesForm` — the two ways in which a sigma depends on the text around the part.
* `lowerWithin_eq_iff` — a part keeps its lower case exactly if no sigma in it changes its form.
* **`select_copied_part`** — the headline.
* `copied_part_missed` — a part of a title that does not match.
-/

namespace CanvasLink.Text

/-! ## The lower case of a part -/

/-- The lower case of a part of a text that stands behind the reversed text `before` and in front of
`after`. -/
def lowerWithin (before : List Char) : List Char → List Char → List Char
  | [], _ => []
  | c :: s, after => lowerChar before c (s ++ after) ++ lowerWithin (c :: before) s after

/-- A text is put into lower case part by part, each between those around it. -/
theorem lowerBehind_append (before s after : List Char) :
    lowerBehind before (s ++ after) =
      lowerWithin before s after ++ lowerBehind (s.reverse ++ before) after := by
  induction s generalizing before with
  | nil => rfl
  | cons c s ih =>
    rw [List.cons_append, lowerBehind, ih, lowerWithin, List.append_assoc, List.reverse_cons,
      List.append_assoc, List.singleton_append]

/-- A text on its own has nothing around it. -/
theorem lowerCase_eq_lowerWithin (s : List Char) : lowerCase s = lowerWithin [] s [] := by
  have h := lowerBehind_append [] s []
  rwa [List.append_nil, lowerBehind, List.append_nil] at h

/-- **The lower case of a text is that of its parts**, each where it stands. -/
theorem lowerCase_append_append (left part right : List Char) :
    lowerCase (left ++ part ++ right) = lowerWithin [] left (part ++ right) ++
      lowerWithin left.reverse part right ++ lowerBehind (part.reverse ++ left.reverse) right := by
  rw [lowerCase, List.append_assoc left, lowerBehind_append [] left, lowerBehind_append _ part,
    List.append_nil, List.append_assoc]

/-! ## Sigmas -/

/-- Whether a capital sigma between these texts gets the final form. -/
def isFinal (before after : List Char) : Bool :=
  nextIsCased before && !nextIsCased after

theorem lowerChar_sigma (before after : List Char) :
    lowerChar before 'Σ' after = if isFinal before after then ['ς'] else ['σ'] := by
  rw [lowerChar, if_pos rfl, isFinal]

/-- No other character looks around. -/
theorem lowerChar_of_ne {c : Char} (hc : c ≠ 'Σ') (before after before' after' : List Char) :
    lowerChar before c after = lowerChar before' c after' := by
  have hsigma : ¬ c = '\u03A3' := hc
  rw [lowerChar, lowerChar, if_neg hsigma, if_neg hsigma]

/-- All other letters but one are put into lower case without regard to those around them. -/
theorem lowerChar_eq {c : Char} (hsigma : c ≠ 'Σ') (hdot : c ≠ '\u0130')
    (before after : List Char) : lowerChar before c after = [Char.ofNat (lowerCodePoint c)] := by
  rw [lowerChar, if_neg (show ¬ c = '\u03A3' from hsigma), if_neg hdot]

/-- A sigma has the same form in two places exactly if it ends a word in both or in neither. -/
theorem lowerChar_sigma_eq_iff {before after before' after' : List Char} :
    lowerChar before 'Σ' after = lowerChar before' 'Σ' after' ↔
      isFinal before after = isFinal before' after' := by
  rw [lowerChar_sigma, lowerChar_sigma]
  cases isFinal before after <;> cases isFinal before' after' <;> simp

/-- How many letters come of one does not depend on those around it. -/
theorem length_lowerChar (before after before' after' : List Char) (c : Char) :
    (lowerChar before c after).length = (lowerChar before' c after').length := by
  by_cases hc : c = 'Σ'
  · subst hc
    rw [lowerChar_sigma, lowerChar_sigma]
    split <;> split <;> rfl
  · rw [lowerChar_of_ne hc]

/-- A part has the same lower case in two places exactly if its sigmas have the same forms. -/
theorem lowerWithin_congr_iff {before before' s after after' : List Char} :
    lowerWithin before s after = lowerWithin before' s after' ↔
      ∀ front back, s = front ++ 'Σ' :: back →
        isFinal (front.reverse ++ before) (back ++ after) =
          isFinal (front.reverse ++ before') (back ++ after') := by
  -- Induction on the part; the characters before the one at hand are put to the text before it.
  induction s generalizing before before' with
  | nil => simp [lowerWithin]
  | cons c s ih =>
    have hsplit : lowerWithin before (c :: s) after = lowerWithin before' (c :: s) after' ↔
        lowerChar before c (s ++ after) = lowerChar before' c (s ++ after') ∧
          lowerWithin (c :: before) s after = lowerWithin (c :: before') s after' := by
      rw [lowerWithin, lowerWithin]
      exact ⟨fun h => List.append_inj h (length_lowerChar ..), fun ⟨hc, hs⟩ => by rw [hc, hs]⟩
    rw [hsplit, ih]
    constructor
    · rintro ⟨hfirst, hrest⟩ (_ | ⟨d, front⟩) back heq
      · cases heq
        exact lowerChar_sigma_eq_iff.1 hfirst
      · cases heq
        simpa using hrest front back rfl
    · intro h
      refine ⟨?_, fun front back heq => by simpa using h (c :: front) back (by rw [heq]; rfl)⟩
      by_cases hc : c = 'Σ'
      · subst hc
        exact lowerChar_sigma_eq_iff.2 (h [] s rfl)
      · exact lowerChar_of_ne hc ..

/-! ## Around a part -/

/-- The table as a list, which a closed fact about it is decided on much faster. -/
theorem Ranges.contains_eq (ranges : Ranges) (c : Char) : ranges.contains c =
    ranges.toList.any fun range => range.1 ≤ c.toNat && c.toNat ≤ range.2 :=
  Array.any_toList.symm

/-- Characters that are passed over do not decide what comes next; any other one does. -/
theorem nextIsCased_append (s t : List Char) :
    nextIsCased (s ++ t) = if s.all isCaseIgnorable then nextIsCased t else nextIsCased s := by
  induction s with
  | nil => rfl
  | cons c s ih =>
    cases hc : isCaseIgnorable c with
    | false => simp [nextIsCased, hc]
    | true =>
      have hskip (u : List Char) : nextIsCased (c :: u) = nextIsCased u := by
        rw [nextIsCased, nextIsCased, List.dropWhile_cons_of_pos hc]
      rw [List.cons_append, hskip, hskip, ih, List.all_cons, hc, Bool.true_and]

/-- The next letter that counts is the first one, unless case ignores it. -/
theorem nextIsCased_cons {c : Char} (hc : isCaseIgnorable c = false) (s : List Char) :
    nextIsCased (c :: s) = isCased c := by
  rw [nextIsCased, List.dropWhile_cons_of_neg (by rw [hc]; exact Bool.false_ne_true)]

theorem nextIsCased_of_all {s : List Char} (h : s.all isCaseIgnorable = true) :
    nextIsCased s = false := by
  have hs := nextIsCased_append s []
  rwa [List.append_nil, if_pos h] at hs

/-- How a capital sigma between `front` and `back` changes its form when the part that they make up
stands between `left` and `right`. It ends a word of the part that goes on behind the part, or it is
the first letter of the part and ends a word that begins before the part. Characters that are passed
over do not count. -/
inductive ChangesForm (left front back right : List Char) : Prop
  | goesOn (hfront : nextIsCased front.reverse = true) (hback : back.all isCaseIgnorable = true)
    (hright : nextIsCased right = true)
  | began (hleft : nextIsCased left.reverse = true) (hfront : front.all isCaseIgnorable = true)
    (hright : nextIsCased (back ++ right) = false)

/-- A sigma has the same form in a part as in the whole exactly if nothing around the part changes
it. -/
theorem isFinal_eq_iff {left front back right : List Char} :
    isFinal (front.reverse ++ left.reverse) (back ++ right) = isFinal front.reverse back ↔
      ¬ ChangesForm left front back right := by
  rw [isFinal, isFinal, nextIsCased_append front.reverse, List.all_reverse]
  constructor
  · rintro heq (⟨hfront, hback, hright⟩ | ⟨hleft, hfront, hright⟩)
    · -- The look behind ends in `front`, and the look ahead goes on into `right`.
      have hsome : front.all isCaseIgnorable = false := by
        rw [Bool.eq_false_iff]
        intro hall
        rw [nextIsCased_of_all (by rwa [List.all_reverse])] at hfront
        cases hfront
      rw [nextIsCased_append back, hsome, hback, nextIsCased_of_all hback] at heq
      simp [hfront, hright] at heq
    · have hnone := nextIsCased_of_all (s := front.reverse) (by rwa [List.all_reverse])
      simp [hfront, hnone, hleft, hright] at heq
  · intro hkeeps
    cases hfront : front.all isCaseIgnorable with
    | true =>
      -- Within the part nothing stands in front of the sigma, so that it is no final one there.
      have hnone := nextIsCased_of_all (s := front.reverse) (by rwa [List.all_reverse])
      rw [if_pos rfl, hnone, Bool.false_and]
      cases hleft : nextIsCased left.reverse with
      | false => rfl
      | true =>
        cases hright : nextIsCased (back ++ right) with
        | false => exact absurd (.began hleft hfront hright) hkeeps
        | true => rfl
    | false =>
      rw [if_neg Bool.false_ne_true, nextIsCased_append back]
      cases hcased : nextIsCased front.reverse with
      | false => rfl
      | true =>
        split
        · next hback =>
          have hright : nextIsCased right = false := by
            rw [Bool.eq_false_iff]
            exact fun hright => hkeeps (.goesOn hcased hback hright)
          rw [hright, nextIsCased_of_all hback]
        · rfl

/-- **A part keeps its lower case** exactly if no sigma in it changes its form. -/
theorem lowerWithin_eq_iff {left part right : List Char} :
    lowerWithin left.reverse part right = lowerCase part ↔
      ∀ front back, part = front ++ 'Σ' :: back → ¬ ChangesForm left front back right := by
  rw [lowerCase_eq_lowerWithin, lowerWithin_congr_iff]
  simp only [List.append_nil, isFinal_eq_iff]

end CanvasLink.Text

namespace CanvasLink.Target

open CanvasLink.Text CanvasLink.Wire

/-- When a document qualifies, it is picked or one before it is. -/
theorem exists_select_of_qualifies {before after : List TargetDescriptor} {t : TargetDescriptor}
    {patterns : List String} {selector : Option String} (heligible : Eligible patterns t)
    (hqualifies : Qualifies selector t) :
    ∃ earlier chosen later, before ++ t :: after = earlier ++ chosen :: later ∧
      earlier.length ≤ before.length ∧
      select (before ++ t :: after) patterns selector = .ok chosen := by
  rw [select_eq]
  cases hfound : (eligibleTargets (before ++ t :: after) patterns).find? (Qualifies selector ·) with
  | none =>
    have hmem : t ∈ before ++ t :: after := by simp
    exact absurd hqualifies (find?_eligibleTargets_eq_none_iff.1 hfound t hmem heligible)
  | some chosen =>
    obtain ⟨earlier, later, hsplit, -, -, hfirst⟩ := find?_eligibleTargets_eq_some_iff.1 hfound
    refine ⟨earlier, chosen, later, hsplit, Nat.le_of_not_lt fun hlater => ?_, rfl⟩
    -- Otherwise `t` would stand among the targets that do not qualify.
    have ht : t ∈ earlier := by
      have hget := congrArg (·[before.length]?) hsplit
      rw [List.getElem?_append_right (Nat.le_refl _), Nat.sub_self,
        List.getElem?_append_left hlater] at hget
      exact List.mem_of_getElem? hget.symm
    exact hfirst t ht heligible hqualifies

/-- **A part that is copied from a title.** Let the title of an eligible document hold the selector
as it is. Unless a capital sigma of the selector takes another form there than it has in the selector
alone, the selector matches: that document is picked, or one before it. Where one does, and only
there, the lower-cased title has something else than the lower-cased selector at that place. -/
theorem select_copied_part {before after : List TargetDescriptor} {t : TargetDescriptor}
    {patterns : List String} {selector : String} {left part right : List Char}
    (heligible : Eligible patterns t) (hpart : Trimmed selector.toList part)
    (htitle : t.title.toList = left ++ part ++ right) :
    ((∀ front back, part = front ++ 'Σ' :: back → ¬ ChangesForm left front back right) →
      ∃ earlier chosen later, before ++ t :: after = earlier ++ chosen :: later ∧
        earlier.length ≤ before.length ∧
        select (before ++ t :: after) patterns (some selector) = .ok chosen) ∧
    lowerCase t.title.toList = lowerWithin [] left (part ++ right) ++
      lowerWithin left.reverse part right ++ lowerBehind (part.reverse ++ left.reverse) right ∧
    (lowerWithin left.reverse part right = lowerCase part ↔
      ∀ front back, part = front ++ 'Σ' :: back → ¬ ChangesForm left front back right) := by
  have hlower := lowerCase_append_append left part right
  rw [← htitle] at hlower
  refine ⟨fun hkeeps => exists_select_of_qualifies heligible (.title hpart ?_), hlower,
    lowerWithin_eq_iff⟩
  exact ⟨_, _, lowerWithin_eq_iff.2 hkeeps ▸ hlower.symm⟩

/-! ## A word with a sigma -/

/-- One document, whose title is a single word in capital letters. -/
def asia : TargetDescriptor :=
  { id := "B", title := "ΑΣΙΑ", url := "https://www.figma.com/design/abc/x", kind := "page" }

theorem asia_eligible : Eligible Bridge.defaultPatterns asia := by
  decide +kernel

theorem nextIsCased_alpha (s : List Char) : nextIsCased ('Α' :: s) = true := by
  rw [nextIsCased_cons (by rw [isCaseIgnorable, Ranges.contains_eq]; decide +kernel)]
  decide +kernel

theorem nextIsCased_iota (s : List Char) : nextIsCased ('Ι' :: s) = true := by
  rw [nextIsCased_cons (by rw [isCaseIgnorable, Ranges.contains_eq]; decide +kernel)]
  decide +kernel

/-- The end of the title matches, although it begins with a sigma. -/
theorem select_copied_part_secondHalf :
    (Eligible Bridge.defaultPatterns asia ∧ Trimmed " ΣΙΑ".toList ['Σ', 'Ι', 'Α'] ∧
      asia.title.toList = ['Α'] ++ ['Σ', 'Ι', 'Α'] ++ []) ∧
    select [asia] Bridge.defaultPatterns (some " ΣΙΑ") = .ok asia := by
  have hpart : Trimmed " ΣΙΑ".toList ['Σ', 'Ι', 'Α'] := trimmed_iff.2 (by decide +kernel)
  have htitle : asia.title.toList = ['Α'] ++ ['Σ', 'Ι', 'Α'] ++ [] := rfl
  refine ⟨⟨asia_eligible, hpart, htitle⟩, ?_⟩
  -- The sigma is the first letter of the part, and the word goes on behind it.
  have hkeeps (front back : List Char) (hback : ['Σ', 'Ι', 'Α'] = front ++ 'Σ' :: back) :
      ¬ ChangesForm ['Α'] front back [] := by
    rcases front with _ | ⟨c, front⟩
    · rintro (⟨hfront, -, -⟩ | ⟨-, -, hright⟩)
      · cases hfront
      · rw [← (List.cons.inj hback).2, List.append_nil, nextIsCased_iota] at hright
        cases hright
    · have hmem : 'Σ' ∈ ['Ι', 'Α'] := by
        rw [(List.cons.inj hback).2]
        simp
      exact absurd hmem (by decide)
  obtain ⟨earlier, chosen, later, hsplit, hearlier, hchosen⟩ :=
    (@select_copied_part [] [] _ _ _ _ _ _ asia_eligible hpart htitle).1 hkeeps
  obtain rfl := List.eq_nil_of_length_eq_zero (Nat.le_zero.1 hearlier)
  cases hsplit
  exact hchosen

/-- **A part of a title can be missed.** The beginning of the title, taken as a word of its own,
ends in a sigma, which has its final form there but not in the title. -/
theorem copied_part_missed :
    ¬ ∀ (targets : List TargetDescriptor) (patterns : List String) (selector : String)
      (t : TargetDescriptor) (part : List Char), t ∈ targets → Eligible patterns t →
        Trimmed selector.toList part → part ≠ [] → part <:+: t.title.toList →
          ∃ chosen, select targets patterns (some selector) = .ok chosen := by
  intro h
  have hpart : Trimmed "ΑΣ".toList "ΑΣ".toList := trimmed_iff.2 (by decide +kernel)
  obtain ⟨chosen, hchosen⟩ := h [asia] Bridge.defaultPatterns "ΑΣ" asia "ΑΣ".toList
    (List.mem_singleton_self _) asia_eligible hpart (by simp) ⟨[], "ΙΑ".toList, rfl⟩
  -- The lower case of the two, letter by letter.
  have halpha (before after : List Char) : lowerChar before 'Α' after = ['α'] := by
    rw [lowerChar_eq (by decide) (by decide)]
    decide +kernel
  have hiota (before after : List Char) : lowerChar before 'Ι' after = ['ι'] := by
    rw [lowerChar_eq (by decide) (by decide)]
    decide +kernel
  have hword : lowerCase "ΑΣ".toList = ['α', 'ς'] := by
    simp [lowerCase, lowerBehind, lowerChar_sigma, isFinal, halpha, nextIsCased_alpha,
      show nextIsCased [] = false from rfl]
  have htitle : lowerCase asia.title.toList = ['α', 'σ', 'ι', 'α'] := by
    simp [asia, lowerCase, lowerBehind, lowerChar_sigma, isFinal, halpha, hiota, nextIsCased_iota]
  have hmissed : ¬ Qualifies (some "ΑΣ") asia := by
    have hselector : effectiveSelector (some "ΑΣ") = some "ΑΣ" :=
      effectiveSelector_eq_some_iff.2 ⟨_, rfl, hpart, by decide⟩
    rw [← isSelected_iff hselector, isSelected, titleMatches, hword, htitle]
    decide
  rw [select_eq, find?_eligibleTargets_eq_none_iff.2 (by simpa using fun _ => hmissed)] at hchosen
  cases hchosen

end CanvasLink.Target
