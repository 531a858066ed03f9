import CanvasLink.Text.Blank
import CanvasLink.Text.Search
import Mathlib.Data.List.TakeWhile

/-!
# CanvasLink — what trimming and cutting leave

`trim` and `breakBefore?` are scanners; this module says what they compute without scanning.

* `Trimmed s t` — `t` is `s` without the blank characters at its ends; `trimmed_iff` is the
  transport to `trim`.
* `EndsAtFirst pattern s` — `s` ends with `pattern`, and `pattern` occurs nowhere earlier in it;
  `breakBefore?_of_endsAtFirst` and `endsAtFirst_of_breakBefore?` are the two directions for
  `breakBefore?`.
-/

namespace CanvasLink.Text

/-! ## Blank characters at the ends -/

/-- A text of blank characters only. -/
def Blanks (s : List Char) : Prop :=
  ∀ c ∈ s, isBlank c = true

theorem Blanks.nil : Blanks [] := fun _ h => by simp at h

theorem Blanks.space : Blanks [' '] := by
  intro c hc
  cases List.mem_singleton.1 hc
  decide

/-- Blank characters behind blank characters. -/
theorem Blanks.append {v w : List Char} (hv : Blanks v) (hw : Blanks w) : Blanks (v ++ w) := by
  intro c hc
  obtain hc | hc := List.mem_append.1 hc
  · exact hv c hc
  · exact hw c hc

/-- Among blank characters there is none that is not. -/
theorem Blanks.notMem {w : List Char} (hw : Blanks w) {c : Char} (hc : isBlank c = false) :
    c ∉ w := by
  intro hmem
  rw [hw c hmem] at hc
  cases hc

/-- A blank text in front is passed over. -/
theorem skipBlanks_append {w : List Char} (hw : Blanks w) (s : List Char) :
    skipBlanks (w ++ s) = skipBlanks s :=
  List.dropWhile_append_of_pos hw

/-- A text that does not start with a blank character is left as it is. -/
theorem skipBlanks_eq_self {s : List Char} (h : ∀ c ∈ s.head?, isBlank c = false) :
    skipBlanks s = s := by
  cases s with
  | nil => rfl
  | cons c s =>
    have hc : isBlank c = false := h c rfl
    simp [skipBlanks, hc]

/-- Behind the blank characters that are skipped there is none. -/
theorem head?_skipBlanks (s : List Char) : ∀ c ∈ (skipBlanks s).head?, isBlank c = false := by
  intro c hc
  have h := List.head?_dropWhile_not isBlank s
  rw [show (s.dropWhile isBlank).head? = some c from hc] at h
  simpa using h

/-- What `skipBlanks` passes over is blank. -/
theorem exists_blanks_append_skipBlanks (s : List Char) :
    ∃ w, Blanks w ∧ s = w ++ skipBlanks s := by
  refine ⟨s.takeWhile isBlank, fun c hc => ?_, List.takeWhile_append_dropWhile.symm⟩
  exact List.mem_takeWhile_imp hc

/-- `t` is `s` without the blank characters at both ends. -/
def Trimmed (s t : List Char) : Prop :=
  ∃ left right, s = left ++ (t ++ right) ∧ Blanks left ∧ Blanks right ∧
    (∀ c ∈ t.head?, isBlank c = false) ∧ ∀ c ∈ t.getLast?, isBlank c = false

/-- Dropping at the end is dropping at the start, read backwards. -/
theorem trimEnd_append {t w : List Char} (ht : ∀ c ∈ t.getLast?, isBlank c = false)
    (hw : Blanks w) : trimEnd (t ++ w) = t := by
  have hrev : Blanks w.reverse := fun c hc => hw c (List.mem_reverse.1 hc)
  have hlast : ∀ c ∈ t.reverse.head?, isBlank c = false := by
    rw [List.head?_reverse]
    exact ht
  have h : ((t ++ w).reverse).dropWhile isBlank = t.reverse := by
    rw [List.reverse_append]
    exact (skipBlanks_append hrev t.reverse).trans (skipBlanks_eq_self hlast)
  rw [trimEnd, h, List.reverse_reverse]

/-- What is trimmed off the end is blank, and nothing blank is left there. -/
theorem exists_trimEnd_append_blanks (s : List Char) :
    ∃ w, Blanks w ∧ s = trimEnd s ++ w ∧ ∀ c ∈ (trimEnd s).getLast?, isBlank c = false := by
  obtain ⟨w, hw, hs⟩ := exists_blanks_append_skipBlanks s.reverse
  refine ⟨w.reverse, fun c hc => hw c (List.mem_reverse.1 hc), ?_, ?_⟩
  · calc s = (w ++ skipBlanks s.reverse).reverse := by rw [← hs, List.reverse_reverse]
      _ = trimEnd s ++ w.reverse := by rw [List.reverse_append]; rfl
  · intro c hc
    refine head?_skipBlanks s.reverse c ?_
    rw [← List.getLast?_reverse]
    exact hc

/-- **`trim` in terms of the text around the result.** -/
theorem trimmed_iff {s t : List Char} : Trimmed s t ↔ trim s = t := by
  constructor
  · rintro ⟨left, right, rfl, hleft, hright, hhead, hlast⟩
    rw [trim, skipBlanks_append hleft]
    cases t with
    | nil =>
      have h : skipBlanks right = [] := List.dropWhile_eq_nil_iff.2 hright
      rw [List.nil_append, h]
      rfl
    | cons c t =>
      rw [skipBlanks_eq_self (s := c :: t ++ right) hhead]
      exact trimEnd_append hlast hright
  · rintro rfl
    obtain ⟨left, hleft, hs⟩ := exists_blanks_append_skipBlanks s
    obtain ⟨right, hright, ht, hlast⟩ := exists_trimEnd_append_blanks (skipBlanks s)
    refine ⟨left, right, ?_, hleft, hright, ?_, hlast⟩
    · rw [show trim s ++ right = skipBlanks s from ht.symm]
      exact hs
    · -- The result starts where the text without its leading blanks starts, unless it is empty.
      intro c hc
      refine head?_skipBlanks s c ?_
      rw [ht]
      cases h : trimEnd (skipBlanks s) with
      | nil =>
        rw [trim, h] at hc
        simp at hc
      | cons d t =>
        rw [trim, h] at hc
        exact hc

/-! ## The first occurrence of a pattern -/

/-- `s` ends with `pattern`, which occurs nowhere earlier in `s`; `before` is what stands before
it. -/
structure EndsAtFirst (pattern before s : List Char) : Prop where
  ends : s = before ++ pattern
  first : ∀ a, a ++ pattern <+: s → before.length ≤ a.length

/-- Cutting a text at the first occurrence of a pattern, when what is cut off ends with it. -/
theorem breakBefore?_of_endsAtFirst {pattern before s : List Char}
    (h : EndsAtFirst pattern before s) (rest : List Char) :
    breakBefore? pattern (s ++ rest) = some (before, pattern ++ rest) := by
  obtain ⟨rfl, hfirst⟩ := h
  induction before with
  | nil =>
    cases pattern with
    | nil =>
      cases rest <;> simp [breakBefore?]
    | cons p pattern =>
      have hp : (p :: pattern).isPrefixOf (p :: (pattern ++ rest)) = true :=
        List.isPrefixOf_iff_prefix.2 ⟨rest, rfl⟩
      simp only [List.nil_append, List.cons_append, breakBefore?]
      rw [if_pos hp]
  | cons c before ih =>
    -- An occurrence at the front would end before the first one does.
    have hlater : ¬ pattern.isPrefixOf (c :: (before ++ pattern ++ rest)) = true := by
      intro hp
      have hpre : pattern <+: (c :: (before ++ pattern)) := by
        refine List.prefix_of_prefix_length_le (List.isPrefixOf_iff_prefix.1 hp)
          ⟨rest, rfl⟩ ?_
        simp only [List.length_cons, List.length_append]
        omega
      have hlen := hfirst [] hpre
      simp at hlen
    have hrest := ih fun a ha => by
      have hlen := hfirst (c :: a) (List.cons_prefix_cons.2 ⟨rfl, ha⟩)
      simpa using hlen
    simp only [List.cons_append, breakBefore?]
    rw [if_neg hlater, hrest]
    rfl

/-- What is cut off, together with the pattern, ends at the pattern's first occurrence. -/
theorem endsAtFirst_of_breakBefore? {pattern s before rest : List Char}
    (h : breakBefore? pattern s = some (before, rest)) :
    EndsAtFirst pattern before (before ++ pattern) ∧ rest = pattern ++ rest.drop pattern.length := by
  have hrest : rest = pattern ++ rest.drop pattern.length := by
    obtain ⟨t, ht⟩ := prefix_of_breakBefore? h
    rw [← ht, List.drop_left]
  refine ⟨⟨rfl, ?_⟩, hrest⟩
  induction s generalizing before with
  | nil =>
    simp only [breakBefore?] at h
    split at h
    · cases h
      intro a _
      exact Nat.zero_le _
    · cases h
  | cons c s ih =>
    simp only [breakBefore?] at h
    split at h
    · cases h
      intro a _
      exact Nat.zero_le _
    · next hnot =>
      obtain ⟨⟨b, r⟩, hb, hparts⟩ := Option.map_eq_some_iff.1 h
      cases hparts
      intro a ha
      cases a with
      | nil =>
        -- An occurrence at the very start has just been ruled out.
        refine absurd (List.isPrefixOf_iff_prefix.2 ?_) hnot
        obtain ⟨t, ht⟩ := prefix_of_breakBefore? hb
        have hs : c :: s = c :: b ++ pattern ++ t := by
          rw [← append_of_breakBefore? hb, ← ht]
          simp
        rw [hs]
        exact ha.trans (List.prefix_append _ _)
      | cons d a =>
        have hle := ih hb a (List.cons_prefix_cons.1 ha).2
        simpa using hle

/-- A pattern does not occur in front of a text without the pattern's first character. -/
theorem endsAtFirst_of_notMem {p : Char} {ps s : List Char} (h : p ∉ s) :
    EndsAtFirst (p :: ps) s (s ++ p :: ps) := by
  refine ⟨rfl, fun a ha => ?_⟩
  rcases Nat.lt_or_ge a.length s.length with hlt | hge
  · -- An earlier occurrence would start inside `s`.
    refine absurd ?_ h
    have hstart : a ++ [p] <+: a ++ p :: ps := by simp
    have hpre : a ++ [p] <+: s := by
      refine List.prefix_of_prefix_length_le (hstart.trans ha) (List.prefix_append s _) ?_
      simp only [List.length_append, List.length_singleton]
      omega
    exact hpre.subset (by simp)
  · exact hge

/-- A text is cut in front of a pattern, if its first character stands nowhere before. -/
theorem breakBefore?_append {p : Char} {ps s rest : List Char} (h : p ∉ s)
    (hrest : p :: ps <+: rest) : breakBefore? (p :: ps) (s ++ rest) = some (s, rest) := by
  obtain ⟨t, rfl⟩ := hrest
  rw [← List.append_assoc]
  exact breakBefore?_of_endsAtFirst (endsAtFirst_of_notMem h) t

/-- A character is not found exactly if it is not there. -/
theorem breakBefore?_singleton_eq_none {c : Char} {s : List Char} :
    breakBefore? [c] s = none ↔ c ∉ s := by
  induction s with
  | nil => simp [breakBefore?]
  | cons d s ih =>
    by_cases hd : d = c
    · simp [breakBefore?, hd]
    · have hc : ¬ c = d := fun h => hd h.symm
      simp [breakBefore?, hc, ih]

/-- A text that is not cut does not hold the pattern. -/
theorem not_infix_of_breakBefore? {pattern s : List Char} (h : breakBefore? pattern s = none) :
    ¬ pattern <:+: s := by
  induction s with
  | nil =>
    intro hin
    rw [List.infix_nil.1 hin] at h
    simp [breakBefore?] at h
  | cons c s ih =>
    simp only [breakBefore?] at h
    split at h
    · cases h
    · next hpre =>
      intro hin
      -- An occurrence begins here or further on.
      rcases List.infix_cons_iff.1 hin with hstart | hlater
      · exact hpre (List.isPrefixOf_iff_prefix.2 hstart)
      · exact ih (Option.map_eq_none_iff.1 h) hlater

/-- In front of the first place of a character there is none of it. -/
theorem notMem_of_endsAtFirst {c : Char} {before s : List Char}
    (h : EndsAtFirst [c] before s) : c ∉ before := by
  intro hc
  obtain ⟨a, b, rfl⟩ := List.append_of_mem hc
  have hle := h.first a ⟨b ++ [c], by rw [h.ends]; simp⟩
  simp only [List.length_append, List.length_cons] at hle
  omega

end CanvasLink.Text
