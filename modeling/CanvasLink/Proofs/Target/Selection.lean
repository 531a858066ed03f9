import CanvasLink.Proofs.Text.Cutting
import CanvasLink.Target.Selection

/-!
# CanvasLink — which document is picked

The directory of targets is searched once, from its first entry on. What is picked depends on the
eligible entries alone, and on their order.

* `Eligible`, `Qualifies` — the two questions that are asked of a target, said without searching.
* `pick_eq`, `select_eq` — the outcome in terms of the list of eligible targets.
* **`select_first_qualifying`** — the headline, in terms of the whole directory.
-/

namespace CanvasLink.Text

/-- A pattern occurs in a text exactly when it is a part of it. -/
theorem occursIn_iff {pattern s : List Char} : occursIn pattern s = true ↔ pattern <:+: s := by
  unfold occursIn
  cases hcut : breakBefore? pattern s with
  | none => simpa using not_infix_of_breakBefore? hcut
  | some parts =>
    obtain ⟨before, rest⟩ := parts
    refine iff_of_true rfl ?_
    exact (prefix_of_breakBefore? hcut).isInfix.trans (suffix_of_breakBefore? hcut).isInfix

end CanvasLink.Text

namespace CanvasLink.Target

open CanvasLink.Text CanvasLink.Wire

/-! ## The two questions -/

/-- The target is a page, as far as its kind tells, and its URL holds one of the patterns. -/
def Eligible (patterns : List String) (t : TargetDescriptor) : Prop :=
  (t.kind = "" ∨ t.kind = "page") ∧ ∃ pattern ∈ patterns, pattern.toList <:+: t.url.toList

/-- What a selector asks of a target. No selector and a blank one ask nothing; any other asks for
its id, or for a part of its title with letter case aside. -/
inductive Qualifies : Option String → TargetDescriptor → Prop
  | unasked {t} : Qualifies none t
  | blank {s t} : Blanks s.toList → Qualifies (some s) t
  | id {s t} : Trimmed s.toList t.id.toList → Qualifies (some s) t
  | title {s word t} : Trimmed s.toList word → lowerCase word <:+: lowerCase t.title.toList →
      Qualifies (some s) t

theorem isEligible_iff {patterns : List String} {t : TargetDescriptor} :
    isEligible patterns t = true ↔ Eligible patterns t := by
  simp [isEligible, isPage, contains, Eligible, occursIn_iff]

instance (patterns : List String) (t : TargetDescriptor) : Decidable (Eligible patterns t) :=
  decidable_of_iff _ isEligible_iff

/-- Nothing is left of a text exactly if it is blank. -/
theorem trimmed_nil_iff {s : List Char} : Trimmed s [] ↔ Blanks s := by
  constructor
  · rintro ⟨left, right, rfl, hleft, hright, -⟩
    intro c hc
    rcases List.mem_append.1 hc with hc | hc
    · exact hleft c hc
    · exact hright c hc
  · intro hs
    exact ⟨s, [], by simp, hs, .nil, by simp, by simp⟩

/-- Without a selector, or with a blank one, every title will do. -/
theorem effectiveSelector_eq_none_iff {selector : Option String} :
    effectiveSelector selector = none ↔ ∀ s, selector = some s → Blanks s.toList := by
  cases selector with
  | none => simp [effectiveSelector]
  | some s => simp [effectiveSelector, ← trimmed_nil_iff, trimmed_iff]

/-- A selector is its trimmed form, if that is not empty. -/
theorem effectiveSelector_eq_some_iff {selector : Option String} {word : String} :
    effectiveSelector selector = some word ↔
      ∃ s, selector = some s ∧ Trimmed s.toList word.toList ∧ word ≠ "" := by
  cases selector with
  | none => simp [effectiveSelector]
  | some s =>
    simp only [effectiveSelector, Option.map_some, Option.filter_eq_some_iff, Option.some.injEq,
      decide_eq_true_eq, exists_eq_left', trimmed_iff]
    rw [← String.toList_inj, String.toList_ofList]

/-- Every target qualifies when nothing is asked. -/
theorem qualifies_of_none {selector : Option String} (h : effectiveSelector selector = none)
    (t : TargetDescriptor) : Qualifies selector t := by
  cases selector with
  | none => exact .unasked
  | some s => exact .blank (effectiveSelector_eq_none_iff.1 h s rfl)

/-- The test for the title, with a selector. -/
theorem isSelected_iff {selector : Option String} {word : String} {t : TargetDescriptor}
    (h : effectiveSelector selector = some word) :
    isSelected word t = true ↔ Qualifies selector t := by
  obtain ⟨s, rfl, htrim, hne⟩ := effectiveSelector_eq_some_iff.1 h
  have hword {w : List Char} (hw : Trimmed s.toList w) : w = word.toList :=
    (trimmed_iff.1 hw).symm.trans (trimmed_iff.1 htrim)
  simp only [isSelected, titleMatches, Bool.or_eq_true, beq_iff_eq, occursIn_iff]
  constructor
  · rintro (rfl | htitle)
    · exact .id htrim
    · exact .title htrim htitle
  · rintro (_ | hblank | hid | ⟨hw, htitle⟩)
    · -- A selector that is looked at is not blank.
      have hnil := hword (trimmed_nil_iff.2 hblank)
      exact absurd (String.toList_eq_nil_iff.1 hnil.symm) hne
    · exact .inl (String.toList_inj.1 (hword hid))
    · rw [hword hw] at htitle
      exact .inr htitle

instance (selector : Option String) (t : TargetDescriptor) : Decidable (Qualifies selector t) :=
  match h : effectiveSelector selector with
  | none => isTrue (qualifies_of_none h t)
  | some _ => decidable_of_iff _ (isSelected_iff h)

/-! ## The search -/

section Search

variable (targets : List TargetDescriptor) (patterns : List String) (selector : Option String)

/-- The targets that may be attached to, in the order of the directory. -/
def eligibleTargets : List TargetDescriptor :=
  targets.filter (Eligible patterns ·)

/-- Why nothing is picked from the eligible targets. -/
def whyMissing : Missing :=
  if eligibleTargets targets patterns = [] then .noDocument patterns
  else .noMatch ((effectiveSelector selector).getD "")
    ((eligibleTargets targets patterns).map (·.title))

/-- A failure names the selector and the titles among which it was looked for. -/
theorem message_noMatch (word : String) (titles : List String) :
    (Missing.noMatch word titles).message =
      "no open Figma document matches \"" ++ word ++ "\"; open documents: " ++
        ", ".intercalate (titles.map fun title => "\"" ++ title ++ "\"") :=
  rfl

theorem filter_isEligible : targets.filter (isEligible patterns) = eligibleTargets targets patterns :=
  List.filter_congr fun t _ => by rw [Bool.eq_iff_iff, isEligible_iff, decide_eq_true_iff]

/-- **The search in one equation.** Of the eligible targets the first one that qualifies is
picked. -/
theorem pick_eq :
    pick targets patterns selector =
      match (eligibleTargets targets patterns).find? (Qualifies selector ·) with
      | some t => .ok t
      | none => .error (whyMissing targets patterns selector) := by
  unfold pick whyMissing
  rw [filter_isEligible]
  cases heligible : eligibleTargets targets patterns with
  | nil => rfl
  | cons first others =>
    cases hselector : effectiveSelector selector with
    | none => simp [qualifies_of_none hselector]
    | some word =>
      -- With a selector, the two tests are the same one.
      have hsame : isSelected word = fun t => decide (Qualifies selector t) := by
        funext t
        rw [Bool.eq_iff_iff, isSelected_iff hselector, decide_eq_true_iff]
      dsimp only
      rw [hsame]
      rfl

/-- The selection is the first target that may be selected and qualifies, or the failure that
fits. -/
theorem select_eq :
    select targets patterns selector =
      match (eligibleTargets targets patterns).find? (Qualifies selector ·) with
      | some t => .ok t
      | none => .error (.notFound (whyMissing targets patterns selector).message) := by
  rw [select, pick_eq]
  cases (eligibleTargets targets patterns).find? (Qualifies selector ·) <;> rfl

variable {targets patterns selector}

/-- The first of the eligible targets that qualifies is the first of all targets that is eligible
and qualifies. -/
theorem find?_eligibleTargets_eq_some_iff {t : TargetDescriptor} :
    (eligibleTargets targets patterns).find? (Qualifies selector ·) = some t ↔
      ∃ before after, targets = before ++ t :: after ∧ Eligible patterns t ∧ Qualifies selector t ∧
        ∀ u ∈ before, Eligible patterns u → ¬ Qualifies selector u := by
  rw [eligibleTargets, List.find?_filter, List.find?_eq_some_iff_append]
  simp only [decide_eq_true_eq, Bool.not_eq_true', decide_eq_false_iff_not, not_and]
  constructor
  · rintro ⟨⟨heligible, hqualifies⟩, before, after, hsplit, hbefore⟩
    exact ⟨before, after, hsplit, heligible, hqualifies, hbefore⟩
  · rintro ⟨before, after, hsplit, heligible, hqualifies, hbefore⟩
    exact ⟨⟨heligible, hqualifies⟩, before, after, hsplit, hbefore⟩

/-- Nothing is found exactly if no target may be selected and qualifies. -/
theorem find?_eligibleTargets_eq_none_iff :
    (eligibleTargets targets patterns).find? (Qualifies selector ·) = none ↔
      ∀ t ∈ targets, Eligible patterns t → ¬ Qualifies selector t := by
  simp [eligibleTargets]

end Search

/-! ## The headline -/

/-- **The first qualifying document is picked.** Of all targets the first one is picked that is
eligible and qualifies. Nothing is picked exactly when there is none; if there are eligible targets
all the same, the message lists the titles of all of them, in order, and nothing else. Targets that
are not eligible do not matter, whatever they are and wherever they stand. -/
theorem select_first_qualifying (targets : List TargetDescriptor) (patterns : List String)
    (selector : Option String) :
    (∀ t, select targets patterns selector = .ok t ↔
      ∃ before after, targets = before ++ t :: after ∧ Eligible patterns t ∧ Qualifies selector t ∧
        ∀ u ∈ before, Eligible patterns u → ¬ Qualifies selector u) ∧
    ((∃ error, select targets patterns selector = .error error) ↔
      ∀ t ∈ targets, Eligible patterns t → ¬ Qualifies selector t) ∧
    (∀ error, select targets patterns selector = .error error →
      (∃ t ∈ targets, Eligible patterns t) →
      ∃ s word, selector = some s ∧ Trimmed s.toList word ∧
        error = .notFound ("no open Figma document matches \"" ++ String.ofList word ++
          "\"; open documents: " ++ ", ".intercalate
            ((eligibleTargets targets patterns).map fun t => "\"" ++ t.title ++ "\""))) ∧
    ∀ others, eligibleTargets others patterns = eligibleTargets targets patterns →
      select others patterns selector = select targets patterns selector := by
  refine ⟨fun t => ?_, ?_, fun error herror ⟨t, ht, heligible⟩ => ?_, fun others hothers => ?_⟩
  · rw [select_eq, ← find?_eligibleTargets_eq_some_iff]
    cases (eligibleTargets targets patterns).find? (Qualifies selector ·) <;> simp
  · rw [select_eq, ← find?_eligibleTargets_eq_none_iff]
    cases (eligibleTargets targets patterns).find? (Qualifies selector ·) <;> simp
  · have hne : eligibleTargets targets patterns ≠ [] :=
      List.ne_nil_of_mem (List.mem_filter.2 ⟨ht, decide_eq_true heligible⟩)
    rw [select_eq] at herror
    split at herror
    · cases herror
    · next hnone =>
      cases herror
      -- Something is asked for, since the target at hand does not qualify.
      have hmissing : ¬ Qualifies selector t :=
        find?_eligibleTargets_eq_none_iff.1 hnone t ht heligible
      obtain ⟨word, hselector⟩ : ∃ word, effectiveSelector selector = some word :=
        Option.ne_none_iff_exists'.1 fun hselector => hmissing (qualifies_of_none hselector t)
      obtain ⟨s, hs, htrim, -⟩ := effectiveSelector_eq_some_iff.1 hselector
      refine ⟨s, word.toList, hs, htrim, ?_⟩
      rw [whyMissing, if_neg hne, hselector, Option.getD_some, message_noMatch, List.map_map,
        String.ofList_toList]
      rfl
  · simp only [select_eq, whyMissing, hothers]

/-- Two documents, between a page and a worker that are none. -/
def directory : List TargetDescriptor :=
  [{ id := "A", title := "Home", url := "https://www.figma.com/files/recent", kind := "page" },
   { id := "B", title := "Landing", url := "https://www.figma.com/design/abc/x" },
   { id := "C", title := "ROADMAP", url := "https://www.figma.com/board/def/x", kind := "page" },
   { id := "D", title := "Roadmap", url := "https://www.figma.com/design/abc/x", kind := "worker" }]

/-- A part of a title picks the second document. A selector that no document meets gets the titles
of the two, and gets the same when the other entries trade places. -/
theorem select_first_qualifying_directory :
    (∃ t, select directory Bridge.defaultPatterns (some " roadmap ") = .ok t ∧ t.id = "C") ∧
    select directory Bridge.defaultPatterns (some "Home") = .error (.notFound
      "no open Figma document matches \"Home\"; open documents: \"Landing\", \"ROADMAP\"") ∧
    select (directory.drop 3 ++ directory.take 3) Bridge.defaultPatterns (some "Home") =
      select directory Bridge.defaultPatterns (some "Home") := by
  obtain ⟨hfound, -, -, -⟩ :=
    select_first_qualifying directory Bridge.defaultPatterns (some " roadmap ")
  obtain ⟨-, hfails, hmessage, hothers⟩ :=
    select_first_qualifying directory Bridge.defaultPatterns (some "Home")
  refine ⟨⟨directory[2], (hfound _).2 ⟨directory.take 2, directory.drop 3, rfl, ?_⟩, rfl⟩, ?_,
    hothers _ (by decide +kernel)⟩
  · decide +kernel
  · obtain ⟨error, herror⟩ := hfails.2 (by decide +kernel)
    obtain ⟨s, word, hs, hword, rfl⟩ := hmessage error herror ⟨directory[1], by decide +kernel⟩
    cases hs
    rw [herror, ← trimmed_iff.1 hword]
    decide +kernel

end CanvasLink.Target
