/-!
# CanvasLink — finding one text in another

`breakBefore?` cuts a text before the first occurrence of a pattern. The two lemmas beside it say
that nothing is lost by the cut and that the second part starts with the pattern; what the
scanners need about lengths follows from them.
-/

namespace CanvasLink.Text

/-- Cuts `s` before the first occurrence of `pattern`: the part before it and the part from it
on, or nothing when the pattern does not occur. -/
def breakBefore? (pattern : List Char) : List Char → Option (List Char × List Char)
  | [] => if pattern.isEmpty then some ([], []) else none
  | c :: s =>
    if pattern.isPrefixOf (c :: s) then some ([], c :: s)
    else (breakBefore? pattern s).map fun parts => (c :: parts.1, parts.2)

/-- Whether `pattern` occurs in `s`. -/
def occursIn (pattern s : List Char) : Bool :=
  (breakBefore? pattern s).isSome

/-- Number of bytes of the text in UTF-8. -/
def utf8Length : List Char → Nat
  | [] => 0
  | c :: s => c.utf8Size + utf8Length s

theorem append_of_breakBefore? {pattern s before rest : List Char}
    (h : breakBefore? pattern s = some (before, rest)) : before ++ rest = s := by
  induction s generalizing before with
  | nil =>
    simp only [breakBefore?] at h
    split at h <;> simp_all
  | cons c s ih =>
    simp only [breakBefore?] at h
    split at h
    · simp only [Option.some.injEq, Prod.mk.injEq] at h
      obtain ⟨rfl, rfl⟩ := h
      rfl
    · obtain ⟨⟨a, b⟩, hab, hparts⟩ := Option.map_eq_some_iff.1 h
      simp only [Prod.mk.injEq] at hparts
      obtain ⟨rfl, rfl⟩ := hparts
      simp [ih hab]

theorem prefix_of_breakBefore? {pattern s before rest : List Char}
    (h : breakBefore? pattern s = some (before, rest)) : pattern <+: rest := by
  induction s generalizing before with
  | nil =>
    simp only [breakBefore?] at h
    split at h
    · next he =>
      rw [List.isEmpty_iff.1 he]
      exact List.nil_prefix
    · simp at h
  | cons c s ih =>
    simp only [breakBefore?] at h
    split at h
    · next hp =>
      simp only [Option.some.injEq, Prod.mk.injEq] at h
      obtain ⟨rfl, rfl⟩ := h
      exact List.isPrefixOf_iff_prefix.1 hp
    · obtain ⟨⟨a, b⟩, hab, hparts⟩ := Option.map_eq_some_iff.1 h
      simp only [Prod.mk.injEq] at hparts
      obtain ⟨rfl, rfl⟩ := hparts
      exact ih hab

theorem suffix_of_breakBefore? {pattern s before rest : List Char}
    (h : breakBefore? pattern s = some (before, rest)) : rest <:+ s :=
  ⟨before, append_of_breakBefore? h⟩

/-- What stands behind the pattern is shorter than the text by at least the pattern. -/
theorem length_drop_of_breakBefore? {pattern s before rest : List Char}
    (h : breakBefore? pattern s = some (before, rest)) :
    (rest.drop pattern.length).length + pattern.length ≤ s.length := by
  have hp := (prefix_of_breakBefore? h).length_le
  have hs := (suffix_of_breakBefore? h).length_le
  simp only [List.length_drop]
  omega

end CanvasLink.Text
