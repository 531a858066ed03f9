import CanvasLink.Text.Search
import Mathlib.Data.String.Basic

/-!
# CanvasLink — byte positions in a text

A text is cut at a number of bytes, which need not lie between two characters: then, and behind the
end, there is nothing to cut.

* `splitAtByte?` — the cut, and `slice?` — the part between two byte positions.
* `splitAtByte?_eq_some_iff`, `slice?_append` — what they compute.
* `isValid_iff_splitAtByte?` — the positions of a cut are the valid ones of the library.
-/

namespace CanvasLink.Text

/-- The bytes of two texts add up. -/
theorem utf8Length_append (a b : List Char) : utf8Length (a ++ b) = utf8Length a + utf8Length b := by
  induction a with
  | nil => exact (Nat.zero_add _).symm
  | cons c a ih => rw [List.cons_append, utf8Length, ih, utf8Length, Nat.add_assoc]

theorem utf8Length_eq_utf8Len (s : List Char) : utf8Length s = String.utf8Len s := by
  induction s with
  | nil => rfl
  | cons c s ih => rw [utf8Length, ih, String.utf8Len_cons, Nat.add_comm]

theorem utf8Length_toList (s : String) : utf8Length s.toList = s.utf8ByteSize := by
  rw [utf8Length_eq_utf8Len, ← String.utf8ByteSize_ofList, String.ofList_toList]

/-- Each character has a byte at least. -/
theorem length_le_utf8Length (s : List Char) : s.length ≤ utf8Length s := by
  induction s with
  | nil => exact Nat.le_refl 0
  | cons c s ih =>
    have hc := c.utf8Size_pos
    rw [List.length_cons, utf8Length]
    omega

/-- The parts of a text in front of and behind a byte position. -/
def splitAtByte? : Nat → List Char → Option (List Char × List Char)
  | 0, s => some ([], s)
  | _ + 1, [] => none
  | n + 1, c :: s =>
    if c.utf8Size ≤ n + 1 then
      (splitAtByte? (n + 1 - c.utf8Size) s).map fun parts => (c :: parts.1, parts.2)
    else none

/-- A text can be cut behind any of its first characters. -/
theorem splitAtByte?_append (a b : List Char) :
    splitAtByte? (utf8Length a) (a ++ b) = some (a, b) := by
  induction a with
  | nil => cases b <;> rfl
  | cons c a ih =>
    have hc := c.utf8Size_pos
    -- The length is not zero, so it is the clause for a successor that applies.
    obtain ⟨n, hn⟩ : ∃ n, utf8Length (c :: a) = n + 1 := by
      rw [utf8Length]
      exact Nat.exists_eq_succ_of_ne_zero (by omega)
    have hrest : n + 1 - c.utf8Size = utf8Length a := by
      rw [← hn, utf8Length, Nat.add_sub_cancel_left]
    have hfits : c.utf8Size ≤ n + 1 := by
      rw [← hn, utf8Length]
      exact Nat.le_add_right _ _
    rw [hn, List.cons_append, splitAtByte?, if_pos hfits, hrest, ih]
    rfl

/-- **A cut is a splitting of the text.** -/
theorem splitAtByte?_eq_some_iff {n : Nat} {s a b : List Char} :
    splitAtByte? n s = some (a, b) ↔ s = a ++ b ∧ utf8Length a = n := by
  constructor
  · intro h
    fun_induction splitAtByte? n s generalizing a with
    | case1 s =>
      cases h
      exact ⟨rfl, rfl⟩
    | case2 => cases h
    | case3 n c s hfits ih =>
      obtain ⟨⟨a', b'⟩, hparts, hab⟩ := Option.map_eq_some_iff.1 h
      cases hab
      obtain ⟨rfl, hlength⟩ := ih hparts
      refine ⟨rfl, ?_⟩
      rw [utf8Length, hlength]
      omega
    | case4 => cases h
  · rintro ⟨rfl, rfl⟩
    exact splitAtByte?_append a b

/-- The part of a text between two byte positions. -/
def slice? (start stop : Nat) (s : List Char) : Option (List Char) :=
  if start ≤ stop then do
    let (_, behind) ← splitAtByte? start s
    let (part, _) ← splitAtByte? (stop - start) behind
    return part
  else none

theorem slice?_append (a b c : List Char) :
    slice? (utf8Length a) (utf8Length a + utf8Length b) (a ++ (b ++ c)) = some b := by
  rw [slice?, if_pos (Nat.le_add_right _ _), splitAtByte?_append, Nat.add_sub_cancel_left]
  simp only [bind, Option.bind, splitAtByte?_append, pure]

/-- **A text is cut at the valid positions and at no others.** -/
theorem isValid_iff_splitAtByte? {s : String} {n : Nat} :
    String.Pos.Raw.IsValid s ⟨n⟩ ↔ ∃ parts, splitAtByte? n s.toList = some parts := by
  rw [String.Pos.Raw.isValid_iff_exists_append]
  constructor
  · rintro ⟨a, b, rfl, hn⟩
    refine ⟨(a.toList, b.toList), splitAtByte?_eq_some_iff.2 ⟨String.toList_append, ?_⟩⟩
    rw [utf8Length_toList]
    exact (congrArg String.Pos.Raw.byteIdx hn).symm
  · rintro ⟨⟨a, b⟩, hparts⟩
    obtain ⟨hs, rfl⟩ := splitAtByte?_eq_some_iff.1 hparts
    refine ⟨String.ofList a, String.ofList b, ?_, ?_⟩
    · rw [← String.ofList_append, ← hs, String.ofList_toList]
    · rw [utf8Length_eq_utf8Len, ← String.utf8ByteSize_ofList]
      rfl

end CanvasLink.Text
