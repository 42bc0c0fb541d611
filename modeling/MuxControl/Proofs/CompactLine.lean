/-
MuxControl.Proofs.CompactLine — the compact form of a JSON value is one
line.

Numbers are written in digits, signs, a point and the letter of an
exponent (`isNumeric_renderInt`, `isNumeric_render`), a newline in a
string is escaped (`newline_not_mem_escapeChar`), and between values
stand brackets, commas and colons only. So the compact form holds no
newline: `newline_not_mem_compact`.
-/
import MuxControl.Json.Printer

namespace MuxControl

/-! ## Numbers -/

/-- The characters that numbers are written in. -/
def IsNumeric (c : Char) : Prop := c.isDigit = true ∨ c ∈ ['.', 'e', '+', '-']

theorem isNumeric_digits (n : Nat) : ∀ c ∈ Nat.toDigits 10 n, IsNumeric c :=
  fun _ hmem => .inl (Nat.isDigit_of_mem_toDigits (by decide) (by decide) hmem)

theorem isNumeric_zeros (n : Nat) : ∀ c ∈ List.replicate n '0', IsNumeric c := by
  intro c hmem
  rw [List.eq_of_mem_replicate hmem]
  exact .inl (by decide)

theorem isNumeric_significant (d : Decimal) : ∀ c ∈ d.significant.1, IsNumeric c := by
  intro c hmem
  have hkept : c ∈ (Nat.toDigits 10 d.digits).reverse.dropWhile (· = '0') :=
    List.mem_reverse.mp hmem
  exact isNumeric_digits _ c (List.mem_reverse.mp ((List.dropWhile_sublist _).mem hkept))

theorem isNumeric_decimal (layout : Layout) (d : Decimal) :
    ∀ c ∈ d.render layout, IsNumeric c := by
  have hdigits := isNumeric_significant d
  have hzero : IsNumeric '0' := .inl (by decide)
  have hpoint : IsNumeric '.' := .inr (by decide)
  have hletter : IsNumeric 'e' := .inr (by decide)
  have hsign : IsNumeric '+' ∧ IsNumeric '-' := ⟨.inr (by decide), .inr (by decide)⟩
  unfold Decimal.render
  generalize d.significant = s at hdigits
  obtain ⟨digits, point⟩ := s
  simp only
  -- Zero, then plain notation below and above one, then an exponent.
  split
  · simp [hzero, hpoint]
  split
  · split
    · simp only [List.forall_mem_cons, List.forall_mem_append]
      exact ⟨hzero, hpoint, isNumeric_zeros _, hdigits⟩
    · have hwhole : ∀ c ∈ digits.take point.toNat, IsNumeric c :=
        fun c hmem => hdigits c (List.mem_of_mem_take hmem)
      have hfraction : ∀ c ∈ digits.drop point.toNat, IsNumeric c :=
        fun c hmem => hdigits c (List.mem_of_mem_drop hmem)
      simp only [List.forall_mem_cons, List.forall_mem_append]
      refine ⟨⟨hwhole, isNumeric_zeros _⟩, hpoint, ?_⟩
      split
      · simpa using hzero
      · exact hfraction
  · have hexponent : ∀ c ∈ 'e' :: (if point - 1 < 0 then '-' else '+') ::
        Nat.toDigits 10 (point - 1).natAbs, IsNumeric c := by
      simp only [List.forall_mem_cons]
      refine ⟨hletter, ?_, isNumeric_digits _⟩
      split
      · exact hsign.2
      · exact hsign.1
    simp only [List.forall_mem_append]
    refine ⟨?_, hexponent⟩
    match digits, hdigits with
    | [], _ => simpa using hzero
    | [c], hdigits => exact hdigits
    | c :: c' :: rest, hdigits =>
      simp only [List.forall_mem_cons] at hdigits ⊢
      exact ⟨hdigits.1, hpoint, hdigits.2⟩

theorem isNumeric_signed (negative : Prop) [Decidable negative] {cs : List Char}
    (hcs : ∀ c ∈ cs, IsNumeric c) :
    ∀ c ∈ (if negative then ['-'] else []) ++ cs, IsNumeric c := by
  have hsign : IsNumeric '-' := .inr (by decide)
  rw [List.forall_mem_append]
  refine ⟨?_, hcs⟩
  split
  · simpa using hsign
  · simp

theorem newline_not_mem_of_isNumeric {cs : List Char} (hcs : ∀ c ∈ cs, IsNumeric c) :
    '\n' ∉ cs := by
  intro hmem
  rcases hcs _ hmem with hdigit | hother
  · exact absurd hdigit (by decide)
  · exact absurd hother (by decide)

namespace Json

theorem isNumeric_renderInt (i : Int) : ∀ c ∈ renderInt i, IsNumeric c :=
  isNumeric_signed _ (isNumeric_digits _)

theorem isNumeric_render (x : Binary64) : ∀ c ∈ x.render numberLayout, IsNumeric c :=
  isNumeric_signed _ (isNumeric_decimal _ _)

/-! ## Strings -/

theorem digitChar_ne_newline : ∀ n < 16, Nat.digitChar n ≠ '\n' := by decide

theorem newline_not_mem_escapeChar (c : Char) : '\n' ∉ escapeChar c := by
  by_cases hc : c = '\n'
  · subst hc
    decide
  · unfold escapeChar
    split
    any_goals decide
    split
    · next hlow =>
      have hhigh := digitChar_ne_newline (c.toNat / 16) (by omega)
      have hrest := digitChar_ne_newline (c.toNat % 16) (by omega)
      simp [hhigh.symm, hrest.symm]
    · simpa using Ne.symm hc

theorem newline_not_mem_renderString (s : String) : '\n' ∉ renderString s := by
  unfold renderString
  simp [newline_not_mem_escapeChar]

/-! ## Values -/

mutual

theorem newline_not_mem_render : (v : Json) → '\n' ∉ render v
  | .null => by decide
  | .bool true => by decide
  | .bool false => by decide
  | .int i => newline_not_mem_of_isNumeric (isNumeric_renderInt i)
  | .float x => newline_not_mem_of_isNumeric (isNumeric_render x)
  | .string s => newline_not_mem_renderString s
  | .array items => by simp [render, newline_not_mem_renderItems items]
  | .object members => by simp [render, newline_not_mem_renderMembers members]

theorem newline_not_mem_renderItems : (items : List Json) → '\n' ∉ renderItems items
  | [] => by simp [renderItems]
  | [x] => newline_not_mem_render x
  | x :: y :: ys => by
    simp [renderItems, newline_not_mem_render x, newline_not_mem_renderItems (y :: ys)]

theorem newline_not_mem_renderMembers :
    (members : List (String × Json)) → '\n' ∉ renderMembers members
  | [] => by simp [renderMembers]
  | [(k, x)] => by
    simp [renderMembers, newline_not_mem_renderString k, newline_not_mem_render x]
  | (k, x) :: y :: ys => by
    simp [renderMembers, newline_not_mem_renderString k, newline_not_mem_render x,
      newline_not_mem_renderMembers (y :: ys)]

end

/-- The compact form is one line. -/
theorem newline_not_mem_compact (v : Json) : '\n' ∉ v.compact.toList := by
  rw [compact, String.toList_ofList]
  exact newline_not_mem_render v

end Json

end MuxControl
