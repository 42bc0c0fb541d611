/-
MuxControl.Proofs.ReadShape — what a text can be read as.

Every value that is read is proper (`proper_of_parse`): what is read as
an integer fits 64 bits, the members of an object are put in order, and
containers are nested no deeper than the reader allows. So whatever is
read can be written and read again.
-/
import MuxControl.Proofs.ReadBack

namespace MuxControl.Json

/-! ## Numbers -/

section Numbers

variable {negative : Bool} {significand : Nat} {exponent : Int} {s rest : List Char} {v : Json}

theorem takeDigits_le {bound n : Nat} (hn : n ≤ bound) (ds : List Char) :
    (takeDigits bound n ds).1 ≤ bound := by
  induction ds generalizing n with
  | nil => exact hn
  | cons c rest ih =>
    simp only [takeDigits]
    split
    · next hnext => exact ih hnext
    · exact hn

/-- What is read with a fraction or an exponent is a floating point
number. -/
theorem scaledNumber_float (h : scaledNumber negative significand exponent s = .ok (v, rest)) :
    ∃ x, v = .float x := by
  unfold scaledNumber at h
  split at h
  · cases h
    exact ⟨_, rfl⟩
  · cases h

theorem readExponent_float (h : readExponent negative significand exponent s = .ok (v, rest)) :
    ∃ x, v = .float x := by
  unfold readExponent at h
  simp only at h
  split at h
  · cases h
  split at h
  · cases h
  split at h
  · exact scaledNumber_float h
  · -- The digits of the exponent do not fit, whatever its sign.
    split at h
    all_goals
      split at h
      · cases h
      · cases h
        exact ⟨_, rfl⟩

theorem readScale_float (h : readScale negative significand exponent s = .ok (v, rest)) :
    ∃ x, v = .float x := by
  unfold readScale at h
  split at h
  · exact readExponent_float h
  · exact readExponent_float h
  · exact scaledNumber_float h

theorem readFraction_float (h : readFraction negative significand exponent s = .ok (v, rest)) :
    ∃ x, v = .float x := by
  unfold readFraction at h
  simp only at h
  split at h
  · cases h
  · cases h
  · exact readScale_float h

theorem proper_of_float {depth : Nat} (h : ∃ x, v = .float x) : Proper depth v := by
  obtain ⟨x, rfl⟩ := h
  exact .float x

theorem proper_of_finishInteger (depth : Nat) (hfits : significand ≤ maxSignificand)
    (h : finishInteger negative significand s = .ok (v, rest)) : Proper depth v := by
  unfold finishInteger at h
  split at h
  · exact proper_of_float (readFraction_float h)
  · exact proper_of_float (readExponent_float h)
  · exact proper_of_float (readExponent_float h)
  split at h
  · cases h
    unfold maxSignificand at hfits
    exact .int (by omega) (by omega)
  split at h
  · exact proper_of_float (scaledNumber_float h)
  · next hsmall =>
    cases h
    simp only [Bool.or_eq_true, decide_eq_true_eq, not_or] at hsmall
    exact .int (by omega) (by omega)

theorem proper_of_readNumber (depth : Nat) (h : readNumber negative s = .ok (v, rest)) :
    Proper depth v := by
  unfold readNumber at h
  split at h
  · cases h
  · split at h
    · split at h
      · cases h
      · exact proper_of_finishInteger depth (Nat.zero_le _) h
    · exact proper_of_finishInteger depth (Nat.zero_le _) h
  · split at h
    · cases h
    simp only at h
    split at h
    · next n hdigits =>
      have hle : (n, ([] : List Char)).1 ≤ maxSignificand :=
        hdigits ▸ takeDigits_le (Nat.zero_le _) _
      exact proper_of_finishInteger depth hle h
    · split at h
      · exact proper_of_float (readFraction_float h)
      · exact proper_of_float (readScale_float h)

end Numbers

/-! ## Containers -/

section Containers

variable {item : Reader} {depth : Nat} {s rest : List Char} {v : Json}

theorem proper_of_readIdent {letters : List Char} {value : Json} (hvalue : Proper depth value)
    (h : readIdent value letters s = .ok (v, rest)) : Proper depth v := by
  induction letters generalizing s with
  | nil =>
    cases h
    exact hvalue
  | cons l letters ih =>
    cases s with
    | nil => cases h
    | cons c s =>
      simp only [readIdent] at h
      split at h
      · exact ih h
      · cases h

/-- Items that are read are added to those read so far. -/
theorem proper_of_readItems (hitem : ∀ {s v rest}, item s = .ok (v, rest) → Proper depth v)
    {rounds : Nat} {read : List Json} (hread : ∀ x ∈ read, Proper depth x)
    (h : readItems item rounds read s = .ok (v, rest)) : Proper (depth + 1) v := by
  induction rounds generalizing read s with
  | zero => cases h
  | succ rounds ih =>
    simp only [readItems] at h
    split at h
    · cases h
    next x behind hx =>
    have hall : ∀ y ∈ x :: read, Proper depth y := List.forall_mem_cons.mpr ⟨hitem hx, hread⟩
    split at h
    · cases h
    · cases h
      exact .array fun y hy => hall y (List.mem_reverse.mp hy)
    · split at h
      · cases h
      · cases h
      · exact ih hall h
    · cases h

theorem proper_of_readList (hitem : ∀ {s v rest}, item s = .ok (v, rest) → Proper depth v)
    {rounds : Nat} (h : readList item rounds s = .ok (v, rest)) : Proper (depth + 1) v := by
  unfold readList at h
  split at h
  · cases h
  · cases h
    exact .array (by simp)
  · exact proper_of_readItems hitem (by simp) h

theorem proper_of_readMember (hitem : ∀ {s v rest}, item s = .ok (v, rest) → Proper depth v)
    {m : String × Json} (h : readMember item s = .ok (m, rest)) : Proper depth m.2 := by
  unfold readMember at h
  split at h
  · cases h
  split at h
  · cases h
  · split at h
    · cases h
    next hv =>
    cases h
    exact hitem hv
  · cases h

/-- Members that are read are put in order among those read so far. -/
theorem proper_of_readMembers (hitem : ∀ {s v rest}, item s = .ok (v, rest) → Proper depth v)
    {rounds : Nat} {read : List (String × Json)} (hordered : Keyed.Ordered read)
    (hread : ∀ m ∈ read, Proper depth m.2)
    (h : readMembers item rounds read s = .ok (v, rest)) : Proper (depth + 1) v := by
  induction rounds generalizing read s with
  | zero => cases h
  | succ rounds ih =>
    simp only [readMembers] at h
    split at h
    · cases h
    next name x behind hm =>
    have hordered' := hordered.put name x
    have hall : ∀ m ∈ Keyed.put name x read, Proper depth m.2 := by
      intro m hmem
      rcases Keyed.mem_of_mem_put hmem with rfl | hold
      · exact proper_of_readMember hitem hm
      · exact hread m hold
    split at h
    · cases h
    · cases h
      exact .object hordered' hall
    · split at h
      · cases h
      · exact ih hordered' hall h
      · cases h
      · cases h
    · cases h

theorem proper_of_readObject (hitem : ∀ {s v rest}, item s = .ok (v, rest) → Proper depth v)
    {rounds : Nat} (h : readObject item rounds s = .ok (v, rest)) : Proper (depth + 1) v := by
  unfold readObject at h
  split at h
  · cases h
  · cases h
    exact .object Keyed.ordered_nil (by simp)
  · exact proper_of_readMembers hitem Keyed.ordered_nil (by simp) h
  · cases h

end Containers

/-! ## Values -/

section Values

variable {rounds depth : Nat} {s rest : List Char} {v : Json}

/-- One more container is nested around values that are proper. -/
theorem proper_of_readValue_within
    (hwithin : ∀ d, depth = d + 1 → ∀ {s v rest}, readValue rounds d s = .ok (v, rest) → Proper d v)
    (h : readValue rounds depth s = .ok (v, rest)) : Proper depth v := by
  unfold readValue at h
  split at h
  · cases h
  · exact proper_of_readIdent .null h
  · exact proper_of_readIdent (.bool true) h
  · exact proper_of_readIdent (.bool false) h
  · exact proper_of_readNumber depth h
  · split at h
    · cases h
    · cases h
      exact .string _
  · cases depth with
    | zero => cases h
    | succ depth => exact proper_of_readList (hwithin depth rfl) h
  · cases depth with
    | zero => cases h
    | succ depth => exact proper_of_readObject (hwithin depth rfl) h
  · split at h
    · exact proper_of_readNumber depth h
    · cases h

theorem proper_of_readValue (h : readValue rounds depth s = .ok (v, rest)) : Proper depth v := by
  induction depth generalizing s v rest with
  | zero => exact proper_of_readValue_within (fun _ hzero => by cases hzero) h
  | succ depth ih =>
    refine proper_of_readValue_within (fun d hsucc => ?_) h
    cases hsucc
    exact ih

/-- **What is read is proper.** -/
theorem proper_of_parse {text : String} (h : parse text = .ok v) :
    Proper maxDepth v := by
  unfold parse parseChars at h
  split at h
  · cases h
  next hread =>
  split at h
  · cases h
    exact proper_of_readValue hread
  · cases h

end Values

end MuxControl.Json
