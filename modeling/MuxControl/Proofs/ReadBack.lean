/-
MuxControl.Proofs.ReadBack — what the written forms of a JSON value are
read as.

The two forms differ in their white space only, so both are cases of one
(`spaced`), and what is read does not depend on it (`readValue_spaced`):
the value, with every floating point number as it is reread
(`Json.reread`) and all members in order (`Json.arranged`). This holds of
values with integers of 64 bits and no deeper nesting than the reader
allows (`Fits`). Values that the reader itself can build have their
members in order already (`Proper`).
-/
import MuxControl.Json.Parser
import MuxControl.Json.Printer
import MuxControl.Proofs.FloatText

namespace MuxControl

theorem Binary64.reread_same_iff (x : Binary64) : x.reread.same x = true ↔ x.reread = x := by
  obtain ⟨negative, magnitude⟩ := x
  simp only [Binary64.same, Binary64.reread, beq_self_eq_true, Bool.true_or, Bool.and_true,
    Binary64.mk.injEq, true_and]
  exact decide_eq_true_iff

namespace Json

/-! ## Strings -/

section Strings

variable (read s : List Char)

theorem readString_quote : readString read ('"' :: s) = .ok (String.ofList read.reverse, s) := by
  rw [readString]

/-- A letter behind a backslash. -/
theorem readString_letter {letter c : Char} (hletter : letter ≠ 'u')
    (hc : letterEscape? letter = some c) :
    readString read ('\\' :: letter :: s) = readString (c :: read) s := by
  have hescape : readEscape (letter :: s) = .ok (c, ⟨s, by simp⟩) := by
    rw [readEscape]
    · simp only [hc]
    · exact hletter
  rw [readString, hescape]

theorem hexValue?_digitChar : ∀ n < 16, Text.hexValue? (Nat.digitChar n) = some n := by decide

/-- The two digits in which a character below the space is written. -/
theorem readString_unit {n : Nat} (hn : n < 0x20) :
    readString read
        ('\\' :: 'u' :: '0' :: '0' :: Nat.digitChar (n / 16) :: Nat.digitChar (n % 16) :: s) =
      readString (Char.ofNat n :: read) s := by
  have hhigh := hexValue?_digitChar (n / 16) (by omega)
  have hlow := hexValue?_digitChar (n % 16) (by omega)
  have hzero : Text.hexValue? '0' = some 0 := by decide
  have hunit : Text.hexNumber? ['0', '0', Nat.digitChar (n / 16), Nat.digitChar (n % 16)] =
      some n := by
    simp only [Text.hexNumber?, List.foldlM_cons, List.foldlM_nil, hzero, hhigh, hlow,
      Option.map_some, Option.bind_eq_bind, Option.bind_some, Option.pure_def]
    congr 1
    omega
  have htrailing : isTrailing n = false := by simp [isTrailing]; omega
  have hleading : isLeading n = false := by simp [isLeading]; omega
  rw [readString]
  simp only [readEscape, readUnit, hunit, htrailing, hleading, Bool.false_eq_true, if_false]

/-- An escaped character is read as the character. -/
theorem readString_escapeChar (c : Char) :
    readString read (escapeChar c ++ s) = readString (c :: read) s := by
  unfold escapeChar
  split
  any_goals exact readString_letter read s (by decide) rfl
  split
  · next hlow => exact (readString_unit read s hlow).trans (by rw [Char.ofNat_toNat])
  · next hquote hbackslash _ _ _ _ _ hhigh =>
    rw [List.singleton_append, readString]
    · rw [if_neg hhigh]
    · exact hquote
    · exact hbackslash

theorem readString_escaped (cs : List Char) :
    readString read (cs.flatMap escapeChar ++ s) = readString (cs.reverse ++ read) s := by
  induction cs generalizing read with
  | nil => rfl
  | cons c cs ih =>
    rw [List.flatMap_cons, List.append_assoc, readString_escapeChar, ih, List.reverse_cons,
      List.append_assoc, List.singleton_append]

/-- A string between quotes is read as itself, behind the first quote. -/
theorem readString_renderString (text : String) :
    readString [] (text.toList.flatMap escapeChar ++ '"' :: s) = .ok (text, s) := by
  rw [readString_escaped, readString_quote, List.append_nil, List.reverse_reverse,
    String.ofList_toList]

end Strings

/-! ## Values that are reread -/

mutual

/-- A value with its floating point numbers as they are reread. -/
def reread : Json → Json
  | .float x => .float x.reread
  | .array items => .array (rereadItems items)
  | .object members => .object (rereadMembers members)
  | .null => .null
  | .bool b => .bool b
  | .int i => .int i
  | .string s => .string s

/-- Items as they are reread. -/
def rereadItems : List Json → List Json
  | [] => []
  | x :: xs => reread x :: rereadItems xs

/-- Members as they are reread. -/
def rereadMembers : List (String × Json) → List (String × Json)
  | [] => []
  | (k, x) :: xs => (k, reread x) :: rereadMembers xs

end

mutual

/-- A value with all members in order. Of two members of one object with
the same name the later one stays. -/
def arranged : Json → Json
  | .array items => .array (arrangedItems items)
  | .object members => .object (arrange [] members)
  | .null => .null
  | .bool b => .bool b
  | .int i => .int i
  | .float x => .float x
  | .string s => .string s

/-- Items with all their members in order. -/
def arrangedItems : List Json → List Json
  | [] => []
  | x :: xs => arranged x :: arrangedItems xs

/-- Put members in order, in with those of a map. -/
def arrange : List (String × Json) → List (String × Json) → List (String × Json)
  | map, [] => map
  | map, (k, x) :: xs => arrange (Keyed.put k (arranged x) map) xs

end

/-- What a value is read as once it has been written. -/
def readBack (v : Json) : Json := v.reread.arranged

/-- Values in which at most `depth` containers are nested and all integers
have 64 bits. -/
inductive Fits : Nat → Json → Prop
  | null {depth : Nat} : Fits depth .null
  | bool {depth : Nat} (b : Bool) : Fits depth (.bool b)
  | int {depth : Nat} {i : Int} (hlow : -(Word.max63 + 1 : Int) ≤ i) (hhigh : i ≤ Word.max64) :
    Fits depth (.int i)
  | float {depth : Nat} (x : Binary64) : Fits depth (.float x)
  | string {depth : Nat} (s : String) : Fits depth (.string s)
  | array {depth : Nat} {items : List Json} (hitems : ∀ x ∈ items, Fits depth x) :
    Fits (depth + 1) (.array items)
  | object {depth : Nat} {members : List (String × Json)}
    (hmembers : ∀ m ∈ members, Fits depth m.2) : Fits (depth + 1) (.object members)

/-- Values in which at most `depth` containers are nested, all integers
have 64 bits and all members are in order. -/
inductive Proper : Nat → Json → Prop
  | null {depth : Nat} : Proper depth .null
  | bool {depth : Nat} (b : Bool) : Proper depth (.bool b)
  | int {depth : Nat} {i : Int} (hlow : -(Word.max63 + 1 : Int) ≤ i) (hhigh : i ≤ Word.max64) :
    Proper depth (.int i)
  | float {depth : Nat} (x : Binary64) : Proper depth (.float x)
  | string {depth : Nat} (s : String) : Proper depth (.string s)
  | array {depth : Nat} {items : List Json} (hitems : ∀ x ∈ items, Proper depth x) :
    Proper (depth + 1) (.array items)
  | object {depth : Nat} {members : List (String × Json)} (hordered : Keyed.Ordered members)
    (hmembers : ∀ m ∈ members, Proper depth m.2) : Proper (depth + 1) (.object members)

section Proper

variable {depth : Nat} {v : Json}

theorem Proper.fits (hv : Proper depth v) : Fits depth v := by
  induction hv with
  | null => exact .null
  | bool b => exact .bool b
  | int hlow hhigh => exact .int hlow hhigh
  | float x => exact .float x
  | string s => exact .string s
  | array _ ih => exact .array ih
  | object _ _ ih => exact .object ih

theorem rereadItems_eq_map : (items : List Json) → rereadItems items = items.map reread
  | [] => rfl
  | x :: xs => congrArg (x.reread :: ·) (rereadItems_eq_map xs)

theorem rereadMembers_eq_map : (members : List (String × Json)) →
    rereadMembers members = members.map fun (k, x) => (k, x.reread)
  | [] => rfl
  | (k, x) :: ms => congrArg ((k, x.reread) :: ·) (rereadMembers_eq_map ms)

theorem arrangedItems_eq_map : (items : List Json) → arrangedItems items = items.map arranged
  | [] => rfl
  | x :: xs => congrArg (x.arranged :: ·) (arrangedItems_eq_map xs)

/-- Members that are in order stay where they are. -/
theorem arrange_of_ordered {members : List (String × Json)} (map : List (String × Json))
    (hordered : Keyed.Ordered (map ++ members)) :
    arrange map members = map ++ members.map fun (k, x) => (k, x.arranged) := by
  induction members generalizing map with
  | nil => rw [arrange, List.map_nil, List.append_nil]
  | cons m ms ih =>
    obtain ⟨k, x⟩ := m
    have hnext : Keyed.Ordered (map ++ [(k, x.arranged)] ++ ms) := by
      simpa [Keyed.Ordered, Keyed.keys] using hordered
    rw [arrange, Keyed.Ordered.put_last hnext.left, ih _ hnext]
    simp

theorem Proper.reread (hv : Proper depth v) : Proper depth v.reread := by
  induction hv with
  | null => exact .null
  | bool b => exact .bool b
  | int hlow hhigh => exact .int hlow hhigh
  | float x => exact .float x.reread
  | string s => exact .string s
  | array _ ih =>
    rw [Json.reread, rereadItems_eq_map]
    exact .array (List.forall_mem_map.mpr ih)
  | object hordered _ ih =>
    rw [Json.reread, rereadMembers_eq_map]
    refine .object ?_ (List.forall_mem_map.mpr ih)
    rw [Keyed.Ordered, Keyed.keys_map]
    exact hordered

theorem Proper.arranged (hv : Proper depth v) : v.arranged = v := by
  induction hv with
  | array _ ih =>
    rw [Json.arranged, arrangedItems_eq_map]
    exact congrArg Json.array ((List.map_congr_left ih).trans (List.map_id' _))
  | @object _ members hordered _ ih =>
    have hsame : ∀ m ∈ members, (m.1, m.2.arranged) = m := fun m hm => congrArg (m.1, ·) (ih m hm)
    rw [Json.arranged, arrange_of_ordered [] hordered, List.nil_append]
    exact congrArg Json.object ((List.map_congr_left hsame).trans (List.map_id' _))
  | _ => rfl

theorem Proper.readBack (hv : Proper depth v) : v.readBack = v.reread := hv.reread.arranged

end Proper

/-! ## White space -/

/-- What is written between the parts of a value: before each item or
member and before the end of its container, and behind a colon. -/
structure Spacing where
  line : Nat → List Char
  gap : List Char
  line_space : ∀ depth, ∀ c ∈ line depth, isSpace c = true
  gap_space : ∀ c ∈ gap, isSpace c = true

/-- No white space. -/
def Spacing.none : Spacing := ⟨fun _ => [], [], by simp, by simp⟩

/-- A line for each item and member. -/
def Spacing.lines : Spacing where
  line := newline
  gap := [' ']
  line_space depth c hc := by
    rcases List.mem_cons.mp hc with rfl | hindent
    · decide
    · rw [List.eq_of_mem_replicate hindent]
      decide
  gap_space := List.forall_mem_singleton.mpr rfl

mutual

/-- A value written with given white space, at a nesting depth. -/
def spaced (sp : Spacing) (depth : Nat) : Json → List Char
  | .array [] => ['[', ']']
  | .array (x :: xs) => '[' :: (spacedItems sp (depth + 1) (x :: xs) ++ sp.line depth ++ [']'])
  | .object [] => ['\x7b', '\x7d']
  | .object (m :: ms) =>
    '\x7b' :: (spacedMembers sp (depth + 1) (m :: ms) ++ sp.line depth ++ ['\x7d'])
  | .null => render .null
  | .bool b => render (.bool b)
  | .int i => render (.int i)
  | .float x => render (.float x)
  | .string s => render (.string s)

/-- Items between commas. -/
def spacedItems (sp : Spacing) (depth : Nat) : List Json → List Char
  | [] => []
  | [x] => sp.line depth ++ spaced sp depth x
  | x :: xs => sp.line depth ++ spaced sp depth x ++ ',' :: spacedItems sp depth xs

/-- Members between commas. -/
def spacedMembers (sp : Spacing) (depth : Nat) : List (String × Json) → List Char
  | [] => []
  | [(k, x)] => sp.line depth ++ renderString k ++ ':' :: (sp.gap ++ spaced sp depth x)
  | (k, x) :: xs =>
    sp.line depth ++ renderString k ++
      ':' :: (sp.gap ++ spaced sp depth x ++ ',' :: spacedMembers sp depth xs)

end

mutual

/-- The compact form has no white space. -/
theorem render_eq_spaced (depth : Nat) : (v : Json) → render v = spaced .none depth v
  | .array [] => rfl
  | .array (x :: xs) => by
    rw [render, spaced, renderItems_eq_spaced (depth + 1)]
    simp [Spacing.none]
  | .object [] => rfl
  | .object (m :: ms) => by
    rw [render, spaced, renderMembers_eq_spaced (depth + 1)]
    simp [Spacing.none]
  | .null => rfl
  | .bool true => rfl
  | .bool false => rfl
  | .int _ => rfl
  | .float _ => rfl
  | .string _ => rfl

theorem renderItems_eq_spaced (depth : Nat) :
    (items : List Json) → renderItems items = spacedItems .none depth items
  | [] => rfl
  | [x] => render_eq_spaced depth x
  | x :: y :: ys => by
    rw [renderItems, spacedItems, renderItems_eq_spaced depth (y :: ys), render_eq_spaced depth x]
    · rfl
    · simp
    · simp

theorem renderMembers_eq_spaced (depth : Nat) : (members : List (String × Json)) →
    renderMembers members = spacedMembers .none depth members
  | [] => rfl
  | [(k, x)] => by
    rw [renderMembers, spacedMembers, render_eq_spaced depth x]
    rfl
  | (k, x) :: y :: ys => by
    rw [renderMembers, spacedMembers, renderMembers_eq_spaced depth (y :: ys),
      render_eq_spaced depth x]
    · rfl
    · simp
    · simp

end

mutual

/-- The pretty form has a line for each item and member. -/
theorem renderPretty_eq_spaced (depth : Nat) :
    (v : Json) → renderPretty depth v = spaced .lines depth v
  | .array [] => rfl
  | .array (x :: xs) => by
    rw [renderPretty, spaced, prettyItems_eq_spaced (depth + 1)]
    rfl
  | .object [] => rfl
  | .object (m :: ms) => by
    rw [renderPretty, spaced, prettyMembers_eq_spaced (depth + 1)]
    rfl
  | .null => rfl
  | .bool true => rfl
  | .bool false => rfl
  | .int _ => rfl
  | .float _ => rfl
  | .string _ => rfl

theorem prettyItems_eq_spaced (depth : Nat) :
    (items : List Json) → prettyItems depth items = spacedItems .lines depth items
  | [] => rfl
  | [x] => by
    rw [prettyItems, spacedItems, renderPretty_eq_spaced depth x]
    rfl
  | x :: y :: ys => by
    rw [prettyItems, spacedItems, prettyItems_eq_spaced depth (y :: ys),
      renderPretty_eq_spaced depth x]
    · rfl
    · simp
    · simp

theorem prettyMembers_eq_spaced (depth : Nat) : (members : List (String × Json)) →
    prettyMembers depth members = spacedMembers .lines depth members
  | [] => rfl
  | [(k, x)] => by
    rw [prettyMembers, spacedMembers, renderPretty_eq_spaced depth x]
    rfl
  | (k, x) :: y :: ys => by
    rw [prettyMembers, spacedMembers, prettyMembers_eq_spaced depth (y :: ys),
      renderPretty_eq_spaced depth x]
    · rfl
    · simp
    · simp

end

/-! ## Reading behind white space -/

section Space

variable {blank : List Char} {c : Char}

theorem skipSpace_append (hblank : ∀ c ∈ blank, isSpace c = true) (s : List Char) :
    skipSpace (blank ++ s) = skipSpace s :=
  List.dropWhile_append_of_pos hblank

theorem skipSpace_cons (hc : isSpace c = false) (s : List Char) : skipSpace (c :: s) = c :: s :=
  List.dropWhile_cons_of_neg (by simp [hc])

theorem readValue_append (hblank : ∀ c ∈ blank, isSpace c = true) (rounds depth : Nat)
    (s : List Char) : readValue rounds depth (blank ++ s) = readValue rounds depth s := by
  unfold readValue
  rw [skipSpace_append hblank]

theorem endsNumber_append (hblank : ∀ c ∈ blank, isSpace c = true) {s : List Char}
    (hs : EndsNumber s) : EndsNumber (blank ++ s) := by
  cases blank with
  | nil => exact hs
  | cons c rest =>
    have hc : isSpace c = true := hblank c List.mem_cons_self
    unfold isSpace at hc
    simp only [Bool.or_eq_true, decide_eq_true_eq] at hc
    rcases hc with ((rfl | rfl) | rfl) | rfl
    all_goals exact endsNumber_cons _ (by decide)

end Space

/-! ## Numbers as values -/

section Numbers

variable {s rest : List Char}

theorem isDigit_of_readNumber {negative : Bool} {r : Json × List Char}
    (h : readNumber negative s = .ok r) : ∃ c cs, s = c :: cs ∧ c.isDigit = true := by
  unfold readNumber at h
  split at h
  · cases h
  · exact ⟨_, _, rfl, by decide⟩
  · next c cs _ =>
    refine ⟨c, cs, rfl, ?_⟩
    cases hc : c.isDigit with
    | true => rfl
    | false => simp [hc] at h

theorem isSpace_of_isDigit {c : Char} (hc : c.isDigit = true) : isSpace c = false := by
  cases hspace : isSpace c with
  | false => rfl
  | true =>
    unfold isSpace at hspace
    simp only [Bool.or_eq_true, decide_eq_true_eq] at hspace
    rcases hspace with ((rfl | rfl) | rfl) | rfl
    all_goals exact absurd hc (by decide)

theorem readValue_digits (rounds depth : Nat) {r : Json × List Char}
    (h : readNumber false s = .ok r) : readValue rounds depth s = .ok r := by
  obtain ⟨c, cs, rfl, hc⟩ := isDigit_of_readNumber h
  unfold readValue
  rw [skipSpace_cons (isSpace_of_isDigit hc)]
  split
  case h_9 heq =>
    obtain ⟨rfl, rfl⟩ := List.cons.inj heq
    rw [if_pos hc, h]
  case h_1 heq => cases heq
  all_goals
    next heq => exact absurd ((List.cons.inj heq).1 ▸ hc) (by decide)

theorem readValue_minus (rounds depth : Nat) (s : List Char) :
    readValue rounds depth ('-' :: s) = readNumber true s := by
  unfold readValue
  rw [skipSpace_cons (by decide)]
  rfl

/-- An integer of 64 bits is read as itself. -/
theorem readValue_renderInt (rounds depth : Nat) {i : Int} (hlow : -(Word.max63 + 1 : Int) ≤ i)
    (hhigh : i ≤ Word.max64) (hrest : EndsNumber rest) :
    readValue rounds depth (renderInt i ++ rest) = .ok (.int i, rest) := by
  unfold renderInt
  by_cases hneg : i < 0
  · rw [if_pos hneg]
    have hread := readNumber_toDigits_negative (n := i.natAbs) (by omega) (by omega) hrest
    rw [show -(i.natAbs : Int) = i by omega] at hread
    exact (readValue_minus rounds depth _).trans hread
  · rw [if_neg hneg, List.nil_append]
    have hread := readNumber_toDigits (n := i.natAbs) (by omega) hrest
    rw [show (i.natAbs : Int) = i by omega] at hread
    exact readValue_digits rounds depth hread

/-- A floating point number is read as what it is reread as. -/
theorem readValue_float (rounds depth : Nat) (x : Binary64) (hrest : EndsNumber rest) :
    readValue rounds depth (x.render numberLayout ++ rest) = .ok (.float x.reread, rest) := by
  have hread := readNumber_float x hrest
  unfold Binary64.render
  cases hsign : x.negative with
  | true =>
    rw [hsign] at hread
    exact (readValue_minus rounds depth _).trans hread
  | false =>
    rw [hsign] at hread
    exact readValue_digits rounds depth hread

end Numbers

/-! ## Items and members -/

/-- What a reader makes of a value's text, whatever text may follow it. -/
def ReadsAs (item : Reader) (text : List Char) (v : Json) : Prop :=
  ∀ rest, EndsNumber rest → item (text ++ rest) = .ok (v, rest)

/-- How a value's text begins: neither with white space nor with the end
of a list. -/
def Begins (text : List Char) : Prop :=
  ∃ c cs, text = c :: cs ∧ isSpace c = false ∧ c ≠ ']'

theorem Begins.skipSpace {text : List Char} (h : Begins text) (s : List Char) :
    skipSpace (text ++ s) = text ++ s := by
  obtain ⟨c, cs, rfl, hspace, -⟩ := h
  exact skipSpace_cons hspace _

section Containers

variable {item : Reader} {sp : Spacing} {depth : Nat} {closing rest : List Char}

/-- What is written behind an item. -/
def itemsBehind (sp : Spacing) (depth : Nat) : List Json → List Char
  | [] => []
  | x :: xs => ',' :: spacedItems sp depth (x :: xs)

theorem spacedItems_cons (x : Json) (xs : List Json) :
    spacedItems sp depth (x :: xs) =
      sp.line depth ++ (spaced sp depth x ++ itemsBehind sp depth xs) := by
  cases xs with
  | nil => rw [spacedItems, itemsBehind, List.append_nil]
  | cons y ys =>
    rw [spacedItems, itemsBehind, List.append_assoc]
    simp

/-- Items up to the end of their list are read behind those read so far. -/
theorem readItems_spaced (hclosing : ∀ c ∈ closing, isSpace c = true) (x : Json) (xs : List Json)
    {rounds : Nat} (hrounds : xs.length < rounds) (read : List Json)
    (hitems : ∀ y ∈ x :: xs, Begins (spaced sp depth y) ∧
      ReadsAs item (spaced sp depth y) y.readBack) :
    readItems item rounds read
        (spaced sp depth x ++ (itemsBehind sp depth xs ++ (closing ++ ']' :: rest))) =
      .ok (.array (read.reverse ++ arrangedItems (rereadItems (x :: xs))), rest) := by
  induction xs generalizing x rounds read with
  | nil =>
    obtain ⟨rounds, rfl⟩ := Nat.exists_eq_succ_of_ne_zero (Nat.ne_of_gt hrounds)
    have hends : EndsNumber (closing ++ ']' :: rest) :=
      endsNumber_append hclosing (endsNumber_cons _ (by decide))
    rw [itemsBehind, List.nil_append, readItems, (hitems x List.mem_cons_self).2 _ hends]
    simp only
    rw [skipSpace_append hclosing, skipSpace_cons (by decide)]
    simp [rereadItems, arrangedItems, readBack]
  | cons y ys ih =>
    obtain ⟨rounds, rfl⟩ := Nat.exists_eq_succ_of_ne_zero (Nat.ne_of_gt (Nat.zero_lt_of_lt hrounds))
    have hnext := ih y (Nat.lt_of_succ_lt_succ hrounds) (x.readBack :: read)
      fun z hz => hitems z (List.mem_cons_of_mem x hz)
    have hy := (hitems y (List.mem_cons_of_mem x List.mem_cons_self)).1
    rw [itemsBehind, readItems, List.cons_append,
      (hitems x List.mem_cons_self).2 _ (endsNumber_cons _ (by decide))]
    simp only
    rw [skipSpace_cons (by decide), spacedItems_cons, List.append_assoc, List.append_assoc]
    simp only
    rw [skipSpace_append (sp.line_space _), hy.skipSpace]
    -- The text that is left begins with the next item.
    obtain ⟨c, cs, hbegins, -, hc⟩ := hy
    rw [hbegins, List.cons_append] at hnext ⊢
    split
    · next heq => cases heq
    · next heq => exact absurd (List.cons.inj heq).1 hc
    · rw [hnext]
      simp [rereadItems, arrangedItems, readBack]

theorem readList_empty {rounds : Nat} (s : List Char) :
    readList item rounds (']' :: s) = .ok (.array [], s) := by
  unfold readList
  rw [skipSpace_cons (by decide)]
  rfl

theorem readList_spaced (hclosing : ∀ c ∈ closing, isSpace c = true) (x : Json) (xs : List Json)
    {rounds : Nat} (hrounds : xs.length < rounds)
    (hitems : ∀ y ∈ x :: xs, Begins (spaced sp depth y) ∧
      ReadsAs item (spaced sp depth y) y.readBack) :
    readList item rounds (spacedItems sp depth (x :: xs) ++ (closing ++ ']' :: rest)) =
      .ok (.array (arrangedItems (rereadItems (x :: xs))), rest) := by
  have hread : readItems item rounds []
      (spaced sp depth x ++ (itemsBehind sp depth xs ++ (closing ++ ']' :: rest))) =
        .ok (.array (arrangedItems (rereadItems (x :: xs))), rest) :=
    readItems_spaced hclosing x xs hrounds [] hitems
  have hx := (hitems x List.mem_cons_self).1
  unfold readList
  rw [spacedItems_cons, List.append_assoc, List.append_assoc, skipSpace_append (sp.line_space _),
    hx.skipSpace]
  obtain ⟨c, cs, hbegins, -, hc⟩ := hx
  rw [hbegins, List.cons_append] at hread ⊢
  split
  · next heq => cases heq
  · next heq => exact absurd (List.cons.inj heq).1 hc
  · exact hread

/-- A member behind the opening quote of its name. -/
def memberBody (sp : Spacing) (depth : Nat) (m : String × Json) : List Char :=
  m.1.toList.flatMap escapeChar ++ '"' :: ':' :: (sp.gap ++ spaced sp depth m.2)

/-- What is written behind a member. -/
def membersBehind (sp : Spacing) (depth : Nat) : List (String × Json) → List Char
  | [] => []
  | m :: ms => ',' :: spacedMembers sp depth (m :: ms)

theorem spacedMembers_cons (m : String × Json) (ms : List (String × Json)) :
    spacedMembers sp depth (m :: ms) =
      sp.line depth ++ '"' :: (memberBody sp depth m ++ membersBehind sp depth ms) := by
  obtain ⟨k, x⟩ := m
  cases ms with
  | nil => simp [spacedMembers, membersBehind, memberBody, renderString]
  | cons n ns => simp [spacedMembers, membersBehind, memberBody, renderString]

theorem readMember_spaced (hgap : ∀ s, item (sp.gap ++ s) = item s) {m : String × Json}
    (hm : ReadsAs item (spaced sp depth m.2) m.2.readBack) (hrest : EndsNumber rest) :
    readMember item (memberBody sp depth m ++ rest) = .ok ((m.1, m.2.readBack), rest) := by
  rw [memberBody, List.append_assoc, List.cons_append, readMember, readString_renderString]
  simp only
  rw [List.cons_append, skipSpace_cons (by decide)]
  simp only
  rw [List.append_assoc, hgap, hm _ hrest]

/-- Members up to the end of their object are put in with those read so
far. -/
theorem readMembers_spaced (hgap : ∀ s, item (sp.gap ++ s) = item s)
    (hclosing : ∀ c ∈ closing, isSpace c = true) (m : String × Json) (ms : List (String × Json))
    {rounds : Nat} (hrounds : ms.length < rounds) (read : List (String × Json))
    (hmembers : ∀ n ∈ m :: ms, ReadsAs item (spaced sp depth n.2) n.2.readBack) :
    readMembers item rounds read
        (memberBody sp depth m ++ (membersBehind sp depth ms ++ (closing ++ '\x7d' :: rest))) =
      .ok (.object (arrange read (rereadMembers (m :: ms))), rest) := by
  have hm := hmembers m List.mem_cons_self
  induction ms generalizing m rounds read with
  | nil =>
    obtain ⟨rounds, rfl⟩ := Nat.exists_eq_succ_of_ne_zero (Nat.ne_of_gt hrounds)
    have hends : EndsNumber (closing ++ '\x7d' :: rest) :=
      endsNumber_append hclosing (endsNumber_cons _ (by decide))
    rw [membersBehind, List.nil_append, readMembers, readMember_spaced hgap hm hends]
    simp only
    rw [skipSpace_append hclosing, skipSpace_cons (by decide)]
    rfl
  | cons n ns ih =>
    obtain ⟨rounds, rfl⟩ := Nat.exists_eq_succ_of_ne_zero (Nat.ne_of_gt (Nat.zero_lt_of_lt hrounds))
    have hn : ∀ q ∈ n :: ns, ReadsAs item (spaced sp depth q.2) q.2.readBack :=
      fun q hq => hmembers q (List.mem_cons_of_mem m hq)
    have hnext := ih n (Nat.lt_of_succ_lt_succ hrounds) (Keyed.put m.1 m.2.readBack read) hn
      (hn n List.mem_cons_self)
    rw [membersBehind, readMembers, List.cons_append,
      readMember_spaced hgap hm (endsNumber_cons _ (by decide))]
    simp only
    rw [skipSpace_cons (by decide), spacedMembers_cons, List.append_assoc]
    simp only
    rw [skipSpace_append (sp.line_space _), List.cons_append, skipSpace_cons (by decide)]
    simp only
    rw [List.append_assoc, hnext]
    rfl

theorem readObject_empty {rounds : Nat} (s : List Char) :
    readObject item rounds ('\x7d' :: s) = .ok (.object [], s) := by
  unfold readObject
  rw [skipSpace_cons (by decide)]
  rfl

theorem readObject_spaced (hgap : ∀ s, item (sp.gap ++ s) = item s)
    (hclosing : ∀ c ∈ closing, isSpace c = true) (m : String × Json) (ms : List (String × Json))
    {rounds : Nat} (hrounds : ms.length < rounds)
    (hmembers : ∀ n ∈ m :: ms, ReadsAs item (spaced sp depth n.2) n.2.readBack) :
    readObject item rounds (spacedMembers sp depth (m :: ms) ++ (closing ++ '\x7d' :: rest)) =
      .ok (.object (arrange [] (rereadMembers (m :: ms))), rest) := by
  unfold readObject
  rw [spacedMembers_cons, List.append_assoc, skipSpace_append (sp.line_space _), List.cons_append,
    skipSpace_cons (by decide), List.append_assoc]
  exact readMembers_spaced hgap hclosing m ms hrounds [] hmembers

end Containers

/-! ## Values -/

section Values

variable (sp : Spacing) (depth : Nat)

theorem begins_of_isDigit {c : Char} (hc : c.isDigit = true) (cs : List Char) :
    Begins (c :: cs) := by
  refine ⟨c, cs, rfl, isSpace_of_isDigit hc, ?_⟩
  rintro rfl
  exact absurd hc (by decide)

theorem begins_renderInt (i : Int) : Begins (renderInt i) := by
  unfold renderInt
  split
  · exact ⟨_, _, rfl, by decide, by decide⟩
  · cases hdigits : Nat.toDigits 10 i.natAbs with
    | nil => exact absurd hdigits Nat.toDigits_ne_nil
    | cons c cs =>
      exact begins_of_isDigit (isDigits_toDigits i.natAbs c (hdigits ▸ List.mem_cons_self)) cs

theorem begins_render (x : Binary64) : Begins (x.render numberLayout) := by
  unfold Binary64.render
  split
  · exact ⟨_, _, rfl, by decide, by decide⟩
  · obtain ⟨c, cs, hbegins, hc⟩ := isDigit_of_readNumber (readNumber_float x endsNumber_nil)
    rw [List.append_nil] at hbegins
    rw [hbegins]
    exact begins_of_isDigit hc cs

theorem begins_spaced : (v : Json) → Begins (spaced sp depth v)
  | .null => ⟨_, _, rfl, by decide, by decide⟩
  | .bool true => ⟨_, _, rfl, by decide, by decide⟩
  | .bool false => ⟨_, _, rfl, by decide, by decide⟩
  | .int i => begins_renderInt i
  | .float x => begins_render x
  | .string _ => ⟨_, _, rfl, by decide, by decide⟩
  | .array [] => ⟨_, _, rfl, by decide, by decide⟩
  | .array (_ :: _) => ⟨_, _, rfl, by decide, by decide⟩
  | .object [] => ⟨_, _, rfl, by decide, by decide⟩
  | .object (_ :: _) => ⟨_, _, rfl, by decide, by decide⟩

theorem length_spacedItems (items : List Json) :
    items.length ≤ (spacedItems sp depth items).length ∧
      ∀ x ∈ items, (spaced sp depth x).length ≤ (spacedItems sp depth items).length := by
  induction items with
  | nil => exact ⟨Nat.le_refl _, by simp⟩
  | cons x xs ih =>
    obtain ⟨c, cs, hbegins, -⟩ := begins_spaced sp depth x
    have hpos : 1 ≤ (spaced sp depth x).length := by rw [hbegins]; simp
    have hbehind : (spacedItems sp depth xs).length ≤ (itemsBehind sp depth xs).length := by
      cases xs with
      | nil => exact Nat.le_refl _
      | cons y ys => exact Nat.le_succ _
    rw [spacedItems_cons]
    simp only [List.length_cons, List.length_append, List.mem_cons, forall_eq_or_imp]
    refine ⟨by omega, by omega, fun y hy => ?_⟩
    have := ih.2 y hy
    omega

theorem length_spacedMembers (members : List (String × Json)) :
    members.length ≤ (spacedMembers sp depth members).length ∧
      ∀ m ∈ members, (spaced sp depth m.2).length ≤ (spacedMembers sp depth members).length := by
  induction members with
  | nil => exact ⟨Nat.le_refl _, by simp⟩
  | cons m ms ih =>
    have hbody : (spaced sp depth m.2).length ≤ (memberBody sp depth m).length := by
      simp only [memberBody, List.length_append, List.length_cons]
      omega
    have hbehind : (spacedMembers sp depth ms).length ≤ (membersBehind sp depth ms).length := by
      cases ms with
      | nil => exact Nat.le_refl _
      | cons n ns => exact Nat.le_succ _
    rw [spacedMembers_cons]
    simp only [List.length_cons, List.length_append, List.mem_cons, forall_eq_or_imp]
    refine ⟨by omega, by omega, fun n hn => ?_⟩
    have := ih.2 n hn
    omega

theorem readValue_letter (rounds nesting : Nat) (s : List Char) :
    readValue rounds nesting ('n' :: s) = readIdent .null ['u', 'l', 'l'] s ∧
      readValue rounds nesting ('t' :: s) = readIdent (.bool true) ['r', 'u', 'e'] s ∧
      readValue rounds nesting ('f' :: s) = readIdent (.bool false) ['a', 'l', 's', 'e'] s := by
  unfold readValue
  rw [skipSpace_cons (by decide), skipSpace_cons (by decide), skipSpace_cons (by decide)]
  exact ⟨rfl, rfl, rfl⟩

theorem readValue_quote (rounds nesting : Nat) (text : String) (s : List Char) :
    readValue rounds nesting (renderString text ++ s) = .ok (.string text, s) := by
  unfold readValue
  rw [renderString, List.cons_append, skipSpace_cons (by decide), List.append_assoc]
  simp only [List.singleton_append, readString_renderString]

theorem readValue_bracket (rounds nesting : Nat) (s : List Char) :
    readValue rounds (nesting + 1) ('[' :: s) = readList (readValue rounds nesting) rounds s := by
  rw [readValue, skipSpace_cons (by decide)]
  rfl

theorem readValue_brace (rounds nesting : Nat) (s : List Char) :
    readValue rounds (nesting + 1) ('\x7b' :: s) =
      readObject (readValue rounds nesting) rounds s := by
  rw [readValue, skipSpace_cons (by decide)]
  rfl

/-- **Reading back.** What a value that has been written is read as does
not depend on the white space. -/
theorem readValue_spaced {nesting : Nat} {v : Json} (hv : Fits nesting v) {rounds : Nat}
    (hrounds : (spaced sp depth v).length ≤ rounds) :
    ReadsAs (readValue rounds nesting) (spaced sp depth v) v.readBack := by
  induction hv generalizing depth with
  | null => exact fun rest _ => (readValue_letter rounds _ _).1
  | bool b =>
    cases b with
    | true => exact fun rest _ => (readValue_letter rounds _ _).2.1
    | false => exact fun rest _ => (readValue_letter rounds _ _).2.2
  | int hlow hhigh => exact fun rest hrest => readValue_renderInt rounds _ hlow hhigh hrest
  | float x => exact fun rest hrest => readValue_float rounds _ x hrest
  | string s => exact fun rest _ => readValue_quote rounds _ s rest
  | @array nesting items hitems ih =>
    intro rest _
    cases items with
    | nil =>
      exact (readValue_bracket rounds nesting _).trans (readList_empty rest)
    | cons x xs =>
      obtain ⟨hlength, hparts⟩ := length_spacedItems sp (depth + 1) (x :: xs)
      simp only [spaced, List.length_cons, List.length_append] at hrounds hlength
      rw [spaced, List.cons_append, readValue_bracket, List.append_assoc, List.append_assoc]
      exact readList_spaced (sp.line_space depth) x xs (by omega) fun y hy =>
        ⟨begins_spaced sp (depth + 1) y,
          ih y hy (depth + 1) (Nat.le_trans (hparts y hy) (by omega))⟩
  | @object nesting members hmembers ih =>
    intro rest _
    cases members with
    | nil =>
      exact (readValue_brace rounds nesting _).trans (readObject_empty rest)
    | cons m ms =>
      obtain ⟨hlength, hparts⟩ := length_spacedMembers sp (depth + 1) (m :: ms)
      simp only [spaced, List.length_cons, List.length_append] at hrounds hlength
      rw [spaced, List.cons_append, readValue_brace, List.append_assoc, List.append_assoc]
      exact readObject_spaced (readValue_append sp.gap_space rounds nesting) (sp.line_space depth)
        m ms (by omega) fun n hn =>
          ih n hn (depth + 1) (Nat.le_trans (hparts n hn) (by omega))

end Values

/-! ## Whole texts -/

section Texts

variable {v : Json}

theorem parseChars_spaced (sp : Spacing) (hv : Fits maxDepth v) (behind : List Char)
    (hbehind : ∀ c ∈ behind, isSpace c = true) :
    parseChars (spaced sp 0 v ++ behind) = .ok v.readBack := by
  have hends : EndsNumber behind := by
    have h := endsNumber_append hbehind endsNumber_nil
    rwa [List.append_nil] at h
  have hskip : skipSpace behind = [] := by
    have h := skipSpace_append hbehind []
    rwa [List.append_nil] at h
  have hread : readValue (spaced sp 0 v ++ behind).length maxDepth (spaced sp 0 v ++ behind) =
      .ok (v.readBack, behind) :=
    readValue_spaced sp 0 hv (by simp) behind hends
  unfold parseChars
  rw [hread]
  simp only [hskip]

/-- The compact form is read back. -/
theorem parse_compact (hv : Fits maxDepth v) : parse v.compact = .ok v.readBack := by
  have h := parseChars_spaced .none hv [] (by simp)
  rw [List.append_nil, ← render_eq_spaced] at h
  rwa [parse, compact, String.toList_ofList]

/-- A line that holds the compact form is read back. -/
theorem parse_compact_line (hv : Fits maxDepth v) :
    parse (v.compact ++ "\n") = .ok v.readBack := by
  have h := parseChars_spaced .none hv ['\n'] (List.forall_mem_singleton.mpr rfl)
  rw [← render_eq_spaced] at h
  rw [parse, compact, String.toList_append, String.toList_ofList]
  exact h

/-- The pretty form, ended by a newline, is read back. -/
theorem parse_pretty_line (hv : Fits maxDepth v) : parse (v.pretty ++ "\n") = .ok v.readBack := by
  have h := parseChars_spaced .lines hv ['\n'] (List.forall_mem_singleton.mpr rfl)
  rw [← renderPretty_eq_spaced] at h
  rw [parse, pretty, String.toList_append, String.toList_ofList]
  exact h

end Texts

/-! ## Values that are read as they are -/

mutual

/-- The floating point numbers inside a value. -/
def floats : Json → List Binary64
  | .float x => [x]
  | .array items => floatsOfItems items
  | .object members => floatsOfMembers members
  | .null => []
  | .bool _ => []
  | .int _ => []
  | .string _ => []

/-- The floating point numbers inside a sequence of values. -/
def floatsOfItems : List Json → List Binary64
  | [] => []
  | x :: xs => floats x ++ floatsOfItems xs

/-- The floating point numbers inside a sequence of members. -/
def floatsOfMembers : List (String × Json) → List Binary64
  | [] => []
  | (_, x) :: xs => floats x ++ floatsOfMembers xs

end

theorem floatsOfItems_eq_nil {items : List Json} (hitems : ∀ x ∈ items, x.floats = []) :
    floatsOfItems items = [] := by
  induction items with
  | nil => rfl
  | cons x xs ih =>
    rw [floatsOfItems, hitems x List.mem_cons_self,
      ih fun y hy => hitems y (List.mem_cons_of_mem x hy)]
    rfl

theorem floatsOfMembers_eq_nil {members : List (String × Json)}
    (hmembers : ∀ m ∈ members, m.2.floats = []) : floatsOfMembers members = [] := by
  induction members with
  | nil => rfl
  | cons m ms ih =>
    rw [floatsOfMembers, hmembers m List.mem_cons_self,
      ih fun n hn => hmembers n (List.mem_cons_of_mem m hn)]
    rfl

mutual

theorem reread_eq_iff : (v : Json) → (v.reread = v ↔ ∀ x ∈ v.floats, x.reread = x)
  | .float x => by simp [reread, floats]
  | .array items => by simp [reread, floats, rereadItems_eq_iff items]
  | .object members => by simp [reread, floats, rereadMembers_eq_iff members]
  | .null => by simp [reread, floats]
  | .bool _ => by simp [reread, floats]
  | .int _ => by simp [reread, floats]
  | .string _ => by simp [reread, floats]

theorem rereadItems_eq_iff : (items : List Json) →
    (rereadItems items = items ↔ ∀ x ∈ floatsOfItems items, x.reread = x)
  | [] => by simp [rereadItems, floatsOfItems]
  | x :: xs => by
    simp [rereadItems, floatsOfItems, reread_eq_iff x, rereadItems_eq_iff xs, or_imp, forall_and]

theorem rereadMembers_eq_iff : (members : List (String × Json)) →
    (rereadMembers members = members ↔ ∀ x ∈ floatsOfMembers members, x.reread = x)
  | [] => by simp [rereadMembers, floatsOfMembers]
  | (_, x) :: xs => by
    simp [rereadMembers, floatsOfMembers, reread_eq_iff x, rereadMembers_eq_iff xs, or_imp,
      forall_and]

end

mutual

/-- Numerical equality makes no difference: the sign is always kept. -/
theorem same_reread_iff : (v : Json) →
    (same v.reread v = true ↔ ∀ x ∈ v.floats, x.reread = x)
  | .float x => by simp [reread, floats, same, Binary64.reread_same_iff]
  | .array items => by simp [reread, floats, same, sameItems_reread_iff items]
  | .object members => by simp [reread, floats, same, sameMembers_reread_iff members]
  | .null => by simp [reread, floats, same]
  | .bool _ => by simp [reread, floats, same]
  | .int _ => by simp [reread, floats, same]
  | .string _ => by simp [reread, floats, same]

theorem sameItems_reread_iff : (items : List Json) →
    (sameItems (rereadItems items) items = true ↔ ∀ x ∈ floatsOfItems items, x.reread = x)
  | [] => by simp [rereadItems, floatsOfItems, sameItems]
  | x :: xs => by
    simp [rereadItems, floatsOfItems, sameItems, same_reread_iff x, sameItems_reread_iff xs,
      or_imp, forall_and]

theorem sameMembers_reread_iff : (members : List (String × Json)) →
    (sameMembers (rereadMembers members) members = true ↔
      ∀ x ∈ floatsOfMembers members, x.reread = x)
  | [] => by simp [rereadMembers, floatsOfMembers, sameMembers]
  | (_, x) :: xs => by
    simp [rereadMembers, floatsOfMembers, sameMembers, same_reread_iff x,
      sameMembers_reread_iff xs, or_imp, forall_and]

end

end Json

end MuxControl
