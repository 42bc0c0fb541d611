/-
MuxControl.Proofs.SelfListing — whether an input that lists itself tells
the truth about it.

An input that lists itself goes by its own mark. The mark says that it
has listed itself once (`isMarked_reached`), whatever became of the name
since; the entry of the name is its own just if it holds the name. So the
answer is true of the entry just if the mark and the entry agree before:
`registerSelf_truthful_iff`. They part when the name of a marked input is
taken away, or when an input is listed by somebody else.
-/
import MuxControl.Proofs.RosterInputs

namespace MuxControl

namespace Roster

variable {r : Roster} {n : InputId}

/-! ## The mark -/

/-- Whether an input holds itself for registered. -/
def isMarked (r : Roster) (n : InputId) : Bool := (r.input? n).any Input.marked

/-- Whether an input lists itself in an operation. -/
def listsItself (r : Roster) (n : InputId) : Operation → Bool
  | .register _ => false
  | operation => (r.listing? operation).any fun entry => entry.2 = n

/-- Whether an input has ever listed itself. -/
def hasListedItself (limits : Thresholds) (n : InputId) : History → Bool
  | [] => false
  | operation :: earlier =>
    hasListedItself limits n earlier || (reached limits earlier).listsItself n operation

/-- An input that lists itself says that it is listed if it was marked
before, or is listed now. -/
theorem fst_registerSelf (r : Roster) (n : InputId) :
    (r.registerSelf n).1 = (r.isMarked n || (r.listsSelf? n).isSome) := by
  unfold registerSelf isMarked listsSelf?
  cases hinput : r.input? n with
  | none => simp [lists?, hinput]
  | some input =>
    cases hmarked : input.marked with
    | true => simp [hmarked]
    | false =>
      cases hregister : (r.register n).1 <;>
        simp [hmarked, lists?, hinput, hregister, Except.toOption]

/-- Its answer is its mark from then on. -/
theorem isMarked_registerSelf_self {input : Input} (hinput : r.input? n = some input) :
    (r.registerSelf n).2.isMarked n = (r.registerSelf n).1 := by
  simp [isMarked, input?_registerSelf, hinput]

theorem isMarked_registerSelf (r : Roster) (m n : InputId) :
    (r.registerSelf m).2.isMarked n =
      (r.isMarked n || (r.listsSelf? m).any fun entry => entry.2 = n) := by
  have hown : ∀ entry, r.listsSelf? m = some entry → entry.2 = m := by
    intro entry hlists
    exact (name?_of_lists? (lists?_of_listsSelf? hlists)).1
  by_cases heq : m = n
  · subst heq
    have hlisted : ((r.listsSelf? m).any fun entry => entry.2 = m) = (r.listsSelf? m).isSome := by
      cases hlists : r.listsSelf? m with
      | none => rfl
      | some entry => simp [hown entry hlists]
    rw [hlisted]
    cases hinput : r.input? m with
    | none => simp [isMarked, input?_registerSelf, hinput, listsSelf?, lists?]
    | some input => rw [isMarked_registerSelf_self hinput, fst_registerSelf]
  · have hother : ((r.listsSelf? m).any fun entry => entry.2 = n) = false := by
      cases hlists : r.listsSelf? m with
      | none => rfl
      | some entry => simp [hown entry hlists, heq]
    simp [isMarked, input?_registerSelf, heq, hother]

theorem isMarked_create (r : Roster) (name : String) (now : Instant) (n : InputId) :
    (r.create name now).2.isMarked n = r.isMarked n := by
  unfold isMarked
  rw [input?_create]
  split
  · next heq => simp [heq, input?_length, Input.create]
  · rfl

/-- Nothing marks an input but its listing itself, and nothing takes the
mark away. -/
theorem isMarked_perform (r : Roster) (operation : Operation) (n : InputId) :
    (r.perform operation).isMarked n = (r.isMarked n || r.listsItself n operation) := by
  have hclears : ∀ (now : Instant) (listing : Listing),
      (listing.render now r).2.isMarked n = r.isMarked n := by
    intro now listing
    unfold isMarked
    rw [input?_listing, Option.any_map]
    congr 1
    funext i
    cases listing <;> simp [Listing.clears] <;> split <;> rfl
  cases operation with
  | create name now => simp [perform, isMarked_create, listsItself, listing?]
  | enroll name now =>
    rw [perform, ← isMarked_create r name now n]
    exact isMarked_registerSelf _ _ n
  | registerSelf m =>
    simp only [perform, listsItself, listing?]
    split
    · exact r.isMarked_registerSelf m n
    · simp
  | renderValues => exact (hclears 0 .values).trans (Bool.or_false _).symm
  | renderState now => exact (hclears now .states).trans (Bool.or_false _).symm
  | _ =>
    simp [isMarked, input?_perform, Operation.effect, Operation.created?, listsItself, listing?]

theorem isMarked_reached (limits : Thresholds) (history : History) (n : InputId) :
    (reached limits history).isMarked n = hasListedItself limits n history := by
  induction history with
  | nil => rfl
  | cons operation earlier ih => rw [reached, isMarked_perform, ih, hasListedItself]

/-! ## The entry -/

/-- A marked input that lists itself changes nothing. -/
theorem registerSelf_of_marked {input : Input} (hinput : r.input? n = some input)
    (hmarked : input.marked = true) : r.registerSelf n = (true, r) := by
  simp [registerSelf, hinput, hmarked]

/-- One that is not marked is listed if its name is free. -/
theorem registerSelf_of_unmarked {input : Input} (hinput : r.input? n = some input)
    (hunmarked : input.marked = false) :
    (r.registerSelf n).1 = (r.exposed? input.name).isNone ∧
      (r.registerSelf n).2.entries =
        if (r.exposed? input.name).isNone then Keyed.put input.name n r.entries
        else r.entries := by
  cases hexposed : r.exposed? input.name <;>
    simp [registerSelf, hinput, hunmarked, register, hexposed, measure, change, Except.toOption]

/-- **The answer and the entry.** They agree just if the mark and the entry
agreed before. -/
theorem registerSelf_agrees_iff {input : Input} (hinput : r.input? n = some input)
    (halive : r.alive n = true) :
    ((r.registerSelf n).1 = true ↔
        Keyed.get? input.name (r.registerSelf n).2.entries = some n) ↔
      (input.marked = true ↔ Keyed.get? input.name r.entries = some n) := by
  cases hmarked : input.marked with
  | true => simp [registerSelf_of_marked hinput hmarked]
  | false =>
    obtain ⟨hanswer, hentries⟩ := registerSelf_of_unmarked hinput hmarked
    rw [hanswer, hentries]
    cases hexposed : r.exposed? input.name with
    | none =>
      -- The name is free, so its entry is not that of an input that is alive.
      have hfree : Keyed.get? input.name r.entries ≠ some n := by
        intro hget
        cases hexposed.symm.trans (exposed?_eq_some_iff.mpr ⟨hget, halive⟩)
      simp [hfree]
    | some m => simp

theorem alive_registerSelf (r : Roster) (m n : InputId) :
    (r.registerSelf m).2.alive n = r.alive n := by
  obtain ⟨_, hsame⟩ | ⟨_, _, hchange⟩ := r.registerSelf_cases m
  · rw [hsame]
  · rw [hchange, alive_change]
    obtain ⟨_, hsame⟩ | ⟨_, _, _, _, hslots, _⟩ := r.register_cases m
    · rw [hsame]
    · rw [alive, hslots, alive]

/-- **When an input that lists itself tells the truth.** At any point of a
history, an input that is alive lists itself. Its answer says whether the
entry of its name is its own just if it had listed itself before if and
only if it held its name. The listings show it if and only if that entry is
its own, and its mark is the answer. -/
theorem registerSelf_truthful_iff (limits : Thresholds) (history : History) {n : InputId}
    {input : Input} (hinput : (reached limits history).input? n = some input)
    (halive : (reached limits history).alive n = true) :
    let answer := ((reached limits history).registerSelf n).1
    let after := ((reached limits history).registerSelf n).2
    ((answer = true ↔ Keyed.get? input.name after.entries = some n) ↔
        (hasListedItself limits n history = true ↔
          holder? limits history input.name = some n)) ∧
      (after.IsShown n ↔ Keyed.get? input.name after.entries = some n) ∧
      after.isMarked n = answer := by
  intro answer after
  have hkeeps := keeps_reached limits history
  have hmark : input.marked = hasListedItself limits n history := by
    rw [← isMarked_reached, isMarked, hinput, Option.any_some]
  have hholder : Keyed.get? input.name (reached limits history).entries = some n ↔
      holder? limits history input.name = some n := by
    constructor
    · exact hkeeps.held input.name n
    · intro hholds
      exact hkeeps.living input.name n hholds halive
  have hafter : reached limits (.registerSelf n :: history) = after := by
    simp [reached, perform, halive, after]
  refine ⟨?_, ?_, isMarked_registerSelf_self hinput⟩
  · rw [← hmark, ← hholder]
    exact registerSelf_agrees_iff hinput halive
  · have hname : after.name? n = some input.name := by
      rw [← hafter]
      exact name?_perform (by simp [name?, hinput]) _
    rw [← hafter] at hname ⊢
    apply (called_reached limits _).isShown_iff (keeps_reached limits _) hname
    rw [hafter, alive_registerSelf, halive]

/-- An input that is listed by somebody else holds its name without having
listed itself, and finds its own entry in its way. -/
theorem registerSelf_truthful_iff_listed_by_other :
    let history : History := [.register 0, .create "in" 0]
    (reached {} history).input? 0 = some (.create "in" {} 0) ∧
      (reached {} history).alive 0 = true ∧
      ¬ (((reached {} history).registerSelf 0).1 = true ↔
        Keyed.get? "in" ((reached {} history).registerSelf 0).2.entries = some 0) := by
  intro history
  have hinput : (reached {} history).input? 0 = some (.create "in" {} 0) := by decide +kernel
  have halive : (reached {} history).alive 0 = true := by decide +kernel
  refine ⟨hinput, halive, ?_⟩
  obtain ⟨htruth, _⟩ := registerSelf_truthful_iff {} history hinput halive
  have hparted : ¬ (hasListedItself {} 0 history = true ↔
      holder? {} history "in" = some 0) := by decide +kernel
  exact fun htrue => hparted (htruth.mp htrue)

/-- An input whose name was taken away says that it is listed, and has no
entry. -/
theorem registerSelf_without_entry :
    ¬ ∀ (limits : Thresholds) (history : History) (n : InputId) (input : Input),
      (reached limits history).input? n = some input →
      (reached limits history).alive n = true →
      (((reached limits history).registerSelf n).1 = true ↔
        Keyed.get? input.name ((reached limits history).registerSelf n).2.entries = some n) := by
  intro h
  have hsame := h {} [.unregister "in", .enroll "in" 0] 0
    { Input.create "in" {} 0 with marked := true } (by decide +kernel) (by decide +kernel)
  revert hsame
  decide +kernel

end Roster

end MuxControl
