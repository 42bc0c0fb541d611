/-
MuxControl.Proofs.WireLines — what a bounded read makes of a stream.

A read cuts a window out of the stream and looks for a newline there.
`nextLine?_of_lt` says the same of the stream as a whole: the line is what
stands before the first newline, if that is not longer than the limit,
and the read takes it with its newline, or one byte more than the limit.

Bytes come in piece by piece. `Told` says when those received so far
settle the next line. Then it stays the same however many more come
(`firstLine_append`), so it is the next line of the whole stream, and a
session reads it whatever the pieces were (`Session.takeLine?_of_told`).
-/
import Mathlib.Data.List.TakeWhile
import MuxControl.Service.Session

namespace MuxControl

namespace Wire

/-! ## The first line of a stream -/

/-- What stands before the first newline; all of it if there is none. -/
def beforeNewline (bytes : Bytes) : Bytes := bytes.takeWhile (· ≠ newlineByte)

/-- The line whose text has the given bytes. -/
def lineOf (bytes : Bytes) : Except LineError (Option String) :=
  match decode? bytes with
  | some text => .ok (some text)
  | none => .error .notUtf8

/-- The first line of a stream that has ended, of at most `limit` bytes. -/
def firstLine (limit : Nat) (bytes : Bytes) : Except LineError (Option String) :=
  let body := beforeNewline bytes
  if bytes = [] then .ok none
  else if limit < body.length then .error (.tooLong limit)
  else lineOf (if newlineByte ∈ bytes then withoutReturn body else body)

/-- What is left of a stream behind its first line. -/
def behindLine (limit : Nat) (bytes : Bytes) : Bytes :=
  bytes.drop (min (beforeNewline bytes).length limit + 1)

variable {limit : Nat} {bytes : Bytes}

theorem beforeNewline_eq_self : beforeNewline bytes = bytes ↔ newlineByte ∉ bytes := by
  rw [beforeNewline, List.takeWhile_eq_self_iff]
  constructor
  · intro hall hmem
    simpa using hall newlineByte hmem
  · intro hnot byte hmem
    have hne : byte ≠ newlineByte := fun heq => hnot (heq ▸ hmem)
    simpa using hne

theorem length_beforeNewline_le (bytes : Bytes) : (beforeNewline bytes).length ≤ bytes.length :=
  (List.takeWhile_prefix _).length_le

theorem length_beforeNewline_lt :
    (beforeNewline bytes).length < bytes.length ↔ newlineByte ∈ bytes := by
  have hprefix : beforeNewline bytes <+: bytes := List.takeWhile_prefix _
  rw [Nat.lt_iff_le_and_ne, and_iff_right hprefix.length_le, Ne, ← not_iff_comm,
    ← beforeNewline_eq_self]
  exact ⟨fun heq => congrArg List.length heq, hprefix.eq_of_length⟩

theorem beforeNewline_take (window : Nat) (bytes : Bytes) :
    (bytes.take window).takeWhile (· ≠ newlineByte) = (beforeNewline bytes).take window :=
  List.take_takeWhile.symm

/-- The window shows the end of a line within the limit. -/
theorem nextPiece_of_le (hshort : (beforeNewline bytes).length ≤ limit) :
    nextPiece (limit + 1) bytes =
      ⟨beforeNewline bytes, newlineByte ∈ bytes, behindLine limit bytes⟩ := by
  have hbody : (bytes.take (limit + 1)).takeWhile (· ≠ newlineByte) = beforeNewline bytes := by
    rw [beforeNewline_take, List.take_of_length_le (Nat.le_succ_of_le hshort)]
  have hended : (beforeNewline bytes).length < (bytes.take (limit + 1)).length ↔
      newlineByte ∈ bytes := by
    rw [List.length_take, Nat.lt_min, and_iff_right (Nat.lt_succ_of_le hshort),
      length_beforeNewline_lt]
  unfold nextPiece behindLine
  simp only [hbody, hended, Nat.min_eq_left hshort, Piece.mk.injEq, true_and]
  by_cases hmem : newlineByte ∈ bytes
  · simp [hmem]
  · have hall := beforeNewline_eq_self.mpr hmem
    simp [hmem, hall]

theorem length_window (hlong : limit < (beforeNewline bytes).length) :
    ((beforeNewline bytes).take (limit + 1)).length = limit + 1 := by
  rw [List.length_take, Nat.min_eq_left hlong]

/-- The window is full of a line beyond the limit. -/
theorem nextPiece_of_lt (hlong : limit < (beforeNewline bytes).length) :
    nextPiece (limit + 1) bytes =
      ⟨(beforeNewline bytes).take (limit + 1), false, behindLine limit bytes⟩ := by
  have hbytes : limit + 1 ≤ bytes.length := Nat.le_trans hlong (length_beforeNewline_le bytes)
  have hshown : (bytes.take (limit + 1)).length = limit + 1 := by
    rw [List.length_take, Nat.min_eq_left hbytes]
  unfold nextPiece behindLine
  simp only [beforeNewline_take, length_window hlong, hshown, Nat.min_eq_right (Nat.le_of_lt hlong)]
  simp

theorem budget?_of_lt (hlimit : limit < Word.max64) : budget? limit = some (limit + 1) :=
  if_pos hlimit

theorem line_of_fits {p : Piece} (hsize : p.size ≠ 0) (hfits : p.ended = true ∨ p.size ≤ limit) :
    p.line limit = lineOf (if p.ended then withoutReturn p.body else p.body) := by
  have hnot : (!p.ended && decide (limit < p.size)) = false := by
    rcases hfits with hended | hle
    · simp [hended]
    · simp [Nat.not_lt.mpr hle]
  unfold Piece.line
  rw [if_neg hsize, hnot]
  rfl

/-- What a window of one byte more than the limit makes of a stream. -/
theorem nextPiece_eq (limit : Nat) (bytes : Bytes) :
    (nextPiece (limit + 1) bytes).line limit = firstLine limit bytes ∧
      (nextPiece (limit + 1) bytes).rest = behindLine limit bytes := by
  rcases Nat.lt_or_ge limit (beforeNewline bytes).length with hlong | hshort
  · have hne : bytes ≠ [] := by
      rintro rfl
      exact absurd hlong (Nat.not_lt_zero limit)
    have hline : (nextPiece (limit + 1) bytes).line limit = .error (.tooLong limit) := by
      simp [nextPiece_of_lt hlong, Piece.line, Piece.size, length_window hlong]
    have hfirst : firstLine limit bytes = .error (.tooLong limit) := by
      simp [firstLine, hne, hlong]
    rw [hline, hfirst, nextPiece_of_lt hlong]
    exact ⟨rfl, rfl⟩
  · have hfirst : bytes ≠ [] → firstLine limit bytes =
        lineOf (if newlineByte ∈ bytes then withoutReturn (beforeNewline bytes)
          else beforeNewline bytes) := by
      intro hne
      simp [firstLine, hne, Nat.not_lt.mpr hshort]
    rw [nextPiece_of_le hshort]
    by_cases hempty : bytes = []
    · simp [hempty, beforeNewline, Piece.line, Piece.size, firstLine]
    · by_cases hmem : newlineByte ∈ bytes
      · rw [line_of_fits (by simp [Piece.size, hmem]) (.inl (decide_eq_true hmem)), hfirst hempty]
        simp [hmem]
      · have hall := beforeNewline_eq_self.mpr hmem
        rw [hall] at hshort
        rw [line_of_fits (by simp [Piece.size, hmem, hall, hempty])
          (.inr (by simpa [Piece.size, hmem, hall] using hshort)), hfirst hempty]
        simp [hmem]

/-- **A bounded read, seen from the whole stream.** It gives the first
line, and takes that line with its newline, or one byte more than the
limit. -/
theorem nextLine?_of_lt (hlimit : limit < Word.max64) (bytes : Bytes) :
    nextLine? limit bytes = some (firstLine limit bytes, behindLine limit bytes) := by
  obtain ⟨hline, hrest⟩ := nextPiece_eq limit bytes
  simp only [nextLine?, budget?_of_lt hlimit, Option.map_some, hline, hrest]

/-! ## Lines of a stream that is still coming in -/

/-- Whether the bytes received settle the next line: they hold a newline,
or more than the limit, or there will be no more of them. -/
def Told (limit : Nat) (bytes : Bytes) (ended : Bool) : Prop :=
  newlineByte ∈ bytes ∨ limit < bytes.length ∨ ended = true

instance (limit : Nat) (bytes : Bytes) (ended : Bool) : Decidable (Told limit bytes ended) :=
  inferInstanceAs (Decidable (_ ∨ _ ∨ _))

/-- A window shows whether the next line is settled. -/
theorem told_iff (limit : Nat) (bytes : Bytes) (ended : Bool) :
    ((nextPiece (limit + 1) bytes).ended || limit + 1 ≤ (nextPiece (limit + 1) bytes).size ||
      ended) = true ↔ Told limit bytes ended := by
  simp only [Bool.or_eq_true, decide_eq_true_eq, or_assoc]
  rcases Nat.lt_or_ge limit (beforeNewline bytes).length with hlong | hshort
  · have hsize : (nextPiece (limit + 1) bytes).size = limit + 1 := by
      simp [nextPiece_of_lt hlong, Piece.size, length_window hlong]
    have hmore : limit < bytes.length := Nat.lt_of_lt_of_le hlong (length_beforeNewline_le bytes)
    exact iff_of_true (.inr (.inl hsize.ge)) (.inr (.inl hmore))
  · rw [nextPiece_of_le hshort]
    by_cases hmem : newlineByte ∈ bytes
    · exact iff_of_true (.inl (decide_eq_true hmem)) (.inl hmem)
    · have hsize : (Piece.mk (beforeNewline bytes) (newlineByte ∈ bytes)
          (behindLine limit bytes)).size = bytes.length := by
        simp [Piece.size, hmem, beforeNewline_eq_self.mpr hmem]
      rw [hsize, Nat.succ_le_iff]
      simp [Told, hmem]

theorem beforeNewline_append_of_mem (hmem : newlineByte ∈ bytes) (more : Bytes) :
    beforeNewline (bytes ++ more) = beforeNewline bytes := by
  unfold beforeNewline
  rw [List.takeWhile_append, if_neg]
  exact Nat.ne_of_lt (length_beforeNewline_lt.mpr hmem)

theorem beforeNewline_append_of_not_mem (hnot : newlineByte ∉ bytes) (more : Bytes) :
    beforeNewline (bytes ++ more) = bytes ++ beforeNewline more := by
  unfold beforeNewline
  rw [List.takeWhile_append, if_pos]
  exact congrArg List.length (beforeNewline_eq_self.mpr hnot)

/-- **Prefix stability.** What settles a line before the end of the stream
still does so, to the same effect, when more bytes come. -/
theorem firstLine_append (htold : Told limit bytes false) (more : Bytes) :
    firstLine limit (bytes ++ more) = firstLine limit bytes ∧
      behindLine limit (bytes ++ more) = behindLine limit bytes ++ more := by
  by_cases hmem : newlineByte ∈ bytes
  · have hne : bytes ≠ [] := List.ne_nil_of_mem hmem
    have hlt : (beforeNewline bytes).length < bytes.length := length_beforeNewline_lt.mpr hmem
    unfold firstLine behindLine
    rw [beforeNewline_append_of_mem hmem]
    refine ⟨by simp [hne, hmem], List.drop_append_of_le_length ?_⟩
    omega
  -- The line is too long already, whatever comes behind it.
  · have hlong : limit < bytes.length := by simpa [Told, hmem] using htold
    have hne : bytes ≠ [] := by
      rintro rfl
      exact absurd hlong (Nat.not_lt_zero limit)
    have hself : beforeNewline bytes = bytes := beforeNewline_eq_self.mpr hmem
    have hlonger : limit < (bytes ++ beforeNewline more).length :=
      List.length_append ▸ Nat.lt_add_right _ hlong
    unfold firstLine behindLine
    rw [beforeNewline_append_of_not_mem hmem, hself]
    refine ⟨by simp only [hlonger, hlong, hne, List.append_eq_nil_iff, false_and, if_true,
      if_false], ?_⟩
    rw [Nat.min_eq_right (Nat.le_of_lt hlonger), Nat.min_eq_right (Nat.le_of_lt hlong)]
    exact List.drop_append_of_le_length hlong

end Wire

/-! ## The lines that a session reads -/

namespace Session

open Wire

variable {s : Session}

/-- A session can read its next line just if that line is settled. -/
theorem takeLine?_eq (hlimit : s.settings.lineLimit < Word.max64) :
    s.takeLine? =
      if Told s.settings.lineLimit s.unread s.ended then
        some (firstLine s.settings.lineLimit s.unread,
          { s with unread := behindLine s.settings.lineLimit s.unread })
      else none := by
  obtain ⟨hline, hrest⟩ := nextPiece_eq s.settings.lineLimit s.unread
  simp only [takeLine?, budget?_of_lt hlimit, hline, hrest, told_iff]

theorem takeLine?_of_told (hlimit : s.settings.lineLimit < Word.max64)
    (htold : Told s.settings.lineLimit s.unread s.ended) :
    s.takeLine? = some (firstLine s.settings.lineLimit s.unread,
      { s with unread := behindLine s.settings.lineLimit s.unread }) := by
  rw [takeLine?_eq hlimit, if_pos htold]

theorem takeLine?_of_not_told (hlimit : s.settings.lineLimit < Word.max64)
    (hnot : ¬ Told s.settings.lineLimit s.unread s.ended) : s.takeLine? = none := by
  rw [takeLine?_eq hlimit, if_neg hnot]

end Session

end MuxControl
