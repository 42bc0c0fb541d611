/-
MuxControl.Proofs.LineFraming — bounded reads cut a stream into pieces.

`Cut` says what one read takes off a stream and what it makes of it:
everything up to the first newline, if that is within the limit, and one
byte more than the limit otherwise. `Reads` lists the pieces of reads
that follow each other, each going on where the one before it stopped,
whatever came of that.

`reads_framed` says that `readLines?` reads that way: the pieces make up
the stream, each of them settles its own result (`judged`), and as many
reads as there are bytes come to the end of the stream.
-/
import MuxControl.Proofs.WireLines

namespace MuxControl.Wire

/-- What comes of a read: no line, a line, or an error. -/
abbrev LineResult := Except LineError (Option String)

/-! ## One read -/

/-- The bytes of a piece that make its line: without the newline at its
end, and without one carriage return before that. -/
def lineBytes (piece : Bytes) : Bytes :=
  if piece.getLast? = some newlineByte then withoutReturn piece.dropLast else piece

/-- What a piece comes to by itself, whatever stands before and behind
it. -/
def judged (limit : Nat) (piece : Bytes) : LineResult :=
  if piece = [] then .ok none
  else if limit < piece.length ∧ newlineByte ∉ piece then .error (.tooLong limit)
  else lineOf (lineBytes piece)

/-- More bytes are left than a limit allows, and none of those that a
read looks at is a newline. -/
def Overlong (limit : Nat) (stream : Bytes) : Prop :=
  limit < stream.length ∧ newlineByte ∉ stream.take (limit + 1)

instance (limit : Nat) (stream : Bytes) : Decidable (Overlong limit stream) :=
  inferInstanceAs (Decidable (_ ∧ _))

/-- What one read takes off a stream, and what it makes of it. -/
structure Cut (limit : Nat) (stream piece : Bytes) (result : LineResult) : Prop where
  newline : ∀ body rest, stream = body ++ newlineByte :: rest → newlineByte ∉ body →
    body.length ≤ limit → piece = body ++ [newlineByte]
  budget : newlineByte ∉ stream.take (limit + 1) → piece = stream.take (limit + 1)
  exhausted : result = .ok none ↔ stream = []
  tooLong : result = .error (.tooLong limit) ↔ Overlong limit stream
  line : stream ≠ [] → ¬ Overlong limit stream → result = lineOf (lineBytes piece)
  alone : result = judged limit piece

/-- The piece that a read takes off a stream. -/
def taken (limit : Nat) (stream : Bytes) : Bytes :=
  stream.take (min (beforeNewline stream).length limit + 1)

section OneRead

variable {limit : Nat} {stream body rest : Bytes}

theorem taken_append_behindLine (limit : Nat) (stream : Bytes) :
    taken limit stream ++ behindLine limit stream = stream :=
  List.take_append_drop _ stream

theorem taken_eq_nil : taken limit stream = [] ↔ stream = [] := by
  simp [taken]

theorem beforeNewline_of_newline (hbody : newlineByte ∉ body) :
    beforeNewline (body ++ newlineByte :: rest) = body := by
  rw [beforeNewline_append_of_not_mem hbody]
  simp [beforeNewline]

/-- A read sees a newline if there is one within its limit. -/
theorem newlineByte_mem_take :
    newlineByte ∈ stream.take (limit + 1) ↔
      newlineByte ∈ stream ∧ (beforeNewline stream).length ≤ limit := by
  have hbefore : (beforeNewline (stream.take (limit + 1))).length =
      min (limit + 1) (beforeNewline stream).length := by
    rw [beforeNewline, beforeNewline_take, List.length_take]
  rw [← length_beforeNewline_lt, ← length_beforeNewline_lt, hbefore, List.length_take]
  omega

theorem overlong_iff : Overlong limit stream ↔ limit < (beforeNewline stream).length := by
  have hle := length_beforeNewline_le stream
  unfold Overlong
  rw [newlineByte_mem_take]
  constructor
  · rintro ⟨hlong, hnot⟩
    by_cases hmem : newlineByte ∈ stream
    · simpa [hmem] using hnot
    · rwa [beforeNewline_eq_self.mpr hmem]
  · intro hlong
    exact ⟨by omega, fun hseen => by omega⟩

/-! ### What is taken -/

theorem taken_of_newline (hbody : newlineByte ∉ body) (hshort : body.length ≤ limit) :
    taken limit (body ++ newlineByte :: rest) = body ++ [newlineByte] := by
  unfold taken
  rw [beforeNewline_of_newline hbody, Nat.min_eq_left hshort, List.take_length_add_append]
  rfl

theorem taken_of_overlong (hlong : Overlong limit stream) :
    taken limit stream = stream.take (limit + 1) := by
  unfold taken
  rw [Nat.min_eq_right (Nat.le_of_lt (overlong_iff.mp hlong))]

/-- The last piece of a stream that does not end with a newline. -/
theorem taken_of_not_mem (hnot : newlineByte ∉ stream) (hshort : ¬ Overlong limit stream) :
    taken limit stream = stream := by
  rw [overlong_iff, beforeNewline_eq_self.mpr hnot] at hshort
  unfold taken
  rw [beforeNewline_eq_self.mpr hnot]
  exact List.take_of_length_le (by omega)

theorem taken_of_unseen (hnot : newlineByte ∉ stream.take (limit + 1)) :
    taken limit stream = stream.take (limit + 1) := by
  by_cases hlong : Overlong limit stream
  · exact taken_of_overlong hlong
  · have hshort : stream.length ≤ limit := by
      by_contra hmore
      exact hlong ⟨by omega, hnot⟩
    have hall : stream.take (limit + 1) = stream := List.take_of_length_le (by omega)
    rw [hall] at hnot ⊢
    exact taken_of_not_mem hnot hlong

/-- What is taken shows whether the line was too long. -/
theorem overlong_taken :
    (limit < (taken limit stream).length ∧ newlineByte ∉ taken limit stream) ↔
      Overlong limit stream := by
  constructor
  · rintro ⟨hlong, hnot⟩
    by_contra hshort
    by_cases hmem : newlineByte ∈ stream
    · -- Then the newline is within the limit, and is taken.
      obtain ⟨body, rest, rfl, hbody⟩ := List.eq_append_cons_of_mem hmem
      rw [overlong_iff, beforeNewline_of_newline hbody] at hshort
      simp [taken_of_newline hbody (Nat.le_of_not_lt hshort)] at hnot
    · have hself := taken_of_not_mem hmem hshort
      rw [overlong_iff, beforeNewline_eq_self.mpr hmem] at hshort
      rw [hself] at hlong
      exact hshort hlong
  · intro hlong
    rw [taken_of_overlong hlong, List.length_take]
    exact ⟨by have := hlong.1; omega, hlong.2⟩

/-! ### What comes of it -/

theorem lineOf_ne_none (bytes : Bytes) : lineOf bytes ≠ .ok none := by
  unfold lineOf
  split <;> simp

theorem lineOf_ne_tooLong (bytes : Bytes) : lineOf bytes ≠ .error (.tooLong limit) := by
  unfold lineOf
  split <;> simp

theorem lineBytes_taken (hshort : ¬ Overlong limit stream) :
    lineBytes (taken limit stream) =
      if newlineByte ∈ stream then withoutReturn (beforeNewline stream)
      else beforeNewline stream := by
  by_cases hmem : newlineByte ∈ stream
  · obtain ⟨body, rest, rfl, hbody⟩ := List.eq_append_cons_of_mem hmem
    rw [overlong_iff, beforeNewline_of_newline hbody] at hshort
    rw [if_pos hmem, taken_of_newline hbody (Nat.le_of_not_lt hshort),
      beforeNewline_of_newline hbody]
    simp [lineBytes]
  · have hlast : stream.getLast? ≠ some newlineByte :=
      fun hlast => hmem (List.mem_of_getLast? hlast)
    rw [if_neg hmem, taken_of_not_mem hmem hshort, beforeNewline_eq_self.mpr hmem, lineBytes,
      if_neg hlast]

theorem firstLine_eq (limit : Nat) (stream : Bytes) :
    firstLine limit stream =
      if stream = [] then .ok none
      else if Overlong limit stream then .error (.tooLong limit)
      else lineOf (lineBytes (taken limit stream)) := by
  unfold firstLine
  simp only [overlong_iff]
  split
  · rfl
  · split
    · rfl
    · next hshort => rw [lineBytes_taken (by rwa [overlong_iff])]

/-- One read takes its piece and no more, and makes of it what is due. -/
theorem cut_firstLine (limit : Nat) (stream : Bytes) :
    Cut limit stream (taken limit stream) (firstLine limit stream) where
  newline := by
    rintro body rest rfl hbody hshort
    exact taken_of_newline hbody hshort
  budget := taken_of_unseen
  exhausted := by
    rw [firstLine_eq]
    split
    · next hnil => simp [hnil]
    · split <;> simp_all [lineOf_ne_none]
  tooLong := by
    rw [firstLine_eq]
    split
    · next hnil => simp [hnil, Overlong]
    · split <;> simp_all [lineOf_ne_tooLong]
  line := by
    intro hne hshort
    rw [firstLine_eq, if_neg hne, if_neg hshort]
  alone := by
    rw [firstLine_eq]
    unfold judged
    exact (if_congr taken_eq_nil rfl (if_congr overlong_taken rfl rfl)).symm

end OneRead

/-! ## Reads that follow each other -/

/-- Reads with the given limits, one after the other: the pieces that they
take off a stream, what comes of each, and what they leave. -/
inductive Reads : Bytes → List Nat → List Bytes → List LineResult → Bytes → Prop where
  | done (left : Bytes) : Reads left [] [] [] left
  | read {limit : Nat} {piece rest left : Bytes} {result : LineResult} {limits : List Nat}
      {pieces : List Bytes} {results : List LineResult}
      (hcut : Cut limit (piece ++ rest) piece result)
      (hlater : Reads rest limits pieces results left) :
      Reads (piece ++ rest) (limit :: limits) (piece :: pieces) (result :: results) left

variable {stream left : Bytes} {limits : List Nat} {pieces : List Bytes}
  {results : List LineResult}

/-- The pieces and what is left make up the stream. -/
theorem Reads.flatten_append (hreads : Reads stream limits pieces results left) :
    pieces.flatten ++ left = stream := by
  induction hreads with
  | done left => rfl
  | read hcut hlater ih => rw [List.flatten_cons, List.append_assoc, ih]

/-- Each result is what the piece comes to by itself. -/
theorem Reads.judged (hreads : Reads stream limits pieces results left) :
    results = List.zipWith judged limits pieces := by
  induction hreads with
  | done left => rfl
  | read hcut hlater ih => rw [List.zipWith_cons_cons, hcut.alone, ih]

/-- A read before the end of the stream takes something. -/
theorem Cut.length_pos {limit : Nat} {piece : Bytes} {result : LineResult}
    (hcut : Cut limit stream piece result) (hne : stream ≠ []) : 0 < piece.length := by
  rw [List.length_pos_iff]
  intro hnil
  have hresult : result = .ok none := by simp [hcut.alone, Wire.judged, hnil]
  exact hne (hcut.exhausted.mp hresult)

/-- After as many reads as there are bytes, the stream has come to its
end. -/
theorem Reads.exhausted (hreads : Reads stream limits pieces results left) {i : Nat}
    (hi : stream.length ≤ i) (hlimits : i < limits.length) : results[i]? = some (.ok none) := by
  induction hreads generalizing i with
  | done left => simp at hlimits
  | @read limit piece rest left result limits pieces results hcut hlater ih =>
    by_cases hnil : piece ++ rest = []
    · cases i with
      | zero => simp [hcut.exhausted.mpr hnil]
      | succ j =>
        have hrest : rest.length ≤ j := by simp [(List.append_eq_nil_iff.mp hnil).2]
        exact ih hrest (Nat.lt_of_succ_lt_succ hlimits)
    · have hpos := hcut.length_pos hnil
      rw [List.length_append] at hi
      obtain ⟨j, rfl⟩ : ∃ j, i = j + 1 := ⟨i - 1, by omega⟩
      exact ih (by omega) (Nat.lt_of_succ_lt_succ hlimits)

theorem reads_readLines? (hlimits : ∀ limit ∈ limits, limit < Word.max64) (stream : Bytes) :
    ∃ pieces results left, readLines? stream limits = some results ∧
      Reads stream limits pieces results left := by
  induction limits generalizing stream with
  | nil => exact ⟨[], [], stream, rfl, .done stream⟩
  | cons limit limits ih =>
    have hnext := nextLine?_of_lt (hlimits limit List.mem_cons_self) stream
    obtain ⟨pieces, results, left, hread, hlater⟩ :=
      ih (fun other hmem => hlimits other (List.mem_cons_of_mem _ hmem)) (behindLine limit stream)
    have hcut := cut_firstLine limit stream
    have hsplit := taken_append_behindLine limit stream
    refine ⟨taken limit stream :: pieces, firstLine limit stream :: results, left, ?_, ?_⟩
    · simp only [readLines?, hnext, hread, Option.map_some]
    · clear hnext hread
      generalize taken limit stream = piece at hcut hsplit ⊢
      generalize behindLine limit stream = rest at hlater hsplit ⊢
      generalize firstLine limit stream = result at hcut ⊢
      subst hsplit
      exact .read hcut hlater

/-- **Exact framing.** Whatever a stream holds, reads with any limits cut
consecutive pieces off it. Each piece ends with the first newline, if that
is within the limit, and has one byte more than the limit otherwise, or as
many as are left; it settles what comes of its read, be that a line, an
error or the end of the stream. After as many reads as there are bytes,
every read finds the end. -/
theorem reads_framed (stream : Bytes) {limits : List Nat}
    (hlimits : ∀ limit ∈ limits, limit < Word.max64) :
    ∃ pieces results left, readLines? stream limits = some results ∧
      Reads stream limits pieces results left ∧
      pieces.flatten ++ left = stream ∧
      results = List.zipWith judged limits pieces ∧
      ∀ i, stream.length ≤ i → i < limits.length → results[i]? = some (.ok none) := by
  obtain ⟨pieces, results, left, hread, hreads⟩ := reads_readLines? hlimits stream
  exact ⟨pieces, results, left, hread, hreads, hreads.flatten_append, hreads.judged,
    fun i hi hlimit => hreads.exhausted hi hlimit⟩

/-- A line, one that is too long, what is left of that, and a last line
without a newline, which keeps its carriage return. -/
theorem reads_framed_overlong :
    let stream := encode "hi\r\nabcdef\nx\r"
    let limits := [8, 3, 3, 2, 2]
    let results : List LineResult :=
      [.ok (some "hi"), .error (.tooLong 3), .ok (some "ef"), .ok (some "x\r"), .ok none]
    (∀ limit ∈ limits, limit < Word.max64) ∧ readLines? stream limits = some results ∧
      ∃ pieces left, Reads stream limits pieces results left ∧
        pieces.flatten ++ left = stream := by
  intro stream limits results
  have hlimits : ∀ limit ∈ limits, limit < Word.max64 := by decide
  have hresults : readLines? stream limits = some results := by decide +kernel
  obtain ⟨pieces, read, left, hread, hreads, hwhole, _⟩ := reads_framed stream hlimits
  obtain rfl : results = read := Option.some.inj (hresults.symm.trans hread)
  exact ⟨hlimits, hresults, pieces, left, hreads, hwhole⟩

end MuxControl.Wire
