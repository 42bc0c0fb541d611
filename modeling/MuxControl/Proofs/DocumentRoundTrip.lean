/-
MuxControl.Proofs.DocumentRoundTrip — what a document becomes when it is
fetched and pushed back.

A document that was parsed is one that the reader can build
(`proper_of_parse`), so its wire form is always parsed again, and every
member is kept but for its floating point numbers (`parse_wire`). Those
are kept exactly when each is reread as itself (`reparsed_iff`): numbers
that are written with few digits are, and `reparsed_differs` shows that
not every number is. The printer writes the shortest digits that name a
number, and the reader, which scales by a power of ten that is itself
rounded, does not undo that.
-/
import MuxControl.Document
import MuxControl.Proofs.ReadBack
import MuxControl.Proofs.ReadShape

namespace MuxControl

/-- Written with a significand of 53 bits and an exponent of at most 22. -/
def Binary64.IsShort (x : Binary64) : Prop :=
  (Json.written x.magnitude).1 < 2 * leastNormal ∧ (Json.written x.magnitude).2.natAbs < 23

theorem Binary64.reread_of_isShort {x : Binary64} (hx : x.IsShort) : x.reread = x := by
  rw [Binary64.reread, Json.reread?_of_short hx.1 hx.2, Option.getD_some]

namespace Document

variable {text : String} {d : Document}

/-- The floating point numbers inside a document. -/
def floats (d : Document) : List Binary64 := d.toJson.floats

/-- A document with its floating point numbers as they are reread. -/
def reread (d : Document) : Document := ⟨Json.rereadMembers d.members⟩

@[simp] theorem toJson_reread (d : Document) : d.reread.toJson = d.toJson.reread := by
  rw [toJson, toJson, Json.reread, reread]

theorem parse_of_json {members : List (String × Json)}
    (h : Json.parse text = .ok (.object members)) : parse text = .ok ⟨members⟩ := by
  rw [parse, h]
  rfl

theorem json_of_parse (h : parse text = .ok d) : Json.parse text = .ok d.toJson := by
  unfold parse at h
  split at h
  · next value hvalue =>
    cases value with
    | object members =>
      cases h
      exact hvalue
    | _ => cases h
  · cases h

theorem proper_of_parse (h : parse text = .ok d) : Json.Proper Json.maxDepth d.toJson :=
  Json.proper_of_parse (json_of_parse h)

/-- Both written forms of a document are parsed as what it is reread as. -/
theorem parse_wire (hd : Json.Proper Json.maxDepth d.toJson) : parse d.wire = .ok d.reread :=
  parse_of_json (by rw [wire, Json.parse_pretty_line hd.fits, hd.readBack, ← toJson_reread]; rfl)

theorem parse_compact (hd : Json.Proper Json.maxDepth d.toJson) : parse d.compact = .ok d.reread :=
  parse_of_json (by rw [compact, Json.parse_compact hd.fits, hd.readBack, ← toJson_reread]; rfl)

theorem reread_eq_iff (d : Document) : d.reread = d ↔ ∀ x ∈ d.floats, x.reread = x := by
  rw [floats, ← Json.reread_eq_iff, ← toJson_reread]
  obtain ⟨members⟩ := d
  simp only [reread, toJson, mk.injEq, Json.object.injEq]

theorem same_reread_iff (d : Document) :
    d.reread.same d = true ↔ ∀ x ∈ d.floats, x.reread = x := by
  rw [same, toJson_reread, Json.same_reread_iff, floats]

/-- **Fetching and pushing back.** Whatever text a document was parsed
from, the text that is sent to clients is parsed again. What comes of it
is the same document exactly when every floating point number inside is
reread as itself; short ones are. -/
theorem reparsed_iff (hd : parse text = .ok d) :
    parse d.wire = .ok d.reread ∧
      (d.reread.same d = true ↔ ∀ x ∈ d.floats, x.reread = x) ∧
      ((∀ x ∈ d.floats, x.IsShort) → d.reread = d) :=
  ⟨parse_wire (proper_of_parse hd), same_reread_iff d, fun hshort =>
    (reread_eq_iff d).mpr fun x hx => Binary64.reread_of_isShort (hshort x hx)⟩

/-- Two gains, one of them not short, both kept. -/
theorem reparsed_iff_gains :
    ∃ d, parse "\x7b\"a\":-0.25,\"b\":[1e300]\x7d" = .ok d ∧ d.floats.length = 2 ∧
      ∃ again, parse d.wire = .ok again ∧ again.same d = true := by
  have hread : (match parse "\x7b\"a\":-0.25,\"b\":[1e300]\x7d" with
      | .ok d => d.floats.length == 2 && d.floats.all fun x => decide (x.reread = x)
      | .error _ => false) = true := by decide +kernel
  split at hread
  · next d hd =>
    rw [Bool.and_eq_true, beq_iff_eq, List.all_eq_true] at hread
    obtain ⟨hparse, hsame, -⟩ := reparsed_iff hd
    exact ⟨d, hd, hread.1, d.reread, hparse,
      hsame.mpr fun x hx => of_decide_eq_true (hread.2 x hx)⟩
  · cases hread

/-- A document that is not the same once it has been fetched and pushed
back: its number is written `0.36160766721564147` and reread as the next
smaller one. -/
theorem reparsed_differs :
    ∃ d again, parse "\x7b\"a\":0.361607667215641443\x7d" = .ok d ∧
      parse d.wire = .ok again ∧ again.same d = false := by
  have hread : (match parse "\x7b\"a\":0.361607667215641443\x7d" with
      | .ok d =>
        match parse d.wire with
        | .ok again => again.same d
        | .error _ => true
      | .error _ => true) = false := by decide +kernel
  split at hread
  · next d hd =>
    split at hread
    · next again hagain => exact ⟨d, again, hd, hagain, hread⟩
    · cases hread
  · cases hread

end Document

end MuxControl
