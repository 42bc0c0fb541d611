/-
MuxControl.Proofs.DocumentPath — a document on its way from a file to the
server and back to a client.

The request that pushes a JSON value is two lines: the command and the
compact form. A compact form holds no newline, begins and ends with a
brace and is parsed back, so the stream asks to push just that document
(`ofStream_pushLines`). With what sessions do (`DocumentSessions`), the
document arrives and comes back (`document_travels`): no text that the
members or their names may hold can break a line, and no limit that the
compact form keeps cuts it.
-/
import MuxControl.Proofs.DocumentRoundTrip
import MuxControl.Proofs.DocumentSessions
import MuxControl.Proofs.TextLines

namespace MuxControl

open Wire Console

/-! ## The compact form of an object as a line -/

namespace Text

/-- Nothing is trimmed off a text between two characters that are no
white space. -/
theorem trim_between {text : String} {first last : Char} {inner : List Char}
    (htext : text.toList = first :: (inner ++ [last])) (hfirst : isBlank first = false)
    (hlast : isBlank last = false) : trim text = text := by
  have hfront : (first :: (inner ++ [last])).dropWhile isBlank = first :: (inner ++ [last]) :=
    List.dropWhile_cons_of_neg (by simp [hfirst])
  have hreverse : (first :: (inner ++ [last])).reverse = last :: (inner.reverse ++ [first]) := by
    simp
  have hback : (last :: (inner.reverse ++ [first])).dropWhile isBlank =
      last :: (inner.reverse ++ [first]) :=
    List.dropWhile_cons_of_neg (by simp [hlast])
  rw [trim, htext, trimChars, hfront, hreverse, hback, ← hreverse, List.reverse_reverse, ← htext,
    String.ofList_toList]

end Text

namespace Json

variable (members : List (String × Json))

theorem compact_object_between :
    ∃ inner, (Json.object members).compact.toList = '\x7b' :: (inner ++ ['\x7d']) := by
  rw [compact, String.toList_ofList]
  cases members with
  | nil => exact ⟨[], rfl⟩
  | cons m ms => exact ⟨renderMembers (m :: ms), rfl⟩

theorem trim_compact_object :
    Text.trim (Json.object members).compact = (Json.object members).compact := by
  obtain ⟨inner, hbetween⟩ := compact_object_between members
  exact Text.trim_between hbetween (by decide) (by decide)

theorem compact_object_ne_empty : (Json.object members).compact ≠ "" := by
  obtain ⟨inner, hbetween⟩ := compact_object_between members
  intro hempty
  rw [hempty] at hbetween
  cases hbetween

theorem compact_object_ends : (Json.object members).compact.toList.getLast? ≠ some '\r' := by
  obtain ⟨inner, hbetween⟩ := compact_object_between members
  rw [hbetween, ← List.cons_append, List.getLast?_concat]
  decide

end Json

/-! ## The lines that push a document -/

section PushLines

variable {limit : Nat} {members : List (String × Json)}

theorem encode_pushLines (value : Json) :
    encode (pushLines value) =
      encode ("setptree" ++ "\n") ++ (encode (value.compact ++ "\n") ++ []) := by
  rw [List.append_nil, ← encode_append, pushLines, String.append_assoc]
  rfl

theorem length_encode_setTree : (encode "setptree").length = 8 := by decide +kernel

/-- The request is read as its two lines. -/
theorem read_pushLines (hcommand : 8 ≤ limit)
    (hfits : (encode (Json.object members).compact).length ≤ limit) :
    firstLine limit (encode (pushLines (.object members))) = .ok (some "setptree") ∧
      ∃ rest, behindLine limit (encode (pushLines (.object members))) = rest ∧
        firstLine limit rest = .ok (some (Json.object members).compact) ∧
        behindLine limit rest = [] := by
  rw [encode_pushLines]
  obtain ⟨hfirst, hbehind⟩ := read_encode_line (by decide) (by decide)
    (length_encode_setTree ▸ hcommand) (encode ((Json.object members).compact ++ "\n") ++ [])
  exact ⟨hfirst, _, hbehind, read_encode_line (Json.newline_not_mem_compact _)
    (Json.compact_object_ends members) hfits []⟩

/-- The request asks to push the document, as its compact form is parsed. -/
theorem ofStream_pushLines (hcommand : 8 ≤ limit)
    (hfits : (encode (Json.object members).compact).length ≤ limit) {document : Document}
    (hparse : Document.parse (Json.object members).compact = .ok document) :
    Errand.ofStream limit (encode (pushLines (.object members))) = .push document := by
  obtain ⟨hfirst, rest, hbehind, hsecond, -⟩ := read_pushLines hcommand hfits
  have hnamed : Command.ofLine "setptree" = .setTree := rfl
  simp only [Errand.ofStream, hfirst, hbehind, Option.getD_some, hnamed, Errand.ofCommand,
    Errand.ofSubmission, hsecond, Json.trim_compact_object,
    if_neg (Json.compact_object_ne_empty members), hparse]

/-- Three reads of the request: two lines and the end of the stream. -/
theorem readLines?_pushLines (hcommand : 8 ≤ limit)
    (hfits : (encode (Json.object members).compact).length ≤ limit) (hlimit : limit < Word.max64) :
    readLines? (encode (pushLines (.object members))) [limit, limit, limit] =
      some [.ok (some "setptree"), .ok (some (Json.object members).compact), .ok none] := by
  obtain ⟨hfirst, rest, hbehind, hsecond, hend⟩ := read_pushLines hcommand hfits
  simp only [readLines?, nextLine?_of_lt hlimit, hfirst, hbehind, hsecond, hend]
  rfl

theorem ofStream_getTree (hcommand : 8 ≤ limit) :
    Errand.ofStream limit (encode "getptree\n") = .fetch := by
  have hlength : (encode "getptree").length = 8 := by decide +kernel
  have hsplit : encode "getptree\n" = encode ("getptree" ++ "\n") ++ [] :=
    (List.append_nil _).symm
  obtain ⟨hfirst, -⟩ := read_encode_line (show '\n' ∉ "getptree".toList by decide) (by decide)
    (hlength ▸ hcommand) []
  have hnamed : Command.ofLine "getptree" = .getTree := rfl
  simp only [Errand.ofStream, hsplit, hfirst, Option.getD_some, hnamed, Errand.ofCommand]

end PushLines

/-! ## The way of a document -/

namespace ControlledServer

variable {c : ControlledServer} {w : Worker} {document : Document} {steps : List Step}
  {bytes : Bytes}

/-- A client sends bytes, piece by piece, and closes its side, while the
loop is left to its session. -/
structure Sends (bytes : Bytes) (steps : List Step) : Prop where
  attends : ∀ step ∈ steps, step.Attends
  closes : ∃ now, Step.endInput now ∈ steps
  received : Turn.received (steps.map Step.turn) = bytes

/-- What a client that connects is sent behind the greeting in the given
steps, and what comes of the server. -/
def converse (c : ControlledServer) (steps : List Step) : String × ControlledServer :=
  (c.perform (.accept none)).2.takeSteps steps

/-- No document is accepted in any of the steps. -/
def Undisturbed (c : ControlledServer) : List Step → Prop
  | [] => True
  | step :: later => c.submitted? step = none ∧ (c.perform step).2.Undisturbed later

theorem Upholds.takeSteps (hup : c.Upholds document) (hundisturbed : c.Undisturbed steps) :
    (c.takeSteps steps).2.Upholds document := by
  induction steps generalizing c with
  | nil => exact hup
  | cons step later ih =>
    obtain ⟨hnone, hlater⟩ := hundisturbed
    have hnext := (hup.perform step).upholds
    rw [hnone] at hnext
    exact ih hnext hlater

/-- A client that asks to push a document has done so. -/
theorem Upholds.converse_push {held : Document} (hup : c.Upholds held) (hfree : c.server.Free w)
    (hlimit : w.settings.lineLimit < Word.max64) (hsends : Sends bytes steps)
    (hpush : Errand.ofStream w.settings.lineLimit bytes = .push document) :
    (c.converse steps).1 = "" ∧ (c.converse steps).2.server.Free w ∧
      (c.converse steps).2.Upholds document := by
  obtain ⟨session, hreads⟩ := hup.reads hfree hsends.closes (hsends.received ▸ hpush)
  exact Pushing.takeSteps (.reading held session hreads) hfree.idle hlimit hsends.attends

/-- A client that asks to fetch the document is sent it: by the time the
session looks again behind a pass, or before, if a push is still to be
taken over. -/
theorem Upholds.converse_fetch (hup : c.Upholds document) (hfree : c.server.Free w)
    (hlimit : w.settings.lineLimit < Word.max64) (hsends : Sends bytes steps)
    (hfetch : Errand.ofStream w.settings.lineLimit bytes = .fetch) :
    (c.server.station.handoff.pushed = true → (∀ step ∈ steps, step.isPass = false) →
        (c.converse steps).1 = document.wire) ∧
      ∀ now idle later,
        (c.converse (steps ++ [.pass now idle none, .proceed later])).1 = document.wire := by
  obtain ⟨session, hreads⟩ := hup.reads hfree hsends.closes (hsends.received ▸ hfetch)
  have hhandoff : (c.perform (.accept none)).2.server.station.handoff = c.server.station.handoff :=
    congrArg (fun accepted : String × Server => accepted.2.station.handoff)
      (Server.accept_of_free hfree.worker hfree.running hfree.idle)
  refine ⟨fun hpushed hquiet => ?_, fun now idle later => ?_⟩
  · have hfetching : Fetching document w True (c.perform (.accept none)).2 steps :=
      .reading session hreads fun _ => hhandoff ▸ hpushed
    rcases hfetching.takeSteps hfree.idle hlimit hsends.attends fun _ => hquiet with
      hserved | ⟨hnot, -⟩
    · exact hserved.sent
    · exact absurd trivial hnot
  · have hfetching : Fetching document w False (c.perform (.accept none)).2 steps :=
      .reading session hreads False.elim
    have hattends : ∀ step ∈ [Step.pass now idle none, .proceed later], step.Attends := by
      simp [Step.Attends]
    rw [converse, takeSteps_append]
    rcases hfetching.takeSteps hfree.idle hlimit hsends.attends False.elim with
      hserved | ⟨-, hsilent, session, ticket, hwaits⟩
    · have hquiet := (hserved.upholds.idles_takeSteps hserved.free hattends).1
      rw [hserved.sent, hquiet, String.append_empty]
    · have hserved := hwaits.served_after_pass hfree.idle now idle later
      rw [hsilent, hserved.sent, String.empty_append]

/-- **A document travels unchanged.** Take a text in a file that is read as
an object without floating point numbers, and a server, at any point of
its run, whose loop is free and reads lines of at least eight bytes and at
least the length of the compact form. The request that pushes the file is
read as its command, one more line and nothing else; trimmed and parsed,
the line is the document. A client that sends the request, in whatever
pieces, gets no answer, and leaves the document in the hand-off. As long
as no other is accepted, whatever else happens, a client that fetches it
gets its wire form: at once while the push is still to be taken over, and
otherwise once the control side has made a pass. The wire form is read as
the object, and ends in a newline. -/
theorem document_travels (settings : ServerSettings) (roster : Roster) (control : Supervisor)
    (earlier : List Step) {w : Worker} {text : String} {members : List (String × Json)}
    (hfree : (reached (fresh settings roster control) earlier).server.Free w)
    (htext : Json.parse text = .ok (.object members)) (hfloats : (Json.object members).floats = [])
    (hcommand : 8 ≤ w.settings.lineLimit)
    (hfits : (encode (Json.object members).compact).length ≤ w.settings.lineLimit)
    (hlimit : w.settings.lineLimit < Word.max64) (path : String) :
    let c := reached (fresh settings roster control) earlier
    let limit := w.settings.lineLimit
    let document : Document := ⟨members⟩
    ∃ request line,
      (Query.setTree path).lines (.bytes (encode text)) = .ok request ∧
      readLines? (encode request) [limit, limit, limit] =
        some [.ok (some "setptree"), .ok (some line), .ok none] ∧
      Document.parse (Text.trim line) = .ok document ∧
      (∀ pushing, Sends (encode request) pushing →
        let pushed := c.converse pushing
        pushed.1 = "" ∧ pushed.2.server.station.handoff.current = document ∧
        ∀ between, pushed.2.Undisturbed between →
          let c' := (pushed.2.takeSteps between).2
          ∀ w', c'.server.Free w' → 8 ≤ w'.settings.lineLimit →
            w'.settings.lineLimit < Word.max64 →
            ∀ fetching, Sends (encode "getptree\n") fetching →
              (c'.server.station.handoff.pushed = true →
                (∀ step ∈ fetching, step.isPass = false) →
                (c'.converse fetching).1 = document.wire) ∧
              ∀ now idle later,
                (c'.converse (fetching ++ [.pass now idle none, .proceed later])).1 =
                  document.wire) ∧
      Json.parse document.wire = .ok (.object members) ∧
      document.wire.toList.getLast? = some '\n' := by
  intro c limit document
  have hproper : Json.Proper Json.maxDepth document.toJson := Json.proper_of_parse htext
  have hsame : document.reread = document :=
    (Document.reread_eq_iff document).mpr fun x hx => by
      rw [Document.floats, Document.toJson, hfloats] at hx
      cases hx
  have hparse : Document.parse (Json.object members).compact = .ok document := by
    rw [← hsame]
    exact Document.parse_compact hproper
  have hwire : Document.parse document.wire = .ok document := by
    rw [Document.parse_wire hproper, hsame]
  have hpush := ofStream_pushLines hcommand hfits hparse
  have hup : c.Upholds (latestAfter (fresh settings roster control) earlier) :=
    upholds_reached settings roster control earlier
  refine ⟨pushLines (.object members), (Json.object members).compact, ?_,
    readLines?_pushLines hcommand hfits hlimit, ?_, fun pushing hsends => ?_,
    Document.json_of_parse hwire, ?_⟩
  · simp only [Query.lines, text_encode, htext]
  · rw [Json.trim_compact_object, hparse]
  · obtain ⟨hsilent, -, hup'⟩ := hup.converse_push hfree hlimit hsends hpush
    refine ⟨hsilent, hup'.current, fun between hundisturbed w' hfree' hcommand' hlimit' => ?_⟩
    exact fun fetching hfetches => (hup'.takeSteps hundisturbed).converse_fetch hfree' hlimit'
      hfetches (ofStream_getTree hcommand')
  · rw [Document.wire, String.toList_append]
    exact List.getLast?_concat

/-- A document with line breaks inside its strings, pushed in two pieces,
taken over, and fetched by a client that waits for the next pass. -/
theorem document_travels_array :
    let c := reached (fresh {} { limits := {} } { live := .empty, settings := {} })
      [.start fun _ => .ok 7001]
    let pushed := (c.converse [.receive 1 (encode "setptree\n\x7b\"\\r"), .pass 2 true none,
      .receive 3 (encode "\":[-1,\"\\n\"]\x7d\n"), .endInput 4]).2
    let taken := (pushed.takeSteps [.pass 5 true none]).2
    (taken.converse [.receive 6 (encode "getptree\n"), .endInput 7, .pass 8 true none,
      .proceed 9]).1 = "\x7b\n  \"\\r\": [\n    -1,\n    \"\\n\"\n  ]\n\x7d\n" := by
  intro c pushed taken
  let value := Json.object [("\r", .array [.int (-1), .string "\n"])]
  have hfits : Json.Fits Json.maxDepth value :=
    .object (List.forall_mem_singleton.mpr (.array (List.forall_mem_cons.mpr
      ⟨.int (by decide) (by decide), List.forall_mem_singleton.mpr (.string _)⟩)))
  -- The file holds the pretty form.
  have hfile : value.pretty ++ "\n" = "\x7b\n  \"\\r\": [\n    -1,\n    \"\\n\"\n  ]\n\x7d\n" := by
    decide +kernel
  have htext := Json.parse_pretty_line hfits
  rw [hfile] at htext
  obtain ⟨request, line, hlines, -, -, hpushes, -⟩ :=
    document_travels {} { limits := {} } { live := .empty, settings := {} }
      [.start fun _ => .ok 7001] (w := { port := 7001, settings := {} }) ⟨rfl, rfl, rfl⟩ htext rfl
      (by decide) (by decide +kernel) (by decide) "tree.json"
  obtain rfl : "setptree\n\x7b\"\\r\":[-1,\"\\n\"]\x7d\n" = request :=
    Except.ok.inj ((by decide +kernel : _ = _).trans hlines)
  obtain ⟨-, -, hbetween⟩ := hpushes [.receive 1 (encode "setptree\n\x7b\"\\r"), .pass 2 true none,
      .receive 3 (encode "\":[-1,\"\\n\"]\x7d\n"), .endInput 4]
    ⟨by simp [Step.Attends], ⟨4, by simp⟩, by decide +kernel⟩
  have hundisturbed : pushed.Undisturbed [.pass 5 true none] :=
    ⟨by rw [submitted?, going?_of_feed? fun _ => rfl, Option.bind_none], trivial⟩
  obtain ⟨-, hpass⟩ := hbetween [.pass 5 true none] hundisturbed { port := 7001, settings := {} }
    ⟨by decide +kernel, rfl, rfl⟩ (by decide) (by decide)
    [.receive 6 (encode "getptree\n"), .endInput 7]
    ⟨by simp [Step.Attends], ⟨7, by simp⟩, by decide +kernel⟩
  exact (hpass 8 true 9).trans (by decide +kernel)

end ControlledServer

end MuxControl
