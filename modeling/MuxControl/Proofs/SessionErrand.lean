/-
MuxControl.Proofs.SessionErrand — what a client asks for, and what doing
it means.

An `Errand` is what the whole stream of a client comes to, whatever is
wrong with it. `Errand.CarriedOut` says what carrying it out sends and
what it makes of the station: exactly one reply, which may be empty, and
a change of the parts that the errand is about and of no other.

A session that has its lines does what the stream asks for: the line with
a document settles the matter (`concludes_awaitDocument`), and so does
the command line (`concludes_awaitCommand`), unless it asks for that
other line or for the latest document, which has to be waited for.
-/
import MuxControl.Proofs.CompactLine
import MuxControl.Proofs.RosterRenders
import MuxControl.Proofs.WireLines

namespace MuxControl

open Wire

/-! ## Errands -/

/-- What a client asks for with all that it sends. -/
inductive Errand where
  | list (listing : Listing)
  | push (document : Document)
  | pushNothing
  | fetch
  | unknown (line : String)
  | faulty (error : SessionError)

namespace Errand

/-- The errand of a stream that follows the command to push a document. -/
def ofSubmission (limit : Nat) (stream : Bytes) : Errand :=
  match firstLine limit stream with
  | .error e => .faulty (.line e)
  | .ok line =>
    if Text.trim (line.getD "") = "" then .pushNothing
    else
      match Document.parse (Text.trim (line.getD "")) with
      | .error e => .faulty (.document e)
      | .ok document => .push document

/-- The command on the first line of a stream, if that is a line. No line
at all counts as an empty one. -/
def command? (limit : Nat) (stream : Bytes) : Option Command :=
  (firstLine limit stream).toOption.map fun line => Command.ofLine (line.getD "")

/-- The station with the command of a stream counted, if it has one. -/
def counted (limit : Nat) (stream : Bytes) (station : Station) : Station :=
  match command? limit stream with
  | none => station
  | some command => station.mapMetrics (·.countCommand command.label)

/-- The errand of a command, with the stream that follows it. -/
def ofCommand (limit : Nat) (rest : Bytes) : Command → Errand
  | .config => .list .names
  | .values => .list .values
  | .state => .list .states
  | .setTree => ofSubmission limit rest
  | .getTree => .fetch
  | .unknown line => .unknown line

/-- The errand of a stream. -/
def ofStream (limit : Nat) (stream : Bytes) : Errand :=
  match firstLine limit stream with
  | .error e => .faulty (.line e)
  | .ok line => ofCommand limit (behindLine limit stream) (Command.ofLine (line.getD ""))

section Streams

variable {limit : Nat} {stream stream' : Bytes}

theorem line_of_command? {command : Command} (hcommand : command? limit stream = some command) :
    ∃ line, firstLine limit stream = .ok line ∧ Command.ofLine (line.getD "") = command := by
  unfold command? at hcommand
  cases hline : firstLine limit stream with
  | error e => simp [hline, Except.toOption] at hcommand
  | ok line => exact ⟨line, rfl, by simpa [hline, Except.toOption] using hcommand⟩

theorem error_of_command? (hnone : command? limit stream = none) :
    ∃ e, firstLine limit stream = .error e := by
  unfold command? at hnone
  cases hline : firstLine limit stream with
  | error e => exact ⟨e, rfl⟩
  | ok line => simp [hline, Except.toOption] at hnone

theorem ofStream_of_command? {command : Command} (hcommand : command? limit stream = some command) :
    ofStream limit stream = ofCommand limit (behindLine limit stream) command := by
  obtain ⟨line, hline, rfl⟩ := line_of_command? hcommand
  simp only [ofStream, hline]

theorem ofSubmission_ne_fetch : ofSubmission limit stream ≠ .fetch := by
  unfold ofSubmission
  cases firstLine limit stream with
  | error e => exact Errand.noConfusion
  | ok line =>
    simp only
    split
    · exact Errand.noConfusion
    · cases Document.parse (Text.trim (line.getD "")) <;> exact Errand.noConfusion

/-- Only the command to fetch the document does so. -/
theorem ofStream_ne_fetch (hnot : command? limit stream ≠ some .getTree) :
    ofStream limit stream ≠ .fetch := by
  cases hcommand : command? limit stream with
  | none =>
    obtain ⟨e, hline⟩ := error_of_command? hcommand
    simp only [ofStream, hline]
    exact Errand.noConfusion
  | some command =>
    rw [ofStream_of_command? hcommand]
    cases command with
    | setTree => exact ofSubmission_ne_fetch
    | getTree => exact absurd hcommand hnot
    | _ => exact Errand.noConfusion

theorem command?_congr (hfirst : firstLine limit stream = firstLine limit stream') :
    command? limit stream = command? limit stream' := by
  unfold command?
  rw [hfirst]

theorem ofSubmission_congr (hfirst : firstLine limit stream = firstLine limit stream') :
    ofSubmission limit stream = ofSubmission limit stream' := by
  unfold ofSubmission
  rw [hfirst]

end Streams

/-- The reply to an errand, apart from the document that is fetched. -/
def reply (now : Instant) (inputs : List (String × Input)) : Errand → String
  | .list listing => (listing.json now inputs).compact ++ "\n"
  | .unknown _ => invalidCommandReply
  | _ => ""

/-- The document that an errand pushes. -/
def document? : Errand → Option Document
  | .push document => some document
  | _ => none

/-- What an errand makes of the hand-off. -/
def handoff (h : Handoff) : Errand → Handoff
  | .push document => h.push document
  | .fetch => h.request.2
  | _ => h

/-- What an errand makes of the inputs. -/
def Clears (now : Instant) (r r' : Roster) : Errand → Prop
  | .list listing => r.Rendered (listing.clears now) r'
  | _ => r' = r

/-- What an errand adds to the log. -/
def events (connection : String) : Errand → List Event
  | .pushNothing => [.noDocumentReceived connection]
  | .unknown line => [.invalidCommand connection line]
  | .faulty e => [e.event connection]
  | _ => []

/-- What an errand makes of the counters. -/
def metrics (m : Metrics) : Errand → Metrics
  | .faulty e => m.countSessionError e.kind
  | _ => m

/-- What is sent when an errand is carried out, and what it makes of the
station. A listing is sent as one line. The document and the mark of a
push change only if a document is pushed. -/
structure CarriedOut (errand : Errand) (connection : String) (now : Instant) (before : Station)
    (sent : String) (after : Station) : Prop where
  replies : sent = errand.reply now before.roster.shown
  line : ∀ listing, errand = .list listing → ∃ text, sent = text ++ "\n" ∧ '\n' ∉ text.toList
  handoff : after.handoff = errand.handoff before.handoff
  current : after.handoff.current = errand.document?.getD before.handoff.current
  pushed : after.handoff.pushed = (errand.document?.isSome || before.handoff.pushed)
  roster : errand.Clears now before.roster after.roster
  metrics : after.metrics = errand.metrics before.metrics
  log : after.log = before.log ++ errand.events connection

section CarriedOut

variable (errand : Errand) (now : Instant) (inputs : List (String × Input)) (h : Handoff)

theorem current_handoff : (errand.handoff h).current = errand.document?.getD h.current := by
  cases errand with
  | push document => exact Handoff.current_push h document
  | fetch => exact Handoff.current_request h
  | _ => rfl

theorem pushed_handoff :
    (errand.handoff h).pushed = (errand.document?.isSome || h.pushed) := by
  cases errand with
  | push document => exact Handoff.pushed_push h document
  | fetch => exact Handoff.pushed_request h
  | _ => rfl

theorem reply_list (listing : Listing) :
    ∃ text, (list listing).reply now inputs = text ++ "\n" ∧ '\n' ∉ text.toList :=
  ⟨_, rfl, Json.newline_not_mem_compact (listing.json now inputs)⟩

variable {errand now} {connection : String} {before after : Station}

/-- What has to be shown to have an errand carried out. -/
theorem carriedOut (hhandoff : after.handoff = errand.handoff before.handoff)
    (hroster : errand.Clears now before.roster after.roster)
    (hmetrics : after.metrics = errand.metrics before.metrics)
    (hlog : after.log = before.log ++ errand.events connection) :
    errand.CarriedOut connection now before (errand.reply now before.roster.shown) after where
  replies := rfl
  line listing hlisting := hlisting ▸ reply_list now before.roster.shown listing
  handoff := hhandoff
  current := hhandoff ▸ current_handoff errand before.handoff
  pushed := hhandoff ▸ pushed_handoff errand before.handoff
  roster := hroster
  metrics := hmetrics
  log := hlog

end CarriedOut

end Errand

/-! ## What a session does with the lines it has -/

namespace Session

variable {s : Session} {now : Instant} {station : Station} {errand : Errand}

/-- The session is over once it has carried out an errand; how it ended is
recorded with it. -/
def Concludes (errand : Errand) (connection : ConnectionId) (now : Instant) (station : Station)
    (a : Advance) : Prop :=
  ∃ result, a.progress = .finished result ∧
    errand.CarriedOut (connectionName connection) now station a.sent
      (a.station.recordEnd connection result)

theorem close_eq (hwrites : s.writeFault = none) (answer : String) (station : Station) :
    s.close answer station = ⟨answer, .finished (.ok ()), station⟩ := by
  unfold close
  rw [hwrites]

theorem concludes_fail (error : SessionError) (connection : ConnectionId) :
    Concludes (.faulty error) connection now station (fail error station) :=
  ⟨_, rfl, Errand.carriedOut rfl rfl rfl rfl⟩

/-- **The line with a document.** Once it is settled, the session does
what the stream from there on asks for. -/
theorem concludes_awaitDocument (hlimit : s.settings.lineLimit < Word.max64)
    (hwrites : s.writeFault = none) (htold : Told s.settings.lineLimit s.unread s.ended)
    (now : Instant) (station : Station) :
    Concludes (.ofSubmission s.settings.lineLimit s.unread) s.connection now station
      (s.awaitDocument station) := by
  unfold awaitDocument Errand.ofSubmission
  rw [takeLine?_of_told hlimit htold]
  cases hline : firstLine s.settings.lineLimit s.unread with
  | error e => exact concludes_fail _ _
  | ok line =>
    simp only
    split
    · rw [close_eq (by exact hwrites)]
      exact ⟨_, rfl, Errand.carriedOut rfl rfl rfl rfl⟩
    · cases hparse : Document.parse (Text.trim (line.getD "")) with
      | error e => exact concludes_fail _ _
      | ok document =>
        simp only
        rw [close_eq (by exact hwrites)]
        exact ⟨_, rfl, Errand.carriedOut rfl rfl rfl (List.append_nil _).symm⟩

/-- The session behind the line that it reads next. -/
def behind (s : Session) : Session :=
  { s with unread := behindLine s.settings.lineLimit s.unread }

section CommandLine

variable (hlimit : s.settings.lineLimit < Word.max64)
  (htold : Told s.settings.lineLimit s.unread s.ended) (now : Instant) (station : Station)

include hlimit htold

theorem awaitCommand_of_command? {command : Command}
    (hcommand : Errand.command? s.settings.lineLimit s.unread = some command) :
    s.awaitCommand now station =
      s.behind.obey now command (Errand.counted s.settings.lineLimit s.unread station) := by
  obtain ⟨line, hline, hof⟩ := Errand.line_of_command? hcommand
  simp only [awaitCommand, takeLine?_of_told hlimit htold, Errand.counted, hcommand, hline, hof]
  rfl

end CommandLine

end Session

end MuxControl
