/-
MuxControl.Proofs.DocumentSessions — sessions that push or fetch the
document, while the control side makes its passes.

`Reading` holds while a session still waits for a line, `Pushing` and
`Fetching` add how it gets on. Each has a step lemma, over all steps that
leave the loop to its session (`Step.Attends`), and a run lemma. A
session whose errand is to push a document ends with that document in
the hand-off (`Pushing.takeSteps`). One that fetches sends the document
of the hand-off: at once if a push of it is still to be taken over, else
once the control side has made a pass (`Waiting.served_after_pass`).
-/
import MuxControl.Proofs.LiveDocument
import MuxControl.Proofs.SessionTransaction

namespace MuxControl

open Wire

/-! ## A pass that makes no restart -/

namespace Supervisor

variable (now : Instant) (idle : Bool) (v : Supervisor) (s : Server)

theorem applyQueued_aside :
    (v.applyQueued s).2.2.worker = s.worker ∧
      (v.applyQueued s).2.2.station.handoff = s.station.handoff := by
  unfold applyQueued
  cases v.queue.bind List.getLast? with
  | none => exact ⟨rfl, rfl⟩
  | some queued =>
    simp only [Server.updateSettings]
    split <;> exact ⟨rfl, rfl⟩

/-- What a pass does after it looked for a queued configuration. -/
theorem revive_exchanges (due : Bool) :
    let after := if due then
        (v.exchange s).1.makeRestart now id ((v.exchange s).2.mapStation (·.report [.loopDown]))
      else ((v.exchange s).1, (v.exchange s).2)
    after.2.worker = s.worker ∧
      after.2.station.handoff = s.station.handoff.takePushed.2.answered after.1.live := by
  cases due <;> exact ⟨worker_exchange v s, handoff_exchange v s⟩

/-- Without a restart, a pass is an exchange of documents and nothing
else, as far as the loop and the hand-off go. -/
theorem tick_exchanges :
    (v.tick now idle id s).2.worker = s.worker ∧
      (v.tick now idle id s).2.station.handoff =
        s.station.handoff.takePushed.2.answered (v.tick now idle id s).1.live := by
  obtain ⟨hworker, hhandoff⟩ := applyQueued_aside v s
  rw [← hworker, ← hhandoff]
  unfold tick
  generalize v.applyQueued s = applied
  obtain ⟨portChanged, v₁, s₁⟩ := applied
  cases portChanged with
  | true => exact revive_exchanges now { v₁ with lastRestart := some now } s₁ _
  | false => exact revive_exchanges now v₁ s₁ _

end Supervisor

/-! ## Requests that get the document -/

namespace Handoff

variable {h : Handoff} {ticket : Ticket} {document : Document}

/-- A request is answered with a document, or waits for an answer. -/
def Expects (h : Handoff) (ticket : Ticket) (document : Document) : Prop :=
  h.outcome? ticket = some (.ready document) ∨
    h.waiting = some ticket ∧ h.outcome? ticket = some .pending

theorem Expects.takePushed (hexpects : h.Expects ticket document) :
    h.takePushed.2.Expects ticket document := by
  unfold Expects
  rw [outcome?_takePushed, waiting_takePushed]
  exact hexpects

/-- Once those who wait are answered, the request has the document. -/
theorem Expects.answered (hexpects : h.Expects ticket document) (hopen : h.isOpen = true) :
    (h.answered document).outcome? ticket = some (.ready document) := by
  unfold Handoff.answered
  by_cases hawaited : h.isAwaited = true
  · simp only [hawaited, if_true, publish, hopen]
    rw [outcome?_eq_some_iff, fulfil, requests_settleWaiting]
    rcases hexpects with hready | ⟨hwaiting, hpending⟩
    · rw [outcome?_eq_some_iff] at hready
      simp only [hready, Option.map_some, ite_self]
    · rw [outcome?_eq_some_iff] at hpending
      simp only [hwaiting, if_true, hpending, Option.map_some]
  · rw [if_neg hawaited]
    rcases hexpects with hready | ⟨hwaiting, hpending⟩
    · exact hready
    · rw [outcome?_eq_some_iff] at hpending
      simp [isAwaited, hwaiting, hpending] at hawaited

/-- A new request is answered at once if a push is still to be taken
over; else it waits. -/
theorem expects_request (hcurrent : h.current = document) :
    h.request.2.Expects h.request.1 document ∧
      (h.pushed = true → h.request.2.outcome? h.request.1 = some (.ready document)) := by
  have hout : h.request.2.outcome? h.request.1 =
      some (if h.pushed then .ready document else .pending) := by
    rw [outcome?_eq_some_iff, fst_request, requests_request, if_pos rfl, hcurrent]
  cases hpushed : h.pushed with
  | true => exact ⟨.inl (by rw [hout, hpushed]; rfl), fun _ => by rw [hout, hpushed]; rfl⟩
  | false =>
    refine ⟨.inr ⟨?_, by rw [hout, hpushed]; rfl⟩, fun htrue => by cases htrue⟩
    simp [request, hpushed]

end Handoff

/-! ## Steps that leave the loop to its session -/

/-- The loop runs and serves nobody. -/
structure Server.Free (s : Server) (w : Worker) : Prop where
  worker : s.worker = some w
  running : w.finished = false
  idle : w.session = none

namespace ControlledServer

/-- Steps one after the other. Answers all that is sent. -/
def takeSteps (c : ControlledServer) : List Step → String × ControlledServer
  | [] => ("", c)
  | step :: later =>
    let (sent, c) := c.perform step
    let (more, c) := c.takeSteps later
    (sent ++ more, c)

namespace Step

/-- A step as a turn of the conversation with the client. -/
def turn : Step → Turn
  | .receive now bytes => .bytes now bytes
  | .endInput now => .close now
  | .proceed now => .look now
  | _ => .others id

/-- Steps that leave the loop to its session: those of its client, and
what happens beside it, where no restart has begun. -/
def Attends : Step → Prop
  | .receive _ _ => True
  | .endInput _ => True
  | .proceed _ => True
  | .pass _ _ bind => bind = none
  | .enqueue _ => True
  | .configure _ => True
  | .acceptFault _ => True
  | _ => False

end Step

variable {c : ControlledServer} {w : Worker} {document : Document} {step : Step}
  {later : List Step} {now : Instant} {feed : Session → Session}

theorem takeSteps_cons (c : ControlledServer) (step : Step) (later : List Step) :
    c.takeSteps (step :: later) =
      ((c.perform step).1 ++ ((c.perform step).2.takeSteps later).1,
        ((c.perform step).2.takeSteps later).2) := rfl

theorem takeSteps_append (c : ControlledServer) (steps more : List Step) :
    c.takeSteps (steps ++ more) =
      ((c.takeSteps steps).1 ++ ((c.takeSteps steps).2.takeSteps more).1,
        ((c.takeSteps steps).2.takeSteps more).2) := by
  induction steps generalizing c with
  | nil => simp [takeSteps]
  | cons step later ih => simp [takeSteps, ih, String.append_assoc]

/-- The session that is served goes on in a step of its client. -/
theorem perform_feed {session : Session}
    (hw : c.server.worker = some { w with session := some session })
    (hfeed : step.turn.feed? = some (now, feed)) :
    c.perform step = (((feed session).advance now c.server.station).sent,
      ⟨c.server.resumed w session.connection ((feed session).advance now c.server.station),
        c.control⟩) := by
  have hsession : c.server.onSession (fun session => (feed session).advance now) =
      (((feed session).advance now c.server.station).sent,
        c.server.resumed w session.connection ((feed session).advance now c.server.station)) := by
    simp only [Server.onSession, hw, Server.follow, Server.resumed]
    cases ((feed session).advance now c.server.station).progress <;> rfl
  cases step with
  | receive | endInput | proceed =>
    cases hfeed
    exact congrArg (Prod.map id fun server => { c with server := server }) hsession
  | _ => cases hfeed

/-- A loop that serves nobody does nothing in a step of a client. -/
theorem perform_idle (hnone : c.server.session? = none)
    (hfeed : step.turn.feed? = some (now, feed)) : c.perform step = ("", c) := by
  have hsession := Server.onSession_of_none hnone fun session => (feed session).advance now
  cases step with
  | receive | endInput | proceed =>
    cases hfeed
    exact congrArg (Prod.map id fun server => { c with server := server }) hsession
  | _ => cases hfeed

/-- What holds of a server whose loop runs, as far as its document goes. -/
theorem upholds_loop {s : Server} {v : Supervisor} (hw : s.worker = some w)
    (hrunning : w.finished = false) (hopen : s.station.handoff.isOpen = true)
    (hcurrent : s.station.handoff.current = document)
    (hlive : s.station.handoff.pushed = false → v.live = document)
    (hfinds : ∀ session ticket found, w.session = some session → session.stage = .answer ticket →
      s.station.handoff.outcome? ticket = some (.ready found) → found = document) :
    Upholds ⟨s, v⟩ document where
  sound := by
    refine ⟨fun hclosed => ?_, fun _ _ _ => hopen, fun w' hw' hfinished => ?_⟩
    · cases hopen.symm.trans hclosed
    · obtain rfl := Option.some.inj (hw.symm.trans hw')
      cases hrunning.symm.trans hfinished
  current := hcurrent
  live := hlive
  answered session ticket found hsession hstage hready := by
    obtain ⟨w', hw', hserved⟩ := Option.bind_eq_some_iff.mp hsession
    obtain rfl := Option.some.inj (hw.symm.trans hw')
    exact hfinds session ticket found hserved hstage hready

/-- What a step beside the session does: it sends nothing, leaves the loop
alone and the document where it is. -/
structure Beside (c : ControlledServer) (step : Step) (document : Document) : Prop where
  silent : (c.perform step).1 = ""
  worker : (c.perform step).2.server.worker = c.server.worker
  upholds : (c.perform step).2.Upholds document
  handoff : step.isPass = false →
    (c.perform step).2.server.station.handoff = c.server.station.handoff
  expects : ∀ ticket, c.server.station.handoff.Expects ticket document →
    (c.perform step).2.server.station.handoff.Expects ticket document

/-- A pass answers those who wait with the document. -/
theorem Upholds.pass_answers (hup : c.Upholds document) (hw : c.server.worker = some w)
    (hrunning : w.finished = false) {ticket : Ticket}
    (hexpects : c.server.station.handoff.Expects ticket document) (now : Instant) (idle : Bool) :
    (c.perform (.pass now idle none)).2.server.station.handoff.outcome? ticket =
      some (.ready document) := by
  have hlive : (c.control.tick now idle id c.server).1.live = document :=
    (hup.pass now idle none).2.1
  have hhandoff := (Supervisor.tick_exchanges now idle c.control c.server).2
  rw [hlive] at hhandoff
  have hopen : c.server.station.handoff.takePushed.2.isOpen = true := by
    rw [Handoff.isOpen_takePushed]
    exact hup.sound.looping w hw hrunning
  exact (congrArg (Handoff.outcome? · ticket) hhandoff).trans (hexpects.takePushed.answered hopen)

theorem Upholds.beside (hup : c.Upholds document) (hw : c.server.worker = some w)
    (hrunning : w.finished = false) (hattends : step.Attends) (hnone : step.turn.feed? = none) :
    c.Beside step document := by
  cases step with
  | pass now idle bind =>
    obtain rfl : bind = none := hattends
    exact ⟨rfl, (Supervisor.tick_exchanges now idle c.control c.server).1,
      (hup.pass now idle none).1, fun hnot => (by cases hnot),
      fun ticket hexpects => .inl (hup.pass_answers hw hrunning hexpects now idle)⟩
  | enqueue settings =>
    exact ⟨rfl, rfl, hup.cycles (.refl _) rfl, fun _ => rfl, fun _ hexpects => hexpects⟩
  | configure settings =>
    exact ⟨rfl, rfl, hup.cycles (.aside rfl rfl) rfl, fun _ => rfl, fun _ hexpects => hexpects⟩
  | acceptFault reason =>
    exact ⟨rfl, rfl, hup.cycles (.aside rfl rfl) rfl, fun _ => rfl, fun _ hexpects => hexpects⟩
  | receive | endInput | proceed => cases hnone
  | _ => cases hattends

/-! ## Sessions that wait for a line -/

end ControlledServer

namespace Session

/-- What a session that waits for a line is asked for. -/
def errand (session : Session) (turns : List Turn) : Errand :=
  match session.stage with
  | .document => .ofSubmission session.settings.lineLimit (session.stream turns)
  | _ => .ofStream session.settings.lineLimit (session.stream turns)

end Session

namespace ControlledServer

variable {c : ControlledServer} {w : Worker} {errand : Errand} {document : Document}
  {session : Session} {step : Step} {later : List Step}

/-- The loop serves a session that waits for a line of which not all is
there, and with the steps to come it is asked for an errand. -/
structure Reading (c : ControlledServer) (w : Worker) (errand : Errand) (document : Document)
    (session : Session) (steps : List Step) : Prop where
  upholds : c.Upholds document
  worker : c.server.worker = some { w with session := some session }
  running : w.finished = false
  settings : session.settings = w.settings
  writes : session.writeFault = none
  stage : ∀ ticket, session.stage ≠ .answer ticket
  waits : ¬ Told w.settings.lineLimit session.unread session.ended
  ends : session.Ends (steps.map Step.turn)
  errand : session.errand (steps.map Step.turn) = errand

/-- A step brings a session to have its line. -/
structure Settles (c : ControlledServer) (w : Worker) (errand : Errand) (step : Step)
    (later : List Step) (now : Instant) (fed : Session) : Prop where
  settings : fed.settings = w.settings
  writes : fed.writeFault = none
  stage : ∀ ticket, fed.stage ≠ .answer ticket
  told : Told fed.settings.lineLimit fed.unread fed.ended
  ends : fed.Ends (later.map Step.turn)
  errand : fed.errand (later.map Step.turn) = errand
  performs : c.perform step = ((fed.advance now c.server.station).sent,
    ⟨c.server.resumed w fed.connection (fed.advance now c.server.station), c.control⟩)

theorem Reading.isOpen (hreads : c.Reading w errand document session later) :
    c.server.station.handoff.isOpen = true :=
  hreads.upholds.sound.looping _ hreads.worker hreads.running

/-- What holds of the server with another session that waits for a line,
or with none. -/
theorem Upholds.served (hup : c.Upholds document) (hopen : c.server.station.handoff.isOpen = true)
    (hrunning : w.finished = false) (hstage : ∀ ticket, session.stage ≠ .answer ticket)
    {station : Station} (hhandoff : station.handoff = c.server.station.handoff) :
    Upholds ⟨c.server.serving w session station, c.control⟩ document := by
  refine upholds_loop (w := { w with session := some session }) rfl hrunning ?_ ?_ ?_ ?_
  · exact (congrArg Handoff.isOpen hhandoff).trans hopen
  · exact (congrArg Handoff.current hhandoff).trans hup.current
  · exact fun hpushed => hup.live ((congrArg Handoff.pushed hhandoff).symm.trans hpushed)
  · intro served ticket found hserved hasked _
    exact absurd hasked (Option.some.inj hserved ▸ hstage ticket)

/-- What happens beside it leaves a session reading. -/
theorem Reading.beside (hreads : c.Reading w errand document session (step :: later))
    (hattends : step.Attends) (hfeed : step.turn.feed? = none) :
    (c.perform step).1 = "" ∧ (c.perform step).2.Reading w errand document session later ∧
      (step.isPass = false →
        (c.perform step).2.server.station.handoff = c.server.station.handoff) := by
  have hbeside := hreads.upholds.beside hreads.worker hreads.running hattends hfeed
  have hturn : ∃ change, step.turn = .others change := by
    cases step with
    | receive | endInput | proceed => cases hfeed
    | _ => exact ⟨id, rfl⟩
  obtain ⟨change, hturn⟩ := hturn
  have herrand := hreads.errand
  have hends := hreads.ends
  rw [List.map_cons, hturn] at herrand hends
  exact ⟨hbeside.silent,
    { hreads with
      upholds := hbeside.upholds
      worker := hbeside.worker.trans hreads.worker
      ends := Session.ends_later hends fun _ => Turn.noConfusion
      errand := herrand },
    hbeside.handoff⟩

/-- A step of its client settles the line of a session, or leaves it
reading. -/
theorem Reading.fed (hreads : c.Reading w errand document session (step :: later))
    (hlimit : w.settings.lineLimit < Word.max64) {now : Instant} {feed : Session → Session}
    (hfeed : step.turn.feed? = some (now, feed)) :
    ((c.perform step).1 = "" ∧
        (c.perform step).2.Reading w errand document (feed session) later ∧
        (c.perform step).2.server.station.handoff = c.server.station.handoff) ∨
      c.Settles w errand step later now (feed session) := by
  obtain ⟨unread, ended, hfed⟩ := Turn.feed?_eq hfeed session
  have hopen : session.ended = false :=
    Bool.eq_false_iff.mpr fun hended => hreads.waits (.inr (.inr hended))
  have hsettings : (feed session).settings = w.settings := by
    rw [hfed]
    exact hreads.settings
  have hwrites : (feed session).writeFault = none := by
    rw [hfed]
    exact hreads.writes
  have hsame : (feed session).stage = session.stage := by rw [hfed]
  have hstage : ∀ ticket, (feed session).stage ≠ .answer ticket := hsame ▸ hreads.stage
  have hconnection : (feed session).connection = session.connection := by rw [hfed]
  have hends := Session.ends_feed hreads.ends hfeed
  have herrand : (feed session).errand (later.map Step.turn) = errand := by
    rw [← hreads.errand, Session.errand, Session.errand, hsame,
      Session.stream_feed hopen hfeed, hsettings, hreads.settings]
    rfl
  have hperforms := perform_feed hreads.worker hfeed
  by_cases htold : Told w.settings.lineLimit (feed session).unread (feed session).ended
  · exact .inr ⟨hsettings, hwrites, hstage, hsettings ▸ htold, hends, herrand,
      hconnection ▸ hperforms⟩
  · have hwaits := Session.advance_of_not_told hstage (hsettings ▸ hlimit) (hsettings ▸ htold) now
      c.server.station
    rw [hperforms, hwaits]
    exact .inl ⟨rfl,
      ⟨hreads.upholds.served hreads.isOpen hreads.running hstage rfl, rfl, hreads.running,
        hsettings, hwrites, hstage, htold, hends, herrand⟩, rfl⟩

/-- **The steps of a session that reads.** It goes on waiting, and nothing
changes for the document, until a step settles its line. -/
theorem Reading.perform (hreads : c.Reading w errand document session (step :: later))
    (hlimit : w.settings.lineLimit < Word.max64) (hattends : step.Attends) :
    ((c.perform step).1 = "" ∧
        (∃ next, (c.perform step).2.Reading w errand document next later) ∧
        (step.isPass = false →
          (c.perform step).2.server.station.handoff = c.server.station.handoff)) ∨
      ∃ now fed, c.Settles w errand step later now fed := by
  cases hfeed : step.turn.feed? with
  | none =>
    obtain ⟨hsilent, hnext, hhandoff⟩ := hreads.beside hattends hfeed
    exact .inl ⟨hsilent, ⟨session, hnext⟩, hhandoff⟩
  | some brought =>
    obtain ⟨now, feed⟩ := brought
    rcases hreads.fed hlimit hfeed with ⟨hsilent, hnext, hhandoff⟩ | hsettles
    · exact .inl ⟨hsilent, ⟨feed session, hnext⟩, fun _ => hhandoff⟩
    · exact .inr ⟨now, feed session, hsettles⟩

theorem Reading.cons (hreads : c.Reading w errand document session later) : later ≠ [] := by
  rintro rfl
  obtain hended | ⟨_, hmem⟩ := hreads.ends
  · exact hreads.waits (.inr (.inr hended))
  · exact absurd hmem List.not_mem_nil

/-- A free loop greets the client that it accepts, and then reads. -/
theorem Upholds.reads (hup : c.Upholds document) (hfree : c.server.Free w) {steps : List Step}
    (hcloses : ∃ now, Step.endInput now ∈ steps)
    (herrand :
      Errand.ofStream w.settings.lineLimit (Turn.received (steps.map Step.turn)) = errand) :
    ∃ session, (c.perform (.accept none)).2.Reading w errand document session steps := by
  let session : Session := { connection := c.server.nextConnection, settings := w.settings }
  have haccepts : (c.perform (.accept none)).2 =
      ⟨c.server.admitting.serving w session c.server.admitting.station, c.control⟩ :=
    congrArg (fun accepted : String × Server => ControlledServer.mk accepted.2 c.control)
      (Server.accept_of_free hfree.worker hfree.running hfree.idle)
  have hopen := hup.sound.looping w hfree.worker hfree.running
  obtain ⟨now, hmem⟩ := hcloses
  rw [haccepts]
  refine ⟨session, ⟨?_, rfl, hfree.running, rfl, rfl, fun _ => Stage.noConfusion,
    by simp [Told, session], .inr ⟨now, List.mem_map_of_mem hmem⟩, ?_⟩⟩
  · exact Upholds.served (c := ⟨c.server.admitting, c.control⟩) (hup.cycles (.aside rfl rfl) rfl)
      hopen hfree.running (fun _ => Stage.noConfusion) rfl
  · simpa [Session.errand, Session.stream, session] using herrand

/-- A loop that is free stays free, and the document where it is. -/
theorem Upholds.idles (hup : c.Upholds document) (hfree : c.server.Free w)
    (hattends : step.Attends) :
    (c.perform step).1 = "" ∧ (c.perform step).2.server.Free w ∧
      (c.perform step).2.Upholds document := by
  cases hfeed : step.turn.feed? with
  | none =>
    have hbeside := hup.beside hfree.worker hfree.running hattends hfeed
    exact ⟨hbeside.silent, ⟨hbeside.worker.trans hfree.worker, hfree.running, hfree.idle⟩,
      hbeside.upholds⟩
  | some brought =>
    have hnone : c.server.session? = none := by
      rw [Server.session?, hfree.worker, Option.bind_some, hfree.idle]
    rw [perform_idle hnone hfeed]
    exact ⟨rfl, hfree, hup⟩

theorem Upholds.idles_takeSteps (hup : c.Upholds document) (hfree : c.server.Free w)
    {steps : List Step} (hattends : ∀ step ∈ steps, step.Attends) :
    (c.takeSteps steps).1 = "" ∧ (c.takeSteps steps).2.server.Free w ∧
      (c.takeSteps steps).2.Upholds document := by
  induction steps generalizing c with
  | nil => exact ⟨rfl, hfree, hup⟩
  | cons step later ih =>
    obtain ⟨hsilent, hfree', hup'⟩ := hup.idles hfree (hattends step List.mem_cons_self)
    obtain ⟨hmore, hafter⟩ :=
      ih hup' hfree' fun other hmem => hattends other (List.mem_cons_of_mem _ hmem)
    exact ⟨by rw [takeSteps_cons, hsilent, hmore]; rfl, hafter⟩

theorem free_freed (hrunning : w.finished = false) (hidle : w.session = none) (s : Server)
    (station : Station) : (s.freed w station).Free w := by
  refine ⟨?_, hrunning, hidle⟩
  rw [Server.freed, ← hidle]

/-! ## Sessions that push the document -/

/-- How a session gets on that is to push a document. -/
inductive Pushing (document : Document) (w : Worker) (c : ControlledServer) (steps : List Step) :
    Prop where
  | reading (held : Document) (session : Session)
      (hreads : c.Reading w (.push document) held session steps)
  | done (hfree : c.server.Free w) (hup : c.Upholds document)

/-- The command of a stream that asks to push a document. -/
theorem command?_of_push {limit : Nat} {stream : Bytes}
    (hpush : Errand.ofStream limit stream = .push document) :
    Errand.command? limit stream = some .setTree ∧
      Errand.ofSubmission limit (behindLine limit stream) = .push document := by
  cases hcommand : Errand.command? limit stream with
  | none =>
    obtain ⟨e, hline⟩ := Errand.error_of_command? hcommand
    simp only [Errand.ofStream, hline] at hpush
    cases hpush
  | some command =>
    rw [Errand.ofStream_of_command? hcommand] at hpush
    cases command with
    | setTree => exact ⟨rfl, hpush⟩
    | _ => cases hpush

/-- The line with the document: the session waits for it, or it is there
and the document is pushed. -/
theorem Upholds.awaitDocument {held : Document} (hup : c.Upholds held) (session : Session)
    (hopen : c.server.station.handoff.isOpen = true) (hrunning : w.finished = false)
    (hidle : w.session = none) (hlimit : w.settings.lineLimit < Word.max64)
    (hsettings : session.settings = w.settings) (hwrites : session.writeFault = none)
    (hends : session.Ends (later.map Step.turn))
    (herrand : Errand.ofSubmission w.settings.lineLimit (session.stream (later.map Step.turn)) =
      .push document)
    {station : Station} (hhandoff : station.handoff = c.server.station.handoff) (now : Instant) :
    (session.awaitDocument station).sent = "" ∧
      Pushing document w ⟨c.server.resumed w session.connection (session.awaitDocument station),
        c.control⟩ later := by
  by_cases htold : Told session.settings.lineLimit session.unread session.ended
  · obtain ⟨result, hresult, hcarried⟩ :=
      Session.concludes_awaitDocument (hsettings ▸ hlimit) hwrites htold now station
    have hsame :
        Errand.ofSubmission session.settings.lineLimit session.unread = .push document := by
      rw [← Errand.ofSubmission_congr (Session.firstLine_stream htold (later.map Step.turn)).1,
        hsettings, herrand]
    rw [hsame] at hcarried
    refine ⟨hcarried.replies, ?_⟩
    simp only [Server.resumed, hresult]
    refine .done (free_freed hrunning hidle _ _)
      (upholds_loop rfl hrunning ?_ hcarried.current (fun hpushed => ?_) fun _ _ _ hnone => ?_)
    · exact (congrArg Handoff.isOpen hcarried.handoff).trans
        ((Handoff.isOpen_push _ _).trans ((congrArg Handoff.isOpen hhandoff).trans hopen))
    · cases hcarried.pushed.symm.trans hpushed
    · cases hnone
  · have hwaits : session.awaitDocument station =
        { session with stage := .document }.wait station := by
      simp only [Session.awaitDocument,
        Session.takeLine?_of_not_told (hsettings ▸ hlimit) htold]
    rw [hwaits]
    refine ⟨rfl, .reading held { session with stage := .document }
      ⟨hup.served hopen hrunning (fun _ => Stage.noConfusion) hhandoff, rfl, hrunning, hsettings,
        hwrites, fun _ => Stage.noConfusion, hsettings ▸ htold, hends, ?_⟩⟩
    rw [← herrand, ← hsettings]
    rfl

theorem Pushing.perform (hpushing : Pushing document w c (step :: later))
    (hidle : w.session = none) (hlimit : w.settings.lineLimit < Word.max64)
    (hattends : step.Attends) :
    (c.perform step).1 = "" ∧ Pushing document w (c.perform step).2 later := by
  cases hpushing with
  | done hfree hup =>
    obtain ⟨hsilent, hfree', hup'⟩ := hup.idles hfree hattends
    exact ⟨hsilent, .done hfree' hup'⟩
  | reading held session hreads =>
    rcases hreads.perform hlimit hattends with ⟨hsilent, ⟨next, hnext⟩, -⟩ | ⟨now, fed, hsettles⟩
    · exact ⟨hsilent, .reading held next hnext⟩
    rw [hsettles.performs, Session.advance]
    have herrand := hsettles.errand
    unfold Session.errand at herrand
    cases hstage : fed.stage with
    | document =>
      rw [hstage, hsettles.settings] at herrand
      exact hreads.upholds.awaitDocument fed hreads.isOpen hreads.running hidle hlimit
        hsettles.settings hsettles.writes hsettles.ends herrand rfl now
    | command =>
      rw [hstage] at herrand
      obtain ⟨hfirst, hbehind⟩ := Session.firstLine_stream hsettles.told (later.map Step.turn)
      obtain ⟨hcommand, hsubmits⟩ := command?_of_push herrand
      rw [hbehind, hsettles.settings] at hsubmits
      simp only
      rw [Session.awaitCommand_of_command? (hsettles.settings ▸ hlimit) hsettles.told now _
        ((Errand.command?_congr hfirst).symm.trans hcommand)]
      refine hreads.upholds.awaitDocument fed.behind hreads.isOpen hreads.running hidle hlimit
        hsettles.settings hsettles.writes hsettles.ends hsubmits ?_ now
      unfold Errand.counted
      cases Errand.command? fed.settings.lineLimit fed.unread <;> rfl
    | answer ticket => exact absurd hstage (hsettles.stage ticket)

/-- **A session that is to push a document** has done so once its client
has closed its side. -/
theorem Pushing.takeSteps {steps : List Step} (hpushing : Pushing document w c steps)
    (hidle : w.session = none) (hlimit : w.settings.lineLimit < Word.max64)
    (hattends : ∀ step ∈ steps, step.Attends) :
    (c.takeSteps steps).1 = "" ∧ (c.takeSteps steps).2.server.Free w ∧
      (c.takeSteps steps).2.Upholds document := by
  induction steps generalizing c with
  | nil =>
    cases hpushing with
    | reading held session hreads => exact absurd rfl hreads.cons
    | done hfree hup => exact ⟨rfl, hfree, hup⟩
  | cons step later ih =>
    obtain ⟨hsilent, hnext⟩ :=
      hpushing.perform hidle hlimit (hattends step List.mem_cons_self)
    obtain ⟨hmore, hafter⟩ :=
      ih hnext fun other hmem => hattends other (List.mem_cons_of_mem _ hmem)
    exact ⟨by rw [takeSteps_cons, hsilent, hmore]; rfl, hafter⟩

/-! ## Sessions that fetch the document -/

/-- The loop serves a session that waits for the answer to its request,
which will be the document. -/
structure Waiting (c : ControlledServer) (w : Worker) (document : Document) (session : Session)
    (ticket : Ticket) : Prop where
  upholds : c.Upholds document
  worker : c.server.worker = some { w with session := some session }
  running : w.finished = false
  writes : session.writeFault = none
  stage : session.stage = .answer ticket
  expects : c.server.station.handoff.Expects ticket document

/-- How a session gets on that is to fetch the document and has sent
nothing yet. If `unconsumed` holds, a push stays to be taken over until
it makes its request. -/
inductive Fetching (document : Document) (w : Worker) (unconsumed : Prop) (c : ControlledServer)
    (steps : List Step) : Prop where
  | reading (session : Session) (hreads : c.Reading w .fetch document session steps)
      (hpushed : unconsumed → c.server.station.handoff.pushed = true)
  | waiting (session : Session) (ticket : Ticket) (hwaits : c.Waiting w document session ticket)
      (hconsumed : ¬ unconsumed)

/-- A session has been answered with the document. -/
structure Served (w : Worker) (document : Document) (outcome : String × ControlledServer) :
    Prop where
  sent : outcome.1 = document.wire
  free : outcome.2.server.Free w
  upholds : outcome.2.Upholds document

/-- A session with a request looks whether it was answered. -/
theorem awaitAnswer_of_expects (c : ControlledServer) (session : Session) (station : Station)
    {ticket : Ticket} (hopen : station.handoff.isOpen = true)
    (hcurrent : station.handoff.current = document)
    (hlive : station.handoff.pushed = false → c.control.live = document)
    (hrunning : w.finished = false) (hidle : w.session = none) (hwrites : session.writeFault = none)
    (hexpects : station.handoff.Expects ticket document) :
    Served w document ((session.awaitAnswer ticket station).sent,
        ⟨c.server.resumed w session.connection (session.awaitAnswer ticket station), c.control⟩) ∨
      station.handoff.outcome? ticket ≠ some (.ready document) ∧
      (session.awaitAnswer ticket station).sent = "" ∧
      ∃ next, Waiting ⟨c.server.resumed w session.connection (session.awaitAnswer ticket station),
        c.control⟩ w document next ticket := by
  unfold Session.awaitAnswer
  rcases hexpects with hready | ⟨hwaiting, hpending⟩
  · simp only [hready, Session.close_eq hwrites, Server.resumed]
    refine .inl ⟨rfl, free_freed hrunning hidle _ _,
      upholds_loop rfl hrunning hopen hcurrent hlive fun _ _ _ hnone => by cases hnone⟩
  · simp only [hpending]
    let next : Session := { session with stage := .answer ticket, unread := [] }
    refine .inr ⟨fun hready => (by cases hready), rfl, next, ?_, rfl, hrunning, hwrites, rfl,
      .inr ⟨hwaiting, hpending⟩⟩
    refine upholds_loop (w := { w with session := some next }) rfl hrunning hopen hcurrent hlive ?_
    intro served other found hserved hasked hready
    obtain rfl := Option.some.inj hserved
    obtain rfl := Stage.answer.inj hasked
    cases hpending.symm.trans hready

section Waiting

variable {ticket : Ticket} (hwaits : c.Waiting w document session ticket)

include hwaits

/-- What happens beside it leaves a session waiting. -/
theorem Waiting.beside (hattends : step.Attends) (hfeed : step.turn.feed? = none) :
    (c.perform step).1 = "" ∧ (c.perform step).2.Waiting w document session ticket := by
  have hbeside := hwaits.upholds.beside hwaits.worker hwaits.running hattends hfeed
  exact ⟨hbeside.silent,
    { hwaits with
      upholds := hbeside.upholds
      worker := hbeside.worker.trans hwaits.worker
      expects := hbeside.expects ticket hwaits.expects }⟩

/-- In a step of its client the session looks, and goes on waiting only if
it was not answered. -/
theorem Waiting.looks (hidle : w.session = none) {now : Instant} {feed : Session → Session}
    (hfeed : step.turn.feed? = some (now, feed)) :
    Served w document (c.perform step) ∨
      c.server.station.handoff.outcome? ticket ≠ some (.ready document) ∧
      (c.perform step).1 = "" ∧ ∃ next, (c.perform step).2.Waiting w document next ticket := by
  obtain ⟨unread, ended, hfed⟩ := Turn.feed?_eq hfeed session
  have hwrites : (feed session).writeFault = none := by
    rw [hfed]
    exact hwaits.writes
  have hconnection : (feed session).connection = session.connection := by rw [hfed]
  have hadvance : (feed session).advance now c.server.station =
      (feed session).awaitAnswer ticket c.server.station := by
    rw [hfed]
    simp only [Session.advance, hwaits.stage]
  rw [perform_feed hwaits.worker hfeed, hadvance, ← hconnection]
  exact awaitAnswer_of_expects c _ _ (hwaits.upholds.sound.looping _ hwaits.worker hwaits.running)
    hwaits.upholds.current hwaits.upholds.live hwaits.running hidle hwrites hwaits.expects

theorem Waiting.perform (hidle : w.session = none) (hattends : step.Attends) :
    (c.perform step).1 = "" ∧ (∃ next, (c.perform step).2.Waiting w document next ticket) ∨
      Served w document (c.perform step) := by
  cases hfeed : step.turn.feed? with
  | none =>
    obtain ⟨hsilent, hnext⟩ := hwaits.beside hattends hfeed
    exact .inl ⟨hsilent, session, hnext⟩
  | some brought =>
    rcases hwaits.looks hidle hfeed with hserved | ⟨-, hsilent, hnext⟩
    · exact .inr hserved
    · exact .inl ⟨hsilent, hnext⟩

/-- **A pass brings the answer.** A session that waits has been answered
when it looks again behind a pass. -/
theorem Waiting.served_after_pass (hidle : w.session = none) (now : Instant) (idle : Bool)
    (later : Instant) : Served w document (c.takeSteps [.pass now idle none, .proceed later]) := by
  have hready := hwaits.upholds.pass_answers hwaits.worker hwaits.running hwaits.expects now idle
  obtain ⟨hsilent, hnext⟩ := hwaits.beside (show (Step.pass now idle none).Attends from rfl) rfl
  rw [takeSteps_cons, takeSteps_cons, hsilent, String.empty_append]
  have hfeed : (Step.proceed later).turn.feed? = some (later, id) := rfl
  rcases hnext.looks hidle hfeed with hserved | ⟨hnot, -⟩
  · exact ⟨(String.append_empty).trans hserved.sent, hserved.free, hserved.upholds⟩
  · exact absurd hready hnot

end Waiting

/-- The command of a stream that asks to fetch the document. -/
theorem command?_of_fetch {limit : Nat} {stream : Bytes}
    (hfetch : Errand.ofStream limit stream = .fetch) :
    Errand.command? limit stream = some .getTree := by
  by_contra hnot
  exact Errand.ofStream_ne_fetch hnot hfetch

variable {unconsumed : Prop}

theorem Fetching.perform (hfetching : Fetching document w unconsumed c (step :: later))
    (hidle : w.session = none) (hlimit : w.settings.lineLimit < Word.max64)
    (hattends : step.Attends) (hquiet : unconsumed → step.isPass = false) :
    (c.perform step).1 = "" ∧ Fetching document w unconsumed (c.perform step).2 later ∨
      Served w document (c.perform step) := by
  cases hfetching with
  | waiting session ticket hwaits hconsumed =>
    rcases hwaits.perform hidle hattends with ⟨hsilent, next, hnext⟩ | hserved
    · exact .inl ⟨hsilent, .waiting next ticket hnext hconsumed⟩
    · exact .inr hserved
  | reading session hreads hpushed =>
    rcases hreads.perform hlimit hattends with
      ⟨hsilent, ⟨next, hnext⟩, hsame⟩ | ⟨now, fed, hsettles⟩
    · refine .inl ⟨hsilent, .reading next hnext fun hun => ?_⟩
      rw [hsame (hquiet hun)]
      exact hpushed hun
    rw [hsettles.performs, Session.advance]
    have herrand := hsettles.errand
    unfold Session.errand at herrand
    cases hstage : fed.stage with
    | document =>
      rw [hstage] at herrand
      exact absurd herrand Errand.ofSubmission_ne_fetch
    | answer ticket => exact absurd hstage (hsettles.stage ticket)
    | command =>
      rw [hstage] at herrand
      obtain ⟨hfirst, -⟩ := Session.firstLine_stream hsettles.told (later.map Step.turn)
      have hcommand : Errand.command? fed.settings.lineLimit fed.unread = some .getTree :=
        (Errand.command?_congr hfirst).symm.trans (command?_of_fetch herrand)
      simp only
      rw [Session.awaitCommand_of_command? (hsettles.settings ▸ hlimit) hsettles.told now _
        hcommand]
      simp only [Errand.counted, hcommand]
      obtain ⟨hexpects, hready⟩ := Handoff.expects_request hreads.upholds.current
      rcases awaitAnswer_of_expects c fed.behind
        (c.server.station.mapMetrics (·.countCommand Command.getTree.label)).request.2
        ((Handoff.isOpen_request _).trans hreads.isOpen)
        ((Handoff.current_request _).trans hreads.upholds.current)
        (fun hnot => hreads.upholds.live ((Handoff.pushed_request _).symm.trans hnot))
        hreads.running hidle hsettles.writes hexpects with hserved | ⟨hnot, hsilent, next, hnext⟩
      · exact .inr hserved
      · exact .inl ⟨hsilent, .waiting next _ hnext fun hun => hnot (hready (hpushed hun))⟩

/-- **A session that fetches the document** has sent it, or waits for it,
once its client has closed its side; it does not wait if a push stays to
be taken over. -/
theorem Fetching.takeSteps {steps : List Step}
    (hfetching : Fetching document w unconsumed c steps) (hidle : w.session = none)
    (hlimit : w.settings.lineLimit < Word.max64) (hattends : ∀ step ∈ steps, step.Attends)
    (hquiet : unconsumed → ∀ step ∈ steps, step.isPass = false) :
    Served w document (c.takeSteps steps) ∨
      ¬ unconsumed ∧ (c.takeSteps steps).1 = "" ∧
      ∃ session ticket, (c.takeSteps steps).2.Waiting w document session ticket := by
  induction steps generalizing c with
  | nil =>
    cases hfetching with
    | reading session hreads hpushed => exact absurd rfl hreads.cons
    | waiting session ticket hwaits hconsumed =>
      exact .inr ⟨hconsumed, rfl, session, ticket, hwaits⟩
  | cons step later ih =>
    have hlater : ∀ other ∈ later, other.Attends :=
      fun other hmem => hattends other (List.mem_cons_of_mem _ hmem)
    rw [takeSteps_cons]
    rcases hfetching.perform hidle hlimit (hattends step List.mem_cons_self)
      (fun hun => hquiet hun step List.mem_cons_self) with ⟨hsilent, hnext⟩ | ⟨hsent, hfree, hup⟩
    · rw [hsilent, String.empty_append]
      exact ih hnext hlater fun hun other hmem => hquiet hun other (List.mem_cons_of_mem _ hmem)
    · obtain ⟨hmore, hfree', hup'⟩ := hup.idles_takeSteps hfree hlater
      exact .inl ⟨by rw [hsent, hmore, String.append_empty], hfree', hup'⟩

end ControlledServer

end MuxControl
