/-
MuxControl.Proofs.LiveDocument — clients read the document that was
pushed last.

The hand-off and the control side each hold a document. Clients push
only through sessions, and the control side publishes only in its
passes. Then both copies follow one register, `latestAfter`: the document
of the latest push that was accepted, or the one at the start.

`Session.Move` says what a session that goes on does to the hand-off; a
push, a request and an answer are its only ways. The invariant `Upholds`
ties both copies, the mark of a push and the answer that a waiting
session may find to the register: the hand-off always holds it, the
control side does unless a push is still to be taken over. It is kept by
every step, and `reads_latest_push` follows. What is sent of the document
is its wire form, which is read back as `Document.reread` says.
-/
import MuxControl.Proofs.DocumentRoundTrip
import MuxControl.Proofs.ServiceRun

namespace MuxControl

open Wire

/-! ## What a session does to the hand-off -/

namespace Session

/-- The document on the line that the session reads next, if it is one. -/
def documentLine? (s : Session) : Option Document :=
  match s.takeLine? with
  | some (.ok line, _) =>
    let text := Text.trim (line.getD "")
    if text = "" then none else (Document.parse text).toOption
  | _ => none

/-- The command that the session reads next, if it waits for one, and
the session behind its line. -/
def nextCommand? (s : Session) : Option (Command × Session) :=
  match s.stage, s.takeLine? with
  | .command, some (.ok line, rest) => some (Command.ofLine (line.getD ""), rest)
  | _, _ => none

/-- The document that the session pushes when it goes on, if any. -/
def submission? (s : Session) : Option Document :=
  match s.stage with
  | .document => s.documentLine?
  | _ =>
    match s.nextCommand? with
    | some (.setTree, rest) => rest.documentLine?
    | _ => none

/-- Whether the session has asked for the document, or does so when it
goes on. -/
def fetches (s : Session) : Bool :=
  match s.stage with
  | .answer _ => true
  | _ =>
    match s.nextCommand? with
    | some (.getTree, _) => true
    | _ => false

/-- The ticket of a session that asks for the document, and the hand-off
once it has asked. -/
inductive Asked (s : Session) (h : Handoff) : Ticket → Handoff → Prop where
  | before (ticket : Ticket) (hstage : s.stage = .answer ticket) : Asked s h ticket h
  | now (hstage : s.stage = .command) : Asked s h h.request.1 h.request.2

/-- What a session that goes on may do to the hand-off. -/
inductive Move (s : Session) (h : Handoff) (a : Advance) : Prop where
  | aside (hsubmits : s.submission? = none) (hfetches : s.fetches = false)
      (hhandoff : a.station.handoff = h)
      (hnext : ∀ next ticket, a.progress = .waiting next → next.stage ≠ .answer ticket)
  | submit (document : Document) (hsubmits : s.submission? = some document)
      (hfetches : s.fetches = false) (hhandoff : a.station.handoff = h.push document)
      (hend : ∃ result, a.progress = .finished result)
  | wait (ticket : Ticket) (h' : Handoff) (hsubmits : s.submission? = none)
      (hasked : s.Asked h ticket h') (hpending : h'.outcome? ticket = some .pending)
      (hsent : a.sent = "") (hhandoff : a.station.handoff = h')
      (hnext : ∃ next, a.progress = .waiting next ∧ next.stage = .answer ticket)
  | answered (ticket : Ticket) (h' : Handoff) (document : Document)
      (hsubmits : s.submission? = none) (hasked : s.Asked h ticket h')
      (hready : h'.outcome? ticket = some (.ready document))
      (hsent : a.sent = document.wire ∨ a.sent = "")
      (hhandoff : a.station.handoff = h'.abandon ticket)
      (hend : ∃ result, a.progress = .finished result)
  | refused (ticket : Ticket) (h' : Handoff) (hsubmits : s.submission? = none)
      (hasked : s.Asked h ticket h') (hsent : a.sent = "")
      (hhandoff : a.station.handoff = h'.abandon ticket)
      (hend : ∃ result, a.progress = .finished result)

variable {s : Session} {h : Handoff}

/-- What is pushed has been parsed. -/
theorem parsed_of_documentLine? {document : Document} (hline : s.documentLine? = some document) :
    ∃ text, Document.parse text = .ok document := by
  unfold documentLine? at hline
  split at hline
  · next line rest hread =>
    simp only at hline
    split at hline
    · cases hline
    · cases hparse : Document.parse (Text.trim (line.getD "")) with
      | error e =>
        rw [hparse] at hline
        cases hline
      | ok parsed =>
        rw [hparse] at hline
        obtain rfl : parsed = document := Option.some.inj hline
        exact ⟨_, hparse⟩
  · cases hline

theorem parsed_of_submission? {document : Document} (hsubmits : s.submission? = some document) :
    ∃ text, Document.parse text = .ok document := by
  unfold submission? at hsubmits
  split at hsubmits
  · exact parsed_of_documentLine? hsubmits
  · split at hsubmits
    · exact parsed_of_documentLine? hsubmits
    · cases hsubmits

theorem close_finished (s : Session) (answer : String) (station : Station) :
    ((s.close answer station).sent = answer ∨ (s.close answer station).sent = "") ∧
      (s.close answer station).station = station ∧
      ∃ result, (s.close answer station).progress = .finished result := by
  unfold close
  cases s.writeFault with
  | none => exact ⟨.inl rfl, rfl, _, rfl⟩
  | some reason => exact ⟨.inr rfl, rfl, _, rfl⟩

/-- Closing with an answer leaves the hand-off to what was done before. -/
theorem move_close (hsubmits : s.submission? = none) (hfetches : s.fetches = false)
    {station : Station} (hhandoff : station.handoff = h) (s' : Session) (answer : String) :
    s.Move h (s'.close answer station) := by
  obtain ⟨_, hstation, result, hend⟩ := close_finished s' answer station
  refine .aside hsubmits hfetches ?_ fun next ticket hwaiting => ?_
  · rw [hstation, hhandoff]
  · cases hend.symm.trans hwaiting

theorem move_fail (hsubmits : s.submission? = none) (hfetches : s.fetches = false)
    {station : Station} (hhandoff : station.handoff = h) (error : SessionError) :
    s.Move h (fail error station) :=
  .aside hsubmits hfetches hhandoff fun _ _ hwaiting => by cases hwaiting

theorem move_awaitAnswer (hsubmits : s.submission? = none) {ticket : Ticket} {station : Station}
    (hasked : s.Asked h ticket station.handoff) (s' : Session) :
    s.Move h (s'.awaitAnswer ticket station) := by
  unfold awaitAnswer
  cases hout : station.handoff.outcome? ticket with
  | none => exact .refused ticket _ hsubmits hasked rfl rfl ⟨_, rfl⟩
  | some outcome =>
    cases outcome with
    | pending => exact .wait ticket _ hsubmits hasked hout rfl rfl ⟨_, rfl, rfl⟩
    | ready document =>
      obtain ⟨hsent, hstation, hend⟩ :=
        close_finished s' document.wire (station.mapHandoff (·.abandon ticket))
      exact .answered ticket _ document hsubmits hasked hout hsent
        (congrArg Station.handoff hstation) hend
    | withdrawn => exact .refused ticket _ hsubmits hasked rfl rfl ⟨_, rfl⟩

theorem move_awaitDocument {s' : Session} (hsubmits : s.submission? = s'.documentLine?)
    (hfetches : s.fetches = false) {station : Station} (hhandoff : station.handoff = h) :
    s.Move h (s'.awaitDocument station) := by
  unfold documentLine? at hsubmits
  unfold awaitDocument
  cases hline : s'.takeLine? with
  | none =>
    rw [hline] at hsubmits
    refine .aside hsubmits hfetches hhandoff fun next ticket hwaiting => ?_
    obtain rfl := Progress.waiting.inj hwaiting
    exact Stage.noConfusion
  | some read =>
    obtain ⟨result, rest⟩ := read
    rw [hline] at hsubmits
    cases result with
    | error e => exact move_fail hsubmits hfetches hhandoff _
    | ok line =>
      by_cases hblank : Text.trim (line.getD "") = ""
      · simp only [hblank, if_true] at hsubmits ⊢
        exact move_close hsubmits hfetches (by exact hhandoff) rest _
      · simp only [hblank, if_false] at hsubmits ⊢
        cases hparse : Document.parse (Text.trim (line.getD "")) with
        | error e =>
          rw [hparse] at hsubmits
          exact move_fail hsubmits hfetches hhandoff _
        | ok document =>
          rw [hparse] at hsubmits
          obtain ⟨_, hstation, hend⟩ :=
            close_finished rest "" (station.mapHandoff (·.push document))
          refine .submit document hsubmits hfetches ?_ hend
          rw [hstation, ← hhandoff]
          rfl

/-- What a session does to the hand-off when it goes on. -/
theorem move_advance (s : Session) (now : Instant) (station : Station) :
    s.Move station.handoff (s.advance now station) := by
  unfold advance
  cases hstage : s.stage with
  | answer ticket =>
    have hsubmits : s.submission? = none := by simp [submission?, nextCommand?, hstage]
    exact move_awaitAnswer hsubmits (.before ticket hstage) s
  | document =>
    have hsubmits : s.submission? = s.documentLine? := by simp [submission?, hstage]
    have hfetches : s.fetches = false := by simp [fetches, nextCommand?, hstage]
    exact move_awaitDocument hsubmits hfetches rfl
  | command =>
    unfold awaitCommand
    cases hline : s.takeLine? with
    | none =>
      have hnone : s.nextCommand? = none := by simp [nextCommand?, hline]
      have hsubmits : s.submission? = none := by simp [submission?, hstage, hnone]
      have hfetches : s.fetches = false := by simp [fetches, hstage, hnone]
      refine .aside hsubmits hfetches rfl fun next ticket hwaiting => ?_
      obtain rfl := Progress.waiting.inj hwaiting
      rw [hstage]
      exact Stage.noConfusion
    | some read =>
      obtain ⟨result, rest⟩ := read
      cases result with
      | error e =>
        have hnone : s.nextCommand? = none := by simp [nextCommand?, hline]
        have hsubmits : s.submission? = none := by simp [submission?, hstage, hnone]
        have hfetches : s.fetches = false := by simp [fetches, hstage, hnone]
        exact move_fail hsubmits hfetches rfl _
      | ok line =>
        have hnext : s.nextCommand? = some (Command.ofLine (line.getD ""), rest) := by
          simp [nextCommand?, hstage, hline]
        simp only [obey]
        cases hcommand : Command.ofLine (line.getD "") with
        | setTree =>
          have hsubmits : s.submission? = rest.documentLine? := by
            simp [submission?, hstage, hnext, hcommand]
          have hfetches : s.fetches = false := by simp [fetches, hstage, hnext, hcommand]
          exact move_awaitDocument hsubmits hfetches rfl
        | getTree =>
          have hsubmits : s.submission? = none := by
            simp [submission?, hstage, hnext, hcommand]
          exact move_awaitAnswer hsubmits (.now hstage) rest
        | _ =>
          have hsubmits : s.submission? = none := by
            simp [submission?, hstage, hnext, hcommand]
          have hfetches : s.fetches = false := by simp [fetches, hstage, hnext, hcommand]
          exact move_close hsubmits hfetches (by rfl) rest _

theorem Asked.keeps {ticket : Ticket} {h' : Handoff} (hasked : s.Asked h ticket h') :
    h'.current = h.current ∧ h'.pushed = h.pushed ∧ h'.isOpen = h.isOpen := by
  cases hasked with
  | before _ _ => exact ⟨rfl, rfl, rfl⟩
  | now _ => exact ⟨Handoff.current_request h, Handoff.pushed_request h, Handoff.isOpen_request h⟩

/-- What a session makes of the document, the mark of a push and the
hand-off being open. -/
theorem Move.keeps {a : Advance} (hmove : s.Move h a) :
    a.station.handoff.current = s.submission?.getD h.current ∧
      a.station.handoff.pushed = (s.submission?.isSome || h.pushed) ∧
      a.station.handoff.isOpen = h.isOpen := by
  cases hmove with
  | aside hsubmits _ hhandoff _ =>
    rw [hsubmits, hhandoff]
    exact ⟨rfl, rfl, rfl⟩
  | submit document hsubmits _ hhandoff _ =>
    rw [hsubmits, hhandoff]
    exact ⟨Handoff.current_push h document, Handoff.pushed_push h document,
      Handoff.isOpen_push h document⟩
  | wait ticket h' hsubmits hasked _ _ hhandoff _ =>
    rw [hsubmits, hhandoff]
    exact hasked.keeps
  | answered ticket h' document hsubmits hasked _ _ hhandoff _ =>
    rw [hsubmits, hhandoff]
    exact hasked.keeps
  | refused ticket h' hsubmits hasked _ hhandoff _ =>
    rw [hsubmits, hhandoff]
    exact hasked.keeps

theorem Move.pushes {a : Advance} (hmove : s.Move h a) {document : Document}
    (hsubmits : s.submission? = some document) : a.station.handoff = h.push document := by
  cases hmove with
  | submit pushed hsame _ hhandoff _ =>
    obtain rfl := Option.some.inj (hsame.symm.trans hsubmits)
    exact hhandoff
  | aside hnone _ _ _ | wait _ _ hnone _ _ _ _ _ | answered _ _ _ hnone _ _ _ _ _
  | refused _ _ hnone _ _ _ _ => cases hnone.symm.trans hsubmits

end Session

/-! ## Runs as a register -/

namespace ControlledServer

/-- A session with what a step brings it, if it goes on in that step. -/
def Step.feed? (step : Step) (s : Session) : Option Session :=
  match step with
  | .receive _ bytes => some { s with unread := s.unread ++ bytes }
  | .endInput _ => some { s with ended := true }
  | .proceed _ => some s
  | _ => none

/-- The session that goes on in a step. -/
def going? (c : ControlledServer) (step : Step) : Option Session :=
  c.server.session?.bind step.feed?

/-- The document that a client has accepted in a step. -/
def submitted? (c : ControlledServer) (step : Step) : Option Document :=
  (c.going? step).bind Session.submission?

/-- What is sent in a step to a client that has asked for the document. -/
def fetched? (c : ControlledServer) (step : Step) : Option String :=
  if (c.going? step).any Session.fetches && (c.perform step).1 ≠ "" then
    some (c.perform step).1
  else none

/-- The document accepted last in a run, or the live one at its start. -/
def latestAfter (initial : ControlledServer) : List Step → Document
  | [] => initial.control.live
  | step :: earlier =>
    ((reached initial earlier).submitted? step).getD (latestAfter initial earlier)

/-- Both copies of the document, and every answer that a session may
find, are the given one; the control side may lack it while a push is to
be taken over. -/
structure Upholds (c : ControlledServer) (document : Document) : Prop where
  sound : c.server.Sound
  current : c.server.station.handoff.current = document
  live : c.server.station.handoff.pushed = false → c.control.live = document
  answered : ∀ session ticket found, c.server.session? = some session →
    session.stage = .answer ticket →
    c.server.station.handoff.outcome? ticket = some (.ready found) → found = document

variable {c : ControlledServer} {document : Document}

theorem upholds_fresh (settings : ServerSettings) (roster : Roster) (control : Supervisor) :
    (fresh settings roster control).Upholds control.live where
  sound := ⟨fun _ => rfl, fun _ hnone => (by cases hnone), fun _ hnone => by cases hnone⟩
  current := rfl
  live _ := rfl
  answered _ _ _ hnone := by cases hnone

/-- The operations on the loop keep the register. -/
theorem Upholds.cycles (hup : c.Upholds document) {s : Server} {v : Supervisor}
    (hcycles : c.server.Cycles s) (hlive : v.live = c.control.live) :
    Upholds ⟨s, v⟩ document where
  sound := hcycles.sound hup.sound
  current := hcycles.handoff.current.trans hup.current
  live hpushed := hlive.trans (hup.live (hcycles.handoff.pushed ▸ hpushed))
  answered session ticket found hsession hstage hready :=
    hup.answered session ticket found (hcycles.session session hsession) hstage
      (hcycles.handoff.ready hready)

/-- A new session has not asked for anything. -/
theorem Upholds.accept (hup : c.Upholds document) (writeFault : Option String) :
    Upholds { c with server := (c.server.accept writeFault).2 } document := by
  obtain hsame | ⟨w, session, counted, hw, hrunning, hstage, hworker, hhandoff, haccept⟩ :=
    c.server.accept_cases writeFault
  · rw [hsame]
    exact hup
  · have hcounted : counted.Sound := (Server.Cycles.aside hhandoff hworker).sound hup.sound
    have hgreet : (session.greet counted.station).station = counted.station := by
      unfold Session.greet
      cases session.writeFault <;> rfl
    have hsame : (counted.follow w session.connection
        (session.greet counted.station)).2.station.handoff = c.server.station.handoff := by
      rw [Server.handoff_follow, hgreet, hhandoff]
    rw [haccept]
    refine ⟨?_, ?_, fun hpushed => ?_, fun next ticket found hnext hasked _ => ?_⟩
    · exact hcounted.follow (hworker.trans hw) hrunning _ (by rw [hgreet])
    · rw [hsame]
      exact hup.current
    · rw [hsame] at hpushed
      exact hup.live hpushed
    · have hnew : next.stage = .command := by
        rw [Server.session?_follow] at hnext
        unfold Session.greet at hnext
        cases hfault : session.writeFault with
        | none =>
          rw [hfault] at hnext
          exact Option.some.inj hnext ▸ hstage
        | some reason =>
          rw [hfault] at hnext
          cases hnext
      cases hnew.symm.trans hasked

/-- A document that a session finds under the ticket it asks with is the
one of the register. -/
theorem Upholds.asked (hup : c.Upholds document) {session fed : Session}
    (hsession : c.server.session? = some session) (hstage : fed.stage = session.stage)
    {ticket : Ticket} {h : Handoff} (hasked : fed.Asked c.server.station.handoff ticket h)
    {found : Document} (hready : h.outcome? ticket = some (.ready found)) :
    found = document := by
  cases hasked with
  | before _ hbefore =>
    exact hup.answered session ticket found hsession (hstage.symm.trans hbefore) hready
  | now _ =>
    rw [Handoff.outcome?_eq_some_iff, Handoff.requests_request, Handoff.fst_request,
      if_pos rfl] at hready
    have houtcome := congrArg Request.outcome (Option.some.inj hready)
    by_cases hpushed : c.server.station.handoff.pushed = true
    · simp only [hpushed, if_true] at houtcome
      exact (Outcome.ready.inj houtcome).symm.trans hup.current
    · simp only [hpushed] at houtcome
      cases houtcome

/-- A session that goes on moves the register by what it submits, and
what it sends as an answer is the document of the register. -/
theorem Upholds.goOn (hup : c.Upholds document) {session fed : Session}
    (hsession : c.server.session? = some session) (hstage : fed.stage = session.stage)
    {step : Session → Station → Advance} (now : Instant)
    (hstep : step session c.server.station = fed.advance now c.server.station) :
    Upholds { c with server := (c.server.onSession step).2 } (fed.submission?.getD document) ∧
      (fed.fetches = true → (c.server.onSession step).1 = "" ∨
        (c.server.onSession step).1 = document.wire) ∧
      ∀ pushed, fed.submission? = some pushed →
        (c.server.onSession step).2.station.handoff = c.server.station.handoff.push pushed := by
  obtain ⟨w, hw, hserved, hfollow⟩ := Server.onSession_of_some hsession step
  have hmove := fed.move_advance now c.server.station
  obtain ⟨hcurrent, hpushed, hopen⟩ := hmove.keeps
  rw [hfollow, hstep, Server.fst_follow]
  refine ⟨⟨?_, ?_, fun hnone => ?_, fun next ticket found hnext hasked hready => ?_⟩,
    fun hfetches => ?_, fun pushed hsubmits => ?_⟩
  · exact hup.sound.follow hw (hup.sound.running hw hserved) _ hopen
  · rw [Server.handoff_follow, hcurrent, hup.current]
  · rw [Server.handoff_follow, hpushed] at hnone
    obtain ⟨hnothing, hbefore⟩ := Bool.or_eq_false_iff.mp hnone
    rw [Option.isSome_eq_false_iff, Option.isNone_iff_eq_none] at hnothing
    rw [hnothing]
    exact hup.live hbefore
  · rw [Server.session?_follow] at hnext
    rw [Server.handoff_follow] at hready
    cases hmove with
    | aside _ _ _ hwaits =>
      cases hprogress : (fed.advance now c.server.station).progress with
      | waiting s =>
        rw [hprogress] at hnext
        exact absurd hasked (Option.some.inj hnext ▸ hwaits s ticket hprogress)
      | finished result =>
        rw [hprogress] at hnext
        cases hnext
    | wait other h' _ _ hpending _ hhandoff hwaits =>
      obtain ⟨s, hprogress, hother⟩ := hwaits
      rw [hprogress] at hnext
      obtain rfl := Option.some.inj hnext
      obtain rfl := Stage.answer.inj (hother.symm.trans hasked)
      rw [hhandoff] at hready
      cases hpending.symm.trans hready
    | submit _ _ _ _ hend | answered _ _ _ _ _ _ _ _ hend | refused _ _ _ _ _ _ hend =>
      obtain ⟨result, hprogress⟩ := hend
      rw [hprogress] at hnext
      cases hnext
  · cases hmove with
    | aside _ hnot _ _ | submit _ _ hnot _ _ => cases hnot.symm.trans hfetches
    | wait _ _ _ _ _ hsent _ _ | refused _ _ _ _ hsent _ _ => exact .inl hsent
    | answered ticket h' found _ hasked hready hsent _ _ =>
      obtain rfl := hup.asked hsession hstage hasked hready
      exact hsent.symm
  · rw [Server.handoff_follow]
    exact hmove.pushes hsubmits

/-- An exchange of documents brings the control side up to the register,
and leaves nothing to be taken over or to be answered. -/
theorem Upholds.exchange {s : Server} {v : Supervisor} (hup : Upholds ⟨s, v⟩ document) :
    Upholds ⟨(v.exchange s).2, (v.exchange s).1⟩ document ∧
      (v.exchange s).1.live = document ∧
      (v.exchange s).2.station.handoff.pushed = false ∧
      (v.exchange s).2.station.handoff.isAwaited = false := by
  have hlive : (v.exchange s).1.live = document := by
    rw [Supervisor.live_exchange]
    unfold Handoff.takePushed
    cases hpushed : s.station.handoff.pushed with
    | false => exact hup.live hpushed
    | true => exact hup.current
  have hworker := v.worker_exchange s
  have hhandoff := v.handoff_exchange s
  rw [hlive] at hhandoff
  have hopen : (v.exchange s).2.station.handoff.isOpen = s.station.handoff.isOpen := by
    rw [hhandoff, Handoff.isOpen_answered, Handoff.isOpen_takePushed]
  have hsound : (v.exchange s).2.Sound := by
    refine ⟨fun hclosed => ?_, ?_, ?_⟩
    · have hnone := hup.sound.closed (hopen.symm.trans hclosed)
      rw [hhandoff, Handoff.answered_of_waiting] <;> rwa [Handoff.waiting_takePushed]
    · rw [hworker, hopen]
      exact hup.sound.looping
    · rw [hworker]
      exact hup.sound.ended
  have hcurrent : (v.exchange s).2.station.handoff.current = document := by
    rw [hhandoff]
    exact Handoff.current_answered ((Handoff.current_takePushed _).trans hup.current)
  have hpushed : (v.exchange s).2.station.handoff.pushed = false := by
    rw [hhandoff, Handoff.pushed_answered, Handoff.pushed_takePushed]
  have hidle : (v.exchange s).2.station.handoff.isAwaited = false := by
    rw [hhandoff]
    refine Handoff.isAwaited_answered (fun hawaited => ?_) document
    rw [Handoff.isOpen_takePushed]
    rw [Handoff.isAwaited_takePushed] at hawaited
    exact hup.sound.isOpen_of_isAwaited hawaited
  refine ⟨⟨hsound, hcurrent, fun _ => hlive, fun session ticket found hserved hstage hfound => ?_⟩,
    hlive, hpushed, hidle⟩
  rw [hhandoff] at hfound
  rcases Handoff.outcome?_of_answered hfound with hbefore | hsame
  · rw [Server.session?, hworker] at hserved
    rw [Handoff.outcome?_takePushed] at hbefore
    exact hup.answered session ticket found hserved hstage hbefore
  · exact hsame

/-- A pass leaves both copies at the register, and nothing to be taken
over or to be answered. -/
theorem Upholds.pass (hup : c.Upholds document) (now : Instant) (idle : Bool)
    (restart : Option Binder) :
    Upholds (c.perform (.pass now idle restart)).2 document ∧
      (c.perform (.pass now idle restart)).2.control.live = document ∧
      (c.perform (.pass now idle restart)).2.server.station.handoff.pushed = false ∧
      (c.perform (.pass now idle restart)).2.server.station.handoff.isAwaited = false := by
  have hrestart : ∀ s, Server.Cycles s (restart.elim id Server.restart s) := by
    intro s
    cases restart with
    | none => exact .refl s
    | some bind => exact Server.cycles_restart bind s
  obtain ⟨v, s, hbefore, hlive, hafter, hkept⟩ :=
    Supervisor.tick_stages now idle hrestart c.control c.server
  obtain ⟨hexchanged, hsame, hpushed, hidle⟩ := (hup.cycles hbefore hlive).exchange
  refine ⟨hexchanged.cycles hafter hkept, hkept.trans hsame, ?_, ?_⟩
  · exact hafter.handoff.pushed.trans hpushed
  · exact hafter.handoff.isAwaited hidle

/-- A step moves the register by what a client submits in it, answers with
the document of the register, and pushes what is submitted. -/
structure Follows (c : ControlledServer) (step : Step) (document : Document) : Prop where
  upholds : (c.perform step).2.Upholds ((c.submitted? step).getD document)
  fetched : ∀ text, c.fetched? step = some text → text = document.wire
  pushes : ∀ pushed, c.submitted? step = some pushed →
    (c.perform step).2.server.station.handoff = c.server.station.handoff.push pushed

/-- A step in which nothing can be submitted or fetched. -/
theorem Follows.quiet {step : Step} (hgoing : c.going? step = none)
    (hafter : (c.perform step).2.Upholds document) : c.Follows step document := by
  have hsubmitted : c.submitted? step = none := by rw [submitted?, hgoing, Option.bind_none]
  have hfetched : c.fetched? step = none := by simp [fetched?, hgoing]
  refine ⟨?_, fun text htext => ?_, fun pushed hpushed => ?_⟩
  · rw [hsubmitted]
    exact hafter
  · rw [hfetched] at htext
    cases htext
  · rw [hsubmitted] at hpushed
    cases hpushed

/-- A step in which the session goes on, if there is one. -/
theorem Upholds.going (hup : c.Upholds document) {step : Step} {feed : Session → Session}
    (hfeed : ∀ s, step.feed? s = some (feed s)) (hstage : ∀ s, (feed s).stage = s.stage)
    {now : Instant}
    (hperform : c.perform step = (c.server.onSession fun s => (feed s).advance now).map id
      fun server => { c with server := server }) : c.Follows step document := by
  cases hsession : c.server.session? with
  | none =>
    refine .quiet (by rw [going?, hsession, Option.bind_none]) ?_
    rw [hperform, Server.onSession_of_none hsession]
    exact hup
  | some session =>
    have hgoing : c.going? step = some (feed session) := by
      rw [going?, hsession, Option.bind_some, hfeed]
    have hsubmitted : c.submitted? step = (feed session).submission? := by
      rw [submitted?, hgoing, Option.bind_some]
    let goes : Session → Station → Advance := fun s => (feed s).advance now
    have hgoes : goes session c.server.station = (feed session).advance now c.server.station := rfl
    obtain ⟨hupholds, hsent, hpush⟩ := hup.goOn hsession (hstage session) now hgoes
    refine ⟨?_, fun text htext => ?_, fun pushed hpushed => ?_⟩
    · rw [hsubmitted, hperform]
      exact hupholds
    · rw [fetched?, hgoing, hperform] at htext
      obtain ⟨hcondition, hsame⟩ := Option.ite_none_right_eq_some.mp htext
      obtain ⟨hfetches, hnonempty⟩ := Bool.and_eq_true_iff.mp hcondition
      rcases hsent hfetches with hempty | hwire
      · exact absurd hempty (of_decide_eq_true hnonempty)
      · exact (Option.some.inj hsame).symm.trans hwire
    · rw [hperform]
      exact hpush pushed (hsubmitted.symm.trans hpushed)

theorem going?_of_feed? {step : Step} (hfeed : ∀ s, step.feed? s = none) :
    c.going? step = none := by
  unfold going?
  cases c.server.session? with
  | none => rfl
  | some session => exact hfeed session

/-- Every step follows the register. -/
theorem Upholds.perform (hup : c.Upholds document) (step : Step) : c.Follows step document := by
  cases step with
  | receive now bytes => exact hup.going (fun _ => rfl) (fun _ => rfl) rfl
  | endInput now => exact hup.going (fun _ => rfl) (fun _ => rfl) rfl
  | proceed now => exact hup.going (fun _ => rfl) (fun _ => rfl) rfl
  | pass now idle restart =>
    exact .quiet (going?_of_feed? fun _ => rfl) (hup.pass now idle restart).1
  | enqueue settings => exact .quiet (going?_of_feed? fun _ => rfl) (hup.cycles (.refl _) rfl)
  | configure settings =>
    exact .quiet (going?_of_feed? fun _ => rfl) (hup.cycles (.aside rfl rfl) rfl)
  | start bind =>
    exact .quiet (going?_of_feed? fun _ => rfl) (hup.cycles (Server.cycles_start bind _) rfl)
  | stop => exact .quiet (going?_of_feed? fun _ => rfl) (hup.cycles (Server.cycles_stop _) rfl)
  | restart bind =>
    exact .quiet (going?_of_feed? fun _ => rfl) (hup.cycles (Server.cycles_restart bind _) rfl)
  | endLoop =>
    exact .quiet (going?_of_feed? fun _ => rfl) (hup.cycles (Server.cycles_endLoop _) rfl)
  | accept writeFault => exact .quiet (going?_of_feed? fun _ => rfl) (hup.accept writeFault)
  | acceptFault reason =>
    exact .quiet (going?_of_feed? fun _ => rfl) (hup.cycles (.aside rfl rfl) rfl)
  | breakOff reason =>
    exact .quiet (going?_of_feed? fun _ => rfl) (hup.cycles (Server.cycles_breakOff reason _) rfl)
  | expire =>
    exact .quiet (going?_of_feed? fun _ => rfl) (hup.cycles (Server.cycles_expire _) rfl)

theorem upholds_reached (settings : ServerSettings) (roster : Roster) (control : Supervisor)
    (earlier : List Step) :
    (reached (fresh settings roster control) earlier).Upholds
      (latestAfter (fresh settings roster control) earlier) := by
  induction earlier with
  | nil => exact upholds_fresh settings roster control
  | cons step earlier ih => exact (ih.perform step).upholds

/-- The document accepted last is the live one at the start, or has been
parsed. -/
theorem latestAfter_origin (initial : ControlledServer) (run : List Step) :
    latestAfter initial run = initial.control.live ∨
      ∃ text, Document.parse text = .ok (latestAfter initial run) := by
  induction run with
  | nil => exact .inl rfl
  | cons step earlier ih =>
    cases hsubmitted : (reached initial earlier).submitted? step with
    | none =>
      have hsame : latestAfter initial (step :: earlier) = latestAfter initial earlier := by
        rw [latestAfter, hsubmitted, Option.getD_none]
      rw [hsame]
      exact ih
    | some document =>
      have hlatest : latestAfter initial (step :: earlier) = document := by
        rw [latestAfter, hsubmitted, Option.getD_some]
      obtain ⟨fed, -, hsubmits⟩ := Option.bind_eq_some_iff.mp hsubmitted
      rw [hlatest]
      exact .inr (Session.parsed_of_submission? hsubmits)

/-- **Clients read the document that was pushed last.** At any point of a
run, a client that asks for the document is sent the wire form of the one
accepted last. That is the live one at the start, or it has been parsed.
The document is read back from what is sent, but for floating point
numbers that are not reread as themselves; only one that was there at the
start has to be of the kind that parsing gives. An accepted document is
pushed, and a pass leaves both copies at the document accepted last, with
nothing to be taken over or to be answered. -/
theorem reads_latest_push (settings : ServerSettings) (roster : Roster) (control : Supervisor)
    (earlier : List Step) :
    let c := reached (fresh settings roster control) earlier
    let latest := latestAfter (fresh settings roster control) earlier
    (latest = control.live ∨ ∃ pushed, Document.parse pushed = .ok latest) ∧
      (∀ step text, c.fetched? step = some text → text = latest.wire ∧
        ((latest = control.live → Json.Proper Json.maxDepth latest.toJson) →
          Document.parse text = .ok latest.reread ∧
          (latest.reread.same latest = true ↔ ∀ x ∈ latest.floats, x.reread = x))) ∧
      (∀ step document, c.submitted? step = some document →
        (c.perform step).2.server.station.handoff = c.server.station.handoff.push document) ∧
      ∀ now idle restart,
        let after := (c.perform (.pass now idle restart)).2
        after.control.live = latest ∧ after.server.station.handoff.current = latest ∧
          after.server.station.handoff.pushed = false ∧
          after.server.station.handoff.isAwaited = false := by
  intro c latest
  have hup : c.Upholds latest := upholds_reached settings roster control earlier
  have horigin : latest = control.live ∨ ∃ pushed, Document.parse pushed = .ok latest :=
    latestAfter_origin _ earlier
  refine ⟨horigin, fun step text hfetched => ?_, fun step => (hup.perform step).pushes, ?_⟩
  · obtain rfl := (hup.perform step).fetched text hfetched
    refine ⟨rfl, fun hstart => ?_⟩
    have hproper : Json.Proper Json.maxDepth latest.toJson :=
      horigin.elim hstart fun ⟨_, hpushed⟩ => Document.proper_of_parse hpushed
    exact ⟨Document.parse_wire hproper, Document.same_reread_iff latest⟩
  · intro now idle restart after
    obtain ⟨hafter, hlive, hpushed, hidle⟩ := hup.pass now idle restart
    exact ⟨hlive, hafter.current, hpushed, hidle⟩

/-- A document is pushed, and the next client reads it back at once. -/
theorem reads_latest_push_at_once :
    let initial := fresh {} { limits := {} } { live := .empty, settings := {} }
    let earlier : List Step :=
      [.accept none, .receive 1 (encode "setptree\n\x7b\"a\":[1]\x7d\n"), .accept none,
        .start fun _ => .ok 7001]
    ∃ text document,
      (reached initial earlier).fetched? (.receive 2 (encode "getptree\n")) = some text ∧
        Document.parse text = .ok document ∧ document.compact = "\x7b\"a\":[1]\x7d" := by
  intro initial earlier
  have hfetched : (reached initial earlier).fetched? (.receive 2 (encode "getptree\n")) =
      some "\x7b\n  \"a\": [\n    1\n  ]\n\x7d\n" := by decide +kernel
  have hlatest : (latestAfter initial earlier).compact = "\x7b\"a\":[1]\x7d" := by decide +kernel
  have hreread : (latestAfter initial earlier).reread.compact = "\x7b\"a\":[1]\x7d" := by
    decide +kernel
  obtain ⟨-, hsent, -⟩ :=
    reads_latest_push {} { limits := {} } { live := .empty, settings := {} } earlier
  obtain ⟨-, hread⟩ := hsent _ _ hfetched
  have hpushed : latestAfter initial earlier ≠ .empty := by
    intro hstart
    have hempty : (latestAfter initial earlier).compact = "\x7b\x7d" :=
      congrArg Document.compact hstart
    exact absurd (hempty.symm.trans hlatest) (by decide)
  exact ⟨_, _, hfetched, (hread fun hstart => absurd hstart hpushed).1, hreread⟩

/-- A client that waits while a pass is made gets the document that was
there at the start. -/
example :
    (reached (fresh {} { limits := {} } { live := .empty, settings := {} })
      [.pass 2 true none, .receive 1 (encode "getptree\n"), .accept none,
        .start fun _ => .ok 7001]).fetched? (.proceed 3) = some "{}\n" := by
  decide +kernel

end ControlledServer

end MuxControl
