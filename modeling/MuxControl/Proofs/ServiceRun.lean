/-
MuxControl.Proofs.ServiceRun — runs of a server together with its control
side, and what starting, stopping and restarting do to the hand-off.

A step is a pass of the control side, an operation on the server's loop,
or something that the client of the session does. A restart that a pass
sets off is either over before the pass goes on, or has not begun; then
it is a step of its own.

`Server.Sound` says how the loop and the hand-off hang together: a loop
that has not ended keeps the hand-off open, and a closed hand-off has no
request that waits. `Server.Cycles` says what the operations on the loop
may do: the hand-off is opened or closed and tickets are let go of, no
session appears, and soundness is kept. It composes, so a restart is a
stop followed by a start.
-/
import MuxControl.Service.Supervisor

namespace MuxControl

/-! ## What opening, closing and letting go leave alone -/

namespace Handoff

/-- A hand-off after any number of openings, closings and tickets let go
of. -/
inductive Cycled (h : Handoff) : Handoff → Prop where
  | refl : Cycled h h
  | opened {h' : Handoff} (hcycled : Cycled h h') : Cycled h h'.opened
  | closed {h' : Handoff} (hcycled : Cycled h h') : Cycled h h'.closed
  | abandon {h' : Handoff} (hcycled : Cycled h h') (ticket : Ticket) :
      Cycled h (h'.abandon ticket)

variable {h h' h'' : Handoff}

theorem Cycled.trans (hfirst : Cycled h h') (hsecond : Cycled h' h'') : Cycled h h'' := by
  induction hsecond with
  | refl => exact hfirst
  | opened _ ih => exact ih.opened
  | closed _ ih => exact ih.closed
  | abandon _ ticket ih => exact ih.abandon ticket

theorem Cycled.current (hcycled : Cycled h h') : h'.current = h.current := by
  induction hcycled with
  | refl => rfl
  | opened _ ih => exact ih
  | closed _ ih => rw [current_closed, ih]
  | abandon _ ticket ih => exact ih

theorem Cycled.pushed (hcycled : Cycled h h') : h'.pushed = h.pushed := by
  induction hcycled with
  | refl => rfl
  | opened _ ih => exact ih
  | closed _ ih => rw [pushed_closed, ih]
  | abandon _ ticket ih => exact ih

/-- No request is answered. -/
theorem Cycled.ready (hcycled : Cycled h h') {ticket : Ticket} {document : Document}
    (hready : h'.outcome? ticket = some (.ready document)) :
    h.outcome? ticket = some (.ready document) := by
  induction hcycled with
  | refl => exact hready
  | opened _ ih => exact ih hready
  | closed _ ih =>
    rcases outcome?_of_settleWaiting hready with hbefore | hwithdrawn
    · exact ih hbefore
    · cases hwithdrawn
  | abandon _ other ih => exact ih (outcome?_of_abandon hready)

/-- No request comes to wait. -/
theorem Cycled.isAwaited (hcycled : Cycled h h') (hidle : h.isAwaited = false) :
    h'.isAwaited = false := by
  induction hcycled with
  | refl => exact hidle
  | opened _ ih => exact ih
  | closed _ _ => simp [Handoff.isAwaited]
  | @abandon h' _ other ih =>
    cases hw : h'.waiting with
    | none => simp [Handoff.isAwaited, hw]
    | some waiting =>
      have hbefore : h'.requests[waiting]?.any Request.held = false := by
        simpa [Handoff.isAwaited, hw] using ih
      have hafter := requests_abandon h' waiting other
      by_cases heq : other = waiting
      · rw [if_pos heq] at hafter
        cases hr : h'.requests[waiting]? <;> simp [Handoff.isAwaited, hw, hafter, hr]
      · rw [if_neg heq] at hafter
        simpa [Handoff.isAwaited, hw, hafter] using hbefore

/-- The hand-off once the request that waits is answered, if there is one
and somebody holds it. -/
def answered (h : Handoff) (document : Document) : Handoff :=
  if h.isAwaited then (h.publish document).2 else h

theorem current_answered {document : Document} (hsame : h.current = document) :
    (h.answered document).current = document := by
  unfold answered
  split
  · cases hopen : h.isOpen with
    | true => exact current_publish_of_open h document hopen
    | false => rw [publish_of_closed h document hopen, hsame]
  · exact hsame

theorem pushed_answered (h : Handoff) (document : Document) :
    (h.answered document).pushed = h.pushed := by
  unfold answered; split <;> simp

theorem isOpen_answered (h : Handoff) (document : Document) :
    (h.answered document).isOpen = h.isOpen := by
  unfold answered; split <;> simp

/-- A closed hand-off with no request that waits is left alone. -/
theorem answered_of_waiting (hnone : h.waiting = none) (document : Document) :
    h.answered document = h := by
  simp [answered, isAwaited, hnone]

/-- Nobody is left waiting if those who wait find the hand-off open. -/
theorem isAwaited_answered (hopen : h.isAwaited = true → h.isOpen = true)
    (document : Document) : (h.answered document).isAwaited = false := by
  unfold answered
  by_cases hawaited : h.isAwaited = true
  · rw [if_pos hawaited]
    simp [publish, hopen hawaited, fulfil, isAwaited]
  · rw [if_neg hawaited]
    exact Bool.eq_false_iff.mpr hawaited

/-- No other document answers a request. -/
theorem outcome?_of_answered {document found : Document} {ticket : Ticket}
    (hready : (h.answered document).outcome? ticket = some (.ready found)) :
    h.outcome? ticket = some (.ready found) ∨ found = document := by
  unfold answered at hready
  by_cases hawaited : h.isAwaited = true
  · rw [if_pos hawaited] at hready
    cases hopen : h.isOpen with
    | false =>
      rw [publish_of_closed h document hopen] at hready
      exact .inl hready
    | true =>
      simp only [publish, hopen, if_true] at hready
      rcases outcome?_of_settleWaiting hready with hbefore | hsettled
      · exact .inl hbefore
      · exact .inr (Outcome.ready.inj hsettled)
  · rw [if_neg hawaited] at hready
    exact .inl hready

end Handoff

/-! ## The loop and the hand-off -/

namespace Server

/-- A closed hand-off has no request that waits, a loop that has not
ended keeps it open, and one that has ended serves nobody. -/
structure Sound (s : Server) : Prop where
  closed : s.station.handoff.isOpen = false → s.station.handoff.waiting = none
  looping : ∀ w, s.worker = some w → w.finished = false → s.station.handoff.isOpen = true
  ended : ∀ w, s.worker = some w → w.finished = true → w.session = none

/-- What the operations on the loop may do. -/
structure Cycles (s s' : Server) : Prop where
  handoff : s.station.handoff.Cycled s'.station.handoff
  session : ∀ session, s'.session? = some session → s.session? = some session
  sound : s.Sound → s'.Sound

variable {s s' s'' : Server}

theorem Cycles.trans (hfirst : Cycles s s') (hsecond : Cycles s' s'') : Cycles s s'' where
  handoff := hfirst.handoff.trans hsecond.handoff
  session session hsession := hfirst.session session (hsecond.session session hsession)
  sound hsound := hsecond.sound (hfirst.sound hsound)

/-- What touches neither the hand-off nor the loop. -/
theorem Cycles.aside (hhandoff : s'.station.handoff = s.station.handoff)
    (hworker : s'.worker = s.worker) : Cycles s s' where
  handoff := hhandoff ▸ .refl
  session session hsession := by rwa [session?, hworker] at hsession
  sound hsound := by
    refine ⟨?_, ?_, ?_⟩
    · rw [hhandoff]; exact hsound.closed
    · rw [hhandoff, hworker]; exact hsound.looping
    · rw [hworker]; exact hsound.ended

theorem Cycles.refl (s : Server) : Cycles s s := .aside rfl rfl

/-- What clears the place of the loop and leaves the hand-off alone. -/
theorem Cycles.cleared (hhandoff : s'.station.handoff = s.station.handoff)
    (hworker : s'.worker = none) : Cycles s s' where
  handoff := hhandoff ▸ .refl
  session session hsession := by
    rw [session?, hworker] at hsession
    cases hsession
  sound hsound := by
    refine ⟨?_, ?_, ?_⟩
    · rw [hhandoff]; exact hsound.closed
    · rw [hworker]; exact fun _ hnone => by cases hnone
    · rw [hworker]; exact fun _ hnone => by cases hnone

theorem cycled_letGo (session : Session) (station : Station) :
    station.handoff.Cycled (session.letGo station).handoff := by
  unfold Session.letGo
  split
  · exact .abandon .refl _
  · exact .refl

/-- What a loop does last, when nothing of it is left but its place. -/
theorem cycles_exitLoop {s s' : Server} (hhandoff : s.station.handoff.Cycled s'.station.handoff)
    (hworker : ∀ w, s'.worker = some w → w.finished = true ∧ w.session = none) :
    Cycles s s'.exitLoop where
  handoff := hhandoff.closed
  session session hsession := by
    obtain ⟨w, hw, hserved⟩ := Option.bind_eq_some_iff.mp hsession
    cases (hworker w hw).2.symm.trans hserved
  sound _ := by
    refine ⟨fun _ => Handoff.waiting_closed _, fun w hw hnot => ?_, fun w hw _ => (hworker w hw).2⟩
    cases (hworker w hw).1.symm.trans hnot

theorem cycles_endLoop (s : Server) : Cycles s s.endLoop := by
  unfold endLoop
  cases hw : s.worker with
  | none => exact .refl s
  | some w =>
    by_cases hfinished : w.finished = true
    · simp only [hfinished, if_true]
      exact .refl s
    · simp only [hfinished]
      refine cycles_exitLoop ?_ fun w' hw' => ?_
      · cases w.session with
        | none => exact .refl
        | some session => exact cycled_letGo session s.station
      · obtain rfl := Option.some.inj hw'
        exact ⟨rfl, rfl⟩

theorem cycles_launch (bind : Binder) (s : Server) : Cycles s (s.launch bind).2 := by
  unfold launch
  cases bind s.settings.port with
  | error reason => exact .cleared rfl rfl
  | ok port =>
    refine ⟨.opened .refl, fun _ hnone => (by cases hnone), fun _ => ⟨fun hclosed => ?_, ?_, ?_⟩⟩
    · cases hclosed
    · exact fun _ _ _ => rfl
    · intro w hw _
      obtain rfl := Option.some.inj hw
      rfl

theorem cycles_start (bind : Binder) (s : Server) : Cycles s (s.start bind).2 := by
  have htry : Cycles s (s.tryStart bind).2 := by
    unfold tryStart
    split
    · exact .refl s
    · exact cycles_launch bind s
  unfold start
  cases hresult : s.tryStart bind with
  | mk result after =>
    rw [hresult] at htry
    cases result with
    | error e => exact htry
    | ok port => exact htry.trans (.aside rfl rfl)

theorem cycles_stop (s : Server) : Cycles s s.stop := by
  unfold stop takeWorker
  cases hw : s.worker with
  | none => exact .aside rfl hw.symm
  | some w =>
    by_cases hfinished : w.finished = true
    · simp only [finishWorker, hfinished, if_true]
      exact .cleared rfl rfl
    · simp only [finishWorker, hfinished]
      refine cycles_exitLoop ?_ fun _ hnone => by cases hnone
      cases hsession : w.session with
      | none => exact .refl
      | some session => exact cycled_letGo session s.station

theorem cycles_restart (bind : Binder) (s : Server) : Cycles s (s.restart bind) := by
  let counted := s.mapStation (·.mapMetrics Metrics.countRestart)
  let stopped := if counted.listening.isSome then counted.stop else counted
  have hstop : Cycles s stopped := by
    have hcount : Cycles s counted := .aside rfl rfl
    by_cases hlistening : counted.listening.isSome = true
    · simp only [stopped, hlistening, if_true]
      exact hcount.trans (cycles_stop counted)
    · simpa only [stopped, hlistening, Bool.false_eq_true, if_false] using hcount
  have hstart := hstop.trans (cycles_start bind stopped)
  unfold restart
  simp only
  split
  · next port after hresult =>
      have hafter : (stopped.start bind).2 = after := congrArg Prod.snd hresult
      exact hafter ▸ hstart
  · next error after hresult =>
      have hafter : (stopped.start bind).2 = after := congrArg Prod.snd hresult
      exact (hafter ▸ hstart).trans (.aside rfl rfl)

/-! ## The session of the loop -/

theorem handoff_recordEnd (station : Station) (connection : ConnectionId)
    (result : Except SessionError Unit) :
    (station.recordEnd connection result).handoff = station.handoff := by
  cases result <;> rfl

theorem handoff_follow (s : Server) (w : Worker) (connection : ConnectionId) (a : Advance) :
    (s.follow w connection a).2.station.handoff = a.station.handoff := by
  unfold follow
  cases a.progress with
  | waiting session => rfl
  | finished result => exact handoff_recordEnd a.station connection result

theorem session?_follow (s : Server) (w : Worker) (connection : ConnectionId) (a : Advance) :
    (s.follow w connection a).2.session? =
      match a.progress with
      | .waiting session => some session
      | .finished _ => none := by
  unfold follow
  cases a.progress <;> rfl

theorem fst_follow (s : Server) (w : Worker) (connection : ConnectionId) (a : Advance) :
    (s.follow w connection a).1 = a.sent := by
  unfold follow
  cases a.progress <;> rfl

theorem onSession_of_none (hnone : s.session? = none) (step : Session → Station → Advance) :
    s.onSession step = ("", s) := by
  unfold onSession
  cases hw : s.worker with
  | none => rfl
  | some w =>
    rw [session?, hw, Option.bind_some] at hnone
    simp only [hnone]

/-- The step of a session that is served, and the loop that serves it. -/
theorem onSession_of_some {session : Session} (hsession : s.session? = some session)
    (step : Session → Station → Advance) :
    ∃ w, s.worker = some w ∧ w.session = some session ∧
      s.onSession step = s.follow w session.connection (step session s.station) := by
  obtain ⟨w, hw, hserved⟩ := Option.bind_eq_some_iff.mp hsession
  refine ⟨w, hw, hserved, ?_⟩
  simp only [onSession, hw, hserved]

/-- A loop that has not ended stays sound as long as the hand-off stays
open. -/
theorem Sound.follow (hsound : s.Sound) {w : Worker} (hw : s.worker = some w)
    (hrunning : w.finished = false) (connection : ConnectionId) {a : Advance}
    (hopen : a.station.handoff.isOpen = s.station.handoff.isOpen) :
    (s.follow w connection a).2.Sound := by
  have hisOpen : (s.follow w connection a).2.station.handoff.isOpen = true := by
    rw [handoff_follow, hopen]
    exact hsound.looping w hw hrunning
  have hworker : ∀ w', (s.follow w connection a).2.worker = some w' → w'.finished = false := by
    intro w' hw'
    unfold Server.follow at hw'
    cases hprogress : a.progress <;> rw [hprogress] at hw' <;>
      exact Option.some.inj hw' ▸ hrunning
  refine ⟨fun hclosed => ?_, fun _ _ _ => hisOpen, fun w' hw' hfinished => ?_⟩
  · cases hisOpen.symm.trans hclosed
  · cases (hworker w' hw').symm.trans hfinished

theorem Sound.running (hsound : s.Sound) {w : Worker} (hw : s.worker = some w)
    {session : Session} (hsession : w.session = some session) : w.finished = false := by
  cases hfinished : w.finished with
  | false => rfl
  | true => cases (hsound.ended w hw hfinished).symm.trans hsession

/-- Somebody who waits finds the hand-off open. -/
theorem Sound.isOpen_of_isAwaited (hsound : s.Sound)
    (hawaited : s.station.handoff.isAwaited = true) : s.station.handoff.isOpen = true := by
  cases hopen : s.station.handoff.isOpen with
  | true => rfl
  | false =>
    have hnone := hsound.closed hopen
    simp [Handoff.isAwaited, hnone] at hawaited

/-- Accepting a connection changes nothing, or it greets a new session
behind a station whose counters alone have changed. -/
theorem accept_cases (s : Server) (writeFault : Option String) :
    s.accept writeFault = ("", s) ∨
      ∃ (w : Worker) (session : Session) (counted : Server),
        s.worker = some w ∧ w.finished = false ∧ session.stage = .command ∧
        counted.worker = s.worker ∧ counted.station.handoff = s.station.handoff ∧
        s.accept writeFault =
          counted.follow w session.connection (session.greet counted.station) := by
  unfold accept
  cases hw : s.worker with
  | none => exact .inl rfl
  | some w =>
    by_cases hbusy : (w.finished || w.session.isSome) = true
    · refine .inl ?_
      simp only [hbusy, if_true]
    · have hrunning : w.finished = false := by
        cases hfinished : w.finished with
        | false => rfl
        | true => simp [hfinished] at hbusy
      let session : Session :=
        { connection := s.nextConnection, settings := w.settings, writeFault := writeFault }
      let counted : Server :=
        { s.mapStation (·.mapMetrics Metrics.countConnection) with
          nextConnection := s.nextConnection + 1 }
      refine .inr ⟨w, session, counted, rfl, hrunning, rfl, hw, rfl, ?_⟩
      simp only [hbusy]
      rfl

/-- A session that ends and lets go of what it holds. -/
theorem cycles_letGo {step : Session → Station → Advance}
    (hstation : ∀ session station, (step session station).station = session.letGo station)
    (hend : ∀ session station, ∃ result, (step session station).progress = .finished result) :
    Cycles s (s.onSession step).2 := by
  cases hsession : s.session? with
  | none =>
    rw [onSession_of_none hsession]
    exact .refl s
  | some session =>
    obtain ⟨w, hw, hserved, hstep⟩ := onSession_of_some hsession step
    obtain ⟨result, hresult⟩ := hend session s.station
    rw [hstep]
    refine ⟨?_, fun next hnext => ?_, fun hsound => ?_⟩
    · rw [handoff_follow, hstation]
      exact cycled_letGo session s.station
    · rw [session?_follow, hresult] at hnext
      cases hnext
    · refine hsound.follow hw (hsound.running hw hserved) _ ?_
      rw [hstation]
      unfold Session.letGo
      split <;> rfl

theorem cycles_breakOff (reason : String) (s : Server) : Cycles s (s.breakOff reason).2 :=
  cycles_letGo (fun _ _ => rfl) fun _ _ => ⟨_, rfl⟩

theorem cycles_expire (s : Server) : Cycles s s.expire.2 :=
  cycles_letGo (fun _ _ => rfl) fun _ _ => ⟨_, rfl⟩

end Server

/-! ## Passes of the control side -/

namespace Supervisor

theorem cycles_applyQueued (v : Supervisor) (s : Server) :
    s.Cycles (v.applyQueued s).2.2 := by
  unfold applyQueued
  cases v.queue.bind List.getLast? with
  | none => exact .refl s
  | some queued =>
    have hreported : s.Cycles
        (if (v.override queued).inputs ≠ v.settings.inputs then
          s.mapStation (·.report [.thresholdsFixed]) else s) := by
      split
      · exact .aside rfl rfl
      · exact .refl s
    exact hreported.trans (.aside rfl rfl)

theorem live_applyQueued (v : Supervisor) (s : Server) :
    (v.applyQueued s).2.1.live = v.live := by
  unfold applyQueued
  cases v.queue.bind List.getLast? <;> rfl

theorem live_exchange (v : Supervisor) (s : Server) :
    (v.exchange s).1.live = s.station.handoff.takePushed.1.getD v.live := rfl

theorem worker_exchange (v : Supervisor) (s : Server) :
    (v.exchange s).2.worker = s.worker := rfl

theorem handoff_exchange (v : Supervisor) (s : Server) :
    (v.exchange s).2.station.handoff =
      s.station.handoff.takePushed.2.answered (v.exchange s).1.live := by
  show (if _ then _ else _ : Station).handoff = _
  rw [apply_ite Station.handoff]
  rfl

/-- What a pass does after the exchange of documents. -/
theorem cycles_revive (now : Instant) {restart : Server → Server}
    (hrestart : ∀ s, Server.Cycles s (restart s)) (due : Bool) (v : Supervisor) (s : Server) :
    s.Cycles (if due then
        v.makeRestart now restart (s.mapStation (·.report [.loopDown])) else (v, s)).2 ∧
      (if due then
        v.makeRestart now restart (s.mapStation (·.report [.loopDown])) else (v, s)).1.live =
        v.live := by
  cases due with
  | true =>
    have hreported : s.Cycles (s.mapStation (·.report [.loopDown])) := .aside rfl rfl
    exact ⟨hreported.trans (hrestart _), rfl⟩
  | false => exact ⟨.refl s, rfl⟩

/-- A pass is an exchange of documents between two stretches that the
operations on the loop make up. -/
theorem tick_stages (now : Instant) (idle : Bool) {restart : Server → Server}
    (hrestart : ∀ s, Server.Cycles s (restart s)) (v : Supervisor) (s : Server) :
    ∃ (v' : Supervisor) (s' : Server), s.Cycles s' ∧ v'.live = v.live ∧
      (v'.exchange s').2.Cycles (v.tick now idle restart s).2 ∧
      (v.tick now idle restart s).1.live = (v'.exchange s').1.live := by
  have hqueued := cycles_applyQueued v s
  have hlive := live_applyQueued v s
  unfold tick
  generalize v.applyQueued s = applied at hqueued hlive ⊢
  obtain ⟨portChanged, v₁, s₁⟩ := applied
  cases portChanged with
  | true =>
    exact ⟨{ v₁ with lastRestart := some now }, restart s₁, hqueued.trans (hrestart s₁), hlive,
      cycles_revive now hrestart _ _ _⟩
  | false => exact ⟨v₁, s₁, hqueued, hlive, cycles_revive now hrestart _ _ _⟩

end Supervisor

/-! ## Runs -/

/-- A server with its control side. -/
structure ControlledServer where
  server : Server
  control : Supervisor
deriving Inhabited, Repr

namespace ControlledServer

/-- A server that was never started, whose hand-off starts with the live
document of its control side. -/
def fresh (settings : ServerSettings) (roster : Roster) (control : Supervisor) :
    ControlledServer where
  server :=
    { settings := settings, station := { handoff := .start control.live, roster := roster } }
  control := control

/-- What may happen to a server with its control side. A pass is given
how the restart that it may set off binds its port, unless that restart
has not begun when the pass is over. -/
inductive Step where
  | pass (now : Instant) (idle : Bool) (restart : Option Binder)
  | enqueue (settings : Settings)
  | configure (settings : ServerSettings)
  | start (bind : Binder)
  | stop
  | restart (bind : Binder)
  | endLoop
  | accept (writeFault : Option String)
  | acceptFault (reason : String)
  | receive (now : Instant) (bytes : Wire.Bytes)
  | endInput (now : Instant)
  | proceed (now : Instant)
  | breakOff (reason : String)
  | expire

/-- Whether a step is a pass of the control side. -/
def Step.isPass : Step → Bool
  | .pass _ _ _ => true
  | _ => false

/-- What a step sends to the client, and what comes of it. -/
def perform (c : ControlledServer) : Step → String × ControlledServer
  | .pass now idle restart =>
    let (control, server) := c.control.tick now idle (restart.elim id Server.restart) c.server
    ("", ⟨server, control⟩)
  | .enqueue settings => ("", { c with control := c.control.enqueue settings })
  | .configure settings => ("", { c with server := (c.server.updateSettings settings).2 })
  | .start bind => ("", { c with server := (c.server.start bind).2 })
  | .stop => ("", { c with server := c.server.stop })
  | .restart bind => ("", { c with server := c.server.restart bind })
  | .endLoop => ("", { c with server := c.server.endLoop })
  | .accept writeFault => (c.server.accept writeFault).map id fun server => { c with server }
  | .acceptFault reason => ("", { c with server := c.server.acceptFault reason })
  | .receive now bytes => (c.server.receive now bytes).map id fun server => { c with server }
  | .endInput now => (c.server.endInput now).map id fun server => { c with server }
  | .proceed now => (c.server.proceed now).map id fun server => { c with server }
  | .breakOff reason => (c.server.breakOff reason).map id fun server => { c with server }
  | .expire => c.server.expire.map id fun server => { c with server }

/-- What comes of a run; its latest step is the first one listed. -/
def reached (initial : ControlledServer) : List Step → ControlledServer
  | [] => initial
  | step :: earlier => ((reached initial earlier).perform step).2

end ControlledServer

end MuxControl
