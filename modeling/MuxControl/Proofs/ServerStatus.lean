/-
MuxControl.Proofs.ServerStatus — what the server shows of itself agrees
with whether its loop runs.

The same facts stand in five places: the place of the loop, the phase,
the marks `running` and `faulted`, and the hand-off being open. A server
at rest is `Up`, with a loop and every place saying so, or it is `Down`,
without one; then it is faulted just if a start has ever succeeded.

Each operation has one lemma that says which of the two it leads to.
`settled_reached` carries them along a run in which no loop ends by
itself, and `status_agrees` reads off what the places then say of each
other.
-/
import MuxControl.Proofs.LiveDocument

namespace MuxControl

namespace Server

/-- A server whose loop runs, and which says so everywhere. -/
structure Up (s : Server) : Prop where
  looping : ∃ w, s.worker = some w ∧ w.finished = false
  running : s.running = true
  faulted : s.faulted = false
  isOpen : s.station.handoff.isOpen = true
  phase : s.phase = .accepting ∨ s.phase = .handling

/-- A server without a loop, which says so everywhere. -/
structure Down (s : Server) (launched : Bool) : Prop where
  worker : s.worker = none
  running : s.running = false
  faulted : s.faulted = launched
  isOpen : s.station.handoff.isOpen = false
  phase : s.phase = .stopped

/-- A server at rest. A loop that runs was launched. -/
def Settled (s : Server) (launched : Bool) : Prop :=
  s.Up ∧ launched = true ∨ s.Down launched

variable {s s' : Server} {launched : Bool}

/-! ## What leaves the status alone -/

/-- What a server says of itself is the same in another one. -/
structure SameStatus (s s' : Server) : Prop where
  worker : s'.worker = s.worker
  running : s'.running = s.running
  faulted : s'.faulted = s.faulted
  isOpen : s'.station.handoff.isOpen = s.station.handoff.isOpen
  phase : s'.phase = s.phase

theorem SameStatus.refl (s : Server) : SameStatus s s := ⟨rfl, rfl, rfl, rfl, rfl⟩

theorem SameStatus.up (hsame : SameStatus s s') (hup : s.Up) : s'.Up := by
  refine ⟨?_, ?_, ?_, ?_, ?_⟩
  · rw [hsame.worker]; exact hup.looping
  · rw [hsame.running, hup.running]
  · rw [hsame.faulted, hup.faulted]
  · rw [hsame.isOpen, hup.isOpen]
  · rw [hsame.phase]; exact hup.phase

theorem SameStatus.down (hsame : SameStatus s s') (hdown : s.Down launched) :
    s'.Down launched := by
  refine ⟨?_, ?_, ?_, ?_, ?_⟩
  · rw [hsame.worker, hdown.worker]
  · rw [hsame.running, hdown.running]
  · rw [hsame.faulted, hdown.faulted]
  · rw [hsame.isOpen, hdown.isOpen]
  · rw [hsame.phase, hdown.phase]

theorem SameStatus.settled (hsame : SameStatus s s') (hs : s.Settled launched) :
    s'.Settled launched := by
  rcases hs with ⟨hup, hlaunched⟩ | hdown
  · exact .inl ⟨hsame.up hup, hlaunched⟩
  · exact .inr (hsame.down hdown)

/-! ## Starting and stopping -/

/-- A server that runs refuses to start. -/
theorem start_of_up (hup : s.Up) (bind : Binder) : s.start bind = (.error .alreadyRunning, s) := by
  obtain ⟨w, hw, hrunning⟩ := hup.looping
  simp [start, tryStart, hw, hrunning]

/-- A server without a loop is up once its port is bound, and as it was if
the port cannot be bound. -/
theorem start_of_down (hdown : s.Down launched) (bind : Binder) :
    (∃ port, bind s.settings.port = .ok port ∧ (s.start bind).1 = .ok port ∧
        (s.start bind).2.Up) ∨
      ∃ reason, bind s.settings.port = .error reason ∧
        (s.start bind).1 = .error (.bindFailed reason) ∧ (s.start bind).2.Down launched := by
  have htry : s.tryStart bind = s.launch bind := by simp [tryStart, hdown.worker]
  cases hbind : bind s.settings.port with
  | ok port =>
    left
    have hstart : s.start bind = (.ok port, (s.launch bind).2.beginAccepting) := by
      simp [start, htry, launch, hbind]
    rw [hstart]
    refine ⟨port, rfl, rfl, ?_⟩
    simp only [launch, hbind]
    exact ⟨⟨_, rfl, rfl⟩, rfl, rfl, rfl, .inl rfl⟩
  | error reason =>
    right
    have hstart : s.start bind = (.error (.bindFailed reason), (s.launch bind).2) := by
      simp [start, htry, launch, hbind]
    rw [hstart]
    refine ⟨reason, rfl, rfl, ?_⟩
    simp only [launch, hbind]
    exact ⟨rfl, hdown.running, hdown.faulted, hdown.isOpen, rfl⟩

/-- A start launches a loop and shows it, or it changes nothing that is
shown, or leaves the place of the loop empty. -/
theorem tryStart_cases (s : Server) (bind : Binder) :
    (∃ port w, (s.tryStart bind).1 = .ok port ∧ (s.tryStart bind).2.worker = some w ∧
      w.finished = false ∧ (s.tryStart bind).2.running = true ∧
      (s.tryStart bind).2.faulted = false ∧
      (s.tryStart bind).2.station.handoff.isOpen = true) ∨
      ∃ e, (s.tryStart bind).1 = .error e ∧
        (s.SameStatus (s.tryStart bind).2 ∨ (s.tryStart bind).2.worker = none) := by
  unfold tryStart
  split
  · exact .inr ⟨_, rfl, .inl (.refl s)⟩
  · unfold launch
    cases bind s.settings.port with
    | error reason => exact .inr ⟨_, rfl, .inr rfl⟩
    | ok port => exact .inl ⟨port, _, rfl, rfl, rfl, rfl, rfl, rfl⟩

theorem Settled.start (hs : s.Settled launched) (bind : Binder) :
    (s.start bind).2.Settled ((s.start bind).1.isOk || launched) := by
  rcases hs with ⟨hup, hlaunched⟩ | hdown
  · rw [start_of_up hup bind, hlaunched]
    exact .inl ⟨hup, rfl⟩
  · obtain ⟨port, _, hok, hup⟩ | ⟨reason, _, herror, hstill⟩ := start_of_down hdown bind
    · rw [hok]
      exact .inl ⟨hup, rfl⟩
    · rw [herror]
      exact .inr hstill

/-- What is left of a server that was up is down, and faulted. -/
theorem down_stop (hup : s.Up) : s.stop.Down true := by
  obtain ⟨w, hw, hrunning⟩ := hup.looping
  have hstop : s.stop = ({ s with worker := none }.beginStopping).finishWorker w := by
    simp [stop, takeWorker, hw]
  rw [hstop]
  simp only [finishWorker, hrunning]
  exact ⟨rfl, rfl, rfl, Handoff.isOpen_closed _, rfl⟩

theorem stop_of_down (hdown : s.Down launched) : s.stop = s := by
  have hworker := hdown.worker
  unfold stop takeWorker
  rw [hworker]
  show { s with worker := none } = s
  rw [← hworker]

theorem Settled.stop (hs : s.Settled launched) : s.stop.Settled launched := by
  rcases hs with ⟨hup, hlaunched⟩ | hdown
  · rw [hlaunched]
    exact .inr (down_stop hup)
  · rw [stop_of_down hdown]
    exact .inr hdown

/-- The server that a restart starts. -/
def cleared (s : Server) : Server :=
  let counted := s.mapStation (·.mapMetrics Metrics.countRestart)
  if counted.listening.isSome then counted.stop else counted

/-- A restart starts a server without a loop. -/
theorem down_cleared (hs : s.Settled launched) : s.cleared.Down launched := by
  have hcount : SameStatus s (s.mapStation (·.mapMetrics Metrics.countRestart)) :=
    ⟨rfl, rfl, rfl, rfl, rfl⟩
  unfold cleared
  rcases hcount.settled hs with ⟨hup, hlaunched⟩ | hdown
  · obtain ⟨w, hw, _⟩ := hup.looping
    simp only [listening, hw, Option.map_some, Option.isSome_some, if_true, hlaunched]
    exact down_stop hup
  · simpa [listening, hdown.worker] using hdown

theorem settings_stop (s : Server) : s.stop.settings = s.settings := by
  unfold stop takeWorker
  cases s.worker with
  | none => rfl
  | some w =>
    simp only [finishWorker]
    split <;> rfl

theorem worker_stop (s : Server) : s.stop.worker = none := by
  unfold stop takeWorker
  cases hw : s.worker with
  | none => rfl
  | some w =>
    simp only [finishWorker]
    split <;> rfl

theorem worker_cleared (s : Server) : s.cleared.worker = none := by
  unfold cleared
  simp only
  split
  · exact worker_stop _
  · next hnot => simpa [listening] using hnot

theorem settings_cleared (s : Server) : s.cleared.settings = s.settings := by
  unfold cleared
  simp only
  split
  · exact settings_stop _
  · rfl

/-- After a restart the server says what it says after the start in it. -/
theorem sameStatus_restart (s : Server) (bind : Binder) :
    SameStatus (s.cleared.start bind).2 (s.restart bind) := by
  unfold restart
  simp only
  split <;> next hresult =>
    have hafter := congrArg Prod.snd hresult
    rw [show (s.cleared.start bind).2 = _ from hafter]
    exact ⟨rfl, rfl, rfl, rfl, rfl⟩

/-- Whether a restart binds its port. -/
def relaunches (s : Server) (bind : Binder) : Bool := (s.cleared.start bind).1.isOk

/-- A restart succeeds if the configured port can be bound. -/
theorem relaunches_eq (hs : s.Settled launched) (bind : Binder) :
    s.relaunches bind = (bind s.settings.port).isOk := by
  unfold relaunches
  rw [← settings_cleared s]
  obtain ⟨port, hbind, hok, _⟩ | ⟨reason, hbind, herror, _⟩ :=
    start_of_down (down_cleared hs) bind
  · rw [hbind, hok]
    rfl
  · rw [hbind, herror]
    rfl

theorem Settled.restart (hs : s.Settled launched) (bind : Binder) :
    (s.restart bind).Settled (s.relaunches bind || launched) :=
  (sameStatus_restart s bind).settled (Settled.start (.inr (down_cleared hs)) bind)

/-! ## Sessions -/

theorem Up.follow (hup : s.Up) {w : Worker} (hw : s.worker = some w) (connection : ConnectionId)
    {a : Advance} (hopen : a.station.handoff.isOpen = s.station.handoff.isOpen) :
    (s.follow w connection a).2.Up := by
  have hisOpen : (s.follow w connection a).2.station.handoff.isOpen = true := by
    rw [handoff_follow, hopen, hup.isOpen]
  obtain ⟨w', hw', hrunning⟩ := hup.looping
  obtain rfl := Option.some.inj (hw.symm.trans hw')
  revert hisOpen
  unfold Server.follow
  cases a.progress with
  | waiting session =>
    intro hisOpen
    exact ⟨⟨_, rfl, hrunning⟩, hup.running, hup.faulted, hisOpen, .inr rfl⟩
  | finished result =>
    intro hisOpen
    exact ⟨⟨_, rfl, hrunning⟩, hup.running, hup.faulted, hisOpen, .inl rfl⟩

/-- A step of the session, if there is one, keeps the server up. -/
theorem Settled.onSession (hs : s.Settled launched) {step : Session → Station → Advance}
    (hopen : ∀ session station,
      (step session station).station.handoff.isOpen = station.handoff.isOpen) :
    (s.onSession step).2.Settled launched := by
  cases hsession : s.session? with
  | none =>
    rw [onSession_of_none hsession]
    exact hs
  | some session =>
    obtain ⟨w, hw, _, hfollow⟩ := onSession_of_some hsession step
    rw [hfollow]
    rcases hs with ⟨hup, hlaunched⟩ | hdown
    · exact .inl ⟨hup.follow hw _ (hopen session s.station), hlaunched⟩
    · rw [hdown.worker] at hw
      cases hw

theorem isOpen_letGo (session : Session) (station : Station) :
    (session.letGo station).handoff.isOpen = station.handoff.isOpen := by
  unfold Session.letGo
  split <;> rfl

/-- A server that has admitted one more client. -/
def admitting (s : Server) : Server :=
  { s.mapStation (·.mapMetrics Metrics.countConnection) with
    nextConnection := s.nextConnection + 1 }

/-- Accepting a connection, if the loop is free to. -/
theorem accept_of_some {w : Worker} (hw : s.worker = some w) (writeFault : Option String) :
    s.accept writeFault =
      if w.finished || w.session.isSome then ("", s)
      else
        { s.mapStation (·.mapMetrics Metrics.countConnection) with
          nextConnection := s.nextConnection + 1 }.follow w s.nextConnection
          (Session.greet
            { connection := s.nextConnection, settings := w.settings, writeFault := writeFault }
            (s.station.mapMetrics Metrics.countConnection)) := by
  unfold accept
  rw [hw]
  rfl

theorem station_greet (session : Session) (station : Station) :
    (session.greet station).station = station := by
  unfold Session.greet
  split <;> rfl

theorem Settled.accept (hs : s.Settled launched) (writeFault : Option String) :
    (s.accept writeFault).2.Settled launched := by
  rcases hs with ⟨hup, hlaunched⟩ | hdown
  · left
    obtain ⟨w, hw, _⟩ := hup.looping
    rw [accept_of_some hw]
    split
    · exact ⟨hup, hlaunched⟩
    · have hcount : SameStatus s { s.mapStation (·.mapMetrics Metrics.countConnection) with
          nextConnection := s.nextConnection + 1 } := ⟨rfl, rfl, rfl, rfl, rfl⟩
      refine ⟨(hcount.up hup).follow hw _ ?_, hlaunched⟩
      rw [station_greet]
      rfl
  · right
    simpa [Server.accept, hdown.worker] using hdown

end Server

/-! ## Passes of the control side -/

namespace Supervisor

variable {s : Server} {launched : Bool}

theorem sameStatus_applyQueued (v : Supervisor) (s : Server) :
    s.SameStatus (v.applyQueued s).2.2 := by
  unfold applyQueued
  cases v.queue.bind List.getLast? with
  | none => exact .refl s
  | some queued =>
    simp only [Server.updateSettings]
    split <;> exact ⟨rfl, rfl, rfl, rfl, rfl⟩

theorem sameStatus_exchange (v : Supervisor) (s : Server) :
    s.SameStatus (v.exchange s).2 := by
  refine ⟨rfl, rfl, rfl, ?_, rfl⟩
  rw [handoff_exchange, Handoff.isOpen_answered, Handoff.isOpen_takePushed]

/-- A restart just made is too recent for another one. -/
theorem isDue_self (v : Supervisor) (now : Instant) :
    { v with lastRestart := some now }.isDue now = false := by
  simp [isDue, restartInterval, seconds]

/-- The port that a pass at an instant binds, if it makes a restart. -/
def nextBind? (now : Instant) (idle : Bool) (v : Supervisor) (s : Server) : Option Port :=
  let (portChanged, v, s) := v.applyQueued s
  if portChanged || (s.faulted && idle && v.isDue now) then some s.settings.port else none

/-- A pass makes at most one restart, and leaves the server at rest if the
restart does; `bound` says of a port whether the restart binds it. -/
theorem settled_tick (hs : s.Settled launched) (v : Supervisor) (now : Instant) (idle : Bool)
    {restart : Server → Server} {bound : Port → Bool}
    (hrestart : ∀ s : Server, s.Settled launched →
      (restart s).Settled (bound s.settings.port || launched)) :
    (v.tick now idle restart s).2.Settled ((v.nextBind? now idle s).any bound || launched) := by
  have hqueued := (sameStatus_applyQueued v s).settled hs
  unfold tick nextBind?
  generalize v.applyQueued s = applied at hqueued ⊢
  obtain ⟨portChanged, v₁, s₁⟩ := applied
  cases portChanged with
  | true =>
    -- The restart for the port is the only one: a second is not due yet.
    have hrestarted := hrestart s₁ hqueued
    let v₂ : Supervisor := { v₁ with lastRestart := some now }
    have hexchanged := (sameStatus_exchange v₂ (restart s₁)).settled hrestarted
    have hdue : (v₂.exchange (restart s₁)).1.isDue now = false := isDue_self v₂ now
    simpa [makeRestart, v₂, hdue] using hexchanged
  | false =>
    have hsame := sameStatus_exchange v₁ s₁
    have hexchanged := hsame.settled hqueued
    have hfaulted : (v₁.exchange s₁).2.faulted = s₁.faulted := hsame.faulted
    have hdue : (v₁.exchange s₁).1.isDue now = v₁.isDue now := rfl
    simp only [Bool.false_eq_true, if_false, hfaulted, hdue, Bool.false_or]
    by_cases hneeded : (s₁.faulted && idle && v₁.isDue now) = true
    · have hreported : Server.SameStatus (v₁.exchange s₁).2
          ((v₁.exchange s₁).2.mapStation (·.report [.loopDown])) := ⟨rfl, rfl, rfl, rfl, rfl⟩
      rw [if_pos hneeded, if_pos hneeded]
      exact hrestart _ (hreported.settled hexchanged)
    · rw [if_neg hneeded, if_neg hneeded]
      exact hexchanged

end Supervisor

/-! ## Runs -/

namespace ControlledServer

/-- Whether a start succeeds in a step: one that was asked for, or the one
in a restart. -/
def launches (c : ControlledServer) : Step → Bool
  | .start bind => (c.server.start bind).1.isOk
  | .restart bind => c.server.relaunches bind
  | .pass now idle restart =>
    (c.control.nextBind? now idle c.server).any fun port => restart.any fun bind => (bind port).isOk
  | _ => false

/-- Whether a start has ever succeeded in a run. -/
def everLaunched (initial : ControlledServer) : List Step → Bool
  | [] => false
  | step :: earlier => (reached initial earlier).launches step || everLaunched initial earlier

variable {c : ControlledServer} {launched : Bool}

/-- A step leaves a server at rest, unless the loop ends by itself in it. -/
theorem settled_perform (hs : c.server.Settled launched) {step : Step} (hstep : step ≠ .endLoop) :
    (c.perform step).2.server.Settled (c.launches step || launched) := by
  have hadvance : ∀ (feed : Session → Session) (now : Instant) (session : Session)
      (station : Station), ((feed session).advance now station).station.handoff.isOpen =
        station.handoff.isOpen :=
    fun feed now session station => ((feed session).move_advance now station).keeps.2.2
  have haside : ∀ s, c.server.SameStatus s → s.Settled launched := fun _ hsame => hsame.settled hs
  cases step with
  | pass now idle restart =>
    refine Supervisor.settled_tick hs c.control now idle fun s hs => ?_
    cases restart with
    | none => exact hs
    | some bind =>
      have hrestarted := hs.restart bind
      rw [Server.relaunches_eq hs] at hrestarted
      exact hrestarted
  | enqueue settings => exact hs
  | configure settings => exact haside _ ⟨rfl, rfl, rfl, rfl, rfl⟩
  | start bind => exact hs.start bind
  | stop => exact hs.stop
  | restart bind => exact hs.restart bind
  | endLoop => exact absurd rfl hstep
  | accept writeFault => exact hs.accept writeFault
  | acceptFault reason => exact haside _ ⟨rfl, rfl, rfl, rfl, rfl⟩
  | receive now bytes => exact hs.onSession (hadvance _ now)
  | endInput now => exact hs.onSession (hadvance _ now)
  | proceed now => exact hs.onSession (hadvance id now)
  | breakOff reason => exact hs.onSession Server.isOpen_letGo
  | expire => exact hs.onSession Server.isOpen_letGo

/-- A server at rest stays at rest in a run in which no loop ends by
itself. -/
theorem settled_reached (settings : ServerSettings) (roster : Roster) (control : Supervisor)
    {run : List Step} (hrun : .endLoop ∉ run) :
    (reached (fresh settings roster control) run).server.Settled
      (everLaunched (fresh settings roster control) run) := by
  induction run with
  | nil => exact .inr ⟨rfl, rfl, rfl, rfl, rfl⟩
  | cons step earlier ih =>
    have hstep : step ≠ .endLoop := fun heq => hrun (heq ▸ List.mem_cons_self)
    have hearlier := ih fun hmem => hrun (List.mem_cons_of_mem step hmem)
    exact settled_perform hearlier hstep

end ControlledServer

end MuxControl
