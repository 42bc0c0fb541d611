/-
MuxControl.Proofs.ServerEffects — all that the operations on the loop may
do, and all that a pass of the control side may do.

`start_cases`, `stop_cases` and `endLoop_cases` give the server after
each operation, whatever it was before; `restart_eq` puts a restart
together from them. What they leave alone (`Leaves`) is read off there.
`applyQueued_of_some` does the same for the configuration that a pass
puts in force, and `tick_of_changed` and `tick_of_same` for a whole pass:
it makes a restart for the port, or one for a fault, or none. Sessions
have to do with neither settings nor ports (`SameAddress`), so settings
change in passes alone (`perform_aside`).
-/
import MuxControl.Proofs.ServerStatus

namespace MuxControl

namespace Server

variable {s s' s'' : Server}

/-! ## The loop -/

/-- Whether a loop runs. -/
def isLooping (s : Server) : Bool := s.worker.any fun w => !w.finished

/-- The station once the session of the loop, if there is one, has let go
of it. -/
def deserted (s : Server) : Station :=
  (s.session?.map fun session => session.letGo s.station).getD s.station

/-- The server once the loop is over, but for the place of the loop. -/
def afterLoop (s : Server) : Server := { s with station := s.deserted }.exitLoop

/-- The server whose start failed. -/
def unlaunched (s : Server) (error : ServerError) : Server :=
  { s.mapStation (·.report [.startFailed error.message]) with worker := none, phase := .stopped }

/-- The server whose loop listens on a port. -/
def launched (s : Server) (port : Port) : Server :=
  { s.mapStation (·.mapHandoff Handoff.opened) with
    worker := some { port := port, settings := s.settings }
    phase := .accepting, running := true, faulted := false }

/-- A start is refused while a loop runs; otherwise it all depends on
whether the port is bound. -/
theorem start_cases (s : Server) (bind : Binder) :
    (s.isLooping = true ∧ s.start bind = (.error .alreadyRunning, s)) ∨
      (∃ reason, s.isLooping = false ∧ bind s.settings.port = .error reason ∧
        s.start bind = (.error (.bindFailed reason), s.unlaunched (.bindFailed reason))) ∨
      ∃ port, s.isLooping = false ∧ bind s.settings.port = .ok port ∧
        s.start bind = (.ok port, s.launched port) := by
  cases hlooping : s.isLooping with
  | true =>
    have htry : s.tryStart bind = (.error .alreadyRunning, s) := if_pos hlooping
    exact .inl ⟨rfl, by simp only [start, htry]⟩
  | false =>
    have htry : s.tryStart bind = s.launch bind := by
      refine if_neg ?_
      rw [← isLooping, hlooping]
      exact Bool.false_ne_true
    cases hbind : bind s.settings.port with
    | error reason =>
      refine .inr (.inl ⟨reason, rfl, rfl, ?_⟩)
      simp only [start, htry, launch, hbind]
      rfl
    | ok port =>
      refine .inr (.inr ⟨port, rfl, rfl, ?_⟩)
      simp only [start, htry, launch, hbind]
      rfl

/-- Stopping clears the place of the loop. If the loop has not ended
before, it does so now. -/
theorem stop_cases (s : Server) :
    (s.worker = none ∧ s.stop = s) ∨
      (∃ w, s.worker = some w ∧ w.finished = true ∧
        s.stop = { s with worker := none, phase := .stopping }) ∨
      ∃ w, s.worker = some w ∧ w.finished = false ∧
        s.stop = { s.afterLoop with worker := none } := by
  cases hw : s.worker with
  | none =>
    refine .inl ⟨rfl, ?_⟩
    simp only [stop, takeWorker, hw]
    rw [← hw]
  | some w =>
    cases hfinished : w.finished with
    | true =>
      refine .inr (.inl ⟨w, rfl, hfinished, ?_⟩)
      simp [stop, takeWorker, hw, finishWorker, hfinished, beginStopping]
    | false =>
      refine .inr (.inr ⟨w, rfl, hfinished, ?_⟩)
      simp [stop, takeWorker, hw, finishWorker, hfinished, beginStopping, afterLoop, deserted,
        session?, exitLoop, mapStation]

/-- A loop that ends by itself leaves its place taken. -/
theorem endLoop_cases (s : Server) :
    (s.isLooping = false ∧ s.endLoop = s) ∨
      ∃ w, s.worker = some w ∧ w.finished = false ∧
        s.endLoop = { s.afterLoop with
          worker := some { w with session := none, finished := true } } := by
  cases hw : s.worker with
  | none => exact .inl ⟨by simp [isLooping, hw], by simp [endLoop, hw]⟩
  | some w =>
    cases hfinished : w.finished with
    | true => exact .inl ⟨by simp [isLooping, hw, hfinished], by simp [endLoop, hw, hfinished]⟩
    | false =>
      refine .inr ⟨w, rfl, hfinished, ?_⟩
      simp [endLoop, hw, hfinished, afterLoop, deserted, session?, exitLoop, mapStation]

/-- The server with one more restart counted. -/
def counted (s : Server) : Server := s.mapStation (·.mapMetrics Metrics.countRestart)

theorem cleared_eq (s : Server) : s.cleared = s.counted.stop := by
  show (if s.counted.listening.isSome then s.counted.stop else s.counted) = s.counted.stop
  split
  · rfl
  · next hnot =>
      have hnone : s.counted.worker = none := by simpa [listening] using hnot
      obtain ⟨_, hsame⟩ | ⟨w, hw, _⟩ | ⟨w, hw, _⟩ := s.counted.stop_cases
      · exact hsame.symm
      · cases hnone.symm.trans hw
      · cases hnone.symm.trans hw

/-- What the log says about the start in a restart. -/
def restartEvents : Except ServerError Port → List Event
  | .ok _ => []
  | .error e => [.restartFailed e.message]

/-- A restart is counted, stops the server and starts it. -/
theorem restart_eq (s : Server) (bind : Binder) :
    s.restart bind = (s.counted.stop.start bind).2.mapStation
      (·.report (restartEvents (s.counted.stop.start bind).1)) := by
  rw [← cleared_eq]
  unfold restart
  simp only
  split
  · next port after hresult =>
      have hstart : s.cleared.start bind = (.ok port, after) := hresult
      rw [hstart]
      simp [restartEvents, mapStation, Station.report]
  · next e after hresult =>
      have hstart : s.cleared.start bind = (.error e, after) := hresult
      rw [hstart]
      rfl

/-! ## What the operations on the loop leave alone -/

/-- What the operations on the loop leave alone. -/
structure Leaves (s s' : Server) : Prop where
  settings : s'.settings = s.settings
  roster : s'.station.roster = s.station.roster
  metrics : s'.station.metrics = s.station.metrics

theorem Leaves.refl (s : Server) : s.Leaves s := ⟨rfl, rfl, rfl⟩

theorem Leaves.trans (hfirst : s.Leaves s') (hsecond : s'.Leaves s'') : s.Leaves s'' where
  settings := hsecond.settings.trans hfirst.settings
  roster := hsecond.roster.trans hfirst.roster
  metrics := hsecond.metrics.trans hfirst.metrics

theorem leaves_afterLoop (s : Server) : s.Leaves s.afterLoop := by
  have hdeserted : s.deserted.roster = s.station.roster ∧
      s.deserted.metrics = s.station.metrics := by
    unfold deserted
    cases s.session? with
    | none => exact ⟨rfl, rfl⟩
    | some session =>
      show (session.letGo s.station).roster = _ ∧ (session.letGo s.station).metrics = _
      unfold Session.letGo
      split <;> exact ⟨rfl, rfl⟩
  exact ⟨rfl, hdeserted.1, hdeserted.2⟩

theorem leaves_start (s : Server) (bind : Binder) : s.Leaves (s.start bind).2 := by
  obtain ⟨_, hstart⟩ | ⟨_, _, _, hstart⟩ | ⟨_, _, _, hstart⟩ := s.start_cases bind <;>
    rw [hstart] <;> exact ⟨rfl, rfl, rfl⟩

theorem leaves_stop (s : Server) : s.Leaves s.stop := by
  obtain ⟨_, hstop⟩ | ⟨_, _, _, hstop⟩ | ⟨_, _, _, hstop⟩ := s.stop_cases <;> rw [hstop]
  · exact .refl s
  · exact ⟨rfl, rfl, rfl⟩
  · exact ⟨rfl, s.leaves_afterLoop.roster, s.leaves_afterLoop.metrics⟩

theorem leaves_endLoop (s : Server) : s.Leaves s.endLoop := by
  obtain ⟨_, hend⟩ | ⟨_, _, _, hend⟩ := s.endLoop_cases <;> rw [hend]
  · exact .refl s
  · exact ⟨rfl, s.leaves_afterLoop.roster, s.leaves_afterLoop.metrics⟩

/-- A restart leaves alone what its parts do, once it is counted. -/
theorem leaves_restart (s : Server) (bind : Binder) : s.counted.Leaves (s.restart bind) := by
  have hleaves := (leaves_stop s.counted).trans (leaves_start s.counted.stop bind)
  rw [restart_eq]
  exact ⟨hleaves.settings, hleaves.roster, hleaves.metrics⟩

theorem restarts_restart (s : Server) (bind : Binder) :
    (s.restart bind).station.metrics.restarts = s.station.metrics.restarts + 1 := by
  rw [(s.leaves_restart bind).metrics]
  rfl

theorem settings_restart (s : Server) (bind : Binder) : (s.restart bind).settings = s.settings :=
  (s.leaves_restart bind).settings

/-! ## Sessions, the settings and the port -/

/-- The same settings are in force, and the same port is listened on. -/
structure SameAddress (s s' : Server) : Prop where
  settings : s'.settings = s.settings
  listening : s'.listening = s.listening

theorem SameAddress.refl (s : Server) : s.SameAddress s := ⟨rfl, rfl⟩

theorem sameAddress_follow {w : Worker} (hw : s.worker = some w) (connection : ConnectionId)
    (a : Advance) : s.SameAddress (s.follow w connection a).2 := by
  unfold follow
  cases a.progress <;> exact ⟨rfl, by simp [listening, hw]⟩

theorem sameAddress_onSession (s : Server) (step : Session → Station → Advance) :
    s.SameAddress (s.onSession step).2 := by
  cases hsession : s.session? with
  | none =>
    rw [onSession_of_none hsession]
    exact .refl s
  | some session =>
    obtain ⟨w, hw, _, hfollow⟩ := onSession_of_some hsession step
    rw [hfollow]
    exact sameAddress_follow hw _ _

theorem sameAddress_accept (s : Server) (writeFault : Option String) :
    s.SameAddress (s.accept writeFault).2 := by
  cases hw : s.worker with
  | none =>
    simp only [accept, hw]
    exact .refl s
  | some w =>
    rw [accept_of_some hw]
    split
    · exact .refl s
    · have hfollow := sameAddress_follow (s := { s.mapStation (·.mapMetrics Metrics.countConnection)
        with nextConnection := s.nextConnection + 1 }) hw
      exact ⟨(hfollow _ _).settings, (hfollow _ _).listening⟩

theorem sameAddress_endLoop (s : Server) : s.SameAddress s.endLoop := by
  obtain ⟨_, hend⟩ | ⟨w, hw, _, hend⟩ := s.endLoop_cases <;> rw [hend]
  · exact .refl s
  · exact ⟨rfl, by simp [listening, hw]⟩

end Server

/-! ## Passes of the control side -/

namespace Supervisor

variable {v : Supervisor} {s : Server}

theorem applyQueued_of_none (hnone : v.queue.bind List.getLast? = none) :
    v.applyQueued s = (false, v, s) := by
  simp [applyQueued, hnone]

/-- What the log says about a configuration that is put in force. -/
def settingsEvents (v : Supervisor) (settings : Settings) : List Event :=
  if settings.inputs ≠ v.settings.inputs then [.thresholdsFixed] else []

/-- The last configuration that was queued is put in force with the port
that overrides its own. -/
theorem applyQueued_of_some {queued : Settings}
    (hqueued : v.queue.bind List.getLast? = some queued) :
    v.applyQueued s =
      (decide (s.settings.port ≠ (v.override queued).server.port),
        { v with queue := some [], settings := v.override queued },
        { s.mapStation (·.report (v.settingsEvents (v.override queued))) with
          settings := (v.override queued).server }) := by
  unfold applyQueued settingsEvents
  rw [hqueued]
  by_cases hinputs : (v.override queued).inputs = v.settings.inputs
  · simp [hinputs, Server.updateSettings, Server.mapStation, Station.report]
  · simp [hinputs, Server.updateSettings, Server.mapStation]

/-- A pass that changes the port makes its restart before the documents
are exchanged; another one is not due yet. -/
theorem tick_of_changed (hchanged : (v.applyQueued s).1 = true) (now : Instant) (idle : Bool)
    (restart : Server → Server) :
    v.tick now idle restart s =
      { (v.applyQueued s).2.1 with lastRestart := some now }.exchange
        (restart (v.applyQueued s).2.2) := by
  unfold tick
  generalize v.applyQueued s = applied at hchanged ⊢
  obtain ⟨_, v₁, s₁⟩ := applied
  obtain rfl : _ = true := hchanged
  have hdue : ({ v₁ with lastRestart := some now }.exchange (restart s₁)).1.isDue now = false :=
    isDue_self v₁ now
  simp [makeRestart, hdue]

/-- A pass that does not change the port makes a restart at its end if the
loop is down, no restart is under way, and one is due. -/
theorem tick_of_same (hsame : (v.applyQueued s).1 = false) (now : Instant) (idle : Bool)
    (restart : Server → Server) :
    v.tick now idle restart s =
      (let (v', s') := (v.applyQueued s).2.1.exchange (v.applyQueued s).2.2
      if s.faulted && idle && v.isDue now then
        v'.makeRestart now restart (s'.mapStation (·.report [.loopDown]))
      else (v', s')) := by
  have hfaulted : (v.applyQueued s).2.2.faulted = s.faulted := (sameStatus_applyQueued v s).faulted
  have hdue : (v.applyQueued s).2.1.isDue now = v.isDue now := by
    cases hqueued : v.queue.bind List.getLast? with
    | none => rw [applyQueued_of_none hqueued]
    | some queued => rw [applyQueued_of_some hqueued]; rfl
  unfold tick
  generalize v.applyQueued s = applied at hsame hfaulted hdue ⊢
  obtain ⟨_, v₁, s₁⟩ := applied
  obtain rfl : _ = false := hsame
  have hfaulted' : (v₁.exchange s₁).2.faulted = s.faulted := hfaulted
  have hdue' : (v₁.exchange s₁).1.isDue now = v.isDue now := hdue
  simp only [Bool.false_eq_true, if_false, hfaulted', hdue']

theorem metrics_exchange (v : Supervisor) (s : Server) :
    (v.exchange s).2.station.metrics = s.station.metrics := by
  show (if _ then _ else _ : Station).metrics = _
  split
  · show (Station.publish _ _).2.metrics = _
    rfl
  · rfl

theorem metrics_applyQueued (v : Supervisor) (s : Server) :
    (v.applyQueued s).2.2.station.metrics = s.station.metrics := by
  cases hqueued : v.queue.bind List.getLast? with
  | none => rw [applyQueued_of_none hqueued]
  | some queued => rw [applyQueued_of_some hqueued]; rfl

/-- What a pass puts in force stays in force until its end, and nothing is
queued again. -/
theorem settings_tick (v : Supervisor) (s : Server) (now : Instant) (idle : Bool)
    {restart : Server → Server} (hrestart : ∀ s, (restart s).settings = s.settings) :
    (v.tick now idle restart s).2.settings = (v.applyQueued s).2.2.settings ∧
      (v.tick now idle restart s).1.queue = (v.applyQueued s).2.1.queue ∧
      (v.tick now idle restart s).1.portOverride = (v.applyQueued s).2.1.portOverride := by
  cases hchanged : (v.applyQueued s).1 with
  | true =>
    rw [tick_of_changed hchanged]
    exact ⟨hrestart _, rfl, rfl⟩
  | false =>
    rw [tick_of_same hchanged]
    by_cases hneeded : (s.faulted && idle && v.isDue now) = true
    · simp only [hneeded, if_true]
      exact ⟨hrestart _, rfl, rfl⟩
    · simp only [hneeded]
      exact ⟨rfl, rfl, rfl⟩

/-- A pass that does not change the port makes a restart for a fault, or
none. -/
theorem restarts_tick_of_same {v : Supervisor} {s : Server} (hsame : (v.applyQueued s).1 = false)
    (now : Instant) (idle : Bool) (bind : Binder) :
    (v.tick now idle (Server.restart bind) s).2.station.metrics.restarts =
      s.station.metrics.restarts + if s.faulted && idle && v.isDue now then 1 else 0 := by
  have hmetrics := (metrics_exchange (v.applyQueued s).2.1 (v.applyQueued s).2.2).trans
    (metrics_applyQueued v s)
  rw [tick_of_same hsame]
  by_cases hneeded : (s.faulted && idle && v.isDue now) = true
  · simp only [hneeded, if_true]
    exact (Server.restarts_restart _ bind).trans (congrArg (Metrics.restarts · + 1) hmetrics)
  · simp only [hneeded]
    exact congrArg Metrics.restarts hmetrics

end Supervisor

/-! ## Steps other than passes -/

namespace ControlledServer

/-- Whether a step queues settings, or puts them in force, from outside. -/
def Step.configures : Step → Bool
  | .enqueue _ | .configure _ => true
  | _ => false

/-- Passes alone change what the control side has and which settings are in
force, unless these come from outside. -/
theorem perform_aside (c : ControlledServer) {step : Step} (hpass : step.isPass = false)
    (hown : step.configures = false) :
    (c.perform step).2.control = c.control ∧
      (c.perform step).2.server.settings = c.server.settings := by
  cases step with
  | pass => cases hpass
  | enqueue | configure => cases hown
  | start bind => exact ⟨rfl, (c.server.leaves_start bind).settings⟩
  | stop => exact ⟨rfl, c.server.leaves_stop.settings⟩
  | restart bind => exact ⟨rfl, c.server.settings_restart bind⟩
  | endLoop => exact ⟨rfl, c.server.leaves_endLoop.settings⟩
  | accept writeFault => exact ⟨rfl, (c.server.sameAddress_accept writeFault).settings⟩
  | acceptFault reason => exact ⟨rfl, rfl⟩
  | receive | endInput | proceed | breakOff | expire =>
    exact ⟨rfl, (c.server.sameAddress_onSession _).settings⟩

end ControlledServer

end MuxControl
