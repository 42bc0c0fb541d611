/-
MuxControl.Proofs.SpontaneousExit — what the server shows once its loop
has ended by itself.

Such a loop leaves its place taken until the server is stopped or started
again, so the server seems to listen while it is not running. To stop it
then clears the place, but there is no loop any more to say that it is
stopped: the phase stays `stopping`. `Aftermath` tells how much of this is
left, and `Shows` what the server shows then; a start that is tried ends
it. Each operation has one lemma, and `shows_reached` carries them along
every run, loops that end by themselves included.
-/
import MuxControl.Proofs.ServerEffects

namespace MuxControl

/-! ## What a loop that ended by itself leaves -/

/-- What is left of a loop that ended by itself: nothing, since a start was
tried; its place; or, since the server was stopped, just the phase in which
that left it. -/
inductive Aftermath where
  | settled
  | inPlace
  | clearedAway
deriving DecidableEq, Repr, Inhabited

/-- What is left when the server is stopped. -/
def Aftermath.stopped : Aftermath → Aftermath
  | .inPlace => .clearedAway
  | left => left

theorem Aftermath.stopped_eq_settled_iff {left : Aftermath} :
    left.stopped = .settled ↔ left = .settled := by
  cases left <;> simp [stopped]

namespace Server

/-- A server that shows that a loop has ended. -/
structure Over (s : Server) : Prop where
  running : s.running = false
  faulted : s.faulted = true
  isOpen : s.station.handoff.isOpen = false

/-- What a server shows that a loop has left like this. -/
def Shows (s : Server) : Aftermath → Prop
  | .settled => ∃ launched, s.Settled launched
  | .inPlace => s.Over ∧ s.phase = .stopped ∧
      ∃ w, s.worker = some w ∧ w.finished = true ∧ w.session = none
  | .clearedAway => s.Over ∧ s.phase = .stopping ∧ s.worker = none

variable {s s' : Server} {left : Aftermath}

theorem SameStatus.trans {s'' : Server} (hfirst : s.SameStatus s') (hsecond : s'.SameStatus s'') :
    s.SameStatus s'' where
  worker := hsecond.worker.trans hfirst.worker
  running := hsecond.running.trans hfirst.running
  faulted := hsecond.faulted.trans hfirst.faulted
  isOpen := hsecond.isOpen.trans hfirst.isOpen
  phase := hsecond.phase.trans hfirst.phase

theorem sameStatus_report (s : Server) (events : List Event) :
    s.SameStatus (s.mapStation (·.report events)) := ⟨rfl, rfl, rfl, rfl, rfl⟩

theorem SameStatus.over (hsame : s.SameStatus s') (hover : s.Over) : s'.Over where
  running := hsame.running.trans hover.running
  faulted := hsame.faulted.trans hover.faulted
  isOpen := hsame.isOpen.trans hover.isOpen

theorem SameStatus.shows (hsame : s.SameStatus s') (hshows : s.Shows left) : s'.Shows left := by
  cases left with
  | settled =>
    obtain ⟨launched, hsettled⟩ := hshows
    exact ⟨launched, hsame.settled hsettled⟩
  | inPlace =>
    obtain ⟨hover, hphase, hplace⟩ := hshows
    refine ⟨hsame.over hover, hsame.phase.trans hphase, ?_⟩
    rw [hsame.worker]
    exact hplace
  | clearedAway =>
    obtain ⟨hover, hphase, hempty⟩ := hshows
    exact ⟨hsame.over hover, hsame.phase.trans hphase, hsame.worker.trans hempty⟩

/-- If anything is left, the loop is over and serves nobody. -/
theorem Shows.over (hshows : s.Shows left) (hleft : left ≠ .settled) :
    s.Over ∧ s.isLooping = false ∧ s.session? = none := by
  cases left with
  | settled => exact absurd rfl hleft
  | inPlace =>
    obtain ⟨hover, _, w, hw, hfinished, hsession⟩ := hshows
    exact ⟨hover, by simp [isLooping, hw, hfinished], by simp [session?, hw, hsession]⟩
  | clearedAway =>
    obtain ⟨hover, _, hempty⟩ := hshows
    exact ⟨hover, by simp [isLooping, hempty], by simp [session?, hempty]⟩

/-- Whatever is left, the marks tell whether a loop runs. -/
theorem Shows.marks (hshows : s.Shows left) :
    s.running = s.isLooping ∧ s.station.handoff.isOpen = s.isLooping := by
  by_cases hleft : left = .settled
  · subst hleft
    obtain ⟨_, ⟨hup, _⟩ | hdown⟩ := hshows
    · obtain ⟨w, hw, hrunning⟩ := hup.looping
      simp [isLooping, hw, hrunning, hup.running, hup.isOpen]
    · simp [isLooping, hdown.worker, hdown.running, hdown.isOpen]
  · obtain ⟨hover, hnot, _⟩ := hshows.over hleft
    rw [hnot]
    exact ⟨hover.running, hover.isOpen⟩

/-- A server listens without running just if the loop has left its place. -/
theorem Shows.listening_iff (hshows : s.Shows left) :
    s.listening.isSome = true ∧ s.running = false ↔ left = .inPlace := by
  cases left with
  | settled =>
    obtain ⟨_, ⟨hup, _⟩ | hdown⟩ := hshows
    · simp [hup.running]
    · simp [listening, hdown.worker]
  | inPlace =>
    obtain ⟨hover, _, w, hw, _⟩ := hshows
    simp [listening, hw, hover.running]
  | clearedAway =>
    obtain ⟨_, _, hempty⟩ := hshows
    simp [listening, hempty]

/-- Without anything in the place of the loop, a server is stopped just if
nothing is left. -/
theorem Shows.stopped_iff (hshows : s.Shows left) (hempty : s.worker = none) :
    s.phase = .stopped ↔ left = .settled := by
  cases left with
  | settled =>
    obtain ⟨_, ⟨hup, _⟩ | hdown⟩ := hshows
    · obtain ⟨w, hw, _⟩ := hup.looping
      cases hempty.symm.trans hw
    · simp [hdown.phase]
  | inPlace =>
    obtain ⟨_, _, w, hw, _⟩ := hshows
    cases hempty.symm.trans hw
  | clearedAway => simp [hshows.2.1]

/-! ## Each operation -/

/-- A start that is tried leaves a server at rest. -/
theorem Shows.start (hshows : s.Shows left) (bind : Binder) :
    (s.start bind).2.Shows .settled := by
  by_cases hleft : left = .settled
  · subst hleft
    obtain ⟨_, hsettled⟩ := hshows
    exact ⟨_, hsettled.start bind⟩
  · obtain ⟨hover, hnot, _⟩ := hshows.over hleft
    obtain ⟨hlooping, _⟩ | ⟨_, _, _, hstart⟩ | ⟨_, _, _, hstart⟩ := s.start_cases bind
    · cases hnot.symm.trans hlooping
    · rw [hstart]
      exact ⟨true, .inr ⟨rfl, hover.running, hover.faulted, hover.isOpen, rfl⟩⟩
    · rw [hstart]
      exact ⟨true, .inl ⟨⟨⟨_, rfl, rfl⟩, rfl, rfl, rfl, .inl rfl⟩, rfl⟩⟩

theorem Shows.stop (hshows : s.Shows left) : s.stop.Shows left.stopped := by
  cases left with
  | settled =>
    obtain ⟨launched, hsettled⟩ := hshows
    exact ⟨launched, hsettled.stop⟩
  | inPlace =>
    obtain ⟨hover, _, w, hw, hfinished, _⟩ := hshows
    obtain ⟨hnone, _⟩ | ⟨_, _, _, hstop⟩ | ⟨w', hw', hnot, _⟩ := s.stop_cases
    · cases hw.symm.trans hnone
    · rw [hstop]
      exact ⟨⟨hover.running, hover.faulted, hover.isOpen⟩, rfl, rfl⟩
    · obtain rfl := Option.some.inj (hw.symm.trans hw')
      cases hfinished.symm.trans hnot
  | clearedAway =>
    have hempty := hshows.2.2
    obtain ⟨_, hstop⟩ | ⟨_, hw, _⟩ | ⟨_, hw, _⟩ := s.stop_cases
    · rw [hstop]
      exact hshows
    · cases hempty.symm.trans hw
    · cases hempty.symm.trans hw

theorem Shows.restart (hshows : s.Shows left) (bind : Binder) :
    (s.restart bind).Shows .settled := by
  have hcounted : s.SameStatus s.counted := ⟨rfl, rfl, rfl, rfl, rfl⟩
  have hstarted := (hcounted.shows hshows).stop.start bind
  rw [restart_eq]
  exact (sameStatus_report _ _).shows hstarted

theorem Shows.endLoop (hshows : s.Shows left) :
    s.endLoop.Shows (if s.isLooping then .inPlace else left) := by
  obtain ⟨hnot, hsame⟩ | ⟨w, hw, hfinished, hend⟩ := s.endLoop_cases
  · rw [hsame, hnot]
    exact hshows
  · have hlooping : s.isLooping = true := by simp [isLooping, hw, hfinished]
    rw [hend, hlooping]
    exact ⟨⟨rfl, rfl, Handoff.isOpen_closed _⟩, rfl, _, rfl, rfl, rfl⟩

/-- A loop whose runtime cannot be built shows what any loop shows that
ends by itself. -/
theorem sameStatus_failLoop (s : Server) (reason : String) :
    s.endLoop.SameStatus (s.failLoop reason) := by
  let event := Event.loopFailed (ServerError.runtimeFailed reason).message
  obtain ⟨hnot, hsame⟩ | ⟨w, hw, hfinished, hend⟩ := s.endLoop_cases
  · have hfail : s.failLoop reason = s := if_neg (Bool.eq_false_iff.mp hnot)
    rw [hsame, hfail]
    exact .refl s
  · have hlooping : s.isLooping = true := by simp [isLooping, hw, hfinished]
    have hfail : s.failLoop reason = (s.mapStation (·.report [event])).endLoop := if_pos hlooping
    obtain ⟨hnot, _⟩ | ⟨w', hw', _, hend'⟩ := (s.mapStation (·.report [event])).endLoop_cases
    · cases hnot.symm.trans hlooping
    · obtain rfl : w = w' := Option.some.inj (hw.symm.trans hw')
      rw [hfail, hend, hend']
      exact ⟨rfl, rfl, rfl, (Handoff.isOpen_closed _).trans (Handoff.isOpen_closed _).symm, rfl⟩

theorem Shows.failLoop (hshows : s.Shows left) (reason : String) :
    (s.failLoop reason).Shows (if s.isLooping then .inPlace else left) :=
  (s.sameStatus_failLoop reason).shows hshows.endLoop

/-- What is left serves nobody. -/
theorem onSession_of_over (hshows : s.Shows left) (hleft : left ≠ .settled)
    (step : Session → Station → Advance) : (s.onSession step).2 = s := by
  rw [onSession_of_none (hshows.over hleft).2.2]

theorem accept_of_over (hshows : s.Shows left) (hleft : left ≠ .settled)
    (writeFault : Option String) : (s.accept writeFault).2 = s := by
  obtain ⟨_, hnot, _⟩ := hshows.over hleft
  cases hw : s.worker with
  | none => simp [accept, hw]
  | some w =>
    have hfinished : w.finished = true := by simpa [isLooping, hw] using hnot
    simp [accept, hw, hfinished]

end Server

namespace Supervisor

variable {s : Server} {left left' : Aftermath}

theorem isSome_nextBind? (v : Supervisor) (s : Server) (now : Instant) (idle : Bool) :
    (v.nextBind? now idle s).isSome =
      ((v.applyQueued s).1 || (s.faulted && idle && v.isDue now)) := by
  have hfaulted : (v.applyQueued s).2.2.faulted = s.faulted := (sameStatus_applyQueued v s).faulted
  have hdue : (v.applyQueued s).2.1.isDue now = v.isDue now := by
    cases hqueued : v.queue.bind List.getLast? with
    | none => rw [applyQueued_of_none hqueued]
    | some queued => rw [applyQueued_of_some hqueued]; rfl
  rw [← hfaulted, ← hdue]
  unfold nextBind?
  simp only
  split <;> simp_all

/-- A pass leaves the status alone, but for the restart that it makes, if
it makes one. -/
theorem sameStatus_tick (v : Supervisor) (s : Server) (now : Instant) (idle : Bool)
    (restart : Server → Server) :
    ∃ s₁, s.SameStatus s₁ ∧
      (if (v.nextBind? now idle s).isSome then restart s₁ else s₁).SameStatus
        (v.tick now idle restart s).2 := by
  have hqueued := sameStatus_applyQueued v s
  rw [isSome_nextBind?]
  cases hchanged : (v.applyQueued s).1 with
  | true =>
    rw [tick_of_changed hchanged]
    exact ⟨_, hqueued, sameStatus_exchange _ _⟩
  | false =>
    have hexchanged := hqueued.trans (sameStatus_exchange (v.applyQueued s).2.1 _)
    rw [tick_of_same hchanged]
    by_cases hneeded : (s.faulted && idle && v.isDue now) = true
    · simp only [hneeded, Bool.or_true, if_true]
      exact ⟨_, hexchanged.trans (Server.sameStatus_report _ _), .refl _⟩
    · simp only [hneeded]
      exact ⟨_, hexchanged, .refl _⟩

/-- A pass whose restart does nothing leaves the status alone. -/
theorem sameStatus_tick_id (v : Supervisor) (s : Server) (now : Instant) (idle : Bool) :
    s.SameStatus (v.tick now idle id s).2 := by
  obtain ⟨s₁, hbefore, hafter⟩ := v.sameStatus_tick s now idle id
  rw [id, ite_self] at hafter
  exact hbefore.trans hafter

end Supervisor

/-! ## Runs -/

/-- A session neither opens the hand-off nor closes it. -/
theorem Session.isOpen_advance (session : Session) (now : Instant) (station : Station) :
    (session.advance now station).station.handoff.isOpen = station.handoff.isOpen :=
  (session.move_advance now station).keeps.2.2

namespace ControlledServer

/-- Whether a step tries a start. -/
def tries (c : ControlledServer) : Step → Bool
  | .start _ | .restart _ => true
  | .pass now idle (some _) => (c.control.nextBind? now idle c.server).isSome
  | _ => false

/-- What a step leaves of a loop that ended by itself. -/
def remaining (c : ControlledServer) (left : Aftermath) : Step → Aftermath
  | .endLoop => if c.server.isLooping then .inPlace else left
  | .stop => left.stopped
  | step => if c.tries step then .settled else left

/-- What a run leaves of a loop that ended by itself. -/
def aftermath (initial : ControlledServer) : List Step → Aftermath
  | [] => .settled
  | step :: earlier => (reached initial earlier).remaining (aftermath initial earlier) step

variable {c : ControlledServer} {left : Aftermath}

theorem shows_perform (hshows : c.server.Shows left) (step : Step) :
    (c.perform step).2.server.Shows (c.remaining left step) := by
  have haside : ∀ s, c.server.SameStatus s → s.Shows left := fun _ hsame => hsame.shows hshows
  have hsession : ∀ {step : Session → Station → Advance},
      (∀ session station,
        (step session station).station.handoff.isOpen = station.handoff.isOpen) →
      (c.server.onSession step).2.Shows left := by
    intro step hopen
    by_cases hleft : left = .settled
    · subst hleft
      obtain ⟨launched, hsettled⟩ := hshows
      exact ⟨launched, hsettled.onSession hopen⟩
    · rw [Server.onSession_of_over hshows hleft]
      exact hshows
  cases step with
  | pass now idle restart =>
    cases restart with
    | none => exact haside _ (c.control.sameStatus_tick_id c.server now idle)
    | some bind =>
      obtain ⟨s₁, hbefore, hafter⟩ :=
        c.control.sameStatus_tick c.server now idle (Server.restart bind)
      refine hafter.shows ?_
      show Server.Shows _ (if (c.control.nextBind? now idle c.server).isSome then _ else _)
      split
      · exact (hbefore.shows hshows).restart bind
      · exact hbefore.shows hshows
  | enqueue settings => exact hshows
  | configure settings => exact haside _ ⟨rfl, rfl, rfl, rfl, rfl⟩
  | start bind => exact hshows.start bind
  | stop => exact hshows.stop
  | restart bind => exact hshows.restart bind
  | endLoop => exact hshows.endLoop
  | accept writeFault =>
    by_cases hleft : left = .settled
    · subst hleft
      obtain ⟨launched, hsettled⟩ := hshows
      exact ⟨launched, hsettled.accept writeFault⟩
    · show (c.server.accept writeFault).2.Shows left
      rw [Server.accept_of_over hshows hleft]
      exact hshows
  | acceptFault reason => exact haside _ ⟨rfl, rfl, rfl, rfl, rfl⟩
  | receive | endInput | proceed => exact hsession fun _ _ => Session.isOpen_advance _ _ _
  | breakOff reason => exact hsession Server.isOpen_letGo
  | expire => exact hsession Server.isOpen_letGo

theorem shows_reached (settings : ServerSettings) (roster : Roster) (control : Supervisor)
    (run : List Step) :
    (reached (fresh settings roster control) run).server.Shows
      (aftermath (fresh settings roster control) run) := by
  induction run with
  | nil => exact ⟨false, .inr ⟨rfl, rfl, rfl, rfl, rfl⟩⟩
  | cons step earlier ih => exact shows_perform ih step

end ControlledServer

end MuxControl
