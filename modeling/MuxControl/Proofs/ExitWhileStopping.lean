/-
MuxControl.Proofs.ExitWhileStopping — a server that is stopped while its
loop ends.

A call that stops the server takes the loop out of its place, says that
the server is stopping, tells the loop, and waits for it. The loop may
have ended by itself before, or do so in between; it sets its last marks
one by one. `Stopping` has the acts of both in any order, and those of
clients and of the control side with them. `stop_alone` and
`endLoop_alone` say that together these acts are `Server.stop` and
`Server.endLoop`.

The marks are known from how far the loop has come, and so is the phase
that is shown once the call is done (`Inv`): the loop says last that it is
stopped, unless it had said so before the call said that it is stopping.
`exits_shown` puts this together with what a loop that ended before the
call leaves behind.
-/
import Mathlib.Tactic.ByContra
import MuxControl.Proofs.SpontaneousExit

namespace MuxControl

/-! ## The acts -/

/-- How far a call that stops the server has come: about to take the loop
out of its place, to say that the server is stopping, to tell the loop to
stop; waiting for it to end; done. -/
inductive StopStage where
  | taking
  | saying
  | telling
  | joining
  | done
deriving DecidableEq, Repr, Inhabited

/-- How far a loop has come in ending: at work; about to close the hand-off,
to take the mark `running` away, to set the mark `faulted`, to say that it
is stopped, to go; gone. -/
inductive ExitStage where
  | working
  | closing
  | clearing
  | marking
  | resting
  | going
  | gone
deriving DecidableEq, Repr, Inhabited

namespace ExitStage

/-- What comes next. -/
def next : ExitStage → ExitStage
  | .working => .closing
  | .closing => .clearing
  | .clearing => .marking
  | .marking => .resting
  | .resting => .going
  | .going | .gone => .gone

/-- What the loop does to get there. It lets go of its session first. -/
def act : ExitStage → Server → Server
  | .working, s =>
    { s with station := s.deserted, worker := s.worker.map fun w => { w with session := none } }
  | .closing, s => s.mapStation (·.mapHandoff Handoff.closed)
  | .clearing, s => { s with running := false }
  | .marking, s => { s with faulted := true }
  | .resting, s => { s with phase := .stopped }
  | .going, s => { s with worker := s.worker.map fun w => { w with finished := true } }
  | .gone, s => s

/-- Whether the loop still shows that it is running. -/
def running : ExitStage → Bool
  | .working | .closing | .clearing => true
  | _ => false

/-- Whether the loop still has the hand-off open. -/
def isOpen : ExitStage → Bool
  | .working | .closing => true
  | _ => false

/-- Whether the loop has said that it is stopped. -/
def isShown : ExitStage → Bool
  | .going | .gone => true
  | _ => false

end ExitStage

namespace ControlledServer

/-- Whether a step is one of the loop at work. -/
def Step.isServing : Step → Bool
  | .accept _ | .acceptFault _ | .receive _ _ | .endInput _ | .proceed _ | .breakOff _
  | .expire => true
  | _ => false

/-- Whether a step neither starts nor stops a loop, nor is the end of one. -/
def Step.isQuiet : Step → Bool
  | .start _ | .stop | .restart _ | .endLoop | .pass _ _ (some _) => false
  | _ => true

end ControlledServer

/-- A server with its control side, a call that stops it, and its loop. The
loop keeps what it is until the call has joined it; once it is out of its
place, it alone sees it. -/
structure Stopping where
  owner : ControlledServer
  call : StopStage
  exit : ExitStage

/-- What the call does, what the loop does as it ends, that it begins to
accept, that it says it is stopping as it was told to; and other steps. -/
inductive StopAct where
  | call
  | exit
  | begin
  | leave
  | aside (step : ControlledServer.Step)

namespace Stopping

/-- A call that has just been made. -/
def initial (c : ControlledServer) : Stopping :=
  ⟨c, .taking, if c.server.isLooping then .working else .gone⟩

/-- Change the server. -/
def mapServer (c : Stopping) (f : Server → Server) : Stopping :=
  { c with owner := { c.owner with server := f c.owner.server } }

/-- The port that the server seems to listen on. -/
def listening (c : Stopping) : Option Port :=
  match c.call with
  | .taking => c.owner.server.listening
  | _ => none

/-- The call goes on. Without a loop there is nothing to do. -/
def goOn (c : Stopping) : Stopping :=
  match c.call with
  | .taking => { c with call := if c.owner.server.worker.isSome then .saying else .done }
  | .saying => { c.mapServer Server.beginStopping with call := .telling }
  | .telling => { c with call := .joining }
  | .joining =>
    if c.exit = .gone then { c.mapServer fun s => { s with worker := none } with call := .done }
    else c
  | .done => c

/-- An act happens, if it is possible. -/
def perform (c : Stopping) : StopAct → Stopping
  | .call => c.goOn
  | .exit => { c.mapServer c.exit.act with exit := c.exit.next }
  | .begin => if c.exit = .working then c.mapServer Server.beginAccepting else c
  | .leave =>
    if c.exit = .closing ∧ c.call = .joining then c.mapServer Server.beginStopping else c
  | .aside step =>
    if step.isQuiet = true ∧ (step.isServing = true → c.exit = .working) then
      { c with owner := (c.owner.perform step).2 }
    else c

/-- What comes of acts; the latest one is the first one listed. -/
def reached (initial : Stopping) : List StopAct → Stopping
  | [] => initial
  | act :: earlier => (reached initial earlier).perform act

/-- Whether an act says that the server is stopping after the loop has said
that it is stopped. -/
def saysLate (c : Stopping) : StopAct → Bool
  | .call => decide (c.call = .saying) && c.exit.isShown
  | _ => false

/-- Whether any of the acts did. -/
def saidLate (initial : Stopping) : List StopAct → Bool
  | [] => false
  | act :: earlier => (reached initial earlier).saysLate act || saidLate initial earlier

/-! ## The call and the loop alone -/

/-- The acts by which a loop ends. -/
def ending : List StopAct := List.replicate 6 .exit

/-- A loop that ends with nobody in between does what a loop does that ends
by itself. -/
theorem endLoop_alone (c : ControlledServer) :
    (reached (initial c) ending).owner = { c with server := c.server.endLoop } := by
  obtain ⟨hnot, hsame⟩ | ⟨w, hw, hfinished, hend⟩ := c.server.endLoop_cases
  · rw [hsame]
    simp [ending, initial, hnot, reached, perform, mapServer, ExitStage.act, ExitStage.next]
  · have hlooping : c.server.isLooping = true := by simp [Server.isLooping, hw, hfinished]
    rw [hend]
    simp [ending, initial, hlooping, reached, perform, mapServer, ExitStage.act, ExitStage.next,
      hw, Server.afterLoop, Server.exitLoop, Server.mapStation]

/-- The acts of a call that stops the server, and of the loop that it tells
to stop; the latest one first. -/
def alone : List StopAct :=
  .call :: List.replicate 5 .exit ++ [.leave, .exit, .call, .call, .call]

/-- A call that nobody disturbs is done in the end, and stops the server. -/
theorem stop_alone (c : ControlledServer) :
    (reached (initial c) alone).call = .done ∧
      (reached (initial c) alone).owner = { c with server := c.server.stop } := by
  obtain ⟨hnone, hstop⟩ | ⟨w, hw, hfinished, hstop⟩ | ⟨w, hw, hfinished, hstop⟩ :=
    c.server.stop_cases
  · have hnot : c.server.isLooping = false := by simp [Server.isLooping, hnone]
    rw [hstop]
    simp [alone, initial, hnot, hnone, reached, perform, goOn, mapServer, ExitStage.act,
      ExitStage.next]
  · have hnot : c.server.isLooping = false := by simp [Server.isLooping, hw, hfinished]
    rw [hstop]
    simp [alone, initial, hnot, hw, reached, perform, goOn, mapServer, ExitStage.act,
      ExitStage.next, Server.beginStopping]
  · have hlooping : c.server.isLooping = true := by simp [Server.isLooping, hw, hfinished]
    rw [hstop]
    simp [alone, initial, hlooping, hw, reached, perform, goOn, mapServer, ExitStage.act,
      ExitStage.next, Server.beginStopping, Server.afterLoop, Server.exitLoop, Server.mapStation,
      Server.deserted, Server.session?]

/-! ## What every act keeps -/

theorem vacant_act (exit : ExitStage) (s : Server) :
    (exit.act s).worker = none ↔ s.worker = none := by
  cases exit <;> simp [ExitStage.act, Server.mapStation]

theorem isOpen_deserted (s : Server) :
    s.deserted.handoff.isOpen = s.station.handoff.isOpen := by
  unfold Server.deserted
  cases s.session? with
  | none => rfl
  | some session => exact Server.isOpen_letGo session s.station

/-- The marks follow the loop as it ends. -/
theorem marks_act {exit : ExitStage} {s : Server} (hrunning : s.running = exit.running)
    (hisOpen : s.station.handoff.isOpen = exit.isOpen) :
    (exit.act s).running = exit.next.running ∧
      (exit.act s).station.handoff.isOpen = exit.next.isOpen := by
  cases exit with
  | working => exact ⟨hrunning, (isOpen_deserted s).trans hisOpen⟩
  | closing => exact ⟨hrunning, Handoff.isOpen_closed _⟩
  | clearing => exact ⟨rfl, hisOpen⟩
  | marking | resting | going | gone => exact ⟨hrunning, hisOpen⟩

/-- What a server shows of its loop is the same in another one, but for the
phase. -/
structure SameMarks (s s' : Server) : Prop where
  vacant : s'.worker = none ↔ s.worker = none
  running : s'.running = s.running
  isOpen : s'.station.handoff.isOpen = s.station.handoff.isOpen

theorem sameMarks_of_sameStatus {s s' : Server} (hsame : s.SameStatus s') : SameMarks s s' :=
  ⟨by rw [hsame.worker], hsame.running, hsame.isOpen⟩

theorem sameMarks_follow {s : Server} {w : Worker} (hw : s.worker = some w)
    (connection : ConnectionId) {a : Advance}
    (hopen : a.station.handoff.isOpen = s.station.handoff.isOpen) :
    SameMarks s (s.follow w connection a).2 := by
  have hisOpen : (s.follow w connection a).2.station.handoff.isOpen =
      s.station.handoff.isOpen := by
    rw [Server.handoff_follow, hopen]
  revert hisOpen
  unfold Server.follow
  cases a.progress <;> exact fun hisOpen => ⟨by simp [hw], rfl, hisOpen⟩

theorem sameMarks_onSession (s : Server) {step : Session → Station → Advance}
    (hopen : ∀ session station,
      (step session station).station.handoff.isOpen = station.handoff.isOpen) :
    SameMarks s (s.onSession step).2 := by
  cases hsession : s.session? with
  | none =>
    rw [Server.onSession_of_none hsession]
    exact sameMarks_of_sameStatus (.refl s)
  | some session =>
    obtain ⟨w, hw, _, hfollow⟩ := Server.onSession_of_some hsession step
    rw [hfollow]
    exact sameMarks_follow hw _ (hopen session s.station)

theorem sameMarks_accept (s : Server) (writeFault : Option String) :
    SameMarks s (s.accept writeFault).2 := by
  cases hw : s.worker with
  | none =>
    simp only [Server.accept, hw]
    exact sameMarks_of_sameStatus (.refl s)
  | some w =>
    rw [Server.accept_of_some hw]
    split
    · exact sameMarks_of_sameStatus (.refl s)
    · have hcount : SameMarks s { s.mapStation (·.mapMetrics Metrics.countConnection) with
          nextConnection := s.nextConnection + 1 } := ⟨.rfl, rfl, rfl⟩
      have hfollow := sameMarks_follow (s := { s.mapStation (·.mapMetrics Metrics.countConnection)
        with nextConnection := s.nextConnection + 1 }) hw s.nextConnection
        (a := Session.greet
          { connection := s.nextConnection, settings := w.settings, writeFault := writeFault }
          (s.station.mapMetrics Metrics.countConnection))
        (by rw [Server.station_greet]; rfl)
      exact ⟨hfollow.vacant.trans hcount.vacant, hfollow.running, hfollow.isOpen⟩

/-- Steps that neither start nor stop a loop leave its marks alone. -/
theorem sameMarks_perform (c : ControlledServer) {step : ControlledServer.Step}
    (hquiet : step.isQuiet = true) : SameMarks c.server (c.perform step).2.server := by
  cases step with
  | pass now idle restart =>
    cases restart with
    | none => exact sameMarks_of_sameStatus (c.control.sameStatus_tick_id c.server now idle)
    | some bind => cases hquiet
  | enqueue settings => exact sameMarks_of_sameStatus (.refl _)
  | configure | acceptFault => exact ⟨.rfl, rfl, rfl⟩
  | start | stop | restart | endLoop => cases hquiet
  | accept writeFault => exact sameMarks_accept c.server writeFault
  | receive | endInput | proceed =>
    exact sameMarks_onSession c.server fun _ _ => Session.isOpen_advance _ _ _
  | breakOff | expire => exact sameMarks_onSession c.server Server.isOpen_letGo

/-- The loop alone changes the phase in such steps. -/
theorem phase_perform (c : ControlledServer) {step : ControlledServer.Step}
    (hquiet : step.isQuiet = true) (hserving : step.isServing = false) :
    (c.perform step).2.server.phase = c.server.phase := by
  cases step with
  | pass now idle restart =>
    cases restart with
    | none => exact (c.control.sameStatus_tick_id c.server now idle).phase
    | some bind => cases hquiet
  | enqueue | configure => rfl
  | start | stop | restart | endLoop => cases hquiet
  | accept | acceptFault | receive | endInput | proceed | breakOff | expire => cases hserving

/-- What holds between the acts. The marks are known from how far the loop
has come. Nothing late has been said before the loop has said that it is
stopped; since then, the phase tells whether it has. -/
structure Inv (c : Stopping) (late : Bool) : Prop where
  vacant : c.owner.server.worker = none → c.exit = .gone
  running : c.owner.server.running = c.exit.running
  isOpen : c.owner.server.station.handoff.isOpen = c.exit.isOpen
  early : c.exit.isShown = false → late = false
  phase : c.exit.isShown = true → (c.owner.server.phase = .stopped ↔ late = false)
  done : c.call = .done → c.owner.server.worker = none

variable {c : Stopping} {late : Bool}

theorem inv_initial {c : ControlledServer} {left : Aftermath} (hshows : c.server.Shows left) :
    (initial c).Inv (decide (left = .clearedAway)) := by
  obtain ⟨hrunning, hisOpen⟩ := hshows.marks
  cases hlooping : c.server.isLooping with
  | true =>
    have hexit : (initial c).exit = .working := if_pos hlooping
    have hleft : left = .settled := by
      by_contra hleft
      cases (hshows.over hleft).2.1.symm.trans hlooping
    refine ⟨fun hnone => ?_, ?_, ?_, fun _ => ?_, fun hshown => ?_, fun hdone => ?_⟩
    · have hnot : c.server.isLooping = false := by
        rw [Server.isLooping, show c.server.worker = none from hnone]; rfl
      cases hnot.symm.trans hlooping
    · rw [hexit]; exact hrunning.trans hlooping
    · rw [hexit]; exact hisOpen.trans hlooping
    · rw [hleft]; rfl
    · rw [hexit] at hshown; cases hshown
    · cases hdone
  | false =>
    have hexit : (initial c).exit = .gone := if_neg (by rw [hlooping]; exact Bool.false_ne_true)
    refine ⟨fun _ => hexit, ?_, ?_, fun hshown => ?_, fun _ => ?_, fun hdone => ?_⟩
    · rw [hexit]; exact hrunning.trans hlooping
    · rw [hexit]; exact hisOpen.trans hlooping
    · rw [hexit] at hshown; cases hshown
    · show c.server.phase = .stopped ↔ _
      cases left with
      | settled =>
        obtain ⟨_, ⟨hup, _⟩ | hdown⟩ := hshows
        · cases hup.running.symm.trans (hrunning.trans hlooping)
        · simp [hdown.phase]
      | inPlace => simp [hshows.2.1]
      | clearedAway => simp [hshows.2.1]
    · cases hdone

theorem Inv.goOn (hinv : c.Inv late) : c.goOn.Inv (c.saysLate .call || late) := by
  unfold Stopping.goOn saysLate
  cases hcall : c.call with
  | taking =>
    refine ⟨hinv.vacant, hinv.running, hinv.isOpen, hinv.early, hinv.phase, fun hdone => ?_⟩
    rcases hw : c.owner.server.worker with _ | w
    · rfl
    · simp [hw] at hdone
  | saying =>
    refine ⟨hinv.vacant, hinv.running, hinv.isOpen, fun hshown => ?_, fun hshown => ?_,
      fun hdone => ?_⟩
    · have hnot : c.exit.isShown = false := hshown
      simp [hnot, hinv.early hnot]
    · have hlate : c.exit.isShown = true := hshown
      simp [hlate, mapServer, Server.beginStopping]
    · cases hdone
  | telling =>
    refine ⟨hinv.vacant, hinv.running, hinv.isOpen, hinv.early, hinv.phase, fun hdone => ?_⟩
    cases hdone
  | joining =>
    simp only
    split
    · next hover =>
      exact ⟨fun _ => hover, hinv.running, hinv.isOpen, hinv.early, hinv.phase, fun _ => rfl⟩
    · exact hinv
  | done => exact hinv

theorem Inv.exit (hinv : c.Inv late) : (c.perform .exit).Inv late := by
  have hmarks := marks_act hinv.running hinv.isOpen
  refine ⟨fun hnone => ?_, hmarks.1, hmarks.2, fun hshown => ?_, fun hshown => ?_, fun hdone => ?_⟩
  · show c.exit.next = .gone
    rw [hinv.vacant ((vacant_act c.exit _).mp hnone)]
    rfl
  · have hnot : c.exit.next.isShown = false := hshown
    refine hinv.early ?_
    cases hexit : c.exit <;> rw [hexit] at hnot <;> first | rfl | cases hnot
  · have hnext : c.exit.next.isShown = true := hshown
    have hphase := hinv.phase
    have hearly := hinv.early
    show (c.exit.act c.owner.server).phase = .stopped ↔ _
    cases hexit : c.exit <;> rw [hexit] at hnext hphase hearly
    -- Only from these stages does the loop come to where it has said that it is stopped.
    case resting => exact iff_of_true rfl (hearly rfl)
    case going | gone => exact hphase rfl
    all_goals cases hnext
  · exact (vacant_act c.exit _).mpr (hinv.done hdone)

/-- What the loop says before it has said that it is stopped does not
matter. -/
theorem Inv.speak (hinv : c.Inv late) (hnot : c.exit.isShown = false) (phase : Phase) :
    (c.mapServer fun s => { s with phase := phase }).Inv late := by
  refine ⟨hinv.vacant, hinv.running, hinv.isOpen, hinv.early, fun hshown => ?_, hinv.done⟩
  cases hnot.symm.trans hshown

theorem Inv.aside (hinv : c.Inv late) {step : ControlledServer.Step} (hquiet : step.isQuiet = true)
    (hserving : step.isServing = true → c.exit = .working) :
    Inv { c with owner := (c.owner.perform step).2 } late := by
  have hmarks := sameMarks_perform c.owner hquiet
  refine ⟨fun hnone => hinv.vacant (hmarks.vacant.mp hnone), hmarks.running.trans hinv.running,
    hmarks.isOpen.trans hinv.isOpen, hinv.early, fun hshown => ?_,
    fun hdone => hmarks.vacant.mpr (hinv.done hdone)⟩
  have hidle : step.isServing = false := by
    refine Bool.eq_false_iff.mpr fun htrue => ?_
    have hshown' : c.exit.isShown = true := hshown
    rw [hserving htrue] at hshown'
    cases hshown'
  show (c.owner.perform step).2.server.phase = .stopped ↔ _
  rw [phase_perform c.owner hquiet hidle]
  exact hinv.phase hshown

theorem Inv.perform (hinv : c.Inv late) (act : StopAct) :
    (c.perform act).Inv (c.saysLate act || late) := by
  cases act with
  | call => exact hinv.goOn
  | exit => exact hinv.exit
  | begin =>
    simp only [Stopping.perform]
    split
    · next hworking => exact hinv.speak (by rw [hworking]; rfl) .accepting
    · exact hinv
  | leave =>
    simp only [Stopping.perform]
    split
    · next hleaving => exact hinv.speak (by rw [hleaving.1]; rfl) .stopping
    · exact hinv
  | aside step =>
    simp only [Stopping.perform]
    split
    · next hpossible => exact hinv.aside hpossible.1 hpossible.2
    · exact hinv

theorem inv_reached {c : ControlledServer} {left : Aftermath} (hshows : c.server.Shows left)
    (acts : List StopAct) :
    (reached (initial c) acts).Inv
      (saidLate (initial c) acts || decide (left = .clearedAway)) := by
  induction acts with
  | nil => exact inv_initial hshows
  | cons act earlier ih =>
    rw [saidLate, Bool.or_assoc]
    exact ih.perform act

/-! ## What is shown -/

/-- **What a server shows of a loop that ends.** Whatever is done to a
server, loops that end by themselves included, it is running and its
hand-off is open just if a loop runs. It listens without running just if a
loop has ended by itself and nobody has stopped or started the server since.

While the server is being stopped, the marks go as the loop takes them
away. Once the call is done, the server does not listen and is not running,
and the hand-off is closed. It is stopped, unless the loop had said so
before the call said that it is stopping, or an earlier call has left it
that way. So a server that is stopped with nobody in between is stopped
just if no loop has ended by itself since a start was tried. -/
theorem exits_shown (settings : ServerSettings) (roster : Roster) (control : Supervisor)
    (run : List ControlledServer.Step) (acts : List StopAct) :
    let c := ControlledServer.reached (.fresh settings roster control) run
    let left := ControlledServer.aftermath (.fresh settings roster control) run
    let during := reached (initial c) acts
    (c.server.running = c.server.isLooping ∧
      c.server.station.handoff.isOpen = c.server.isLooping ∧
      (c.server.listening.isSome = true ∧ c.server.running = false ↔ left = .inPlace)) ∧
    (during.owner.server.running = during.exit.running ∧
      during.owner.server.station.handoff.isOpen = during.exit.isOpen) ∧
    (during.call = .done → during.listening = none ∧ during.owner.server.running = false ∧
      during.owner.server.station.handoff.isOpen = false ∧
      (during.owner.server.phase = .stopped ↔
        left ≠ .clearedAway ∧ saidLate (initial c) acts = false)) ∧
    (c.server.stop.listening = none ∧ c.server.stop.running = false ∧
      c.server.stop.station.handoff.isOpen = false ∧
      (c.server.stop.phase = .stopped ↔ left = .settled)) := by
  intro c left during
  have hshows : c.server.Shows left :=
    ControlledServer.shows_reached settings roster control run
  have hinv := inv_reached hshows acts
  refine ⟨⟨hshows.marks.1, hshows.marks.2, hshows.listening_iff⟩, ⟨hinv.running, hinv.isOpen⟩,
    fun hdone => ?_, ?_⟩
  · have hempty : during.owner.server.worker = none := hinv.done hdone
    have hover : during.exit = .gone := hinv.vacant hempty
    have hshown : during.exit.isShown = true := by rw [hover]; rfl
    refine ⟨?_, ?_, ?_, ?_⟩
    · rw [listening, hdone]
    · rw [hinv.running]
      show during.exit.running = false
      rw [hover]; rfl
    · rw [hinv.isOpen]
      show during.exit.isOpen = false
      rw [hover]; rfl
    · rw [hinv.phase hshown, Bool.or_eq_false_iff, decide_eq_false_iff_not, and_comm]
  · have hstopped := hshows.stop
    have hempty := c.server.worker_stop
    have hnot : c.server.stop.isLooping = false := by rw [Server.isLooping, hempty]; rfl
    refine ⟨by rw [Server.listening, hempty]; rfl, hstopped.marks.1.trans hnot,
      hstopped.marks.2.trans hnot, ?_⟩
    rw [hstopped.stopped_iff hempty, Aftermath.stopped_eq_settled_iff]

/-- A loop ends by itself after the call has taken it out of its place, and
before the call says that the server is stopping. -/
example :
    let idle := ControlledServer.fresh {} { limits := {} } { live := .empty, settings := {} }
    let c := ControlledServer.reached idle [.start fun port => .ok port]
    let during := reached (initial c) (.call :: .call :: .call :: ending ++ [.call])
    during.call = .done ∧ during.owner.server.phase = .stopping := by
  decide +kernel

/-- A loop ends by itself, and the server seems to listen while it is not
running. Once it has been stopped, it keeps saying that it is stopping. -/
theorem exit_left_unreaped :
    (¬ ∀ (settings : ServerSettings) (roster : Roster) (control : Supervisor)
        (run : List ControlledServer.Step),
        (ControlledServer.reached (.fresh settings roster control) run).server.listening.isSome →
        (ControlledServer.reached (.fresh settings roster control) run).server.running = true) ∧
      ¬ ∀ (settings : ServerSettings) (roster : Roster) (control : Supervisor)
        (run : List ControlledServer.Step),
        (ControlledServer.reached (.fresh settings roster control) run).server.stop.phase =
          .stopped := by
  constructor
  · intro h
    have hrunning := h {} { limits := {} } { live := .empty, settings := {} }
      [.endLoop, .start fun port => .ok port] (by decide +kernel)
    revert hrunning
    decide +kernel
  · intro h
    have hphase := h {} { limits := {} } { live := .empty, settings := {} }
      [.endLoop, .start fun port => .ok port]
    revert hphase
    decide +kernel

end Stopping

end MuxControl
