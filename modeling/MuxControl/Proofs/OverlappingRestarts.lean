/-
MuxControl.Proofs.OverlappingRestarts — restarts that run at the same
time.

The control side sets a restart off without waiting for an earlier one,
so several may run at once, and their acts come in any order.
`restart_alone` says that a restart nobody disturbs is `Server.restart`.

All loops share one hand-off and one set of marks, and a restart that
holds a loop leaves the place free for another start. So the end of the
old loop may come after the new one was launched, and wipes out what the
new one said of itself: `overlapping_restarts_disagree`. That is the only
way to go wrong: `status_after_restarts` says that a loop that accepts is
shown everywhere just if no restart held another loop when it was
launched.
-/
import MuxControl.Proofs.ServerEffects
import MuxControl.Service.Restarts

namespace MuxControl

/-! ## Loops that are held -/

/-- The loop that a restart holds. -/
@[simp] def RestartStage.held? : RestartStage → Option Worker
  | .telling w _ | .leaving w _ => some w
  | _ => none

namespace Restarts

variable {ι : Type}

/-- Restarts of a server at rest that have just been set off. -/
def initial (s : Server) : Restarts ι := ⟨s, fun _ => .checking, s.worker.isSome⟩

@[simp] theorem server_unbegun (c : Restarts ι) : c.unbegun.server = c.server := rfl

@[simp] theorem stage_unbegun (c : Restarts ι) : c.unbegun.stage = c.stage := rfl

/-- Some restart holds a loop. -/
def Holding (c : Restarts ι) : Prop := ∃ i, (c.stage i).held? ≠ none

/-- An act launches a loop. -/
def Launches (c : Restarts ι) : RestartAct ι → Prop
  | .start i bind => c.stage i = .starting ∧ ∃ port, (c.server.tryStart bind).1 = .ok port
  | _ => False

/-- The loop launched last was launched while a restart held another
one. -/
def CrossedAfter [DecidableEq ι] (initial : Restarts ι) : List (RestartAct ι) → Prop
  | [] => False
  | act :: earlier =>
    (reached initial earlier).Launches act ∧ (reached initial earlier).Holding ∨
      ¬ (reached initial earlier).Launches act ∧ CrossedAfter initial earlier

/-! ## A restart alone -/

section Alone

variable [DecidableEq ι] (c : Restarts ι) (i : ι) (stage : RestartStage) (s : Server)

@[simp] theorem server_move : (c.move i stage s).server = s := rfl

@[simp] theorem begun_move : (c.move i stage s).begun = c.begun := rfl

@[simp] theorem stage_move_self : (c.move i stage s).stage i = stage := by
  simp [move]

theorem stage_move_of_ne {j : ι} (hne : j ≠ i) : (c.move i stage s).stage j = c.stage j := by
  simp [move, hne]

variable {c i}

/-- A restart alone, up to its start: the server is cleared of its loop. -/
theorem cleared_alone (hstage : c.stage i = .checking) :
    let c' := c.reached [.join i, .exit i, .tell i, .take i, .check i]
    c'.stage i = .starting ∧ c'.server = c.server.cleared := by
  cases hw : c.server.worker with
  | none =>
    have hnot : c.server.listening = none := by simp [Server.listening, hw]
    have hcleared : c.server.cleared =
        c.server.mapStation (·.mapMetrics Metrics.countRestart) := by
      simp [Server.cleared, Server.listening, Server.mapStation, hw]
    simp [reached, perform, hstage, hnot, hcleared]
  | some w =>
    have hlistens : c.server.listening = some w.port := by simp [Server.listening, hw]
    have hcleared : c.server.cleared =
        (c.server.mapStation (·.mapMetrics Metrics.countRestart)).stop := by
      simp [Server.cleared, Server.listening, Server.mapStation, hw]
    have hstop : (c.server.mapStation (·.mapMetrics Metrics.countRestart)).stop =
        ({ c.server.mapStation (·.mapMetrics Metrics.countRestart) with
          worker := none }.beginStopping).finishWorker w := by
      simp [Server.stop, Server.takeWorker, Server.mapStation, hw]
    have htake : (c.server.mapStation (·.mapMetrics Metrics.countRestart)).takeWorker =
        (some w, { c.server.mapStation (·.mapMetrics Metrics.countRestart) with
          worker := none }) := by
      simp [Server.takeWorker, Server.mapStation, hw]
    simp [reached, perform, hstage, hlistens, htake, hcleared, hstop]

/-- A restart that nobody disturbs does what a restart does. -/
theorem restart_alone (hstage : c.stage i = .checking) (bind : Binder) :
    (c.reached (alone i bind)).server = c.server.restart bind := by
  obtain ⟨hstarting, hserver⟩ := cleared_alone hstage
  have hnone := Server.worker_cleared c.server
  rw [Server.restart_eq, ← Server.cleared_eq, alone, reached, reached]
  generalize c.reached [.join i, .exit i, .tell i, .take i, .check i] = c' at hstarting hserver
  rw [← hserver] at hnone ⊢
  have htry : c'.server.tryStart bind = c'.server.launch bind := by
    simp [Server.tryStart, hnone]
  cases hbind : bind c'.server.settings.port with
  | ok port =>
    simp [perform, unbegun, hstarting, Server.start, htry, Server.launch, hbind,
      Server.restartEvents, Server.mapStation, Station.report]
  | error reason =>
    simp [perform, hstarting, Server.start, htry, Server.launch, hbind, Server.restartEvents,
      Server.mapStation]

/-- A restart that is over has nothing left to do. -/
theorem stage_perform_of_done (hover : c.stage i = .done) (act : RestartAct ι) :
    (c.perform act).stage i = .done := by
  have hmove : ∀ (j : ι) (stage : RestartStage) (s : Server), c.stage j ≠ .done →
      (c.move j stage s).stage i = .done := by
    intro j stage s hopen
    have hne : i ≠ j := by
      intro heq
      exact hopen (heq ▸ hover)
    rw [stage_move_of_ne c j stage s hne, hover]
  cases act with
  | check j | tell j | exit j | join j =>
    simp only [perform]
    split
    · next hstage => exact hmove j _ _ (by simp [hstage])
    · exact hover
  | take j =>
    simp only [perform]
    split
    · next hstage =>
      split
      · exact hmove j _ _ (by simp [hstage])
      · rw [stage_unbegun]
        exact hmove j _ _ (by simp [hstage])
    · exact hover
  | start j bind =>
    simp only [perform]
    split
    · next hstage =>
      split
      · rw [stage_unbegun]
        exact hmove j _ _ (by simp [hstage])
      · exact hmove j _ _ (by simp [hstage])
    · exact hover
  | beginHeld j =>
    simp only [perform]
    split
    · next hstage => exact hmove j _ _ (by simp [hstage])
    · next hstage => exact hmove j _ _ (by simp [hstage])
    · exact hover
  | begin =>
    simp only [perform]
    split <;> exact hover
  | configure settings => exact hover

theorem stage_reached_of_done (hover : c.stage i = .done) (acts : List (RestartAct ι)) :
    (c.reached acts).stage i = .done := by
  induction acts with
  | nil => exact hover
  | cons act earlier ih => exact stage_perform_of_done ih act

/-- A restart comes to its start or to its end, wherever it stands. -/
theorem stage_cleared (c : Restarts ι) (i : ι) :
    let c' := c.reached [.join i, .exit i, .tell i, .take i, .check i]
    c'.stage i = .starting ∨ c'.stage i = .done := by
  cases hstage : c.stage i with
  | checking => exact .inl (cleared_alone hstage).1
  | taking =>
    refine .inl ?_
    cases hw : c.server.worker with
    | none => simp [reached, perform, hstage, Server.takeWorker, hw]
    | some w => simp [reached, perform, hstage, Server.takeWorker, hw]
  | telling | leaving | joining | starting | done => simp [reached, perform, hstage]

/-- A restart is done after its acts, wherever it stood. -/
theorem stage_alone (c : Restarts ι) (i : ι) (bind : Binder) :
    (c.reached (alone i bind)).stage i = .done := by
  have hcleared := c.stage_cleared i
  rw [alone, reached, reached]
  generalize c.reached [.join i, .exit i, .tell i, .take i, .check i] = c' at hcleared
  have hstart : (c'.perform (.start i bind)).stage i = .done := by
    simp only [perform]
    rcases hcleared with hstage | hstage
    · simp only [hstage]
      split <;> simp
    · simp only [hstage]
  rw [← hstart]
  generalize c'.perform (.start i bind) = started
  simp only [perform]
  split <;> rfl

end Alone

/-! ## What every act keeps -/

/-- What holds between the acts. No loop has ended by itself, in its place
or held. A loop in its place that was launched while none was held is
shown everywhere, and none is held since; of one that was not, the restart
that held the other loop still does, or its end has been taken for the
end of this one. -/
structure Inv (c : Restarts ι) (crossed : Prop) : Prop where
  place : ∀ w, c.server.worker = some w → w.finished = false
  held : ∀ i w, (c.stage i).held? = some w → w.finished = false
  alone : c.server.worker ≠ none → ¬ crossed → ¬ c.Holding
  shown : c.server.worker ≠ none → ¬ crossed → c.server.running = true ∧
    c.server.faulted = false ∧ c.server.station.handoff.isOpen = true ∧
    (c.begun = true → c.server.phase = .accepting ∨ c.server.phase = .handling)
  crossed : c.server.worker ≠ none → crossed → c.Holding ∨ c.server.running = false

variable {c c' : Restarts ι} {crossed : Prop}

/-- The same restarts hold the same loops. -/
def SameHeld (c c' : Restarts ι) : Prop := ∀ i, (c'.stage i).held? = (c.stage i).held?

theorem SameHeld.holding (hheld : SameHeld c c') : c'.Holding ↔ c.Holding := by
  unfold Holding
  simp only [hheld _]

theorem sameHeld_move [DecidableEq ι] {i : ι} {stage : RestartStage}
    (hsame : stage.held? = (c.stage i).held?) (s : Server) : SameHeld c (c.move i stage s) := by
  intro j
  by_cases heq : j = i
  · subst heq
    rw [stage_move_self, hsame]
  · rw [stage_move_of_ne c i stage s heq]

/-- What changes neither the status nor who holds which loop. -/
theorem Inv.quiet (hinv : c.Inv crossed) (hheld : SameHeld c c')
    (hstatus : c.server.SameStatus c'.server) (hbegun : c'.begun = c.begun) :
    c'.Inv crossed := by
  refine ⟨?_, ?_, ?_, ?_, ?_⟩
  · rw [hstatus.worker]; exact hinv.place
  · intro i w hw
    exact hinv.held i w (hheld i ▸ hw)
  · rw [hstatus.worker, hheld.holding]; exact hinv.alone
  · rw [hstatus.worker, hstatus.running, hstatus.faulted, hstatus.isOpen, hstatus.phase, hbegun]
    exact hinv.shown
  · rw [hstatus.worker, hheld.holding, hstatus.running]; exact hinv.crossed

/-- What leaves the place empty. -/
theorem Inv.emptied (hheld : ∀ i w, (c'.stage i).held? = some w → w.finished = false)
    (hworker : c'.server.worker = none) : c'.Inv crossed := by
  refine ⟨?_, hheld, ?_, ?_, ?_⟩
  · intro w hw
    rw [hworker] at hw
    cases hw
  all_goals
    intro hplace
    exact absurd hworker hplace

/-- What the holder of a loop does, as long as it holds the loop or the
server no longer says that it is running. -/
theorem Inv.holder (hinv : c.Inv crossed) {i : ι} {w : Worker}
    (hholds : (c.stage i).held? = some w)
    (hheld : ∀ j w, (c'.stage j).held? = some w → (c.stage j).held? = some w)
    (hworker : c'.server.worker = c.server.worker)
    (hafter : c'.Holding ∨ c'.server.running = false) : c'.Inv crossed := by
  have hholding : c.Holding := ⟨i, by rw [hholds]; exact Option.some_ne_none w⟩
  refine ⟨?_, ?_, ?_, ?_, ?_⟩
  · rw [hworker]; exact hinv.place
  · intro j w' hw'
    exact hinv.held j w' (hheld j w' hw')
  -- This restart holds a loop, so the one in its place was launched across it.
  · rw [hworker]
    intro hplace hnot
    exact absurd hholding (hinv.alone hplace hnot)
  · rw [hworker]
    intro hplace hnot
    exact absurd hholding (hinv.alone hplace hnot)
  · intro _ _
    exact hafter

theorem inv_initial {s : Server} {launched : Bool} (hs : s.Settled launched) :
    (initial s : Restarts ι).Inv False := by
  have hnobody : ¬ (initial s : Restarts ι).Holding := fun ⟨_, hholds⟩ => hholds rfl
  rcases hs with ⟨hup, _⟩ | hdown
  · obtain ⟨w, hw, hrunning⟩ := hup.looping
    refine ⟨fun w' hw' => ?_, fun _ _ hholds => ?_, fun _ _ => hnobody, fun _ _ => ?_,
      fun _ h => h.elim⟩
    · rw [initial, hw] at hw'
      exact Option.some.inj hw' ▸ hrunning
    · cases hholds
    · exact ⟨hup.running, hup.faulted, hup.isOpen, fun _ => hup.phase⟩
  · refine .emptied (fun _ _ hholds => ?_) hdown.worker
    cases hholds

variable [DecidableEq ι]

theorem Inv.take (hinv : c.Inv crossed) (i : ι) : (c.perform (.take i)).Inv crossed := by
  simp only [perform]
  cases hstage : c.stage i with
  | taking =>
    cases hw : c.server.worker with
    | none =>
      simp only [Server.takeWorker, hw]
      refine hinv.quiet (sameHeld_move (by rw [hstage]; rfl) _) ?_ rfl
      exact ⟨hw.symm, rfl, rfl, rfl, rfl⟩
    | some w =>
      simp only [Server.takeWorker, hw]
      refine .emptied (fun j w' hw' => ?_) rfl
      rw [stage_unbegun] at hw'
      by_cases heq : j = i
      · subst heq
        obtain rfl : w = w' := by simpa using hw'
        exact hinv.place w hw
      · rw [stage_move_of_ne c i _ _ heq] at hw'
        exact hinv.held j w' hw'
  | _ => exact hinv

theorem Inv.tell (hinv : c.Inv crossed) (i : ι) : (c.perform (.tell i)).Inv crossed := by
  simp only [perform]
  cases hstage : c.stage i with
  | telling w begun =>
    have hheld : SameHeld c (c.move i (.leaving w begun) c.server.beginStopping) :=
      sameHeld_move (by rw [hstage]; rfl) _
    have hholds : (c.stage i).held? = some w := by rw [hstage]; rfl
    refine hinv.holder hholds (fun j w' hw' => hheld j ▸ hw') rfl (.inl ⟨i, ?_⟩)
    rw [hheld i, hholds]
    exact Option.some_ne_none w
  | _ => exact hinv

theorem Inv.beginHeld (hinv : c.Inv crossed) (i : ι) : (c.perform (.beginHeld i)).Inv crossed := by
  simp only [perform]
  have hkeeps : ∀ (w : Worker) (stage : RestartStage), (c.stage i).held? = some w →
      stage.held? = some w → (c.move i stage c.server.beginAccepting).Inv crossed := by
    intro w stage hholds hstage
    have hheld : SameHeld c (c.move i stage c.server.beginAccepting) :=
      sameHeld_move (hstage.trans hholds.symm) _
    refine hinv.holder hholds (fun j w' hw' => hheld j ▸ hw') rfl (.inl ⟨i, ?_⟩)
    rw [hheld i, hholds]
    exact Option.some_ne_none w
  cases hstage : c.stage i with
  | telling w begun =>
    cases begun with
    | true => exact hinv
    | false => exact hkeeps w _ (by rw [hstage]; rfl) rfl
  | leaving w begun =>
    cases begun with
    | true => exact hinv
    | false => exact hkeeps w _ (by rw [hstage]; rfl) rfl
  | _ => exact hinv

theorem Inv.exit (hinv : c.Inv crossed) (i : ι) : (c.perform (.exit i)).Inv crossed := by
  simp only [perform]
  cases hstage : c.stage i with
  | leaving w begun =>
    have hholds : (c.stage i).held? = some w := by rw [hstage]; rfl
    have hrunning := hinv.held i w hholds
    refine hinv.holder hholds (fun j w' hw' => ?_) ?_ (.inr ?_)
    · by_cases heq : j = i
      · subst heq
        simp at hw'
      · rwa [stage_move_of_ne c i _ _ heq] at hw'
    · simp [Server.finishWorker, hrunning, Server.exitLoop, Server.mapStation]
    · simp [Server.finishWorker, hrunning, Server.exitLoop]
  | _ => exact hinv

theorem Inv.begin (hinv : c.Inv crossed) : (c.perform .begin).Inv crossed := by
  simp only [perform]
  split
  · refine ⟨hinv.place, hinv.held, hinv.alone, fun hplace hnot => ?_, hinv.crossed⟩
    obtain ⟨hrunning, hfaulted, hopen, _⟩ := hinv.shown hplace hnot
    exact ⟨hrunning, hfaulted, hopen, fun _ => .inl rfl⟩
  · exact hinv

/-- A start that launches a loop: whether a restart holds another one is
what matters from then on. -/
theorem Inv.launch (hinv : c.Inv crossed) {i : ι} {bind : Binder}
    (hlaunches : c.Launches (.start i bind)) : (c.perform (.start i bind)).Inv c.Holding := by
  obtain ⟨hstage, port, hok⟩ := hlaunches
  obtain ⟨_, w, _, hw, hfinished, hrunning, hfaulted, hopen⟩ | ⟨e, herror, _⟩ :=
    c.server.tryStart_cases bind
  · have hperform : c.perform (.start i bind) =
        (c.move i .done (c.server.tryStart bind).2).unbegun := by
      simp only [perform, hstage]
      split
      · next hresult => rw [hresult]
      · next hresult => rw [hresult] at hok; cases hok
    have hheld : SameHeld c (c.perform (.start i bind)) := by
      rw [hperform]
      intro j
      exact sameHeld_move (by rw [hstage]; rfl) (c.server.tryStart bind).2 j
    have hserver : (c.perform (.start i bind)).server = (c.server.tryStart bind).2 := by
      rw [hperform]; rfl
    refine ⟨fun w' hw' => ?_, fun j w' hw' => ?_, fun _ hnot => ?_, fun _ _ => ?_,
      fun _ hholds => ?_⟩
    · rw [hserver, hw] at hw'
      exact Option.some.inj hw' ▸ hfinished
    · exact hinv.held j w' (hheld j ▸ hw')
    · rwa [hheld.holding]
    · rw [hserver]
      refine ⟨hrunning, hfaulted, hopen, fun hbegun => ?_⟩
      rw [hperform] at hbegun
      cases hbegun
    · exact .inl (hheld.holding.mpr hholds)
  · rw [hok] at herror
    cases herror

/-- A start that launches no loop. -/
theorem Inv.refused (hinv : c.Inv crossed) {i : ι} {bind : Binder}
    (hnot : ¬ c.Launches (.start i bind)) : (c.perform (.start i bind)).Inv crossed := by
  cases hstage : c.stage i with
  | starting =>
    obtain ⟨port, _, hok, _⟩ | ⟨e, herror, hcases⟩ := c.server.tryStart_cases bind
    · exact absurd ⟨hstage, port, hok⟩ hnot
    · have hperform : c.perform (.start i bind) = c.move i .done
          ((c.server.tryStart bind).2.mapStation (·.report [.restartFailed e.message])) := by
        simp only [perform, hstage]
        split
        · next hresult => rw [hresult] at herror; cases herror
        · next e' _ hresult =>
          rw [hresult] at herror
          obtain rfl : e' = e := Except.error.inj herror
          rw [hresult]
      rw [hperform]
      have hheld : SameHeld c (c.move i .done
          ((c.server.tryStart bind).2.mapStation (·.report [.restartFailed e.message]))) :=
        sameHeld_move (by rw [hstage]; rfl) _
      rcases hcases with hsame | hempty
      · refine hinv.quiet hheld ?_ rfl
        exact ⟨hsame.worker, hsame.running, hsame.faulted, hsame.isOpen, hsame.phase⟩
      · exact .emptied (fun j w hw => hinv.held j w (hheld j ▸ hw)) hempty
  | _ => simpa [perform, hstage] using hinv

/-- Every act keeps the invariant; a launch decides anew whether the loop
in its place was launched across another one. -/
theorem Inv.perform (hinv : c.Inv crossed) (act : RestartAct ι) :
    (c.perform act).Inv (c.Launches act ∧ c.Holding ∨ ¬ c.Launches act ∧ crossed) := by
  have hother : ¬ c.Launches act → (c.perform act).Inv crossed →
      (c.perform act).Inv (c.Launches act ∧ c.Holding ∨ ¬ c.Launches act ∧ crossed) := by
    intro hnot hafter
    simpa [hnot] using hafter
  cases act with
  | check i =>
    refine hother id ?_
    simp only [Restarts.perform]
    cases hstage : c.stage i with
    | checking =>
      refine hinv.quiet (sameHeld_move ?_ _) ⟨rfl, rfl, rfl, rfl, rfl⟩ rfl
      rw [hstage]
      split <;> rfl
    | _ => exact hinv
  | take i => exact hother id (hinv.take i)
  | tell i => exact hother id (hinv.tell i)
  | exit i => exact hother id (hinv.exit i)
  | join i =>
    refine hother id ?_
    simp only [Restarts.perform]
    cases hstage : c.stage i with
    | joining => exact hinv.quiet (sameHeld_move (by rw [hstage]; rfl) _) (.refl _) rfl
    | _ => exact hinv
  | start i bind =>
    by_cases hlaunches : c.Launches (.start i bind)
    · simpa [hlaunches] using hinv.launch hlaunches
    · exact hother hlaunches (hinv.refused hlaunches)
  | begin => exact hother id hinv.begin
  | beginHeld i => exact hother id (hinv.beginHeld i)
  | configure settings =>
    exact hother id (hinv.quiet (fun _ => rfl) ⟨rfl, rfl, rfl, rfl, rfl⟩ rfl)

theorem inv_reached {s : Server} {launched : Bool} (hs : s.Settled launched)
    (run : List (RestartAct ι)) :
    (reached (initial s) run).Inv (CrossedAfter (initial s) run) := by
  induction run with
  | nil => exact inv_initial hs
  | cons act earlier ih => exact ih.perform act

/-! ## The status when all restarts are done -/

/-- **What is shown after restarts that overlap.** Once all restarts are
done, in whatever order their acts came, a loop that accepts in its place
is shown everywhere just if no restart held another loop when it was
launched. -/
theorem status_after_restarts {s : Server} {launched : Bool} (hs : s.Settled launched)
    (run : List (RestartAct ι)) (hdone : ∀ i, (reached (initial s) run).stage i = .done)
    {w : Worker} (hw : (reached (initial s) run).server.worker = some w)
    (hbegun : (reached (initial s) run).begun = true) :
    (reached (initial s) run).server.Up ↔ ¬ CrossedAfter (initial s) run := by
  have hinv := inv_reached hs run
  have hplace : (reached (initial s) run).server.worker ≠ none := by
    rw [hw]
    exact Option.some_ne_none w
  have hnobody : ¬ (reached (initial s) run).Holding := by
    rintro ⟨i, hholds⟩
    rw [hdone i] at hholds
    exact hholds rfl
  constructor
  · intro hup hcrossed
    rcases hinv.crossed hplace hcrossed with hholding | hrunning
    · exact hnobody hholding
    · rw [hup.running] at hrunning
      cases hrunning
  · intro hnot
    obtain ⟨hrunning, hfaulted, hopen, hphase⟩ := hinv.shown hplace hnot
    exact ⟨⟨w, hw, hinv.place w hw⟩, hrunning, hfaulted, hopen, hphase hbegun⟩

/-- A server that was never started. -/
def idle : Server :=
  { settings := { port := 7001 }
    station := { handoff := .start .empty, roster := { limits := {} } } }

/-- A server that listens on port 7001. -/
def listener : Server := (idle.start fun port => .ok port).2

theorem listener_settled : listener.Settled true := by
  have hidle : idle.Settled false := .inr ⟨rfl, rfl, rfl, rfl, rfl⟩
  exact hidle.start _

/-- Two restarts one after the other, the second one on another port. -/
def inTurn : List (RestartAct Bool) :=
  alone true (fun port => .ok port) ++
    .configure { port := 7002 } :: alone false fun port => .ok port

theorem status_after_restarts_in_turn :
    (∀ i, (reached (initial listener) inTurn).stage i = .done) ∧
      (reached (initial listener) inTurn).server.Up ∧
      ¬ CrossedAfter (initial listener) inTurn := by
  have hdone : ∀ i, (reached (initial listener) inTurn).stage i = .done := by decide +kernel
  have hw : (reached (initial listener) inTurn).server.worker =
      some ⟨7002, { port := 7002 }, none, false⟩ := by decide +kernel
  have hup : (reached (initial listener) inTurn).server.Up :=
    ⟨⟨_, hw, rfl⟩, by decide +kernel, by decide +kernel, by decide +kernel, by decide +kernel⟩
  exact ⟨hdone, hup,
    (status_after_restarts listener_settled inTurn hdone hw (by decide +kernel)).mp hup⟩

/-- Two restarts of a server on one port, after reloads to two others; the
latest act is the first one. The second one starts the server while the
first one still holds the old loop, whose end then closes the hand-off
for the new loop and takes its marks away. -/
def crossing : List (RestartAct Bool) :=
  let bind : Binder := fun port => if port = 7001 then .error "in use" else .ok port
  [.start true bind, .join true, .exit true, .tell true, .begin, .start false bind, .check false,
    .configure { port := 7003 }, .take true, .check true, .configure { port := 7002 }]

/-- Restarts that overlap can leave a loop that accepts behind marks that
deny it. -/
theorem overlapping_restarts_disagree :
    ¬ ∀ (s : Server) (launched : Bool), s.Settled launched → ∀ run : List (RestartAct Bool),
        (∀ i, (reached (initial s) run).stage i = .done) →
        ∀ w, (reached (initial s) run).server.worker = some w →
        (reached (initial s) run).begun = true → (reached (initial s) run).server.Up := by
  intro hall
  have hup := hall listener true listener_settled crossing (by decide +kernel)
    ⟨7003, { port := 7003 }, none, false⟩ (by decide +kernel) (by decide +kernel)
  have hnot : (reached (initial listener) crossing).server.running = false := by decide +kernel
  rw [hup.running] at hnot
  cases hnot

end Restarts

end MuxControl
