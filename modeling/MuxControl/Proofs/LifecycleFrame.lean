/-
MuxControl.Proofs.LifecycleFrame — what starting, stopping, restarting
and configuring the server leaves alone.

The hand-off and the roster outlive every loop. `Server.Weathers` says
what such calls may do to them: nothing to the roster, and to the
hand-off only what a loop does last, once, and opening and closing. Each
call has one lemma, and since weathering composes, so has any sequence of
calls (`weathers_called`).

`start_failed` is about a start that fails: nothing that is shown
changes, unless a loop that has ended by itself is to be cleared away.
`lifecycle_transparent` puts both together.
-/
import MuxControl.Proofs.ServerEffects

namespace MuxControl

open Wire

/-- The ticket that a session waits with, if it does. -/
def Session.ticket? (s : Session) : Option Ticket :=
  match s.stage with
  | .answer ticket => some ticket
  | _ => none

namespace Handoff

/-- What a loop leaves of the hand-off when it ends: the ticket of its
session is let go of, the request that waits is withdrawn, and the
hand-off is closed. -/
def leftBehind (h : Handoff) (ticket : Option Ticket) : Handoff := (ticket.elim h h.abandon).closed

variable {h : Handoff}

theorem current_leftBehind (ticket : Option Ticket) :
    (h.leftBehind ticket).current = h.current := by
  cases ticket <;> simp [leftBehind]

theorem pushed_leftBehind (ticket : Option Ticket) :
    (h.leftBehind ticket).pushed = h.pushed := by
  cases ticket <;> simp [leftBehind]

theorem isOpen_leftBehind (ticket : Option Ticket) : (h.leftBehind ticket).isOpen = false :=
  isOpen_closed _

/-- It does not matter whether the hand-off was open. -/
theorem leftBehind_mark (ticket : Option Ticket) (isOpen : Bool) :
    { h with isOpen := isOpen }.leftBehind ticket = h.leftBehind ticket := by
  cases ticket <;> rfl

/-- A second loop leaves what the first one did. -/
theorem leftBehind_twice (ticket : Option Ticket) :
    (h.leftBehind ticket).leftBehind none = h.leftBehind ticket := by
  have hwaiting : (h.leftBehind ticket).waiting = none := waiting_closed _
  have hclosed := isOpen_leftBehind (h := h) ticket
  generalize h.leftBehind ticket = left at hwaiting hclosed ⊢
  have hsettled : { left with isOpen := false }.settleWaiting .withdrawn =
      { left with isOpen := false } := by
    simp only [settleWaiting, hwaiting]
  show { left with isOpen := false }.settleWaiting .withdrawn = left
  rw [hsettled, ← hclosed]

/-- What is taken over is known from the document and the mark of a push. -/
theorem takePushed_congr {h' : Handoff} (hcurrent : h'.current = h.current)
    (hpushed : h'.pushed = h.pushed) : h'.takePushed.1 = h.takePushed.1 := by
  unfold takePushed
  rw [hpushed, hcurrent]
  split <;> rfl

end Handoff

namespace Server

/-- The ticket that the session of a loop that runs waits with. -/
def awaited? (s : Server) : Option Ticket :=
  if s.isLooping then s.session?.bind Session.ticket? else none

/-- What the end of a loop, if one has ended, and starts and failures to
start make of what the loops share. -/
structure Weathers (s s' : Server) (ended : Bool) : Prop where
  roster : s'.station.roster = s.station.roster
  handoff : ∃ isOpen, s'.station.handoff =
    { (if ended then s.station.handoff.leftBehind s.awaited? else s.station.handoff) with
      isOpen := isOpen }
  awaited : s'.awaited? = if ended then none else s.awaited?

variable {s s' s'' : Server} {ended ended' : Bool}

/-- What touches neither the loop nor what the loops share. -/
theorem Weathers.aside (hworker : s'.worker = s.worker)
    (hhandoff : s'.station.handoff = s.station.handoff)
    (hroster : s'.station.roster = s.station.roster) : s.Weathers s' false where
  roster := hroster
  handoff := ⟨_, hhandoff⟩
  awaited := by
    unfold awaited? isLooping session?
    rw [hworker]
    rfl

/-- Of two loops that end, only the first leaves a trace. -/
theorem Weathers.trans (hfirst : s.Weathers s' ended) (hsecond : s'.Weathers s'' ended') :
    s.Weathers s'' (ended' || ended) where
  roster := hsecond.roster.trans hfirst.roster
  handoff := by
    obtain ⟨isOpen, hhandoff⟩ := hfirst.handoff
    obtain ⟨isOpen', hhandoff'⟩ := hsecond.handoff
    refine ⟨isOpen', ?_⟩
    rw [hhandoff', hfirst.awaited, hhandoff]
    cases ended' with
    | false => rfl
    | true =>
      cases ended with
      | false => simp [Handoff.leftBehind_mark]
      | true => simp [Handoff.leftBehind_mark, Handoff.leftBehind_twice]
  awaited := by
    rw [hsecond.awaited, hfirst.awaited]
    cases ended' <;> rfl

theorem isLooping_of_some {w : Worker} (hw : s.worker = some w) : s.isLooping = !w.finished := by
  simp [isLooping, hw]

theorem isLooping_of_none (hnone : s.worker = none) : s.isLooping = false := by
  simp [isLooping, hnone]

theorem awaited?_of_session (hnone : s.session? = none) : s.awaited? = none := by
  simp [awaited?, hnone]

theorem awaited?_of_not_looping (hnot : s.isLooping = false) : s.awaited? = none := by
  simp [awaited?, hnot]

/-- Without a loop that runs, and with no session afterwards, the tickets
need no looking after. -/
theorem Weathers.idle (hnot : s.isLooping = false) (hnone : s'.session? = none)
    (hroster : s'.station.roster = s.station.roster)
    (hhandoff : ∃ isOpen, s'.station.handoff = { s.station.handoff with isOpen := isOpen }) :
    s.Weathers s' false where
  roster := hroster
  handoff := hhandoff
  awaited := (awaited?_of_session hnone).trans (awaited?_of_not_looping hnot).symm

theorem handoff_letGo (session : Session) (station : Station) :
    (session.letGo station).handoff =
      session.ticket?.elim station.handoff station.handoff.abandon := by
  unfold Session.letGo Session.ticket?
  cases session.stage <;> rfl

/-- What a loop leaves behind when it ends. -/
theorem handoff_afterLoop (hlooping : s.isLooping = true) :
    s.afterLoop.station.handoff = s.station.handoff.leftBehind s.awaited? := by
  show s.deserted.handoff.closed = _
  unfold Handoff.leftBehind awaited? deserted
  rw [if_pos hlooping]
  cases s.session? with
  | none => rfl
  | some session => exact congrArg Handoff.closed (handoff_letGo session s.station)

/-! ## Each call -/

theorem weathers_start (s : Server) (bind : Binder) : s.Weathers (s.start bind).2 false := by
  obtain ⟨_, hstart⟩ | ⟨_, hnot, _, hstart⟩ | ⟨_, hnot, _, hstart⟩ := s.start_cases bind <;>
    rw [hstart]
  · exact .aside rfl rfl rfl
  · exact .idle hnot rfl rfl ⟨_, rfl⟩
  · exact .idle hnot rfl rfl ⟨true, rfl⟩

theorem weathers_stop (s : Server) : s.Weathers s.stop s.isLooping := by
  obtain ⟨hnone, hstop⟩ | ⟨w, hw, hfinished, hstop⟩ | ⟨w, hw, hfinished, hstop⟩ := s.stop_cases <;>
    rw [hstop]
  · rw [isLooping_of_none hnone]
    exact .aside rfl rfl rfl
  · have hnot : s.isLooping = false := by rw [isLooping_of_some hw, hfinished]; rfl
    rw [hnot]
    exact .idle hnot rfl rfl ⟨_, rfl⟩
  · have hlooping : s.isLooping = true := by rw [isLooping_of_some hw, hfinished]; rfl
    rw [hlooping]
    exact ⟨s.leaves_afterLoop.roster, ⟨_, handoff_afterLoop hlooping⟩, awaited?_of_session rfl⟩

theorem weathers_restart (s : Server) (bind : Binder) :
    s.Weathers (s.restart bind) s.isLooping := by
  have hcounted : s.Weathers s.counted false := .aside rfl rfl rfl
  have hstopped := hcounted.trans (weathers_stop s.counted)
  have hstarted := hstopped.trans (weathers_start s.counted.stop bind)
  have hreported : (s.counted.stop.start bind).2.Weathers (s.restart bind) false := by
    rw [restart_eq]
    exact .aside rfl rfl rfl
  have hrestarted := hstarted.trans hreported
  rwa [Bool.false_or, Bool.false_or, Bool.or_false] at hrestarted

/-- A call that starts, stops, restarts or configures the server. Binding
a port may fail. -/
inductive Call where
  | start (bind : Binder)
  | stop
  | restart (bind : Binder)
  | configure (settings : ServerSettings)

/-- What a call makes of the server. -/
def call (s : Server) : Call → Server
  | .start bind => (s.start bind).2
  | .stop => s.stop
  | .restart bind => s.restart bind
  | .configure settings => (s.updateSettings settings).2

/-- What calls make of the server; the latest one is listed first. -/
def called (s : Server) : List Call → Server
  | [] => s
  | call :: earlier => (s.called earlier).call call

/-- Whether a loop ends in a call. -/
def ends (s : Server) : Call → Bool
  | .stop | .restart _ => s.isLooping
  | _ => false

/-- Whether a loop ends in any of the calls. -/
def everEnds (s : Server) : List Call → Bool
  | [] => false
  | call :: earlier => (s.called earlier).ends call || s.everEnds earlier

theorem weathers_called (s : Server) (calls : List Call) :
    s.Weathers (s.called calls) (s.everEnds calls) := by
  induction calls with
  | nil => exact .aside rfl rfl rfl
  | cons call earlier ih =>
    refine ih.trans ?_
    cases call with
    | start bind => exact weathers_start _ bind
    | stop => exact weathers_stop _
    | restart bind => exact weathers_restart _ bind
    | configure settings => exact .aside rfl rfl rfl

theorem Weathers.current (hweathers : s.Weathers s' ended) :
    s'.station.handoff.current = s.station.handoff.current := by
  obtain ⟨_, hhandoff⟩ := hweathers.handoff
  rw [hhandoff]
  cases ended with
  | false => rfl
  | true => exact Handoff.current_leftBehind s.awaited?

theorem Weathers.pushed (hweathers : s.Weathers s' ended) :
    s'.station.handoff.pushed = s.station.handoff.pushed := by
  obtain ⟨_, hhandoff⟩ := hweathers.handoff
  rw [hhandoff]
  cases ended with
  | false => rfl
  | true => exact Handoff.pushed_leftBehind s.awaited?

/-! ## A start that fails -/

/-- A server that is stopped, with no loop in its place. -/
structure IsStopped (s : Server) : Prop where
  worker : s.worker = none
  phase : s.phase = .stopped

/-- A start that fails leaves the marks and the hand-off alone. It shows
nothing of itself, if a loop runs or the server is stopped. -/
theorem start_failed {bind : Binder} {e : ServerError} (hfailed : (s.start bind).1 = .error e) :
    ((s.start bind).2.running = s.running ∧ (s.start bind).2.faulted = s.faulted ∧
      (s.start bind).2.station.handoff = s.station.handoff) ∧
    (e = .alreadyRunning ∨ s.IsStopped → s.SameStatus (s.start bind).2) := by
  obtain ⟨_, hstart⟩ | ⟨reason, _, _, hstart⟩ | ⟨_, _, _, hstart⟩ := s.start_cases bind <;>
    rw [hstart] at hfailed ⊢
  · exact ⟨⟨rfl, rfl, rfl⟩, fun _ => .refl s⟩
  · refine ⟨⟨rfl, rfl, rfl⟩, ?_⟩
    rintro (rfl | hstopped)
    · cases hfailed
    · exact ⟨hstopped.worker.symm, rfl, rfl, rfl, hstopped.phase.symm⟩
  · cases hfailed

/-- At rest, a start can fail in no other way. -/
theorem failed_of_settled {launched : Bool} (hs : s.Settled launched) {bind : Binder}
    {e : ServerError} (hfailed : (s.start bind).1 = .error e) :
    e = .alreadyRunning ∨ s.IsStopped := by
  rcases hs with ⟨hup, _⟩ | hdown
  · rw [start_of_up hup bind] at hfailed
    exact .inl (Except.error.inj hfailed).symm
  · exact .inr ⟨hdown.worker, hdown.phase⟩

/-- Calls keep a server at rest. -/
theorem settled_called {launched : Bool} (hs : s.Settled launched) (calls : List Call) :
    ∃ launched', (s.called calls).Settled launched' := by
  induction calls with
  | nil => exact ⟨_, hs⟩
  | cons call earlier ih =>
    obtain ⟨_, hsettled⟩ := ih
    cases call with
    | start bind => exact ⟨_, hsettled.start bind⟩
    | stop => exact ⟨_, hsettled.stop⟩
    | restart bind => exact ⟨_, hsettled.restart bind⟩
    | configure settings =>
      have hsame : (s.called earlier).SameStatus ((s.called earlier).call (.configure settings)) :=
        ⟨rfl, rfl, rfl, rfl, rfl⟩
      exact ⟨_, hsame.settled hsettled⟩

/-- **Calls are transparent to what the loops share.** Calls that start,
stop, restart and configure a server leave the roster with all its inputs
as it is, and the latest document and the mark of a push, so that what a
client pushed is still taken over. The hand-off is opened or closed, and
the first loop that ends leaves it behind as `leftBehind` says; nothing
else becomes of it.

A start that fails leaves the marks and the hand-off alone. It changes
nothing that the server shows of itself if a loop runs or the server is
stopped. For a server that was at rest before the calls, one of the two
is so; only a loop that has ended by itself keeps one from being. -/
theorem lifecycle_transparent (s : Server) (calls : List Call) :
    let s' := s.called calls
    (s'.station.roster = s.station.roster ∧
      s'.station.handoff.current = s.station.handoff.current ∧
      s'.station.handoff.pushed = s.station.handoff.pushed ∧
      s'.station.handoff.takePushed.1 = s.station.handoff.takePushed.1) ∧
    (∃ isOpen, s'.station.handoff =
      { (if s.everEnds calls then s.station.handoff.leftBehind s.awaited?
          else s.station.handoff) with isOpen := isOpen }) ∧
    ∀ bind e, (s'.start bind).1 = .error e →
      ((s'.start bind).2.running = s'.running ∧ (s'.start bind).2.faulted = s'.faulted ∧
        (s'.start bind).2.station.handoff = s'.station.handoff) ∧
      (e = .alreadyRunning ∨ s'.IsStopped ∨ (∃ launched, s.Settled launched) →
        s'.SameStatus (s'.start bind).2) := by
  intro s'
  have hweathers : s.Weathers s' (s.everEnds calls) := s.weathers_called calls
  refine ⟨⟨hweathers.roster, hweathers.current, hweathers.pushed, ?_⟩, hweathers.handoff, ?_⟩
  · exact Handoff.takePushed_congr hweathers.current hweathers.pushed
  · intro bind e hfailed
    obtain ⟨hmarks, hshown⟩ := start_failed hfailed
    refine ⟨hmarks, ?_⟩
    rintro (hrunning | hstopped | ⟨launched, hsettled⟩)
    · exact hshown (.inl hrunning)
    · exact hshown (.inr hstopped)
    · obtain ⟨_, hsettled'⟩ := settled_called hsettled calls
      exact hshown (failed_of_settled hsettled' hfailed)

end Server

namespace ControlledServer

/-- A client pushes a document, the server is restarted while its port is
in use, and another start fails as well. The push is still there. -/
theorem lifecycle_transparent_port_in_use :
    let busy : Binder := fun _ => .error "in use"
    let initial := fresh {} { limits := {} } { live := .empty, settings := {} }
    let run : List Step :=
      [.receive 1 (encode "setptree\n\x7b\"a\":1\x7d\n"), .accept none, .start fun port => .ok port]
    let restarted :=
      (reached initial run).server.called [.configure { port := 7003 }, .restart busy]
    (restarted.station.handoff.takePushed.1.map Document.compact = some "\x7b\"a\":1\x7d") ∧
      (restarted.start busy).1 = .error (.bindFailed "in use") ∧
      restarted.SameStatus (restarted.start busy).2 := by
  intro busy initial run restarted
  obtain ⟨⟨_, _, _, htaken⟩, _, hstart⟩ := Server.lifecycle_transparent (reached initial run).server
    [.configure { port := 7003 }, .restart busy]
  have hpushed : ((reached initial run).server.station.handoff.takePushed.1.map
      Document.compact) = some "\x7b\"a\":1\x7d" := by decide +kernel
  have hdown : restarted.isLooping = false := by decide +kernel
  have hfailed : (restarted.start busy).1 = .error (.bindFailed "in use") := by
    obtain ⟨hlooping, _⟩ | ⟨_, _, hbusy, hfails⟩ | ⟨_, _, hbound, _⟩ := restarted.start_cases busy
    · cases hdown.symm.trans hlooping
    · rw [hfails, ← Except.error.inj hbusy]
    · cases hbound
  have hrun : .endLoop ∉ run := by simp [run]
  have hsettled := settled_reached {} { limits := {} } { live := .empty, settings := {} } hrun
  exact ⟨htaken ▸ hpushed, hfailed, (hstart busy _ hfailed).2 (.inr (.inr ⟨_, hsettled⟩))⟩

end ControlledServer

end MuxControl
