/-
MuxControl.Proofs.ListeningPort — the server listens where it is
configured to.

A loop keeps the port it was started on, while the configured port may
change under it. Only a pass changes it, and a pass that does makes a
restart at once: after that the server listens on the new port, or
nowhere. `Server.AtPort` is the invariant. A restart brings it about
whatever was before (`atPort_restart`); everything else keeps it, and a
pass keeps it by one or the other (`atPort_tick`).

What a bound port is, is up to the system: `Binder.Faithful` says that
it is the port that was asked for, unless any free one was.
-/
import MuxControl.Proofs.ServerEffects

namespace MuxControl

/-- What is bound is the port that was asked for, or any one if port 0
was. Whether anything is bound is left open. -/
def Binder.Faithful (bind : Binder) : Prop :=
  ∀ port bound, bind port = .ok bound → port = 0 ∨ port = bound

namespace Server

/-- The server listens on a port that it is configured for, or nowhere. -/
def AtPort (s : Server) : Prop :=
  ∀ port, s.listening = some port → s.asksFor port = true

variable {s s' : Server} {bind : Binder}

theorem asksFor_iff {port : Port} :
    s.asksFor port = true ↔ s.settings.port = 0 ∨ s.settings.port = port := by
  simp [asksFor]

/-- The configured port alone tells which ports are asked for. -/
theorem asksFor_congr (hsame : s'.settings.port = s.settings.port) (port : Port) :
    s'.asksFor port = s.asksFor port := by
  unfold asksFor
  rw [hsame]

theorem atPort_of_none (hnone : s.worker = none) : s.AtPort := by
  intro port hport
  rw [listening, hnone] at hport
  cases hport

theorem SameAddress.atPort (hsame : s.SameAddress s') (hs : s.AtPort) : s'.AtPort := by
  intro port hport
  rw [hsame.listening] at hport
  rw [asksFor_congr (congrArg ServerSettings.port hsame.settings)]
  exact hs port hport

/-- A start listens on the configured port if it succeeds. If it fails,
the server listens where it did, or nowhere. -/
theorem AtPort.start (hs : s.AtPort) (hbind : bind.Faithful) : (s.start bind).2.AtPort := by
  obtain ⟨_, hstart⟩ | ⟨reason, _, _, hstart⟩ | ⟨bound, _, hbound, hstart⟩ := s.start_cases bind <;>
    rw [hstart]
  · exact hs
  · exact atPort_of_none rfl
  · intro port hport
    obtain rfl : bound = port := Option.some.inj hport
    exact asksFor_iff.mpr (hbind _ _ hbound)

/-- After a restart the server listens where it is configured to,
wherever it did before. -/
theorem atPort_restart (s : Server) (hbind : bind.Faithful) : (s.restart bind).AtPort := by
  have hstarted := (atPort_of_none (worker_stop s.counted)).start hbind
  rw [restart_eq]
  exact hstarted

end Server

namespace Supervisor

variable {v : Supervisor} {s : Server}

/-- A configuration with the same port leaves the server where it
listens. -/
theorem atPort_applyQueued (hs : s.AtPort) (hsame : (v.applyQueued s).1 = false) :
    (v.applyQueued s).2.2.AtPort := by
  cases hqueued : v.queue.bind List.getLast? with
  | none =>
    rw [applyQueued_of_none hqueued]
    exact hs
  | some queued =>
    rw [applyQueued_of_some hqueued] at hsame ⊢
    have hport : s.settings.port = (v.override queued).server.port :=
      Decidable.of_not_not (of_decide_eq_false hsame)
    intro port hlistening
    rw [Server.asksFor_congr (s := s) hport.symm]
    exact hs port hlistening

theorem sameAddress_exchange (v : Supervisor) (s : Server) : s.SameAddress (v.exchange s).2 :=
  ⟨rfl, rfl⟩

/-- After a pass the server listens where it is configured to, if its
restarts do so. -/
theorem atPort_tick (hs : s.AtPort) (v : Supervisor) (now : Instant) (idle : Bool)
    {restart : Server → Server} (hrestart : ∀ s, (restart s).AtPort) :
    (v.tick now idle restart s).2.AtPort := by
  cases hchanged : (v.applyQueued s).1 with
  | true =>
    rw [tick_of_changed hchanged]
    exact (sameAddress_exchange _ _).atPort (hrestart _)
  | false =>
    rw [tick_of_same hchanged]
    by_cases hneeded : (s.faulted && idle && v.isDue now) = true
    · simp only [hneeded, if_true]
      exact hrestart _
    · simp only [hneeded]
      exact (sameAddress_exchange _ _).atPort (atPort_applyQueued hs hchanged)

end Supervisor

namespace ControlledServer

/-- A step in which everything that it sets off is over, and no port is
bound in the place of another. Only a pass puts other settings in force. -/
def Step.IsWhole : Step → Prop
  | .pass _ _ attempt => ∃ bind : Binder, attempt = some bind ∧ bind.Faithful
  | .start bind | .restart bind => bind.Faithful
  | .configure _ => False
  | _ => True

/-- A run of whole steps, its latest step listed first. The restart that
a pass sets off may also begin when the pass is over; then it is over
before anything else is done. -/
inductive Orderly : List Step → Prop where
  | start : Orderly []
  | step {step : Step} {earlier : List Step} (hearlier : Orderly earlier) (hwhole : step.IsWhole) :
      Orderly (step :: earlier)
  | late {earlier : List Step} (hearlier : Orderly earlier) (now : Instant) (idle : Bool)
      {bind : Binder} (hbind : bind.Faithful) :
      Orderly (.restart bind :: .pass now idle none :: earlier)

variable {c : ControlledServer}

/-- A whole step keeps a server where it is configured to listen. -/
theorem atPort_perform (hc : c.server.AtPort) {step : Step} (hwhole : step.IsWhole) :
    (c.perform step).2.server.AtPort := by
  cases step with
  | pass now idle restart =>
    obtain ⟨bind, rfl, hbind⟩ := hwhole
    exact Supervisor.atPort_tick hc c.control now idle fun s => Server.atPort_restart s hbind
  | enqueue settings => exact hc
  | configure settings => exact hwhole.elim
  | start bind => exact hc.start hwhole
  | stop => exact Server.atPort_of_none (Server.worker_stop c.server)
  | restart bind => exact Server.atPort_restart c.server hwhole
  | endLoop => exact (Server.sameAddress_endLoop c.server).atPort hc
  | accept writeFault => exact (Server.sameAddress_accept c.server writeFault).atPort hc
  | acceptFault reason => exact hc
  | receive now bytes => exact (Server.sameAddress_onSession c.server _).atPort hc
  | endInput now => exact (Server.sameAddress_onSession c.server _).atPort hc
  | proceed now => exact (Server.sameAddress_onSession c.server _).atPort hc
  | breakOff reason => exact (Server.sameAddress_onSession c.server _).atPort hc
  | expire => exact (Server.sameAddress_onSession c.server _).atPort hc

/-- **The server listens where it is configured to.** Whatever is started,
stopped, restarted and configured anew, whichever loops end by
themselves, and whichever ports cannot be bound: a port that is listened
on is the one in the settings in force, unless these leave it open. -/
theorem listens_as_configured (settings : ServerSettings) (roster : Roster) (control : Supervisor)
    {run : List Step} (hrun : Orderly run) (port : Port)
    (hport : (reached (fresh settings roster control) run).server.listening = some port) :
    (reached (fresh settings roster control) run).server.asksFor port = true := by
  have hkept : (reached (fresh settings roster control) run).server.AtPort := by
    clear hport
    induction hrun with
    | start => exact Server.atPort_of_none rfl
    | step _ hwhole ih => exact atPort_perform ih hwhole
    | late _ now idle hbind _ => exact Server.atPort_restart _ hbind
  exact hkept port hport

/-- A reload to a port that is in use, another reload, and then a start:
the server is on the port of the second reload. -/
theorem listens_as_configured_after_port_in_use :
    let bind : Binder := fun port => if port = 7002 then .error "in use" else .ok port
    let initial := fresh {} { limits := {} } { live := .empty, settings := {}, queue := some [] }
    let run : List Step :=
      [.start bind, .restart bind, .pass 7000 true none, .enqueue { server := { port := 7003 } },
        .start bind, .pass 6000 true (some bind), .enqueue { server := { port := 7002 } },
        .start bind]
    Orderly run ∧ (reached initial run).server.listening = some 7003 ∧
      (reached initial run).server.asksFor 7003 = true := by
  intro bind initial run
  have hbind : bind.Faithful := by
    intro port bound hbound
    by_cases hbusy : port = 7002
    · simp [bind, hbusy] at hbound
    · simpa [bind, hbusy] using Or.inr hbound
  have henqueue : ∀ port, (Step.enqueue { server := { port := port } }).IsWhole := fun _ => trivial
  have hstart : (Step.start bind).IsWhole := hbind
  have hpass : (Step.pass 6000 true (some bind)).IsWhole := ⟨bind, rfl, hbind⟩
  have hbusy := ((Orderly.start.step hstart).step (henqueue 7002)).step hpass
  have hfree := ((hbusy.step hstart).step (henqueue 7003)).late 7000 true hbind
  have hrun : Orderly run := hfree.step hstart
  have hlistening : (reached initial run).server.listening = some 7003 := by decide +kernel
  exact ⟨hrun, hlistening, listens_as_configured {} { limits := {} }
    { live := .empty, settings := {}, queue := some [] } hrun 7003 hlistening⟩

end ControlledServer

end MuxControl
