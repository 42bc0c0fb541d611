/-
MuxControl.Proofs.VisitBooks — books of all visits to a server.

Books are kept while a server runs, step by step. A loop that was taken
out of its place may go on serving for a while, and accept others, next
to the one that is in place; so any number of sessions may be going on.

Each kind of entry keeps the counters balanced with the visits, and the
visits that are not over with the sessions that serve them
(`kept_books`). What the counters then say of each other is read off the
visits: `visits_accounted`.
-/
import MuxControl.Proofs.ServerEffects
import MuxControl.Proofs.VisitBalance
import Mathlib.Data.List.Perm.Basic

namespace MuxControl

open Wire

/-! ## Books -/

/-- The session of a connection that is accepted. -/
def Server.newcomer (s : Server) (settings : ServerSettings) (writeFault : Option String) :
    Session :=
  { connection := s.nextConnection, settings := settings, writeFault := writeFault }

/-- What a step does to the session in service, if it is about that. -/
def ControlledServer.Step.deed? : ControlledServer.Step → Option Deed
  | .receive now bytes => some (.receive now bytes)
  | .endInput now => some (.endInput now)
  | .proceed now => some (.proceed now)
  | .breakOff reason => some (.breakOff reason)
  | .expire => some .expire
  | _ => none

/-- The books of a server: the visit in service, those served by loops
that are out of their place, each with its session, and those that are
over. -/
structure Books where
  controlled : ControlledServer
  current : Option Visit := none
  apart : List (Session × Visit) := []
  past : List Visit := []

namespace Books

/-- What happens while books are kept: a step of the server or of its
control side; the client in service can be sent nothing any more; others
work on the hand-off and the inputs; the loop is taken out of its place;
a loop that was accepts a connection, something happens to its session,
or it ends. -/
inductive Entry where
  | step (step : ControlledServer.Step)
  | lose (reason : String)
  | others (handoff : Handoff → Handoff) (roster : Roster → Roster)
  | take
  | greet (settings : ServerSettings) (writeFault : Option String)
  | apart (i : Nat) (deed : Deed)
  | dismiss (i : Nat)

/-- The server. -/
def server (b : Books) : Server := b.controlled.server

/-- The counters. -/
def metrics (b : Books) : Metrics := b.server.station.metrics

/-- All visits. -/
def visits (b : Books) : List Visit := b.current.toList ++ b.apart.map Prod.snd ++ b.past

/-- The books once something has become of the server and its control
side. -/
def turn (b : Books) (controlled : ControlledServer) : Books := { b with controlled := controlled }

/-- The books once something has become of the server alone. -/
def withServer (b : Books) (server : Server) : Books :=
  b.turn { b.controlled with server := server }

/-- Put the visit in service where it belongs. -/
def file (b : Books) (visit? : Option Visit) : Books :=
  { b with
    current := visit?.filter fun v => !v.isOver
    past := (visit?.filter Visit.isOver).toList ++ b.past }

/-- Put a visit to another loop where it belongs. -/
def fileApart (b : Books) (rest : List (Session × Visit)) (progress : Progress) (v : Visit) :
    Books :=
  match progress with
  | .waiting next => { b with apart := (next, v) :: rest }
  | .finished _ => { b with apart := rest, past := v :: b.past }

/-- The visit of a connection that is accepted. -/
def welcome (b : Books) (settings : ServerSettings) (writeFault : Option String)
    (after : Metrics) : Visit :=
  ({} : Visit).goOn none b.server.admitting.station.metrics after
    ((b.server.newcomer settings writeFault).greet b.server.admitting.station).progress

/-- The visit in service after a deed. -/
def visitAfter (b : Books) (deed : Deed) (after : Metrics) : Option Visit :=
  b.server.session?.bind fun session => b.current.map fun v =>
    v.goOn (deed.command? session) b.metrics after (deed.act session b.server.station).progress

/-- The visit in service after a step, once the server is the given one. -/
def visitIn (b : Books) (step : ControlledServer.Step) (after : Server) : Option Visit :=
  match step.deed?, step with
  | some deed, _ => b.visitAfter deed after.station.metrics
  | none, .accept writeFault =>
    match b.server.worker with
    | none => b.current
    | some w =>
      if w.finished || w.session.isSome then b.current
      else some (b.welcome w.settings writeFault after.station.metrics)
  | none, _ => if after.session?.isSome then b.current else b.current.map (·.finish .cancelled)

/-- Keep the books. -/
def record (b : Books) : Entry → Books
  | .step step =>
    let after := (b.controlled.perform step).2
    (b.turn after).file (b.visitIn step after.server)
  | .lose reason =>
    let after := (b.server.onSession (Deed.lose reason).act).2
    (b.withServer after).file (b.visitAfter (.lose reason) after.station.metrics)
  | .others handoff roster =>
    b.withServer (b.server.mapStation fun station =>
      (station.mapHandoff handoff).mapRoster roster)
  | .take =>
    let leaving := b.server.session?.bind fun session => b.current.map fun v => (session, v)
    { b.withServer b.server.takeWorker.2 with
      current := none, apart := leaving.toList ++ b.apart }
  | .greet settings writeFault =>
    let a := (b.server.newcomer settings writeFault).greet b.server.admitting.station
    let after := { b.server.admitting with station := a.settled b.server.nextConnection }
    (b.withServer after).fileApart b.apart a.progress
      (b.welcome settings writeFault after.station.metrics)
  | .apart i deed =>
    match b.apart[i]? with
    | none => b
    | some (session, v) =>
      let a := deed.act session b.server.station
      let after := { b.server with station := a.settled session.connection }
      (b.withServer after).fileApart (b.apart.eraseIdx i) a.progress
        (v.goOn (deed.command? session) b.metrics after.station.metrics a.progress)
  | .dismiss i =>
    match b.apart[i]? with
    | none => b.withServer b.server.exitLoop
    | some (session, v) =>
      { b.withServer (b.server.mapStation session.letGo).exitLoop with
        apart := b.apart.eraseIdx i, past := v.finish .cancelled :: b.past }

/-- The books of a run; its latest entry is the first one listed. -/
def kept (initial : ControlledServer) : List Entry → Books
  | [] => { controlled := initial }
  | entry :: earlier => (kept initial earlier).record entry

/-! ## What is kept -/

/-- A session that is going on serves a visit that is not over and agrees
with where the session stands; without a session there is no such visit. -/
inductive Serves : Option Session → Option Visit → Prop where
  | idle : Serves none none
  | busy {session : Session} {v : Visit} (hopen : v.ending = none)
      (hfits : session.stage.Fits v.command) : Serves (some session) (some v)

/-- The counters are those of the visits, and the sessions serve those that
are not over. -/
structure Kept (b : Books) : Prop where
  balanced : Balanced b.metrics b.visits
  serves : Serves b.server.session? b.current
  apart : ∀ entry ∈ b.apart, Serves (some entry.1) (some entry.2)
  past : ∀ v ∈ b.past, v.isOver = true

variable {b : Books} {m : Metrics} {v : Visit} {read : Option Command} {a : Advance}

theorem Serves.filter {session? : Option Session} {visit? : Option Visit}
    (hserves : Serves session? visit?) : (visit?.filter fun v => !v.isOver) = visit? := by
  cases hserves with
  | idle => rfl
  | busy hopen _ => simp [Option.filter_some, Visit.isOver, hopen]

theorem Serves.isOpen {session : Session} (hserves : Serves (some session) (some v)) :
    v.ending = none ∧ session.stage.Fits v.command := by
  cases hserves with
  | busy hopen hfits => exact ⟨hopen, hfits⟩

theorem serves_goOn (hcounts : Counts m v.command read a) (after : Metrics) {next : Session}
    (hwaits : a.progress = .waiting next) :
    Serves (some next) (some (v.goOn read m after a.progress)) := by
  have hfits := hcounts.fits
  rw [hwaits] at hfits ⊢
  exact .busy rfl hfits

theorem isOver_goOn (v : Visit) (read : Option Command) (m after : Metrics)
    {result : Except SessionError Unit} (hdone : a.progress = .finished result) :
    (v.goOn read m after a.progress).isOver = true := by
  rw [hdone]
  cases result <;> rfl

theorem perm_file (b : Books) (visit? : Option Visit) :
    (visit?.toList ++ b.apart.map Prod.snd ++ b.past).Perm (b.file visit?).visits := by
  cases visit? with
  | none => exact .refl _
  | some v =>
    cases hover : v.isOver with
    | false => simp [file, visits, hover, Option.filter_some]
    | true => simpa [file, visits, hover, Option.filter_some] using List.perm_middle.symm

theorem Kept.file {visit? : Option Visit}
    (hbalanced : Balanced b.metrics (visit?.toList ++ b.apart.map Prod.snd ++ b.past))
    (hserves : Serves b.server.session? (visit?.filter fun v => !v.isOver))
    (hapart : ∀ entry ∈ b.apart, Serves (some entry.1) (some entry.2))
    (hpast : ∀ v ∈ b.past, v.isOver = true) : (b.file visit?).Kept where
  balanced := hbalanced.perm (b.perm_file visit?)
  serves := hserves
  apart := hapart
  past := by
    intro v hmem
    rcases List.mem_append.mp hmem with hnew | hold
    · exact (Option.filter_eq_some_iff.mp (Option.mem_toList.mp hnew)).2
    · exact hpast v hold

theorem Kept.fileApart {rest : List (Session × Visit)} {progress : Progress}
    (hbalanced : Balanced b.metrics (v :: (b.current.toList ++ rest.map Prod.snd ++ b.past)))
    (hserves : Serves b.server.session? b.current)
    (hrest : ∀ entry ∈ rest, Serves (some entry.1) (some entry.2))
    (hpast : ∀ v ∈ b.past, v.isOver = true)
    (hwaits : ∀ next, progress = .waiting next → Serves (some next) (some v))
    (hdone : ∀ result, progress = .finished result → v.isOver = true) :
    (b.fileApart rest progress v).Kept := by
  cases progress with
  | waiting next =>
    refine ⟨hbalanced.perm ?_, hserves, ?_, hpast⟩
    · exact List.perm_middle.symm.append_right b.past
    · exact List.forall_mem_cons.mpr ⟨hwaits next rfl, hrest⟩
  | finished result =>
    refine ⟨hbalanced.perm ?_, hserves, hrest, ?_⟩
    · exact List.perm_middle.symm
    · exact List.forall_mem_cons.mpr ⟨hdone result rfl, hpast⟩

/-! ## What is not about the session in service -/

/-- The same counters of visits, and no session but the one before. -/
structure Aside (s s' : Server) : Prop where
  agrees : s.station.metrics.Agrees s'.station.metrics
  session : ∀ session, s'.session? = some session → s.session? = some session

namespace Aside

variable {s s' s'' : Server}

theorem trans (hfirst : Aside s s') (hsecond : Aside s' s'') : Aside s s'' where
  agrees :=
    ⟨hsecond.agrees.connections.trans hfirst.agrees.connections,
      hsecond.agrees.commands.trans hfirst.agrees.commands,
      hsecond.agrees.sessionErrors.trans hfirst.agrees.sessionErrors⟩
  session session hsession := hfirst.session session (hsecond.session session hsession)

theorem of_same (hmetrics : s'.station.metrics = s.station.metrics)
    (hsession : ∀ session, s'.session? = some session → s.session? = some session) :
    Aside s s' := by
  refine ⟨?_, hsession⟩
  rw [hmetrics]
  exact ⟨rfl, rfl, rfl⟩

theorem refl (s : Server) : Aside s s := of_same rfl fun _ hsession => hsession

theorem of_leaves (hleaves : s.Leaves s') (hcycles : s.Cycles s') : Aside s s' :=
  of_same hleaves.metrics hcycles.session

theorem restart (s : Server) (bind : Binder) : Aside s (s.restart bind) := by
  refine ⟨?_, (s.cycles_restart bind).session⟩
  rw [(s.leaves_restart bind).metrics]
  exact ⟨rfl, rfl, rfl⟩

theorem tick {revive : Server → Server} (hrevive : ∀ s, Aside s (revive s)) (v : Supervisor)
    (s : Server) (now : Instant) (idle : Bool) : Aside s (v.tick now idle revive s).2 := by
  have hqueued : Aside s (v.applyQueued s).2.2 :=
    of_same (v.metrics_applyQueued s) (v.cycles_applyQueued s).session
  have hexchange : ∀ (v : Supervisor) (s : Server), Aside s (v.exchange s).2 :=
    fun v s => of_same (v.metrics_exchange s) fun _ hsession => hsession
  cases hchanged : (v.applyQueued s).1 with
  | true =>
    rw [Supervisor.tick_of_changed hchanged]
    exact (hqueued.trans (hrevive _)).trans (hexchange _ _)
  | false =>
    have hreported : ∀ s : Server, Aside s (s.mapStation (·.report [.loopDown])) :=
      fun s => of_same rfl fun _ hsession => hsession
    rw [Supervisor.tick_of_same hchanged]
    simp only
    split
    · exact (hqueued.trans (hexchange _ _)).trans ((hreported _).trans (hrevive _))
    · exact hqueued.trans (hexchange _ _)

end Aside

/-- What is not about the session in service leaves its visit going on, or
breaks it off. -/
theorem Kept.leave (hkept : b.Kept) {controlled : ControlledServer}
    (hbalanced : Balanced controlled.server.station.metrics b.visits)
    (hsession : ∀ session, controlled.server.session? = some session →
      b.server.session? = some session) :
    ((b.turn controlled).file
      (if controlled.server.session?.isSome then b.current
        else b.current.map fun v => v.finish .cancelled)).Kept := by
  obtain ⟨_, hserves, hapart, hpast⟩ := hkept
  generalize hcurrent : b.current = current? at hserves
  generalize hbefore : b.server.session? = session? at hserves
  rw [visits, hcurrent] at hbalanced
  cases hafter : controlled.server.session? with
  | some session =>
    have hsame := hbefore.symm.trans (hsession session hafter)
    cases hserves with
    | idle => cases hsame
    | @busy session v hopen hfits =>
      obtain rfl := Option.some.inj hsame
      have hserves := Serves.busy hopen hfits
      refine Kept.file hbalanced ?_ hapart hpast
      show Serves controlled.server.session? (Option.filter _ (some v))
      rw [hafter, hserves.filter]
      exact hserves
  | none =>
    have hidle : Serves controlled.server.session? none := by
      rw [hafter]
      exact .idle
    cases hserves with
    | idle => exact Kept.file hbalanced hidle hapart hpast
    | @busy session v hopen hfits =>
      have hover : Balanced _ (v.finish .cancelled :: _) := hbalanced.finish hopen trivial
      exact Kept.file hover hidle hapart hpast

theorem Kept.aside (hkept : b.Kept) {controlled : ControlledServer}
    (haside : Aside b.server controlled.server) :
    ((b.turn controlled).file
      (if controlled.server.session?.isSome then b.current
        else b.current.map fun v => v.finish .cancelled)).Kept :=
  hkept.leave (hkept.balanced.agrees haside.agrees) haside.session

/-! ## What is about it -/

theorem station_follow (s : Server) (w : Worker) (connection : ConnectionId) (a : Advance) :
    (s.follow w connection a).2.station = a.settled connection := by
  unfold Server.follow Advance.settled
  cases a.progress <;> rfl

/-- The session in service comes to something. -/
theorem Kept.follow (hbalanced : Balanced m (v :: (b.apart.map Prod.snd ++ b.past)))
    (hapart : ∀ entry ∈ b.apart, Serves (some entry.1) (some entry.2))
    (hpast : ∀ v ∈ b.past, v.isOver = true) (hopen : v.ending = none)
    (hcounts : Counts m v.command read a) {controlled : ControlledServer} {s : Server} {w : Worker}
    {connection : ConnectionId} (hfollow : controlled.server = (s.follow w connection a).2) :
    ((b.turn controlled).file
      (some (v.goOn read m controlled.server.station.metrics a.progress))).Kept := by
  have hstation : controlled.server.station = a.settled connection := by
    rw [hfollow, station_follow]
  have hgoes := hbalanced.goOn hopen hcounts connection
  rw [← hstation] at hgoes
  refine Kept.file hgoes ?_ hapart hpast
  have hsession := Server.session?_follow s w connection a
  rw [← hfollow] at hsession
  show Serves controlled.server.session? _
  rw [hsession]
  cases hprogress : a.progress with
  | waiting next =>
    have hserves := serves_goOn hcounts controlled.server.station.metrics hprogress
    rw [hprogress] at hserves
    exact hserves
  | finished result =>
    have hover := isOver_goOn v read m controlled.server.station.metrics hprogress
    rw [hprogress] at hover
    simpa [Option.filter_some, hover] using Serves.idle

/-- Nothing happens. -/
theorem Kept.nothing (hkept : b.Kept) {controlled : ControlledServer}
    (hsame : controlled.server = b.server) :
    ((b.turn controlled).file b.current).Kept := by
  refine Kept.file ?_ ?_ hkept.apart hkept.past
  · show Balanced controlled.server.station.metrics _
    rw [hsame]
    exact hkept.balanced
  · show Serves controlled.server.session? _
    rw [hsame, hkept.serves.filter]
    exact hkept.serves

/-- Something happens to the session in service, if there is one. -/
theorem Kept.deed (hkept : b.Kept) (deed : Deed) {controlled : ControlledServer}
    (hserver : controlled.server = (b.server.onSession deed.act).2) :
    ((b.turn controlled).file
      (b.visitAfter deed controlled.server.station.metrics)).Kept := by
  have hserves := hkept.serves
  have hnothing : controlled.server = b.server → _ := hkept.nothing
  generalize hcurrent : b.current = current? at hserves hnothing
  generalize hsession : b.server.session? = session? at hserves
  unfold visitAfter
  rw [hsession, hcurrent]
  cases hserves with
  | idle =>
    rw [Server.onSession_of_none hsession] at hserver
    exact hnothing hserver
  | @busy session v hopen hfits =>
    obtain ⟨w, _, _, hstep⟩ := Server.onSession_of_some hsession deed.act
    have hbalanced := hkept.balanced
    rw [visits, hcurrent] at hbalanced
    rw [hstep] at hserver
    exact Kept.follow hbalanced hkept.apart hkept.past hopen
      (Session.counts_deed hfits deed b.server.station) hserver

/-- A connection is accepted, unless there is no loop for it or one is
being served. -/
theorem Kept.accept (hkept : b.Kept) (writeFault : Option String) :
    (b.record (.step (.accept writeFault))).Kept := by
  let controlled := (b.controlled.perform (.accept writeFault)).2
  have hserver : controlled.server = (b.server.accept writeFault).2 := rfl
  show ((b.turn controlled).file
    (b.visitIn (.accept writeFault) controlled.server)).Kept
  unfold visitIn
  simp only [ControlledServer.Step.deed?]
  cases hw : b.server.worker with
  | none =>
    have hsame : b.server.accept writeFault = ("", b.server) := by simp [Server.accept, hw]
    exact hkept.nothing (hserver.trans (congrArg Prod.snd hsame))
  | some w =>
    rw [Server.accept_of_some hw] at hserver
    simp only
    split
    · next hbusy =>
      rw [if_pos hbusy] at hserver
      exact hkept.nothing hserver
    · next hfree =>
      rw [if_neg hfree] at hserver
      have hidle : b.current = none := by
        have hserves := hkept.serves
        have hnone : b.server.session? = none := by
          simp only [Bool.or_eq_true, not_or, Bool.not_eq_true, Option.isSome_eq_false_iff,
            Option.isNone_iff_eq_none] at hfree
          simp [Server.session?, hw, hfree.2]
        rw [hnone] at hserves
        cases hcurrent : b.current with
        | none => rfl
        | some v =>
          rw [hcurrent] at hserves
          cases hserves
      have hbalanced := hkept.balanced.accept
      rw [visits, hidle] at hbalanced
      exact Kept.follow hbalanced hkept.apart hkept.past rfl
        (Session.counts_greet rfl b.server.admitting.station) hserver

/-- Whatever step the server or its control side makes. -/
theorem Kept.step (hkept : b.Kept) (step : ControlledServer.Step) :
    (b.record (.step step)).Kept := by
  cases step with
  | accept writeFault => exact hkept.accept writeFault
  | receive now bytes => exact hkept.deed (.receive now bytes) rfl
  | endInput now => exact hkept.deed (.endInput now) rfl
  | proceed now => exact hkept.deed (.proceed now) rfl
  | breakOff reason => exact hkept.deed (.breakOff reason) rfl
  | expire => exact hkept.deed .expire rfl
  | start bind =>
    exact hkept.aside (.of_leaves (b.server.leaves_start bind) (Server.cycles_start bind b.server))
  | stop => exact hkept.aside (.of_leaves b.server.leaves_stop b.server.cycles_stop)
  | endLoop => exact hkept.aside (.of_leaves b.server.leaves_endLoop b.server.cycles_endLoop)
  | restart bind => exact hkept.aside (.restart b.server bind)
  | enqueue settings => exact hkept.aside (.refl b.server)
  | configure settings => exact hkept.aside (.of_same rfl fun _ hsession => hsession)
  | pass now idle restart =>
    refine hkept.aside (.tick ?_ b.controlled.control b.server now idle)
    intro s
    cases restart with
    | none => exact .refl s
    | some bind => exact .restart s bind
  | acceptFault reason => exact hkept.leave hkept.balanced.acceptFault fun _ hsession => hsession

/-! ## Loops that are out of their place -/

/-- The loop is taken out of its place, and its session with it. -/
theorem Kept.take (hkept : b.Kept) : (b.record .take).Kept := by
  obtain ⟨hbalanced, hserves, hapart, hpast⟩ := hkept
  generalize hcurrent : b.current = current? at hserves
  generalize hsession : b.server.session? = session? at hserves
  rw [visits, hcurrent] at hbalanced
  simp only [record, hcurrent, hsession]
  cases hserves with
  | idle => exact ⟨hbalanced, .idle, hapart, hpast⟩
  | @busy session v hopen hfits =>
    exact ⟨hbalanced, .idle, List.forall_mem_cons.mpr ⟨.busy hopen hfits, hapart⟩, hpast⟩

/-- A loop that is out of its place accepts a connection. -/
theorem Kept.greet (hkept : b.Kept) (settings : ServerSettings) (writeFault : Option String) :
    (b.record (.greet settings writeFault)).Kept := by
  obtain ⟨hbalanced, hserves, hapart, hpast⟩ := hkept
  have hcounts : Counts _ none none
      ((b.server.newcomer settings writeFault).greet b.server.admitting.station) :=
    Session.counts_greet rfl b.server.admitting.station
  have hgoes := hbalanced.accept.goOn rfl hcounts b.server.nextConnection
  refine Kept.fileApart hgoes hserves hapart hpast ?_ ?_
  · intro next hwaits
    exact serves_goOn hcounts _ hwaits
  · intro result hdone
    exact isOver_goOn _ _ _ _ hdone

/-- The visits, with one to another loop first. -/
theorem perm_eraseIdx {i : Nat} {session : Session} (hi : b.apart[i]? = some (session, v)) :
    b.visits.Perm
      (v :: (b.current.toList ++ (b.apart.eraseIdx i).map Prod.snd ++ b.past)) := by
  obtain ⟨hlt, hget⟩ := List.getElem?_eq_some_iff.mp hi
  have hfirst : (b.apart.map Prod.snd).Perm (v :: (b.apart.eraseIdx i).map Prod.snd) := by
    have herased := (List.getElem_cons_eraseIdx_perm hlt).symm.map Prod.snd
    rwa [hget] at herased
  exact ((hfirst.append_left _).trans List.perm_middle).append_right b.past

/-- Something happens to a session of a loop that is out of its place. -/
theorem Kept.actApart (hkept : b.Kept) (i : Nat) (deed : Deed) :
    (b.record (.apart i deed)).Kept := by
  simp only [record]
  split
  · exact hkept
  · next session v hi =>
    obtain ⟨hopen, hfits⟩ := (hkept.apart _ (List.mem_of_getElem? hi)).isOpen
    have hcounts := Session.counts_deed hfits deed b.server.station
    have hgoes := (hkept.balanced.perm (perm_eraseIdx hi)).goOn hopen hcounts session.connection
    refine Kept.fileApart hgoes hkept.serves ?_ hkept.past ?_ ?_
    · intro entry hmem
      exact hkept.apart entry (List.mem_of_mem_eraseIdx hmem)
    · intro next hwaits
      exact serves_goOn hcounts _ hwaits
    · intro result hdone
      exact isOver_goOn _ _ _ _ hdone

/-- A loop that is out of its place ends. -/
theorem Kept.dismiss (hkept : b.Kept) (i : Nat) : (b.record (.dismiss i)).Kept := by
  simp only [record]
  split
  · exact ⟨hkept.balanced, hkept.serves, hkept.apart, hkept.past⟩
  · next session v hi =>
    obtain ⟨hopen, _⟩ := (hkept.apart _ (List.mem_of_getElem? hi)).isOpen
    have hfits : Ending.cancelled.Fits v.command := trivial
    have hover := (hkept.balanced.perm (perm_eraseIdx hi)).finish hopen hfits
    have hmetrics : (b.server.mapStation session.letGo).exitLoop.station.metrics = b.metrics :=
      session.metrics_letGo b.server.station
    refine ⟨?_, hkept.serves, ?_, List.forall_mem_cons.mpr ⟨rfl, hkept.past⟩⟩
    · show Balanced (b.server.mapStation session.letGo).exitLoop.station.metrics _
      rw [hmetrics]
      exact hover.perm List.perm_middle.symm
    · intro entry hmem
      exact hkept.apart entry (List.mem_of_mem_eraseIdx hmem)

/-! ## Every run -/

/-- **The books are kept.** Whatever happens, the counters are those of the
visits, and the visits that are not over are being served. -/
theorem kept_books (settings : ServerSettings) (roster : Roster) (control : Supervisor)
    (entries : List Entry) :
    (kept (ControlledServer.fresh settings roster control) entries).Kept := by
  induction entries with
  | nil => exact ⟨.nil, .idle, fun _ hmem => absurd hmem List.not_mem_nil,
      fun _ hmem => absurd hmem List.not_mem_nil⟩
  | cons entry earlier ih =>
    rw [kept]
    cases entry with
    | step step => exact ih.step step
    | lose reason => exact ih.deed (.lose reason) rfl
    | others handoff roster => exact ⟨ih.balanced, ih.serves, ih.apart, ih.past⟩
    | take => exact ih.take
    | greet settings writeFault => exact ih.greet settings writeFault
    | apart i deed => exact ih.actApart i deed
    | dismiss i => exact ih.dismiss i

/-- **The counters account for every visit.** Whatever is done to a server
and by its clients, in however many loops: each connection that is counted
is a visit, and it goes on just if a session serves it. The commands that
are counted, together with the visits in which none was read, make up the
connections; without one, a visit goes on, was cancelled, or failed over
the line, the time or the sending. Each visit has added one failure if it
ended with an error and none otherwise, and these are all the failures
that are counted. There are never more rejected documents than commands
to push one, nor more withdrawn or lost requests than commands to fetch
it. -/
theorem visits_accounted (settings : ServerSettings) (roster : Roster) (control : Supervisor)
    (entries : List Entry) :
    let b := kept (ControlledServer.fresh settings roster control) entries
    let m := b.metrics
    (Serves b.server.session? b.current ∧
        (∀ entry ∈ b.apart, Serves (some entry.1) (some entry.2)) ∧
        ∀ v ∈ b.past, v.ending ≠ none) ∧
      m.connections = b.visits.length ∧
      m.connections = Metrics.sum (fun _ => true) m.commands +
        b.visits.countP (fun v => v.command.isNone) ∧
      (∀ v ∈ b.visits, v.command = none → v.ending = none ∨ v.ending = some .cancelled ∨
        ∃ error, v.ending = some (.failed error) ∧ error.isEarly = true) ∧
      (∀ v ∈ b.visits, v.failures ≤ 1 ∧
        (v.failures = 1 ↔ ∃ error, v.ending = some (.failed error))) ∧
      m.failures = (b.visits.map Visit.failures).sum ∧
      Metrics.count "document" m.sessionErrors ≤ Metrics.count "setptree" m.commands ∧
      Metrics.count "withdrawn" m.sessionErrors + Metrics.count "disconnected" m.sessionErrors ≤
        Metrics.count "getptree" m.commands := by
  intro b m
  obtain ⟨hbalanced, hserves, hapart, hpast⟩ := kept_books settings roster control entries
  refine ⟨⟨hserves, hapart, ?_⟩, hbalanced.connections, ?_, ?_, ?_, ?_,
    hbalanced.count_document_le, hbalanced.count_withdrawn_le⟩
  · intro v hmem hnone
    have hover := hpast v hmem
    rw [Visit.isOver, hnone] at hover
    cases hover
  · have hread : ∀ v : Visit, v.labelled (fun _ => true) = v.command.isSome := by
      intro v
      unfold Visit.labelled
      cases v.command <;> rfl
    rw [hbalanced.commands, hbalanced.connections, List.length_eq_countP_add_countP]
    congr 2
    funext v
    rw [hread]
    cases v.command <;> rfl
  · intro v hmem hnone
    have hfits := (hbalanced.sound v hmem).fits
    cases hending : v.ending with
    | none => exact .inl rfl
    | some ending =>
      have hearly := hfits ending hending
      rw [hnone] at hearly
      cases ending with
      | completed => exact absurd rfl hearly
      | failed error => exact .inr (.inr ⟨error, rfl, SessionError.isEarly_of_fits hearly⟩)
      | cancelled => exact .inr (.inl rfl)
  · intro v hmem
    have hfailures := (hbalanced.sound v hmem).failures
    unfold Visit.error? at hfailures
    cases hending : v.ending with
    | none => simp [hfailures, hending]
    | some ending => cases ending <;> simp [hfailures, hending, Ending.error?]
  · exact (hbalanced.errors _ rfl).trans (Balanced.sum_failures hbalanced.sound)

/-- A client waits for the document while its loop is taken out of its
place; the next loop greets another client before the first one ends. -/
example :
    let control : Supervisor := { live := .empty, settings := {} }
    let b := kept (ControlledServer.fresh {} { limits := {} } control)
      [.dismiss 0, .step (.accept none), .step (.start fun port => .ok port), .take,
        .step (.receive 0 (encode "getptree\n")), .step (.accept none),
        .step (.start fun port => .ok port)]
    b.visits = [{}, { command := some .getTree, ending := some .cancelled }] ∧
      b.metrics.failures = 0 := by
  decide +kernel

end Books

end MuxControl
