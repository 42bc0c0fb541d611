/-
MuxControl.Proofs.HotReload — the server follows its configuration file.

On its way to the server a configuration is held in three places: the
reloader keeps the one it forwarded last, the queue those that no pass
has taken yet, and the server the one in force. `Service.Follows` ties
them together: the reloader has what the file held when it was last
loaded (`latestLoaded`), and so has the server, unless that is still the
last one in the queue. Every happening keeps it (`Follows.perform`), and
a pass brings the server up to date (`Follows.pass`).

`hot_reload` reads off what is in force, where it comes from, and that a
port from the command line leaves nothing to restart for. It starts from
a prepared service; `boot_eq_reached` says that one which comes up is such
a service, started.
-/
import MuxControl.Console.Service
import MuxControl.Proofs.ServerEffects

namespace MuxControl

/-- The section with another port, if one is given. -/
def ServerSettings.onPort (s : ServerSettings) (port : Option Port) : ServerSettings :=
  { s with port := port.getD s.port }

namespace Settings

theorem valid_of_load {file : FileContent} {settings : Settings}
    (hload : load file = .ok settings) : settings.Valid := by
  unfold load at hload
  cases htext : file.text with
  | error fault =>
    rw [htext] at hload
    cases hload
  | ok text =>
    rw [htext] at hload
    exact valid_of_parse hload

/-- Configurations that differ in no section are the same. -/
theorem changedSections_eq_nil {old new : Settings} : old.changedSections new = [] ↔ old = new := by
  constructor
  · intro hnone
    obtain ⟨oldServer, oldInputs, oldObservability⟩ := old
    obtain ⟨newServer, newInputs, newObservability⟩ := new
    simpa [changedSections] using hnone
  · rintro rfl
    simp [changedSections]

end Settings

/-- A change of the file forwards what it brings, unless that is what was
forwarded last; then the reloader has it. -/
theorem Reloader.reload_cases (r : Reloader) (file : FileContent) :
    (∃ e, Settings.load file = .error e ∧ r.reload file = (r, .error e)) ∨
      (Settings.load file = .ok r.applied ∧ r.reload file = (r, .ok none)) ∨
      ∃ new, Settings.load file = .ok new ∧ r.reload file = (⟨new⟩, .ok (some new)) := by
  unfold Reloader.reload
  cases Settings.load file with
  | error e => exact .inl ⟨e, rfl, rfl⟩
  | ok new =>
    by_cases hsame : r.applied.changedSections new = []
    · obtain rfl := Settings.changedSections_eq_nil.mp hsame
      exact .inr (.inl ⟨rfl, if_pos hsame⟩)
    · exact .inr (.inr ⟨new, rfl, if_neg hsame⟩)

/-- The port on the command line takes the place of the configured one. -/
theorem Supervisor.override_server (v : Supervisor) (settings : Settings) :
    (v.override settings).server = settings.server.onPort v.portOverride := by
  unfold override ServerSettings.onPort
  cases v.portOverride <;> rfl

namespace Console.Service

open ControlledServer (Step)

/-! ## What happens to a service -/

/-- A change of the configuration file, which may be told any number of
times, or a step of the server or its control side; nothing else brings
other settings. -/
inductive Happening where
  | fileChange (path : String) (file : FileContent)
  | step (step : Step) (hown : step.configures = false)

/-- What comes of a happening. -/
def perform (s : Service) : Happening → Service
  | .fileChange path file => s.onFileChange path file
  | .step step _ =>
    let c := (ControlledServer.perform ⟨s.server, s.supervisor⟩ step).2
    s.put (c.control, c.server)

/-- What comes of a run; its latest happening is the first one listed. -/
def reached (initial : Service) : List Happening → Service
  | [] => initial
  | happening :: earlier => (reached initial earlier).perform happening

namespace Happening

/-- The configuration that a change of the file brings. -/
def loaded? : Happening → Option Settings
  | .fileChange _ file => (Settings.load file).toOption
  | .step _ _ => none

/-- Whether the file could not be loaded when it changed. -/
def isRejected : Happening → Bool
  | .fileChange _ file => (Settings.load file).toOption.isNone
  | .step _ _ => false

/-- Whether a happening is a pass of the control side. -/
def isPass : Happening → Bool
  | .fileChange _ _ => false
  | .step own _ => own.isPass

end Happening

/-- The configuration that was loaded last, or the first one. -/
def latestLoaded (file : Settings) (run : List Happening) : Settings :=
  (run.findSome? Happening.loaded?).getD file

/-- The configuration that had been loaded last when the latest pass was
made, or the first one. -/
def inForce (file : Settings) : List Happening → Settings
  | [] => file
  | happening :: earlier =>
    if happening.isPass then latestLoaded file earlier else inForce file earlier

variable {s : Service} {port : Option Port} {file current latest : Settings}

theorem latestLoaded_cons (file : Settings) (happening : Happening) (earlier : List Happening) :
    latestLoaded file (happening :: earlier) =
      happening.loaded?.getD (latestLoaded file earlier) := by
  unfold latestLoaded
  cases hloaded : happening.loaded? <;> simp [hloaded]

/-- What was loaded last is the first configuration or one from the run. -/
theorem latestLoaded_origin (file : Settings) (run : List Happening) :
    latestLoaded file run = file ∨
      ∃ happening ∈ run, happening.loaded? = some (latestLoaded file run) := by
  unfold latestLoaded
  cases hfound : run.findSome? Happening.loaded? with
  | none => exact .inl rfl
  | some loaded =>
    obtain ⟨happening, hmem, hloaded⟩ := List.exists_of_findSome?_eq_some hfound
    exact .inr ⟨happening, hmem, hloaded⟩

theorem Happening.valid_of_loaded? {happening : Happening} {settings : Settings}
    (hloaded : happening.loaded? = some settings) : settings.Valid := by
  cases happening with
  | fileChange path content =>
    cases hload : Settings.load content with
    | error e => simp [loaded?, hload, Except.toOption] at hloaded
    | ok found =>
      have hsame : found = settings := by simpa [loaded?, hload, Except.toOption] using hloaded
      exact hsame ▸ Settings.valid_of_load hload
  | step step hown => cases hloaded

theorem inForce_origin (file : Settings) (run : List Happening) :
    inForce file run = file ∨ ∃ happening ∈ run, happening.loaded? = some (inForce file run) := by
  induction run with
  | nil => exact .inl rfl
  | cons happening earlier ih =>
    have horigin : inForce file (happening :: earlier) = file ∨
        ∃ other ∈ earlier, other.loaded? = some (inForce file (happening :: earlier)) := by
      unfold inForce
      split
      · exact latestLoaded_origin file earlier
      · exact ih
    exact horigin.imp_right fun ⟨other, hmem, hloaded⟩ =>
      ⟨other, List.mem_cons_of_mem happening hmem, hloaded⟩

theorem Happening.loaded?_of_isRejected {happening : Happening}
    (hrejected : happening.isRejected = true) :
    happening.loaded? = none ∧ happening.isPass = false := by
  cases happening with
  | fileChange path file => exact ⟨Option.isNone_iff_eq_none.mp hrejected, rfl⟩
  | step step hown => cases hrejected

/-- A file that is rejected might as well not have changed. -/
theorem latestLoaded_accepted (file : Settings) (run : List Happening) :
    latestLoaded file (run.filter (!·.isRejected)) = latestLoaded file run := by
  induction run with
  | nil => rfl
  | cons happening earlier ih =>
    cases hrejected : happening.isRejected with
    | true =>
      obtain ⟨hnone, _⟩ := Happening.loaded?_of_isRejected hrejected
      rw [List.filter_cons_of_neg (by simp [hrejected]), latestLoaded_cons, hnone]
      exact ih
    | false =>
      rw [List.filter_cons_of_pos (by simp [hrejected]), latestLoaded_cons, latestLoaded_cons, ih]

theorem inForce_accepted (file : Settings) (run : List Happening) :
    inForce file (run.filter (!·.isRejected)) = inForce file run := by
  induction run with
  | nil => rfl
  | cons happening earlier ih =>
    cases hrejected : happening.isRejected with
    | true =>
      obtain ⟨_, hnot⟩ := Happening.loaded?_of_isRejected hrejected
      rw [List.filter_cons_of_neg (by simp [hrejected])]
      simp only [inForce, hnot]
      exact ih
    | false =>
      rw [List.filter_cons_of_pos (by simp [hrejected])]
      simp only [inForce, ih, latestLoaded_accepted]

/-! ## The three places of the configuration -/

/-- The service has loaded `latest` last; `current` is in force, on the port
from the command line if there is one, and `latest` will be after a pass. -/
structure Follows (s : Service) (port : Option Port) (current latest : Settings) : Prop where
  reloader : s.reloader = some ⟨latest⟩
  portOverride : s.supervisor.portOverride = port
  queued : ∃ queue, s.supervisor.queue = some queue ∧ queue.getLast?.getD current = latest
  settings : s.server.settings = current.server.onPort port

theorem follows_prepare (port : Option Port) (file : Settings) (document : Document) :
    (prepare port true file document).Follows port file file where
  reloader := rfl
  portOverride := rfl
  queued := ⟨[], rfl, rfl⟩
  settings := Supervisor.override_server _ file

/-- A change of the file is queued if it brings something new. -/
theorem Follows.onFileChange (hs : s.Follows port current latest) (path : String)
    (content : FileContent) :
    (s.onFileChange path content).Follows port current
      ((Settings.load content).toOption.getD latest) := by
  obtain ⟨queue, hqueue, hlast⟩ := hs.queued
  unfold Service.onFileChange
  rw [hs.reloader]
  obtain ⟨e, hload, hreload⟩ | ⟨hload, hreload⟩ | ⟨new, hload, hreload⟩ :=
    Reloader.reload_cases ⟨latest⟩ content <;> rw [hload] <;> simp only [hreload]
  · exact ⟨rfl, hs.portOverride, ⟨queue, hqueue, hlast⟩, hs.settings⟩
  · exact ⟨rfl, hs.portOverride, ⟨queue, hqueue, hlast⟩, hs.settings⟩
  · refine ⟨rfl, hs.portOverride, ⟨queue ++ [new], ?_, ?_⟩, hs.settings⟩
    · show s.supervisor.queue.map (· ++ [new]) = _
      rw [hqueue]
      rfl
    · simp [Except.toOption]

/-- A pass puts in force what was loaded last. -/
theorem Follows.pass (hs : s.Follows port current latest) (now : Instant) (idle : Bool)
    (restart : Option Binder) :
    (s.perform (.step (.pass now idle restart) rfl)).Follows port latest latest := by
  obtain ⟨queue, hqueue, hlast⟩ := hs.queued
  have hrestart : ∀ s, (restart.elim id Server.restart s).settings = s.settings := by
    cases restart with
    | none => exact fun _ => rfl
    | some bind => exact fun s => s.settings_restart bind
  obtain ⟨hsettings, hkept, hport⟩ :=
    Supervisor.settings_tick s.supervisor s.server now idle hrestart
  -- The last configuration in the queue is the latest one; without one, it is in force already.
  cases hfound : queue.getLast? with
  | none =>
    have hnone : s.supervisor.queue.bind List.getLast? = none := by rw [hqueue]; exact hfound
    rw [Supervisor.applyQueued_of_none hnone] at hsettings hkept hport
    obtain rfl : current = latest := by simpa [hfound] using hlast
    exact ⟨hs.reloader, hport.trans hs.portOverride, ⟨queue, hkept.trans hqueue, hlast⟩,
      hsettings.trans hs.settings⟩
  | some queued =>
    have hsome : s.supervisor.queue.bind List.getLast? = some queued := by rw [hqueue]; exact hfound
    rw [Supervisor.applyQueued_of_some hsome] at hsettings hkept hport
    obtain rfl : queued = latest := by simpa [hfound] using hlast
    refine ⟨hs.reloader, hport.trans hs.portOverride, ⟨[], hkept, rfl⟩, hsettings.trans ?_⟩
    rw [← hs.portOverride]
    exact Supervisor.override_server _ queued

theorem Follows.perform (hs : s.Follows port current latest) (happening : Happening) :
    (s.perform happening).Follows port (if happening.isPass then latest else current)
      (happening.loaded?.getD latest) := by
  cases happening with
  | fileChange path file => exact hs.onFileChange path file
  | step step hown =>
    cases hpass : step.isPass with
    | true =>
      cases step with
      | pass now idle restart => exact hs.pass now idle restart
      | _ => cases hpass
    | false =>
      obtain ⟨hcontrol, hsettings⟩ :=
        ControlledServer.perform_aside ⟨s.server, s.supervisor⟩ hpass hown
      have hstep : (Happening.step step hown).isPass = false := hpass
      rw [hstep]
      refine ⟨hs.reloader, ?_, ?_, hsettings.trans hs.settings⟩
      · exact (congrArg Supervisor.portOverride hcontrol).trans hs.portOverride
      · obtain ⟨queue, hqueue, hlast⟩ := hs.queued
        exact ⟨queue, (congrArg Supervisor.queue hcontrol).trans hqueue, hlast⟩

theorem follows_reached (port : Option Port) (file : Settings) (document : Document)
    (run : List Happening) :
    (reached (prepare port true file document) run).Follows port (inForce file run)
      (latestLoaded file run) := by
  induction run with
  | nil => exact follows_prepare port file document
  | cons happening earlier ih =>
    rw [latestLoaded_cons]
    exact ih.perform happening

/-- With a port from the command line, no pass changes the port. -/
theorem Follows.same_port {p : Port} (hs : s.Follows (some p) current latest) :
    (s.supervisor.applyQueued s.server).1 = false := by
  cases hqueued : s.supervisor.queue.bind List.getLast? with
  | none => rw [Supervisor.applyQueued_of_none hqueued]
  | some queued =>
    rw [Supervisor.applyQueued_of_some hqueued, Supervisor.override_server, hs.portOverride,
      hs.settings]
    exact decide_eq_false (not_not_intro rfl)

/-! ## The whole way -/

/-- A service that comes up with a configuration file was prepared with
what the file holds, and its server was started. -/
theorem boot_eq_reached {bind : Binder} {port : Option Port} {config : FileContent}
    {document : Option FileContent} {s : Service}
    (hboot : boot bind port (some config) document = .ok s) :
    ∃ file first, Settings.load config = .ok file ∧ file.Valid ∧
      s = reached (prepare port true file first) [.step (.start bind) rfl] := by
  unfold boot at hboot
  cases hload : Settings.load config with
  | error e =>
    have hsettings : loadSettings (some config) = .error (.config e) := by
      simp [loadSettings, hload]
    rw [hsettings] at hboot
    cases hboot
  | ok file =>
    have hsettings : loadSettings (some config) = .ok file := by simp [loadSettings, hload]
    rw [hsettings] at hboot
    cases hdocument : loadDocument document with
    | error e =>
      rw [hdocument] at hboot
      cases hboot
    | ok first =>
      rw [hdocument] at hboot
      refine ⟨file, first, rfl, Settings.valid_of_load hload, ?_⟩
      simp only [Bind.bind, Except.bind] at hboot
      split at hboot
      · next bound server hresult =>
          have hstart : (prepare port true file first).server.start bind = (.ok bound, server) :=
            hresult
          show s = (prepare port true file first).put ((prepare port true file first).supervisor,
            ((prepare port true file first).server.start bind).2)
          rw [hstart]
          exact (Except.ok.inj hboot).symm
      · cases hboot

/-- **The server follows its configuration file.** Whatever the file holds
as it changes, and whatever happens in between: after a pass the server
has the settings of the configuration that was loaded last, on the port
from the command line if there is one. Rejected files do not matter, and
all settings in force come from a valid configuration, the first one or
one that the file has held. With a port from the command line, a pass
makes a restart only for a fault, whatever is queued. -/
theorem hot_reload (port : Option Port) (file : Settings) (hvalid : file.Valid)
    (document : Document) (run : List Happening) :
    let initial := prepare port true file document
    let s := reached initial run
    (∀ now idle restart, (s.perform (.step (.pass now idle restart) rfl)).server.settings =
      (latestLoaded file run).server.onPort port) ∧
    s.server.settings = (reached initial (run.filter (!·.isRejected))).server.settings ∧
    (∃ held : Settings, held.Valid ∧ s.server.settings = held.server.onPort port ∧
      (held = file ∨ ∃ happening ∈ run, happening.loaded? = some held)) ∧
    ∀ p, port = some p → ∀ now idle bind,
      (s.perform (.step (.pass now idle (some bind)) rfl)).server.station.metrics.restarts =
        s.server.station.metrics.restarts +
          if s.server.faulted && idle && s.supervisor.isDue now then 1 else 0 := by
  intro initial s
  have hfollows : s.Follows port (inForce file run) (latestLoaded file run) :=
    follows_reached port file document run
  refine ⟨fun now idle restart => (hfollows.pass now idle restart).settings, ?_, ?_, ?_⟩
  · have haccepted := follows_reached port file document (run.filter (!·.isRejected))
    rw [hfollows.settings, haccepted.settings, inForce_accepted]
  · refine ⟨inForce file run, ?_, hfollows.settings, inForce_origin file run⟩
    obtain hfirst | ⟨happening, _, hloaded⟩ := inForce_origin file run
    · rw [hfirst]
      exact hvalid
    · exact Happening.valid_of_loaded? hloaded
  · rintro p rfl now idle bind
    exact Supervisor.restarts_tick_of_same hfollows.same_port now idle bind

/-- The file changes from one configuration to another, breaks and changes
back, all between two passes. -/
theorem hot_reload_there_and_back :
    let file : Settings := { server := { port := 7001, serviceName := "a" } }
    let content (text : String) : FileContent := .bytes text.toUTF8.toList
    let run : List Happening :=
      [.fileChange "mgmt.toml" (content "[server]\nport = 7001\nservice_name = \"a\"\n"),
        .fileChange "mgmt.toml" (content "[server"),
        .fileChange "mgmt.toml" (content "[server]\nport = 7002\nservice_name = \"b\"\n"),
        .step (.start fun port => .ok port) rfl]
    let initial := prepare (some 7000) true file .empty
    let passed := (reached initial run).perform
      (.step (.pass 6000 true (some fun port => .ok port)) rfl)
    file.Valid ∧ passed.server.settings = { port := 7000, serviceName := "a" } ∧
      passed.server.station.metrics.restarts = 0 := by
  intro file content run initial passed
  have hvalid : file.Valid := by decide +kernel
  obtain ⟨hsettings, _, _, hrestarts⟩ := hot_reload (some 7000) file hvalid .empty run
  have hlatest : latestLoaded file run = file := by decide +kernel
  have hnone : (reached initial run).server.station.metrics.restarts = 0 := by decide +kernel
  have hfaulted : (reached initial run).server.faulted = false := by decide +kernel
  refine ⟨hvalid, (hsettings 6000 true _).trans ?_, (hrestarts 7000 rfl 6000 true _).trans ?_⟩
  · rw [hlatest]
    rfl
  · rw [hnone, hfaulted]
    rfl

end Console.Service

end MuxControl
