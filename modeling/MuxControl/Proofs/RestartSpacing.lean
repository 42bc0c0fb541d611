/-
MuxControl.Proofs.RestartSpacing — how far apart the restarts are that
the control side makes.

A restart runs beside the control side, act by act, as restarts that
overlap do; it may succeed, fail or not have come to its end when the next
pass is made, and the thread for it may not even be had. Whatever else
happens to the server happens between the passes, or in a pass between
the look at the queue and the look at the loop. A pass that nothing comes
into is `Supervisor.tick` (`tick_alone`), and with the acts of its restart
in the right place it is `Supervisor.tick` with a whole restart
(`pass_with_restart`, `settle_tick`); one for another port may as well come
to its end after the pass (`settle_tick_of_changed`).

`Spaced` is what every step keeps: the control side remembers the instant
of the restart it made last, restarts for a loop that is down keep their
distance, and of the restarts made, the last one is over or is the one
that the next pass asks about. `restarts_spaced` says when a pass makes a
restart, and that it never makes two.
-/
import Mathlib.Data.List.Chain
import MuxControl.Proofs.OverlappingRestarts
import MuxControl.Service.Attended

namespace MuxControl

/-! ## Passes with restarts under way -/

/-- A restart for a loop that is down comes long enough after the one
before it. -/
def MadeRestart.Apart (later earlier : MadeRestart) : Prop :=
  later.cause = .loopDown → earlier.instant + restartInterval ≤ later.instant

namespace Attended

/-- What happens beside the passes: an act of a restart or of the loop, or
something else that is done to the server. -/
inductive Aside where
  | act (act : RestartAct Nat)
  | step (step : ControlledServer.Step) (hown : step.isPass = false)

/-- What comes of something beside the passes. -/
def besides (c : Attended) : Aside → Attended
  | .act act => { c with restarts := c.restarts.perform act }
  | .step step _ =>
    let after := ((⟨c.server, c.control⟩ : ControlledServer).perform step).2
    c.put (after.control, after.server)

/-- What comes of several such things; the latest one is the first one
listed. -/
def besidesAll (c : Attended) : List Aside → Attended
  | [] => c
  | aside :: earlier => (c.besidesAll earlier).besides aside

/-- A pass up to the look at the loop. What happens `meanwhile` comes
between the look at the queue and the exchange of documents. -/
def beforeWatch (c : Attended) (now : Instant) (refusal : Option String) (meanwhile : List Aside) :
    Attended :=
  ((c.followSettings now refusal).besidesAll meanwhile).exchange

/-- A pass of the control side, with one reading of the clock: it dates a
restart that is made, and by it the look at the loop measures how far
back the last restart lies. What happens in a pass takes no time. -/
def pass (c : Attended) (now : Instant) (refusal : Option String) (meanwhile : List Aside) :
    Attended :=
  (c.beforeWatch now refusal meanwhile).watchLoop now refusal

/-- A step of a run. -/
inductive Step where
  | aside (aside : Aside)
  | pass (now : Instant) (refusal : Option String) (meanwhile : List Aside)

/-- What comes of a step. -/
def perform (c : Attended) : Step → Attended
  | .aside aside => c.besides aside
  | .pass now refusal meanwhile => c.pass now refusal meanwhile

/-- What comes of a run; its latest step is the first one listed. -/
def reached (initial : Attended) : List Step → Attended
  | [] => initial
  | step :: earlier => (reached initial earlier).perform step

/-! ## Passes that nothing comes into -/

variable {c : Attended} {now : Instant} {refusal : Option String} {meanwhile : List Aside}

theorem followSettings_of_changed (hchanged : (c.control.applyQueued c.server).1 = true) :
    c.followSettings now refusal =
      (c.put (c.control.applyQueued c.server).2).makeRestart now .portChanged refusal := by
  simp [followSettings, hchanged]

theorem followSettings_of_same (hsame : (c.control.applyQueued c.server).1 = false) :
    c.followSettings now refusal = c.put (c.control.applyQueued c.server).2 := by
  simp [followSettings, hsame]

theorem lastRestart_applyQueued (c : Attended) :
    (c.control.applyQueued c.server).2.1.lastRestart = c.control.lastRestart := by
  cases hqueued : c.control.queue.bind List.getLast? with
  | none => rw [Supervisor.applyQueued_of_none hqueued]
  | some queued => rw [Supervisor.applyQueued_of_some hqueued]

theorem server_makeRestart (c : Attended) (now : Instant) (cause : RestartCause)
    (refusal : Option String) :
    (c.makeRestart now cause refusal).server = c.server.missRestart refusal := by
  cases refusal <;> rfl

/-- After a restart just made, the look at the loop comes too early. -/
theorem watchLoop_of_recent (hlast : c.control.lastRestart = some now) :
    c.watchLoop now refusal = c := by
  have hdue : c.control.isDue now = false := by
    simp [Supervisor.isDue, hlast, restartInterval, seconds]
  simp [watchLoop, needsLoop, hdue]

theorem besidesAll_acts (c : Attended) (acts : List (RestartAct Nat)) :
    c.besidesAll (acts.map .act) = { c with restarts := c.restarts.reached acts } := by
  induction acts with
  | nil => rfl
  | cons act earlier ih => simp [besidesAll, besides, ih, Restarts.reached]

/-- A pass that changes the port, when only the acts of restarts come into
it, ends with the exchange of documents. -/
theorem pass_acts (hchanged : (c.control.applyQueued c.server).1 = true)
    (acts : List (RestartAct Nat)) :
    let c' := c.pass now refusal (acts.map .act)
    (c'.control, c'.server) =
      { (c.control.applyQueued c.server).2.1 with lastRestart := some now }.exchange
        ((c.followSettings now refusal).restarts.reached acts).server := by
  intro c'
  have hlast : (c.beforeWatch now refusal (acts.map .act)).control.lastRestart = some now := by
    rw [beforeWatch, besidesAll_acts, followSettings_of_changed hchanged]
    rfl
  show (((c.beforeWatch now refusal (acts.map .act)).watchLoop now refusal).control,
    ((c.beforeWatch now refusal (acts.map .act)).watchLoop now refusal).server) = _
  rw [watchLoop_of_recent hlast, beforeWatch, besidesAll_acts, followSettings_of_changed hchanged]
  rfl

/-- A pass that nothing comes into. -/
theorem pass_nil (c : Attended) (now : Instant) (refusal : Option String) :
    c.pass now refusal [] = c.tick now refusal := rfl

/-- A pass that does not change the port and that nothing comes into ends
with the look at the loop. -/
theorem tick_of_same (hsame : (c.control.applyQueued c.server).1 = false) (now : Instant)
    (refusal : Option String) :
    c.tick now refusal =
      let c' := (c.put (c.control.applyQueued c.server).2).exchange
      if c.needsLoop now then
        (c'.put (c'.control, c'.server.mapStation (·.report [.loopDown]))).makeRestart now
          .loopDown refusal
      else c' := by
  let c' := (c.put (c.control.applyQueued c.server).2).exchange
  have hfaulted : c'.server.faulted = c.server.faulted :=
    (Supervisor.sameStatus_exchange _ _).faulted.trans
      (Supervisor.sameStatus_applyQueued c.control c.server).faulted
  have hdue : c'.control.isDue now = c.control.isDue now := by
    show (c.control.applyQueued c.server).2.1.isDue now = _
    rw [Supervisor.isDue, lastRestart_applyQueued, ← Supervisor.isDue]
  have hidle : c'.isIdle = c.isIdle := rfl
  rw [tick, followSettings_of_same hsame]
  show c'.watchLoop now refusal = _
  rw [watchLoop, needsLoop, hfaulted, hdue, hidle, ← needsLoop]

/-- A pass that nothing comes into is a pass whose restart has not begun
when it is over. -/
theorem tick_alone (c : Attended) (now : Instant) (refusal : Option String) :
    ((c.tick now refusal).control, (c.tick now refusal).server) =
      c.control.tick now c.isIdle (Server.missRestart refusal) c.server := by
  cases hchanged : (c.control.applyQueued c.server).1 with
  | true =>
    rw [Supervisor.tick_of_changed hchanged]
    refine (pass_acts hchanged []).trans ?_
    rw [followSettings_of_changed hchanged]
    show Supervisor.exchange _ (Attended.makeRestart _ now .portChanged refusal).server = _
    rw [server_makeRestart]
    rfl
  | false =>
    rw [Supervisor.tick_of_same hchanged, tick_of_same hchanged, ← needsLoop]
    by_cases hneeded : c.needsLoop now = true
    · simp only [hneeded, if_true]
      rw [server_makeRestart]
      rfl
    · simp only [hneeded]
      rfl

/-! ## Restarts that come to their ends -/

/-- The acts of the restart that is made next, from its beginning to its
end. -/
def whole (c : Attended) (bind : Binder) : List (RestartAct Nat) :=
  Restarts.alone c.made.length bind

/-- A restart for another port that comes to its end before the documents
are exchanged. -/
theorem pass_with_restart (hchanged : (c.control.applyQueued c.server).1 = true) (bind : Binder) :
    let c' := c.pass now none ((c.whole bind).map .act)
    (c'.control, c'.server) = c.control.tick now c.isIdle (Server.restart bind) c.server := by
  intro c'
  have hstage : (c.followSettings now none).restarts.stage c.made.length = .checking := by
    rw [followSettings_of_changed hchanged]
    exact Restarts.stage_move_self _ _ _ _
  have hserver : (c.followSettings now none).restarts.server =
      (c.control.applyQueued c.server).2.2 := by
    rw [followSettings_of_changed hchanged]
    rfl
  refine (pass_acts hchanged (c.whole bind)).trans ?_
  rw [Supervisor.tick_of_changed hchanged, whole, Restarts.restart_alone hstage, hserver]

/-- The restart that is made next is under way with those that are. -/
theorem underWay_makeRestart (c : Attended) (now : Instant) (cause : RestartCause) :
    (c.makeRestart now cause none).underWay = c.underWay ++ [c.made.length] := by
  have hearlier : ∀ n ∈ List.range c.made.length,
      (c.makeRestart now cause none).restarts.stage n = c.restarts.stage n := by
    intro n hn
    exact Restarts.stage_move_of_ne _ _ _ _ (List.mem_range.mp hn).ne
  have hnext : (c.makeRestart now cause none).restarts.stage c.made.length = .checking :=
    Restarts.stage_move_self _ _ _ _
  have hmade : (c.makeRestart now cause none).made.length = c.made.length + 1 := rfl
  rw [underWay, hmade, List.range_succ, List.filter_append,
    List.filter_congr fun n hn => by rw [hearlier n hn]]
  simp [underWay, hnext]

/-- The only restart under way, when it comes to its end. -/
theorem settle_of_underWay {n : Nat} (hunderWay : c.underWay = [n])
    (hstage : c.restarts.stage n = .checking) (bind : Binder) :
    (c.settle bind).server = c.server.restart bind := by
  rw [settle, hunderWay]
  exact Restarts.restart_alone hstage bind

/-- A restart that has just been made, when it comes to its end with no
other one under way. -/
theorem settle_makeRestart (hsettled : c.underWay = []) (now : Instant) (cause : RestartCause)
    (bind : Binder) :
    ((c.makeRestart now cause none).settle bind).server = c.server.restart bind := by
  have hunderWay : (c.makeRestart now cause none).underWay = [c.made.length] := by
    rw [underWay_makeRestart, hsettled, List.nil_append]
  rw [settle_of_underWay hunderWay (Restarts.stage_move_self _ _ _ _), server_makeRestart]
  rfl

/-- A restart for a loop that is down, made at the end of a pass, when it
comes to its end with no other one under way. -/
theorem settle_tick (hsame : (c.control.applyQueued c.server).1 = false)
    (hneeded : c.needsLoop now = true) (hsettled : c.underWay = []) (bind : Binder) :
    let c' := (c.tick now none).settle bind
    (c'.control, c'.server) = c.control.tick now c.isIdle (Server.restart bind) c.server := by
  intro c'
  rw [Supervisor.tick_of_same hsame, ← needsLoop]
  simp only [c', tick_of_same hsame, hneeded, if_true]
  refine Prod.ext rfl ?_
  exact settle_makeRestart (c := (c.put _).exchange.put _) hsettled now .loopDown bind

/-- A restart for another port, when it comes to its end after the pass
with no other one under way: the documents were exchanged before it. -/
theorem settle_tick_of_changed (hchanged : (c.control.applyQueued c.server).1 = true)
    (hsettled : c.underWay = []) (bind : Binder) :
    ((c.tick now none).settle bind).server =
      (c.control.tick now c.isIdle id c.server).2.restart bind := by
  let c' := (c.put (c.control.applyQueued c.server).2).makeRestart now .portChanged none
  have htick : c.tick now none = c'.exchange := by
    rw [tick, followSettings_of_changed hchanged]
    exact watchLoop_of_recent rfl
  have hunderWay : c'.exchange.underWay = [c.made.length] := by
    show c'.underWay = _
    rw [underWay_makeRestart]
    exact congrArg (· ++ [c.made.length]) hsettled
  have hstage : c'.exchange.restarts.stage c.made.length = .checking :=
    Restarts.stage_move_self _ _ _ (c.control.applyQueued c.server).2.2
  have hserver : (c.tick now none).server = (c.control.tick now c.isIdle id c.server).2 :=
    congrArg Prod.snd (tick_alone c now none)
  rw [← hserver, htick, settle_of_underWay hunderWay hstage]

/-- Restarts that come to their ends one after the other are over, as are
those that were over before. -/
theorem stage_settled (bind : Binder) {n : Nat} : ∀ (ns : List Nat) (r : Restarts Nat),
    n ∈ ns ∨ r.stage n = .done →
      (ns.foldl (fun r m => r.reached (Restarts.alone m bind)) r).stage n = .done
  | [], _, hn => hn.resolve_left List.not_mem_nil
  | m :: later, r, hn => by
    refine stage_settled bind later _ ?_
    rcases hn with hmem | hover
    · rcases List.mem_cons.mp hmem with rfl | hlater
      · exact .inr (r.stage_alone n bind)
      · exact .inl hlater
    · exact .inr (Restarts.stage_reached_of_done hover _)

/-- Nothing is under way any more when all restarts have come to their
ends. -/
theorem underWay_settle (c : Attended) (bind : Binder) : (c.settle bind).underWay = [] := by
  refine List.filter_eq_nil_iff.mpr fun n hn => ?_
  have hover : (c.settle bind).restarts.stage n = .done := by
    refine stage_settled bind c.underWay c.restarts ?_
    by_cases hover : c.restarts.stage n = .done
    · exact .inr hover
    · exact .inl (List.mem_filter.mpr ⟨hn, decide_eq_true hover⟩)
  simp [hover]

/-! ## What happens beside the restarts that are made -/

/-- What makes no restart: the control side remembers the same one, and a
restart that is over stays over. -/
structure Keeps (c c' : Attended) : Prop where
  lastRestart : c'.control.lastRestart = c.control.lastRestart
  made : c'.made = c.made
  latest : c'.latest = c.latest
  stayOver : ∀ n, c.restarts.stage n = .done → c'.restarts.stage n = .done

variable {c' c'' : Attended}

theorem Keeps.refl (c : Attended) : c.Keeps c := ⟨rfl, rfl, rfl, fun _ hover => hover⟩

theorem Keeps.trans (hfirst : c.Keeps c') (hsecond : c'.Keeps c'') : c.Keeps c'' where
  lastRestart := hsecond.lastRestart.trans hfirst.lastRestart
  made := hsecond.made.trans hfirst.made
  latest := hsecond.latest.trans hfirst.latest
  stayOver n hover := hsecond.stayOver n (hfirst.stayOver n hover)

theorem keeps_put {after : Supervisor × Server}
    (hlast : after.1.lastRestart = c.control.lastRestart) : c.Keeps (c.put after) :=
  ⟨hlast, rfl, rfl, fun _ hover => hover⟩

theorem keeps_besides (c : Attended) (aside : Aside) : c.Keeps (c.besides aside) := by
  cases aside with
  | act act => exact ⟨rfl, rfl, rfl, fun _ hover => Restarts.stage_perform_of_done hover act⟩
  | step step hown =>
    refine keeps_put ?_
    cases step with
    | pass => cases hown
    | _ => rfl

theorem keeps_besidesAll (c : Attended) (asides : List Aside) :
    c.Keeps (c.besidesAll asides) := by
  induction asides with
  | nil => exact .refl c
  | cons aside earlier ih => exact ih.trans (keeps_besides _ aside)

theorem keeps_exchange (c : Attended) : c.Keeps c.exchange := keeps_put rfl

theorem keeps_applyQueued (c : Attended) :
    c.Keeps (c.put (c.control.applyQueued c.server).2) :=
  keeps_put (lastRestart_applyQueued c)

/-- What a pass does up to the look at the loop, once the settings are
followed. -/
theorem keeps_beforeWatch (c : Attended) (now : Instant) (refusal : Option String)
    (meanwhile : List Aside) :
    (c.followSettings now refusal).Keeps (c.beforeWatch now refusal meanwhile) :=
  (keeps_besidesAll _ meanwhile).trans (keeps_exchange _)

/-! ## The restarts that a pass makes -/

/-- What holds between the steps. The control side remembers the restart
that it made last, and restarts for a loop that is down keep their
distance. A restart that is not made does nothing; the one made last is
the one the next pass asks about, or it is over. -/
structure Spaced (c : Attended) : Prop where
  last : c.control.lastRestart = c.made.head?.map MadeRestart.instant
  apart : c.made.IsChain MadeRestart.Apart
  unmade : ∀ n, c.made.length ≤ n → c.restarts.stage n = .done
  latest : ∀ n, c.made.length = n + 1 → c.latest = some n ∨ c.restarts.stage n = .done

theorem Spaced.keeps (hspaced : c.Spaced) (hkeeps : c.Keeps c') : c'.Spaced where
  last := by rw [hkeeps.lastRestart, hkeeps.made, hspaced.last]
  apart := hkeeps.made ▸ hspaced.apart
  unmade n hn := hkeeps.stayOver n (hspaced.unmade n (hkeeps.made ▸ hn))
  latest n hn := by
    rw [hkeeps.latest]
    exact (hspaced.latest n (hkeeps.made ▸ hn)).imp_right (hkeeps.stayOver n)

theorem restartInterval_le_sub_iff (last now : Nat) :
    restartInterval ≤ now - last ↔ last + restartInterval ≤ now := by
  have hpos : 0 < restartInterval := by decide
  omega

/-- A restart is due just if the one before it lies far enough back. -/
theorem Spaced.isDue_iff (hspaced : c.Spaced) (now : Instant) :
    c.control.isDue now = true ↔
      ∀ last ∈ c.made.head?, last.instant + restartInterval ≤ now := by
  rw [Supervisor.isDue, hspaced.last]
  cases c.made.head? with
  | none => simp
  | some last => simpa using restartInterval_le_sub_iff last.instant now

theorem Spaced.needsLoop_iff (hspaced : c.Spaced) (now : Instant) :
    c.needsLoop now = true ↔ c.server.faulted = true ∧ c.isIdle = true ∧
      ∀ last ∈ c.made.head?, last.instant + restartInterval ≤ now := by
  rw [needsLoop, Bool.and_eq_true, Bool.and_eq_true, hspaced.isDue_iff, and_assoc]

theorem Spaced.makeRestart (hspaced : c.Spaced) {cause : RestartCause}
    (hapart : ∀ last ∈ c.made.head?, MadeRestart.Apart ⟨now, cause⟩ last) (refusal : Option String) :
    (c.makeRestart now cause refusal).Spaced where
  last := rfl
  apart := List.isChain_cons.mpr ⟨hapart, hspaced.apart⟩
  unmade n hn := by
    have hlater : c.made.length < n := hn
    have hover := hspaced.unmade n hlater.le
    cases refusal with
    | none => exact (Restarts.stage_move_of_ne _ _ _ _ hlater.ne').trans hover
    | some reason => exact hover
  latest n hn := by
    obtain rfl : c.made.length = n := Nat.succ.inj hn
    cases refusal with
    | none => exact .inl rfl
    | some reason => exact .inr (hspaced.unmade _ le_rfl)

theorem Spaced.followSettings (hspaced : c.Spaced) (now : Instant) (refusal : Option String) :
    (c.followSettings now refusal).Spaced := by
  have hput := hspaced.keeps (keeps_applyQueued c)
  cases hchanged : (c.control.applyQueued c.server).1 with
  | true =>
    rw [followSettings_of_changed hchanged]
    exact hput.makeRestart (fun _ _ hcause => by cases hcause) refusal
  | false =>
    rw [followSettings_of_same hchanged]
    exact hput

theorem Spaced.watchLoop (hspaced : c.Spaced) (now : Instant) (refusal : Option String) :
    (c.watchLoop now refusal).Spaced := by
  unfold Attended.watchLoop
  split
  · next hneeded =>
    obtain ⟨_, _, hfar⟩ := (hspaced.needsLoop_iff now).mp hneeded
    refine (hspaced.keeps (keeps_put rfl)).makeRestart ?_ refusal
    intro last hlast _
    exact hfar last hlast
  · exact hspaced

theorem Spaced.beforeWatch (hspaced : c.Spaced) (now : Instant) (refusal : Option String)
    (meanwhile : List Aside) : (c.beforeWatch now refusal meanwhile).Spaced :=
  (hspaced.followSettings now refusal).keeps (keeps_beforeWatch c now refusal meanwhile)

theorem Spaced.perform (hspaced : c.Spaced) (step : Step) : (c.perform step).Spaced := by
  cases step with
  | aside aside => exact hspaced.keeps (keeps_besides c aside)
  | pass now refusal meanwhile =>
    exact (hspaced.beforeWatch now refusal meanwhile).watchLoop now refusal

/-- The loop ends by itself. The restart that follows does not get the
port, and the next one is not made before the interval is over. -/
example :
    let s : Server :=
      { settings := { port := 7001 }
        station := { handoff := .start .empty, roster := { limits := {} } } }
    let failing : List Step :=
      (Restarts.alone 0 fun _ => .error "in use").map fun act => .aside (.act act)
    (reached (initial s { live := .empty, settings := {} })
        (.pass 6000 none [] :: .pass 5999 none [] :: failing ++ [.pass 1000 none [],
          .aside (.step .endLoop rfl), .aside (.step (.start fun port => .ok port) rfl)])).made =
      [⟨6000, .loopDown⟩, ⟨1000, .loopDown⟩] := by
  decide +kernel

end Attended

end MuxControl
