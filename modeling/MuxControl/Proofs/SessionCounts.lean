/-
MuxControl.Proofs.SessionCounts — what a session adds to the counters.

The counters of a family are added up over the labels that are meant
(`Metrics.sum`); counting one up adds one to the sums that it belongs to
(`sum_bump`).

A session reads one command and counts it then, and whatever else happens
to it, it counts nothing by itself. How far it comes always agrees with
the command that it has read (`Progress.Fits`): before there is one, it
can fail over the line, the time or the sending, and only a command that
pushes or fetches the document leads to the errors of those.
`counts_deed` says so for everything that may happen to a session.
-/
import MuxControl.Proofs.LiveDocument
import Mathlib.Algebra.Ring.Nat

namespace MuxControl

open Wire

/-! ## Families of counters -/

namespace Metrics

/-- The sum of the counters whose labels are meant. -/
def sum (meant : String → Bool) (family : List (String × Nat)) : Nat :=
  ((family.filter fun entry => meant entry.1).map Prod.snd).sum

/-- The counter of a label. -/
def count (label : String) (family : List (String × Nat)) : Nat :=
  (Keyed.get? label family).getD 0

/-- All sessions that failed; a connection that could not be accepted is
none of them. -/
def failures (m : Metrics) : Nat := sum (fun kind => kind ≠ "accept") m.sessionErrors

variable {meant : String → Bool} {label : String} {family : List (String × Nat)}

theorem sum_cons (meant : String → Bool) (entry : String × Nat) (family : List (String × Nat)) :
    sum meant (entry :: family) = (if meant entry.1 then entry.2 else 0) + sum meant family := by
  unfold sum
  rw [List.filter_cons]
  cases meant entry.1 <;> simp

/-- Sums over labels of which none is meant twice add up. -/
theorem sum_add_sum {other : String → Bool} (hapart : ∀ label, ¬ (meant label ∧ other label))
    (family : List (String × Nat)) :
    sum meant family + sum other family = sum (fun label => meant label || other label) family := by
  induction family with
  | nil => rfl
  | cons entry rest ih =>
    have hnot := hapart entry.1
    simp only [sum_cons, ← ih]
    cases hmeant : meant entry.1 with
    | false =>
      simp only [Bool.false_eq_true, if_false, Bool.false_or]
      omega
    | true =>
      have hother : other entry.1 = false := by simpa [hmeant] using hnot
      simp only [hother, Bool.false_eq_true, if_false, if_true, Bool.or_false]
      omega

theorem count_eq_zero (hfresh : label ∉ Keyed.keys family) : count label family = 0 := by
  unfold count
  cases hget : Keyed.get? label family with
  | none => rfl
  | some n => exact absurd (List.mem_map_of_mem (Keyed.mem_of_get? hget)) hfresh

theorem sum_eq_zero (hnone : ∀ label ∈ Keyed.keys family, meant label = false) :
    sum meant family = 0 := by
  induction family with
  | nil => rfl
  | cons entry rest ih =>
    have hfirst : meant entry.1 = false := hnone entry.1 List.mem_cons_self
    rw [sum_cons, hfirst, ih fun label hmem => hnone label (List.mem_cons_of_mem _ hmem)]
    rfl

/-- The counter of a label is the sum over it alone. -/
theorem count_eq_sum (hordered : Keyed.Ordered family) (label : String) :
    count label family = sum (fun other => other = label) family := by
  induction family with
  | nil => rfl
  | cons entry rest ih =>
    obtain ⟨k, n⟩ := entry
    obtain ⟨hfirst, hrest⟩ := List.pairwise_cons.mp hordered
    rw [sum_cons]
    by_cases heq : label = k
    · subst heq
      have hothers : sum (fun other => other = label) rest = 0 := by
        apply sum_eq_zero
        intro other hmem
        have hne : other ≠ label := by
          rintro rfl
          exact String.lt_irrefl other (hfirst other hmem)
        simp [hne]
      simp [count, Keyed.get?, hothers]
    · rw [← ih hrest]
      simp [count, Keyed.get?, heq, Ne.symm heq]

/-- Binding a label anew replaces its counter. -/
theorem sum_put (hordered : Keyed.Ordered family) (label : String) (n : Nat) :
    sum meant (Keyed.put label n family) + (if meant label then count label family else 0) =
      sum meant family + if meant label then n else 0 := by
  induction family with
  | nil =>
    simp only [Keyed.put, sum_cons, count, Keyed.get?, Option.getD_none]
    cases meant label <;> simp [Nat.add_comm]
  | cons entry rest ih =>
    obtain ⟨k, m⟩ := entry
    obtain ⟨hfirst, hrest⟩ := List.pairwise_cons.mp hordered
    by_cases hlt : label < k
    · -- The label stands before all others, so it had no counter.
      have hfresh : count label ((k, m) :: rest) = 0 := by
        apply count_eq_zero
        intro hmem
        rcases List.mem_cons.mp hmem with rfl | hlater
        · exact String.lt_irrefl _ hlt
        · exact String.lt_irrefl label (String.lt_trans hlt (hfirst label hlater))
      rw [hfresh, Keyed.put, if_pos hlt, sum_cons]
      cases meant label <;> simp [Nat.add_comm]
    · by_cases heq : label = k
      · subst heq
        simp only [Keyed.put, String.lt_irrefl, if_false, if_true, sum_cons, count, Keyed.get?,
          Option.getD_some]
        cases meant label <;> simp
        omega
      · have hlater := ih hrest
        simp only [Keyed.put, hlt, heq, if_false, sum_cons, count, Keyed.get?] at hlater ⊢
        omega

/-- **Counting up** adds one to the sums that the label belongs to. -/
theorem sum_bump (hordered : Keyed.Ordered family) :
    sum meant (bump label family) = sum meant family + if meant label then 1 else 0 := by
  have hput : sum meant (Keyed.put label (count label family + 1) family) + _ = _ :=
    sum_put hordered label (count label family + 1)
  show sum meant (Keyed.put label (count label family + 1) family) = _
  cases hmeant : meant label <;> simp only [hmeant, Bool.false_eq_true, if_false, if_true] at hput ⊢
  · exact hput
  · omega

end Metrics

/-! ## What agrees with the command that was read -/

/-- Where a session stands agrees with the command that it has read. -/
def Stage.Fits (stage : Stage) (command : Option Command) : Prop :=
  match stage with
  | .command => command = none
  | .document => command = some .setTree
  | .answer _ => command = some .getTree

/-- An error agrees with the command that the session has read. The
sending may fail at any time. -/
def SessionError.Fits (e : SessionError) (command : Option Command) : Prop :=
  match e with
  | .io _ => True
  | .line _ => command = none ∨ command = some .setTree
  | .document _ => command = some .setTree
  | .render _ => False
  | .timedOut .command => command = none
  | .timedOut .document => command = some .setTree ∨ command = some .getTree
  | .disconnected => command = some .getTree
  | .withdrawn => command = some .getTree

/-- How far a session has come agrees with the command that it has read:
none is done without one. -/
def Progress.Fits (progress : Progress) (command : Option Command) : Prop :=
  match progress with
  | .waiting session => session.stage.Fits command
  | .finished (.ok ()) => command ≠ none
  | .finished (.error e) => e.Fits command

/-- No session fails in the way in which a connection cannot be accepted. -/
theorem SessionError.kind_ne_accept (e : SessionError) : e.kind ≠ "accept" := by
  cases e <;> simp [kind]

/-- An error that a session can fail with before it has read a command. -/
def SessionError.isEarly : SessionError → Bool
  | .io _ => true
  | .line _ => true
  | .timedOut .command => true
  | _ => false

theorem SessionError.isEarly_of_fits {error : SessionError} (hfits : error.Fits none) :
    error.isEarly = true := by
  cases error with
  | io reason => rfl
  | line error => rfl
  | timedOut what =>
    cases what with
    | command => rfl
    | document => simp [SessionError.Fits] at hfits
  | document error => cases hfits
  | render reason => cases hfits
  | disconnected => cases hfits
  | withdrawn => cases hfits

/-! ## What happens to a session -/

/-- What may happen to a session that is not over. -/
inductive Deed where
  | receive (now : Instant) (bytes : Bytes)
  | endInput (now : Instant)
  | proceed (now : Instant)
  | breakOff (reason : String)
  | expire
  | lose (reason : String)

namespace Deed

/-- The session with what a deed brings it, if it goes on then. -/
def feed? (session : Session) : Deed → Option Session
  | .receive _ bytes => some { session with unread := session.unread ++ bytes }
  | .endInput _ => some { session with ended := true }
  | .proceed _ => some session
  | _ => none

/-- What comes of a deed. Once the client can be sent nothing, the session
notices when it tries. -/
def act (deed : Deed) (session : Session) (station : Station) : Advance :=
  match deed with
  | .receive now bytes => { session with unread := session.unread ++ bytes }.advance now station
  | .endInput now => { session with ended := true }.advance now station
  | .proceed now => session.advance now station
  | .breakOff reason => session.breakOff reason station
  | .expire => session.expire station
  | .lose reason => { session with writeFault := some reason }.wait station

/-- The command that the session reads in a deed. -/
def command? (deed : Deed) (session : Session) : Option Command :=
  (deed.feed? session).bind fun fed => fed.nextCommand?.map Prod.fst

end Deed

/-! ## What a session counts -/

/-- A session that may have read a command before comes to something: it
counts the command that it reads now and nothing else, and how far it
comes agrees with the command. -/
structure Counts (before : Metrics) (command read : Option Command) (a : Advance) : Prop where
  metrics : a.station.metrics = read.elim before fun command => before.countCommand command.label
  once : read ≠ none → command = none
  fits : a.progress.Fits (command.or read)

namespace Session

variable {s : Session} {now : Instant} {station : Station} {command : Option Command}

/-- Nothing is read. -/
theorem counts_aside {a : Advance} (hmetrics : a.station.metrics = station.metrics)
    (hfits : a.progress.Fits command) : Counts station.metrics command none a where
  metrics := hmetrics
  once hread := absurd rfl hread
  fits := by rwa [Option.or_none]

theorem counts_close (s : Session) (answer : String) (station : Station) (command : Command) :
    Counts station.metrics (some command) none (s.close answer station) := by
  unfold close
  split
  · exact counts_aside rfl (Option.some_ne_none command)
  · exact counts_aside rfl trivial

theorem counts_awaitAnswer (s : Session) (ticket : Ticket) (station : Station) :
    Counts station.metrics (some .getTree) none (s.awaitAnswer ticket station) := by
  unfold awaitAnswer
  split
  · next document _ => exact counts_close s _ (station.mapHandoff (·.abandon ticket)) .getTree
  · exact counts_aside rfl rfl
  · exact counts_aside rfl rfl

theorem counts_awaitDocument (s : Session) (station : Station) :
    Counts station.metrics (some .setTree) none (s.awaitDocument station) := by
  unfold awaitDocument
  split
  · exact counts_aside rfl rfl
  · exact counts_aside rfl (.inr rfl)
  · next line rest _ =>
    simp only
    split
    · exact counts_close rest "" (station.report _) .setTree
    · split
      · exact counts_aside rfl rfl
      · next document _ =>
        exact counts_close rest "" (station.mapHandoff (·.push document)) .setTree

theorem counts_obey (s : Session) (now : Instant) (command : Command) (station : Station) :
    Counts station.metrics (some command) none (s.obey now command station) := by
  cases command with
  | config =>
    exact counts_close s _ { station with roster := station.roster.renderConfig.2 } .config
  | values =>
    exact counts_close s _ { station with roster := station.roster.renderValues.2 } .values
  | state =>
    exact counts_close s _ { station with roster := (station.roster.renderState now).2 } .state
  | setTree => exact counts_awaitDocument s station
  | getTree => exact counts_awaitAnswer s _ station.request.2
  | unknown line => exact counts_close s _ (station.report _) (.unknown line)

/-- What a session counts when it goes on. -/
theorem counts_advance (hfits : s.stage.Fits command) (now : Instant) (station : Station) :
    Counts station.metrics command (s.nextCommand?.map Prod.fst) (s.advance now station) := by
  unfold advance
  cases hstage : s.stage with
  | answer ticket =>
    rw [hstage] at hfits
    obtain rfl : command = some .getTree := hfits
    have hnone : s.nextCommand? = none := by simp [nextCommand?, hstage]
    rw [hnone]
    exact counts_awaitAnswer s ticket station
  | document =>
    rw [hstage] at hfits
    obtain rfl : command = some .setTree := hfits
    have hnone : s.nextCommand? = none := by simp [nextCommand?, hstage]
    rw [hnone]
    exact counts_awaitDocument s station
  | command =>
    have hwait : Counts station.metrics command none (s.wait station) := counts_aside rfl hfits
    rw [hstage] at hfits
    obtain rfl : command = none := hfits
    unfold awaitCommand
    cases hline : s.takeLine? with
    | none =>
      have hnone : s.nextCommand? = none := by simp [nextCommand?, hline]
      rw [hnone]
      exact hwait
    | some read =>
      obtain ⟨result, rest⟩ := read
      cases result with
      | error e =>
        have hnone : s.nextCommand? = none := by simp [nextCommand?, hline]
        rw [hnone]
        exact counts_aside rfl (.inl rfl)
      | ok line =>
        have hnext : s.nextCommand? = some (Command.ofLine (line.getD ""), rest) := by
          simp [nextCommand?, hstage, hline]
        obtain ⟨hmetrics, _, hdone⟩ := counts_obey rest now (Command.ofLine (line.getD ""))
          (station.mapMetrics (·.countCommand (Command.ofLine (line.getD "")).label))
        rw [hnext]
        exact ⟨hmetrics, fun _ => rfl, hdone⟩

theorem metrics_letGo (s : Session) (station : Station) :
    (s.letGo station).metrics = station.metrics := by
  unfold letGo
  split <;> rfl

/-- **What a session counts.** Whatever happens to a session, it counts
the command that it reads then, if there is one, and nothing else. -/
theorem counts_deed (hfits : s.stage.Fits command) (deed : Deed) (station : Station) :
    Counts station.metrics command (deed.command? s) (deed.act s station) := by
  cases deed with
  | receive now bytes => exact counts_advance (by exact hfits) now station
  | endInput now => exact counts_advance (by exact hfits) now station
  | proceed now => exact counts_advance hfits now station
  | breakOff reason =>
    refine counts_aside (metrics_letGo s station) ?_
    cases hstage : s.stage <;> rw [hstage] at hfits <;>
      simp only [Deed.act, breakOff, hstage]
    case command => exact .inl hfits
    case document => exact .inr hfits
    case answer ticket => exact hfits
  | expire =>
    refine counts_aside (metrics_letGo s station) ?_
    cases hstage : s.stage <;> rw [hstage] at hfits <;>
      simp only [Deed.act, expire, hstage]
    case command => exact hfits
    case document => exact .inl hfits
    case answer ticket => exact .inr hfits
  | lose reason => exact counts_aside rfl hfits

/-- A session that greets its client counts nothing. -/
theorem counts_greet (hstage : s.stage = .command) (station : Station) :
    Counts station.metrics none none (s.greet station) := by
  have hwaits : s.stage.Fits none := by rw [hstage]; rfl
  unfold greet
  split
  · exact counts_aside rfl hwaits
  · exact counts_aside rfl trivial

end Session

end MuxControl
