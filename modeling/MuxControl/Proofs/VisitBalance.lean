/-
MuxControl.Proofs.VisitBalance — the counters and the visits of clients.

Each connection that is accepted is a visit, with the command that was
read in it, how it ended, and what the steps of its session have added to
the failures that are counted. `Balanced` says that the counters are those
of the visits, for any labels that are meant.

The counters stay balanced when a connection is accepted, when a command
is read in a visit that is not over (`Balanced.read`) and when such a
visit ends (`Balanced.finish`); so they do whatever its session comes to
(`Balanced.goOn`). How many visits there are in all does not matter, nor
in which order they are listed.

What balanced counters say of each other is read off the visits: errors
that only follow certain commands are not counted more often than these
(`Balanced.sum_errors_le`).
-/
import MuxControl.Proofs.SessionCounts

namespace MuxControl

open Wire

/-! ## Visits -/

/-- How a visit ended. -/
inductive Ending where
  | completed
  | failed (error : SessionError)
  | cancelled
deriving DecidableEq, Repr, Inhabited

namespace Ending

/-- The error that a visit ended with. -/
def error? : Ending → Option SessionError
  | .failed error => some error
  | _ => none

/-- An ending agrees with the command that was read. -/
def Fits (ending : Ending) (command : Option Command) : Prop :=
  match ending with
  | .completed => command ≠ none
  | .failed error => error.Fits command
  | .cancelled => True

/-- The counters once an ending is counted. -/
def counted (ending : Ending) (m : Metrics) : Metrics :=
  ending.error?.elim m fun error => m.countSessionError error.kind

end Ending

/-- The ending that a session has come to. -/
def Progress.ending? : Progress → Option Ending
  | .waiting _ => none
  | .finished (.ok ()) => some .completed
  | .finished (.error error) => some (.failed error)

/-- A visit: the command that was read, how it ended, and the failures
that were counted in the steps of its session. -/
structure Visit where
  command : Option Command := none
  ending : Option Ending := none
  failures : Nat := 0
deriving DecidableEq, Repr, Inhabited

namespace Visit

/-- Whether a command was read whose label is meant. -/
def labelled (meant : String → Bool) (v : Visit) : Bool :=
  v.command.any fun command => meant command.label

/-- The error that the visit ended with. -/
def error? (v : Visit) : Option SessionError := v.ending.bind Ending.error?

/-- Whether the visit ended with an error whose kind is meant. -/
def failedWith (meant : String → Bool) (v : Visit) : Bool :=
  v.error?.any fun error => meant error.kind

/-- Whether the visit is over. -/
def isOver (v : Visit) : Bool := v.ending.isSome

/-- The ending of a visit, if it has one, agrees with the command, and the
visit has added one failure if it ended with an error and none otherwise. -/
structure Sound (v : Visit) : Prop where
  fits : ∀ ending, v.ending = some ending → ending.Fits v.command
  failures : v.failures = if v.error?.isSome then 1 else 0

/-- The visit after its session has come to something. -/
def goOn (v : Visit) (read : Option Command) (before after : Metrics) (progress : Progress) :
    Visit where
  command := v.command.or read
  ending := progress.ending?
  failures := v.failures + (after.failures - before.failures)

/-- The visit with an ending. -/
def finish (v : Visit) (ending : Ending) : Visit :=
  { v with
    ending := some ending
    failures := v.failures + if ending.error?.isSome then 1 else 0 }

end Visit

/-- The station once it is recorded how far a session has come. -/
def Advance.settled (a : Advance) (connection : ConnectionId) : Station :=
  match a.progress with
  | .waiting _ => a.station
  | .finished result => a.station.recordEnd connection result

/-! ## The balance -/

/-- The same connections, commands and failures are counted. -/
structure Metrics.Agrees (m m' : Metrics) : Prop where
  connections : m'.connections = m.connections
  commands : m'.commands = m.commands
  sessionErrors : m'.sessionErrors = m.sessionErrors

/-- The counters are those of the visits. -/
structure Balanced (m : Metrics) (visits : List Visit) : Prop where
  connections : m.connections = visits.length
  commands : ∀ meant, Metrics.sum meant m.commands = visits.countP (Visit.labelled meant)
  errors : ∀ meant, meant "accept" = false →
    Metrics.sum meant m.sessionErrors = visits.countP (Visit.failedWith meant)
  ordered : Keyed.Ordered m.commands ∧ Keyed.Ordered m.sessionErrors
  sound : ∀ v ∈ visits, v.Sound

namespace Balanced

variable {m m' : Metrics} {visits rest : List Visit} {v : Visit}

theorem nil : Balanced {} [] where
  connections := rfl
  commands _ := rfl
  errors _ _ := rfl
  ordered := ⟨Keyed.ordered_nil, Keyed.ordered_nil⟩
  sound _ hmem := absurd hmem List.not_mem_nil

theorem agrees (hbalanced : Balanced m visits) (hagrees : m.Agrees m') : Balanced m' visits where
  connections := hagrees.connections.trans hbalanced.connections
  commands meant := by rw [hagrees.commands, hbalanced.commands]
  errors meant hmeant := by rw [hagrees.sessionErrors, hbalanced.errors meant hmeant]
  ordered := by rw [hagrees.commands, hagrees.sessionErrors]; exact hbalanced.ordered
  sound := hbalanced.sound

theorem perm {visits' : List Visit} (hbalanced : Balanced m visits)
    (hperm : visits.Perm visits') : Balanced m visits' where
  connections := hbalanced.connections.trans hperm.length_eq
  commands meant := (hbalanced.commands meant).trans (hperm.countP_eq _)
  errors meant hmeant := (hbalanced.errors meant hmeant).trans (hperm.countP_eq _)
  ordered := hbalanced.ordered
  sound v hmem := hbalanced.sound v (hperm.mem_iff.mpr hmem)

/-- A connection is accepted. -/
theorem accept (hbalanced : Balanced m visits) : Balanced m.countConnection ({} :: visits) where
  connections := congrArg (· + 1) hbalanced.connections
  commands meant := by
    rw [List.countP_cons_of_neg (by simp [Visit.labelled])]
    exact hbalanced.commands meant
  errors meant hmeant := by
    rw [List.countP_cons_of_neg (by simp [Visit.failedWith, Visit.error?])]
    exact hbalanced.errors meant hmeant
  ordered := hbalanced.ordered
  sound := by
    refine List.forall_mem_cons.mpr ⟨⟨?_, rfl⟩, hbalanced.sound⟩
    intro ending hnone
    cases hnone

/-- A connection could not be accepted. -/
theorem acceptFault (hbalanced : Balanced m visits) :
    Balanced (m.countSessionError "accept") visits where
  connections := hbalanced.connections
  commands := hbalanced.commands
  errors meant hmeant := by
    show Metrics.sum meant (Metrics.bump _ _) = _
    rw [Metrics.sum_bump hbalanced.ordered.2, hmeant, hbalanced.errors meant hmeant]
    rfl
  ordered := ⟨hbalanced.ordered.1, hbalanced.ordered.2.put _ _⟩
  sound := hbalanced.sound

/-- A command is read in a visit. -/
theorem read (hbalanced : Balanced m (v :: rest)) (hopen : v.ending = none)
    (hnone : v.command = none) (command : Command) :
    Balanced (m.countCommand command.label) ({ v with command := some command } :: rest) where
  connections := hbalanced.connections
  commands meant := by
    have hbefore := hbalanced.commands meant
    rw [List.countP_cons_of_neg (by simp [Visit.labelled, hnone])] at hbefore
    show Metrics.sum meant (Metrics.bump _ _) = _
    rw [Metrics.sum_bump hbalanced.ordered.1, hbefore, List.countP_cons]
    rfl
  errors meant hmeant := by
    rw [List.countP_cons]
    exact (hbalanced.errors meant hmeant).trans List.countP_cons
  ordered := ⟨hbalanced.ordered.1.put _ _, hbalanced.ordered.2⟩
  sound := by
    obtain ⟨hsound, hrest⟩ := List.forall_mem_cons.mp hbalanced.sound
    refine List.forall_mem_cons.mpr ⟨⟨?_, hsound.failures⟩, hrest⟩
    intro ending hending
    cases hopen.symm.trans hending

/-- A visit ends. -/
theorem finish (hbalanced : Balanced m (v :: rest)) (hopen : v.ending = none) {ending : Ending}
    (hfits : ending.Fits v.command) : Balanced (ending.counted m) (v.finish ending :: rest) where
  connections := by cases ending <;> exact hbalanced.connections
  commands meant := by
    have hcommands := (hbalanced.commands meant).trans List.countP_cons
    rw [List.countP_cons]
    cases ending <;> exact hcommands
  errors meant hmeant := by
    have hbefore := hbalanced.errors meant hmeant
    rw [List.countP_cons_of_neg (by simp [Visit.failedWith, Visit.error?, hopen])] at hbefore
    rw [List.countP_cons, ← hbefore]
    cases ending with
    | failed error => exact Metrics.sum_bump hbalanced.ordered.2
    | completed => rfl
    | cancelled => rfl
  ordered := by
    cases ending with
    | failed error => exact ⟨hbalanced.ordered.1, hbalanced.ordered.2.put _ _⟩
    | completed => exact hbalanced.ordered
    | cancelled => exact hbalanced.ordered
  sound := by
    obtain ⟨hsound, hrest⟩ := List.forall_mem_cons.mp hbalanced.sound
    refine List.forall_mem_cons.mpr ⟨⟨?_, ?_⟩, hrest⟩
    · intro other heq
      obtain rfl := Option.some.inj heq
      exact hfits
    · have hnone : v.failures = 0 := by simpa [Visit.error?, hopen] using hsound.failures
      show v.failures + _ = _
      rw [hnone, Nat.zero_add]
      rfl

theorem failures_counted (hbalanced : Balanced m visits) (ending : Ending) :
    (ending.counted m).failures = m.failures + if ending.error?.isSome then 1 else 0 := by
  cases ending with
  | failed error =>
    have hmeant : decide (error.kind ≠ "accept") = true := decide_eq_true error.kind_ne_accept
    show Metrics.sum _ (Metrics.bump _ _) = _
    rw [Metrics.sum_bump hbalanced.ordered.2, hmeant]
    rfl
  | completed => rfl
  | cancelled => rfl

/-- The session of a visit comes to something. -/
theorem goOn (hbalanced : Balanced m (v :: rest)) (hopen : v.ending = none)
    {read : Option Command} {a : Advance} (hcounts : Counts m v.command read a)
    (connection : ConnectionId) :
    Balanced (a.settled connection).metrics
      (v.goOn read m (a.settled connection).metrics a.progress :: rest) := by
  obtain ⟨hmetrics, honce, hfits⟩ := hcounts
  have hread : Balanced a.station.metrics ({ v with command := v.command.or read } :: rest) := by
    rw [hmetrics]
    cases read with
    | none => simpa using hbalanced
    | some command =>
      have hnone := honce (Option.some_ne_none command)
      simpa [hnone] using hbalanced.read hopen hnone command
  have hfailures : a.station.metrics.failures = m.failures := by
    rw [hmetrics]
    cases read <;> rfl
  -- An ending is counted after the command, and makes all the difference to the failures.
  have hend : ∀ ending : Ending, ending.Fits (v.command.or read) →
      a.progress.ending? = some ending →
      (a.settled connection).metrics = ending.counted a.station.metrics →
      Balanced (a.settled connection).metrics
        (v.goOn read m (a.settled connection).metrics a.progress :: rest) := by
    intro ending hending hprogress hsettled
    have hover := hread.finish hopen hending
    have hadded := hread.failures_counted ending
    rw [hfailures] at hadded
    simp only [Visit.goOn, hprogress, hsettled, hadded, Nat.add_sub_cancel_left]
    exact hover
  cases hprogress : a.progress with
  | waiting next =>
    have hsettled : a.settled connection = a.station := by simp only [Advance.settled, hprogress]
    simp only [Visit.goOn, hsettled, hfailures, Nat.sub_self, Nat.add_zero, Progress.ending?,
      ← hopen]
    exact hread
  | finished result =>
    rw [hprogress] at hfits hend
    cases result with
    | ok done =>
      refine hend .completed hfits rfl ?_
      simp only [Advance.settled, hprogress]
      rfl
    | error e =>
      refine hend (.failed e) hfits rfl ?_
      simp only [Advance.settled, hprogress]
      rfl

/-! ## What the counters say of each other -/

/-- All failures that are counted were added by the visits. -/
theorem sum_failures (hsound : ∀ v ∈ visits, v.Sound) :
    visits.countP (Visit.failedWith fun kind => kind ≠ "accept") =
      (visits.map Visit.failures).sum := by
  induction visits with
  | nil => rfl
  | cons v rest ih =>
    obtain ⟨hv, hrest⟩ := List.forall_mem_cons.mp hsound
    have hfailed : v.failedWith (fun kind => kind ≠ "accept") = v.error?.isSome := by
      unfold Visit.failedWith
      cases v.error? <;> simp [SessionError.kind_ne_accept]
    rw [List.countP_cons, List.map_cons, List.sum_cons, ih hrest, hv.failures, hfailed,
      Nat.add_comm]

/-- If errors of some kinds only follow commands with some labels, there
are not more of those than of these. -/
theorem sum_errors_le (hbalanced : Balanced m visits) {kinds labels : String → Bool}
    (haccept : kinds "accept" = false)
    (hfollow : ∀ (error : SessionError) (command : Option Command), kinds error.kind = true →
      error.Fits command → command.any (fun command => labels command.label) = true) :
    Metrics.sum kinds m.sessionErrors ≤ Metrics.sum labels m.commands := by
  rw [hbalanced.errors kinds haccept, hbalanced.commands labels]
  apply List.countP_mono_left
  intro v hmem hfailed
  have hfits := (hbalanced.sound v hmem).fits
  unfold Visit.failedWith Visit.error? at hfailed
  cases hending : v.ending with
  | none => simp [hending] at hfailed
  | some ending =>
    cases ending with
    | failed error =>
      have hkind : kinds error.kind = true := by simpa [hending, Ending.error?] using hfailed
      exact hfollow error v.command hkind (hfits _ hending)
    | completed => simp [hending, Ending.error?] at hfailed
    | cancelled => simp [hending, Ending.error?] at hfailed

/-- Documents are rejected only in visits that push one. -/
theorem count_document_le (hbalanced : Balanced m visits) :
    Metrics.count "document" m.sessionErrors ≤ Metrics.count "setptree" m.commands := by
  rw [Metrics.count_eq_sum hbalanced.ordered.1, Metrics.count_eq_sum hbalanced.ordered.2]
  apply sum_errors_le hbalanced (by decide)
  intro error command hkind hfits
  cases error with
  | document error =>
    obtain rfl : command = some .setTree := hfits
    rfl
  | _ => simp [SessionError.kind] at hkind

/-- Requests are withdrawn, or their clients lost, only in visits that
fetch the document. -/
theorem count_withdrawn_le (hbalanced : Balanced m visits) :
    Metrics.count "withdrawn" m.sessionErrors + Metrics.count "disconnected" m.sessionErrors ≤
      Metrics.count "getptree" m.commands := by
  have hapart : ∀ kind : String, ¬ (decide (kind = "withdrawn") = true ∧
      decide (kind = "disconnected") = true) := by
    rintro kind ⟨hwithdrawn, hdisconnected⟩
    obtain rfl := of_decide_eq_true hwithdrawn
    cases hdisconnected
  rw [Metrics.count_eq_sum hbalanced.ordered.1, Metrics.count_eq_sum hbalanced.ordered.2,
    Metrics.count_eq_sum hbalanced.ordered.2, Metrics.sum_add_sum hapart]
  apply sum_errors_le hbalanced (by decide)
  intro error command hkind hfits
  cases error with
  | disconnected =>
    obtain rfl : command = some .getTree := hfits
    rfl
  | withdrawn =>
    obtain rfl : command = some .getTree := hfits
    rfl
  | _ => simp [SessionError.kind] at hkind

end Balanced

end MuxControl
