/-
MuxControl.Proofs.HealthDecay — the states of an input to which nothing
is reported.

Classifications alone lead through at most three states, each for a
while: `unstable` until the glitches are forgiven or the data is missed,
then the state of a calm input, then `noData`. Two facts keep the order.
An input that lacks data lacks it at any later instant
(`Window.lacksData_mono`), and one whose glitches are too few does not get
any more (`Window.glitches_settle_le`). Which of the two calm states it is
stands in the count of quiet reports, and no classification changes that.

`Window.classifyAll_calm` and `Window.classifyAll_decays` follow a window
by induction on the instants; `health_decays` says the same of an input and
the queries to it.
-/
import MuxControl.Proofs.HealthHistory

namespace MuxControl

namespace Window

/-- Whether a classification at an instant finds no data. -/
def lacksData (w : Window) (limits : Thresholds) (now : Instant) : Bool :=
  w.bufferEmpty && seconds limits.noDataTimeout < now - w.lastFilled

/-- The state of an input that has data and not too many glitches. -/
def calmState (w : Window) (limits : Thresholds) : InputState :=
  if limits.silenceCount < w.quietReports then .silence else .streaming

/-- Classify at one instant after another: the states, and the window
after them. -/
def classifyAll (w : Window) (limits : Thresholds) : List Instant → List InputState × Window
  | [] => ([], w)
  | now :: later =>
    let (state, settled) := w.classify limits now
    let (states, last) := settled.classifyAll limits later
    (state :: states, last)

variable {w : Window} {limits : Thresholds} {now later : Instant} {instants : List Instant}

/-! ## One classification -/

theorem stateAt_eq (w : Window) (limits : Thresholds) (now : Instant) :
    w.stateAt limits now =
      if w.lacksData limits now then .noData
      else if limits.unstable ≤ w.glitches then .unstable
      else w.calmState limits := rfl

/-- Data that is lacking is lacking later on. -/
theorem lacksData_mono (hle : now ≤ later) (hlacks : w.lacksData limits now = true) :
    w.lacksData limits later = true := by
  simp only [lacksData, Bool.and_eq_true, decide_eq_true_eq] at hlacks ⊢
  obtain ⟨hempty, hlong⟩ := hlacks
  exact ⟨hempty, Nat.lt_of_lt_of_le hlong (Nat.sub_le_sub_right hle _)⟩

@[simp] theorem lacksData_settle (w : Window) (limits : Thresholds) (now later : Instant) :
    (w.settle limits now).lacksData limits later = w.lacksData limits later := by
  simp [lacksData]

@[simp] theorem calmState_settle (w : Window) (limits : Thresholds) (now : Instant) :
    (w.settle limits now).calmState limits = w.calmState limits := by
  simp [calmState]

theorem glitches_settle_le (w : Window) (limits : Thresholds) (now : Instant) :
    (w.settle limits now).glitches ≤ w.glitches := by
  rw [glitches_settle]
  split
  · exact Nat.zero_le _
  · exact Nat.le_refl _

/-- A classification changes nothing but the count of the glitches. -/
theorem settle_eq (w : Window) (limits : Thresholds) (now : Instant) :
    w.settle limits now = { w with glitches := (w.settle limits now).glitches } := by
  unfold settle
  split <;> rfl

/-! ## One classification after another -/

theorem classifyAll_cons (w : Window) (limits : Thresholds) (now : Instant)
    (instants : List Instant) :
    w.classifyAll limits (now :: instants) =
      ((w.settle limits now).stateAt limits now ::
          ((w.settle limits now).classifyAll limits instants).1,
        ((w.settle limits now).classifyAll limits instants).2) := rfl

/-- All classifications together change nothing but the count of the
glitches. -/
theorem classifyAll_eq (w : Window) (limits : Thresholds) (instants : List Instant) :
    (w.classifyAll limits instants).2 =
      { w with glitches := (w.classifyAll limits instants).2.glitches } := by
  induction instants generalizing w with
  | nil => rfl
  | cons now later ih =>
    rw [classifyAll_cons]
    -- The settled window and this one differ in the glitches alone.
    calc ((w.settle limits now).classifyAll limits later).2
        = { w.settle limits now with
            glitches := ((w.settle limits now).classifyAll limits later).2.glitches } := ih _
      _ = { w with
            glitches := ((w.settle limits now).classifyAll limits later).2.glitches } := by
          rw [settle_eq w limits now]

theorem length_classifyAll (w : Window) (limits : Thresholds) (instants : List Instant) :
    (w.classifyAll limits instants).1.length = instants.length := by
  induction instants generalizing w with
  | nil => rfl
  | cons now later ih => exact congrArg (· + 1) (ih _)

/-- Once the data is lacking, it is lacking at every instant. -/
theorem classifyAll_noData (hlacks : w.lacksData limits now = true)
    (hlater : ∀ later ∈ instants, now ≤ later) :
    (w.classifyAll limits instants).1 = List.replicate instants.length .noData := by
  induction instants generalizing w with
  | nil => rfl
  | cons next rest ih =>
    have hnext : w.lacksData limits next = true :=
      lacksData_mono (hlater next List.mem_cons_self) hlacks
    have hrest := ih (w := w.settle limits next) (by rw [lacksData_settle, hlacks])
      fun later hmem => hlater later (List.mem_cons_of_mem next hmem)
    rw [classifyAll_cons, stateAt_eq, lacksData_settle, if_pos hnext, hrest]
    rfl

/-- An input with few glitches is calm until the data is lacking. -/
theorem classifyAll_calm (hfew : w.glitches < limits.unstable)
    (hordered : instants.Pairwise (· ≤ ·)) :
    ∃ calm lacking, (w.classifyAll limits instants).1 =
      List.replicate calm (w.calmState limits) ++ List.replicate lacking .noData := by
  induction instants generalizing w with
  | nil => exact ⟨0, 0, rfl⟩
  | cons now later ih =>
    obtain ⟨hnow, hordered⟩ := List.pairwise_cons.mp hordered
    have hstill : (w.settle limits now).glitches < limits.unstable :=
      Nat.lt_of_le_of_lt (glitches_settle_le w limits now) hfew
    rw [classifyAll_cons, stateAt_eq, lacksData_settle]
    cases hlacks : w.lacksData limits now with
    | true =>
      have hlater := classifyAll_noData (w := w.settle limits now)
        (by rw [lacksData_settle, hlacks]) hnow
      refine ⟨0, later.length + 1, ?_⟩
      rw [hlater]
      rfl
    | false =>
      obtain ⟨calm, lacking, hlater⟩ := ih hstill hordered
      refine ⟨calm + 1, lacking, ?_⟩
      rw [hlater, if_neg (by simp), if_neg (Nat.not_le_of_lt hstill), calmState_settle]
      rfl

/-- Whatever a window holds, its states decay: `unstable`, then the calm
state, then `noData`, each as often as it may be. -/
theorem classifyAll_decays (w : Window) (limits : Thresholds)
    (hordered : instants.Pairwise (· ≤ ·)) :
    ∃ rough calm lacking, (w.classifyAll limits instants).1 =
      List.replicate rough .unstable ++ List.replicate calm (w.calmState limits) ++
        List.replicate lacking .noData := by
  induction instants generalizing w with
  | nil => exact ⟨0, 0, 0, rfl⟩
  | cons now later ih =>
    obtain ⟨hnow, hlaterOrdered⟩ := List.pairwise_cons.mp hordered
    by_cases hfew : (w.settle limits now).glitches < limits.unstable
    · -- From here on the input is calm; that holds of its settled window at the same instant too.
      obtain ⟨calm, lacking, hcalm⟩ := classifyAll_calm (w := w.settle limits now) hfew hordered
      refine ⟨0, calm, lacking, ?_⟩
      rw [classifyAll_cons, settle_settle, calmState_settle] at hcalm
      rw [classifyAll_cons, hcalm]
      rfl
    · rw [classifyAll_cons, stateAt_eq, lacksData_settle]
      cases hlacks : w.lacksData limits now with
      | true =>
        have hlater := classifyAll_noData (w := w.settle limits now)
          (by rw [lacksData_settle, hlacks]) hnow
        refine ⟨0, 0, later.length + 1, ?_⟩
        rw [hlater]
        rfl
      | false =>
        obtain ⟨rough, calm, lacking, hlater⟩ := ih (w.settle limits now) hlaterOrdered
        refine ⟨rough + 1, calm, lacking, ?_⟩
        rw [hlater, if_neg (by simp), if_pos (Nat.le_of_not_lt hfew), calmState_settle]
        rfl

end Window

namespace Input

/-- Ask an input one query after another: the states that it answers, and
the input after them. -/
def answerAll (i : Input) : List (Instant × HealthQuery) → List InputState × Input
  | [] => ([], i)
  | (now, query) :: later =>
    let (state, i) := i.answer now query
    let (states, last) := i.answerAll later
    (state.toList ++ states, last)

/-- The instants of the queries that classify. -/
def classifying (queries : List (Instant × HealthQuery)) : List Instant :=
  (queries.filter fun asked => HealthEntry.classifies (.query asked.2)).map Prod.fst

/-- The states that an input answers are those of its window, and its
window goes on as if it was classified alone. -/
theorem answerAll_eq (i : Input) (queries : List (Instant × HealthQuery)) :
    (i.answerAll queries).1 = (i.window.classifyAll i.limits (classifying queries)).1 ∧
      (i.answerAll queries).2.window =
        (i.window.classifyAll i.limits (classifying queries)).2 := by
  induction queries generalizing i with
  | nil => exact ⟨rfl, rfl⟩
  | cons asked later ih =>
    obtain ⟨now, query⟩ := asked
    cases query with
    | observe =>
      obtain ⟨hstates, hwindow⟩ := ih (i.observe now).2
      exact ⟨congrArg ((i.observe now).1 :: ·) hstates, hwindow⟩
    | state =>
      obtain ⟨hstates, hwindow⟩ := ih (i.renderState now).2
      exact ⟨congrArg ((i.renderState now).1 :: ·) hstates, hwindow⟩
    | values => exact ih i.renderValues.2

theorem pairwise_classifying {queries : List (Instant × HealthQuery)}
    (hordered : queries.Pairwise fun asked next => asked.1 ≤ next.1) :
    (classifying queries).Pairwise (· ≤ ·) :=
  List.pairwise_map.mpr (hordered.filter _)

/-- **Health only decays.** An input that was given any reports is asked
for its state again and again, and not reported to: it is unstable for a
while, then calm, then without data. Whether a calm input is silent is read
off its quiet reports and its limits, and no query changes anything in its
window but the count of the glitches. -/
theorem health_decays (i : Input) {queries : List (Instant × HealthQuery)}
    (hordered : queries.Pairwise fun asked next => asked.1 ≤ next.1) :
    (∃ rough calm lacking, rough + calm + lacking = (classifying queries).length ∧
      (i.answerAll queries).1 =
        List.replicate rough .unstable ++
        List.replicate calm
          (if i.limits.silenceCount < i.window.quietReports then .silence else .streaming) ++
        List.replicate lacking .noData) ∧
    (i.answerAll queries).2.window =
      { i.window with glitches := (i.answerAll queries).2.window.glitches } := by
  obtain ⟨hstates, hwindow⟩ := i.answerAll_eq queries
  constructor
  · obtain ⟨rough, calm, lacking, hdecays⟩ :=
      i.window.classifyAll_decays i.limits (pairwise_classifying hordered)
    refine ⟨rough, calm, lacking, ?_, hstates.trans hdecays⟩
    rw [← Window.length_classifyAll i.window i.limits (classifying queries), hdecays]
    simp [Nat.add_assoc]
  · rw [hwindow]
    exact i.window.classifyAll_eq i.limits (classifying queries)

/-- A rough input whose buffer ran empty is asked until the glitches are
forgiven, and until the data is missed. -/
theorem health_decays_rough :
    let i : Input :=
      { Input.create "in" {} 0 with window := ⟨3, 101, 0, 1790000, true⟩ }
    let queries : List (Instant × HealthQuery) :=
      [(1790000, .state), (1800000, .observe), (1800000, .values), (1800001, .state),
        (1820000, .observe), (1820001, .state)]
    queries.Pairwise (fun asked next => asked.1 ≤ next.1) ∧
      (i.answerAll queries).1 = [.unstable, .unstable, .silence, .silence, .noData] ∧
      (i.answerAll queries).2.window = ⟨0, 101, 0, 1790000, true⟩ := by
  intro i queries
  have hordered : queries.Pairwise (fun asked next => asked.1 ≤ next.1) := by decide
  obtain ⟨_, hwindow⟩ := health_decays i hordered
  have hglitches : (i.answerAll queries).2.window.glitches = 0 := by decide
  rw [hglitches] at hwindow
  exact ⟨hordered, by decide, hwindow⟩

end Input

end MuxControl
