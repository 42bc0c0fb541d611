/-
MuxControl.Proofs.HandoffHistory — what a hand-off answers, read off
what has happened to it.

A history lists the operations on a hand-off, the latest one first. Three
readings of it need no hand-off at all: whether the hand-off is open,
whether a push still waits to be taken over, and which document is
current. `outcomeSince` reads off what has become of a request: it
waits until the first later operation that decides it, and keeps that
outcome for good.

`request_outcomes` says that this is what every ticket that is still
held shows. The link between the ticket that waits and the requests
(`Linked`) is kept by every operation; it is what makes an operation
decide the pending request and no other. `takePushed_outcomes` says what
the control side takes over, and when that is the document that was
pushed.
-/
import MuxControl.Handoff

namespace MuxControl

/-- A settled outcome stays; a pending one gives way to a verdict. -/
def Outcome.given (outcome : Outcome) (verdict : Option Outcome) : Outcome :=
  match outcome with
  | .pending => verdict.getD .pending
  | settled => settled

namespace Handoff

/-! ## Histories -/

/-- What may be done to a hand-off. -/
inductive Operation where
  | opened
  | closed
  | push (document : Document)
  | publish (document : Document)
  | takePushed
  | request
  | abandon (ticket : Ticket)
deriving Inhabited, Repr

/-- The hand-off after an operation. -/
def perform (h : Handoff) : Operation → Handoff
  | .opened => h.opened
  | .closed => h.closed
  | .push document => h.push document
  | .publish document => (h.publish document).2
  | .takePushed => h.takePushed.2
  | .request => h.request.2
  | .abandon ticket => h.abandon ticket

/-- Operations, the latest one first. -/
abbrev History := List Operation

/-- The hand-off that started with a document and has a history. -/
def reached (initial : Document) : History → Handoff
  | [] => .start initial
  | operation :: earlier => (reached initial earlier).perform operation

/-- Whether the hand-off is open. -/
def openAfter : History → Bool
  | [] => false
  | .opened :: _ => true
  | .closed :: _ => false
  | _ :: earlier => openAfter earlier

/-- Whether a document was pushed and not taken over since. -/
def pushedAfter : History → Bool
  | [] => false
  | .push _ :: _ => true
  | .takePushed :: _ => false
  | _ :: earlier => pushedAfter earlier

/-- The document pushed or published last; what is published while the
hand-off is closed does not count. -/
def documentAfter (initial : Document) : History → Document
  | [] => initial
  | .push document :: _ => document
  | .publish document :: earlier =>
    if openAfter earlier then document else documentAfter initial earlier
  | _ :: earlier => documentAfter initial earlier

/-- What an operation makes of a request that waits, if it ends its
waiting. -/
def verdict? (isOpen : Bool) : Operation → Option Outcome
  | .push document => some (.ready document)
  | .publish document => if isOpen then some (.ready document) else none
  | .request | .closed => some .withdrawn
  | .opened | .takePushed | .abandon _ => none

/-- What has become of a request that was made after the history
`before`, when what followed it is the second history. -/
def outcomeSince (initial : Document) (before : History) : History → Outcome
  | [] => if pushedAfter before then .ready (documentAfter initial before) else .pending
  | operation :: soon =>
    (outcomeSince initial before soon).given
      (verdict? (openAfter (soon ++ .request :: before)) operation)

theorem isOpen_reached (initial : Document) (history : History) :
    (reached initial history).isOpen = openAfter history := by
  induction history with
  | nil => rfl
  | cons operation earlier ih =>
    cases operation <;> simp [reached, perform, openAfter, ih]

theorem pushed_reached (initial : Document) (history : History) :
    (reached initial history).pushed = pushedAfter history := by
  induction history with
  | nil => rfl
  | cons operation earlier ih =>
    cases operation <;> simp [reached, perform, pushedAfter, ih]

theorem current_reached (initial : Document) (history : History) :
    (reached initial history).current = documentAfter initial history := by
  induction history with
  | nil => rfl
  | cons operation earlier ih =>
    cases operation with
    | publish document =>
      have hopen := isOpen_reached initial earlier
      by_cases h : openAfter earlier = true
      · rw [h] at hopen
        simp [reached, perform, documentAfter, h, current_publish_of_open _ _ hopen]
      · have hclosed : (reached initial earlier).isOpen = false := by
          rw [hopen]; exact Bool.not_eq_true _ ▸ h
        simp [reached, perform, documentAfter, h, publish_of_closed _ _ hclosed, ih]
    | _ => simp [reached, perform, documentAfter, ih]

/-! ## The request that waits -/

/-- The ticket that waits is the one whose request is pending, and none
waits while a push is still to be taken over. -/
structure Linked (h : Handoff) : Prop where
  waiting_iff : ∀ ticket, h.waiting = some ticket ↔
    h.requests[ticket]?.map Request.outcome = some .pending
  idle : h.pushed = true → h.waiting = none

theorem linked_start (initial : Document) : (start initial).Linked where
  waiting_iff := by simp [start]
  idle := by simp [start]

/-- Settling the request that waits leaves none pending. -/
theorem linked_settleWaiting {h : Handoff} (hwaiting : ∀ ticket, h.waiting = some ticket ↔
      h.requests[ticket]?.map Request.outcome = some .pending) {outcome : Outcome}
    (hsettled : outcome ≠ .pending) :
    (h.settleWaiting outcome).Linked where
  waiting_iff := by
    intro ticket
    rw [waiting_settleWaiting, requests_settleWaiting]
    by_cases hw : h.waiting = some ticket
    · cases h.requests[ticket]? <;> simp [hw, hsettled]
    · have hnot := mt (hwaiting ticket).mpr hw
      simpa [hw] using hnot
  idle := by simp

/-- The link looks at the requests, the ticket that waits and the mark
of a push only. -/
theorem Linked.congr {h h' : Handoff} (hl : h.Linked) (hrequests : h'.requests = h.requests)
    (hwaiting : h'.waiting = h.waiting) (hpushed : h'.pushed = true → h.waiting = none) :
    h'.Linked where
  waiting_iff := by rw [hrequests, hwaiting]; exact hl.waiting_iff
  idle := by rw [hwaiting]; exact hpushed

theorem Linked.request {h : Handoff} (hl : h.Linked) : h.request.2.Linked where
  waiting_iff := by
    intro ticket
    rw [requests_request]
    by_cases hp : h.pushed = true
    · have hnone : h.request.2.waiting = none := by
        simp [Handoff.request, hp, hl.idle hp]
      have hold := hl.waiting_iff ticket
      rw [hl.idle hp] at hold
      by_cases hnew : ticket = h.requests.length
      · simp [hnone, hnew, hp]
      · simpa [hnone, hnew, hp] using hold
    · have hsome : h.request.2.waiting = some h.requests.length := by
        simp [Handoff.request, hp]
      have hsettled : Outcome.withdrawn ≠ .pending := by simp
      have hold := (linked_settleWaiting hl.waiting_iff hsettled).waiting_iff ticket
      rw [waiting_settleWaiting] at hold
      by_cases hnew : ticket = h.requests.length
      · simp [hsome, hnew, hp]
      · simpa [hsome, hnew, hp, Ne.symm hnew] using hold
  idle := by
    intro hp
    rw [pushed_request] at hp
    simp [Handoff.request, hp, hl.idle hp]

theorem Linked.abandon {h : Handoff} (hl : h.Linked) (other : Ticket) :
    (h.abandon other).Linked where
  waiting_iff := by
    intro ticket
    rw [waiting_abandon, requests_abandon]
    by_cases heq : other = ticket
    · rw [if_pos heq, Option.map_map]
      exact hl.waiting_iff ticket
    · rw [if_neg heq]
      exact hl.waiting_iff ticket
  idle := hl.idle

/-- Every operation keeps the link. -/
theorem Linked.perform {h : Handoff} (hl : h.Linked) (operation : Operation) :
    (h.perform operation).Linked := by
  cases operation with
  | opened => exact hl.congr rfl rfl hl.idle
  | closed => exact linked_settleWaiting (h := { h with isOpen := false }) hl.waiting_iff (by simp)
  | push document =>
    exact linked_settleWaiting (h := { h with current := document, pushed := true })
      hl.waiting_iff (by simp)
  | publish document =>
    by_cases hopen : h.isOpen = true
    · rw [Handoff.perform, publish, if_pos hopen]
      exact linked_settleWaiting (h := { h with current := document }) hl.waiting_iff (by simp)
    · rw [Handoff.perform, publish, if_neg hopen]
      exact hl
  | takePushed =>
    exact hl.congr (requests_takePushed h) (waiting_takePushed h) (by simp [Handoff.perform])
  | request => exact hl.request
  | abandon ticket => exact hl.abandon ticket

theorem linked_reached (initial : Document) (history : History) :
    (reached initial history).Linked := by
  induction history with
  | nil => exact linked_start initial
  | cons operation earlier ih => exact ih.perform operation

/-! ## What tickets show -/

theorem Linked.waiting_of_pending {h : Handoff} (hl : h.Linked) {ticket : Ticket}
    (hpending : h.outcome? ticket = some .pending) : h.waiting = some ticket := by
  rw [outcome?_eq_some_iff] at hpending
  rw [hl.waiting_iff, hpending]
  rfl

theorem Linked.isAwaited_iff {h : Handoff} (hl : h.Linked) :
    h.isAwaited = true ↔ ∃ ticket, h.outcome? ticket = some .pending := by
  constructor
  · intro hawaited
    cases hw : h.waiting with
    | none => simp [isAwaited, hw] at hawaited
    | some ticket =>
      obtain ⟨r, hr, hout⟩ := Option.map_eq_some_iff.mp ((hl.waiting_iff ticket).mp hw)
      have hheld : r.held = true := by simpa [isAwaited, hw, hr] using hawaited
      exact ⟨ticket, by rw [outcome?_of_getElem? hr, if_pos hheld, hout]⟩
  · rintro ⟨ticket, hpending⟩
    have hw := hl.waiting_of_pending hpending
    rw [outcome?_eq_some_iff] at hpending
    simp [isAwaited, hw, hpending]

/-- Settling the request that waits decides the pending outcome. -/
theorem outcome?_settleWaiting {h : Handoff} (hwaiting : ∀ ticket, h.waiting = some ticket ↔
      h.requests[ticket]?.map Request.outcome = some .pending) (verdict : Outcome)
    (ticket : Ticket) :
    (h.settleWaiting verdict).outcome? ticket =
      (h.outcome? ticket).map (·.given (some verdict)) := by
  have hset := requests_settleWaiting h verdict ticket
  cases hr : h.requests[ticket]? with
  | none =>
    rw [hr, Option.map_none, ite_self] at hset
    simp [outcome?, hr, hset]
  | some r =>
    have hlink := hwaiting ticket
    rw [hr, Option.map_some, Option.some.injEq] at hlink
    by_cases hw : h.waiting = some ticket
    · rw [if_pos hw, hr, Option.map_some] at hset
      rw [outcome?_of_getElem? hset, outcome?_of_getElem? hr, hlink.mp hw]
      cases r.held <;> rfl
    · have hsettled : r.outcome.given (some verdict) = r.outcome := by
        cases hout : r.outcome with
        | pending => exact absurd (hlink.mpr hout) hw
        | ready document => rfl
        | withdrawn => rfl
      rw [if_neg hw, hr] at hset
      rw [outcome?_of_getElem? hset, outcome?_of_getElem? hr]
      cases r.held <;> simp [hsettled]

/-- What an operation makes of the requests there are: it gives its
verdict to the pending one. -/
theorem Linked.outcome?_perform {h : Handoff} (hl : h.Linked) {ticket : Ticket}
    (hticket : ticket < h.requests.length) {operation : Operation}
    (hheld : operation ≠ .abandon ticket) :
    (h.perform operation).outcome? ticket =
      (h.outcome? ticket).map (·.given (verdict? h.isOpen operation)) := by
  have hsame : (h.outcome? ticket).map (·.given none) = h.outcome? ticket := by
    cases h.outcome? ticket with
    | none => rfl
    | some outcome => cases outcome <;> rfl
  cases operation with
  | opened => rw [verdict?, hsame]; rfl
  | closed => exact outcome?_settleWaiting (h := { h with isOpen := false }) hl.waiting_iff _ _
  | push document =>
    exact outcome?_settleWaiting (h := { h with current := document, pushed := true })
      hl.waiting_iff _ _
  | publish document =>
    by_cases hopen : h.isOpen = true
    · rw [Handoff.perform, publish, if_pos hopen, verdict?, if_pos hopen]
      exact outcome?_settleWaiting (h := { h with current := document }) hl.waiting_iff _ _
    · rw [Handoff.perform, publish, if_neg hopen, verdict?, if_neg hopen, hsame]
  | takePushed =>
    rw [verdict?, hsame, Handoff.perform, outcome?, outcome?, requests_takePushed]
  | request =>
    have hrequests := requests_request h ticket
    rw [if_neg (Nat.ne_of_lt hticket)] at hrequests
    rw [verdict?]
    by_cases hp : h.pushed = true
    · -- Nothing waits while a push is to be taken over, so nothing is withdrawn.
      rw [if_pos hp] at hrequests
      rw [Handoff.perform, outcome?, hrequests, ← outcome?]
      cases hout : h.outcome? ticket with
      | none => rfl
      | some outcome =>
        cases outcome with
        | pending => cases (hl.idle hp).symm.trans (hl.waiting_of_pending hout)
        | ready document => rfl
        | withdrawn => rfl
    · rw [if_neg hp] at hrequests
      rw [Handoff.perform, outcome?, hrequests, ← outcome?]
      exact outcome?_settleWaiting hl.waiting_iff .withdrawn ticket
  | abandon other =>
    have hne : other ≠ ticket := fun heq => hheld (heq ▸ rfl)
    have hrequests := requests_abandon h ticket other
    rw [if_neg hne] at hrequests
    rw [verdict?, hsame, Handoff.perform, outcome?, outcome?, hrequests]

theorem length_perform (h : Handoff) (operation : Operation) :
    (h.perform operation).requests.length =
      match operation with
      | .request => h.requests.length + 1
      | _ => h.requests.length := by
  cases operation with
  | opened => rfl
  | closed => exact length_settleWaiting _ _
  | push document => exact length_settleWaiting _ _
  | publish document =>
    by_cases hopen : h.isOpen = true
    · rw [perform, publish, if_pos hopen]
      exact length_settleWaiting _ _
    · rw [perform, publish, if_neg hopen]
  | takePushed => rw [perform, requests_takePushed]
  | request =>
    rw [perform, Handoff.request]
    split <;> simp [length_settleWaiting]
  | abandon other => simp [perform, abandon]

/-! ## Outcomes over a history -/

section Outcomes

variable (initial : Document)

theorem length_reached_lt (before after : History) :
    (reached initial before).requests.length <
      (reached initial (after ++ .request :: before)).requests.length := by
  induction after with
  | nil =>
    have hlength := length_perform (reached initial before) .request
    exact hlength ▸ Nat.lt_succ_self _
  | cons operation soon ih =>
    have hlength := length_perform (reached initial (soon ++ .request :: before)) operation
    rw [List.cons_append, reached, hlength]
    cases operation <;> first | exact ih | exact Nat.lt_succ_of_lt ih

/-- Every ticket was given out by some request of the history. -/
theorem exists_request (history : History) {ticket : Ticket}
    (hticket : ticket < (reached initial history).requests.length) :
    ∃ before after, history = after ++ .request :: before ∧
      (reached initial before).requests.length = ticket := by
  induction history with
  | nil => exact absurd hticket (Nat.not_lt_zero ticket)
  | cons operation earlier ih =>
    by_cases hold : ticket < (reached initial earlier).requests.length
    · obtain ⟨before, after, rfl, hlength⟩ := ih hold
      exact ⟨before, operation :: after, rfl, hlength⟩
    · have hlength := length_perform (reached initial earlier) operation
      rw [reached, hlength] at hticket
      cases operation with
      | request =>
        exact ⟨earlier, [], rfl, Nat.le_antisymm (Nat.not_lt.mp hold) (Nat.le_of_lt_succ hticket)⟩
      | _ => exact absurd hticket hold

/-- A ticket that is still held shows what the history since its request
has made of it. -/
theorem outcome?_of_held (before after : History) {ticket : Ticket}
    (hticket : (reached initial before).requests.length = ticket)
    (hheld : .abandon ticket ∉ after) :
    (reached initial (after ++ .request :: before)).outcome? ticket =
      some (outcomeSince initial before after) := by
  subst hticket
  induction after with
  | nil =>
    rw [outcome?_eq_some_iff, List.nil_append, reached, perform, requests_request, if_pos rfl,
      pushed_reached, current_reached, outcomeSince]
  | cons operation soon ih =>
    have hop := List.ne_of_not_mem_cons hheld
    have hsoon := List.not_mem_of_not_mem_cons hheld
    have hlt := length_reached_lt initial before soon
    have hstep := (linked_reached initial _).outcome?_perform hlt (Ne.symm hop)
    rw [List.cons_append, reached, hstep, ih hsoon, isOpen_reached, Option.map_some,
      outcomeSince]

/-- A ticket that was let go of shows nothing any more. -/
theorem outcome?_of_abandoned (before after : History) {ticket : Ticket}
    (hticket : (reached initial before).requests.length = ticket)
    (habandoned : .abandon ticket ∈ after) :
    (reached initial (after ++ .request :: before)).outcome? ticket = none := by
  subst hticket
  induction after with
  | nil => cases habandoned
  | cons operation soon ih =>
    by_cases hop : operation = .abandon (reached initial before).requests.length
    · rw [hop]
      exact outcome?_abandon_self _ _
    · have hsoon := (List.mem_cons.mp habandoned).resolve_left (Ne.symm hop)
      have hlt := length_reached_lt initial before soon
      rw [List.cons_append, reached, (linked_reached initial _).outcome?_perform hlt hop,
        ih hsoon, Option.map_none]

/-- A settled outcome stays as long as the ticket is held. -/
theorem outcome?_stays (history later : History) {ticket : Ticket} {outcome : Outcome}
    (hout : (reached initial history).outcome? ticket = some outcome)
    (hsettled : outcome ≠ .pending) (hheld : .abandon ticket ∉ later) :
    (reached initial (later ++ history)).outcome? ticket = some outcome := by
  induction later with
  | nil => exact hout
  | cons operation soon ih =>
    have hop := List.ne_of_not_mem_cons hheld
    have hbefore := ih (List.not_mem_of_not_mem_cons hheld)
    rw [List.cons_append, reached,
      (linked_reached initial _).outcome?_perform (lt_of_outcome? hbefore) (Ne.symm hop),
      hbefore, Option.map_some]
    cases outcome with
    | pending => exact absurd rfl hsettled
    | ready document => rfl
    | withdrawn => rfl

/-- **What requests are answered.** A ticket that is held shows exactly
what the history since its request makes of it, and a settled outcome
stays. At most one ticket that is held is pending, none is while a push
is still to be taken over, and the hand-off says that it is awaited when
there is such a ticket. -/
theorem request_outcomes (history : History) :
    (∀ ticket outcome, (reached initial history).outcome? ticket = some outcome ↔
      ∃ before after, history = after ++ .request :: before ∧
        (reached initial before).request.1 = ticket ∧ .abandon ticket ∉ after ∧
        outcomeSince initial before after = outcome) ∧
    (∀ later ticket outcome, (reached initial history).outcome? ticket = some outcome →
      outcome ≠ .pending → .abandon ticket ∉ later →
      (reached initial (later ++ history)).outcome? ticket = some outcome) ∧
    (∀ ticket other, (reached initial history).outcome? ticket = some .pending →
      (reached initial history).outcome? other = some .pending → ticket = other) ∧
    (pushedAfter history = true →
      ∀ ticket, (reached initial history).outcome? ticket ≠ some .pending) ∧
    ((reached initial history).isAwaited = true ↔
      ∃ ticket, (reached initial history).outcome? ticket = some .pending) := by
  have hl := linked_reached initial history
  refine ⟨fun ticket outcome => ⟨fun hout => ?_, ?_⟩, ?_, ?_, ?_, hl.isAwaited_iff⟩
  · obtain ⟨before, after, rfl, hticket⟩ := exists_request initial history (lt_of_outcome? hout)
    have hheld : .abandon ticket ∉ after := by
      intro habandoned
      rw [outcome?_of_abandoned initial before after hticket habandoned] at hout
      cases hout
    rw [outcome?_of_held initial before after hticket hheld] at hout
    exact ⟨before, after, rfl, (fst_request _).trans hticket, hheld, Option.some.inj hout⟩
  · rintro ⟨before, after, rfl, hticket, hheld, rfl⟩
    exact outcome?_of_held initial before after ((fst_request _).symm.trans hticket) hheld
  · intro later ticket outcome hout hsettled hheld
    exact outcome?_stays initial history later hout hsettled hheld
  · intro ticket other hticket hother
    have hsame := (hl.waiting_of_pending hticket).symm.trans (hl.waiting_of_pending hother)
    exact Option.some.inj hsame
  · intro hpushed ticket hpending
    have hidle := hl.idle ((pushed_reached initial history).trans hpushed)
    cases hidle.symm.trans (hl.waiting_of_pending hpending)

/-! ## Taking over -/

/-- The document published last since some moment, if any; what is
published while the hand-off is closed does not count. -/
def publishedSince? (earlier : History) : History → Option Document
  | [] => none
  | .publish document :: soon =>
    if openAfter (soon ++ earlier) then some document else publishedSince? earlier soon
  | _ :: soon => publishedSince? earlier soon

theorem takePushed_reached (history : History) :
    (reached initial history).takePushed.1 =
      if pushedAfter history then some (documentAfter initial history) else none := by
  rw [takePushed, pushed_reached, current_reached]
  split <;> rfl

/-- A push is to be taken over when it happened and nothing was taken
over since. -/
theorem pushedAfter_iff (history : History) :
    pushedAfter history = true ↔
      ∃ since document earlier, history = since ++ .push document :: earlier ∧
        .takePushed ∉ since := by
  constructor
  · intro hpushed
    induction history with
    | nil => cases hpushed
    | cons operation earlier ih =>
      cases operation with
      | push document => exact ⟨[], document, earlier, rfl, List.not_mem_nil⟩
      | takePushed => cases hpushed
      | _ =>
        obtain ⟨since, document, before, rfl, hnone⟩ := ih hpushed
        exact ⟨_ :: since, document, before, rfl, by simpa using hnone⟩
  · rintro ⟨since, document, earlier, rfl, hnone⟩
    induction since with
    | nil => rfl
    | cons operation soon ih =>
      have hsoon := ih (List.not_mem_of_not_mem_cons hnone)
      cases operation with
      | takePushed => exact absurd rfl (List.ne_of_not_mem_cons hnone)
      | push other => rfl
      | _ => exact hsoon

/-- Without another push, the current document is the one published
last since the push, or else the pushed one. -/
theorem documentAfter_push (since earlier : History) (document : Document)
    (hlast : ∀ other, .push other ∉ since) :
    documentAfter initial (since ++ .push document :: earlier) =
      (publishedSince? (.push document :: earlier) since).getD document := by
  induction since with
  | nil => rfl
  | cons operation soon ih =>
    have hsoon := ih fun other => List.not_mem_of_not_mem_cons (hlast other)
    cases operation with
    | push other => exact absurd rfl (List.ne_of_not_mem_cons (hlast other))
    | publish other =>
      rw [List.cons_append, documentAfter, publishedSince?, hsoon]
      split <;> rfl
    | _ => exact hsoon

/-- **What the control side takes over.** It takes something over exactly
when a push happened since it last looked. What it takes over is the
document of the latest push if nothing, or nothing else, was published
since while the hand-off was open; otherwise it is the document published
last. -/
theorem takePushed_outcomes :
    (∀ history, (reached initial history).takePushed.1 ≠ none ↔
      ∃ since document earlier, history = since ++ .push document :: earlier ∧
        .takePushed ∉ since) ∧
    (∀ since document earlier, (∀ other, .push other ∉ since) → .takePushed ∉ since →
      (reached initial (since ++ .push document :: earlier)).takePushed.1 =
        some ((publishedSince? (.push document :: earlier) since).getD document) ∧
      ((reached initial (since ++ .push document :: earlier)).takePushed.1 = some document ↔
        ∀ other, publishedSince? (.push document :: earlier) since = some other →
          other = document)) := by
  refine ⟨fun history => ?_, fun since document earlier hlast hnone => ?_⟩
  · rw [takePushed_reached, ← pushedAfter_iff]
    cases pushedAfter history <;> simp
  · have hpushed : pushedAfter (since ++ .push document :: earlier) = true :=
      (pushedAfter_iff _).mpr ⟨since, document, earlier, rfl, hnone⟩
    have htaken : (reached initial (since ++ .push document :: earlier)).takePushed.1 =
        some ((publishedSince? (.push document :: earlier) since).getD document) := by
      rw [takePushed_reached, if_pos hpushed, documentAfter_push initial _ _ _ hlast]
    refine ⟨htaken, ?_⟩
    rw [htaken]
    cases publishedSince? (.push document :: earlier) since <;> simp

/-- A document published between a push and its taking over is taken over
in place of the pushed one. -/
theorem published_replaces_pushed :
    ¬ ∀ (initial : Document) (since : History) (document : Document) (earlier : History)
        (taken : Document), (∀ other, .push other ∉ since) →
      (reached initial (since ++ .push document :: earlier)).takePushed.1 = some taken →
      taken = document := by
  intro h
  have hpublished := h .empty [.publish ⟨[("q", .int 2)]⟩] ⟨[("p", .int 1)]⟩ [.opened]
    ⟨[("q", .int 2)]⟩ (by simp) rfl
  simp at hpublished

end Outcomes

end Handoff

end MuxControl
