/-
MuxControl.Handoff — where the configuration document changes hands
between clients and the control side.

A client pushes a document or requests the latest one; the control side
takes pushed documents over, and publishes its own while the hand-off is
open. At most one request waits: a newer one takes its place, and a
document answers it. Closing withdraws it. A request is known by its
ticket, the number of requests made before it.

The lemmas at the end say what each operation does to the current
document, to the mark of a push and to the hand-off being open, which
operations leave no request waiting, and what becomes of the request of
a ticket.
-/
import MuxControl.Document

namespace MuxControl

/-- What has become of a request. -/
inductive Outcome where
  | pending
  | ready (document : Document)
  | withdrawn
deriving Inhabited, BEq, Repr

/-- A request, and whether somebody still holds its ticket. -/
structure Request where
  outcome : Outcome
  held : Bool
deriving Inhabited, BEq, Repr

/-- The number of a request. -/
abbrev Ticket := Nat

/-- The latest document, whether a client pushed one that has not been
taken over, the ticket that waits, and all requests by ticket. -/
structure Handoff where
  current : Document := .empty
  pushed : Bool := false
  isOpen : Bool := false
  waiting : Option Ticket := none
  requests : List Request := []
deriving Inhabited, BEq, Repr

/-- A request that was taken back. -/
inductive HandoffError where
  | withdrawn
deriving DecidableEq, Repr, Inhabited

/-- The wording of a hand-off error. -/
def HandoffError.message : HandoffError → String
  | .withdrawn => "document request withdrawn before it was fulfilled"

namespace Handoff

/-- A closed hand-off that starts with a document. -/
def start (document : Document) : Handoff := { current := document }

/-- Settle the request of a ticket. -/
def settle (h : Handoff) (ticket : Ticket) (outcome : Outcome) : Handoff :=
  { h with requests := h.requests.modify ticket fun r => { r with outcome := outcome } }

/-- Settle the request that waits, if there is one. -/
def settleWaiting (h : Handoff) (outcome : Outcome) : Handoff :=
  match h.waiting with
  | none => h
  | some ticket => { h.settle ticket outcome with waiting := none }

/-- Answer the request that waits with the current document. -/
def fulfil (h : Handoff) : Handoff := h.settleWaiting (.ready h.current)

/-- A client pushes a document. -/
def push (h : Handoff) (document : Document) : Handoff :=
  { h with current := document, pushed := true }.fulfil

/-- The control side publishes its document, if the hand-off is open. -/
def publish (h : Handoff) (document : Document) : Bool × Handoff :=
  if h.isOpen then (true, { h with current := document }.fulfil) else (false, h)

/-- The control side takes over a pushed document, once per push. -/
def takePushed (h : Handoff) : Option Document × Handoff :=
  if h.pushed then (some h.current, { h with pushed := false }) else (none, h)

/-- Request the latest document. A document that was pushed and not
taken over answers at once; otherwise the request waits, in the place of
an older one. -/
def request (h : Handoff) : Ticket × Handoff :=
  let ticket := h.requests.length
  if h.pushed then (ticket, { h with requests := h.requests ++ [⟨.ready h.current, true⟩] })
  else
    let h := h.settleWaiting .withdrawn
    (ticket, { h with requests := h.requests ++ [⟨.pending, true⟩], waiting := some ticket })

/-- Let go of a ticket. -/
def abandon (h : Handoff) (ticket : Ticket) : Handoff :=
  { h with requests := h.requests.modify ticket fun r => { r with held := false } }

/-- What has become of the request of a ticket that is still held. -/
def outcome? (h : Handoff) (ticket : Ticket) : Option Outcome :=
  (h.requests[ticket]?.filter Request.held).map Request.outcome

/-- Look at a ticket, and let go of it if its request is settled. -/
def collect (h : Handoff) (ticket : Ticket) : Option Outcome × Handoff :=
  match h.outcome? ticket with
  | some .pending => (some .pending, h)
  | some outcome => (some outcome, h.abandon ticket)
  | none => (none, h)

/-- Whether a request waits whose ticket somebody holds. -/
def isAwaited (h : Handoff) : Bool :=
  match h.waiting with
  | none => false
  | some ticket => h.requests[ticket]?.any Request.held

/-- Open the hand-off. -/
def opened (h : Handoff) : Handoff := { h with isOpen := true }

/-- Close the hand-off and withdraw the request that waits. -/
def closed (h : Handoff) : Handoff := { h with isOpen := false }.settleWaiting .withdrawn

/-! ## What each operation does to the document and its marks -/

section Views

variable (h : Handoff) (document : Document) (outcome : Outcome) (ticket : Ticket)

@[simp] theorem current_settleWaiting : (h.settleWaiting outcome).current = h.current := by
  unfold settleWaiting; split <;> rfl

@[simp] theorem pushed_settleWaiting : (h.settleWaiting outcome).pushed = h.pushed := by
  unfold settleWaiting; split <;> rfl

@[simp] theorem isOpen_settleWaiting : (h.settleWaiting outcome).isOpen = h.isOpen := by
  unfold settleWaiting; split <;> rfl

@[simp] theorem waiting_settleWaiting : (h.settleWaiting outcome).waiting = none := by
  unfold settleWaiting; split <;> simp_all

@[simp] theorem current_push : (h.push document).current = document := by simp [push, fulfil]

@[simp] theorem pushed_push : (h.push document).pushed = true := by simp [push, fulfil]

@[simp] theorem isOpen_push : (h.push document).isOpen = h.isOpen := by simp [push, fulfil]

@[simp] theorem waiting_push : (h.push document).waiting = none := by simp [push, fulfil]

theorem publish_of_closed (hclosed : h.isOpen = false) : h.publish document = (false, h) := by
  simp [publish, hclosed]

theorem current_publish_of_open (hopen : h.isOpen = true) :
    (h.publish document).2.current = document := by
  simp [publish, hopen, fulfil]

@[simp] theorem pushed_publish : (h.publish document).2.pushed = h.pushed := by
  unfold publish; split <;> simp [fulfil]

@[simp] theorem isOpen_publish : (h.publish document).2.isOpen = h.isOpen := by
  unfold publish; split <;> simp [fulfil]

@[simp] theorem current_opened : h.opened.current = h.current := rfl

@[simp] theorem pushed_opened : h.opened.pushed = h.pushed := rfl

@[simp] theorem isOpen_opened : h.opened.isOpen = true := rfl

@[simp] theorem current_takePushed : h.takePushed.2.current = h.current := by
  unfold takePushed; split <;> rfl

@[simp] theorem pushed_takePushed : h.takePushed.2.pushed = false := by
  unfold takePushed; split <;> simp_all

@[simp] theorem isOpen_takePushed : h.takePushed.2.isOpen = h.isOpen := by
  unfold takePushed; split <;> rfl

@[simp] theorem waiting_takePushed : h.takePushed.2.waiting = h.waiting := by
  unfold takePushed; split <;> rfl

@[simp] theorem requests_takePushed : h.takePushed.2.requests = h.requests := by
  unfold takePushed; split <;> rfl

@[simp] theorem fst_request : h.request.1 = h.requests.length := by
  unfold request; split <;> rfl

@[simp] theorem current_request : h.request.2.current = h.current := by
  unfold request; split <;> simp

@[simp] theorem pushed_request : h.request.2.pushed = h.pushed := by
  unfold request; split <;> simp

@[simp] theorem isOpen_request : h.request.2.isOpen = h.isOpen := by
  unfold request; split <;> simp

@[simp] theorem current_abandon : (h.abandon ticket).current = h.current := rfl

@[simp] theorem pushed_abandon : (h.abandon ticket).pushed = h.pushed := rfl

@[simp] theorem isOpen_abandon : (h.abandon ticket).isOpen = h.isOpen := rfl

@[simp] theorem waiting_abandon : (h.abandon ticket).waiting = h.waiting := rfl

@[simp] theorem current_closed : h.closed.current = h.current := by simp [closed]

@[simp] theorem pushed_closed : h.closed.pushed = h.pushed := by simp [closed]

@[simp] theorem isOpen_closed : h.closed.isOpen = false := by simp [closed]

@[simp] theorem waiting_closed : h.closed.waiting = none := by simp [closed]

end Views

/-! ## Requests by ticket, and what tickets show -/

section Requests

variable (h : Handoff) (outcome : Outcome) (ticket : Ticket)

theorem requests_settleWaiting :
    (h.settleWaiting outcome).requests[ticket]? =
      if h.waiting = some ticket then
        h.requests[ticket]?.map fun r => { r with outcome := outcome }
      else h.requests[ticket]? := by
  unfold settleWaiting
  cases hw : h.waiting with
  | none => simp
  | some waiting =>
    by_cases heq : waiting = ticket
    · subst heq
      simp [settle]
    · simp [settle, heq]

theorem length_settleWaiting :
    (h.settleWaiting outcome).requests.length = h.requests.length := by
  unfold settleWaiting
  cases h.waiting <;> simp [settle]

theorem requests_abandon (other : Ticket) :
    (h.abandon other).requests[ticket]? =
      if other = ticket then h.requests[ticket]?.map fun r => { r with held := false }
      else h.requests[ticket]? := by
  by_cases heq : other = ticket
  · subst heq
    simp [abandon]
  · simp [abandon, heq]

theorem requests_request :
    h.request.2.requests[ticket]? =
      if ticket = h.requests.length then
        some ⟨if h.pushed then .ready h.current else .pending, true⟩
      else if h.pushed then h.requests[ticket]?
      else (h.settleWaiting .withdrawn).requests[ticket]? := by
  have happend : ∀ (rs : List Request) (r : Request),
      (rs ++ [r])[ticket]? = if ticket = rs.length then some r else rs[ticket]? := by
    intro rs r
    rcases Nat.lt_trichotomy ticket rs.length with hlt | heq | hgt
    · rw [List.getElem?_append_left hlt, if_neg (Nat.ne_of_lt hlt)]
    · rw [heq, List.getElem?_concat_length, if_pos rfl]
    · rw [if_neg (Nat.ne_of_gt hgt), List.getElem?_eq_none (by rw [List.length_append]; exact hgt),
        List.getElem?_eq_none (Nat.le_of_lt hgt)]
  unfold Handoff.request
  by_cases hp : h.pushed = true
  · simp [hp, happend]
  · simp [hp, happend, length_settleWaiting]

@[simp] theorem outcome?_takePushed : h.takePushed.2.outcome? ticket = h.outcome? ticket := by
  simp [outcome?]

@[simp] theorem isAwaited_takePushed : h.takePushed.2.isAwaited = h.isAwaited := by
  simp [isAwaited]

theorem outcome?_abandon_self : (h.abandon ticket).outcome? ticket = none := by
  rw [outcome?, requests_abandon, if_pos rfl]
  cases h.requests[ticket]? <;> simp [Option.filter]

variable {h outcome ticket}

theorem outcome?_of_getElem? {r : Request} (hr : h.requests[ticket]? = some r) :
    h.outcome? ticket = if r.held then some r.outcome else none := by
  cases hheld : r.held <;> simp [outcome?, hr, Option.filter, hheld]

theorem outcome?_eq_some_iff :
    h.outcome? ticket = some outcome ↔ h.requests[ticket]? = some ⟨outcome, true⟩ := by
  cases hr : h.requests[ticket]? with
  | none => simp [outcome?, hr]
  | some r =>
    obtain ⟨found, held⟩ := r
    rw [outcome?_of_getElem? hr]
    cases held <;> simp

theorem lt_of_outcome? (hout : h.outcome? ticket = some outcome) :
    ticket < h.requests.length := by
  rw [outcome?_eq_some_iff] at hout
  exact (List.getElem?_eq_some_iff.mp hout).1

/-- Settling the request that waits brings no other outcome than the
given one. -/
theorem outcome?_of_settleWaiting {verdict : Outcome}
    (hout : (h.settleWaiting verdict).outcome? ticket = some outcome) :
    h.outcome? ticket = some outcome ∨ outcome = verdict := by
  rw [outcome?_eq_some_iff, requests_settleWaiting] at hout
  by_cases hw : h.waiting = some ticket
  · rw [if_pos hw] at hout
    obtain ⟨r, _, hr⟩ := Option.map_eq_some_iff.mp hout
    exact .inr (congrArg Request.outcome hr).symm
  · rw [if_neg hw] at hout
    exact .inl (outcome?_eq_some_iff.mpr hout)

theorem outcome?_of_abandon {other : Ticket}
    (hout : (h.abandon other).outcome? ticket = some outcome) :
    h.outcome? ticket = some outcome := by
  by_cases heq : other = ticket
  · rw [heq, outcome?_abandon_self] at hout
    cases hout
  · rw [outcome?_eq_some_iff, requests_abandon, if_neg heq] at hout
    exact outcome?_eq_some_iff.mpr hout

end Requests

end Handoff

end MuxControl
