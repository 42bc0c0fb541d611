/-
MuxControl.Proofs.ReadProgress — whether a read gets on.

A read that is shown something takes at least a byte of it and does not
mistake it for the end of the stream: `Progresses` says so of a limit, for
every stream, and `Heeds` of the sessions that work under it. Both hold of
every limit of 64 bits but the greatest one (`progresses_iff`), for which
one byte more does not fit 64 bits. No read comes to anything then
(`nextLine?_max64`): the first client that is accepted makes its session
panic before it has sent anything, and the loop is over
(`Server.welcome_max64`).

No check keeps the greatest limit out: a valid configuration stays valid
with it (`Settings.Valid.withLineLimit`).
-/
import MuxControl.Config.Validation
import MuxControl.Proofs.LineFraming
import MuxControl.Proofs.ServerEffects

namespace MuxControl

namespace Wire

variable {limit : Nat} {stream : Bytes}

/-! ## Reads -/

/-- Every read within the limit has a budget of one byte more. Of a stream
that is not at its end it takes at least a byte, and it does not report the
end. -/
structure Progresses (limit : Nat) : Prop where
  budget : budget? limit = some (limit + 1)
  reads : ∀ stream, stream ≠ [] → ∃ line rest,
    nextLine? limit stream = some (line, rest) ∧ line ≠ .ok none ∧ rest.length < stream.length

theorem length_behindLine_lt (hne : stream ≠ []) :
    (behindLine limit stream).length < stream.length := by
  have hpos := List.length_pos_iff.mpr hne
  rw [behindLine, List.length_drop]
  omega

theorem firstLine_ne_none (hne : stream ≠ []) : firstLine limit stream ≠ .ok none := fun hend =>
  hne ((cut_firstLine limit stream).exhausted.mp hend)

theorem progresses_of_lt (hlimit : limit < Word.max64) : Progresses limit where
  budget := budget?_of_lt hlimit
  reads stream hne :=
    ⟨_, _, nextLine?_of_lt hlimit stream, firstLine_ne_none hne, length_behindLine_lt hne⟩

theorem budget?_max64 : budget? Word.max64 = none := rfl

/-- Within the greatest limit no read comes to anything. -/
theorem nextLine?_max64 (stream : Bytes) : nextLine? Word.max64 stream = none := by
  rw [nextLine?, budget?_max64, Option.map_none]

end Wire

open Wire

/-! ## Sessions -/

namespace Session

variable {s : Session} {limit : Nat}

/-- No session within the limit panics. Each reads its next line once the
newline is there or its client will send no more; when it has something to
read, it takes at least a byte, and does not take it for the end. -/
structure Heeds (limit : Nat) : Prop where
  calm : ∀ s : Session, s.settings.lineLimit = limit → s.panics = false
  told : ∀ s : Session, s.settings.lineLimit = limit →
    newlineByte ∈ s.unread ∨ s.ended = true → s.takeLine? ≠ none
  takes : ∀ s : Session, s.settings.lineLimit = limit → s.unread ≠ [] →
    ∀ line s', s.takeLine? = some (line, s') →
      line ≠ .ok none ∧ s'.unread.length < s.unread.length

theorem panics_of_lt (hlimit : s.settings.lineLimit < Word.max64) : s.panics = false := by
  unfold panics
  rw [budget?_of_lt hlimit]
  split <;> rfl

theorem heeds_of_lt (hlimit : limit < Word.max64) : Heeds limit where
  calm := by
    rintro s rfl
    exact panics_of_lt hlimit
  told := by
    rintro s rfl hready
    have htold : Told s.settings.lineLimit s.unread s.ended := hready.imp_right .inr
    rw [takeLine?_of_told hlimit htold]
    exact Option.some_ne_none _
  takes := by
    rintro s rfl hne line s' htake
    rw [takeLine?_eq hlimit] at htake
    obtain ⟨_, hread⟩ := Option.ite_none_right_eq_some.mp htake
    obtain ⟨rfl, rfl⟩ := Prod.mk.inj (Option.some.inj hread)
    exact ⟨firstLine_ne_none hne, length_behindLine_lt hne⟩

/-- Within the greatest limit a session panics as it comes to read the
command. -/
theorem panics_max64 (hlimit : s.settings.lineLimit = Word.max64) (hstage : s.stage = .command) :
    s.panics = true := by
  simp [panics, hlimit, hstage, budget?_max64]

end Session

namespace Server

variable {s : Server} {w : Worker}

theorem collapse_of_calm (hcalm : ∀ session, s.session? = some session → session.panics = false) :
    s.collapse = s := by
  unfold collapse
  cases hsession : s.session? with
  | none => rfl
  | some session => simp [hcalm session hsession]

/-- Within any other limit, accepting a connection is all that happens. -/
theorem welcome_of_lt (hw : s.worker = some w) (hfree : w.session = none)
    (hlimit : w.settings.lineLimit < Word.max64) (writeFault : Option String) :
    s.welcome writeFault = s.accept writeFault := by
  have hcalm : (s.accept writeFault).2.collapse = (s.accept writeFault).2 := by
    refine collapse_of_calm fun session hsession => Session.panics_of_lt ?_
    rw [accept_of_some hw] at hsession
    split at hsession
    · rw [session?, hw, Option.bind_some, hfree] at hsession
      cases hsession
    · rw [session?_follow] at hsession
      cases writeFault with
      | none => exact Option.some.inj hsession ▸ hlimit
      | some reason => cases hsession
  exact Prod.ext rfl hcalm

/-- Within the greatest limit the first client is greeted, and the loop is
over. -/
theorem welcome_max64 (hw : s.worker = some w) (hfinished : w.finished = false)
    (hfree : w.session = none) (hlimit : w.settings.lineLimit = Word.max64) :
    let after := (s.welcome none).2
    (s.welcome none).1 = banner w.settings.serviceName w.settings.serviceVersion ∧
      after.worker = some { w with finished := true } ∧ after.running = false ∧
      after.faulted = true ∧ after.station.handoff.isOpen = false := by
  intro after
  let session : Session := { connection := s.nextConnection, settings := w.settings }
  let greeted := (s.accept none).2
  have haccept : s.accept none =
      (banner w.settings.serviceName w.settings.serviceVersion, greeted) := by
    show s.accept none = (_, (s.accept none).2)
    rw [accept_of_some hw]
    simp [hfinished, hfree, follow, Session.greet]
  have hgreeted : greeted.worker = some { w with session := some session } := by
    show (s.accept none).2.worker = _
    rw [accept_of_some hw]
    simp [hfinished, hfree, follow, Session.greet, session]
  have hpanics : greeted.session?.any Session.panics = true := by
    rw [session?, hgreeted]
    exact Session.panics_max64 (s := session) hlimit rfl
  have hafter : after = greeted.endLoop := by
    show greeted.collapse = _
    rw [collapse, if_pos hpanics]
  refine ⟨congrArg Prod.fst haccept, ?_⟩
  obtain ⟨hnot, _⟩ | ⟨w', hw', _, hend⟩ := greeted.endLoop_cases
  · simp [isLooping, hgreeted, hfinished] at hnot
  · obtain rfl := Option.some.inj (hgreeted.symm.trans hw')
    rw [hafter, hend]
    exact ⟨by rw [← hfree], rfl, rfl, Handoff.isOpen_closed _⟩

end Server

/-! ## The limits that a configuration may hold -/

/-- The configuration with another line limit. -/
def Settings.withLineLimit (settings : Settings) (limit : Nat) : Settings :=
  { settings with server := { settings.server with lineLimit := limit } }

/-- Any greater line limit is as good to the checks. -/
theorem Settings.Valid.withLineLimit {settings : Settings} (hvalid : settings.Valid) {limit : Nat}
    (hlimit : settings.server.lineLimit ≤ limit) : (settings.withLineLimit limit).Valid := by
  rw [Settings.valid_iff] at hvalid ⊢
  exact ⟨Nat.le_trans hvalid.1 hlimit, hvalid.2⟩

/-- **When reads get on.** Of all limits of 64 bits it is just the greatest
one within which a read has no budget, and a session panics or does not
read what its client sent. Within that limit no read comes to anything, and
the first client that a loop accepts ends it; yet it passes the checks in
every configuration that does with another limit. -/
theorem progresses_iff {limit : Nat} (hlimit : limit ≤ Word.max64) :
    (Progresses limit ↔ limit ≠ Word.max64) ∧
    (Session.Heeds limit ↔ limit ≠ Word.max64) ∧
    (∀ stream, nextLine? Word.max64 stream = none) ∧
    (∀ (s : Server) (w : Worker), s.worker = some w → w.finished = false → w.session = none →
      w.settings.lineLimit = Word.max64 →
      let after := (s.welcome none).2
      after.worker = some { w with finished := true } ∧ after.running = false ∧
        after.faulted = true ∧ after.station.handoff.isOpen = false) ∧
    ∀ settings : Settings, settings.Valid → settings.server.lineLimit = limit →
      (settings.withLineLimit Word.max64).Valid := by
  have hlt : limit ≠ Word.max64 → limit < Word.max64 := Nat.lt_of_le_of_ne hlimit
  refine ⟨⟨?_, fun hne => progresses_of_lt (hlt hne)⟩,
    ⟨?_, fun hne => Session.heeds_of_lt (hlt hne)⟩, nextLine?_max64,
    fun s w hw hfinished hfree htop => (Server.welcome_max64 hw hfinished hfree htop).2,
    fun settings hvalid heq => hvalid.withLineLimit (heq ▸ hlimit)⟩
  · rintro hprogresses rfl
    cases budget?_max64.symm.trans hprogresses.budget
  · rintro hheeds rfl
    let s : Session := { connection := 1, settings := { lineLimit := Word.max64 } }
    cases (Session.panics_max64 (s := s) rfl rfl).symm.trans (hheeds.calm s rfl)

/-- The next smaller limit is a good one. -/
theorem progresses_iff_next_smaller :
    Word.max64 - 1 ≤ Word.max64 ∧ Progresses (Word.max64 - 1) ∧ Session.Heeds (Word.max64 - 1) := by
  have hlimit : Word.max64 - 1 ≤ Word.max64 := by decide
  obtain ⟨hreads, hsessions, _⟩ := progresses_iff hlimit
  exact ⟨hlimit, hreads.mpr (by decide), hsessions.mpr (by decide)⟩

/-- A valid configuration within which a command is not read. -/
theorem top_limit_reads_nothing :
    ¬ ∀ (settings : Settings) (stream : Bytes), settings.Valid →
      settings.server.lineLimit ≤ Word.max64 → stream ≠ [] →
      budget? settings.server.lineLimit = some (settings.server.lineLimit + 1) ∧
        ∃ line rest, nextLine? settings.server.lineLimit stream = some (line, rest) ∧
          line ≠ .ok none ∧ rest.length < stream.length := by
  intro h
  let settings : Settings := { server := { lineLimit := Word.max64 } }
  obtain ⟨_, line, rest, hread, _⟩ := h settings (encode "config\n")
    (by decide +kernel) (by decide) (by decide +kernel)
  cases (nextLine?_max64 (encode "config\n")).symm.trans hread

end MuxControl
