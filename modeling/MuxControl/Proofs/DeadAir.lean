/-
MuxControl.Proofs.DeadAir — whether digital silence is noticed.

Dead air is an input that has data and no glitch, and whose peak reports
have been digital silence for more than the silence count. Two of the
limits that pass the checks keep it from being noticed, whatever the
others are. At a silence level of -90 no report is quiet: that is the level
of silence, and a quiet report lies below the silence level. With the
greatest count for a silence count, no number of quiet reports exceeds it:
counters stay there. With all other limits that pass the checks it is
noticed at once (`deadAir_noticed`).
-/
import MuxControl.Config.Validation
import MuxControl.Proofs.HealthPolling
import MuxControl.Proofs.PeakLevels

namespace MuxControl

/-! ## Dead air -/

namespace HealthEntry

/-- Whether peaks are reported, and whether these are digital silence. -/
@[simp] def mute? : HealthEntry → Option Bool
  | .report (.peaks left right) => some (left = 0 ∧ right = 0)
  | _ => none

end HealthEntry

namespace HealthHistory

/-- The reports of digital silence since the latest report of other
peaks. -/
def muteReports (history : HealthHistory) : Nat :=
  ((history.filterMap fun entry => entry.2.mute?).takeWhile id).length

/-- There was no glitch ever, the buffer is not empty, and the reports of
digital silence are more than the silence count. -/
structure DeadAir (limits : Thresholds) (history : HealthHistory) : Prop where
  calm : ∀ entry ∈ history, entry.2.isGlitch = false
  filled : history.isEmpty = false
  mute : limits.silenceCount < history.muteReports

variable {limits : Thresholds} {history : HealthHistory}

@[simp] theorem muteReports_cons (now : Instant) (entry : HealthEntry) (history : HealthHistory) :
    muteReports ((now, entry) :: history) =
      entry.mute?.elim history.muteReports fun mute =>
        if mute then history.muteReports + 1 else 0 := by
  unfold muteReports
  rw [List.filterMap_cons]
  cases entry.mute? with
  | none => rfl
  | some mute => cases mute <;> simp

theorem isEmpty_append_of_none {later : HealthHistory}
    (hnone : ∀ entry ∈ later, entry.2.level? = none) :
    isEmpty (later ++ history) = history.isEmpty := by
  induction later with
  | nil => rfl
  | cons entry rest ih =>
    obtain ⟨now, entry⟩ := entry
    rw [List.cons_append, isEmpty_cons, hnone _ List.mem_cons_self]
    exact ih fun other hmem => hnone other (List.mem_cons_of_mem _ hmem)

/-- **How dead air comes about.** After the buffer was filled nothing is
reported of it, and at last more reports of digital silence are made than
the silence count; queries may be made at any time. -/
theorem deadAir_of_filled {earlier later mutes : HealthHistory} {filledAt : Instant} {level : Nat}
    (hcalm : ∀ entry ∈ mutes ++ later ++ (filledAt, .report (.level level)) :: earlier,
      entry.2.isGlitch = false)
    (hlevel : 0 < level) (hlater : ∀ entry ∈ mutes ++ later, entry.2.level? = none)
    (hmutes : ∀ entry ∈ mutes, entry.2.mute? ≠ some false)
    (hcount : limits.silenceCount < mutes.countP fun entry => entry.2.mute?.isSome) :
    DeadAir limits (mutes ++ later ++ (filledAt, .report (.level level)) :: earlier) where
  calm := hcalm
  filled := by
    rw [isEmpty_append_of_none hlater, isEmpty_cons]
    simpa using Nat.ne_of_gt hlevel
  mute := by
    refine Nat.lt_of_lt_of_le hcount ?_
    clear hcalm hlater hcount
    rw [List.append_assoc]
    generalize later ++ (filledAt, .report (.level level)) :: earlier = rest
    induction mutes with
    | nil => exact Nat.zero_le _
    | cons entry mutes ih =>
      obtain ⟨now, entry⟩ := entry
      have hrest := ih fun other hmem => hmutes other (List.mem_cons_of_mem _ hmem)
      have hentry := hmutes _ List.mem_cons_self
      rw [List.cons_append, muteReports_cons, List.countP_cons]
      cases hmute : entry.mute? with
      | none => simpa [hmute] using hrest
      | some mute =>
        cases mute with
        | true => simpa [hmute] using hrest
        | false => exact absurd hmute hentry

/-- Digital silence on a filled buffer is dead air. -/
theorem deadAir_replicate (limits : Thresholds) :
    DeadAir limits (List.replicate (limits.silenceCount + 1) (0, .report (.peaks 0 0)) ++ [] ++
      [(0, .report (.level 1))]) := by
  have hmute : ∀ entry ∈ List.replicate (limits.silenceCount + 1)
      ((0, .report (.peaks 0 0)) : Instant × HealthEntry), entry = (0, .report (.peaks 0 0)) :=
    fun entry hmem => List.eq_of_mem_replicate hmem
  refine deadAir_of_filled (fun entry hmem => ?_) Nat.one_pos (fun entry hmem => ?_)
    (fun entry hmem => ?_) ?_
  · rw [List.append_nil, List.mem_append, List.mem_singleton] at hmem
    rcases hmem with hmem | rfl
    · rw [hmute entry hmem]
      rfl
    · rfl
  · rw [hmute entry (by simpa using hmem)]
    rfl
  · rw [hmute entry hmem]
    decide
  · rw [List.countP_replicate]
    simp

/-! ## What dead air is classified as -/

theorem glitches_of_calm (created : Instant) (hcalm : ∀ entry ∈ history, entry.2.isGlitch = false) :
    history.glitches limits created = 0 := by
  induction history with
  | nil => rfl
  | cons entry earlier ih =>
    obtain ⟨now, entry⟩ := entry
    have hnot : entry.isGlitch = false := hcalm _ List.mem_cons_self
    rw [glitches_cons, hnot, ih fun other hmem => hcalm other (List.mem_cons_of_mem _ hmem)]
    simp

/-- Digital silence is at the level of silence. -/
theorem isQuiet_zero (limits : Thresholds) :
    Input.isQuiet limits 0 0 = decide (silenceFloor < limits.silenceLevel) := by
  show decide (decibels 0 < limits.silenceLevel) = _
  rw [decibels_zero]

/-- Above the level of silence, reports of digital silence are quiet. -/
theorem muteReports_le_quietReports (hlevel : silenceFloor < limits.silenceLevel)
    (history : HealthHistory) : history.muteReports ≤ history.quietReports limits := by
  induction history with
  | nil => exact Nat.le_refl _
  | cons entry earlier ih =>
    obtain ⟨now, entry⟩ := entry
    rw [muteReports_cons, quietReports_cons]
    cases entry with
    | report report =>
      cases report with
      | peaks left right =>
        by_cases hmute : left = 0 ∧ right = 0
        · obtain ⟨rfl, rfl⟩ := hmute
          simp [isQuiet_zero, hlevel, ih]
        · simp [hmute]
      | _ => exact ih
    | query query => exact ih

/-- At the level of silence no report is quiet. -/
theorem quietReports_of_floor (hlevel : limits.silenceLevel ≤ silenceFloor)
    (history : HealthHistory) : history.quietReports limits = 0 := by
  have hloud : ∀ left right, Input.isQuiet limits left right = false := by
    intro left right
    have hfloor := silenceFloor_le_decibels (max (magnitude left) (magnitude right))
    exact decide_eq_false (Int.not_lt.mpr (Int.le_trans hlevel hfloor))
  induction history with
  | nil => rfl
  | cons entry earlier ih =>
    obtain ⟨now, entry⟩ := entry
    rw [quietReports_cons]
    cases entry with
    | report report =>
      cases report with
      | peaks left right => simp [hloud]
      | _ => exact ih
    | query query => exact ih

/-- Enough reports are quiet, if any are and if there can be enough. -/
theorem DeadAir.silenceCount_lt_iff (hdead : DeadAir limits history) :
    limits.silenceCount < min maxCount (history.quietReports limits) ↔
      -90 < limits.silenceLevel ∧ limits.silenceCount < Word.max32 := by
  by_cases hlevel : silenceFloor < limits.silenceLevel
  · have hquiet := Nat.lt_of_lt_of_le hdead.mute (muteReports_le_quietReports hlevel history)
    rw [Nat.lt_min, and_iff_left hquiet]
    exact (and_iff_right hlevel).symm
  · rw [quietReports_of_floor (Int.not_lt.mp hlevel)]
    exact iff_of_false (Nat.not_lt_zero _) fun hnotices => hlevel hnotices.1

theorem DeadAir.stateAt (hdead : DeadAir limits history) (hunstable : 0 < limits.unstable)
    (created now : Instant) :
    history.stateAt limits created now =
      if -90 < limits.silenceLevel ∧ limits.silenceCount < Word.max32 then .silence
      else .streaming := by
  unfold HealthHistory.stateAt
  simp only [glitches_of_calm created hdead.calm, hdead.filled, Nat.min_zero, ite_self,
    Bool.false_and, Bool.false_eq_true, if_false, Nat.not_le.mpr hunstable,
    hdead.silenceCount_lt_iff]

end HealthHistory

namespace Input

open HealthHistory

/-- **When dead air is noticed.** Under limits that pass the checks there
may be dead air, and then every classification says silence if the silence
level is above -90 and the silence count is not the greatest count. Under
all other limits that pass the checks none does: the input keeps streaming. -/
theorem deadAir_noticed {settings : Settings} (hvalid : settings.Valid) (name : String)
    (created : Instant) :
    (∃ history, DeadAir settings.inputs history) ∧
    ∀ history, DeadAir settings.inputs history → ∀ now query,
      HealthEntry.classifies (.query query) = true →
      ((reached (create name settings.inputs created) history).answer now query).1 =
        some (if -90 < settings.inputs.silenceLevel ∧ settings.inputs.silenceCount < Word.max32
          then .silence else .streaming) := by
  refine ⟨⟨_, deadAir_replicate settings.inputs⟩, fun history hdead now query hclassifies => ?_⟩
  obtain ⟨_, _, _, hunstable, _⟩ := Settings.valid_iff.mp hvalid
  have hobserve := fst_observe_reached name settings.inputs created history now
  rw [hdead.stateAt hunstable] at hobserve
  cases query with
  | observe => exact congrArg some hobserve
  | state => exact congrArg some hobserve
  | values => cases hclassifies

/-- Just above the level of silence, and with a query between the reports. -/
theorem deadAir_noticed_above_floor :
    let settings : Settings := { inputs := { silenceCount := 1, silenceLevel := -89 } }
    let history : HealthHistory :=
      [(5, .report (.peaks 0 0)), (4, .query .state), (3, .report (.peaks 0 0)),
        (2, .report (.peaks 0 9000)), (1, .report (.level 5)), (0, .report (.level 0))]
    settings.Valid ∧ HealthHistory.DeadAir settings.inputs history ∧
      ((reached (create "in" settings.inputs 0) history).answer 90000 .observe).1 =
        some .silence := by
  intro settings history
  have hvalid : settings.Valid := by decide +kernel
  have hdead : HealthHistory.DeadAir settings.inputs history :=
    ⟨by decide, by decide, by decide⟩
  exact ⟨hvalid, hdead, (deadAir_noticed hvalid "in" 0).2 history hdead 90000 .observe rfl⟩

/-- **Dead air that goes unnoticed**, under limits that pass the checks:
digital silence is not below the level of silence. -/
theorem dead_air_unnoticed :
    ¬ ∀ (settings : Settings) (name : String) (created : Instant) (history : HealthHistory)
      (now : Instant), settings.Valid → HealthHistory.DeadAir settings.inputs history →
      ((reached (create name settings.inputs created) history).answer now .state).1 =
        some .silence := by
  intro h
  let history : HealthHistory := [(1, .report (.peaks 0 0)), (0, .report (.level 10))]
  have hsilence := h { inputs := { silenceCount := 0, silenceLevel := -90 } } "in" 0 history 1
    (by decide +kernel) ⟨by decide, by decide, by decide⟩
  revert hsilence
  decide +kernel

end Input

end MuxControl
