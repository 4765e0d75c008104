import Mathlib.Algebra.Ring.Nat
import Mathlib.Data.List.Chain
import RfidReader.Proofs.Region.OffTime

/-!
# RfidReader.Proofs.Region.OnAir

How long a channel is on the air between two rests.

A `Step` is something that happens while off times are tracked: once the
transmission before it is over, a transmission on the channel asks for its
timers, starts no earlier than they allow and ends within the limit they give;
other channels do as they like.  Transmissions with gaps shorter than the off
time between them add up to the regulatory limit at most (`sum_onMs_le`).

The invariant relates the on time since the last rest to the total of the
tracker: the total counts the gaps, too, so it is never less.
-/

namespace RfidReader
namespace OnAir

/-! ## Runs -/

/-- A transmission that is over. -/
structure Transmission where
  startMs : UInt32
  endMs : UInt32
  deriving DecidableEq, Repr

/-- How long a transmission was on the air. -/
def Transmission.onMs (x : Transmission) : Nat := x.endMs.toNat - x.startMs.toNat

/-- What a channel is about to do. -/
inductive Phase where
  | idle
  /-- The timers of the next transmission have been asked for. -/
  | planned (queryMs : UInt32) (timers : DwellTimers)
  /-- A transmission is on the air, for no longer than its limit. -/
  | onAir (startMs : UInt32) (limitMs : UInt16)
  deriving DecidableEq, Repr

/-- A tracker, and what happens on one of its channels. -/
structure State where
  tracker : OffTimeTracker := .fresh
  /-- The time of the last step. -/
  nowMs : UInt32 := 0
  phase : Phase := .idle
  /-- The transmissions on the channel, newest first. -/
  history : List Transmission := []

/-- A step while off times are tracked, with the timers of a rested channel. -/
inductive Step (rested : DwellTimers) (index : Nat) : State → State → Prop where
  | startOther (s : State) {other : Nat} (h : other ≠ index) (timeMs : UInt32)
      (timers : DwellTimers) :
      Step rested index s { s with tracker := s.tracker.start other timeMs timers }
  | finishOther (s : State) {other : Nat} (h : other ≠ index) (timeMs : UInt32) :
      Step rested index s { s with tracker := s.tracker.finish other timeMs }
  | query (s : State) (timeMs : UInt32)
      (hphase : ∀ startMs limitMs, s.phase ≠ .onAir startMs limitMs)
      (hnow : s.nowMs ≤ timeMs) :
      Step rested index s
        { s with
          nowMs := timeMs
          phase := .planned timeMs (s.tracker.timersAt index timeMs rested) }
  | start (s : State) (timeMs : UInt32) {queryMs : UInt32} {timers : DwellTimers}
      (hphase : s.phase = .planned queryMs timers) (hnow : s.nowMs ≤ timeMs)
      (howed : queryMs.toNat + timers.offSameChannelMs.toNat ≤ timeMs.toNat) :
      Step rested index s
        { s with
          tracker := s.tracker.start index timeMs rested
          nowMs := timeMs
          phase := .onAir timeMs timers.regulatoryMs }
  | finish (s : State) (timeMs : UInt32) {startMs : UInt32} {limitMs : UInt16}
      (hphase : s.phase = .onAir startMs limitMs) (hnow : s.nowMs ≤ timeMs)
      (hlimit : timeMs.toNat ≤ startMs.toNat + limitMs.toNat) :
      Step rested index s
        { tracker := s.tracker.finish index timeMs
          nowMs := timeMs
          phase := .idle
          history := ⟨startMs, timeMs⟩ :: s.history }

/-- The states that a run reaches from a tracker that has seen nothing. -/
inductive Reaches (rested : DwellTimers) (index : Nat) : State → Prop where
  | fresh : Reaches rested index {}
  | step {s s' : State} (h : Reaches rested index s) (hstep : Step rested index s s') :
      Reaches rested index s'

/-! ## On time since the last rest -/

/-- Whether a start comes less than the off time after the newest transmission. -/
def follows (offMs : Nat) (startMs : UInt32) : List Transmission → Bool
  | [] => false
  | x :: _ => startMs.toNat - x.endMs.toNat < offMs

/-- The on time since the last rest. -/
def recentMs (offMs : Nat) : List Transmission → Nat
  | [] => 0
  | x :: rest => x.onMs + if follows offMs x.startMs rest then recentMs offMs rest else 0

/-- The on time since the last rest at a start. -/
def carriedMs (offMs : Nat) (startMs : UInt32) (history : List Transmission) : Nat :=
  if follows offMs startMs history then recentMs offMs history else 0

theorem recentMs_cons (offMs : Nat) (x : Transmission) (rest : List Transmission) :
    recentMs offMs (x :: rest) = x.onMs + carriedMs offMs x.startMs rest := rfl

/-- Transmissions with short gaps all count as on time since the last rest. -/
theorem sum_onMs_le_recentMs {offMs : Nat} {chain : List Transmission}
    (hchain : chain.IsChain fun x y => x.startMs.toNat - y.endMs.toNat < offMs)
    (older : List Transmission) :
    (chain.map (·.onMs)).sum ≤ recentMs offMs (chain ++ older) := by
  induction chain with
  | nil => exact Nat.zero_le _
  | cons x chain ih =>
      cases chain with
      | nil => exact Nat.le_add_right _ _
      | cons y chain =>
          rw [List.isChain_cons_cons] at hchain
          have hfollows : follows offMs x.startMs (y :: chain ++ older) = true :=
            decide_eq_true hchain.1
          rw [List.cons_append, recentMs_cons, carriedMs, hfollows, if_pos rfl, List.map_cons,
            List.sum_cons]
          exact Nat.add_le_add_left (ih hchain.2) _

/-! ## The invariant -/

/-- What holds of the record of a channel in each phase. -/
def PhaseHolds (rested : DwellTimers) (u : ChannelUse) (nowMs : UInt32)
    (history : List Transmission) : Phase → Prop
  | .idle => u.lastStart ≤ u.lastEnd ∧
      recentMs rested.offSameChannelMs.toNat history ≤ u.totalMs.toNat
  | .planned queryMs timers => u.lastStart ≤ u.lastEnd ∧
      recentMs rested.offSameChannelMs.toNat history ≤ u.totalMs.toNat ∧
      u.lastEnd ≤ queryMs ∧ queryMs ≤ nowMs ∧ timers = u.timersAt queryMs rested
  | .onAir startMs limitMs => u.lastStart = startMs ∧ startMs ≤ nowMs ∧
      carriedMs rested.offSameChannelMs.toNat startMs history ≤ u.totalMs.toNat ∧
      carriedMs rested.offSameChannelMs.toNat startMs history + limitMs.toNat
        ≤ rested.regulatoryMs.toNat

/-- What holds in every state of a run. -/
structure Invariant (rested : DwellTimers) (index : Nat) (s : State) (u : ChannelUse) :
    Prop where
  use?_eq : s.tracker.use? index = some u
  lastEnd_le : u.lastEnd ≤ s.nowMs
  lastEnd_eq : ∀ x rest, s.history = x :: rest → x.endMs = u.lastEnd
  recent_le : ∀ suffix, suffix <:+ s.history →
    recentMs rested.offSameChannelMs.toNat suffix ≤ rested.regulatoryMs.toNat
  phase : PhaseHolds rested u s.nowMs s.history s.phase

variable {rested : DwellTimers} {index : Nat} {s s' : State} {u : ChannelUse}

/-- Off the air, the total is no less than the on time since the last rest. -/
private theorem PhaseHolds.off {nowMs : UInt32} {history : List Transmission} {phase : Phase}
    (h : PhaseHolds rested u nowMs history phase)
    (hphase : ∀ startMs limitMs, phase ≠ .onAir startMs limitMs) :
    u.lastStart ≤ u.lastEnd ∧
      recentMs rested.offSameChannelMs.toNat history ≤ u.totalMs.toNat := by
  cases phase with
  | idle => exact h
  | planned queryMs timers => exact ⟨h.1, h.2.1⟩
  | onAir startMs limitMs => exact absurd rfl (hphase startMs limitMs)

namespace Invariant

theorem fresh (hindex : index < 4) : Invariant rested index {} {} where
  use?_eq := OffTimeTracker.use?_fresh hindex
  lastEnd_le := UInt32.le_refl _
  lastEnd_eq _ _ h := nomatch h
  recent_le suffix h := by
    rw [List.suffix_nil.mp h]
    exact Nat.zero_le _
  phase := ⟨UInt32.le_refl _, Nat.zero_le _⟩

/-- What happens on other channels does not matter. -/
theorem other (h : Invariant rested index s u) {other : Nat} (hother : other ≠ index)
    (f : ChannelUse → ChannelUse) :
    Invariant rested index { s with tracker := s.tracker.update other f } u :=
  { h with use?_eq := (s.tracker.use?_update_of_ne f hother).trans h.use?_eq }

theorem query (h : Invariant rested index s u) {timeMs : UInt32}
    (hphase : ∀ startMs limitMs, s.phase ≠ .onAir startMs limitMs) (hnow : s.nowMs ≤ timeMs) :
    Invariant rested index
      { s with
        nowMs := timeMs
        phase := .planned timeMs (s.tracker.timersAt index timeMs rested) } u where
  use?_eq := h.use?_eq
  lastEnd_le := UInt32.le_trans h.lastEnd_le hnow
  lastEnd_eq := h.lastEnd_eq
  recent_le := h.recent_le
  phase := by
    obtain ⟨hidle, hrecent⟩ := h.phase.off hphase
    exact ⟨hidle, hrecent, UInt32.le_trans h.lastEnd_le hnow, UInt32.le_refl _,
      OffTimeTracker.timersAt_of_use? h.use?_eq timeMs rested⟩

/-- A start that follows the newest transmission comes less than the off time after its end. -/
private theorem short_of_follows (h : Invariant rested index s u) {offMs : Nat}
    {startMs : UInt32} (hfollows : follows offMs startMs s.history = true) :
    startMs.toNat - u.lastEnd.toNat < offMs := by
  cases hhistory : s.history with
  | nil =>
      rw [hhistory] at hfollows
      contradiction
  | cons x rest =>
      rw [hhistory] at hfollows
      rw [← h.lastEnd_eq x rest hhistory]
      exact of_decide_eq_true hfollows

/-- A start carries over no more than the total, and leaves the rest of the regulatory limit. -/
theorem start (hindex : index < 4) (hlimits : rested.nominalMs ≤ rested.regulatoryMs)
    (h : Invariant rested index s u) {timeMs queryMs : UInt32} {timers : DwellTimers}
    (hphase : s.phase = .planned queryMs timers) (hnow : s.nowMs ≤ timeMs)
    (howed : queryMs.toNat + timers.offSameChannelMs.toNat ≤ timeMs.toNat) :
    Invariant rested index
      { s with
        tracker := s.tracker.start index timeMs rested
        nowMs := timeMs
        phase := .onAir timeMs timers.regulatoryMs } (u.started timeMs rested) where
  use?_eq := by
    show (s.tracker.update index _).use? index = _
    rw [OffTimeTracker.use?_update _ _ hindex, h.use?_eq, Option.map_some]
  lastEnd_le := UInt32.le_trans h.lastEnd_le hnow
  lastEnd_eq := h.lastEnd_eq
  recent_le := h.recent_le
  phase := by
    have hplanned := h.phase
    rw [hphase] at hplanned
    obtain ⟨hidle, hrecent, hquery, -, rfl⟩ := hplanned
    have hend : u.lastEnd ≤ timeMs := UInt32.le_trans h.lastEnd_le hnow
    have hbudget := ChannelUse.rested_or_within hlimits hidle hquery howed
    refine ⟨rfl, UInt32.le_refl _, ?_⟩
    unfold carriedMs
    cases hfollows : follows rested.offSameChannelMs.toNat timeMs s.history with
    | false =>
        refine ⟨Nat.zero_le _, ?_⟩
        rw [if_neg Bool.false_ne_true, Nat.zero_add]
        rcases hbudget with ⟨-, hregulatory⟩ | hwithin
        · rw [hregulatory]
        · exact Nat.le_trans (Nat.le_add_left _ _) hwithin
    | true =>
        have hshort := h.short_of_follows hfollows
        refine ⟨ChannelUse.le_totalMs_started hend hshort hrecent, ?_⟩
        rw [if_pos rfl]
        -- A channel that owes the off time does not start within it.
        rcases hbudget with ⟨hrested, -⟩ | hwithin
        · exact absurd hshort (Nat.not_lt_of_le hrested)
        · exact Nat.le_trans (Nat.add_le_add_right hrecent _) hwithin

/-- The end of a transmission within its limit keeps to the regulatory limit. -/
theorem finish (hindex : index < 4) (h : Invariant rested index s u) {timeMs startMs : UInt32}
    {limitMs : UInt16} (hphase : s.phase = .onAir startMs limitMs) (hnow : s.nowMs ≤ timeMs)
    (hlimit : timeMs.toNat ≤ startMs.toNat + limitMs.toNat) :
    Invariant rested index
      { tracker := s.tracker.finish index timeMs
        nowMs := timeMs
        phase := .idle
        history := ⟨startMs, timeMs⟩ :: s.history } (u.ended timeMs) := by
  have honAir := h.phase
  rw [hphase] at honAir
  obtain ⟨rfl, hstarted, hcarried, hregulatory⟩ := honAir
  have hstart : u.lastStart ≤ timeMs := UInt32.le_trans hstarted hnow
  have hrecent := recentMs_cons rested.offSameChannelMs.toNat ⟨u.lastStart, timeMs⟩ s.history
  have honMs : Transmission.onMs ⟨u.lastStart, timeMs⟩ = timeMs.toNat - u.lastStart.toNat := rfl
  have hlt := rested.regulatoryMs.toNat_lt
  constructor
  · show (s.tracker.update index _).use? index = _
    rw [OffTimeTracker.use?_update _ _ hindex, h.use?_eq, Option.map_some]
  · exact UInt32.le_refl _
  · intro x rest heq
    rw [← (List.cons.inj heq).1]
    rfl
  · intro suffix hsuffix
    rcases List.suffix_cons_iff.mp hsuffix with rfl | hsuffix
    · rw [hrecent, honMs]
      show _ + carriedMs _ u.lastStart _ ≤ _
      omega
    · exact h.recent_le suffix hsuffix
  · refine ⟨hstart, ?_⟩
    have htotal := ChannelUse.le_totalMs_ended hstart hcarried (by omega)
    rw [hrecent, honMs, Nat.add_comm]
    exact htotal

end Invariant

/-- **Step**: whatever happens, the invariant is kept. -/
theorem Invariant.step (hindex : index < 4) (hlimits : rested.nominalMs ≤ rested.regulatoryMs)
    (h : Invariant rested index s u) (hstep : Step rested index s s') :
    ∃ u', Invariant rested index s' u' := by
  cases hstep with
  | startOther hother timeMs timers => exact ⟨u, h.other hother _⟩
  | finishOther hother timeMs => exact ⟨u, h.other hother _⟩
  | query timeMs hphase hnow => exact ⟨u, h.query hphase hnow⟩
  | start timeMs hphase hnow howed => exact ⟨_, h.start hindex hlimits hphase hnow howed⟩
  | finish timeMs hphase hnow hlimit => exact ⟨_, h.finish hindex hphase hnow hlimit⟩

/-- **Run**: the invariant holds in every state that a run reaches. -/
theorem Reaches.invariant (hindex : index < 4) (hlimits : rested.nominalMs ≤ rested.regulatoryMs)
    (h : Reaches rested index s) : ∃ u, Invariant rested index s u := by
  induction h with
  | fresh => exact ⟨{}, .fresh hindex⟩
  | step _ hstep ih =>
      obtain ⟨u, hinvariant⟩ := ih
      exact hinvariant.step hindex hlimits hstep

/-- **On-air budget**: transmissions on a channel with gaps shorter than the off time between them
are on the air for the regulatory limit at most, all together. -/
theorem sum_onMs_le (hindex : index < 4) (hlimits : rested.nominalMs ≤ rested.regulatoryMs)
    (hreaches : Reaches rested index s) {newer chain older : List Transmission}
    (hhistory : s.history = newer ++ chain ++ older)
    (hgaps : chain.IsChain fun x y =>
      x.startMs.toNat - y.endMs.toNat < rested.offSameChannelMs.toNat) :
    (chain.map (·.onMs)).sum ≤ rested.regulatoryMs.toNat := by
  obtain ⟨u, hinvariant⟩ := hreaches.invariant hindex hlimits
  have hsuffix : chain ++ older <:+ s.history := ⟨newer, by rw [hhistory, List.append_assoc]⟩
  calc (chain.map (·.onMs)).sum
      ≤ recentMs rested.offSameChannelMs.toNat (chain ++ older) :=
        sum_onMs_le_recentMs hgaps older
    _ ≤ rested.regulatoryMs.toNat := hinvariant.recent_le _ hsuffix

/-- Two transmissions 50 ms apart that use up the limit of 4 s: the second one gets what the first
one left. -/
theorem sum_onMs_le_shortened :
    ∃ s, Reaches ⟨3800, 3980, 4000, 100⟩ 0 s ∧
      s.history = [⟨2050, 5050⟩, ⟨1000, 2000⟩] ∧ (s.history.map (·.onMs)).sum ≤ 4000 := by
  have hfresh : Reaches ⟨3800, 3980, 4000, 100⟩ 0 {} := .fresh
  have hquery := hfresh.step (Step.query {} 1000 nofun (by decide))
  have hstart := hquery.step (Step.start _ 1000 rfl (by decide) (by decide))
  have hfinish := hstart.step (Step.finish _ 2000 rfl (by decide) (by decide))
  have hquery' := hfinish.step (Step.query _ 2050 nofun (by decide))
  have hstart' := hquery'.step (Step.start _ 2050 rfl (by decide) (by decide))
  have hfinish' := hstart'.step (Step.finish _ 5050 rfl (by decide) (by decide))
  obtain ⟨s, hreaches, hhistory⟩ : ∃ s, Reaches ⟨3800, 3980, 4000, 100⟩ 0 s ∧
      s.history = [] ++ [⟨2050, 5050⟩, ⟨1000, 2000⟩] ++ [] := ⟨_, hfinish', rfl⟩
  refine ⟨s, hreaches, hhistory, ?_⟩
  rw [hhistory]
  exact sum_onMs_le (by decide) (by decide) hreaches hhistory (by decide)

end OnAir
end RfidReader
