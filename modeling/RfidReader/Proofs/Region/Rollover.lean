import Mathlib.Data.List.Chain
import RfidReader.Proofs.Region.OffTime

/-!
# RfidReader.Proofs.Region.Rollover

Off times across the rollover of the chip's millisecond counter.

The counter is the 32-bit microsecond timestamp divided by 1000: it starts over
after 4294967, where differences of readings start over after `2 ^ 32`.  A
history is given by the instants at which a channel is switched on and off;
`replay` reads them on a counter that is `shift` ahead.

As long as the counter does not start over between the first event and the
query, neither the total nor the timers depend on the shift.  Once it starts
over in a pause, what was used before is forgotten, and once it starts over
after the last transmission began, the timers are those of a rested channel,
whatever the channel has used or owes (`replay_shift`).
-/

namespace RfidReader

/-! ## The counter -/

/-- The number of readings of the millisecond counter. -/
def counterPeriodMs : Nat := 4294967295 / 1000 + 1

/-- What the counter reads at an instant. -/
def counterAt (ms : Nat) : UInt32 := UInt32.ofNat (ms % counterPeriodMs)

/-- A counter that is `shift` ahead does not start over from one instant to the other. -/
def SamePass (shift fromMs toMs : Nat) : Prop :=
  (shift + fromMs) / counterPeriodMs = (shift + toMs) / counterPeriodMs

instance (shift fromMs toMs : Nat) : Decidable (SamePass shift fromMs toMs) :=
  inferInstanceAs (Decidable (_ = _))

theorem toNat_counterAt (ms : Nat) : (counterAt ms).toNat = ms % 4294968 := by
  rw [counterAt, UInt32.toNat_ofNat']
  have hlt := Nat.mod_lt ms (show 0 < counterPeriodMs by decide)
  exact Nat.mod_eq_of_lt (Nat.lt_trans hlt (by decide))

theorem counterAt_lt (ms : Nat) : (counterAt ms).toNat < counterPeriodMs := by
  rw [toNat_counterAt]
  exact Nat.mod_lt _ (by decide)

namespace SamePass

variable {shift fromMs toMs ms : Nat}

/-- What comes between two instants of a pass belongs to it. -/
theorem of_between (h : SamePass shift fromMs toMs) (hfrom : fromMs ≤ ms) (hto : ms ≤ toMs) :
    SamePass shift fromMs ms := by
  have hlow := Nat.div_le_div_right (c := counterPeriodMs) (Nat.add_le_add_left hfrom shift)
  have hhigh := Nat.div_le_div_right (c := counterPeriodMs) (Nat.add_le_add_left hto shift)
  unfold SamePass at h ⊢
  omega

/-- Within a pass the counter is the instant, up to a constant. -/
theorem toNat_counterAt_add (h : SamePass shift fromMs ms) :
    (counterAt (shift + ms)).toNat + 4294968 * ((shift + fromMs) / 4294968) = shift + ms := by
  have hpass : (shift + fromMs) / 4294968 = (shift + ms) / 4294968 := h
  rw [toNat_counterAt, hpass]
  exact Nat.mod_add_div _ _

/-- Two instants after which the counter starts over, less than a period apart. -/
theorem lt_of_not (h : ¬ SamePass shift fromMs toMs) (hle : fromMs ≤ toMs)
    (hlt : toMs < fromMs + counterPeriodMs) :
    (counterAt (shift + toMs)).toNat < (counterAt (shift + fromMs)).toNat := by
  have hfrom := toNat_counterAt (shift + fromMs)
  have hto := toNat_counterAt (shift + toMs)
  unfold SamePass at h
  simp only [counterPeriodMs] at h hlt
  omega

end SamePass

/-! ## Histories -/

/-- Which way a transmitter is switched. -/
inductive Turn where
  | on
  | off
  deriving DecidableEq, Repr

/-- The transmitter is switched at an instant. -/
structure Switching where
  atMs : Nat
  turn : Turn
  deriving DecidableEq, Repr

/-- The instants of a history and a query after it are in order, neighbours less than half a
period of the counter apart. -/
def Close (history : List Switching) (queryMs : Nat) : Prop :=
  (history.map (·.atMs) ++ [queryMs]).IsChain fun a b => a ≤ b ∧ 2 * (b - a) < counterPeriodMs

instance (history : List Switching) (queryMs : Nat) : Decidable (Close history queryMs) :=
  inferInstanceAs (Decidable (List.IsChain _ _))

namespace ChannelUse

/-- Switch a channel, with a counter that is `shift` ahead. -/
def switch (u : ChannelUse) (rested : DwellTimers) (shift : Nat) (x : Switching) : ChannelUse :=
  match x.turn with
  | .on => u.started (counterAt (shift + x.atMs)) rested
  | .off => u.ended (counterAt (shift + x.atMs))

/-- Go through a history, with a counter that is `shift` ahead. -/
def replay (u : ChannelUse) (rested : DwellTimers) (shift : Nat) (history : List Switching) :
    ChannelUse :=
  history.foldl (fun u x => u.switch rested shift x) u

end ChannelUse

namespace OffTimeTracker

/-- Switch a channel of a tracker, with a counter that is `shift` ahead. -/
def switch (t : OffTimeTracker) (index : Nat) (rested : DwellTimers) (shift : Nat)
    (x : Switching) : OffTimeTracker :=
  match x.turn with
  | .on => t.start index (counterAt (shift + x.atMs)) rested
  | .off => t.finish index (counterAt (shift + x.atMs))

/-- Go through a history of a channel, with a counter that is `shift` ahead. -/
def replay (t : OffTimeTracker) (index : Nat) (rested : DwellTimers) (shift : Nat)
    (history : List Switching) : OffTimeTracker :=
  history.foldl (fun t x => t.switch index rested shift x) t

/-- The total after a history, less that after its first event. -/
def growthMs (t : OffTimeTracker) (index : Nat) (rested : DwellTimers) (shift : Nat)
    (history : List Switching) : Int :=
  ((t.replay index rested shift history).totalMs index).toNat
    - ((t.replay index rested shift (history.take 1)).totalMs index).toNat

/-- Whether the growth of the total and the timers are the same, however far ahead the counter
is. -/
def SurvivesShifts (t : OffTimeTracker) (index : Nat) (rested : DwellTimers)
    (history : List Switching) (queryMs : Nat) : Prop :=
  ∀ shift shift' : Nat,
    t.growthMs index rested shift history = t.growthMs index rested shift' history ∧
    (t.replay index rested shift history).timersAt index (counterAt (shift + queryMs)) rested =
      (t.replay index rested shift' history).timersAt index (counterAt (shift' + queryMs)) rested

/-- **The rollover is not survived**: a channel that used up its dwell of 3.8 s owes 40 ms after
60 ms, but nothing if the counter starts over in between. -/
theorem not_survivesShifts_owed :
    Close [⟨0, .on⟩, ⟨3800, .off⟩] 3860 ∧
      ¬ fresh.SurvivesShifts 0 ⟨3800, 3980, 4000, 100⟩ [⟨0, .on⟩, ⟨3800, .off⟩] 3860 := by
  refine ⟨by decide, fun h => ?_⟩
  have htimers := (h 1000 4291130).2
  revert htimers
  decide

/-- A history changes the record of its own entry only by replaying itself on it. -/
theorem use?_replay (t : OffTimeTracker) {index : Nat} (hindex : index < 4)
    (rested : DwellTimers) (shift : Nat) (history : List Switching) :
    (t.replay index rested shift history).use? index =
      (t.use? index).map (·.replay rested shift history) := by
  induction history generalizing t with
  | nil => exact Option.map_id'.symm
  | cons x history ih =>
      have hswitch : (t.switch index rested shift x).use? index =
          (t.use? index).map (·.switch rested shift x) := by
        unfold switch ChannelUse.switch
        cases x.turn with
        | on => exact use?_update t _ hindex
        | off => exact use?_update t _ hindex
      show ((t.switch index rested shift x).replay index rested shift history).use? index = _
      rw [ih, hswitch, Option.map_map]
      rfl

end OffTimeTracker

namespace ChannelUse

/-! ## Within a pass -/

/-- Two records with the same total whose times were read at the same instants, on counters that
are `shift` and `shift'` ahead. -/
structure Alike (shift shift' : Nat) (instants : Nat → Prop) (u u' : ChannelUse) : Prop where
  total : u.totalMs = u'.totalMs
  start : ∃ ms, instants ms ∧ u.lastStart = counterAt (shift + ms) ∧
    u'.lastStart = counterAt (shift' + ms)
  finish : ∃ ms, instants ms ∧ u.lastEnd = counterAt (shift + ms) ∧
    u'.lastEnd = counterAt (shift' + ms)

section Pass

variable {shift shift' firstMs queryMs : Nat} {rested : DwellTimers} {u u' : ChannelUse}

/-- Within a pass, how far apart two readings are does not depend on the shift. -/
theorem counterAt_sub_eq (h : SamePass shift firstMs queryMs)
    (h' : SamePass shift' firstMs queryMs) {a b : Nat} (ha : firstMs ≤ a ∧ a ≤ queryMs)
    (hb : firstMs ≤ b ∧ b ≤ queryMs) :
    counterAt (shift + b) - counterAt (shift + a) =
      counterAt (shift' + b) - counterAt (shift' + a) := by
  have hra := (h.of_between ha.1 ha.2).toNat_counterAt_add
  have hrb := (h.of_between hb.1 hb.2).toNat_counterAt_add
  have hra' := (h'.of_between ha.1 ha.2).toNat_counterAt_add
  have hrb' := (h'.of_between hb.1 hb.2).toNat_counterAt_add
  have hlt := (counterAt (shift + a)).toNat_lt
  have hlt' := (counterAt (shift' + a)).toNat_lt
  rw [← UInt32.toNat_inj, UInt32.toNat_sub, UInt32.toNat_sub]
  omega

/-- Within a pass, which of two readings is earlier does not depend on the shift. -/
theorem counterAt_lt_iff (h : SamePass shift firstMs queryMs)
    (h' : SamePass shift' firstMs queryMs) {a b : Nat} (ha : firstMs ≤ a ∧ a ≤ queryMs)
    (hb : firstMs ≤ b ∧ b ≤ queryMs) :
    counterAt (shift + a) < counterAt (shift + b) ↔
      counterAt (shift' + a) < counterAt (shift' + b) := by
  have hra := (h.of_between ha.1 ha.2).toNat_counterAt_add
  have hrb := (h.of_between hb.1 hb.2).toNat_counterAt_add
  have hra' := (h'.of_between ha.1 ha.2).toNat_counterAt_add
  have hrb' := (h'.of_between hb.1 hb.2).toNat_counterAt_add
  rw [UInt32.lt_iff_toNat_lt, UInt32.lt_iff_toNat_lt]
  omega

namespace Alike

variable (h : SamePass shift firstMs queryMs) (h' : SamePass shift' firstMs queryMs)
include h h'

/-- A transmission within the pass makes records alike whose starts were charged the same. -/
theorem of_transmission {endMs : Nat} (hend : firstMs ≤ endMs ∧ endMs ≤ queryMs)
    (hfirst : (u.replay rested shift [⟨firstMs, .on⟩]).totalMs =
      (u'.replay rested shift' [⟨firstMs, .on⟩]).totalMs) :
    Alike shift shift' (fun ms => firstMs ≤ ms ∧ ms ≤ queryMs)
      (u.replay rested shift [⟨firstMs, .on⟩, ⟨endMs, .off⟩])
      (u'.replay rested shift' [⟨firstMs, .on⟩, ⟨endMs, .off⟩]) := by
  have hstart : firstMs ≤ firstMs ∧ firstMs ≤ queryMs :=
    ⟨Nat.le_refl _, Nat.le_trans hend.1 hend.2⟩
  refine ⟨?_, ⟨firstMs, hstart, rfl, rfl⟩, ⟨endMs, hend, rfl, rfl⟩⟩
  have hon := counterAt_sub_eq h h' hstart hend
  show clampUInt32 ((u.replay rested shift [⟨firstMs, .on⟩]).totalMs.toNat
      + (counterAt (shift + endMs) - counterAt (shift + firstMs)).toNat) =
    clampUInt32 ((u'.replay rested shift' [⟨firstMs, .on⟩]).totalMs.toNat
      + (counterAt (shift' + endMs) - counterAt (shift' + firstMs)).toNat)
  rw [hon, hfirst]

/-- **Step**: what is switched within the pass keeps records alike. -/
theorem switch (hu : Alike shift shift' (fun ms => firstMs ≤ ms ∧ ms ≤ queryMs) u u')
    {x : Switching} (hx : firstMs ≤ x.atMs ∧ x.atMs ≤ queryMs) :
    Alike shift shift' (fun ms => firstMs ≤ ms ∧ ms ≤ queryMs) (u.switch rested shift x)
      (u'.switch rested shift' x) := by
  obtain ⟨htotal, ⟨startMs, hstart, hu₁, hu₁'⟩, ⟨endMs, hend, hu₂, hu₂'⟩⟩ := hu
  unfold ChannelUse.switch
  cases x.turn with
  | on =>
      refine ⟨?_, ⟨x.atMs, hx, rfl, rfl⟩, ⟨endMs, hend, hu₂, hu₂'⟩⟩
      simp only [started]
      rw [hu₂, hu₂', counterAt_sub_eq h h' hend hx, htotal]
  | off =>
      refine ⟨?_, ⟨startMs, hstart, hu₁, hu₁'⟩, ⟨x.atMs, hx, rfl, rfl⟩⟩
      simp only [ended]
      rw [hu₁, hu₁', counterAt_sub_eq h h' hstart hx, htotal]

variable (rested) in
/-- **Run**: a history within the pass keeps records alike. -/
theorem replay (hu : Alike shift shift' (fun ms => firstMs ≤ ms ∧ ms ≤ queryMs) u u')
    {history : List Switching} (hhistory : ∀ x ∈ history, firstMs ≤ x.atMs ∧ x.atMs ≤ queryMs) :
    Alike shift shift' (fun ms => firstMs ≤ ms ∧ ms ≤ queryMs) (u.replay rested shift history)
      (u'.replay rested shift' history) := by
  induction history generalizing u u' with
  | nil => exact hu
  | cons x history ih =>
      exact ih (hu.switch h h' (hhistory x List.mem_cons_self))
        fun y hy => hhistory y (List.mem_cons_of_mem x hy)

/-- Alike records give the same timers. -/
theorem timersAt_eq (hu : Alike shift shift' (fun ms => firstMs ≤ ms ∧ ms ≤ queryMs) u u')
    (hquery : firstMs ≤ queryMs) :
    u.timersAt (counterAt (shift + queryMs)) rested =
      u'.timersAt (counterAt (shift' + queryMs)) rested := by
  obtain ⟨htotal, ⟨startMs, hstart, hu₁, hu₁'⟩, ⟨endMs, hend, hu₂, hu₂'⟩⟩ := hu
  have hlt := counterAt_lt_iff h h' hend hstart
  have hsub := counterAt_sub_eq h h' hend ⟨hquery, Nat.le_refl _⟩
  simp only [timersAt, hu₁, hu₁', hu₂, hu₂', htotal, hlt, hsub]

end Alike
end Pass

/-! ## Across the rollover -/

section

variable {u : ChannelUse} {timeMs : UInt32} (rested : DwellTimers)

/-- Across the rollover a gap comes out near `2 ^ 32`, which is more than any off time. -/
theorem offSameChannelMs_le_of_rollover {endMs : UInt32} (h : timeMs < endMs)
    (hend : endMs.toNat < counterPeriodMs) :
    rested.offSameChannelMs.toNat ≤ (timeMs - endMs).toNat := by
  have hoff := rested.offSameChannelMs.toNat_lt
  rw [UInt32.lt_iff_toNat_lt] at h
  rw [UInt32.toNat_sub]
  simp only [counterPeriodMs] at hend
  omega

/-- A channel whose last transmission began before the counter started over counts as rested. -/
theorem timersAt_of_rollover (h : timeMs < u.lastStart) (hend : u.lastEnd.toNat < counterPeriodMs) :
    u.timersAt timeMs rested = { rested with offSameChannelMs := 0 } := by
  unfold timersAt
  by_cases hon : u.lastEnd < u.lastStart
  · rw [if_pos hon]
  · -- The end was read before the rollover, too.
    have htoEnd : timeMs < u.lastEnd := UInt32.lt_of_lt_of_le h (UInt32.not_lt.mp hon)
    simp only [if_neg hon, if_pos (offSameChannelMs_le_of_rollover rested htoEnd hend)]

/-- A start is charged nothing if the last transmission ended before the counter started over. -/
theorem totalMs_started_of_rollover (h : timeMs < u.lastEnd)
    (hend : u.lastEnd.toNat < counterPeriodMs) : (u.started timeMs rested).totalMs = 0 := by
  simp only [started, if_pos (offSameChannelMs_le_of_rollover rested h hend)]

end

end ChannelUse

/-! ## Shifted histories -/

namespace Close

variable {history older : List Switching} {queryMs startMs endMs : Nat}

/-- The query is the latest instant. -/
theorem le_query (h : Close history queryMs) : ∀ x ∈ history, x.atMs ≤ queryMs := by
  intro x hx
  have hsorted := List.isChain_iff_pairwise.mp (h.imp fun _ _ hab => hab.1)
  exact (List.pairwise_append.mp hsorted).2.2 x.atMs (List.mem_map_of_mem hx) queryMs
    (List.mem_singleton_self _)

/-- The first event is the earliest instant. -/
theorem first_le {x : Switching} (h : Close (x :: history) queryMs) :
    ∀ y ∈ history, x.atMs ≤ y.atMs := by
  intro y hy
  have hsorted := List.isChain_iff_pairwise.mp (h.imp fun _ _ hab => hab.1)
  have hfirst := (List.pairwise_cons.mp hsorted).1
  exact hfirst y.atMs (List.mem_append_left _ (List.mem_map_of_mem hy))

/-- A history that ends with a transmission: the query comes less than a period after its
start. -/
theorem last_transmission
    (h : Close (older ++ [⟨startMs, .on⟩, ⟨endMs, .off⟩]) queryMs) :
    startMs ≤ endMs ∧ endMs ≤ queryMs ∧ queryMs < startMs + counterPeriodMs := by
  unfold Close at h
  rw [List.map_append, List.append_assoc] at h
  have hlast := h.right_of_append
  simp only [List.map_cons, List.map_nil, List.cons_append, List.nil_append,
    List.isChain_cons_cons] at hlast
  obtain ⟨⟨hstart, hon⟩, ⟨hend, hgap⟩, -⟩ := hlast
  omega

/-- Neighbours are in order, less than a period apart. -/
theorem neighbours {later : List Switching} {x y : Switching}
    (h : Close (older ++ x :: y :: later) queryMs) :
    x.atMs ≤ y.atMs ∧ y.atMs < x.atMs + counterPeriodMs := by
  unfold Close at h
  rw [List.map_append, List.append_assoc] at h
  have hpair : x.atMs ≤ y.atMs ∧ 2 * (y.atMs - x.atMs) < counterPeriodMs :=
    (List.isChain_cons_cons.mp h.right_of_append).1
  omega

end Close

namespace OffTimeTracker

theorem exists_use? (t : OffTimeTracker) {index : Nat} (hindex : index < 4) :
    ∃ u, t.use? index = some u := ⟨t.uses[index], Vector.getElem?_eq_getElem hindex⟩

/-- The record of an entry after a history. -/
theorem use?_replay_of_use? {t : OffTimeTracker} {index : Nat} {u : ChannelUse}
    (h : t.use? index = some u) (hindex : index < 4) (rested : DwellTimers) (shift : Nat)
    (history : List Switching) :
    (t.replay index rested shift history).use? index = some (u.replay rested shift history) := by
  rw [use?_replay t hindex, h, Option.map_some]

theorem totalMs_of_use? {t : OffTimeTracker} {index : Nat} {u : ChannelUse}
    (h : t.use? index = some u) : t.totalMs index = u.totalMs := by
  rw [totalMs, h]
  rfl

variable {index startMs endMs queryMs : Nat} {history rest : List Switching}

section

variable (t : OffTimeTracker) (hindex : index < 4) (rested : DwellTimers)
  (hclose : Close history queryMs)
include hindex hclose

/-- While the counter does not start over, neither the growth of the total nor the timers depend
on how far ahead it is. -/
theorem replay_of_samePass (t' : OffTimeTracker)
    (hhistory : history = ⟨startMs, .on⟩ :: ⟨endMs, .off⟩ :: rest) {shift shift' : Nat}
    (h : SamePass shift startMs queryMs) (h' : SamePass shift' startMs queryMs)
    (hfirst : (t.replay index rested shift (history.take 1)).totalMs index =
      (t'.replay index rested shift' (history.take 1)).totalMs index) :
    t.growthMs index rested shift history = t'.growthMs index rested shift' history ∧
    (t.replay index rested shift history).timersAt index (counterAt (shift + queryMs)) rested =
      (t'.replay index rested shift' history).timersAt index (counterAt (shift' + queryMs))
        rested := by
  subst hhistory
  have hinside : ∀ x ∈ (⟨endMs, .off⟩ :: rest : List Switching),
      startMs ≤ x.atMs ∧ x.atMs ≤ queryMs :=
    fun x hx => ⟨hclose.first_le x hx, hclose.le_query x (List.mem_cons_of_mem _ hx)⟩
  have hend := hinside ⟨endMs, .off⟩ List.mem_cons_self
  have hstart := Nat.le_trans hend.1 hend.2
  obtain ⟨u, hu⟩ := t.exists_use? hindex
  obtain ⟨u', hu'⟩ := t'.exists_use? hindex
  have huse (events : List Switching) := use?_replay_of_use? hu hindex rested shift events
  have huse' (events : List Switching) := use?_replay_of_use? hu' hindex rested shift' events
  rw [totalMs_of_use? (huse _), totalMs_of_use? (huse' _)] at hfirst
  have halike := (ChannelUse.Alike.of_transmission h h' hend hfirst).replay rested h h'
    fun x hx => hinside x (List.mem_cons_of_mem _ hx)
  constructor
  · rw [growthMs, growthMs, totalMs_of_use? (huse _), totalMs_of_use? (huse _),
      totalMs_of_use? (huse' _), totalMs_of_use? (huse' _)]
    exact congrArg₂ (fun total first : UInt32 => (total.toNat : Int) - first.toNat)
      halike.total hfirst
  · rw [timersAt_of_use? (huse _), timersAt_of_use? (huse' _)]
    exact halike.timersAt_eq h h' hstart

/-- Once the counter starts over after the last transmission began, a channel counts as rested. -/
theorem timersAt_replay_of_rollover {older : List Switching}
    (hhistory : history = older ++ [⟨startMs, .on⟩, ⟨endMs, .off⟩]) {shift : Nat}
    (h : ¬ SamePass shift startMs queryMs) :
    (t.replay index rested shift history).timersAt index (counterAt (shift + queryMs)) rested =
      { rested with offSameChannelMs := 0 } := by
  obtain ⟨u, hu⟩ := t.exists_use? hindex
  rw [timersAt_of_use? (use?_replay_of_use? hu hindex rested shift history)]
  rw [hhistory] at hclose ⊢
  obtain ⟨hon, hoff, hlate⟩ := hclose.last_transmission
  have hrecord : u.replay rested shift (older ++ [⟨startMs, .on⟩, ⟨endMs, .off⟩]) =
      ((u.replay rested shift older).switch rested shift ⟨startMs, .on⟩).switch rested shift
        ⟨endMs, .off⟩ := List.foldl_append
  rw [hrecord]
  have hearlier := SamePass.lt_of_not h (Nat.le_trans hon hoff) hlate
  exact ChannelUse.timersAt_of_rollover rested (UInt32.lt_iff_toNat_lt.mpr hearlier) (counterAt_lt _)

/-- If the counter starts over in a pause, what the channel used before it is forgotten. -/
theorem totalMs_replay_of_rollover {older later : List Switching} {offMs onMs : Nat}
    (hhistory : history = older ++ ⟨offMs, .off⟩ :: ⟨onMs, .on⟩ :: later) {shift : Nat}
    (h : ¬ SamePass shift offMs onMs) :
    (t.replay index rested shift (older ++ [⟨offMs, .off⟩, ⟨onMs, .on⟩])).totalMs index = 0 := by
  obtain ⟨u, hu⟩ := t.exists_use? hindex
  rw [totalMs_of_use? (use?_replay_of_use? hu hindex rested shift _)]
  rw [hhistory] at hclose
  obtain ⟨hle, hlate⟩ := hclose.neighbours
  have hrecord : u.replay rested shift (older ++ [⟨offMs, .off⟩, ⟨onMs, .on⟩]) =
      ((u.replay rested shift older).switch rested shift ⟨offMs, .off⟩).switch rested shift
        ⟨onMs, .on⟩ := List.foldl_append
  rw [hrecord]
  exact ChannelUse.totalMs_started_of_rollover rested
    (UInt32.lt_iff_toNat_lt.mpr (SamePass.lt_of_not h hle hlate)) (counterAt_lt _)

end

/-- **Off times and the rollover**, for a history that begins with a complete transmission.  As
long as the counter does not start over between the first event and the query, the growth of the
total and the timers do not depend on how far ahead it is or on what happened before, if only the
first start is charged the same.  If it starts over in a pause, what was used before is forgotten.
Once it starts over after the last transmission began, the timers are those of a rested
channel. -/
theorem replay_shift (t t' : OffTimeTracker) (hindex : index < 4) (rested : DwellTimers)
    (hhistory : history = ⟨startMs, .on⟩ :: ⟨endMs, .off⟩ :: rest)
    (hclose : Close history queryMs) :
    (∀ shift shift' : Nat, SamePass shift startMs queryMs → SamePass shift' startMs queryMs →
      (t.replay index rested shift (history.take 1)).totalMs index =
        (t'.replay index rested shift' (history.take 1)).totalMs index →
      t.growthMs index rested shift history = t'.growthMs index rested shift' history ∧
      (t.replay index rested shift history).timersAt index (counterAt (shift + queryMs)) rested =
        (t'.replay index rested shift' history).timersAt index (counterAt (shift' + queryMs))
          rested) ∧
    (∀ (shift : Nat) (older later : List Switching) (offMs onMs : Nat),
      history = older ++ ⟨offMs, .off⟩ :: ⟨onMs, .on⟩ :: later → ¬ SamePass shift offMs onMs →
      (t.replay index rested shift (older ++ [⟨offMs, .off⟩, ⟨onMs, .on⟩])).totalMs index = 0) ∧
    (∀ (shift : Nat) (older : List Switching) (lastStartMs lastEndMs : Nat),
      history = older ++ [⟨lastStartMs, .on⟩, ⟨lastEndMs, .off⟩] →
      ¬ SamePass shift lastStartMs queryMs →
      (t.replay index rested shift history).timersAt index (counterAt (shift + queryMs)) rested =
        { rested with offSameChannelMs := 0 }) :=
  ⟨fun _ _ h h' hfirst => t.replay_of_samePass hindex rested hclose t' hhistory h h' hfirst,
    fun _ _ _ _ _ hpause h => t.totalMs_replay_of_rollover hindex rested hclose hpause h,
    fun _ _ _ _ hlast h => t.timersAt_replay_of_rollover hindex rested hclose hlast h⟩

/-- Two transmissions 40 ms apart use 2040 ms of the dwell, unless the counter starts over between
them or after the second one began. -/
theorem replay_shift_short_gap :
    let rested : DwellTimers := ⟨3800, 3980, 4000, 100⟩
    let history : List Switching := [⟨0, .on⟩, ⟨1000, .off⟩, ⟨1040, .on⟩, ⟨2040, .off⟩]
    Close history 2050 ∧
      (fresh.replay 0 rested 4292000 history).timersAt 0 (counterAt (4292000 + 2050)) rested =
        (fresh.replay 0 rested 1000 history).timersAt 0 (counterAt (1000 + 2050)) rested ∧
      (fresh.replay 0 rested 1000 history).timersAt 0 (counterAt (1000 + 2050)) rested =
        ⟨1760, 1940, 1960, 0⟩ ∧
      (fresh.replay 0 rested 4293950 (history.take 3)).totalMs 0 = 0 ∧
      (fresh.replay 0 rested 4293500 history).timersAt 0 (counterAt (4293500 + 2050)) rested =
        ⟨3800, 3980, 4000, 0⟩ := by
  intro rested history
  have hclose : Close history 2050 := by decide
  obtain ⟨hsame, hpause, hrollover⟩ := replay_shift fresh fresh (show 0 < 4 by decide) rested rfl hclose
  refine ⟨hclose, ?_, by decide, ?_, ?_⟩
  · exact (hsame 4292000 1000 (by decide) (by decide) (by decide)).2
  · exact hpause 4293950 [⟨0, .on⟩] [⟨2040, .off⟩] 1000 1040 rfl (by decide)
  · exact hrollover 4293500 [⟨0, .on⟩, ⟨1000, .off⟩] 1040 2040 rfl (by decide)

end OffTimeTracker
end RfidReader
