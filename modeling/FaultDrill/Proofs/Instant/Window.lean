import FaultDrill.Instant.Basic
/-!
# Windows of time

Windows of `w` milliseconds are numbered from the epoch on. For an instant from the epoch on, the
start of its window is the first instant with its number (`windowStart_le_iff`), and time that
passes never lowers the number (`windowIndex_le_after`).
-/
namespace FaultDrill

namespace Instant

/-- The number of the window of `w` milliseconds that an instant lies in. -/
def windowIndex (t : Instant) (w : Nat) : Int := t.millis / w

instance (t : Instant) : Decidable t.inLeapSecond := inferInstanceAs (Decidable (second ≤ t.nanos))

/-- An instant that a clock may show: in range, from the epoch on, outside of leap seconds. -/
structure OnClock (t : Instant) : Prop where
  inRange : inRange t.seconds = true
  epoch_le : 0 ≤ t.seconds
  noLeap : ¬ t.inLeapSecond

theorem le_iff {a b : Instant} :
    a ≤ b ↔ a.seconds < b.seconds ∨ a.seconds = b.seconds ∧ a.nanos ≤ b.nanos := by
  show a.le b = true ↔ _
  simp [le]

theorem inLeapSecond_after {t : Instant} (h : ¬ t.inLeapSecond) (n : Nat) :
    ¬ (t.after n).inLeapSecond := by
  unfold inLeapSecond at h ⊢
  rw [after, if_pos (Nat.lt_of_not_le h)]
  exact Nat.not_le.mpr (Nat.mod_lt _ (by decide))

/-- Time that passes moves the count of milliseconds on. -/
theorem millis_le_after {t : Instant} (h : ¬ t.inLeapSecond) (n : Nat) :
    t.millis ≤ (t.after n).millis := by
  unfold inLeapSecond at h
  rw [after, if_pos (Nat.lt_of_not_le h)]
  simp only [millis, second] at h ⊢
  omega

theorem windowIndex_le_after {t : Instant} (h : ¬ t.inLeapSecond) (n : Nat) {w : Nat}
    (hw : 1 ≤ w) : t.windowIndex w ≤ (t.after n).windowIndex w :=
  Int.ediv_le_ediv (by omega) (millis_le_after h n)

theorem OnClock.millis_nonneg {t : Instant} (h : t.OnClock) : 0 ≤ t.millis := by
  have := h.epoch_le
  unfold millis
  omega

/-- A millisecond between the epoch and an instant on a clock is in range. -/
theorem OnClock.inRange_of_le {t : Instant} (h : t.OnClock) {ms : Int} (h0 : 0 ≤ ms)
    (hle : ms ≤ t.millis) : Instant.inRange (ms / 1000) = true := by
  have hfirst : Calendar.firstDay ≤ 0 := by decide
  have hr := h.inRange
  have hn : t.nanos < second := Nat.lt_of_not_le h.noLeap
  simp only [Instant.inRange, Bool.and_eq_true, decide_eq_true_eq] at hr ⊢
  simp only [millis, second] at hle hn
  omega

end Instant

open Instant

/-- A window of fewer than 2^63 milliseconds has its own width. -/
theorem windowWidth_eq {window : Span} (hpos : 1 ≤ window.millis)
    (hlt : window.millis < twoPow 63) : windowWidth window = window.millis := by
  have h63 : twoPow 63 = 9223372036854775808 := rfl
  have h64 : twoPow 64 = 18446744073709551616 := rfl
  rw [windowWidth, h64, Int.bmod_eq_of_le (by omega) (by omega)]
  omega

/-- The start of a window is its number times the width, in milliseconds from the epoch. -/
theorem ofMillis?_windowStart {now : Instant} {window : Span} (hnow : now.OnClock)
    (hpos : 1 ≤ window.millis) (hlt : window.millis < twoPow 63) :
    0 ≤ now.windowIndex window.millis * window.millis ∧
      ofMillis? (now.windowIndex window.millis * window.millis) =
        some (windowStart now window) := by
  have hw : (0 : Int) < window.millis := by exact_mod_cast hpos
  have hmod := Int.emod_nonneg now.millis (Int.ne_of_gt hw)
  have hdiv : now.millis - now.millis % window.millis
      = now.windowIndex window.millis * window.millis := by
    have := Int.mul_ediv_add_emod now.millis window.millis
    rw [windowIndex, Int.mul_comm]
    omega
  have hnn : 0 ≤ now.windowIndex window.millis * window.millis :=
    Int.mul_nonneg (Int.ediv_nonneg hnow.millis_nonneg (Int.le_of_lt hw)) (Int.le_of_lt hw)
  have hrange := hnow.inRange_of_le hnn (by omega)
  refine ⟨hnn, ?_⟩
  rw [windowStart, windowWidth_eq hpos hlt, hdiv, ofMillis?]
  simp only [hrange, if_true, Option.getD_some]

/-- An instant outside of leap seconds has reached the start of the window of `now` exactly when its
own window has no lower number. -/
theorem windowStart_le_iff {now t : Instant} {window : Span} (hnow : now.OnClock)
    (hpos : 1 ≤ window.millis) (hlt : window.millis < twoPow 63) (ht : ¬ t.inLeapSecond) :
    windowStart now window ≤ t ↔ now.windowIndex window.millis ≤ t.windowIndex window.millis := by
  have hw : (0 : Int) < window.millis := by exact_mod_cast hpos
  obtain ⟨hnn, hstart⟩ := ofMillis?_windowStart hnow hpos hlt
  have hindex : now.windowIndex window.millis ≤ t.windowIndex window.millis
      ↔ now.windowIndex window.millis * window.millis ≤ t.millis :=
    Int.le_ediv_iff_mul_le hw
  rw [ofMillis?] at hstart
  split at hstart
  · -- the window starts on a whole millisecond, so only the milliseconds of `t` matter
    rw [← Option.some.inj hstart, le_iff, hindex]
    generalize now.windowIndex window.millis * window.millis = start at hnn
    have hn : t.nanos < second := Nat.lt_of_not_le ht
    simp only [millis, second] at hn ⊢
    omega
  · cases hstart

/-! ## Instants of one window -/

/-- An instant outside of leap seconds that lies in the same window as `now`. -/
structure Instant.Shares (w : Nat) (now t : Instant) : Prop where
  inRange : Instant.inRange t.seconds = true
  noLeap : ¬ t.inLeapSecond
  index : t.windowIndex w = now.windowIndex w

/-- No window has instants on both sides of the epoch. -/
theorem Instant.Shares.onClock {w : Nat} {now t : Instant} (h : now.Shares w t) (hnow : now.OnClock)
    (hpos : 1 ≤ w) : t.OnClock := by
  have hw : (0 : Int) < w := by exact_mod_cast hpos
  have hnn : 0 ≤ t.windowIndex w := by
    rw [h.index]
    exact Int.ediv_nonneg hnow.millis_nonneg (Int.le_of_lt hw)
  have hmillis : 0 ≤ t.millis := (Int.ediv_nonneg_iff_of_pos hw).mp hnn
  have hnanos : t.nanos < second := Nat.lt_of_not_le h.noLeap
  refine ⟨h.inRange, ?_, h.noLeap⟩
  simp only [millis, second] at hmillis hnanos
  omega

/-- The instants of one window have its start in common. -/
theorem Instant.Shares.windowStart_eq {window : Span} {now t : Instant}
    (h : now.Shares window.millis t) (hnow : now.OnClock) (hpos : 1 ≤ window.millis)
    (hlt : window.millis < twoPow 63) : windowStart t window = windowStart now window := by
  obtain ⟨-, hthere⟩ := ofMillis?_windowStart (h.onClock hnow hpos) hpos hlt
  obtain ⟨-, hhere⟩ := ofMillis?_windowStart hnow hpos hlt
  rw [h.index, hhere] at hthere
  exact (Option.some.inj hthere).symm

end FaultDrill
