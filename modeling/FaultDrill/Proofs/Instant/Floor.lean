import FaultDrill.Proofs.Instant.Text
import FaultDrill.Proofs.Instant.Window
/-!
# The floor of an instant

What a floor to windows is can be said without the arithmetic that finds it: a whole multiple of the
window that is not after the instant, with the instant less than one window behind it
(`WindowFloor`). `windowStart` finds it wherever an instant can show it, before the epoch as well as
after it; where no instant can, the start is the instant itself (`windowStart_floors`).

The count of milliseconds runs on through a leap second while the count of seconds stands still, so
there the start may lie behind the instant. Windows of 2^63 milliseconds and more lose their width
(`windowWidth`), but not the order of the starts.
-/
namespace FaultDrill

namespace Instant

/-! ## Instants on whole milliseconds -/

/-- The instant a number of milliseconds after the epoch, in range or not. -/
def atMillis (ms : Int) : Instant := ⟨ms / 1000, (ms % 1000).toNat * 1000000⟩

theorem ofMillis?_eq_some_iff {ms : Int} {t : Instant} :
    ofMillis? ms = some t ↔ inRange (ms / 1000) = true ∧ atMillis ms = t := by
  rw [ofMillis?]
  split <;> simp [atMillis, *]

theorem millis_atMillis (ms : Int) : (atMillis ms).millis = ms := by
  simp only [atMillis, millis]
  omega

theorem atMillis_after (ms : Int) (w : Nat) :
    (atMillis ms).after (w * 1000000) = atMillis (ms + w) := by
  have hn : (ms % 1000).toNat * 1000000 < second := by
    simp only [second]
    omega
  rw [atMillis, after, if_pos hn, atMillis, Instant.mk.injEq]
  simp only [second]
  omega

/-- An instant has the milliseconds that lie before it, in a leap second too. -/
theorem le_millis_of_atMillis_le {ms : Int} {t : Instant} (h : atMillis ms ≤ t) :
    ms ≤ t.millis := by
  rw [le_iff] at h
  simp only [atMillis, millis] at h ⊢
  omega

theorem atMillis_le {ms : Int} {t : Instant} (ht : ¬ t.inLeapSecond) (h : ms ≤ t.millis) :
    atMillis ms ≤ t := by
  rw [le_iff]
  simp only [inLeapSecond, second, atMillis, millis] at ht h ⊢
  omega

theorem le_atMillis_of_millis_lt {ms : Int} {t : Instant} (ht : ¬ t.inLeapSecond)
    (h : t.millis < ms) : t ≤ atMillis ms := by
  rw [le_iff]
  simp only [inLeapSecond, second, atMillis, millis] at ht h ⊢
  omega

theorem atMillis_le_atMillis {a b : Int} (h : a ≤ b) : atMillis a ≤ atMillis b := by
  rw [le_iff]
  simp only [atMillis]
  omega

theorem le_refl (t : Instant) : t ≤ t := le_iff.mpr (.inr ⟨rfl, Nat.le_refl _⟩)

theorem le_trans {a b c : Instant} (hab : a ≤ b) (hbc : b ≤ c) : a ≤ c := by
  rw [le_iff] at *
  omega

/-- An instant has no more milliseconds than a later one, unless it lies in a leap second. -/
theorem millis_le_of_le {a b : Instant} (ha : ¬ a.inLeapSecond) (h : a ≤ b) :
    a.millis ≤ b.millis := by
  rw [le_iff] at h
  simp only [inLeapSecond, second, millis] at ha ⊢
  omega

/-- Time that passes leaves an instant behind, in a leap second too. -/
theorem not_after_le (t : Instant) {n : Nat} (hn : 0 < n) : ¬ t.after n ≤ t := by
  rw [le_iff, after]
  split
  · simp only [second] at *
    omega
  · split <;> simp only [second] at * <;> omega

end Instant

open Instant

/-! ## The multiple at or before an instant -/

/-- The number of milliseconds that the start of a window is computed from. -/
def floorMillis (now : Instant) (window : Span) : Int :=
  now.millis - now.millis % windowWidth window

section
variable {now later : Instant} {window : Span}

theorem windowWidth_pos (window : Span) : 0 < windowWidth window := by
  rw [windowWidth]
  omega

/-- Reducing a width to the signed range never widens it. -/
theorem windowWidth_le (hpos : 1 ≤ window.millis) : windowWidth window ≤ window.millis := by
  have h64 : twoPow 64 = 18446744073709551616 := rfl
  have hbmod : Int.bmod window.millis (twoPow 64) ≤ window.millis := by
    rw [Int.bmod_def, h64]
    split <;> omega
  rw [windowWidth]
  omega

theorem floorMillis_le : floorMillis now window ≤ now.millis := by
  have := Int.emod_nonneg now.millis (Int.ne_of_gt (windowWidth_pos window))
  rw [floorMillis]
  omega

theorem lt_floorMillis_add (hpos : 1 ≤ window.millis) :
    now.millis < floorMillis now window + window.millis := by
  have hmod := Int.emod_lt_of_pos now.millis (windowWidth_pos window)
  have hwidth := windowWidth_le hpos
  rw [floorMillis]
  omega

theorem floorMillis_eq_mul :
    floorMillis now window = now.millis / windowWidth window * windowWidth window := by
  have := Int.mul_ediv_add_emod now.millis (windowWidth window)
  rw [floorMillis, Int.mul_comm]
  omega

/-- No multiple of the width lies between the floor and the instant. -/
theorem mul_le_floorMillis {k : Int} (h : k * windowWidth window ≤ now.millis) :
    k * windowWidth window ≤ floorMillis now window := by
  have hw := windowWidth_pos window
  rw [floorMillis_eq_mul]
  exact Int.mul_le_mul_of_nonneg_right ((Int.le_ediv_iff_mul_le hw).mpr h) (Int.le_of_lt hw)

theorem floorMillis_le_floorMillis (h : now.millis ≤ later.millis) :
    floorMillis now window ≤ floorMillis later window := by
  have hle : floorMillis now window ≤ later.millis := Int.le_trans floorMillis_le h
  rw [floorMillis_eq_mul] at hle
  rw [floorMillis_eq_mul]
  exact mul_le_floorMillis hle

/-- The start of a window is the floor, where an instant can show it, and `now` elsewhere. -/
theorem windowStart_cases (now : Instant) (window : Span) :
    ofMillis? (floorMillis now window) = some (windowStart now window) ∧
        windowStart now window = atMillis (floorMillis now window) ∨
      ofMillis? (floorMillis now window) = none ∧ windowStart now window = now := by
  rw [windowStart, ← floorMillis]
  cases hms : ofMillis? (floorMillis now window) with
  | none => exact .inr ⟨rfl, rfl⟩
  | some t => exact .inl ⟨rfl, ((ofMillis?_eq_some_iff.mp hms).2).symm⟩

/-- An instant lies less than one window after the start of its window. -/
theorem lt_windowStart_after (now : Instant) (hpos : 1 ≤ window.millis) :
    ¬ (windowStart now window).after (window.millis * 1000000) ≤ now := by
  obtain ⟨-, hstart⟩ | ⟨-, hstart⟩ := windowStart_cases now window
  · intro hle
    rw [hstart, atMillis_after] at hle
    have := le_millis_of_atMillis_le hle
    have : now.millis < floorMillis now window + window.millis := lt_floorMillis_add hpos
    omega
  · rw [hstart]
    exact not_after_le now (by omega)

theorem windowStart_le (hnow : ¬ now.inLeapSecond) (window : Span) :
    windowStart now window ≤ now := by
  obtain ⟨-, hstart⟩ | ⟨-, hstart⟩ := windowStart_cases now window
  · rw [hstart]
    exact atMillis_le hnow floorMillis_le
  · rw [hstart]
    exact le_refl now

/-- Later instants have later starts. -/
theorem windowStart_le_windowStart (hnow : ¬ now.inLeapSecond) (h : now ≤ later) (window : Span) :
    windowStart now window ≤ windowStart later window := by
  have hfloors : floorMillis now window ≤ floorMillis later window :=
    floorMillis_le_floorMillis (millis_le_of_le hnow h)
  obtain ⟨hshown, hlater⟩ | ⟨-, hlater⟩ := windowStart_cases later window
  · obtain ⟨-, hstart⟩ | ⟨hlost, hstart⟩ := windowStart_cases now window
    · rw [hstart, hlater]
      exact atMillis_le_atMillis hfloors
    · -- an instant shows the later floor and none the earlier one, so `now` lies between the two
      rw [hstart, hlater]
      refine le_atMillis_of_millis_lt hnow (Int.not_le.mp fun hge => ?_)
      have hmul : floorMillis later window ≤ floorMillis now window := by
        rw [floorMillis_eq_mul] at hge ⊢
        exact mul_le_floorMillis hge
      rw [Int.le_antisymm hfloors hmul, hshown] at hlost
      cases hlost
  · rw [hlater]
    exact le_trans (windowStart_le hnow window) h

/-! ## The floor -/

/-- An instant is a whole multiple of the window, in milliseconds from the epoch. -/
def Instant.MultipleOf (t : Instant) (window : Span) : Prop :=
  ∃ k : Int, ofMillis? (k * window.millis) = some t

/-- `t` is `now` floored to the window. -/
structure WindowFloor (now : Instant) (window : Span) (t : Instant) : Prop where
  notAfter : t ≤ now
  multiple : t.MultipleOf window
  within : ¬ t.after (window.millis * 1000000) ≤ now

theorem Instant.MultipleOf.millis_emod {t : Instant} (h : t.MultipleOf window) :
    t.millis % window.millis = 0 := by
  obtain ⟨k, hk⟩ := h
  rw [← (ofMillis?_eq_some_iff.mp hk).2, millis_atMillis, Int.mul_emod_left]

theorem windowStart_multipleOf (hpos : 1 ≤ window.millis) (hlt : window.millis < twoPow 63)
    (hshown : ofMillis? (floorMillis now window) = some (windowStart now window)) :
    (windowStart now window).MultipleOf window := by
  rw [floorMillis_eq_mul, windowWidth_eq hpos hlt] at hshown
  exact ⟨_, hshown⟩

/-- Whatever floors an instant to a window, its milliseconds are the computed floor. -/
theorem WindowFloor.eq_windowStart {t : Instant} (h : WindowFloor now window t)
    (hnow : ¬ now.inLeapSecond) (hpos : 1 ≤ window.millis) (hlt : window.millis < twoPow 63) :
    t = windowStart now window := by
  obtain ⟨k, hk⟩ := h.multiple
  obtain ⟨-, hat⟩ := ofMillis?_eq_some_iff.mp hk
  have hwidth : windowWidth window = window.millis := windowWidth_eq hpos hlt
  have hw : (0 : Int) < window.millis := by omega
  have hle : k * window.millis ≤ now.millis := le_millis_of_atMillis_le (hat ▸ h.notAfter)
  have hgt : now.millis < (k + 1) * window.millis := by
    have hwithin := h.within
    rw [← hat, atMillis_after] at hwithin
    refine Int.not_le.mp fun hge => hwithin (atMillis_le hnow ?_)
    have := Int.add_mul k 1 window.millis
    omega
  have hindex : now.millis / window.millis = k :=
    Int.le_antisymm (Int.lt_add_one_iff.mp ((Int.ediv_lt_iff_lt_mul hw).mpr hgt))
      ((Int.le_ediv_iff_mul_le hw).mpr hle)
  rw [← hindex, ← hwidth, ← floorMillis_eq_mul] at hk
  obtain ⟨hshown, -⟩ | ⟨hlost, -⟩ := windowStart_cases now window
  · exact Option.some.inj (hk.symm.trans hshown)
  · rw [hlost] at hk
    cases hk

end

/-- The start of a window floors `now` wherever an instant can show the floor, and is `now` itself
where none can. The starts of later instants are no earlier. -/
theorem windowStart_floors (now : Instant) (window : Span) (hpos : 1 ≤ window.millis) :
    ¬ (windowStart now window).after (window.millis * 1000000) ≤ now ∧
      (window.millis < twoPow 63 →
        (windowStart now window).MultipleOf window ∨ windowStart now window = now) ∧
      (¬ now.inLeapSecond →
        windowStart now window ≤ now ∧
        (window.millis < twoPow 63 →
          ((∃ t, WindowFloor now window t) → WindowFloor now window (windowStart now window)) ∧
          ((¬ ∃ t, WindowFloor now window t) → windowStart now window = now)) ∧
        ∀ later, now ≤ later →
          windowStart now window ≤ windowStart later window ∧ windowStart now window ≤ later) := by
  have hwithin := lt_windowStart_after now hpos
  refine ⟨hwithin, ?_, ?_⟩
  · intro hlt
    obtain ⟨hshown, -⟩ | ⟨-, hstart⟩ := windowStart_cases now window
    · exact .inl (windowStart_multipleOf hpos hlt hshown)
    · exact .inr hstart
  · intro hnow
    have hle := windowStart_le hnow window
    refine ⟨hle, fun hlt => ⟨?_, ?_⟩, ?_⟩
    · rintro ⟨t, ht⟩
      exact ht.eq_windowStart hnow hpos hlt ▸ ht
    · intro hnone
      obtain ⟨hshown, -⟩ | ⟨-, hstart⟩ := windowStart_cases now window
      · exact absurd ⟨_, hle, windowStart_multipleOf hpos hlt hshown, hwithin⟩ hnone
      · exact hstart
    · intro later h
      exact ⟨windowStart_le_windowStart hnow h window, le_trans hle h⟩

/-- Half a millisecond before the epoch, a day starts a day before the epoch. -/
theorem windowStart_floors_beforeEpoch :
    Representable ⟨-1, 999500000⟩ ∧
      WindowFloor ⟨-1, 999500000⟩ ⟨86400000⟩ (windowStart ⟨-1, 999500000⟩ ⟨86400000⟩) ∧
      windowStart ⟨-1, 999500000⟩ ⟨86400000⟩ ≤ windowStart ⟨0, 0⟩ ⟨86400000⟩ := by
  obtain ⟨-, -, hclock⟩ :=
    windowStart_floors ⟨-1, 999500000⟩ ⟨86400000⟩ (by decide)
  obtain ⟨-, hfloor, hlater⟩ := hclock (by decide)
  have hthere : WindowFloor ⟨-1, 999500000⟩ ⟨86400000⟩ ⟨-86400, 0⟩ :=
    ⟨by decide, ⟨-1, by decide +kernel⟩, by decide⟩
  exact ⟨by decide +kernel, (hfloor (by decide)).1 ⟨_, hthere⟩, (hlater ⟨0, 0⟩ (by decide)).1⟩

/-- No start of a window is a floor where the multiple lies before the first instant, where the
window is so long that its width is lost, and where `now` lies in a leap second. -/
theorem windowStart_not_floor :
    (Representable ⟨-8334601185600, 0⟩ ∧ (Span.parse "10d").toOption = some ⟨864000000⟩ ∧
      ¬ WindowFloor ⟨-8334601185600, 0⟩ ⟨864000000⟩
        (windowStart ⟨-8334601185600, 0⟩ ⟨864000000⟩)) ∧
    (Representable ⟨1709646310, 250000000⟩ ∧ (Span.parse "1e20ms").toOption = some ⟨Span.limit⟩ ∧
      ¬ WindowFloor ⟨1709646310, 250000000⟩ ⟨Span.limit⟩
        (windowStart ⟨1709646310, 250000000⟩ ⟨Span.limit⟩)) ∧
    (Representable ⟨1483228799, 1500000000⟩ ∧ (Span.parse "1s").toOption = some ⟨1000⟩ ∧
      ¬ WindowFloor ⟨1483228799, 1500000000⟩ ⟨1000⟩
        (windowStart ⟨1483228799, 1500000000⟩ ⟨1000⟩)) := by
  refine ⟨⟨by decide +kernel, by decide +kernel, fun h => ?_⟩,
    ⟨by decide +kernel, by decide +kernel, fun h => ?_⟩,
    ⟨by decide +kernel, by decide +kernel, fun h => ?_⟩⟩
  · exact absurd h.multiple.millis_emod (by decide +kernel)
  · exact absurd h.multiple.millis_emod (by decide +kernel)
  · exact absurd h.notAfter (by decide +kernel)

end FaultDrill
