import FaultDrill.Remote
import Mathlib.Data.Nat.Find
import Mathlib.Order.Bounds.Basic
/-!
# Calls that are made again

A call that stalls is made again, so all calls but the last have stalled, and in time
(`poll_of_calm`). The last is the first one that gives an answer, or the first one that stalls when
the time is up: whichever of the two comes first decides, and nothing else does (`poll_exact`).
-/
namespace FaultDrill.Remote

/-- Whether a call only has to be made again, by what it gave. -/
def Stalls : Except Trouble α → Prop
  | .ok _ => False
  | .error t => t.isStall = true

/-- What call `n` gives, counted from one. All calls behind the listed ones give `final`. -/
def given (final : α) (results : List (Except Trouble α)) (n : Nat) : Except Trouble α :=
  results.getD (n - 1) (.ok final)

/-- The calls that give an answer: a value, or trouble that is no stall. -/
def answering (final : α) (results : List (Except Trouble α)) : Set Nat :=
  {n | 1 ≤ n ∧ ¬ Stalls (given final results n)}

/-- The calls that stall at or after the deadline. -/
def stallingLate (deadline : Nat) (clock : Nat → Nat) (final : α)
    (results : List (Except Trouble α)) : Set Nat :=
  {n | 1 ≤ n ∧ Stalls (given final results n) ∧ deadline ≤ clock n}

variable {deadline : Nat} {clock : Nat → Nat} {final : α} {results : List (Except Trouble α)}
  {n k d : Nat}

/-! ## One call -/

theorem poll_of_answer (h : ¬ Stalls (given final results 1)) :
    poll deadline clock final n results = (given final results 1, n + 1) := by
  match results with
  | [] => rfl
  | .ok a :: more => rfl
  | .error t :: more =>
    have hfinal : ¬ t.isStall = true := h
    rw [poll, if_neg hfinal]
    rfl

/-- A call that stalls is one of those that are listed. -/
theorem exists_of_stalls (h : Stalls (given final results 1)) :
    ∃ t more, results = .error t :: more ∧ t.isStall = true := by
  match results with
  | [] => cases h
  | .ok a :: more => cases h
  | .error t :: more => exact ⟨t, more, rfl, h⟩

theorem poll_of_late (h : Stalls (given final results 1)) (hlate : deadline ≤ clock (n + 1)) :
    poll deadline clock final n results = (.error .deadlinePassed, n + 1) := by
  obtain ⟨t, more, rfl, ht⟩ := exists_of_stalls h
  rw [poll, if_pos ht, if_pos hlate]

theorem poll_of_stall (h : Stalls (given final results 1)) (hclock : clock (n + 1) < deadline) :
    poll deadline clock final n results =
      poll deadline clock final (n + 1) (results.drop 1) := by
  obtain ⟨t, more, rfl, ht⟩ := exists_of_stalls h
  rw [poll, if_pos ht, if_neg (Nat.not_le_of_lt hclock)]
  rfl

theorem given_drop (final : α) (results : List (Except Trouble α)) (n : Nat) :
    given final (results.drop n) 1 = given final results (n + 1) := by
  simp [given, List.getD_eq_getElem?_getD]

/-! ## Many calls -/

/-- After calls that stalled in time, what is left is to make the others. -/
theorem poll_of_calm (hstalls : ∀ m, 1 ≤ m → m ≤ n → Stalls (given final results m))
    (hclock : ∀ m, 1 ≤ m → m ≤ n → clock m < deadline) :
    poll deadline clock final 0 results = poll deadline clock final n (results.drop n) := by
  induction n with
  | zero => rfl
  | succ n ih =>
    have hbefore {m : Nat} (hm : m ≤ n) : m ≤ n + 1 := Nat.le_succ_of_le hm
    have hlast : Stalls (given final (results.drop n) 1) := by
      rw [given_drop]
      exact hstalls (n + 1) (Nat.succ_pos n) (Nat.le_refl _)
    rw [ih (fun m hpos hm => hstalls m hpos (hbefore hm))
        (fun m hpos hm => hclock m hpos (hbefore hm)),
      poll_of_stall hlast (hclock (n + 1) (Nat.succ_pos n) (Nat.le_refl _)), List.drop_drop]

theorem stalls_of_lt (hk : IsLeast (answering final results) k) (hpos : 1 ≤ n) (h : n < k) :
    Stalls (given final results n) := by
  by_contra hanswer
  exact Nat.not_le_of_lt h (hk.2 ⟨hpos, hanswer⟩)

/-- The first answer is given back as it is when every call before it stalled in time. -/
theorem poll_of_first_answer (hk : IsLeast (answering final results) k)
    (hclock : ∀ m, 1 ≤ m → m < k → clock m < deadline) :
    poll deadline clock final 0 results = (given final results k, k) := by
  obtain ⟨n, rfl⟩ : ∃ n, k = n + 1 := ⟨k - 1, (Nat.sub_add_cancel hk.1.1).symm⟩
  have hlast : ¬ Stalls (given final (results.drop n) 1) := by
    rw [given_drop]
    exact hk.1.2
  rw [poll_of_calm (fun m hpos hm => stalls_of_lt hk hpos (Nat.lt_succ_of_le hm))
      (fun m hpos hm => hclock m hpos (Nat.lt_succ_of_le hm)),
    poll_of_answer hlast, given_drop]

/-- The first late stall is the end when no call before it gave an answer. -/
theorem poll_of_first_late (hd : IsLeast (stallingLate deadline clock final results) d)
    (hstalls : ∀ m, 1 ≤ m → m < d → Stalls (given final results m)) :
    poll deadline clock final 0 results = (.error .deadlinePassed, d) := by
  obtain ⟨n, rfl⟩ : ∃ n, d = n + 1 := ⟨d - 1, (Nat.sub_add_cancel hd.1.1).symm⟩
  have hclock {m : Nat} (hpos : 1 ≤ m) (hm : m ≤ n) : clock m < deadline := by
    by_contra hlate
    have hleast := hd.2 ⟨hpos, hstalls m hpos (Nat.lt_succ_of_le hm), Nat.le_of_not_lt hlate⟩
    omega
  have hlast : Stalls (given final (results.drop n) 1) := by
    rw [given_drop]
    exact hd.1.2.1
  rw [poll_of_calm (fun m hpos hm => hstalls m hpos (Nat.lt_succ_of_le hm))
      (fun m hpos hm => hclock hpos hm),
    poll_of_late hlast hd.1.2.2]

/-! ## The last call -/

theorem exists_isLeast {s : Set Nat} (h : n ∈ s) : ∃ m, IsLeast s m := by
  classical
  exact ⟨Nat.find ⟨n, h⟩, Nat.find_spec ⟨n, h⟩, fun _ hm => Nat.find_min' ⟨n, h⟩ hm⟩

/-- Some call gives an answer, at the latest the one behind all that are listed. -/
theorem exists_first_answer (final : α) (results : List (Except Trouble α)) :
    ∃ k, IsLeast (answering final results) k := by
  have hfinal : given final results (results.length + 1) = .ok final := by
    simp [given, List.getD_eq_getElem?_getD]
  refine exists_isLeast (n := results.length + 1) ⟨Nat.succ_pos _, ?_⟩
  rw [hfinal]
  exact not_false

/-- Without a late stall before it, every call before the first answer stalled in time. -/
theorem clock_lt_of_first_answer (hk : IsLeast (answering final results) k)
    (hd : ∀ d, IsLeast (stallingLate deadline clock final results) d → k < d) (hpos : 1 ≤ n)
    (h : n < k) : clock n < deadline := by
  by_contra hlate
  have hmem : n ∈ stallingLate deadline clock final results :=
    ⟨hpos, stalls_of_lt hk hpos h, Nat.le_of_not_lt hlate⟩
  obtain ⟨d, hleast⟩ := exists_isLeast hmem
  exact Nat.lt_irrefl k (calc
    k < d := hd d hleast
    _ ≤ n := hleast.2 hmem
    _ < k := h)

/-- The call that is the last, and what comes of it. -/
theorem poll_cases (deadline : Nat) (clock : Nat → Nat) (hk : IsLeast (answering final results) k) :
    ((∀ n, 1 ≤ n → n < k → clock n < deadline) ∧
      poll deadline clock final 0 results = (given final results k, k)) ∨
    ∃ d, IsLeast (stallingLate deadline clock final results) d ∧ d < k ∧
      poll deadline clock final 0 results = (.error .deadlinePassed, d) := by
  by_cases hlate : ∃ d, IsLeast (stallingLate deadline clock final results) d ∧ d < k
  · obtain ⟨d, hd, hdk⟩ := hlate
    refine .inr ⟨d, hd, hdk, poll_of_first_late hd ?_⟩
    exact fun m hpos hm => stalls_of_lt hk hpos (hm.trans hdk)
  · have hbefore : ∀ d, IsLeast (stallingLate deadline clock final results) d → k < d := by
      intro d hd
      have hne : k ≠ d := by
        rintro rfl
        exact hk.1.2 hd.1.2.1
      exact Nat.lt_of_le_of_ne (Nat.le_of_not_lt fun h => hlate ⟨d, hd, h⟩) hne
    have hclock : ∀ n, 1 ≤ n → n < k → clock n < deadline :=
      fun _ hpos h => clock_lt_of_first_answer hk hbefore hpos h
    exact .inl ⟨hclock, poll_of_first_answer hk hclock⟩

/-- Making a call again ends with its first answer, unchanged, where no stall before it is late, and
with the first late stall where that comes before, whatever the clock does. So a call that is done is
never taken for one that is late, and a call that stalls when the time is up is never made again. -/
theorem poll_exact (deadline : Nat) (clock : Nat → Nat) (final : α)
    (results : List (Except Trouble α)) :
    (∃ k, IsLeast (answering final results) k) ∧
      (∀ k, IsLeast (answering final results) k →
        ((∀ d, IsLeast (stallingLate deadline clock final results) d → k < d) →
          poll deadline clock final 0 results = (given final results k, k)) ∧
        ∀ d, IsLeast (stallingLate deadline clock final results) d → ¬ k < d →
          poll deadline clock final 0 results = (.error .deadlinePassed, d)) ∧
      (∀ a, given final results (poll deadline clock final 0 results).2 = .ok a →
        (poll deadline clock final 0 results).1 = .ok a) ∧
      ∀ n, 1 ≤ n → n < (poll deadline clock final 0 results).2 →
        Stalls (given final results n) ∧ clock n < deadline := by
  obtain ⟨k, hk⟩ := exists_first_answer final results
  refine ⟨⟨k, hk⟩, ?_, ?_⟩
  · intro k' hk'
    constructor
    · intro hbefore
      exact poll_of_first_answer hk' fun _ hpos h => clock_lt_of_first_answer hk' hbefore hpos h
    · intro d hd hnot
      refine poll_of_first_late hd fun m hpos hm => ?_
      exact stalls_of_lt hk' hpos (Nat.lt_of_lt_of_le hm (Nat.le_of_not_lt hnot))
  · rcases poll_cases deadline clock hk with ⟨hclock, hpoll⟩ | ⟨d, hd, hdk, hpoll⟩
    · rw [hpoll]
      exact ⟨fun _ ha => ha, fun n hpos h => ⟨stalls_of_lt hk hpos h, hclock n hpos h⟩⟩
    · rw [hpoll]
      constructor
      · intro a ha
        have hstalls := hd.1.2.1
        rw [ha] at hstalls
        exact hstalls.elim
      · intro n hpos h
        have hstalls := stalls_of_lt hk hpos (h.trans hdk)
        refine ⟨hstalls, ?_⟩
        by_contra hlate
        exact Nat.not_le_of_lt h (hd.2 ⟨hpos, hstalls, Nat.le_of_not_lt hlate⟩)

/-! ## A call that answers when its time is up -/

/-- A call that would block, is interrupted, and then gives a seven. -/
def sleepy : List (Except Trouble Nat) :=
  [.error (.ofKind .wouldBlock none), .error (.ofKind .interrupted none), .ok 7]

theorem sleepy_answering : IsLeast (answering 0 sleepy) 3 := by
  refine ⟨⟨by decide, not_false⟩, ?_⟩
  rintro n ⟨hpos, hanswer⟩
  by_contra hlt
  obtain rfl | rfl : n = 1 ∨ n = 2 := by omega
  · exact hanswer rfl
  · exact hanswer rfl

/-- The seven comes when the deadline has passed and is given back. Where the second stall is late
already, there is no third call. -/
theorem sleepy_polled :
    poll 10 (4 * ·) 0 0 sleepy = (.ok 7, 3) ∧
      poll 10 (6 * ·) 0 0 sleepy = (.error .deadlinePassed, 2) := by
  have hlate : IsLeast (stallingLate 10 (6 * ·) 0 sleepy) 2 := by
    refine ⟨⟨by decide, rfl, by decide⟩, ?_⟩
    rintro n ⟨hpos, -, hn⟩
    dsimp only at hn
    omega
  constructor
  · refine ((poll_exact 10 (4 * ·) 0 sleepy).2.1 3 sleepy_answering).1 ?_
    rintro d ⟨⟨hpos, hstalls, hd⟩, -⟩
    by_contra hle
    dsimp only at hd
    obtain rfl : d = 3 := by omega
    exact hstalls
  · exact ((poll_exact 10 (6 * ·) 0 sleepy).2.1 3 sleepy_answering).2 2 hlate (by decide)

end FaultDrill.Remote
