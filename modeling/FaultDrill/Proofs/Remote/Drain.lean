import FaultDrill.Proofs.Remote.Stream
/-!
# What draining gives

Each round reads both streams once, so after `n` rounds each is what `n` reads make of it, whatever
the other one holds (`drain_rounds`). Draining in time ends with the content of both streams, or
with the trouble that comes first and nothing read behind its round (`Drained`); which of them is
decided by the reads alone (`drain_exact`).
-/
namespace FaultDrill.Remote

/-- Draining from a round on, with the number of rounds that are made and what they come to. -/
inductive Drains (deadline : Nat) (clock : Nat → Nat) : (round : Nat) → (out err : Stream) →
    (rounds : Nat) → Option Trouble × Stream × Stream → Prop where
  | ended {round : Nat} (ho : out.ended = true) (he : err.ended = true) :
    Drains deadline clock round out err 0 (none, out, err)
  | late {round : Nat} (hopen : ¬ (out.ended && err.ended) = true)
    (hlate : deadline ≤ clock round) :
    Drains deadline clock round out err 0 (some .deadlinePassed, out, err)
  | outBreaks {round : Nat} (hclock : clock round < deadline) (hout : out.read.1 = some t) :
    Drains deadline clock round out err 1 (some t, out.read.2, err)
  | errBreaks {round : Nat} (hclock : clock round < deadline) (hout : out.read.1 = none)
    (herr : err.read.1 = some t) :
    Drains deadline clock round out err 1 (some t, out.read.2, err.read.2)
  | goesOn {round : Nat} (hopen : ¬ (out.ended && err.ended) = true)
    (hclock : clock round < deadline) (hout : out.read.1 = none) (herr : err.read.1 = none)
    (rest : Drains deadline clock (round + 1) out.read.2 err.read.2 rounds result) :
    Drains deadline clock round out err (rounds + 1) result

variable {deadline : Nat} {clock : Nat → Nat} {round n : Nat} {out err : Stream} {t : Trouble}

/-! ## One round -/

theorem drain_of_ended (ho : out.ended = true) (he : err.ended = true) :
    drain deadline clock round out err = (none, out, err) := by
  rw [drain, dif_pos (by rw [ho, he]; rfl)]

theorem drain_of_late (hopen : ¬ (out.ended && err.ended) = true) (hlate : deadline ≤ clock round) :
    drain deadline clock round out err = (some .deadlinePassed, out, err) := by
  rw [drain, dif_neg hopen, if_pos hlate]

theorem drain_of_out_breaks (hclock : clock round < deadline) (hout : out.read.1 = some t) :
    drain deadline clock round out err = (some t, out.read.2, err) := by
  have hopen : ¬ (out.ended && err.ended) = true := by simp [Stream.ended_of_read hout]
  rw [drain, dif_neg hopen, if_neg (Nat.not_le_of_lt hclock), hout]

theorem drain_of_err_breaks (hclock : clock round < deadline) (hout : out.read.1 = none)
    (herr : err.read.1 = some t) :
    drain deadline clock round out err = (some t, out.read.2, err.read.2) := by
  have hopen : ¬ (out.ended && err.ended) = true := by simp [Stream.ended_of_read herr]
  rw [drain, dif_neg hopen, if_neg (Nat.not_le_of_lt hclock), hout, herr]

/-- A round without trouble reads both streams once. Once both have ended this changes nothing. -/
theorem drain_of_calm (hclock : clock round < deadline) (hout : out.read.1 = none)
    (herr : err.read.1 = none) :
    drain deadline clock round out err =
      drain deadline clock (round + 1) out.read.2 err.read.2 := by
  by_cases hended : (out.ended && err.ended) = true
  · obtain ⟨ho, he⟩ := Bool.and_eq_true_iff.mp hended
    have hidle {s : Stream} (hs : s.ended = true) : s.read.2 = s := s.reads_of_ended hs 1
    rw [hidle ho, hidle he, drain_of_ended ho he, drain_of_ended ho he]
  · rw [drain, dif_neg hended, if_neg (Nat.not_le_of_lt hclock), hout, herr]

/-! ## Many rounds -/

/-- After rounds without trouble each stream is what as many reads make of it. -/
theorem drain_rounds (n : Nat) (hclock : ∀ m < n, clock (round + m) < deadline)
    (hout : ∀ m < n, (out.reads m).read.1 = none) (herr : ∀ m < n, (err.reads m).read.1 = none) :
    drain deadline clock round out err =
      drain deadline clock (round + n) (out.reads n) (err.reads n) := by
  induction n with
  | zero => rfl
  | succ n ih =>
    have hlast := Nat.lt_succ_self n
    have hbefore {m : Nat} (hm : m < n) : m < n + 1 := Nat.lt_succ_of_lt hm
    rw [ih (fun m hm => hclock m (hbefore hm)) (fun m hm => hout m (hbefore hm))
        (fun m hm => herr m (hbefore hm)),
      drain_of_calm (hclock n hlast) (hout n hlast) (herr n hlast), ← Stream.reads_succ,
      ← Stream.reads_succ, Nat.add_assoc]

section

variable (hclock : ∀ m < max out.unread err.unread, clock (round + m) < deadline)
include hclock

theorem drain_of_sound (hout : ∀ m u, ¬ out.Breaks m u) (herr : ∀ m u, ¬ err.Breaks m u) :
    drain deadline clock round out err = (none, out.finished, err.finished) := by
  rw [drain_rounds _ hclock (fun m _ => Stream.trouble_reads_eq_none fun m _ => hout m)
      (fun m _ => Stream.trouble_reads_eq_none fun m _ => herr m),
    Stream.reads_eq_finished hout (Nat.le_max_left ..),
    Stream.reads_eq_finished herr (Nat.le_max_right ..),
    drain_of_ended out.ended_finished err.ended_finished]

/-- Where the first stream breaks, the second was read in the rounds before. -/
theorem drain_of_out (h : out.Breaks n t) (hfirst : ∀ m u, err.Breaks m u → n ≤ m) :
    drain deadline clock round out err = (some t, out.reads (n + 1), err.reads n) := by
  have hn := h.lt_unread
  have hout : ∀ m < n, ∀ u, ¬ out.Breaks m u := by
    intro m hm u hu
    exact Nat.ne_of_gt hm (h.unique hu).1
  have herr : ∀ m < n, ∀ u, ¬ err.Breaks m u := by
    intro m hm u hu
    exact Nat.not_le_of_lt hm (hfirst m u hu)
  rw [drain_rounds n (fun m hm => hclock m (by omega))
      (fun m hm => Stream.trouble_reads_eq_none fun k hk => hout k (by omega))
      (fun m hm => Stream.trouble_reads_eq_none fun k hk => herr k (by omega)),
    drain_of_out_breaks (hclock n (by omega)) ((Stream.trouble_reads_iff hout).mpr h),
    ← Stream.reads_succ]

/-- Where the second stream breaks, both were read in all rounds. -/
theorem drain_of_err (h : err.Breaks n t) (hfirst : ∀ m u, out.Breaks m u → n < m) :
    drain deadline clock round out err = (some t, out.reads (n + 1), err.reads (n + 1)) := by
  have hn := h.lt_unread
  have hout : ∀ m ≤ n, ∀ u, ¬ out.Breaks m u := by
    intro m hm u hu
    exact Nat.not_le_of_lt (hfirst m u hu) hm
  have herr : ∀ m < n, ∀ u, ¬ err.Breaks m u := by
    intro m hm u hu
    exact Nat.ne_of_gt hm (h.unique hu).1
  rw [drain_rounds n (fun m hm => hclock m (by omega))
      (fun m hm => Stream.trouble_reads_eq_none fun k hk => hout k (by omega))
      (fun m hm => Stream.trouble_reads_eq_none fun k hk => herr k (by omega)),
    drain_of_err_breaks (hclock n (by omega)) (Stream.trouble_reads_eq_none hout)
      ((Stream.trouble_reads_iff herr).mpr h),
    ← Stream.reads_succ, ← Stream.reads_succ]

end

/-! ## How many rounds -/

/-- Draining makes no more rounds than one of the streams can still take reads. -/
theorem drains_drain (deadline : Nat) (clock : Nat → Nat) (round : Nat) (out err : Stream) :
    ∃ rounds ≤ max out.unread err.unread,
      Drains deadline clock round out err rounds (drain deadline clock round out err) := by
  induction round, out, err using drain.induct deadline clock with
  | case1 round out err hended =>
    obtain ⟨ho, he⟩ := Bool.and_eq_true_iff.mp hended
    rw [drain_of_ended ho he]
    exact ⟨0, Nat.zero_le _, .ended ho he⟩
  | case2 round out err hopen hlate =>
    rw [drain_of_late hopen hlate]
    exact ⟨0, Nat.zero_le _, .late hopen hlate⟩
  | case3 round out err hopen hclock t hout =>
    have hn := (Stream.breaks_zero_iff.mpr hout).lt_unread
    rw [drain_of_out_breaks (Nat.lt_of_not_le hclock) hout]
    exact ⟨1, by omega, .outBreaks (Nat.lt_of_not_le hclock) hout⟩
  | case4 round out err hopen hclock hout t herr =>
    have hn := (Stream.breaks_zero_iff.mpr herr).lt_unread
    rw [drain_of_err_breaks (Nat.lt_of_not_le hclock) hout herr]
    exact ⟨1, by omega, .errBreaks (Nat.lt_of_not_le hclock) hout herr⟩
  | case5 round out err hopen hclock hout herr ih =>
    obtain ⟨rounds, hrounds, hrest⟩ := ih
    have hout_less := out.unread_read_succ_le
    have herr_less := err.unread_read_succ_le
    have hunread : 0 < max out.unread err.unread := by
      rw [Nat.pos_iff_ne_zero]
      intro hzero
      have ho := Stream.unread_eq_zero_iff.mp (Nat.le_zero.mp (hzero ▸ Nat.le_max_left ..))
      have he := Stream.unread_eq_zero_iff.mp (Nat.le_zero.mp (hzero ▸ Nat.le_max_right ..))
      exact hopen (Bool.and_eq_true_iff.mpr ⟨ho, he⟩)
    rw [drain_of_calm (Nat.lt_of_not_le hclock) hout herr]
    exact ⟨rounds + 1, by omega, .goesOn hopen (Nat.lt_of_not_le hclock) hout herr hrest⟩

/-! ## How draining ends -/

/-- How draining two streams in time ends. A stream whose end was read is not read any more, and
after the trouble that stops it nothing is. -/
inductive Drained (o e : List Step) : Option Trouble × Stream × Stream → Prop where
  | whole (ho : Sound o) (he : Sound e) :
    Drained o e (none, ⟨content o, true, behindEnd o⟩, ⟨content e, true, behindEnd e⟩)
  /-- The first stream breaks, no later than the second would. -/
  | outBroke {n : Nat} {t : Trouble} (h : BreaksAt o n t) (hfirst : ∀ m u, BreaksAt e m u → n ≤ m) :
    Drained o e (some t, (Stream.start o).reads (n + 1), (Stream.start e).reads n)
  /-- The second stream breaks, sooner than the first would. -/
  | errBroke {n : Nat} {t : Trouble} (h : BreaksAt e n t) (hfirst : ∀ m u, BreaksAt o m u → n < m) :
    Drained o e (some t, (Stream.start o).reads (n + 1), (Stream.start e).reads (n + 1))

variable {o e : List Step} {result : Option Trouble × Stream × Stream}

theorem Stream.unread_start (steps : List Step) :
    (Stream.start steps).unread = steps.length + 1 := rfl

theorem Drained.eq_drain (h : Drained o e result)
    (hclock : ∀ n ≤ max o.length e.length, clock n < deadline) :
    drain deadline clock 0 (.start o) (.start e) = result := by
  have hrounds : ∀ m < max (Stream.start o).unread (Stream.start e).unread,
      clock (0 + m) < deadline := by
    intro m hm
    rw [Stream.unread_start, Stream.unread_start] at hm
    rw [Nat.zero_add]
    exact hclock m (by omega)
  cases h with
  | whole ho he =>
    exact drain_of_sound hrounds (fun _ _ hb => ho.not_breaksAt hb.2)
      (fun _ _ hb => he.not_breaksAt hb.2)
  | outBroke h hfirst => exact drain_of_out hrounds ⟨rfl, h⟩ fun m u hu => hfirst m u hu.2
  | errBroke h hfirst => exact drain_of_err hrounds ⟨rfl, h⟩ fun m u hu => hfirst m u hu.2

/-- Draining in time ends in one of the listed ways. -/
theorem exists_drained (o e : List Step) : ∃ result, Drained o e result := by
  rcases sound_or_breaksAt o with ho | ⟨n, t, ho⟩
  · rcases sound_or_breaksAt e with he | ⟨m, u, he⟩
    · exact ⟨_, .whole ho he⟩
    · exact ⟨_, .errBroke he fun _ _ h => absurd h ho.not_breaksAt⟩
  · rcases sound_or_breaksAt e with he | ⟨m, u, he⟩
    · exact ⟨_, .outBroke ho fun _ _ h => absurd h he.not_breaksAt⟩
    · by_cases hnm : n ≤ m
      · exact ⟨_, .outBroke ho fun k v hk => (he.unique hk).1 ▸ hnm⟩
      · exact ⟨_, .errBroke he fun k v hk => (ho.unique hk).1 ▸ Nat.lt_of_not_le hnm⟩

/-- Draining loses and invents nothing. In time it ends in exactly one of the listed ways, which is
decided by the reads alone. After its deadline it reads nothing. It makes at most one round more
than there are reads to come. And stalls, wherever they are, have no part in what a stream holds. -/
theorem drain_exact (deadline : Nat) (clock : Nat → Nat) (o e : List Step) :
    ((∀ n ≤ max o.length e.length, clock n < deadline) → ∀ result,
        Drained o e result ↔ drain deadline clock 0 (.start o) (.start e) = result) ∧
      (deadline ≤ clock 0 → drain deadline clock 0 (.start o) (.start e) =
        (some .deadlinePassed, .start o, .start e)) ∧
      (∃ rounds ≤ max o.length e.length + 1, Drains deadline clock 0 (.start o) (.start e) rounds
        (drain deadline clock 0 (.start o) (.start e))) ∧
      ∀ o', unstalled o' = unstalled o → (Sound o' ↔ Sound o) ∧ content o' = content o := by
  refine ⟨?_, drain_of_late Bool.false_ne_true, ?_, ?_⟩
  · intro hclock result
    refine ⟨fun h => h.eq_drain hclock, ?_⟩
    rintro rfl
    obtain ⟨result, hresult⟩ := exists_drained o e
    rwa [hresult.eq_drain hclock]
  · obtain ⟨rounds, hrounds, hdrains⟩ := drains_drain deadline clock 0 (.start o) (.start e)
    rw [Stream.unread_start, Stream.unread_start] at hrounds
    exact ⟨rounds, by omega, hdrains⟩
  · intro o' hsame
    rw [← sound_unstalled_iff o', ← content_unstalled o', hsame]
    exact ⟨sound_unstalled_iff o, content_unstalled o⟩

/-! ## A script that halts a machine -/

/-- A read that stalls. -/
def stalled : Step := .trouble (.ofKind .wouldBlock none)

/-- A read of a connection that was reset. -/
def reset : Step := .trouble (.ofKind .reset none)

/-- Two pieces of output with stalls around them. -/
def halted : List Step := [stalled, .data [0x68, 0x61], stalled, .data [0x6C, 0x74]]

/-- A warning, the end, and what is not read any more. -/
def warned : List Step := [.data [0x77], stalled, .data [], .data [0x78]]

theorem halted_sound : Sound halted := by
  simp [Sound, halted, beforeEnd, Step.isEnd, stalled, Trouble.ofKind, Trouble.isStall]

theorem warned_sound : Sound warned := by
  simp [Sound, warned, beforeEnd, Step.isEnd, stalled, Trouble.ofKind, Trouble.isStall]

/-- Both outputs are whole, and what is behind the end of the warning is left. Where the connection
is reset in the second round, so is what would be read in later ones. -/
theorem halted_drained :
    drain 5 id 0 (.start halted) (.start warned) =
        (none, ⟨[0x68, 0x61, 0x6C, 0x74], true, []⟩, ⟨[0x77], true, [.data [0x78]]⟩) ∧
      drain 5 id 0 (.start halted) (.start [.data [0x77], reset, .data [0x78]]) =
        (some (.ofKind .reset none), ⟨[0x68, 0x61], false, halted.drop 2⟩,
          ⟨[0x77], false, [.data [0x78]]⟩) := by
  have hreset : BreaksAt [.data [0x77], reset, .data [0x78]] 1 (.ofKind .reset none) :=
    (breaksAt_succ_iff rfl (Step.calm_data _)).mpr (breaksAt_zero rfl)
  constructor
  · exact ((drain_exact 5 id halted warned).1 (by decide) _).mp (.whole halted_sound warned_sound)
  · refine ((drain_exact 5 id halted _).1 (by decide) _).mp (.errBroke hreset ?_)
    exact fun _ _ h => absurd h halted_sound.not_breaksAt

end FaultDrill.Remote
