import FaultDrill.Remote.Stream
/-!
# What a stream holds

A stream holds the bytes that are read before its first end (`content`), and stalls have no part in
them. It gives all of them, unless a trouble that is no stall stands before the end (`BreaksAt`).
Reading it again and again comes to its content and the end (`Stream.reads_eq_finished`), or to the
trouble that breaks it (`Stream.trouble_reads_iff`).
-/
namespace FaultDrill.Remote

/-! ## Reads to come -/

/-- The bytes of a read. -/
def Step.bytes : Step → List UInt8
  | .data bytes => bytes
  | .trouble _ => []

/-- Whether a read has to be made again. -/
def Step.isStall : Step → Bool
  | .data _ => false
  | .trouble t => t.isStall

/-- Whether a read is the end of the stream. -/
def Step.isEnd : Step → Bool
  | .data bytes => bytes.isEmpty
  | .trouble _ => false

/-- A read that does not break its stream. -/
def Step.Calm (s : Step) : Prop := ∀ t, s = .trouble t → t.isStall = true

/-- The reads before the first end of a stream. -/
def beforeEnd (steps : List Step) : List Step := steps.takeWhile (!·.isEnd)

/-- The reads behind the first end of a stream. -/
def behindEnd (steps : List Step) : List Step := (steps.dropWhile (!·.isEnd)).tail

/-- The bytes that a stream holds. -/
def content (steps : List Step) : List UInt8 := (beforeEnd steps).flatMap Step.bytes

/-- A stream that gives all it holds: every trouble before its end is a stall. -/
def Sound (steps : List Step) : Prop := ∀ t, Step.trouble t ∈ beforeEnd steps → t.isStall = true

/-- A stream that breaks: after `n` reads, before its end, comes the first trouble that is no
stall. -/
structure BreaksAt (steps : List Step) (n : Nat) (t : Trouble) : Prop where
  trouble : (beforeEnd steps)[n]? = some (.trouble t)
  final : t.isStall = false
  first : ∀ m < n, ∀ u, (beforeEnd steps)[m]? = some (.trouble u) → u.isStall = true

/-- Reads without the stalls among them. -/
def unstalled (steps : List Step) : List Step := steps.filter (!·.isStall)

section

variable {s : Step} {steps : List Step} {n m : Nat} {t u : Trouble}

theorem Step.calm_data (bytes : List UInt8) : (Step.data bytes).Calm := by
  intro t h
  cases h

theorem Step.calm_of_isStall (h : s.isStall = true) : s.Calm := by
  rintro t rfl
  exact h

theorem beforeEnd_end (h : s.isEnd = true) : beforeEnd (s :: steps) = [] := by
  rw [beforeEnd, List.takeWhile_cons, h]
  rfl

theorem beforeEnd_cons (h : s.isEnd = false) : beforeEnd (s :: steps) = s :: beforeEnd steps := by
  rw [beforeEnd, List.takeWhile_cons, h]
  rfl

theorem behindEnd_end (h : s.isEnd = true) : behindEnd (s :: steps) = steps := by
  rw [behindEnd, List.dropWhile_cons, h]
  rfl

theorem behindEnd_cons (h : s.isEnd = false) : behindEnd (s :: steps) = behindEnd steps := by
  rw [behindEnd, List.dropWhile_cons, h]
  rfl

theorem content_end (h : s.isEnd = true) : content (s :: steps) = [] := by
  rw [content, beforeEnd_end h]
  rfl

theorem content_cons (h : s.isEnd = false) : content (s :: steps) = s.bytes ++ content steps := by
  rw [content, beforeEnd_cons h]
  rfl

theorem sound_nil : Sound [] := nofun

theorem sound_of_end (h : s.isEnd = true) : Sound (s :: steps) := by
  intro t ht
  rw [beforeEnd_end h] at ht
  cases ht

theorem sound_cons_iff (h : s.isEnd = false) : Sound (s :: steps) ↔ s.Calm ∧ Sound steps := by
  rw [Sound, beforeEnd_cons h]
  constructor
  · intro hsound
    refine ⟨?_, fun t ht => hsound t (.tail _ ht)⟩
    rintro t rfl
    exact hsound t (.head _)
  · rintro ⟨hcalm, hsound⟩ t ht
    cases ht with
    | head => exact hcalm t rfl
    | tail _ ht => exact hsound t ht

theorem BreaksAt.unique (h : BreaksAt steps n t) (h' : BreaksAt steps m u) : n = m ∧ t = u := by
  obtain hlt | heq | hgt := Nat.lt_trichotomy n m
  · have hstall := h'.first n hlt t h.trouble
    rw [h.final] at hstall
    cases hstall
  · subst heq
    have hsame := h.trouble.symm.trans h'.trouble
    exact ⟨rfl, Step.trouble.inj (Option.some.inj hsame)⟩
  · have hstall := h.first m hgt u h'.trouble
    rw [h'.final] at hstall
    cases hstall

theorem Sound.not_breaksAt (h : Sound steps) : ¬ BreaksAt steps n t := by
  intro hbreaks
  have hstall := h t (List.mem_of_getElem? hbreaks.trouble)
  rw [hbreaks.final] at hstall
  cases hstall

theorem not_breaksAt_of_end (h : s.isEnd = true) : ¬ BreaksAt (s :: steps) n t :=
  (sound_of_end h).not_breaksAt

theorem breaksAt_zero (h : t.isStall = false) : BreaksAt (.trouble t :: steps) 0 t where
  trouble := rfl
  final := h
  first := nofun

theorem breaksAt_succ_iff (h : s.isEnd = false) (hcalm : s.Calm) :
    BreaksAt (s :: steps) (n + 1) t ↔ BreaksAt steps n t := by
  constructor
  · rintro ⟨htrouble, hfinal, hfirst⟩
    rw [beforeEnd_cons h] at htrouble hfirst
    exact ⟨htrouble, hfinal, fun m hm u hu => hfirst (m + 1) (Nat.succ_lt_succ hm) u hu⟩
  · rintro ⟨htrouble, hfinal, hfirst⟩
    rw [← List.getElem?_cons_succ (a := s), ← beforeEnd_cons h] at htrouble
    refine ⟨htrouble, hfinal, ?_⟩
    intro m hm u hu
    rw [beforeEnd_cons h] at hu
    cases m with
    | zero => exact hcalm u (Option.some.inj hu)
    | succ m => exact hfirst m (Nat.lt_of_succ_lt_succ hm) u hu

theorem not_breaksAt_zero (h : s.isEnd = false) (hcalm : s.Calm) : ¬ BreaksAt (s :: steps) 0 t := by
  rintro ⟨htrouble, hfinal, -⟩
  rw [beforeEnd_cons h] at htrouble
  rw [hcalm t (Option.some.inj htrouble)] at hfinal
  cases hfinal

/-- A read that is no end goes on with its stream, or breaks it. -/
theorem Step.calm_or_final (s : Step) : s.Calm ∨ ∃ t, s = .trouble t ∧ t.isStall = false := by
  cases s with
  | data bytes => exact .inl (calm_data bytes)
  | trouble t =>
    cases hstall : t.isStall with
    | true => exact .inl (calm_of_isStall hstall)
    | false => exact .inr ⟨t, rfl, hstall⟩

/-- A stream gives all it holds, or it breaks. -/
theorem sound_or_breaksAt (steps : List Step) : Sound steps ∨ ∃ n t, BreaksAt steps n t := by
  induction steps with
  | nil => exact .inl sound_nil
  | cons s steps ih =>
    cases hend : s.isEnd with
    | true => exact .inl (sound_of_end hend)
    | false =>
      rcases s.calm_or_final with hcalm | ⟨t, rfl, hfinal⟩
      · rcases ih with hsound | ⟨n, t, hbreaks⟩
        · exact .inl ((sound_cons_iff hend).mpr ⟨hcalm, hsound⟩)
        · exact .inr ⟨n + 1, t, (breaksAt_succ_iff hend hcalm).mpr hbreaks⟩
      · exact .inr ⟨0, t, breaksAt_zero hfinal⟩

theorem Step.isEnd_of_isStall (h : s.isStall = true) : s.isEnd = false := by
  cases s with
  | data _ => cases h
  | trouble _ => rfl

/-- Stalls have no part in what a stream holds. -/
theorem content_unstalled (steps : List Step) : content (unstalled steps) = content steps := by
  induction steps with
  | nil => rfl
  | cons s steps ih =>
    rw [unstalled, List.filter_cons]
    cases hstall : s.isStall with
    | true =>
      have hbytes : s.bytes = [] := by
        cases s with
        | data _ => cases hstall
        | trouble _ => rfl
      rw [content_cons (Step.isEnd_of_isStall hstall), hbytes]
      exact ih
    | false =>
      cases hend : s.isEnd with
      | true => exact (content_end hend).trans (content_end hend).symm
      | false =>
        rw [content_cons hend, ← ih]
        exact content_cons hend

theorem sound_unstalled_iff (steps : List Step) : Sound (unstalled steps) ↔ Sound steps := by
  induction steps with
  | nil => rfl
  | cons s steps ih =>
    rw [unstalled, List.filter_cons]
    cases hstall : s.isStall with
    | true =>
      rw [sound_cons_iff (Step.isEnd_of_isStall hstall)]
      exact ih.trans (iff_and_self.mpr fun _ => Step.calm_of_isStall hstall)
    | false =>
      cases hend : s.isEnd with
      | true => exact iff_of_true (sound_of_end hend) (sound_of_end hend)
      | false =>
        rw [sound_cons_iff hend, ← ih]
        exact sound_cons_iff hend

end

/-! ## Reading -/

namespace Stream

/-- What a read of a stream may do. -/
inductive ReadsTo (s : Stream) : Option Trouble × Stream → Prop where
  | ended (h : s.ended = true) : ReadsTo s (none, s)
  | exhausted (h : s.ended = false) (hleft : s.left = []) :
    ReadsTo s (none, { s with ended := true })
  | endRead {x more} (h : s.ended = false) (hleft : s.left = x :: more) (hend : x.isEnd = true) :
    ReadsTo s (none, { s with ended := true, left := more })
  | goesOn {x more} (h : s.ended = false) (hleft : s.left = x :: more) (hend : x.isEnd = false)
    (hcalm : x.Calm) : ReadsTo s (none, { s with arrived := s.arrived ++ x.bytes, left := more })
  | breaks {t more} (h : s.ended = false) (hleft : s.left = .trouble t :: more)
    (hfinal : t.isStall = false) : ReadsTo s (some t, { s with left := more })

theorem readsTo (s : Stream) : s.ReadsTo s.read := by
  cases h : s.ended with
  | true =>
    rw [read, if_pos h]
    exact .ended h
  | false =>
    rw [read, if_neg (by rw [h]; decide)]
    split
    case h_1 hleft => exact .exhausted h hleft
    case h_2 hleft => exact .endRead h hleft rfl
    case h_3 bytes more hne hleft =>
      have hend : (Step.data bytes).isEnd = false := List.isEmpty_eq_false_iff.mpr hne
      exact .goesOn h hleft hend (Step.calm_data bytes)
    case h_4 t more hleft =>
      cases hstall : t.isStall with
      | true =>
        have hread := ReadsTo.goesOn h hleft rfl (Step.calm_of_isStall hstall)
        rwa [Step.bytes, List.append_nil] at hread
      | false => exact .breaks h hleft hstall

/-- The stream as it is when it was read to its end. -/
def finished (s : Stream) : Stream :=
  if s.ended then s else ⟨s.arrived ++ content s.left, true, behindEnd s.left⟩

/-- A stream that breaks after `n` more reads. -/
def Breaks (s : Stream) (n : Nat) (t : Trouble) : Prop := s.ended = false ∧ BreaksAt s.left n t

/-- The stream after `n` more reads. -/
def reads : Nat → Stream → Stream
  | 0, s => s
  | n + 1, s => reads n s.read.2

variable {s : Stream} {n : Nat} {t : Trouble}

theorem finished_of_ended (h : s.ended = true) : s.finished = s := by rw [finished, if_pos h]

theorem finished_of_not_ended (h : s.ended = false) :
    s.finished = ⟨s.arrived ++ content s.left, true, behindEnd s.left⟩ := by
  rw [finished, if_neg (by rw [h]; decide)]

theorem unread_eq_zero_iff : s.unread = 0 ↔ s.ended = true := by
  rw [unread]
  cases s.ended <;> simp

theorem ended_finished (s : Stream) : s.finished.ended = true := by
  rw [finished]
  split
  case isTrue h => exact h
  case isFalse => rfl

theorem reads_of_ended (h : s.ended = true) (n : Nat) : s.reads n = s := by
  induction n with
  | zero => rfl
  | succ n ih =>
    rw [reads, read, if_pos h]
    exact ih

theorem reads_succ (s : Stream) (n : Nat) : s.reads (n + 1) = (s.reads n).read.2 := by
  induction n generalizing s with
  | zero => rfl
  | succ n ih => exact ih s.read.2

theorem ended_of_read (h : s.read.1 = some t) : s.ended = false := by
  cases hended : s.ended with
  | true =>
    rw [read, if_pos hended] at h
    cases h
  | false => rfl

/-- Each read takes one of the reads to come. -/
theorem unread_read_succ_le (s : Stream) : s.read.2.unread ≤ s.unread - 1 := by
  cases h : s.ended with
  | true =>
    have hidle : s.read.2 = s := s.reads_of_ended h 1
    have hnone := unread_eq_zero_iff.mpr h
    rw [hidle]
    omega
  | false => exact Nat.le_sub_one_of_lt (unread_read_lt h)

/-- A read changes nothing about what the stream comes to. -/
theorem finished_read (h : s.read.1 = none) : s.read.2.finished = s.finished := by
  have hread := s.readsTo
  generalize s.read = r at h hread ⊢
  cases hread with
  | ended _ => rfl
  | exhausted hopen hleft =>
    rw [finished_of_ended rfl, finished_of_not_ended hopen, hleft, content, beforeEnd,
      List.takeWhile_nil, List.flatMap_nil, List.append_nil]
    rfl
  | endRead hopen hleft hend =>
    rw [finished_of_ended rfl, finished_of_not_ended hopen, hleft, content_end hend,
      List.append_nil, behindEnd_end hend]
  | @goesOn x more hopen hleft hend _ =>
    calc
      _ = ⟨(s.arrived ++ x.bytes) ++ content more, true, behindEnd more⟩ :=
        @finished_of_not_ended ⟨s.arrived ++ x.bytes, s.ended, more⟩ hopen
      _ = s.finished := by
        rw [finished_of_not_ended hopen, hleft, content_cons hend, behindEnd_cons hend,
          List.append_assoc]
  | breaks _ _ _ => cases h

theorem breaks_zero_iff : s.Breaks 0 t ↔ s.read.1 = some t := by
  have hread := s.readsTo
  generalize s.read = r at hread ⊢
  rw [Breaks]
  cases hread with
  | ended h => simp [h]
  | exhausted _ hleft =>
    rw [hleft]
    exact iff_of_false (fun h => sound_nil.not_breaksAt h.2) nofun
  | endRead _ hleft hend =>
    rw [hleft]
    exact iff_of_false (fun h => not_breaksAt_of_end hend h.2) nofun
  | goesOn _ hleft hend hcalm =>
    rw [hleft]
    exact iff_of_false (fun h => not_breaksAt_zero hend hcalm h.2) nofun
  | @breaks u more hopen hleft hfinal =>
    rw [hleft]
    have hbreaks : BreaksAt (.trouble u :: more) 0 u := breaksAt_zero hfinal
    constructor
    · rintro ⟨-, h⟩
      rw [(h.unique hbreaks).2]
    · rintro ⟨⟩
      exact ⟨hopen, hbreaks⟩

theorem breaks_succ_iff (h : s.read.1 = none) : s.Breaks (n + 1) t ↔ s.read.2.Breaks n t := by
  have hread := s.readsTo
  generalize s.read = r at h hread ⊢
  rw [Breaks, Breaks]
  cases hread with
  | ended hended => simp [hended]
  | exhausted _ hleft =>
    rw [hleft]
    exact iff_of_false (fun h => sound_nil.not_breaksAt h.2) (fun h => nomatch h.1)
  | endRead _ hleft hend =>
    rw [hleft]
    exact iff_of_false (fun h => not_breaksAt_of_end hend h.2) (fun h => nomatch h.1)
  | goesOn hopen hleft hend hcalm => rw [hleft, breaksAt_succ_iff hend hcalm]
  | breaks _ _ _ => cases h

theorem read_eq_none (h : ∀ u, ¬ s.Breaks 0 u) : s.read.1 = none := by
  rw [Option.eq_none_iff_forall_not_mem]
  intro u hu
  exact h u (breaks_zero_iff.mpr hu)

theorem Breaks.unique {m : Nat} {u : Trouble} (h : s.Breaks n t) (h' : s.Breaks m u) :
    n = m ∧ t = u := h.2.unique h'.2

/-- A stream breaks while there are reads to come. -/
theorem Breaks.lt_unread (h : s.Breaks n t) : n < s.unread := by
  obtain ⟨hbound, -⟩ := List.getElem?_eq_some_iff.mp h.2.trouble
  have hlength : (beforeEnd s.left).length ≤ s.left.length := (List.takeWhile_prefix _).length_le
  rw [unread, if_neg (by rw [h.1]; decide)]
  omega

/-- Up to where a stream breaks its reads meet no trouble but stalls. -/
theorem trouble_reads_iff (h : ∀ m < n, ∀ u, ¬ s.Breaks m u) :
    (s.reads n).read.1 = some t ↔ s.Breaks n t := by
  induction n generalizing s with
  | zero => exact breaks_zero_iff.symm
  | succ n ih =>
    have hcalm := read_eq_none (h 0 (Nat.succ_pos n))
    rw [breaks_succ_iff hcalm]
    refine ih ?_
    intro m hm u hu
    exact h (m + 1) (Nat.succ_lt_succ hm) u ((breaks_succ_iff hcalm).mpr hu)

theorem trouble_reads_eq_none (h : ∀ m ≤ n, ∀ u, ¬ s.Breaks m u) : (s.reads n).read.1 = none := by
  rw [Option.eq_none_iff_forall_not_mem]
  intro u hu
  exact h n (Nat.le_refl n) u ((trouble_reads_iff fun m hm => h m (Nat.le_of_lt hm)).mp hu)

/-- As many reads as a stream can take come to its content and its end. -/
theorem reads_eq_finished (h : ∀ m u, ¬ s.Breaks m u) (hn : s.unread ≤ n) :
    s.reads n = s.finished := by
  induction n generalizing s with
  | zero =>
    have hended := unread_eq_zero_iff.mp (Nat.le_zero.mp hn)
    rw [finished_of_ended hended]
    rfl
  | succ n ih =>
    have hcalm := read_eq_none (h 0)
    have hless := s.unread_read_succ_le
    rw [reads, ← finished_read hcalm]
    refine ih ?_ (by omega)
    intro m u hu
    exact h (m + 1) u ((breaks_succ_iff hcalm).mpr hu)

end Stream

end FaultDrill.Remote
