import FaultDrill.Work
/-!
# Courses of work

Work without a break runs in one world after the other (`Work.run`). Beside others it meets whatever
world they have left when it comes to its next deed. `Work.Comes` says which deeds it does, and in
which worlds, until it comes to a result.
-/
namespace FaultDrill.Work

variable {does : (d : Deed) → StateM σ d.Answer} {w : Work α} {f : α → Work β} {l : Lock}

@[simp] theorem deed_bind (d : Deed) (next : d.Answer → Work α) (f : α → Work β) :
    (Work.deed d next >>= f) = .deed d fun answer => next answer >>= f := rfl

/-! ## Without a break -/

theorem run_bind (w : Work α) (f : α → Work β) (s : σ) :
    (w >>= f).run does s = (f (w.run does s).1).run does (w.run does s).2 := by
  induction w generalizing s with
  | done a => rfl
  | deed d next ih => exact ih _ _
  | lock l rest ih => exact ih _
  | unlock l rest ih => exact ih _

theorem run_holding (l : Lock) (w : Work α) (s : σ) : (holding l w).run does s = w.run does s := by
  show (w >>= fun a => .unlock l (.done a)).run does s = _
  rw [run_bind]
  rfl

/-! ## Beside others -/

/-- A deed and the world in which it is done. -/
structure Step (σ : Type) where
  deed : Deed
  world : σ

/-- Work comes to a result by these deeds, each done in a world of its own: others may have changed
the world since the deed before. -/
inductive Comes (does : (d : Deed) → StateM σ d.Answer) : Work α → List (Step σ) → α → Prop where
  | done (a : α) : Comes does (.done a) [] a
  | deed {d : Deed} {next : d.Answer → Work α} {s : σ} {steps : List (Step σ)} {a : α}
    (h : Comes does (next (does d s).1) steps a) : Comes does (.deed d next) (⟨d, s⟩ :: steps) a
  | lock {l : Lock} {rest : Work α} {steps : List (Step σ)} {a : α}
    (h : Comes does rest steps a) : Comes does (.lock l rest) steps a
  | unlock {l : Lock} {rest : Work α} {steps : List (Step σ)} {a : α}
    (h : Comes does rest steps a) : Comes does (.unlock l rest) steps a

namespace Comes

variable {steps : List (Step σ)} {b : β}

theorem of_done {a a' : α} (h : Comes does (.done a) steps a') : steps = [] ∧ a' = a := by
  cases h
  exact ⟨rfl, rfl⟩

theorem of_deed {d : Deed} {next : d.Answer → Work α} {a : α}
    (h : Comes does (.deed d next) steps a) :
    ∃ s more, steps = ⟨d, s⟩ :: more ∧ Comes does (next (does d s).1) more a := by
  cases h with
  | deed h => exact ⟨_, _, rfl, h⟩

theorem of_deed_bind {d : Deed} {f : d.Answer → Work β}
    (h : Comes does (.deed d .done >>= f) steps b) :
    ∃ s more, steps = ⟨d, s⟩ :: more ∧ Comes does (f (does d s).1) more b := h.of_deed

theorem of_bind (h : Comes does (w >>= f) steps b) :
    ∃ a first more, steps = first ++ more ∧ Comes does w first a ∧ Comes does (f a) more b := by
  induction w generalizing steps with
  | done a => exact ⟨a, [], steps, rfl, .done a, h⟩
  | deed d next ih =>
    rw [deed_bind] at h
    obtain ⟨s, later, rfl, hlater⟩ := h.of_deed
    obtain ⟨a, first, more, rfl, hfirst, hmore⟩ := ih _ hlater
    exact ⟨a, ⟨d, s⟩ :: first, more, rfl, hfirst.deed, hmore⟩
  | lock l rest ih =>
    cases h with
    | lock h =>
      obtain ⟨a, first, more, rfl, hfirst, hmore⟩ := ih h
      exact ⟨a, first, more, rfl, hfirst.lock, hmore⟩
  | unlock l rest ih =>
    cases h with
    | unlock h =>
      obtain ⟨a, first, more, rfl, hfirst, hmore⟩ := ih h
      exact ⟨a, first, more, rfl, hfirst.unlock, hmore⟩

theorem of_holding {a : α} (h : Comes does (holding l w) steps a) : Comes does w steps a := by
  cases h with
  | lock h =>
    obtain ⟨a', first, more, rfl, hfirst, hmore⟩ := h.of_bind
    cases hmore with
    | unlock hmore =>
      obtain ⟨rfl, rfl⟩ := hmore.of_done
      rwa [List.append_nil]

end Comes

/-! ## Work with certain deeds only -/

/-- Work all of whose deeds have a property, whatever the world answers. -/
def Only (P : Deed → Prop) : Work α → Prop
  | .done _ => True
  | .deed d next => P d ∧ ∀ answer, (next answer).Only P
  | .lock _ rest => rest.Only P
  | .unlock _ rest => rest.Only P

namespace Only

variable {P : Deed → Prop}

theorem bind (hw : w.Only P) (hf : ∀ a, (f a).Only P) : (w >>= f).Only P := by
  induction w with
  | done a => exact hf a
  | deed d next ih => exact ⟨hw.1, fun answer => ih answer (hw.2 answer)⟩
  | lock l rest ih => exact ih hw
  | unlock l rest ih => exact ih hw

theorem deed_bind {d : Deed} {f : d.Answer → Work β} (hd : P d) (hf : ∀ a, (f a).Only P) :
    (Work.deed d .done >>= f).Only P := ⟨hd, hf⟩

theorem holding (hw : w.Only P) : (Work.holding l w).Only P := hw.bind fun _ => trivial

theorem ite {p : Prop} [Decidable p] {w w' : Work α} (h : w.Only P) (h' : w'.Only P) :
    (if p then w else w').Only P := by
  split
  · exact h
  · exact h'

theorem mono {Q : Deed → Prop} (hPQ : ∀ d, P d → Q d) (hw : w.Only P) : w.Only Q := by
  induction w with
  | done a => trivial
  | deed d next ih => exact ⟨hPQ d hw.1, fun answer => ih answer (hw.2 answer)⟩
  | lock l rest ih => exact ih hw
  | unlock l rest ih => exact ih hw

theorem of_comes (hw : w.Only P) {steps : List (Step σ)} {a : α} (h : Comes does w steps a) :
    ∀ st ∈ steps, P st.deed := by
  induction h with
  | done a => exact fun _ h => nomatch h
  | deed h ih => exact List.forall_mem_cons.mpr ⟨hw.1, ih (hw.2 _)⟩
  | lock h ih => exact ih hw
  | unlock h ih => exact ih hw

end Only

/-! ## Work without locks -/

/-- Work that needs no lock, and all of whose deeds have a property, whatever the world answers. -/
def Plain (P : Deed → Prop) : Work α → Prop
  | .done _ => True
  | .deed d next => P d ∧ ∀ answer, (next answer).Plain P
  | .lock .. => False
  | .unlock .. => False

namespace Plain

variable {P : Deed → Prop}

theorem deed_bind {d : Deed} {f : d.Answer → Work β} (hd : P d) (hf : ∀ a, (f a).Plain P) :
    (Work.deed d .done >>= f).Plain P := ⟨hd, hf⟩

theorem only (hw : w.Plain P) : w.Only P := by
  induction w with
  | done a => trivial
  | deed d next ih => exact ⟨hw.1, fun answer => ih answer (hw.2 answer)⟩
  | lock l rest => cases hw
  | unlock l rest => cases hw

end Plain

/-! ## Locks that are given back -/

/-- Work that begins with some locks and ends with others, and takes no lock that it has already. -/
def Ends (held' : List Lock) : List Lock → Work α → Prop
  | held, .done _ => held = held'
  | held, .deed _ next => ∀ answer, Ends held' held (next answer)
  | held, .lock l rest => l ∉ held ∧ Ends held' (l :: held) rest
  | held, .unlock l rest => Ends held' (held.erase l) rest

namespace Ends

variable {held held' held'' : List Lock}

theorem bind (hw : Ends held' held w) (hf : ∀ a, Ends held'' held' (f a)) :
    Ends held'' held (w >>= f) := by
  induction w generalizing held with
  | done a =>
    obtain rfl : held = held' := hw
    exact hf a
  | deed d next ih => exact fun answer => ih answer (hw answer)
  | lock l rest ih => exact ⟨hw.1, ih hw.2⟩
  | unlock l rest ih => exact ih hw

theorem deed_bind {d : Deed} {f : d.Answer → Work β} (hf : ∀ a, Ends held' held (f a)) :
    Ends held' held (Work.deed d .done >>= f) := hf

theorem ite {p : Prop} [Decidable p] {w w' : Work α} (h : Ends held' held w)
    (h' : Ends held' held w') : Ends held' held (if p then w else w') := by
  split
  · exact h
  · exact h'

theorem holding (hl : l ∉ held) (hw : Ends (l :: held) (l :: held) w) :
    Ends held held (holding l w) :=
  ⟨hl, hw.bind fun _ => show (l :: held).erase l = held from List.erase_cons_head ..⟩

theorem of_plain {P : Deed → Prop} (hw : w.Plain P) (held : List Lock) : Ends held held w := by
  induction w with
  | done a => rfl
  | deed d next ih => exact fun answer => ih answer (hw.2 answer)
  | lock l rest => cases hw
  | unlock l rest => cases hw

end Ends
end FaultDrill.Work
