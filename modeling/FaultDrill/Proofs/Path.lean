import FaultDrill.Proofs.Except
import FaultDrill.Proofs.FileTree
import FaultDrill.Proofs.Text.Blank
/-!
# Paths behind other paths

A path that is put behind a base goes on from the base by its own names (`Continues`), and without
`..` among them it stays below the base, whatever files there are (`LiesUnder`). An absolute path
stands for itself, and the base is lost. A text in front of which `~/` stands is put behind the home
directory: what follows the two characters is meant to be names alone, but where it begins with one
more slash it is an absolute path (`continues_expandHome_iff`).
-/
namespace FaultDrill

namespace FileTree

variable {t : FileTree} {k l : Location} {names : List String}

/-- Names without `..` lead downwards only. -/
theorem suffix_of_walk (h : t.walk k names = .ok l) (hup : ".." ∉ names) : k <:+ l := by
  induction names generalizing k with
  | nil =>
    cases h
    exact List.suffix_refl _
  | cons part more ih =>
    rw [List.mem_cons, not_or] at hup
    obtain ⟨m, hstep, hmore⟩ := bind_eq_ok_iff.mp h
    have hbelow := ih hmore hup.2
    rcases (step_eq_ok hstep).2 with ⟨-, rfl⟩ | ⟨hdots, -⟩ | ⟨-, -, -, rfl, -⟩
    · exact hbelow
    · exact absurd hdots.symm hup.1
    · exact (List.suffix_cons part k).trans hbelow

end FileTree

namespace Path

/-- A path that goes on from a base by names: it starts where the base starts, and leads along the
base first. -/
structure Continues (base : String) (names : List String) (path : String) : Prop where
  absolute : isAbsolute path = isAbsolute base
  route : FileTree.route path = FileTree.route base ++ names

/-- A path that does not leave its base: whatever the files are, it leads to the place of the base
or to one below it. -/
def LiesUnder (base path : String) : Prop :=
  ∀ (t : FileTree) (l : Location), t.resolve path = .ok l →
    ∃ k, t.walk (t.origin base) (FileTree.route base) = .ok k ∧ k <:+ l

variable {home base p : String} {names : List String} {cs rest : List Char}

theorem Continues.liesUnder {path : String} (h : Continues base names path)
    (hup : ".." ∉ names) : LiesUnder base path := by
  intro t l hl
  obtain ⟨-, hwalk, -⟩ := FileTree.resolve_eq_ok_iff.mp hl
  rw [FileTree.origin, h.absolute, ← FileTree.origin, h.route] at hwalk
  obtain ⟨k, hbase, hnames⟩ := FileTree.walk_append.mp hwalk
  exact ⟨k, hbase, FileTree.suffix_of_walk hnames hup⟩

/-! ## Joined paths -/

theorem join_of_isAbsolute (h : isAbsolute p = true) (base : String) : join base p = p := by
  rw [join, h]
  rfl

/-- How a relative path is put behind a base: with a slash between them, unless there is one. -/
theorem toList_join (hp : isAbsolute p = false) (hbase : base ≠ "") :
    (∃ outer, base.toList = outer ++ ['/'] ∧ (join base p).toList = outer ++ '/' :: p.toList) ∨
      (join base p).toList = base.toList ++ '/' :: p.toList := by
  rw [join, hp, Bool.false_or, if_neg (by simpa using hbase)]
  split
  · rename_i hslash
    obtain ⟨outer, houter⟩ := List.getLast?_eq_some_iff.mp (beq_iff_eq.mp hslash)
    refine .inl ⟨outer, houter, ?_⟩
    rw [String.toList_append, houter, List.append_assoc]
    rfl
  · refine .inr ?_
    rw [String.toList_append, String.toList_append, List.append_assoc]
    rfl

/-- A relative path behind a base goes on from it. -/
theorem continues_join (hp : isAbsolute p = false) (base : String) :
    Continues base (FileTree.route p) (join base p) := by
  by_cases hbase : base = ""
  · subst hbase
    have hjoin : join "" p = p := by rw [join, if_pos (by simp)]
    rw [hjoin]
    exact ⟨hp, rfl⟩
  have hnames (cs : List Char) :
      FileTree.names (cs ++ '/' :: p.toList) = FileTree.names cs ++ FileTree.route p :=
    FileTree.names_append cs p.toList
  rcases toList_join hp hbase with ⟨outer, houter, hjoin⟩ | hjoin
  · have hroute : FileTree.route base = FileTree.names outer := by
      have hsplit : FileTree.route base = FileTree.names (outer ++ '/' :: []) :=
        congrArg FileTree.names houter
      rw [hsplit, FileTree.names_append, FileTree.names_nil, List.append_nil]
    constructor
    · rw [isAbsolute, isAbsolute, hjoin, houter]
      cases outer <;> rfl
    · have hsplit : FileTree.route (join base p) = FileTree.names (outer ++ '/' :: p.toList) :=
        congrArg FileTree.names hjoin
      rw [hsplit, hnames, hroute]
  · constructor
    · have hchars : base.toList ≠ [] := mt String.toList_eq_nil_iff.mp hbase
      rw [isAbsolute, isAbsolute, hjoin, List.head?_append_of_ne_nil _ hchars]
    · have hsplit : FileTree.route (join base p) =
          FileTree.names (base.toList ++ '/' :: p.toList) := congrArg FileTree.names hjoin
      rw [hsplit, hnames]
      rfl

theorem isAbsolute_join (h : isAbsolute base = true) (p : String) :
    isAbsolute (join base p) = true := by
  by_cases hp : isAbsolute p = true
  · rwa [join_of_isAbsolute hp]
  · rw [(continues_join (by simpa using hp) base).absolute, h]

/-! ## The home directory -/

/-- A path from the home directory, with what follows `~/` in it. Blanks around it do not count. -/
def FromHome (p : String) (rest : List Char) : Prop := Text.trimChars p.toList = '~' :: '/' :: rest

/-- Blanks around a path make no difference. -/
theorem expandHome_congr {p q : String}
    (h : Text.trimChars p.toList = Text.trimChars q.toList) (home : Option String) :
    expandHome home p = expandHome home q := by
  simp only [expandHome, h]

theorem expandHome_of_fromHome (h : FromHome p rest) (home : String) :
    expandHome home p = join home (String.ofList rest) := by
  have hafter : Text.after? ['~', '/'] (Text.trimChars p.toList) = some rest :=
    Text.after?_eq_some.mpr h
  rw [expandHome]
  simp only [hafter]

/-- Without a home directory every path stays as it is written. -/
theorem expandHome_none (p : String) : expandHome none p = Text.trim p := rfl

theorem expandHome_of_not_fromHome (h : ∀ rest, ¬ FromHome p rest) (home : Option String) :
    expandHome home p = Text.trim p := by
  cases home with
  | none => exact expandHome_none p
  | some home =>
    have hafter : Text.after? ['~', '/'] (Text.trimChars p.toList) = none :=
      Option.eq_none_iff_forall_ne_some.mpr fun rest hrest => h rest (Text.after?_eq_some.mp hrest)
    simp only [expandHome, hafter]
    rfl

theorem isAbsolute_ofList : isAbsolute (String.ofList cs) = (cs.head? == some '/') := by
  rw [isAbsolute, String.toList_ofList]

theorem route_ofList : FileTree.route (String.ofList cs) = FileTree.names cs := by
  have h : FileTree.route (String.ofList cs) = FileTree.names (String.ofList cs).toList := rfl
  rw [h, String.toList_ofList]

/-- A path from home goes on from the home directory, unless one more slash follows `~/`: then the
home directory is lost, which does no harm only where that is the root itself. -/
theorem continues_expandHome_iff (h : FromHome p rest) :
    Continues home (FileTree.names rest) (expandHome home p) ↔
      (rest.head? = some '/' → isAbsolute home = true ∧ FileTree.route home = []) := by
  rw [expandHome_of_fromHome h]
  by_cases hslash : rest.head? = some '/'
  · have habsolute : isAbsolute (String.ofList rest) = true := by
      rw [isAbsolute_ofList, hslash]
      rfl
    rw [join_of_isAbsolute habsolute]
    constructor
    · rintro ⟨hstart, hroute⟩ -
      rw [route_ofList] at hroute
      exact ⟨hstart.symm.trans habsolute, List.self_eq_append_left.mp hroute⟩
    · intro hroot
      obtain ⟨hhome, hroute⟩ := hroot hslash
      refine ⟨habsolute.trans hhome.symm, ?_⟩
      rw [route_ofList, hroute, List.nil_append]
  · have hrelative : isAbsolute (String.ofList rest) = false := by
      rw [isAbsolute_ofList]
      exact beq_eq_false_iff_ne.mpr hslash
    refine ⟨fun _ hslash' => absurd hslash' hslash, fun _ => ?_⟩
    rw [← route_ofList]
    exact continues_join hrelative home

end Path
end FaultDrill
