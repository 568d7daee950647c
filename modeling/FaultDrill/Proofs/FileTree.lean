import FaultDrill.FileTree
import FaultDrill.Proofs.Except
import FaultDrill.Proofs.Text.Utf8
/-!
# Files that are there

A path that leads to a file keeps leading there when the file gets another content. Opening it again
to append finds it, and the directories around it, in place. What is written to a path is read from
it, whether there was a file or not (`readText_of_write`).
-/
namespace FaultDrill.FileTree

/-- A path leads to a location with a file. -/
structure Holds (t : FileTree) (path : String) (l : Location) (content : List UInt8) : Prop where
  resolved : t.resolve path = .ok l
  found : t.at? l = some (.file content)

section
variable {t : FileTree} {path : String} {l : Location} {content : List UInt8}

theorem read_eq_ok_iff : t.read path = .ok content ↔ ∃ l, t.Holds path l content := by
  constructor
  · intro h
    cases hr : t.resolve path with
    | error e => simp [read, find, hr, bind, Except.bind] at h
    | ok l =>
      cases ha : t.at? l with
      | none => simp [read, find, hr, ha, bind, Except.bind] at h
      | some e =>
        cases e with
        | directory => simp [read, find, hr, ha, bind, Except.bind] at h
        | file c =>
          simp only [read, find, hr, ha, bind, Except.bind, Except.ok.injEq] at h
          exact ⟨l, hr, h ▸ ha⟩
  · rintro ⟨l, hr, ha⟩
    simp [read, find, hr, ha, bind, Except.bind]

/-- Where a path leads, and that a file has no slash behind its name. -/
theorem resolve_eq_ok_iff : t.resolve path = .ok l ↔
    refuse path = .ok () ∧ t.walk (t.origin path) (route path) = .ok l ∧
      ∀ content, t.at? l = some (.file content) → endsInSlash path = false := by
  rw [resolve]
  simp only [bind_eq_ok_iff]
  constructor
  · rintro ⟨_, hrefuse, k, hwalk, h⟩
    split at h
    · split at h
      · cases h
      · rename_i hslash
        cases h
        exact ⟨hrefuse, hwalk, fun _ _ => by simpa using hslash⟩
    · rename_i hfile
      cases h
      exact ⟨hrefuse, hwalk, fun content hfound => absurd hfound (hfile content)⟩
  · rintro ⟨hrefuse, hwalk, hslash⟩
    refine ⟨(), hrefuse, l, hwalk, ?_⟩
    split
    · rename_i content hfound
      rw [if_neg (by simp [hslash content hfound])]
    · rfl

/-- What it takes that a path leads to a file. -/
theorem holds_iff : t.Holds path l content ↔
    refuse path = .ok () ∧ t.walk (t.origin path) (route path) = .ok l ∧
      endsInSlash path = false ∧ t.at? l = some (.file content) := by
  constructor
  · rintro ⟨hresolve, hfound⟩
    obtain ⟨hrefuse, hwalk, hslash⟩ := resolve_eq_ok_iff.1 hresolve
    exact ⟨hrefuse, hwalk, hslash content hfound, hfound⟩
  · rintro ⟨hrefuse, hwalk, hslash, hfound⟩
    exact ⟨resolve_eq_ok_iff.2 ⟨hrefuse, hwalk, fun _ _ => hslash⟩, hfound⟩

/-! ## Another content -/

theorem ne_nil_of_file (h : t.at? l = some (.file content)) : l ≠ [] := by
  rintro rfl
  cases h

theorem lookup_filter {k : Location} (hk : k ≠ l) (entries : List (Location × Entry)) :
    (entries.filter (·.1 != l)).lookup k = entries.lookup k := by
  induction entries with
  | nil => rfl
  | cons p entries ih =>
    obtain ⟨m, e⟩ := p
    by_cases hm : m = l
    · rw [List.filter_cons_of_neg (by simp [hm]), ih, List.lookup_cons, hm, beq_false_of_ne hk]
    · rw [List.filter_cons_of_pos (by simp [hm]), List.lookup_cons, List.lookup_cons, ih]

theorem at?_set (hl : l ≠ []) (e : Entry) (k : Location) :
    (t.set l e).at? k = if k = l then some e else t.at? k := by
  by_cases hk : k = l
  · rw [hk, if_pos rfl]
    simp [at?, set, hl]
  · rw [if_neg hk]
    have hlookup : (t.set l e).entries.lookup k = t.entries.lookup k := by
      rw [set, List.lookup_cons, beq_false_of_ne hk]
      exact lookup_filter hk t.entries
    rw [at?, at?, hlookup]

/-- What stands at a location, but for the content of a file. -/
theorem at?_set_cases (h : t.at? l = some (.file content)) (new : List UInt8) (k : Location) :
    (t.set l (.file new)).at? k = t.at? k ∨
      t.at? k = some (.file content) ∧ (t.set l (.file new)).at? k = some (.file new) := by
  rw [at?_set (ne_nil_of_file h)]
  by_cases hk : k = l
  · rw [if_pos hk, hk]
    exact .inr ⟨h, rfl⟩
  · rw [if_neg hk]
    exact .inl rfl

/-- A walk does not see what is in a file. -/
theorem step_set (h : t.at? l = some (.file content)) (new : List UInt8) (k : Location)
    (part : String) : (t.set l (.file new)).step k part = t.step k part := by
  have hsome : ((t.set l (.file new)).at? (part :: k)).isSome = (t.at? (part :: k)).isSome := by
    rcases at?_set_cases h new (part :: k) with hk | ⟨hk, hnew⟩
    · rw [hk]
    · rw [hk, hnew]
      rfl
  rcases at?_set_cases h new k with hk | ⟨hk, hnew⟩
  · rw [step, step, hk, hsome]
  · rw [step, step, hk, hnew]

theorem walk_set (h : t.at? l = some (.file content)) (new : List UInt8) (k : Location)
    (parts : List String) : (t.set l (.file new)).walk k parts = t.walk k parts := by
  induction parts generalizing k with
  | nil => rfl
  | cons part parts ih =>
    rw [walk, walk, step_set h]
    cases t.step k part with
    | error e => rfl
    | ok k' => exact ih k'

/-- A path to a file leads to the file after it was written. -/
theorem Holds.set (h : t.Holds path l content) (new : List UInt8) :
    (t.set l (.file new)).Holds path l new := by
  obtain ⟨hrefuse, hwalk, hslash, hfound⟩ := holds_iff.1 h
  refine holds_iff.2 ⟨hrefuse, ?_, hslash, ?_⟩
  · rw [walk_set hfound]
    exact hwalk
  · rw [at?_set (ne_nil_of_file hfound), if_pos rfl]

theorem Holds.extend (h : t.Holds path l content) (more : List UInt8) :
    t.extend path more = .ok (t.set l (.file (content ++ more))) := by
  simp [FileTree.extend, h.resolved, h.found, bind, Except.bind, pure, Except.pure]

end

/-! ## The way to a file -/

/-- The names to walk along the characters of a path. -/
def names (cs : List Char) : List String :=
  (Text.splitAtChar '/' cs).filterMap fun cs => if cs.isEmpty then none else some (String.ofList cs)

/-- Where the characters of a path start. -/
def start (t : FileTree) (cs : List Char) : Location := if cs.head? == some '/' then [] else t.here

theorem splitAtChar_eq_splitOn (sep : Char) (cs : List Char) :
    Text.splitAtChar sep cs = cs.splitOn sep := by
  induction cs with
  | nil => simp [Text.splitAtChar]
  | cons c cs ih =>
    rw [Text.splitAtChar, List.splitOn_cons_eq_if_modifyHead, ih]
    by_cases hc : c = sep
    · simp [hc]
    · rw [if_neg hc, if_neg (by simpa using hc)]
      rcases hs : cs.splitOn sep with _ | ⟨piece, rest⟩
      · exact absurd hs (List.splitOn_ne_nil sep cs)
      · rfl

theorem names_append (cs ds : List Char) : names (cs ++ '/' :: ds) = names cs ++ names ds := by
  simp only [names, splitAtChar_eq_splitOn, List.splitOn_append_cons_self, List.filterMap_append]

@[simp]
theorem names_nil : names [] = [] := rfl

theorem names_name {cs : List Char} (hne : cs ≠ []) (h : '/' ∉ cs) :
    names cs = [String.ofList cs] := by
  rw [names, splitAtChar_eq_splitOn, List.splitOn_eq_singleton h]
  simp [hne]

/-- The last name of a path and what stands in front of it. -/
theorem exists_name {cs : List Char} (hne : cs ≠ []) (hslash : cs.getLast? ≠ some '/') :
    ∃ front name, cs = front ++ name ∧ name ≠ [] ∧ '/' ∉ name ∧
      (front = [] ∨ ∃ outer, front = outer ++ ['/']) := by
  induction cs with
  | nil => exact absurd rfl hne
  | cons c cs ih =>
    by_cases hcs : cs = []
    · subst hcs
      refine ⟨[], [c], rfl, by simp, ?_, .inl rfl⟩
      intro h
      exact hslash (by rw [List.mem_singleton.1 h]; rfl)
    · obtain ⟨front, name, rfl, hname, hno, hfront⟩ :=
        ih hcs (by rwa [List.getLast?_cons_of_ne_nil hcs] at hslash)
      rcases hfront with rfl | ⟨outer, rfl⟩
      · by_cases hc : c = '/'
        · exact ⟨['/'], name, by simp [hc], hname, hno, .inr ⟨[], rfl⟩⟩
        · refine ⟨[], c :: name, rfl, by simp, ?_, .inl rfl⟩
          rw [List.mem_cons, not_or]
          exact ⟨Ne.symm hc, hno⟩
      · exact ⟨c :: outer ++ ['/'], name, rfl, hname, hno, .inr ⟨c :: outer, rfl⟩⟩

theorem names_front {front name : List Char} (hne : name ≠ []) (hno : '/' ∉ name)
    (hfront : front = [] ∨ ∃ outer, front = outer ++ ['/']) :
    names (front ++ name) = names front ++ [String.ofList name] := by
  rcases hfront with rfl | ⟨outer, rfl⟩
  · rw [List.nil_append, names_name hne hno]
    rfl
  · rw [List.append_assoc, List.singleton_append, names_append, names_append, names_name hne hno,
      names_nil, List.append_nil]

/-! ## Directories on the way -/

/-- Characters of a path that lead to a directory. -/
structure Reaches (t : FileTree) (cs : List Char) (k : Location) : Prop where
  walked : t.walk (t.start cs) (names cs) = .ok k
  found : t.at? k = some .directory

section
variable {t : FileTree}

theorem walk_append {k l : Location} {ps qs : List String} :
    t.walk k (ps ++ qs) = .ok l ↔ ∃ k', t.walk k ps = .ok k' ∧ t.walk k' qs = .ok l := by
  induction ps generalizing k with
  | nil => simp [walk]
  | cons p ps ih =>
    rw [List.cons_append, walk, walk]
    cases t.step k p with
    | error e => simp [bind, Except.bind]
    | ok k' => exact ih

theorem walk_concat {k l : Location} {ps : List String} {p : String} :
    t.walk k (ps ++ [p]) = .ok l ↔ ∃ k', t.walk k ps = .ok k' ∧ t.step k' p = .ok l := by
  have hlast (k' : Location) : t.walk k' [p] = t.step k' p := by
    have hwalk : t.walk k' [p] = (t.step k' p).bind fun l => .ok l := rfl
    rw [hwalk]
    cases t.step k' p <;> rfl
  simp only [walk_append, hlast]

/-- One part further: from a directory, and to a name of its own only if there is something. -/
theorem step_eq_ok {k l : Location} {part : String} (h : t.step k part = .ok l) :
    t.at? k = some .directory ∧
      (part = "." ∧ l = k ∨ part = ".." ∧ l = k.tail ∨
        part ≠ "." ∧ part ≠ ".." ∧ ¬ 255 < part.utf8ByteSize ∧ l = part :: k ∧
          (t.at? l).isSome = true) := by
  unfold step at h
  split at h
  · rename_i hk
    refine ⟨hk, ?_⟩
    split at h
    · cases h
      exact .inl ⟨‹_›, rfl⟩
    split at h
    · cases h
      exact .inr (.inl ⟨‹_›, rfl⟩)
    split at h
    · cases h
    split at h
    · cases h
      exact .inr (.inr ⟨‹_›, ‹_›, ‹_›, rfl, ‹_›⟩)
    · cases h
  · cases h
  · cases h

/-- Slashes and dots that do not count can be taken away from the end. -/
theorem Reaches.dropIdle {fuel : Nat} {rev : List Char} {k : Location}
    (h : t.Reaches rev.reverse k) : t.Reaches (Path.dropLast.dropIdle fuel rev).reverse k := by
  fun_induction Path.dropLast.dropIdle fuel rev with
  | case1 => exact h
  | case2 => exact h
  | case3 fuel more hne ih =>
    refine ih ?_
    have hcons : ('/' :: more).reverse = more.reverse ++ '/' :: [] := by simp
    rw [hcons] at h
    obtain ⟨hwalk, hk⟩ := h
    refine ⟨?_, hk⟩
    rw [names_append, names_nil, List.append_nil] at hwalk
    have hstart : t.start (more.reverse ++ ['/']) = t.start more.reverse := by
      have hmore : more.reverse ≠ [] := by
        intro he
        exact hne (List.reverse_eq_nil_iff.1 he)
      rcases h : more.reverse with _ | ⟨c, cs⟩
      · exact absurd h hmore
      · rfl
    rwa [hstart] at hwalk
  | case4 fuel more ih =>
    refine ih ?_
    have hcons : ('.' :: '/' :: more).reverse = more.reverse ++ '/' :: ['.'] := by simp
    have hslash : ('/' :: more).reverse = more.reverse ++ '/' :: [] := by simp
    rw [hcons] at h
    rw [hslash]
    obtain ⟨hwalk, hk⟩ := h
    have hstart : t.start (more.reverse ++ '/' :: ['.']) = t.start (more.reverse ++ ['/']) := by
      cases more.reverse <;> rfl
    have hdot : names ['.'] = ["."] := rfl
    rw [names_append, hdot, hstart] at hwalk
    obtain ⟨k', hfront, hstep⟩ := walk_concat.1 hwalk
    -- the dot is the last part of the walk and stays where it is
    have hk' : k = k' := by
      rcases (step_eq_ok hstep).2 with ⟨-, hk'⟩ | ⟨hdots, -⟩ | ⟨hne, -⟩
      · exact hk'
      · exact absurd hdots (by decide)
      · exact absurd rfl hne
    refine ⟨?_, hk⟩
    rw [names_append, names_nil, List.append_nil, hfront, hk']
  | case5 => exact h

theorem dropIdle_suffix (fuel : Nat) (rev : List Char) :
    Path.dropLast.dropIdle fuel rev <:+ rev := by
  fun_induction Path.dropLast.dropIdle fuel rev with
  | case1 => exact List.suffix_refl _
  | case2 => exact List.suffix_refl _
  | case3 fuel more hne ih => exact ih.trans (List.suffix_cons _ _)
  | case4 fuel more ih => exact ih.trans (List.suffix_cons _ _)
  | case5 => exact List.suffix_refl _

/-- A name at the end of a path counts. -/
theorem dropIdle_name {c : Char} {more : List Char} (hc : c ≠ '/')
    (hdot : ¬ (c = '.' ∧ more.head? = some '/')) (fuel : Nat) :
    Path.dropLast.dropIdle fuel (c :: more) = c :: more := by
  cases fuel with
  | zero => rfl
  | succ fuel =>
    unfold Path.dropLast.dropIdle
    split
    · rfl
    · rename_i heq
      cases heq
      exact absurd rfl hc
    · rename_i heq
      cases heq
      exact absurd ⟨rfl, rfl⟩ hdot
    · rfl

/-- The text in front of the last name of a path, with what does not count taken away. -/
theorem parent?_eq {path : String} {front name : List Char} (h : path.toList = front ++ name)
    (hne : name ≠ []) (hno : '/' ∉ name) (hdot : name ≠ ['.'])
    (hfront : front = [] ∨ ∃ outer, front = outer ++ ['/']) :
    Path.parent? path =
      some (String.ofList (Path.dropLast.dropIdle front.reverse.length front.reverse).reverse) := by
  rcases List.eq_nil_or_concat name with rfl | ⟨more, c, rfl⟩
  · exact absurd rfl hne
  rw [List.concat_eq_append] at h hno hdot
  rw [List.mem_append, List.mem_singleton, not_or] at hno
  have hrev : path.toList.reverse = c :: (more.reverse ++ front.reverse) := by simp [h]
  -- the path ends in a name, so nothing is idle behind it
  have hstay : Path.dropLast.dropIdle (c :: (more.reverse ++ front.reverse)).length
      (c :: (more.reverse ++ front.reverse)) = c :: (more.reverse ++ front.reverse) := by
    refine dropIdle_name (Ne.symm hno.2) ?_ _
    rintro ⟨rfl, hhead⟩
    rcases hmore : more.reverse with _ | ⟨d, ds⟩
    · rw [List.reverse_eq_nil_iff.1 hmore] at hdot
      exact hdot rfl
    · rw [hmore, List.cons_append, List.head?_cons, Option.some.injEq] at hhead
      have hd : d ∈ more.reverse := by simp [hmore]
      rw [hhead, List.mem_reverse] at hd
      exact hno.1 hd
  have hdrop : (c :: (more.reverse ++ front.reverse)).dropWhile (· != '/') = front.reverse := by
    have hname : ∀ d ∈ c :: more.reverse, (d != '/') = true := by
      intro d hd
      rw [bne_iff_ne]
      rintro rfl
      rcases List.mem_cons.1 hd with hd | hd
      · exact hno.2 hd
      · exact hno.1 (List.mem_reverse.1 hd)
    rw [← List.cons_append, List.dropWhile_append_of_pos hname]
    rcases hfront with rfl | ⟨outer, rfl⟩ <;> simp
  rw [Path.parent?, hrev, Path.dropLast]
  simp only [hstay]
  split
  · rename_i heq
    cases heq
  · rename_i heq
    exact absurd (List.cons.inj heq).1.symm hno.2
  · rw [hdrop]
    rfl

/-! ## Opening again -/

theorem refuse_eq_ok {path : String} : refuse path = .ok () ↔
    '\x00' ∉ path.toList ∧ path ≠ "" ∧ path.utf8ByteSize < 4096 := by
  unfold refuse
  split
  · simp_all
  split
  · simp_all
  split
  · simp_all
  · simp_all

/-- A text in front of a path, if any, is a path too. -/
theorem refuse_of_isPrefix {path front : String} (h : refuse path = .ok ())
    (hp : front.toList <+: path.toList) (hne : front ≠ "") : refuse front = .ok () := by
  obtain ⟨hnul, -, hsize⟩ := refuse_eq_ok.1 h
  obtain ⟨rest, hrest⟩ := hp
  refine refuse_eq_ok.2 ⟨fun hmem => hnul ?_, hne, ?_⟩
  · rw [← hrest]
    exact List.mem_append_left rest hmem
  · have hpath : path = front ++ String.ofList rest := by
      rw [← String.toList_inj, String.toList_append, String.toList_ofList, hrest]
    rw [hpath, String.utf8ByteSize_append] at hsize
    omega

/-- A new entry would stand where the path leads, when it leads anywhere. -/
theorem target_of_walk {path : String} {l : Location} (hrefuse : refuse path = .ok ())
    (hwalk : t.walk (t.origin path) (route path) = .ok l) (hne : route path ≠ []) :
    t.target path = .ok l := by
  rcases List.eq_nil_or_concat (route path) with hnil | ⟨outer, last, hroute⟩
  · exact absurd hnil hne
  rw [List.concat_eq_append] at hroute
  have hrev : (route path).reverse = last :: outer.reverse := by simp [hroute]
  simp only [target, hrefuse, hrev, List.reverse_reverse, bind, Except.bind]
  by_cases hdots : (last = "." || last = "..") = true
  · rw [if_pos hdots, hwalk]
  · rw [if_neg hdots]
    rw [hroute] at hwalk
    obtain ⟨k, houter, hstep⟩ := walk_concat.1 hwalk
    simp only [Bool.or_eq_true, decide_eq_true_eq, not_or] at hdots
    obtain ⟨hk, hcases⟩ := step_eq_ok hstep
    rcases hcases with ⟨h, -⟩ | ⟨h, -⟩ | ⟨-, -, hsize, hl, -⟩
    · exact absurd h hdots.1
    · exact absurd h hdots.2
    · simp only [houter, hk, if_neg hsize, hl]

/-- A directory that is there need not be made, nor the ones around it. -/
theorem makeDirectories_of_reaches {path : String} {k : Location}
    (hrefuse : refuse path = .ok ()) (h : t.Reaches path.toList k) :
    t.makeDirectories path = .ok t := by
  obtain ⟨-, hne, -⟩ := refuse_eq_ok.1 hrefuse
  have hwalk : t.walk (t.origin path) (route path) = .ok k := h.walked
  have hdirectory : t.isDirectory path = true := by
    simp [isDirectory, find, resolve, hrefuse, hwalk, h.found, bind, Except.bind]
  -- making it fails since it is there, and that is no fault where a directory stands
  have htarget : ∃ l, t.target path = .ok l ∧ (t.at? l).isSome = true := by
    by_cases hroute : route path = []
    · refine ⟨[], ?_, rfl⟩
      simp [target, hrefuse, hroute, bind, Except.bind]
    · exact ⟨k, target_of_walk hrefuse hwalk hroute, by rw [h.found]; rfl⟩
  obtain ⟨l, hl, hsome⟩ := htarget
  have hmake : t.makeDirectory path = .error .alreadyThere := by
    simp [makeDirectory, hl, hsome, bind, Except.bind]
  have hlist : ∃ around, Path.ancestors path = path :: around := ⟨_, rfl⟩
  obtain ⟨around, hlist⟩ := hlist
  rw [makeDirectories, hlist, makeAll, if_neg hne, hmake]
  simp only [hdirectory, if_true]

section
variable {path : String} {l : Location} {content : List UInt8}

/-- The last name of a path to a file, and the directory it stands in. -/
theorem Holds.exists_front (h : t.Holds path l content) :
    ∃ front name k, path.toList = front ++ name ∧ name ≠ [] ∧ '/' ∉ name ∧ name ≠ ['.'] ∧
      (front = [] ∨ ∃ outer, front = outer ++ ['/']) ∧ t.at? k = some .directory ∧
      t.walk (t.start path.toList) (names front) = .ok k := by
  obtain ⟨hrefuse, hwalk, hslash, hfound⟩ := holds_iff.1 h
  obtain ⟨-, hne, -⟩ := refuse_eq_ok.1 hrefuse
  have hlist : path.toList ≠ [] := mt String.toList_eq_nil_iff.1 hne
  obtain ⟨front, name, hpath, hname, hno, hfront⟩ :=
    exists_name hlist (by simpa [endsInSlash] using hslash)
  have hroute : route path = names (front ++ name) := congrArg names hpath
  rw [hroute, names_front hname hno hfront] at hwalk
  obtain ⟨k, hk, hstep⟩ := walk_concat.1 hwalk
  refine ⟨front, name, k, hpath, hname, hno, ?_, hfront, (step_eq_ok hstep).1, hk⟩
  rintro rfl
  -- a dot stays in the directory
  rcases (step_eq_ok hstep).2 with ⟨-, rfl⟩ | ⟨hdots, -⟩ | ⟨hdot, -⟩
  · rw [(step_eq_ok hstep).1] at hfound
    cases hfound
  · exact absurd hdots (by decide)
  · exact absurd rfl hdot

/-- The directory around a file that is there need not be made. -/
theorem Holds.makeParent (h : t.Holds path l content) {parent : String}
    (hparent : Path.parent? path = some parent) (hne : parent ≠ "") :
    t.makeDirectories parent = .ok t := by
  obtain ⟨front, name, k, hpath, hname, hno, hdot, hfront, hk, hwalk⟩ := h.exists_front
  obtain ⟨hrefuse, -, -, -⟩ := holds_iff.1 h
  rw [parent?_eq hpath hname hno hdot hfront, Option.some.injEq] at hparent
  have hlist : parent.toList =
      (Path.dropLast.dropIdle front.reverse.length front.reverse).reverse := by
    rw [← hparent, String.toList_ofList]
  have hprefix : parent.toList <+: front := by
    rw [hlist, ← List.reverse_suffix, List.reverse_reverse]
    exact dropIdle_suffix _ _
  have hstart : t.start path.toList = t.start front := by
    rw [hpath]
    rcases front with _ | ⟨c, cs⟩
    · exact absurd (String.toList_inj.1 (List.prefix_nil.1 hprefix)) hne
    · rfl
  have hreaches : t.Reaches front.reverse.reverse k := by
    rw [List.reverse_reverse]
    exact ⟨hstart ▸ hwalk, hk⟩
  refine makeDirectories_of_reaches (k := k) (refuse_of_isPrefix hrefuse ?_ hne) ?_
  · rw [hpath]
    exact hprefix.trans (List.prefix_append _ _)
  · rw [hlist]
    exact hreaches.dropIdle

/-- A file that is there is found in its place when it is to be written. -/
theorem Holds.append (h : t.Holds path l content) (more : List UInt8) :
    t.append path more = .ok (t.set l (.file (content ++ more))) := by
  obtain ⟨front, name, -, hpath, hname, hno, -, hfront, -, -⟩ := h.exists_front
  obtain ⟨hrefuse, hwalk, hslash, hfound⟩ := holds_iff.1 h
  have hroute : route path ≠ [] := by
    have hnames : route path = names (front ++ name) := congrArg names hpath
    rw [hnames, names_front hname hno hfront]
    simp
  have htarget := target_of_walk hrefuse hwalk hroute
  simp [FileTree.append, create, htarget, hslash, hfound, bind, Except.bind, pure, Except.pure]

/-! ## Writing -/

theorem create_eq_ok {old : List UInt8} (h : t.create path = .ok (l, old)) :
    t.target path = .ok l ∧ endsInSlash path = false ∧ t.at? l ≠ some .directory := by
  rw [create] at h
  cases htarget : t.target path with
  | error e => simp [htarget, bind, Except.bind] at h
  | ok k =>
    simp only [htarget, bind, Except.bind] at h
    split at h
    · cases h
    · rename_i hslash
      split at h
      · cases h
      · rename_i hfound
        cases h
        exact ⟨rfl, by simpa using hslash, by simp [hfound]⟩
      · rename_i hfound
        cases h
        exact ⟨rfl, by simpa using hslash, by simp [hfound]⟩

/-- One part further to a name that is there. -/
theorem step_of_isSome {k : Location} {part : String} (hk : t.at? k = some .directory)
    (hdot : part ≠ ".") (hdots : part ≠ "..") (hsize : ¬ 255 < part.utf8ByteSize)
    (hsome : (t.at? (part :: k)).isSome = true) : t.step k part = .ok (part :: k) := by
  rw [step, hk]
  dsimp only
  rw [if_neg hdot, if_neg hdots, if_neg hsize, if_pos hsome]

theorem isSome_at?_set (hl : l ≠ []) (e : Entry) {k : Location}
    (hk : k = l ∨ (t.at? k).isSome = true) : ((t.set l e).at? k).isSome = true := by
  rw [at?_set hl]
  split
  · rfl
  · exact hk.resolve_left ‹_›

/-- A step does not lead through a file, so it is not kept from going on where one is made. -/
theorem step_set_of_ok {k m : Location} {part : String} (hl : l ≠ [])
    (hfree : t.at? l ≠ some .directory) (e : Entry) (h : t.step k part = .ok m) :
    (t.set l e).step k part = .ok m := by
  obtain ⟨hk, hcases⟩ := step_eq_ok h
  have hkept : (t.set l e).at? k = some .directory := by
    have hne : k ≠ l := by
      rintro rfl
      exact hfree hk
    rw [at?_set hl, if_neg hne, hk]
  rcases hcases with ⟨rfl, rfl⟩ | ⟨rfl, rfl⟩ | ⟨hdot, hdots, hsize, rfl, hm⟩
  · rw [step, hkept]
    rfl
  · rw [step, hkept]
    rfl
  · exact step_of_isSome hkept hdot hdots hsize (isSome_at?_set hl e (.inr hm))

theorem walk_set_of_ok {k m : Location} {parts : List String} (hl : l ≠ [])
    (hfree : t.at? l ≠ some .directory) (e : Entry) (h : t.walk k parts = .ok m) :
    (t.set l e).walk k parts = .ok m := by
  induction parts generalizing k with
  | nil => exact h
  | cons part parts ih =>
    obtain ⟨k', hstep, hwalk⟩ := bind_eq_ok_iff.mp h
    rw [walk, step_set_of_ok hl hfree e hstep]
    exact ih hwalk

/-- Where a file is made, its path leads afterwards. -/
theorem walk_of_target (hl : l ≠ []) (hfree : t.at? l ≠ some .directory) (e : Entry)
    (h : t.target path = .ok l) : (t.set l e).walk (t.origin path) (route path) = .ok l := by
  obtain ⟨-, -, h⟩ := bind_eq_ok_iff.mp h
  rcases List.eq_nil_or_concat (route path) with hroute | ⟨outer, last, hroute⟩
  · rw [hroute] at h
    exact absurd (Except.ok.inj h).symm hl
  rw [List.concat_eq_append] at hroute
  rw [hroute, List.reverse_append, List.reverse_singleton, List.singleton_append] at h
  dsimp only at h
  split at h
  · rw [hroute]
    exact walk_set_of_ok hl hfree e h
  · rename_i hdots
    simp only [Bool.or_eq_true, decide_eq_true_eq, not_or] at hdots
    rw [List.reverse_reverse] at h
    obtain ⟨k, houter, h⟩ := bind_eq_ok_iff.mp h
    split at h
    · rename_i hk
      split at h
      · cases h
      · rename_i hsize
        cases h
        have hne : k ≠ last :: k := (List.cons_ne_self last k).symm
        have hkept : (t.set (last :: k) e).at? k = some .directory := by
          rw [at?_set hl, if_neg hne, hk]
        rw [hroute]
        refine walk_concat.mpr ⟨k, walk_set_of_ok hl hfree e houter, ?_⟩
        exact step_of_isSome hkept hdots.1 hdots.2 hsize (isSome_at?_set hl e (.inl rfl))
    · cases h

/-- A path leads to the file that was written there. -/
theorem holds_of_write {t' : FileTree} (h : t.write path content = .ok t') :
    ∃ l, t'.Holds path l content := by
  obtain ⟨⟨l, old⟩, hcreate, h⟩ := bind_eq_ok_iff.mp h
  cases h
  obtain ⟨htarget, hslash, hfree⟩ := create_eq_ok hcreate
  obtain ⟨_, hrefuse, -⟩ := bind_eq_ok_iff.mp htarget
  have hl : l ≠ [] := by
    rintro rfl
    exact hfree rfl
  refine ⟨l, holds_iff.mpr ⟨hrefuse, walk_of_target hl hfree _ htarget, hslash, ?_⟩⟩
  rw [at?_set hl, if_pos rfl]

theorem readText_of_write {t' : FileTree} {text : String}
    (h : t.write path (Text.Utf8.bytes text) = .ok t') : t'.readText path = .ok text := by
  have hread : t'.read path = .ok (Text.Utf8.bytes text) := read_eq_ok_iff.mpr (holds_of_write h)
  simp only [readText, hread, bind, Except.bind, Text.Utf8.string?_bytes]

end
end
end FaultDrill.FileTree
