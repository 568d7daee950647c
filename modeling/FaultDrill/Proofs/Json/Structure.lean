import FaultDrill.Json.Reader
import FaultDrill.Proofs.Json.Spelling
/-!
# Values through their JSON texts

A value on one line is spelled by its tokens, the tokens give its items, and the items its tree. So
a reader finds in the text of a value what it finds in the value (`read_compact`).
-/
namespace FaultDrill.Json
open FaultDrill.Document

/-! ## The tokens of a value -/

/-- The token of an atom. -/
def atomToken : Atom → Token
  | .null => .null
  | .flag b => .bool b
  | .number n => .number (some n)
  | .text s => .string (some s)

mutual

/-- The tokens of a value. -/
def tokens : Value → List Token
  | .atom a => [atomToken a]
  | .list vs => .openArray :: (elementTokens vs ++ [.closeArray])
  | .record ms => .openObject :: (memberTokens ms ++ [.closeObject])

/-- The tokens of elements, commas between them. -/
def elementTokens : List Value → List Token
  | [] => []
  | [v] => tokens v
  | v :: vs => tokens v ++ .comma :: elementTokens vs

/-- The tokens of members, commas between them. -/
def memberTokens : List (String × Value) → List Token
  | [] => []
  | [(k, v)] => .string (some k) :: .colon :: tokens v
  | (k, v) :: ms => .string (some k) :: .colon :: (tokens v ++ .comma :: memberTokens ms)

end

theorem spell_atomToken (a : Atom) : spell (atomToken a) = atom a := by
  cases a with
  | flag b => cases b <;> rfl
  | _ => rfl

mutual

theorem compactChars_eq : (v : Value) → compactChars v = (tokens v).flatMap spell
  | .atom a => by simp [compactChars, tokens, spell_atomToken]
  | .list vs => by simp [compactChars, tokens, compactElements_eq vs, spell]
  | .record ms => by simp [compactChars, tokens, compactMembers_eq ms, spell]

theorem compactElements_eq : (vs : List Value) → compactElements vs = (elementTokens vs).flatMap spell
  | [] => rfl
  | [v] => by simp [compactElements, elementTokens, compactChars_eq v]
  | v :: w :: vs => by
    simp [compactElements, elementTokens, compactChars_eq v, compactElements_eq (w :: vs), spell]

theorem compactMembers_eq :
    (ms : List (String × Value)) → compactMembers ms = (memberTokens ms).flatMap spell
  | [] => rfl
  | [(k, v)] => by simp [compactMembers, memberTokens, compactChars_eq v, spell]
  | (k, v) :: m :: ms => by
    simp [compactMembers, memberTokens, compactChars_eq v, compactMembers_eq (m :: ms), spell]

end

/-! ## The items of a value -/

mutual

/-- The items of a value. -/
def itemsOf : Value → List Item
  | .atom a => [.scalar (.atom a)]
  | .list vs => .openList :: (elementItems vs ++ [.closeList])
  | .record ms => .openRecord :: (memberItems ms ++ [.closeRecord])

/-- The items of elements. -/
def elementItems : List Value → List Item
  | [] => []
  | v :: vs => itemsOf v ++ elementItems vs

/-- The items of members. -/
def memberItems : List (String × Value) → List Item
  | [] => []
  | (k, v) :: ms => .scalar (.atom (.text k)) :: (itemsOf v ++ memberItems ms)

end

theorem items_atom {expect : Expect} (he : expect = .value ∨ expect = .valueOrClose) (a : Atom)
    (open_ : List Bool) (ts : List Token) :
    items expect open_ (atomToken a :: ts) = .scalar (.atom a) :: items .next open_ ts := by
  rcases he with rfl | rfl <;> cases a <;> cases open_ <;> simp [items, atomToken, scalar?]

theorem items_openArray {expect : Expect} (he : expect = .value ∨ expect = .valueOrClose)
    (open_ : List Bool) (ts : List Token) :
    items expect open_ (.openArray :: ts) = .openList :: items .valueOrClose (false :: open_) ts := by
  rcases he with rfl | rfl <;> cases open_ <;> simp [items, scalar?]

theorem items_openObject {expect : Expect} (he : expect = .value ∨ expect = .valueOrClose)
    (open_ : List Bool) (ts : List Token) :
    items expect open_ (.openObject :: ts) = .openRecord :: items .keyOrClose (true :: open_) ts := by
  rcases he with rfl | rfl <;> cases open_ <;> simp [items, scalar?]

theorem items_key {expect : Expect} (he : expect = .key ∨ expect = .keyOrClose) (k : String)
    (open_ : List Bool) (ts : List Token) :
    items expect open_ (.string (some k) :: .colon :: ts) =
      .scalar (.atom (.text k)) :: items .value open_ ts := by
  rcases he with rfl | rfl <;> cases open_ <;> simp [items, scalar?, Token.isString]

mutual

theorem items_tokens : (v : Value) → (expect : Expect) →
    (expect = .value ∨ expect = .valueOrClose) → (open_ : List Bool) → (ts : List Token) →
      items expect open_ (tokens v ++ ts) = itemsOf v ++ items .next open_ ts
  | .atom a, _, he, open_, ts => items_atom he a open_ ts
  | .list [], _, he, open_, ts => by
    simp only [tokens, elementTokens, List.nil_append, List.cons_append]
    rw [items_openArray he, items_closeArray (.inr rfl)]
    rfl
  | .list (v :: vs), _, he, open_, ts => by
    simp only [tokens, List.cons_append, List.append_assoc, List.nil_append]
    rw [items_openArray he, items_elementTokens (v :: vs) _ (by simp) (.inr rfl) open_ ts]
    simp [itemsOf]
  | .record [], _, he, open_, ts => by
    simp only [tokens, memberTokens, List.nil_append, List.cons_append]
    rw [items_openObject he, items_closeObject (.inr rfl)]
    rfl
  | .record (m :: ms), _, he, open_, ts => by
    simp only [tokens, List.cons_append, List.append_assoc, List.nil_append]
    rw [items_openObject he, items_memberTokens (m :: ms) _ (by simp) (.inr rfl) open_ ts]
    simp [itemsOf]

theorem items_elementTokens : (vs : List Value) → (expect : Expect) → vs ≠ [] →
    (expect = .value ∨ expect = .valueOrClose) → (open_ : List Bool) → (ts : List Token) →
      items expect (false :: open_) (elementTokens vs ++ .closeArray :: ts) =
        elementItems vs ++ .closeList :: items .next open_ ts
  | [], _, hne, _, _, _ => absurd rfl hne
  | [v], _, _, he, open_, ts => by
    simp only [elementTokens, elementItems, List.append_nil]
    rw [items_tokens v _ he, items_closeArray (.inl rfl)]
  | v :: w :: vs, _, _, he, open_, ts => by
    simp only [elementTokens, List.append_assoc, List.cons_append]
    -- behind a comma the array may not end, so what is left is expected as a value
    rw [items_tokens v _ he, elementItems, List.append_assoc,
      ← items_elementTokens (w :: vs) .value (by simp) (.inl rfl) open_ ts]
    simp [items]

theorem items_memberTokens : (ms : List (String × Value)) → (expect : Expect) → ms ≠ [] →
    (expect = .key ∨ expect = .keyOrClose) → (open_ : List Bool) → (ts : List Token) →
      items expect (true :: open_) (memberTokens ms ++ .closeObject :: ts) =
        memberItems ms ++ .closeRecord :: items .next open_ ts
  | [], _, hne, _, _, _ => absurd rfl hne
  | [(k, v)], _, _, he, open_, ts => by
    simp only [memberTokens, memberItems, List.append_nil, List.cons_append]
    rw [items_key he, items_tokens v _ (.inl rfl), items_closeObject (.inl rfl)]
  | (k, v) :: m :: ms, _, _, he, open_, ts => by
    simp only [memberTokens, List.append_assoc, List.cons_append]
    rw [items_key he, items_tokens v _ (.inl rfl), memberItems, List.cons_append,
      List.append_assoc, ← items_memberTokens (m :: ms) .key (by simp) (.inl rfl) open_ ts]
    simp [items]

end

/-! ## The tree of a value -/

mutual

/-- The items of a value make it one more part of the innermost open container. -/
theorem build_itemsOf : (v : Value) → (root : Option Node) → (f : Frame) → (fs : List Frame) →
    (is : List Item) →
      build true root (f :: fs) (itemsOf v ++ is) = build true root (f.put v.node :: fs) is
  | .atom a, root, f, fs, is => by cases root <;> simp [itemsOf, build, Value.node]
  | .list vs, root, f, fs, is => by
    have hopen : build true root (f :: fs) (.openList :: (elementItems vs ++ .closeList :: is)) =
        build true root (.list [] :: f :: fs) (elementItems vs ++ .closeList :: is) := by
      cases root <;> rfl
    have hclose : build true root (.list ((Value.nodes vs).reverse ++ []) :: f :: fs)
        (.closeList :: is) = build true root (f.put (Value.list vs).node :: fs) is := by
      cases root <;> simp [build, Frame.close, Value.node]
    simp only [itemsOf, List.cons_append, List.append_assoc, List.nil_append]
    rw [hopen, build_elementItems vs, hclose]
  | .record ms, root, f, fs, is => by
    have hopen : build true root (f :: fs) (.openRecord :: (memberItems ms ++ .closeRecord :: is)) =
        build true root (.record [] none :: f :: fs) (memberItems ms ++ .closeRecord :: is) := by
      cases root <;> rfl
    have hclose : build true root (.record ((Value.memberNodes ms).reverse ++ []) none :: f :: fs)
        (.closeRecord :: is) = build true root (f.put (Value.record ms).node :: fs) is := by
      cases root <;> simp [build, Frame.close, Value.node]
    simp only [itemsOf, List.cons_append, List.append_assoc, List.nil_append]
    rw [hopen, build_memberItems ms, hclose]

theorem build_elementItems : (vs : List Value) → (root : Option Node) → (es : List Node) →
    (fs : List Frame) → (is : List Item) →
      build true root (.list es :: fs) (elementItems vs ++ is) =
        build true root (.list ((Value.nodes vs).reverse ++ es) :: fs) is
  | [], _, _, _, _ => rfl
  | v :: vs, root, es, fs, is => by
    rw [elementItems, List.append_assoc, build_itemsOf v, Frame.put, build_elementItems vs]
    simp [Value.nodes]

theorem build_memberItems : (ms : List (String × Value)) → (root : Option Node) →
    (before : List (Node × Option Node)) → (fs : List Frame) → (is : List Item) →
      build true root (.record before none :: fs) (memberItems ms ++ is) =
        build true root (.record ((Value.memberNodes ms).reverse ++ before) none :: fs) is
  | [], _, _, _, _ => rfl
  | (k, v) :: ms, root, before, fs, is => by
    have hkey : build true root (.record before none :: fs)
        (.scalar (.atom (.text k)) :: (itemsOf v ++ (memberItems ms ++ is))) =
          build true root (.record before (some (.scalar (.atom (.text k)))) :: fs)
            (itemsOf v ++ (memberItems ms ++ is)) := by
      cases root <;> rfl
    rw [memberItems, List.cons_append, List.append_assoc, hkey, build_itemsOf v, Frame.put,
      build_memberItems ms]
    simp [Value.memberNodes]

end

/-- The items of a value alone make it the root. -/
theorem ofItems_itemsOf (v : Value) : Tree.ofItems true (itemsOf v) = ⟨some v.node, true⟩ := by
  cases v with
  | atom a => rfl
  | list vs =>
    have h := build_elementItems vs none [] [] [.closeList]
    simp only [Tree.ofItems, itemsOf, build]
    rw [h]
    simp [build, Frame.close, Value.node]
  | record ms =>
    have h := build_memberItems ms none [] [] [.closeRecord]
    simp only [Tree.ofItems, itemsOf, build]
    rw [h]
    simp [build, Frame.close, Value.node]

/-! ## Reading -/

theorem items_value (v : Value) : items .value [] (tokens v) = itemsOf v := by
  have h := items_tokens v .value (.inl rfl) [] []
  rw [List.append_nil] at h
  rw [h]
  simp [items]

/-- The tree of a text with the tokens of a value. -/
theorem tree_of_lex {cs : List Char} {v : Value} (h : lex cs = tokens v) :
    tree cs = ⟨some v.node, true⟩ := by
  rw [tree, h, items_value, ofItems_itemsOf]

/-- A reader finds in a text with the tokens of a value what it finds in the value. -/
theorem read_of_lex {α : Type} (r : Reader α) {s : String} {v : Value}
    (h : lex s.toList = tokens v) : read r s = r v.node := by
  rw [read, tree_of_lex h]
  simp only [Reader.document]
  cases r v.node <;> rfl

/-- Every token of a value can be read back whatever follows it. -/
def Lasting (v : Value) : Prop := ∀ t ∈ tokens v, t.Lasting

/-- A value is read back from its text. -/
theorem read_compact {α : Type} (r : Reader α) {v : Value} (hv : Lasting v) :
    read r (compact v) = r v.node := by
  refine read_of_lex r ?_
  have h := lex_spelled hv []
  rw [List.append_nil, lex, List.append_nil] at h
  rw [compact, String.toList_ofList, compactChars_eq, h]

/-- No control character stands in the text of a value. -/
theorem printable_compactChars {v : Value} (hv : Lasting v) {c : Char} (h : c ∈ compactChars v) :
    0x20 ≤ c.toNat := by
  rw [compactChars_eq, List.mem_flatMap] at h
  obtain ⟨t, ht, hc⟩ := h
  exact printable_spell (hv t ht) hc

end FaultDrill.Json
