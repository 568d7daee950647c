import FaultDrill.Document.Value
import FaultDrill.Proofs.Document.Record
/-!
# Records that are written

What it takes to read a record that is written: its keys are in order, and for each field of the form
it has a member from which the field is read (`Form.reader_record`).
-/
namespace FaultDrill.Document

/-- The fields of a record that is written. -/
def Value.fields (ms : List (String × Value)) : Fields where
  get? := fun _ name => Form.find? name 0 (memberNodes ms)
  stop := (memberNodes ms).length
  positional := false

namespace Form

theorem reader_record {form : Form α} {ms : List (String × Value)} {a : α}
    (hkeys : keyFault? form.names .ignored true 0 [] (Value.memberNodes ms) = none)
    (hread : form.read 0 (Value.fields ms) = .ok a) :
    form.reader .ignored (Value.record ms).node = .ok a := by
  have h : form.reader .ignored (Value.record ms).node =
      (guarded (keyFault? form.names .ignored true 0 [] (Value.memberNodes ms))
        (form.read 0 (Value.fields ms))).mapError (·.2) := rfl
  rw [h, hkeys, guarded, hread]
  rfl

/-- A field that is there and can be read. -/
theorem required_read {name : String} {r : Reader α} {i p : Nat} {fields : Fields} {n : Node} {a : α}
    (hget : fields.get? i name = some (p, n)) (hr : r n = .ok a) :
    (required name r).read i fields = .ok a := by
  simp only [required, hget, hr]
  rfl

/-- One more field, behind the others of a form. -/
theorem read_seq {f : Form (α → β)} {x : Form α} {fields : Fields} {i : Nat} {g : α → β} {a : α}
    (hf : f.read i fields = .ok g) (hx : x.read (i + f.names.length) fields = .ok a) :
    (f <*> x).read i fields = .ok (g a) := read_seq_eq_ok_iff.mpr ⟨g, a, hf, hx, rfl⟩

theorem read_map {g : α → β} {x : Form α} {fields : Fields} {i : Nat} {a : α}
    (hx : x.read i fields = .ok a) : (g <$> x).read i fields = .ok (g a) :=
  read_map_eq_ok_iff.mpr ⟨a, hx, rfl⟩

end Form

namespace Reader

theorem natural_node {n most : Nat} (h : n ≤ most) : natural most (Value.nat n).node = .ok n := by
  show (if n ≤ most then Except.ok n else .error Fault.wrongValue) = .ok n
  rw [if_pos h]

/-- A list is read where its elements are. -/
theorem list_node {r : Reader α} {f : α → Value} {xs : List α}
    (h : ∀ x ∈ xs, r (f x).node = .ok x) : list r (Value.list (xs.map f)).node = .ok xs := by
  have hall : (Value.nodes (xs.map f)).mapM r = .ok xs := by
    induction xs with
    | nil => rfl
    | cons x xs ih =>
      obtain ⟨hx, hxs⟩ := List.forall_mem_cons.mp h
      rw [List.map_cons, Value.nodes, List.mapM_cons, hx, ih hxs]
      rfl
  rw [Value.node, list, hall]
  rfl

end Reader
end FaultDrill.Document
