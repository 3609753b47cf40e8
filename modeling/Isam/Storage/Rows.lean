import Isam.Schema.Basic
import Isam.Field.Value
import Isam.Lock.Mode
namespace Isam

structure Rows where
  entries : List (RowId × Row)
  ascending : entries.Pairwise (·.1 < ·.1)

namespace Rows

@[ext] theorem ext {r s : Rows} (h : r.entries = s.entries) : r = s := by
  cases r; cases s; cases h; rfl

instance : DecidableEq Rows := fun r s =>
  decidable_of_iff (r.entries = s.entries) ⟨ext, fun h => h ▸ rfl⟩

def empty : Rows := ⟨[], .nil⟩

def ids (r : Rows) : List RowId := r.entries.map (·.1)

def get? (r : Rows) (id : RowId) : Option Row := (r.entries.find? (·.1 == id)).map (·.2)

def contains (r : Rows) (id : RowId) : Bool := (r.get? id).isSome

def insertEntry (id : RowId) (row : Row) : List (RowId × Row) → List (RowId × Row)
  | [] => [(id, row)]
  | e :: es =>
    if id < e.1 then (id, row) :: e :: es
    else if id = e.1 then (id, row) :: es
    else e :: insertEntry id row es

theorem mem_insertEntry {id : RowId} {row : Row} {es : List (RowId × Row)} {e : RowId × Row}
    (h : e ∈ insertEntry id row es) : e = (id, row) ∨ e ∈ es := by
  induction es with
  | nil => exact Or.inl (List.mem_singleton.1 h)
  | cons f es ih =>
    simp only [insertEntry] at h
    split at h
    · exact List.mem_cons.1 h
    · split at h
      · rcases List.mem_cons.1 h with h | h
        · exact Or.inl h
        · exact Or.inr (List.mem_cons_of_mem _ h)
      · rcases List.mem_cons.1 h with h | h
        · exact Or.inr (h ▸ List.mem_cons_self)
        · exact (ih h).imp_right (List.mem_cons_of_mem _)

theorem insertEntry_ascending (id : RowId) (row : Row) {es : List (RowId × Row)}
    (h : es.Pairwise (·.1 < ·.1)) : (insertEntry id row es).Pairwise (·.1 < ·.1) := by
  induction es with
  | nil => exact .cons (fun _ h => nomatch h) .nil
  | cons e es ih =>
    obtain ⟨he, hes⟩ := List.pairwise_cons.1 h
    simp only [insertEntry]
    split
    · rename_i hlt
      refine .cons (fun f hf => ?_) h
      rcases List.mem_cons.1 hf with rfl | hf
      · exact hlt
      · exact UInt64.lt_trans hlt (he f hf)
    · split
      · rename_i heq
        exact .cons (fun f hf => by rw [heq]; exact he f hf) hes
      · rename_i hlt hne
        refine .cons (fun f hf => ?_) (ih hes)
        rcases mem_insertEntry hf with rfl | hf
        · exact (UInt64.lt_or_eq_of_le (UInt64.not_lt.1 hlt)).resolve_right fun h => hne h.symm
        · exact he f hf

def insert (r : Rows) (id : RowId) (row : Row) : Rows :=
  ⟨insertEntry id row r.entries, insertEntry_ascending id row r.ascending⟩

def erase (r : Rows) (id : RowId) : Rows :=
  ⟨r.entries.filter (·.1 != id), r.ascending.filter _⟩

def ofEntries (es : List (RowId × Row)) : Rows := es.foldl (fun r e => r.insert e.1 e.2) empty

end Rows

structure Image where
  schema : Schema
  rows : Rows
  nextRow : RowId
  deriving DecidableEq

namespace Image

def ofSchema (s : Schema) : Image := ⟨s, .empty, 1⟩

def store (i : Image) (target : Option RowId) (row : Row) : RowId × Image :=
  match target with
  | some id => (id, { i with rows := i.rows.insert id row })
  | none => (i.nextRow, { i with rows := i.rows.insert i.nextRow row, nextRow := i.nextRow + 1 })

def remove (i : Image) (id : RowId) : Image := { i with rows := i.rows.erase id }

def putBack (i : Image) (id : RowId) (row : Row) : Image := { i with rows := i.rows.insert id row }

def takeBack (i : Image) (id : RowId) (before : Option Row) (next : RowId) : Image :=
  match before with
  | some row => { i.putBack id row with nextRow := next }
  | none => { i.remove id with nextRow := next }

end Image

end Isam
