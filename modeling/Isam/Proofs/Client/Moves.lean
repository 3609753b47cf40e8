import Isam.Client.Record
import Isam.Proofs.Server.Authority
import Isam.Proofs.Server.Handles
import Isam.Proofs.Storage.Order
namespace Isam

open FiniteMap

variable {h : Host} {i j : Image} {id : HandleId} {index : Option Nat} {m : CursorMove}
  {a? : Option (RowId × Row)} {d : IndexDecl} {k : RowId}

theorem Image.Conforming.store {target : Option RowId} {row : Row} (conforming : i.Conforming)
    (hrow : i.schema.checkRow row = .ok ()) : (i.store target row).2.Conforming := by
  rintro ⟨k, old⟩ hmem
  have hold := Rows.mem_entries_iff.1 hmem
  rw [Image.store_schema]
  by_cases hk : k = (i.store target row).1
  · rw [hk, Image.get?_store_self] at hold
    cases hold
    exact Schema.checkRow_eq_ok.1 hrow
  · rw [Image.get?_store_ne hk] at hold
    exact conforming _ (Rows.mem_entries_iff.2 hold)

theorem Image.Conforming.remove (conforming : i.Conforming) (k : RowId) :
    (i.remove k).Conforming := by
  intro e he
  exact conforming e (List.mem_filter.1 he).1

namespace Host

def image? (h : Host) (id : HandleId) : Option Image :=
  (h.server.opened id).toOption.map (·.2.image)

theorem image?_eq_some : h.image? id = some i ↔
    ∃ x f, h.server.opened id = .ok (x, f) ∧ f.image = i := by
  unfold image?
  cases h.server.opened id <;> simp [Except.toOption, Prod.ext_iff]

theorem image?_next {e : Event} (inv : h.server.Registered) (hi : h.image? id = some i)
    (hj : (h.next e).image? id = some j) :
    j.schema = i.schema ∧ (i.Conforming → j.Conforming) := by
  obtain ⟨x, f, ho, rfl⟩ := image?_eq_some.1 hi
  obtain ⟨x', f', ho', rfl⟩ := image?_eq_some.1 hj
  obtain ⟨hx, hf⟩ := Server.opened_eq_ok.1 ho
  obtain ⟨hx', hf'⟩ := Server.opened_eq_ok.1 ho'
  cases e with
  | call q =>
    have hsame := ((h.perform_effect q).outlives inv).handles id x' hx' (inv.handle_lt hx)
    rw [hx] at hsame
    cases hsame
    rcases (h.perform_effect q).at_file inv hf hf' with rfl |
      ⟨_, target, row, _, -, -, allowed, -, himage, -⟩ |
      ⟨_, k, row, _, -, -, allowed, -, himage, -⟩
    · exact ⟨rfl, fun conforming => conforming⟩
    · rw [himage]
      exact ⟨Image.store_schema, fun conforming => conforming.store allowed.conforms⟩
    · rw [himage]
      exact ⟨rfl, fun conforming => conforming.remove k⟩
  | device =>
    have hsame : h.server.opened id = .ok (x', f') := ho'
    rw [ho] at hsame
    cases hsame
    exact ⟨rfl, fun conforming => conforming⟩
  | restart => cases hx'

theorem writeRow_eq_ok {h' : Host} {target : Option RowId} {row : Row}
    (hw : h.writeRow id target row = (.ok k, h')) :
    ∃ x f, h.server.opened id = .ok (x, f) ∧ k = (f.image.store target row).1 ∧
      (∀ k, target = some k → f.image.rows.contains k = true) ∧
      h'.image? id = some (f.image.store target row).2 := by
  rcases Effect.writeRow_cases (h := h) id target row with ⟨e, d, hrefused, -⟩ |
    ⟨x, f, d, hmade, allowed, -⟩
  · rw [hrefused] at hw
    cases hw
  · rw [hmade] at hw
    cases hw
    have ho := (Server.mayWrite_iff.1 allowed.toMayWrite).1
    have ho' : (h.server.setImage x.file f (f.image.store target row).2).opened id =
        .ok (x, { f with image := (f.image.store target row).2 }) :=
      Server.opened_eq_ok.2 ⟨(Server.opened_eq_ok.1 ho).1, get?_set_self _ _ _⟩
    exact ⟨x, f, ho, rfl, allowed.target_stored, image?_eq_some.2 ⟨x, _, ho', rfl⟩⟩

theorem moveCursor_eq (hi : h.image? id = some i)
    (hm : i.moveTo index m = .ok (a?.map (·.1))) (ha : ∀ a ∈ a?, a ∈ i.rows.entries) :
    engine.moveCursor id index m h = (.ok (a?.map fun a => ⟨a.1, a.2⟩), h) := by
  obtain ⟨x, f, ho, rfl⟩ := image?_eq_some.1 hi
  have hstored : (a?.map (·.1)).bind (Server.stored? f.image) = a?.map fun a => ⟨a.1, a.2⟩ := by
    cases a? with
    | none => rfl
    | some a =>
      have hrow := Rows.mem_entries_iff.1 (ha a rfl)
      simp only [Option.map_some, Option.bind_some, Server.stored?, hrow]
  simp only [engine, looked, Server.moveCursor, ho, hm, bind, Except.bind, pure, Except.pure,
    hstored]

theorem moveCursor_gone (hi : h.image? id = some i) (active : i.schema.order? index = some d)
    (gone : i.rows.get? k = none) :
    engine.moveCursor id index (.next k) h = (.error (.noRow k), h) := by
  obtain ⟨x, f, ho, rfl⟩ := image?_eq_some.1 hi
  simp only [engine, looked, Server.moveCursor, ho, Image.moveTo_next_gone active gone, bind,
    Except.bind]

end Host

namespace Record

variable {r : Record} {t : Table} {s : Session Host}

theorem move_cases (r : Record) (t : Table) (he : s.engine = Host.engine) (m : CursorMove)
    (h : Host) : (∃ e, r.move t s m h = (.error e, r, h)) ∨ ∃ row?,
      r.checkBound t s = .ok () ∧ h.server.moveCursor r.handle r.index m = .ok row? ∧
      r.move t s m h = (.ok (r.load row?).1, (r.load row?).2, h) := by
  unfold move
  cases r.checkBound t s with
  | error e => exact .inl ⟨e, rfl⟩
  | ok u =>
    have hcall : s.engine.moveCursor r.handle r.index m h =
        (h.server.moveCursor r.handle r.index m, h) := by rw [he]; rfl
    simp only [hcall]
    cases h.server.moveCursor r.handle r.index m with
    | error e => exact .inl ⟨e, rfl⟩
    | ok row? => exact .inr ⟨row?, trivial, rfl, rfl⟩

structure Bound (r : Record) (t : Table) (s : Session Host) : Prop where
  engine : s.engine = Host.engine
  checked : r.checkBound t s = .ok ()

def onto (r : Record) : Option (RowId × Row) → Record
  | none => { r with cursor := .beyond }
  | some a => { r with values := a.2, cursor := .positioned a.1, pendingInsert := false }

theorem Bound.onto (bound : r.Bound t s) (a? : Option (RowId × Row)) : (r.onto a?).Bound t s := by
  cases a? <;> exact ⟨bound.engine, bound.checked⟩

theorem load_eq (r : Record) (a? : Option (RowId × Row)) :
    r.load (a?.map fun a => ⟨a.1, a.2⟩) = (a?.map (·.1), r.onto a?) := by
  cases a? <;> rfl

theorem Bound.move_eq (bound : r.Bound t s) (hi : h.image? r.handle = some i)
    (hm : i.moveTo r.index m = .ok (a?.map (·.1))) (ha : ∀ a ∈ a?, a ∈ i.rows.entries) :
    r.move t s m h = (.ok (a?.map (·.1)), r.onto a?, h) := by
  simp only [move, bound.checked, bound.engine, Host.moveCursor_eq hi hm ha, load_eq]

theorem Bound.next_gone (bound : r.Bound t s) (hi : h.image? r.handle = some i)
    (active : i.schema.order? r.index = some d) (hk : r.cursor = .positioned k)
    (gone : i.rows.get? k = none) : r.next t s h = (.error (.noRow k), r, h) := by
  simp only [next, moveOn, hk, move, bound.checked, bound.engine,
    Host.moveCursor_gone hi active gone]

end Record
end Isam
