import Isam.Proofs.Client.Bindings
import Isam.Proofs.Client.Moves
import Isam.Proofs.Field.Check
import Isam.Proofs.Server.Images
namespace Isam

open FiniteMap

variable {h h' : Host} {i j : Image} {id : HandleId} {l : Location} {q : Request}
  {e : Event}

/-- An act of a program on its objects, or a call of the engine itself. -/
inductive Step
  | act (a : Act)
  | call (q : Request)

namespace Workspace

def step (w : Workspace Host) : Step → Workspace Host
  | .act a => w.next a
  | .call q => { w with state := w.state.perform q }

def steps (w : Workspace Host) (xs : List Step) : Workspace Host := xs.foldl step w

theorem steps_append (w : Workspace Host) (xs ys : List Step) :
    w.steps (xs ++ ys) = (w.steps xs).steps ys := List.foldl_append

theorem steps_keep {P : Workspace Host → Prop} {Q : Step → Prop} {w : Workspace Host}
    (each : ∀ w x, Q x → P w → P (step w x)) {xs : List Step} (hxs : ∀ x ∈ xs, Q x) (start : P w) :
    P (w.steps xs) := by
  induction xs generalizing w with
  | nil => exact start
  | cons x xs ih =>
    exact ih (fun y hy => hxs y (List.mem_cons_of_mem _ hy))
      (each w x (hxs x List.mem_cons_self) start)

theorem steps_reaches {w : Workspace Host} (standing : w.Standing) (xs : List Step) :
    (w.steps xs).Standing ∧ w.state.Reaches (fun _ => True) (w.steps xs).state := by
  have each (v : Workspace Host) (x : Step) (_ : True)
      (kept : v.Standing ∧ w.state.Reaches (fun _ => True) v.state) :
      (v.step x).Standing ∧ w.state.Reaches (fun _ => True) (v.step x).state := by
    cases x with
    | act a =>
      exact next_keeps (P := fun v => v.Standing ∧ w.state.Reaches (fun _ => True) v.state)
        (fun change kept => ⟨change.standing kept.1, kept.2.trans (change.reaches kept.1)⟩) a kept
    | call q =>
      refine ⟨⟨kept.1.hosted, kept.1.sane.next (.call q)⟩, ?_⟩
      exact kept.2.trans (.next (e := .call q) trivial)
  exact steps_keep each (fun _ _ => trivial) ⟨standing, .refl _ _⟩

theorem Standing.step {w : Workspace Host} (standing : w.Standing) (x : Step) :
    (w.step x).Standing := (steps_reaches standing [x]).1

end Workspace

theorem Image.Made.conforming (made : i.Made) : i.Conforming := by
  induction made with
  | created => exact nofun
  | inserted _ conforms _ _ ih | updated _ _ conforms _ ih => exact ih.store conforms
  | removed _ id ih => exact ih.remove id

namespace Host

def SelfMade (h : Host) : Prop :=
  ∃ config disk es, (∀ l, disk.bytes? l = none) ∧ h = (start config disk).run es

namespace SelfMade

theorem next (made : h.SelfMade) (e : Event) : (h.next e).SelfMade := by
  obtain ⟨config, disk, es, empty, rfl⟩ := made
  exact ⟨config, disk, es ++ [e], empty, (run_concat _ _ _).symm⟩

theorem reaches {P : Event → Prop} (made : h.SelfMade) (r : h.Reaches P h') : h'.SelfMade :=
  r.keeps (fun _ e _ made => made.next e) made

theorem valid (made : h.SelfMade) : h.Images (·.schema.Valid) := by
  obtain ⟨config, disk, es, -, rfl⟩ := made
  exact valid_run config disk es

theorem image_made (made : h.SelfMade) (hi : h.image? id = some i) : i.Made := by
  obtain ⟨config, disk, es, empty, rfl⟩ := made
  obtain ⟨x, f, ho, rfl⟩ := image?_eq_some.1 hi
  exact made_of_open config empty es (Server.opened_eq_ok.1 ho).2

theorem bytes_made {bs : List UInt8} (made : h.SelfMade) (hl : l.IsTable)
    (hbs : h.disk.bytes? l = some bs) :
    ∃ i : Image, i.Made ∧ ∀ verify, TableFile.decode bs verify = .ok i := by
  obtain ⟨config, disk, es, empty, rfl⟩ := made
  have start := madeAt_start config (empty l)
  have made := start.run (Server.registered_start config) hl es
  obtain ⟨i, himade, rfl, hsize⟩ := made.bytes bs hbs
  exact ⟨i, himade, himade.decode_encode hsize⟩

end SelfMade

structure Carries (h h' : Host) : Prop where
  nextId : h.server.nextId ≤ h'.server.nextId
  schema : ∀ {id j}, id < h.server.nextId → h'.image? id = some j →
    ∃ i, h.image? id = some i ∧ j.schema = i.schema

theorem Carries.refl (h : Host) : h.Carries h :=
  ⟨Nat.le_refl _, fun {_ j} _ hj => ⟨j, hj, rfl⟩⟩

theorem Carries.trans {h'' : Host} (c : h.Carries h') (c' : h'.Carries h'') : h.Carries h'' := by
  refine ⟨Nat.le_trans c.nextId c'.nextId, fun {id k} hid hk => ?_⟩
  obtain ⟨j, hj, heq⟩ := c'.schema (Nat.lt_of_lt_of_le hid c.nextId) hk
  obtain ⟨i, hi, heq'⟩ := c.schema hid hj
  exact ⟨i, hi, heq.trans heq'⟩

theorem carries_call (inv : h.server.Registered) (q : Request) : h.Carries (h.perform q) := by
  have outlives := (h.perform_effect q).outlives inv
  refine ⟨outlives.nextId, fun {id j} hid hj => ?_⟩
  obtain ⟨x, f, ho, rfl⟩ := image?_eq_some.1 hj
  obtain ⟨hx, hf⟩ := Server.opened_eq_ok.1 ho
  have hx := outlives.handles id x hx hid
  obtain ⟨g, -, hg, -⟩ := inv.handle hx
  have hi := image?_eq_some.2 ⟨x, g, Server.opened_eq_ok.2 ⟨hx, hg⟩, rfl⟩
  exact ⟨g.image, hi, (image?_next (e := .call q) inv hi hj).1⟩

theorem Reaches.carries {P : Request → Prop} (r : h.Reaches (Event.On P) h') (sane : h.Sane) :
    h.Carries h' :=
  r.keeps_calls (R := h.Carries) sane
    (fun _ q _ sane carries => carries.trans (carries_call sane.registered q)) (.refl h)

end Host

/-! Defaults that their fields can store. Only `addField` asks for that. -/

def Schema.DefaultsStored (s : Schema) : Prop := ∀ d ∈ s.fields, d.DefaultStored

def Request.DefaultsStored : Request → Prop
  | .createTable _ _ s _ => s.DefaultsStored
  | _ => True

def Step.DefaultsStored : Step → Prop
  | .act _ => True
  | .call q => q.DefaultsStored

/-! Fields of a kind, in whatever schema. -/

variable {P : FieldDecl → Prop}

def Schema.EachField (P : FieldDecl → Prop) (s : Schema) : Prop := ∀ d ∈ s.fields, P d

def Request.EachField (P : FieldDecl → Prop) : Request → Prop
  | .createTable _ _ s _ => s.EachField P
  | _ => True

def Step.EachField (P : FieldDecl → Prop) : Step → Prop
  | .act _ => True
  | .call q => q.EachField P

theorem Step.DefaultsStored.eachField {x : Step} (stored : x.DefaultsStored) :
    x.EachField FieldDecl.DefaultStored := by
  cases x with
  | act a => trivial
  | call q =>
    cases q with
    | createTable => exact stored
    | _ => trivial

theorem Effect.eachField (e : Effect h q h') (inv : h.server.Registered) (hq : q.EachField P)
    (old : h.Images (·.schema.EachField P)) : h'.Images (·.schema.EachField P) := by
  have new (i : Image) (source : Source h q i) : i.schema.EachField P := by
    cases source with
    | kept file => exact old.opened _ _ file
    | created asked =>
      rw [asked] at hq
      exact hq
    | decoded hl bytes decoded => exact old.stored _ _ _ _ hl bytes decoded
    | stored file =>
      rw [Image.store_schema]
      exact old.opened _ _ file
    | removed file => exact (old.opened _ _ file :)
  exact e.images inv (fun _ hi => hi) new

namespace Host

theorem Images.image {P : Image → Prop} (images : h.Images P) {id : HandleId}
    (hi : h.image? id = some i) : P i := by
  obtain ⟨x, f, ho, rfl⟩ := image?_eq_some.1 hi
  exact images.opened _ f (Server.opened_eq_ok.1 ho).2

theorem Reaches.eachField {Q : Request → Prop} (r : h.Reaches (Event.On Q) h') (sane : h.Sane)
    (hQ : ∀ q, Q q → q.EachField P) (old : h.Images (·.schema.EachField P)) :
    h'.Images (·.schema.EachField P) :=
  r.keeps_calls (R := Images (·.schema.EachField P)) sane
    (fun g q hq sane old => (g.perform_effect q).eachField sane.registered (hQ q hq) old) old

end Host
end Isam
