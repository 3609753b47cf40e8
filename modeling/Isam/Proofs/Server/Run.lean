import Isam.Server.Engine
namespace Isam

inductive Request
  | connect (endpoint : String) (c : Credentials)
  | disconnect (c : ConnectionId)
  | createTable (c : ConnectionId) (a : TableAddress) (s : Schema) (m : CreateMode)
  | openTable (c : ConnectionId) (a : TableAddress) (m : OpenMode)
  | closeTable (h : HandleId)
  | readSchema (h : HandleId)
  | moveCursor (h : HandleId) (index : Option Nat) (m : CursorMove)
  | readRow (h : HandleId) (id : RowId)
  | writeRow (h : HandleId) (target : Option RowId) (row : Row)
  | deleteRow (h : HandleId) (id : RowId)
  | lock (c : ConnectionId) (m : LockMode)
  | unlock (c : ConnectionId)
  | isLocked (c : ConnectionId)
  | lockRow (h : HandleId) (id : RowId) (m : LockMode)

/-- What befalls a host: a call, a change of the faults of the device, or a new engine in place of the
old one. -/
inductive Event
  | call (r : Request)
  | device (faults : FiniteMap Location Fault)
  | restart (config : EngineConfig)

def Event.isRestart : Event → Bool
  | .restart _ => true
  | _ => false

def Server.caller? (s : Server) : Request → Option ConnectionId
  | .connect .. => none
  | .disconnect c | .createTable c .. | .openTable c .. | .lock c _ | .unlock c | .isLocked c =>
    some c
  | .closeTable h | .readSchema h | .moveCursor h .. | .readRow h _ | .writeRow h .. |
    .deleteRow h _ | .lockRow h .. => (FiniteMap.get? s.handles h).map (·.connection)

namespace Host

def start (config : EngineConfig) (disk : Disk) : Host := ⟨Server.start config, disk⟩

def perform (h : Host) : Request → Host
  | .connect endpoint c => (engine.connect endpoint c h).2
  | .disconnect c => (engine.disconnect c h).2
  | .createTable c a s m => (engine.createTable c a s m h).2
  | .openTable c a m => (engine.openTable c a m h).2
  | .closeTable id => (engine.closeTable id h).2
  | .readSchema id => (engine.readSchema id h).2
  | .moveCursor id i m => (engine.moveCursor id i m h).2
  | .readRow id r => (engine.readRow id r h).2
  | .writeRow id r row => (engine.writeRow id r row h).2
  | .deleteRow id r => (engine.deleteRow id r h).2
  | .lock c m => (engine.lock c m h).2
  | .unlock c => (engine.unlock c h).2
  | .isLocked _ => h
  | .lockRow id r m => (engine.lockRow id r m h).2

def next (h : Host) : Event → Host
  | .call r => h.perform r
  | .device faults => { h with disk := { h.disk with faults } }
  | .restart config => start config h.disk

theorem next_openTable (h : Host) (c : ConnectionId) (a : TableAddress) (m : OpenMode) :
    h.next (.call (.openTable c a m)) = (h.openTable c a m).2 := rfl

def run (h : Host) (es : List Event) : Host := es.foldl next h

@[simp] theorem run_cons (h : Host) (e : Event) (es : List Event) :
    h.run (e :: es) = (h.next e).run es := rfl

theorem run_append (h : Host) (es fs : List Event) : h.run (es ++ fs) = (h.run es).run fs :=
  List.foldl_append

theorem run_concat (h : Host) (es : List Event) (e : Event) :
    h.run (es ++ [e]) = (h.run es).next e := run_append h es [e]

theorem run_keeps {P : Host → Prop} (step : ∀ h e, P h → P (next h e)) (es : List Event) {h : Host}
    (start : P h) : P (h.run es) := by
  induction es generalizing h with
  | nil => exact start
  | cons e es ih => exact ih (step h e start)

/-- What holds of every state of a run, the first and the last one included. -/
def Throughout (P : Host → Prop) (h : Host) : List Event → Prop
  | [] => P h
  | e :: es => P h ∧ (h.next e).Throughout P es

namespace Throughout

variable {P Q : Host → Prop} {h : Host} {es fs : List Event}

theorem first (t : h.Throughout P es) : P h := by
  cases es with
  | nil => exact t
  | cons e es => exact t.1

theorem drop (t : h.Throughout P (es ++ fs)) : (h.run es).Throughout P fs := by
  induction es generalizing h with
  | nil => exact t
  | cons e es ih => exact ih t.2

theorem last (t : h.Throughout P es) : P (h.run es) := by
  rw [← es.append_nil] at t
  exact t.drop

theorem mono (le : ∀ h, P h → Q h) (t : h.Throughout P es) : h.Throughout Q es := by
  induction es generalizing h with
  | nil => exact le h t
  | cons e es ih => exact ⟨le h t.1, ih t.2⟩

end Throughout

end Host

/-- What holds of each event in the state that it befalls. -/
def Along {σ ε : Type} (next : σ → ε → σ) (P : σ → ε → Prop) : σ → List ε → Prop
  | _, [] => True
  | s, e :: es => P s e ∧ Along next P (next s e) es

namespace Along

variable {σ ε : Type} {next : σ → ε → σ} {P Q : σ → ε → Prop} {s : σ} {es : List ε}

theorem keeps {R : σ → Prop} (step : ∀ s e, P s e → R s → R (next s e)) (along : Along next P s es)
    (start : R s) : R (es.foldl next s) := by
  induction es generalizing s with
  | nil => exact start
  | cons e es ih => exact ih along.2 (step s e along.1 start)

theorem both (h : Along next P s es) (k : Along next Q s es) :
    Along next (fun s e => P s e ∧ Q s e) s es := by
  induction es generalizing s with
  | nil => trivial
  | cons e es ih => exact ⟨⟨h.1, k.1⟩, ih h.2 k.2⟩

theorem of_forall (h : ∀ e ∈ es, ∀ s, P s e) : Along next P s es := by
  induction es generalizing s with
  | nil => trivial
  | cons e es ih =>
    obtain ⟨he, hes⟩ := List.forall_mem_cons.1 h
    exact ⟨he s, ih hes⟩

theorem append {fs : List ε} (h : Along next P s es) (k : Along next P (es.foldl next s) fs) :
    Along next P s (es ++ fs) := by
  induction es generalizing s with
  | nil => exact k
  | cons e es ih => exact ⟨h.1, ih h.2 k⟩

end Along
end Isam
