import Isam.Proofs.Client.Bindings
namespace Isam

open FiniteMap

variable {α β : Type}

/-- The answer is not that a handle is closed. -/
def Sparing (r : Except Error α) : Prop := ∀ h, r ≠ .error (.handleClosed h)

namespace Sparing

theorem ok (a : α) : Sparing (.ok a) := nofun

@[simp] theorem ok_iff (a : α) : Sparing (.ok a) ↔ True := iff_true_intro (ok a)

@[simp] theorem pure_iff (a : α) : Sparing (pure a) ↔ True := ok_iff a

@[simp] theorem error_iff (e : Error) :
    Sparing (.error e : Except Error α) ↔ ∀ h, e ≠ .handleClosed h := by
  simp [Sparing]

@[simp] theorem throw_iff (e : Error) :
    Sparing (throw e : Except Error α) ↔ ∀ h, e ≠ .handleClosed h := error_iff e

theorem throw_bind {e : Error} (he : ∀ h, e ≠ .handleClosed h) (f : α → Except Error β) :
    Sparing (throw e >>= f) := (error_iff e).2 he

theorem bind {r : Except Error α} {f : α → Except Error β} (hr : Sparing r)
    (hf : ∀ a, r = .ok a → Sparing (f a)) : Sparing (r >>= f) := by
  cases r with
  | error e =>
    intro h he
    cases he
    exact hr h rfl
  | ok a => exact hf a rfl

theorem map {r : Except Error α} (hr : Sparing r) (f : α → β) : Sparing (r.map f) := by
  cases r with
  | error e =>
    intro h he
    cases he
    exact hr h rfl
  | ok a => exact .ok _

theorem mapM {f : α → Except Error β} (hf : ∀ a, Sparing (f a)) (as : List α) :
    Sparing (as.mapM f) := by
  induction as with
  | nil => exact .ok _
  | cons a as ih =>
    rw [List.mapM_cons]
    exact (hf a).bind fun _ _ => ih.bind fun _ _ => .ok _

theorem foldlM {f : β → α → Except Error β} (hf : ∀ b a, Sparing (f b a)) (as : List α) (b : β) :
    Sparing (as.foldlM f b) := by
  induction as generalizing b with
  | nil => exact .ok _
  | cons a as ih => exact (hf b a).bind fun _ _ => ih _

theorem of_error {r : Except Error α} {e : Error} (hr : Sparing r) (he : r = .error e) :
    Sparing (.error e : Except Error β) := by
  intro h heq
  cases heq
  exact hr h he

end Sparing

/-! Schemas and rows. -/

theorem FieldType.sparing_checkValue (t : FieldType) (length : UInt32) (v : Value) :
    Sparing (t.checkValue length v) := by
  unfold checkValue checkCapacity
  dsimp only
  repeat' split
  all_goals simp

namespace Schema

variable {s : Schema}

theorem sparing_checkFields (i : Nat) (fs : List FieldDecl) : Sparing (s.checkFields i fs) := by
  induction fs generalizing i with
  | nil => exact .ok _
  | cons f fs ih =>
    refine .bind ?_ fun _ _ => ih (i + 1)
    unfold checkField
    repeat' split
    all_goals simp

theorem sparing_checkIndexes (earlier is : List IndexDecl) :
    Sparing (s.checkIndexes earlier is) := by
  induction is generalizing earlier with
  | nil => exact .ok _
  | cons i is ih =>
    refine .bind ?_ fun _ _ => ih _
    unfold checkIndex
    repeat' split
    all_goals simp

theorem sparing_validate (s : Schema) : Sparing s.validate := by
  unfold validate
  split
  · simp
  · exact (sparing_checkFields 0 _).bind fun _ _ => sparing_checkIndexes _ _

theorem sparing_checkValues (fs : List FieldDecl) (row : Row) : Sparing (checkValues fs row) := by
  induction fs generalizing row with
  | nil => exact .ok _
  | cons f fs ih =>
    cases row with
    | nil => exact .ok _
    | cons v vs =>
      refine .bind ?_ fun _ _ => ih vs
      unfold FieldDecl.check
      split
      · simp
      · exact f.type.sparing_checkValue f.length v

theorem sparing_checkRow (row : Row) : Sparing (s.checkRow row) := by
  unfold checkRow
  split
  · exact sparing_checkValues _ _
  · simp

end Schema

/-! Calls of the engine. -/

theorem Image.sparing_moveTo (i : Image) (index : Option Nat) (m : CursorMove) :
    Sparing (i.moveTo index m) := by
  have hindex (n : Nat) : Sparing (i.indexAt n) := by
    unfold indexAt
    split <;> simp
  have horder : Sparing (i.orderedRows index) := by
    cases index with
    | none => exact .ok _
    | some n => exact (hindex n).bind fun _ _ => .ok _
  cases m with
  | first | last => exact horder.bind fun _ _ => .ok _
  | next | prev =>
    refine horder.bind fun _ _ => ?_
    split <;> simp
  | find =>
    cases index with
    | none => simp [moveTo]
    | some n => exact (hindex n).bind fun _ _ => .ok _

namespace Server

variable {s : Server}

theorem sparing_opened {id : HandleId} {x : Handle}
    (registered : s.Registered) (hx : get? s.handles id = some x) : Sparing (s.opened id) := by
  obtain ⟨f, -, hf, -⟩ := registered.handle hx
  rw [opened_eq_ok.2 ⟨hx, hf⟩]
  exact .ok _

theorem sparing_checkConnection (s : Server) (c : ConnectionId) : Sparing (s.checkConnection c) := by
  unfold checkConnection
  split <;> simp

theorem sparing_checkWritable (x : Handle) (f : OpenFile) : Sparing (s.checkWritable x f) := by
  have hsession : Sparing (s.checkSessionLock x.connection) := by
    unfold checkSessionLock
    split <;> simp
  unfold checkWritable
  dsimp only
  split
  · exact .throw_bind (by simp) _
  · exact hsession

theorem sparing_checkRowLock (c : ConnectionId) (file : FileId) (r : RowId) :
    Sparing (s.checkRowLock c file r) := by
  unfold checkRowLock
  split <;> simp

theorem sparing_checkTarget (x : Handle) (f : OpenFile) (target : Option RowId) :
    Sparing (s.checkTarget x f target) := by
  unfold checkTarget
  split
  · exact .ok _
  · dsimp only
    split
    · exact .throw_bind (by simp) _
    · exact sparing_checkRowLock _ _ _

theorem sparing_checkRoom (i : Image) (target : Option RowId) : Sparing (checkRoom i target) := by
  cases target with
  | none =>
    simp only [checkRoom]
    split <;> simp
  | some r => exact .ok _

theorem sparing_acquire (c : ConnectionId) (r : LockResource) (k : LockKind) :
    Sparing (s.acquire c r k).1 := by
  simp only [acquire, LockTable.acquire_eq]
  split <;> simp

variable {id : HandleId}

theorem sparing_moveCursor (hs : Sparing (s.opened id)) (index : Option Nat) (m : CursorMove) :
    Sparing (s.moveCursor id index m) :=
  hs.bind fun p _ => (p.2.image.sparing_moveTo index m).bind fun _ _ => .ok _

theorem sparing_readSchema (hs : Sparing (s.opened id)) : Sparing (s.readSchema id) :=
  hs.bind fun _ _ => .ok _

theorem sparing_checkWrite (hs : Sparing (s.opened id)) (target : Option RowId) (row : Row) :
    Sparing (s.checkWrite id target row) := by
  refine hs.bind fun p _ => (sparing_checkWritable p.1 p.2).bind fun _ _ => ?_
  refine (Schema.sparing_checkRow row).bind fun _ _ => (sparing_checkTarget _ _ _).bind fun _ _ => ?_
  refine .bind ?_ fun _ _ => .bind (sparing_checkRoom _ _) fun _ _ => .ok _
  unfold checkUnique
  split <;> simp

theorem sparing_checkDelete (hs : Sparing (s.opened id)) (r : RowId) :
    Sparing (s.checkDelete id r) := by
  refine hs.bind fun p _ => (sparing_checkWritable p.1 p.2).bind fun _ _ => ?_
  refine (sparing_checkRowLock _ _ _).bind fun _ _ => ?_
  split <;> simp

theorem sparing_lockRow (hs : Sparing (s.opened id)) (r : RowId) (m : LockMode) :
    Sparing (s.lockRow id r m).1 := by
  unfold lockRow
  cases ho : s.opened id with
  | error e => exact hs.of_error ho
  | ok p =>
    simp only
    split
    · exact .ok _
    · split
      · exact sparing_acquire _ _ _
      · simp

theorem sparing_connect (endpoint : String) (k : Credentials) : Sparing (s.connect endpoint k).1 := by
  unfold connect
  repeat' split
  all_goals simp

theorem sparing_lock (c : ConnectionId) (m : LockMode) : Sparing (s.lock c m).1 := by
  unfold lock
  cases hc : s.checkConnection c with
  | error e => exact (s.sparing_checkConnection c).of_error hc
  | ok u =>
    simp only
    split
    · exact .ok _
    · exact sparing_acquire _ _ _

end Server

theorem TableFile.sparing_decode (bs : List UInt8) (verify : Bool) :
    Sparing (TableFile.decode bs verify) := by
  have hheader : Sparing (checkHeader bs verify) := by
    unfold checkHeader
    repeat' split
    all_goals simp
  have hpayload : Sparing (readPayload (payloadOf bs)) := by
    unfold readPayload
    split <;> simp
  exact hheader.bind fun _ _ => hpayload.bind fun i _ => i.schema.sparing_validate.bind fun _ _ => .ok _

namespace Host

variable {h : Host} {id : HandleId}

theorem sparing_writeRow (hs : Sparing (h.server.opened id)) (target : Option RowId) (row : Row) :
    Sparing (h.writeRow id target row).1 := by
  unfold writeRow
  cases hc : h.server.checkWrite id target row with
  | error e => exact (Server.sparing_checkWrite hs target row).of_error hc
  | ok p =>
    dsimp only
    split <;> simp

theorem sparing_deleteRow (hs : Sparing (h.server.opened id)) (r : RowId) :
    Sparing (h.deleteRow id r).1 := by
  unfold deleteRow
  cases hc : h.server.checkDelete id r with
  | error e => exact (Server.sparing_checkDelete hs r).of_error hc
  | ok p =>
    dsimp only
    split <;> simp

theorem sparing_checkFree (h : Host) (a : TableAddress) (m : CreateMode) (p : TablePath) :
    Sparing (h.checkFree a m p) := by
  unfold checkFree
  repeat' split
  all_goals simp

theorem sparing_createTable (c : ConnectionId) (a : TableAddress) (s : Schema) (m : CreateMode) :
    Sparing (h.createTable c a s m).1 := by
  unfold createTable
  cases hc : h.server.checkConnection c with
  | error e => exact (h.server.sparing_checkConnection c).of_error hc
  | ok u =>
    cases hv : s.numbered.validate with
    | error e => exact s.numbered.sparing_validate.of_error hv
    | ok u =>
      dsimp only
      split
      · simp
      · rename_i p _
        cases hf : checkFree ⟨h.server, (makeParent h.disk (h.server.path a)).2⟩ a m p with
        | error e => exact (sparing_checkFree _ a m p).of_error hf
        | ok u =>
          unfold createAt
          dsimp only
          split <;> simp

theorem sparing_openTable (c : ConnectionId) (a : TableAddress) (m : OpenMode) :
    Sparing (h.openTable c a m).1 := by
  have hload : Sparing (h.load a m) := by
    unfold load
    repeat' split
    · simp
    · simp
    · simp
    · exact TableFile.sparing_decode _ _
  have hshared (r : Registration) : Sparing (checkShared a m r) := by
    unfold checkShared
    repeat' split
    all_goals simp
  unfold openTable
  cases hc : h.server.checkConnection c with
  | error e => exact (h.server.sparing_checkConnection c).of_error hc
  | ok u =>
    dsimp only
    split
    · rename_i r _
      cases hs : checkShared a m r with
      | error e => exact (hshared r).of_error hs
      | ok u => exact .ok _
    · cases hl : h.load a m with
      | error e => exact hload.of_error hl
      | ok i => exact .ok _

end Host
/-! Calls of a client. -/

variable {h : Host} {s : Session Host} {t : Table}

namespace Session

theorem sparing_connected (s : Session Host) : Sparing s.connected := by
  unfold connected
  split <;> simp

theorem sparing_logon (he : s.engine = Host.engine) (endpoint user password : String) :
    Sparing (s.logon endpoint user password h).1 := by
  have hcall : Sparing (s.engine.connect endpoint ⟨user, password⟩ h).1 := by
    rw [he]
    exact Server.sparing_connect _ _
  unfold logon
  split
  · simp
  · split
    · simp
    · generalize s.engine.connect endpoint ⟨user, password⟩ h = x at hcall ⊢
      obtain ⟨_ | _, _⟩ := x
      · exact hcall.of_error rfl
      · exact .ok _

theorem sparing_logout (he : s.engine = Host.engine) : Sparing (s.logout h).1 := by
  unfold logout
  cases s.connection with
  | none => exact .ok _
  | some c =>
    rw [he]
    exact .ok _

theorem sparing_lock (he : s.engine = Host.engine) (m : LockMode) : Sparing (s.lock m h).1 := by
  unfold lock
  cases s.connection with
  | none => simp
  | some c =>
    have hcall : Sparing (s.engine.lock c m h).1 := by
      rw [he]
      exact Server.sparing_lock _ _
    dsimp only
    generalize s.engine.lock c m h = x at hcall ⊢
    obtain ⟨_ | _, _⟩ := x
    · exact hcall.of_error rfl
    · exact .ok _

theorem sparing_unlock (he : s.engine = Host.engine) : Sparing (s.unlock h).1 := by
  unfold unlock
  cases s.connection with
  | none => exact .ok _
  | some c =>
    rw [he]
    exact .ok _

theorem sparing_call (he : s.engine = Host.engine) (c : SessionCall) (h : Host) :
    Sparing (s.call c h).1 := by
  cases c with
  | logon endpoint user password => exact sparing_logon he endpoint user password
  | logout => exact sparing_logout he
  | lock m => exact sparing_lock he m
  | unlock => exact sparing_unlock he
  | setPathPrefix | setDateFormat => exact .ok _

end Session

theorem sparing_changed {σ : Type} {a : α} {st : σ} {r : Except Error α} (hr : Sparing r) :
    Sparing (changed a st r).1 := by
  cases r with
  | error e => exact hr.of_error rfl
  | ok b => exact .ok _

namespace Index

theorem sparing_checkMutable (i : Index) : Sparing i.checkMutable := by
  unfold checkMutable
  split <;> simp

theorem sparing_addSegment (i : Index) (f : Field) (mode : SegmentMode) :
    Sparing (i.addSegment f mode) := by
  refine i.sparing_checkMutable.bind fun _ _ => ?_
  dsimp only
  split
  · exact .throw_bind (by simp) _
  · exact .ok _

theorem sparing_apply (edit : IndexEdit) (i : Index) : Sparing (edit.apply i) := by
  cases edit with
  | allowDuplicates | allowNullKeys => exact i.sparing_checkMutable.bind fun _ _ => .ok _
  | addSegment f mode => exact i.sparing_addSegment f mode

theorem sparing_ofDecl (id : TableId) (n : Nat) (d : IndexDecl) (fields : List Field) :
    Sparing (Index.ofDecl id n d fields) := by
  refine .bind (.foldlM (fun i g => ?_) _ _) fun _ _ => .ok _
  unfold addDeclared
  split
  · exact i.sparing_addSegment _ _
  · simp

end Index

namespace Table

theorem sparing_checkUnbound (t : Table) (s : Session Host) (attempt : String) :
    Sparing (t.checkUnbound s attempt) := by
  unfold checkUnbound
  split <;> simp

theorem sparing_handle (t : Table) (s : Session Host) : Sparing (t.handle s) := by
  unfold handle
  split <;> simp

theorem sparing_field (t : Table) (n : Nat) : Sparing (t.field n) := by
  unfold field
  split <;> simp

theorem sparing_fieldNamed (t : Table) (name : String) : Sparing (t.fieldNamed name) := by
  unfold fieldNamed
  split <;> simp

theorem sparing_indexNamed (t : Table) (name : String) : Sparing (t.indexNamed name) := by
  unfold indexNamed
  split <;> simp

theorem sparing_select (t : Table) (f : Selector) : Sparing (t.select f) := by
  cases f with
  | number n => exact t.sparing_field n
  | named name => exact t.sparing_fieldNamed name

theorem sparing_selectIndex (t : Table) (i : Selector) : Sparing (t.selectIndex i) := by
  cases i with
  | number n =>
    simp only [selectIndex]
    split <;> simp
  | named name => exact (t.sparing_indexNamed name).bind fun _ _ => .ok _

theorem sparing_addField (name : String) (type : FieldType) (length : UInt32) (p : Properties) :
    Sparing (t.addField s name type length p) := by
  have hlength : Sparing (type.checkLength length) := by
    unfold FieldType.checkLength
    repeat' split
    all_goals simp
  have hdefault : Sparing (checkDefault name type length p) := by
    unfold checkDefault
    repeat' split
    all_goals simp
  refine (t.sparing_checkUnbound s _).bind fun _ _ => ?_
  dsimp only
  split
  · exact .throw_bind (by simp) _
  · split
    · exact .throw_bind (by simp) _
    · exact hlength.bind fun _ _ => hdefault.bind fun _ _ => .ok _

theorem sparing_addIndex (name : String) (kind : IndexKind) :
    Sparing (t.addIndex s name kind) := by
  refine (t.sparing_checkUnbound s _).bind fun _ _ => ?_
  dsimp only
  split
  · exact .throw_bind (by simp) _
  · split
    · exact .throw_bind (by simp) _
    · exact .ok _

theorem sparing_editIndex (name : String) {edit : Index → Except Error Index}
    (hedit : ∀ i, Sparing (edit i)) : Sparing (t.editIndex name edit) :=
  (t.sparing_indexNamed name).bind fun i _ => (hedit i).bind fun _ _ => .ok _

theorem sparing_checkCreate (name : String) : Sparing (t.checkCreate s name) := by
  refine (t.sparing_checkUnbound s _).bind fun _ _ => ?_
  dsimp only
  split
  · exact .throw_bind (by simp) _
  · split
    · simp
    · exact s.sparing_connected

theorem sparing_checkOpen (name : String) : Sparing (t.checkOpen s name) := by
  refine (t.sparing_checkUnbound s _).bind fun _ _ => ?_
  dsimp only
  split
  · exact .throw_bind (by simp) _
  · exact s.sparing_connected

theorem sparing_indexesOf (id : TableId) (fields : List Field) (n : Nat) (ds : List IndexDecl) :
    Sparing (indexesOf id fields n ds) := by
  induction ds generalizing n with
  | nil => exact .ok _
  | cons d ds ih =>
    exact (Index.sparing_ofDecl id n d fields).bind fun _ _ => (ih (n + 1)).bind fun _ _ => .ok _

theorem sparing_load (t : Table) (schema : Schema) : Sparing (t.load schema) :=
  (sparing_indexesOf _ _ _ _).bind fun _ _ => .ok _

theorem sparing_create (he : s.engine = Host.engine) (name : String) (m : CreateMode) :
    Sparing (t.create s name m h).1 := by
  unfold create
  cases hc : t.checkCreate s name with
  | error e => exact (sparing_checkCreate name).of_error hc
  | ok c =>
    have hcall : s.engine.createTable c (s.addressOf t.path name) t.schema m h =
        h.createTable c (s.addressOf t.path name) t.schema m := by rw [he]; rfl
    have hanswer := h.sparing_createTable c (s.addressOf t.path name) t.schema m
    simp only [hcall]
    generalize h.createTable c (s.addressOf t.path name) t.schema m = x at hanswer ⊢
    obtain ⟨_ | _, _⟩ := x
    · exact hanswer.of_error rfl
    · exact .ok _

theorem sparing_openStored (he : s.engine = Host.engine) (registered : h.server.Registered)
    (name : String) (m : OpenMode) : Sparing (t.openStored s name m h).1 := by
  unfold openStored
  cases hc : t.checkOpen s name with
  | error e => exact (sparing_checkOpen name).of_error hc
  | ok c =>
    have hcall : s.engine.openTable c (s.addressOf t.path name) m h =
        h.openTable c (s.addressOf t.path name) m := by rw [he]; rfl
    have hanswer := h.sparing_openTable c (s.addressOf t.path name) m
    simp only [hcall]
    cases ho : h.openTable c (s.addressOf t.path name) m with
    | mk answer h' =>
      rw [ho] at hanswer
      cases answer with
      | error e => exact hanswer.of_error rfl
      | ok id =>
        obtain ⟨-, file, hx, -⟩ := Host.openTable_ok registered ho
        have registered' := Host.openTable_registered registered ho
        have hread : s.engine.readSchema id h' = (h'.server.readSchema id, h') := by rw [he]; rfl
        have hclose : s.engine.closeTable id h' =
            (.ok (), { h' with server := h'.server.close id }) := by rw [he]; rfl
        have hloaded : Sparing ((h'.server.readSchema id).bind t.load) :=
          (Server.sparing_readSchema (Server.sparing_opened registered' hx)).bind
            fun schema _ => t.sparing_load schema
        simp only [hread, hclose]
        generalize (h'.server.readSchema id).bind t.load = loaded at hloaded
        cases loaded with
        | error e => exact hloaded.of_error rfl
        | ok loaded => exact .ok _

theorem sparing_call (he : s.engine = Host.engine) (registered : h.server.Registered)
    (c : TableCall) : Sparing (t.call c s h).1 := by
  cases c with
  | setPath => exact .ok _
  | addField name type length p => exact sparing_changed ((sparing_addField name type length p).map _)
  | addIndex name kind => exact sparing_changed ((sparing_addIndex name kind).map _)
  | editIndex name edit => exact sparing_changed (sparing_editIndex name (Index.sparing_apply edit))
  | addSegment index field mode =>
    exact sparing_changed ((t.sparing_fieldNamed field).bind fun f _ =>
      sparing_editIndex index (·.sparing_addSegment f mode))
  | create name m => exact sparing_create he name m
  | openStored name m => exact sparing_openStored he registered name m

end Table

namespace Record

variable {r : Record}

theorem sparing_checkBound (r : Record) (t : Table) (s : Session Host) :
    Sparing (r.checkBound t s) := by
  unfold checkBound
  repeat' split
  all_goals simp

theorem sparing_valueAt (r : Record) (n : Nat) : Sparing (r.valueAt n) := by
  unfold valueAt
  split <;> simp

theorem sparing_look (f : Selector) : Sparing (r.look t s f) :=
  (r.sparing_checkBound t s).bind fun _ _ => (t.sparing_select f).bind fun _ _ =>
    (r.sparing_valueAt _).bind fun _ _ => .ok _

theorem sparing_set (f : Selector) (v : Value) : Sparing (r.set t s f v) := by
  refine (r.sparing_checkBound t s).bind fun _ _ => (t.sparing_select f).bind fun g _ => ?_
  refine .bind ?_ fun v _ => ?_
  · unfold Field.accepted
    dsimp only
    split
    · simp
    · exact (g.type.sparing_checkValue _ _).bind fun _ _ => .ok _
  · unfold put
    split <;> simp

theorem sparing_setText (f : Selector) (text : String) : Sparing (r.setText t s f text) := by
  refine (t.sparing_select f).bind fun g _ => .bind ?_ fun v _ => sparing_set f v
  unfold Field.ofText
  repeat' split
  all_goals simp

theorem sparing_current (r : Record) (t : Table) (s : Session Host) :
    Sparing (r.current t s) := by
  refine (r.sparing_checkBound t s).bind fun _ _ => ?_
  split <;> simp

def Attached (r : Record) (t : Table) (s : Session Host) (h : Host) : Prop :=
  r.checkBound t s = .ok () → Sparing (h.server.opened r.handle)

theorem sparing_move (he : s.engine = Host.engine) (attached : r.Attached t s h)
    (m : CursorMove) : Sparing (r.move t s m h).1 := by
  unfold move
  cases hb : r.checkBound t s with
  | error e => exact (r.sparing_checkBound t s).of_error hb
  | ok u =>
    have hcall : s.engine.moveCursor r.handle r.index m h =
        (h.server.moveCursor r.handle r.index m, h) := by rw [he]; rfl
    have hanswer := Server.sparing_moveCursor (attached hb) r.index m
    simp only [hcall]
    generalize h.server.moveCursor r.handle r.index m = x at hanswer
    cases x with
    | error e => exact hanswer.of_error rfl
    | ok row => exact .ok _

theorem sparing_moveOn (he : s.engine = Host.engine) (attached : r.Attached t s h)
    (m : RowId → CursorMove) : Sparing (r.moveOn t s m h).1 := by
  unfold moveOn
  split
  · exact sparing_move he attached _
  · exact (r.sparing_checkBound t s).map _

theorem sparing_find (he : s.engine = Host.engine) (attached : r.Attached t s h)
    (mode : FindMode) : Sparing (r.find t s mode h).1 := by
  have hkey : Sparing (r.searchKey t s) := by
    refine (r.sparing_checkBound t s).bind fun _ _ => ?_
    split
    · simp
    · exact .mapM (fun g : Segment => r.sparing_valueAt g.number) _
  unfold find
  cases hk : r.searchKey t s with
  | error e => exact hkey.of_error hk
  | ok key => exact sparing_move he attached _

theorem sparing_write (he : s.engine = Host.engine) (attached : r.Attached t s h) :
    Sparing (r.write t s h).1 := by
  unfold write
  cases hb : r.checkBound t s with
  | error e => exact (r.sparing_checkBound t s).of_error hb
  | ok u =>
    have hcall : s.engine.writeRow r.handle r.target? r.values h =
        h.writeRow r.handle r.target? r.values := by rw [he]; rfl
    have hanswer := Host.sparing_writeRow (attached hb) r.target? r.values
    simp only [hcall]
    generalize h.writeRow r.handle r.target? r.values = x at hanswer ⊢
    obtain ⟨_ | _, _⟩ := x
    · exact hanswer.of_error rfl
    · exact .ok _

theorem bound_of_current {id : RowId} (hc : r.current t s = .ok id) :
    r.checkBound t s = .ok () := by
  obtain ⟨⟨⟩, hb, -⟩ := bind_eq_ok.1 hc
  exact hb

theorem sparing_delete (he : s.engine = Host.engine) (attached : r.Attached t s h) :
    Sparing (r.delete t s h).1 := by
  unfold delete
  cases hc : r.current t s with
  | error e => exact (r.sparing_current t s).of_error hc
  | ok id =>
    have hcall : s.engine.deleteRow r.handle id h = h.deleteRow r.handle id := by rw [he]; rfl
    have hanswer := Host.sparing_deleteRow (attached (bound_of_current hc)) id
    simp only [hcall]
    generalize h.deleteRow r.handle id = x at hanswer ⊢
    obtain ⟨_ | _, _⟩ := x
    · exact hanswer.of_error rfl
    · exact .ok _

theorem sparing_lock (he : s.engine = Host.engine) (attached : r.Attached t s h) (m : LockMode) :
    Sparing (r.lock t s m h).1 := by
  unfold lock
  cases hc : r.current t s with
  | error e => exact (r.sparing_current t s).of_error hc
  | ok id =>
    rw [he]
    exact Server.sparing_lockRow (attached (bound_of_current hc)) id m

theorem sparing_call (he : s.engine = Host.engine) (attached : r.Attached t s h)
    (c : RecordCall) : Sparing (r.call c t s h).1 := by
  cases c with
  | first | last => exact (sparing_move he attached _).map _
  | next | prev => exact (sparing_moveOn he attached _).map _
  | find mode => exact (sparing_find he attached mode).map _
  | clear => exact sparing_changed ((r.sparing_checkBound t s).bind fun _ _ => .ok _)
  | write => exact (sparing_write he attached).map _
  | delete => exact sparing_delete he attached
  | lock m => exact sparing_lock he attached m
  | setIndex i =>
    exact sparing_changed ((r.sparing_checkBound t s).bind fun _ _ =>
      (t.sparing_selectIndex i).bind fun _ _ => .ok _)
  | usePhysicalOrder => exact sparing_changed ((r.sparing_checkBound t s).bind fun _ _ => .ok _)
  | get f => exact ((sparing_look f).map _).map _
  | set f v => exact sparing_changed (sparing_set f v)
  | setText f text => exact sparing_changed (sparing_setText f text)

end Record

namespace Workspace

variable {w w' : Workspace Host} {n : String}

theorem Binds.attached (binds : w.Binds) (standing : w.Standing) (found : w.table? n = some (t, s))
    (r : Record) : r.Attached t s w.state := by
  intro hbound
  obtain ⟨b, live, hb⟩ := Record.checkBound_eq_ok.1 hbound
  obtain ⟨file, hx⟩ := binds.registered found live
  exact Server.sparing_opened standing.sane.registered (hb ▸ hx)

theorem Binds.sparing_attempt (binds : w.Binds) (standing : w.Standing) {a : Act}
    {r : Except Error Unit} (attempted : w.attempt a = some (r, w')) : Sparing r := by
  cases a with
  | newSession | dropSession | newTable | dropTable =>
    obtain ⟨_, -, heq⟩ := Option.map_eq_some_iff.1 attempted
    cases heq
    exact .ok _
  | dropRecord | device | restart =>
    cases attempted
    exact .ok _
  | session name call =>
    simp only [attempt] at attempted
    obtain ⟨s, found, rfl, -⟩ := onSession_eq_some attempted
    exact Session.sparing_call (standing.hosted found) call w.state
  | table name call =>
    obtain ⟨-, attempted⟩ := onFreeTable_eq_some attempted
    obtain ⟨o, t, s, entry, found, rfl, -⟩ := onTable_eq_some attempted
    exact Table.sparing_call (standing.hosted found) standing.sane.registered call
  | close name =>
    simp only [attempt] at attempted
    obtain ⟨o, t, s, entry, found, rfl, -⟩ := onTable_eq_some attempted
    rw [t.close_eq (standing.hosted found)]
    exact .ok _
  | newRecord name table =>
    obtain ⟨added, hadded, heq⟩ := Option.map_eq_some_iff.1 attempted
    obtain ⟨⟨t, s⟩, -, hmade⟩ := Option.bind_eq_some_iff.1 hadded
    have hrecord : Sparing (Record.ofTable t s) := (t.sparing_handle s).bind fun _ _ => .ok _
    cases hmade
    cases hr : Record.ofTable t s with
    | error e =>
      rw [hr] at heq
      cases heq
      exact hrecord.of_error hr
    | ok record =>
      rw [hr] at heq
      cases heq
      exact .ok _
  | record name call =>
    simp only [attempt] at attempted
    obtain ⟨table, r, t, s, entry, found, rfl, -⟩ := onRecord_eq_some attempted
    obtain ⟨o, -, hosted⟩ := table?_eq_some.1 found
    exact Record.sparing_call (standing.hosted hosted) (binds.attached standing found r) call

theorem Binds.attempt_close_state (binds : w.Binds) (standing : w.Standing) {r : Except Error Unit}
    (found : w.table? n = some (t, s)) (dead : t.live? s = none)
    (attempted : w.attempt (.close n) = some (r, w')) : w'.state = w.state := by
  simp only [attempt] at attempted
  obtain ⟨o, u, v, entry, hosted, -, rfl⟩ := onTable_eq_some attempted
  rw [table?_eq_some.2 ⟨o, entry, hosted⟩] at found
  cases found
  exact binds.close_state standing (table?_eq_some.2 ⟨o, entry, hosted⟩) dead

theorem attempt_dropTable_state {r : Except Error Unit}
    (attempted : w.attempt (.dropTable n) = some (r, w')) : w'.state = w.state ∨
      ∃ r w₁, w.attempt (.close n) = some (r, w₁) ∧ w'.state = w₁.state := by
  obtain ⟨_, dropped, heq⟩ := Option.map_eq_some_iff.1 attempted
  cases heq
  unfold dropTable at dropped
  split at dropped
  · cases dropped
  · split at dropped
    · rename_i hclosed
      cases dropped
      exact .inr ⟨_, _, hclosed, rfl⟩
    · cases dropped
      exact .inl rfl

/-- In every state that calls of any sessions and tables lead to, the handles of the engine are those
of the tables that are open, one each, for the connections of their sessions and in their modes. So no
call is ever told that a handle is not open, and closing or dropping a table that is not open changes
nothing in the engine. -/
theorem tables_and_engine_agree (config : EngineConfig) (disk : Disk) (as : List Act) :
    let w := (start config disk).run as
    let server := w.state.server
    (∀ n t s, w.table? n = some (t, s) → t.isOpen s = true →
      ∃ c id mode, s.connection = some c ∧ t.handle s = .ok id ∧ t.openMode? s = some mode ∧
        (∃ file, get? server.handles id = some ⟨c, file, mode⟩) ∧
        ∀ m o u b, get? w.tables m = some (o, u) → u.binding = some b → b.handle = id → m = n) ∧
    (∀ id x, get? server.handles id = some x →
      ∃ n t s, w.table? n = some (t, s) ∧ t.isOpen s = true ∧ t.handle s = .ok id) ∧
    (∀ n r t s, w.record? n = some (r, t, s) → r.checkBound t s = .ok () →
      ∃ x f, server.opened r.handle = .ok (x, f)) ∧
    (∀ a r w' h, w.attempt a = some (r, w') → r ≠ .error (.handleClosed h)) ∧
    ∀ n t s r w', w.table? n = some (t, s) → t.isOpen s = false →
      w.attempt (.close n) = some (r, w') ∨ w.attempt (.dropTable n) = some (r, w') →
      w'.state = w.state := by
  intro w server
  obtain ⟨standing, binds⟩ : w.Standing ∧ w.Binds := binds_run config disk as
  refine ⟨?_, ?_, ?_, ?_, ?_⟩
  · intro n t s found hopen
    obtain ⟨b, live⟩ := Option.isSome_iff_exists.1 hopen
    obtain ⟨hb, hc⟩ := Table.live?_eq_some.1 live
    refine ⟨b.connection, b.handle, b.mode, hc, ?_, ?_, binds.registered found live, ?_⟩
    · rw [Table.handle, live]
    · rw [Table.openMode?, live]
      rfl
    · intro m o u a entry ha heq
      obtain ⟨p, entry', -⟩ := table?_eq_some.1 found
      exact binds.alone (binding?_eq_some.2 ⟨u, entry, ha⟩) (binding?_eq_some.2 ⟨t, entry', hb⟩) heq
  · intro id x hx
    obtain ⟨n, o, b, hn, rfl⟩ := binds.held hx
    obtain ⟨t, entry, hb⟩ := binding?_eq_some.1 hn
    have hlive := standing.sane.registered.live hx
    rw [(binds.named hn hx).1] at hlive
    obtain ⟨s, found, hc⟩ := connection?_eq_some.1 (binds.kept hn hlive)
    have live := Table.live?_eq_some.2 ⟨hb, hc⟩
    refine ⟨n, t, s, table?_eq_some.2 ⟨o, entry, found⟩, ?_, ?_⟩
    · rw [Table.isOpen, live]
      rfl
    · rw [Table.handle, live]
  · intro n r t s found hbound
    obtain ⟨table, -, found⟩ := record?_eq_some.1 found
    obtain ⟨b, live, hb⟩ := Record.checkBound_eq_ok.1 hbound
    obtain ⟨file, hx⟩ := binds.registered found live
    obtain ⟨f, -, hf, -⟩ := standing.sane.registered.handle hx
    exact ⟨_, f, Server.opened_eq_ok.2 ⟨hb ▸ hx, hf⟩⟩
  · intro a r w' h attempted
    exact binds.sparing_attempt standing attempted h
  · intro n t s r w' found hopen attempted
    have dead : t.live? s = none := Option.isNone_iff_eq_none.1 (Option.isSome_eq_false_iff.1 hopen)
    rcases attempted with attempted | attempted
    · exact binds.attempt_close_state standing found dead attempted
    · rcases attempt_dropTable_state attempted with hstate | ⟨r, w₁, hclosed, hstate⟩
      · exact hstate
      · exact hstate.trans (binds.attempt_close_state standing found dead hclosed)

end Workspace
end Isam
