import Isam.Proofs.Client.Connections
namespace Isam

open FiniteMap

variable {h h' : Host} {s : Session Host} {t : Table} {id : HandleId} {x : Handle}

namespace Server

structure Opens (s : Server) (id : HandleId) (x : Handle) (t : Server) : Prop where
  handles : ∀ k, get? t.handles k = if id = k then some x else get? s.handles k
  connections : t.connections = s.connections
  fresh : s.nextId ≤ id
  given : id < t.nextId

theorem opens_register (s : Server) (c : ConnectionId) (p : TablePath) (file : FileId)
    (m : OpenMode) : s.Opens (s.register c p file m).1 ⟨c, file, m⟩ (s.register c p file m).2 where
  handles _ := get?_handles_register
  connections := rfl
  fresh := Nat.le_refl _
  given := Nat.lt_succ_self _

theorem opens_registerNew (s : Server) (c : ConnectionId) (p : TablePath) (i : Image)
    (m : OpenMode) :
    s.Opens (s.registerNew c p i m).1 ⟨c, s.nextId, m⟩ (s.registerNew c p i m).2 where
  handles _ := get?_handles_register
  connections := rfl
  fresh := Nat.le_succ _
  given := Nat.lt_succ_self _

end Server

namespace Host

theorem openTable_opens {c : ConnectionId} {a : TableAddress} {m : OpenMode}
    (ho : h.openTable c a m = (.ok id, h')) : ∃ file, h.server.Opens id ⟨c, file, m⟩ h'.server := by
  cases Effect.openTable_opened ho with
  | joined => exact ⟨_, h.server.opens_register c _ _ m⟩
  | loaded => exact ⟨_, h.server.opens_registerNew c _ _ m⟩

theorem createTable_opens {c : ConnectionId} {a : TableAddress} {schema : Schema} {m : CreateMode}
    (ho : h.createTable c a schema m = (.ok id, h')) :
    ∃ file, h.server.Opens id ⟨c, file, .normal⟩ h'.server := by
  obtain ⟨p, d, rfl, rfl, -⟩ := Effect.createTable_made ho
  exact ⟨_, h.server.opens_registerNew c p _ .normal⟩

end Host

namespace Table

theorem live?_eq_some {b : Binding} :
    t.live? s = some b ↔ t.binding = some b ∧ s.connection = some b.connection := by
  simp [live?, Option.filter_eq_some_iff]

theorem checkUnbound_eq_ok {attempt : String} :
    t.checkUnbound s attempt = .ok () ↔ t.live? s = none := by
  unfold checkUnbound isOpen
  cases t.live? s <;> simp

theorem connected_eq_ok {c : ConnectionId} : s.connected = .ok c ↔ s.connection = some c := by
  unfold Session.connected
  cases s.connection <;> simp

structure Bindable (t : Table) (s : Session Host) (c : ConnectionId) : Prop where
  unbound : t.live? s = none
  active : s.connection = some c

theorem bindable_of_checkCreate {name : String} {c : ConnectionId}
    (hc : t.checkCreate s name = .ok c) : t.Bindable s c := by
  obtain ⟨⟨⟩, hunbound, hc⟩ := bind_eq_ok.1 hc
  refine ⟨checkUnbound_eq_ok.1 hunbound, ?_⟩
  dsimp only at hc
  split at hc
  · obtain ⟨_, ⟨⟩, _⟩ := bind_eq_ok.1 hc
  · split at hc
    · cases hc
    · exact connected_eq_ok.1 hc

theorem bindable_of_checkOpen {name : String} {c : ConnectionId}
    (hc : t.checkOpen s name = .ok c) : t.Bindable s c := by
  obtain ⟨⟨⟩, hunbound, hc⟩ := bind_eq_ok.1 hc
  refine ⟨checkUnbound_eq_ok.1 hunbound, ?_⟩
  dsimp only at hc
  split at hc
  · obtain ⟨_, ⟨⟩, _⟩ := bind_eq_ok.1 hc
  · exact connected_eq_ok.1 hc

variable {name : String}

theorem create_asks {σ : Type} (t : Table) (s : Session σ) (name : String) (m : CreateMode)
    (st : σ) :
    (∃ e, t.create s name m st = (.error e, t, st)) ∨
    ∃ c, t.checkCreate s name = .ok c ∧
      ((∃ e st', s.engine.createTable c (s.addressOf t.path name) t.schema m st = (.error e, st') ∧
          t.create s name m st = (.error e, t, st')) ∨
        ∃ id st', s.engine.createTable c (s.addressOf t.path name) t.schema m st = (.ok id, st') ∧
          t.create s name m st = (.ok (), { t with
            indexes := t.indexes.map (·.freeze)
            name := some name
            binding := some ⟨c, id, .normal⟩ }, st')) := by
  unfold create
  cases hc : t.checkCreate s name with
  | error e => exact .inl ⟨e, rfl⟩
  | ok c =>
    refine .inr ⟨c, rfl, ?_⟩
    dsimp only
    cases hcall : s.engine.createTable c (s.addressOf t.path name) t.schema m st with
    | mk answer st' =>
      cases answer with
      | error e => exact .inl ⟨e, st', rfl, rfl⟩
      | ok id => exact .inr ⟨id, st', rfl, rfl⟩

theorem openStored_asks {σ : Type} (t : Table) (s : Session σ) (name : String) (m : OpenMode)
    (st : σ) :
    (∃ e, t.openStored s name m st = (.error e, t, st)) ∨
    ∃ c, t.checkOpen s name = .ok c ∧
      ((∃ e st', s.engine.openTable c (s.addressOf t.path name) m st = (.error e, st') ∧
          t.openStored s name m st = (.error e, t, st')) ∨
        ∃ id st', s.engine.openTable c (s.addressOf t.path name) m st = (.ok id, st') ∧
          ((∃ e, t.openStored s name m st =
              (.error e, t, (s.engine.closeTable id (s.engine.readSchema id st').2).2)) ∨
            ∃ schema loaded, (s.engine.readSchema id st').1 = .ok schema ∧
              t.load schema = .ok loaded ∧
              t.openStored s name m st = (.ok (), { loaded with
                name := some name
                binding := some ⟨c, id, m⟩ }, (s.engine.readSchema id st').2))) := by
  unfold openStored
  cases hc : t.checkOpen s name with
  | error e => exact .inl ⟨e, rfl⟩
  | ok c =>
    refine .inr ⟨c, rfl, ?_⟩
    dsimp only
    cases hopen : s.engine.openTable c (s.addressOf t.path name) m st with
    | mk answer st' =>
      cases answer with
      | error e => exact .inl ⟨e, st', rfl, rfl⟩
      | ok id =>
        refine .inr ⟨id, st', rfl, ?_⟩
        dsimp only
        split
        · rename_i loaded bound
          obtain ⟨schema, hread, hload⟩ := bind_eq_ok.1 bound
          exact .inr ⟨schema, loaded, hread, hload, rfl⟩
        · rename_i e _
          split
          · rename_i hclosed
            exact .inl ⟨e, by rw [hclosed]⟩
          · rename_i e' _ hclosed
            exact .inl ⟨e', by rw [hclosed]⟩

theorem create_cases (t : Table) (he : s.engine = Host.engine) (name : String) (m : CreateMode)
    (h : Host) :
    (∃ e h', t.create s name m h = (.error e, t, h') ∧ h.Untouched h') ∨
    ∃ c id h', t.Bindable s c ∧
      h.createTable c (s.addressOf t.path name) t.schema m = (.ok id, h') ∧
      t.create s name m h = (.ok (), { t with
        indexes := t.indexes.map (·.freeze)
        name := some name
        binding := some ⟨c, id, .normal⟩ }, h') := by
  have asks := t.create_asks s name m h
  rw [he] at asks
  rcases asks with ⟨e, refused⟩ | ⟨c, checked, ⟨e, h', asked, failed⟩ | ⟨id, h', asked, created⟩⟩
  · exact .inl ⟨e, h, refused, .refl h⟩
  · have untouched := h.allOrNothing_createTable c (s.addressOf t.path name) t.schema m
    have refused : h.createTable c (s.addressOf t.path name) t.schema m = (.error e, h') := asked
    rw [refused] at untouched
    exact .inl ⟨e, h', failed, untouched e rfl⟩
  · exact .inr ⟨c, id, h', bindable_of_checkCreate checked, asked, created⟩

theorem openStored_cases (t : Table) (he : s.engine = Host.engine) (name : String) (m : OpenMode)
    (h : Host) :
    (∃ e h', t.openStored s name m h = (.error e, t, h') ∧ h.Untouched h') ∨
    ∃ c id h', t.Bindable s c ∧
      h.openTable c (s.addressOf t.path name) m = (.ok id, h') ∧
      ((∃ e, t.openStored s name m h =
          (.error e, t, { h' with server := h'.server.close id })) ∨
        ∃ schema loaded, h'.server.readSchema id = .ok schema ∧ t.load schema = .ok loaded ∧
          t.openStored s name m h = (.ok (), { loaded with
            name := some name
            binding := some ⟨c, id, m⟩ }, h')) := by
  have asks := t.openStored_asks s name m h
  rw [he] at asks
  rcases asks with ⟨e, refused⟩ | ⟨c, checked, ⟨e, h', asked, failed⟩ | ⟨id, h', asked, opened⟩⟩
  · exact .inl ⟨e, h, refused, .refl h⟩
  · have untouched := h.allOrNothing_openTable c (s.addressOf t.path name) m
    have refused : h.openTable c (s.addressOf t.path name) m = (.error e, h') := asked
    rw [refused] at untouched
    exact .inl ⟨e, h', failed, untouched e rfl⟩
  · exact .inr ⟨c, id, h', bindable_of_checkOpen checked, asked, opened⟩

theorem openStored_ok {u : Table} {m : OpenMode} (he : s.engine = Host.engine)
    (opened : t.openStored s name m h = (.ok (), u, h')) : ∃ c id schema loaded,
      h.openTable c (s.addressOf t.path name) m = (.ok id, h') ∧
      h'.server.readSchema id = .ok schema ∧ t.load schema = .ok loaded ∧
      u = { loaded with name := some name, binding := some ⟨c, id, m⟩ } := by
  rcases t.openStored_cases he name m h with ⟨e, g, hrefused, -⟩ |
    ⟨c, id, g, -, hopen, ⟨e, hreturned⟩ | ⟨schema, loaded, hread, hload, heq⟩⟩
  · rw [hrefused] at opened
    cases opened
  · rw [hreturned] at opened
    cases opened
  · rw [heq] at opened
    cases opened
    exact ⟨c, id, schema, loaded, hopen, hread, hload, rfl⟩

theorem close_eq (t : Table) (he : s.engine = Host.engine) (h : Host) :
    t.close s h = (.ok (), { t with binding := none }, match t.binding with
      | none => h
      | some b => { h with server := h.server.close b.handle }) := by
  unfold close
  cases hb : t.binding with
  | none =>
    obtain ⟨id, path, name, fields, numbers, indexes, binding⟩ := t
    cases hb
    rfl
  | some b =>
    have hcall : s.engine.closeTable b.handle h =
        (.ok (), { h with server := h.server.close b.handle }) := by rw [he]; rfl
    simp only [hcall]

theorem addField_eq_ok {type : FieldType} {length : UInt32} {p : Properties} {f : Field}
    {t' : Table} (ha : t.addField s name type length p = .ok (f, t')) :
    t.live? s = none ∧ checkDefault name type length p = .ok () ∧
      f = ⟨t.id, t.fields.length, name, type, length, p⟩ ∧
      t' = { t with
        fields := t.fields ++ [f]
        numbers := FiniteMap.set t.numbers name t.fields.length } := by
  obtain ⟨⟨⟩, hunbound, ha⟩ := bind_eq_ok.1 ha
  dsimp only at ha
  split at ha
  · obtain ⟨_, ⟨⟩, _⟩ := bind_eq_ok.1 ha
  · split at ha
    · obtain ⟨_, ⟨⟩, _⟩ := bind_eq_ok.1 ha
    · obtain ⟨⟨⟩, -, ha⟩ := bind_eq_ok.1 ha
      obtain ⟨⟨⟩, hdefault, ha⟩ := bind_eq_ok.1 ha
      cases ha
      exact ⟨checkUnbound_eq_ok.1 hunbound, hdefault, rfl, rfl⟩

theorem addIndex_eq_ok {kind : IndexKind} {i : Index} {t' : Table}
    (ha : t.addIndex s name kind = .ok (i, t')) :
    i = { table := t.id, number := t.indexes.length, name, kind } ∧
      t' = { t with indexes := t.indexes ++ [i] } := by
  obtain ⟨⟨⟩, -, ha⟩ := bind_eq_ok.1 ha
  dsimp only at ha
  split at ha
  · obtain ⟨_, ⟨⟩, _⟩ := bind_eq_ok.1 ha
  · split at ha
    · obtain ⟨_, ⟨⟩, _⟩ := bind_eq_ok.1 ha
    · cases ha
      exact ⟨rfl, rfl⟩

theorem editIndex_eq_ok {edit : Index → Except Error Index} {t' : Table}
    (ha : t.editIndex name edit = .ok t') : ∃ i j, t.indexNamed name = .ok i ∧ edit i = .ok j ∧
      t' = { t with indexes := replaceIndex j t.indexes } := by
  obtain ⟨i, hi, ha⟩ := bind_eq_ok.1 ha
  obtain ⟨j, hedit, ha⟩ := bind_eq_ok.1 ha
  cases ha
  exact ⟨i, j, hi, hedit, rfl⟩

inductive Called (t : Table) (s : Session Host) (h : Host) : Table → Host → Prop
  | kept {t' : Table} {h' : Host} (fields : t'.fields = t.fields)
    (binding : t'.binding = t.binding) (server : h'.server = h.server) : Called t s h t' h'
  | extended {t' : Table} {name : String} {f : Field} (unbound : t.live? s = none)
    (number : f.number = t.fields.length)
    (checked : checkDefault name f.type f.length f.properties = .ok ())
    (fields : t'.fields = t.fields ++ [f]) (binding : t'.binding = t.binding) : Called t s h t' h
  | created {t' : Table} {h' : Host} {c : ConnectionId} {a : TableAddress} {m : CreateMode}
    {id : HandleId} (bindable : t.Bindable s c)
    (made : h.createTable c a t.schema m = (.ok id, h')) (fields : t'.fields = t.fields)
    (binding : t'.binding = some ⟨c, id, .normal⟩) : Called t s h t' h'
  | stored {t' : Table} {h' : Host} {c : ConnectionId} {a : TableAddress} {m : OpenMode}
    {id : HandleId} {schema : Schema} (bindable : t.Bindable s c)
    (opened : h.openTable c a m = (.ok id, h')) (read : h'.server.readSchema id = .ok schema)
    (fields : t'.fields = schema.fields.map (Field.ofDecl t.id))
    (binding : t'.binding = some ⟨c, id, m⟩) : Called t s h t' h'
  | returned {h' : Host} {c : ConnectionId} {a : TableAddress} {m : OpenMode} {id : HandleId}
    (opened : h.openTable c a m = (.ok id, h')) :
    Called t s h t { h' with server := h'.server.close id }

theorem Called.of_changed {r : Except Error Table}
    (hr : ∀ t', r = .ok t' → t.Called s h t' h) :
    t.Called s h (changed t h r).2.1 (changed t h r).2.2 := by
  cases r with
  | error e => exact .kept rfl rfl rfl
  | ok t' => exact hr t' rfl

theorem map_snd_eq_ok {α β : Type} {r : Except Error (α × β)} {b : β}
    (hr : r.map (·.2) = .ok b) : ∃ a, r = .ok (a, b) := by
  cases r with
  | error e => cases hr
  | ok p =>
    cases hr
    exact ⟨p.1, rfl⟩

theorem load_eq_ok {schema : Schema} {t' : Table} (hl : t.load schema = .ok t') :
    t'.fields = schema.fields.map (Field.ofDecl t.id) := by
  obtain ⟨indexes, -, ⟨⟩⟩ := bind_eq_ok.1 hl
  rfl

theorem called (t : Table) (he : s.engine = Host.engine) (c : TableCall) (h : Host) :
    t.Called s h (t.call c s h).2.1 (t.call c s h).2.2 := by
  cases c with
  | setPath => exact .kept rfl rfl rfl
  | addField =>
    refine .of_changed fun t' hr => ?_
    obtain ⟨f, ha⟩ := map_snd_eq_ok hr
    obtain ⟨unbound, checked, rfl, rfl⟩ := addField_eq_ok ha
    exact .extended unbound rfl checked rfl rfl
  | addIndex =>
    refine .of_changed fun t' hr => ?_
    obtain ⟨i, ha⟩ := map_snd_eq_ok hr
    obtain ⟨-, rfl⟩ := addIndex_eq_ok ha
    exact .kept rfl rfl rfl
  | editIndex =>
    refine .of_changed fun t' hr => ?_
    obtain ⟨i, j, -, -, rfl⟩ := editIndex_eq_ok hr
    exact .kept rfl rfl rfl
  | addSegment =>
    refine .of_changed fun t' hr => ?_
    obtain ⟨f, -, hr⟩ := bind_eq_ok.1 hr
    obtain ⟨i, j, -, -, rfl⟩ := editIndex_eq_ok hr
    exact .kept rfl rfl rfl
  | create name m =>
    rcases t.create_cases he name m h with ⟨e, h', hrefused, untouched⟩ |
      ⟨c, id, h', bindable, hmade, hcreated⟩
    · simp only [call, hrefused]
      exact .kept rfl rfl untouched.server
    · simp only [call, hcreated]
      exact .created bindable hmade rfl rfl
  | openStored name m =>
    rcases t.openStored_cases he name m h with ⟨e, h', hrefused, untouched⟩ |
      ⟨c, id, h', bindable, hopen, ⟨e, hreturned⟩ | ⟨schema, loaded, hread, hload, hopened⟩⟩
    · simp only [call, hrefused]
      exact .kept rfl rfl untouched.server
    · simp only [call, hreturned]
      exact .returned hopen
    · simp only [call, hopened]
      have fields := load_eq_ok hload
      exact .stored bindable hopen hread fields rfl

inductive Outcome (t : Table) (s : Session Host) (h : Host) : Table → Host → Prop
  | kept {t' : Table} {h' : Host} (binding : t'.binding = t.binding)
    (server : h'.server = h.server) : Outcome t s h t' h'
  | bound {t' : Table} {h' : Host} {c : ConnectionId} {id : HandleId} {file : FileId}
    {m : OpenMode} (bindable : t.Bindable s c)
    (opens : h.server.Opens id ⟨c, file, m⟩ h'.server) (binding : t'.binding = some ⟨c, id, m⟩) :
    Outcome t s h t' h'
  | returned {h' : Host} {id : HandleId} {x : Handle} {g : Server}
    (opens : h.server.Opens id x g) (server : h'.server = g.close id) : Outcome t s h t h'

theorem Called.outcome {t' : Table} (called : t.Called s h t' h') : t.Outcome s h t' h' := by
  cases called with
  | kept fields binding server => exact .kept binding server
  | extended _ _ _ _ binding => exact .kept binding rfl
  | created bindable made _ binding =>
    obtain ⟨file, opens⟩ := Host.createTable_opens made
    exact .bound bindable opens binding
  | stored bindable opened _ _ binding =>
    obtain ⟨file, opens⟩ := Host.openTable_opens opened
    exact .bound bindable opens binding
  | returned opened =>
    obtain ⟨file, opens⟩ := Host.openTable_opens opened
    exact .returned opens rfl

end Table

theorem Record.checkBound_eq_ok {r : Record} : r.checkBound t s = .ok () ↔
    ∃ b, t.live? s = some b ∧ b.handle = r.handle := by
  unfold Record.checkBound Table.handle
  cases t.live? s with
  | none => simp
  | some b => by_cases hb : b.handle = r.handle <;> simp [hb]

/-! What calls do to the handles of sessions and of rows. -/

namespace Session

theorem Outcome.keeps_connection {s' : Session Host} {c : ConnectionId}
    (outcome : s.Outcome h s' h') (registered : h.server.Registered)
    (hc : s.connection = some c) (live : c ∈ h'.server.connections) : s'.connection = some c := by
  cases outcome with
  | kept connection => exact connection.trans hc
  | loggedOn inactive =>
    rw [inactive] at hc
    cases hc
  | loggedOut connection lockMode left =>
    rw [hc] at left
    have hgone := Host.gone_after_disconnect registered c
    rw [left] at live
    exact absurd live hgone
  | locked active kind connection => exact connection.trans hc
  | unlocked active connection => exact connection.trans hc

theorem Outcome.connection_old {s' : Session Host} {c : ConnectionId}
    (outcome : s.Outcome h s' h') (hc : s'.connection = some c) (given : c < h.server.nextId) :
    s.connection = some c := by
  cases outcome with
  | kept connection => exact connection.symm.trans hc
  | loggedOn _ connection =>
    rw [connection] at hc
    cases hc
    exact absurd given (Nat.lt_irrefl _)
  | loggedOut connection =>
    rw [connection] at hc
    cases hc
  | locked _ _ connection => exact connection.symm.trans hc
  | unlocked _ connection => exact connection.symm.trans hc

theorem Outcome.handles {s' : Session Host} {k : HandleId} (outcome : s.Outcome h s' h')
    (registered : h.server.Registered) : get? h'.server.handles k = some x ↔
      get? h.server.handles k = some x ∧ x.connection ∈ h'.server.connections := by
  have same (hh : h'.server.handles = h.server.handles)
      (hc : ∀ c ∈ h.server.connections, c ∈ h'.server.connections) :
      get? h'.server.handles k = some x ↔
        get? h.server.handles k = some x ∧ x.connection ∈ h'.server.connections := by
    rw [hh]
    exact ⟨fun hx => ⟨hx, hc _ (registered.live hx)⟩, fun hx => hx.1⟩
  cases outcome with
  | kept | locked | unlocked => exact same rfl fun _ hc => hc
  | loggedOn => exact same rfl fun _ hc => List.mem_append_left _ hc
  | loggedOut _ _ left =>
    split at left
    · rw [left] at same ⊢
      exact same rfl fun _ hc => hc
    · rename_i c _
      by_cases hc : c ∈ h.server.connections
      · have hleft := registered.left_disconnect hc
        simp only [left, hleft.handles, hleft.connections, List.mem_filter, bne_iff_ne]
        exact ⟨fun hx => ⟨hx.1, registered.live hx.1, hx.2⟩, fun hx => ⟨hx.1, hx.2.2⟩⟩
      · rw [Server.disconnect_of_not_mem hc] at left
        rw [left] at same ⊢
        exact same rfl fun _ hc => hc

end Session

theorem Effect.sameHandles {q : Request} (e : Effect h q h') (hq : q.OnRows) :
    h'.server.handles = h.server.handles := by
  cases e with
  | unchanged | wrote | deleted | rowLocked | rowUnlocked => rfl
  | connected | disconnected | created | joined | loaded | closed | locked => exact hq.elim
  | unlocked asked => rcases asked with rfl | rfl <;> exact hq.elim

theorem Host.Reaches.sameHandles (r : h.Reaches (Event.On Request.OnRows) h') (sane : h.Sane) :
    h'.server.handles = h.server.handles :=
  r.keeps_calls (R := fun g => g.server.handles = h.server.handles) sane
    (fun g q hq _ same => ((g.perform_effect q).sameHandles hq).trans same) rfl

theorem Host.Reaches.outlives {P : Request → Prop} (r : h.Reaches (Event.On P) h') (sane : h.Sane) :
    h.server.Outlives h'.server :=
  r.keeps_calls (R := fun g => h.server.Outlives g.server) sane
    (fun g q _ sane outlives => outlives.trans ((g.perform_effect q).outlives sane.registered))
    (.refl _)

namespace Workspace

variable {w w' : Workspace Host} {n m o : String} {b : Binding}

def binding? (w : Workspace Host) (n : String) : Option (String × Binding) :=
  (get? w.tables n).bind fun (owner, t) => t.binding.map (owner, ·)

structure Tied (w : Workspace Host) : Prop where
  handle_given : ∀ {n o b}, w.binding? n = some (o, b) → b.handle < w.state.server.nextId
  connection_given : ∀ {n o b}, w.binding? n = some (o, b) →
    b.connection < w.state.server.nextId
  kept : ∀ {n o b}, w.binding? n = some (o, b) → b.connection ∈ w.state.server.connections →
    w.connection? o = some b.connection
  named : ∀ {n o b x}, w.binding? n = some (o, b) →
    get? w.state.server.handles b.handle = some x → x.connection = b.connection ∧ x.mode = b.mode

/-- The handles of the engine are those of the live bindings, one each. -/
structure Binds (w : Workspace Host) : Prop extends Tied w where
  opened : ∀ {n o b}, w.binding? n = some (o, b) → w.connection? o = some b.connection →
    ∃ x, get? w.state.server.handles b.handle = some x
  alone : ∀ {n m o p a b}, w.binding? n = some (o, a) → w.binding? m = some (p, b) →
    a.handle = b.handle → n = m
  held : ∀ {id x}, get? w.state.server.handles id = some x →
    ∃ n o b, w.binding? n = some (o, b) ∧ b.handle = id

theorem binds_start (config : EngineConfig) (disk : Disk) : (start config disk).Binds where
  handle_given := nofun
  connection_given := nofun
  kept := nofun
  named := nofun
  opened := nofun
  alone := nofun
  held := nofun

theorem Tied.outlived (tied : w.Tied)
    (hb : ∀ {n o b}, w'.binding? n = some (o, b) → w.binding? n = some (o, b))
    (hc : ∀ {o c}, w.connection? o = some c → c ∈ w'.state.server.connections →
      w'.connection? o = some c)
    (outlives : w.state.server.Outlives w'.state.server) : w'.Tied where
  handle_given hn := Nat.lt_of_lt_of_le (tied.handle_given (hb hn)) outlives.nextId
  connection_given hn := Nat.lt_of_lt_of_le (tied.connection_given (hb hn)) outlives.nextId
  kept hn live := by
    have given := tied.connection_given (hb hn)
    exact hc (tied.kept (hb hn) (outlives.connections _ live given)) live
  named hn hx := tied.named (hb hn) (outlives.handles _ _ hx (tied.handle_given (hb hn)))

theorem Binds.of_sessions (binds : w.Binds) (accords' : w'.Accords)
    (hb : ∀ n, w'.binding? n = w.binding? n)
    (hc : ∀ {o c}, w.connection? o = some c → c ∈ w'.state.server.connections →
      w'.connection? o = some c)
    (hc' : ∀ {o c}, w'.connection? o = some c → c < w.state.server.nextId →
      w.connection? o = some c)
    (outlives : w.state.server.Outlives w'.state.server)
    (old : ∀ {k x}, get? w'.state.server.handles k = some x →
      get? w.state.server.handles k = some x)
    (new : ∀ {k x}, get? w.state.server.handles k = some x →
      x.connection ∈ w'.state.server.connections → get? w'.state.server.handles k = some x) :
    w'.Binds where
  toTied := binds.toTied.outlived (fun hn => hb _ ▸ hn) hc outlives
  opened {n o b} hn hlive := by
    rw [hb] at hn
    obtain ⟨x, hx⟩ := binds.opened hn (hc' hlive (binds.connection_given hn))
    refine ⟨x, new hx ?_⟩
    rw [(binds.named hn hx).1]
    exact accords'.active hlive
  alone hn hm heq := binds.alone (hb _ ▸ hn) (hb _ ▸ hm) heq
  held hx := by
    obtain ⟨n, o, b, hn, rfl⟩ := binds.held (old hx)
    exact ⟨n, o, b, (hb n).trans hn, rfl⟩

theorem Binds.unbound (binds : w.Binds)
    (hb : ∀ m, w'.binding? m = if n = m then none else w.binding? m)
    (hc : ∀ o, w'.connection? o = w.connection? o)
    (outlives : w.state.server.Outlives w'.state.server)
    (handles : ∀ k x, get? w'.state.server.handles k = some x ↔
      get? w.state.server.handles k = some x ∧ ∀ o b, w.binding? n = some (o, b) → b.handle ≠ k) :
    w'.Binds := by
  have others {m p : String} {a : Binding} (hm : w'.binding? m = some (p, a)) :
      n ≠ m ∧ w.binding? m = some (p, a) := by
    rw [hb] at hm
    split at hm
    · cases hm
    · rename_i hne
      exact ⟨hne, hm⟩
  constructor
  · exact binds.toTied.outlived (fun hm => (others hm).2) (fun hp _ => (hc _).trans hp) outlives
  · intro m p a hm hlive
    obtain ⟨hne, hm⟩ := others hm
    obtain ⟨x, hx⟩ := binds.opened hm (hc p ▸ hlive)
    refine ⟨x, (handles _ x).2 ⟨hx, fun o b hn heq => ?_⟩⟩
    exact hne (binds.alone hn hm heq)
  · intro m k p q a a' hm hk heq
    exact binds.alone (others hm).2 (others hk).2 heq
  · intro id x hx
    obtain ⟨hx, hid⟩ := (handles id x).1 hx
    obtain ⟨m, p, a, hm, rfl⟩ := binds.held hx
    refine ⟨m, p, a, ?_, rfl⟩
    rw [hb, if_neg]
    · exact hm
    · rintro rfl
      exact hid p a hm rfl

theorem Binds.bound (binds : w.Binds) (accords : w.Accords) (registered : w.state.server.Registered)
    {c : ConnectionId} {id : HandleId} {file : FileId} {mode : OpenMode}
    (hb : ∀ m, w'.binding? m = if n = m then some (o, ⟨c, id, mode⟩) else w.binding? m)
    (hc : ∀ o, w'.connection? o = w.connection? o) (active : w.connection? o = some c)
    (dead : ∀ p b, w.binding? n = some (p, b) → w.connection? p ≠ some b.connection)
    (opens : w.state.server.Opens id ⟨c, file, mode⟩ w'.state.server) : w'.Binds := by
  have cases {m p : String} {a : Binding} (hm : w'.binding? m = some (p, a)) :
      (n = m ∧ p = o ∧ a = ⟨c, id, mode⟩) ∨ (n ≠ m ∧ w.binding? m = some (p, a)) := by
    rw [hb] at hm
    split at hm
    · rename_i heq
      cases hm
      exact .inl ⟨heq, rfl, rfl⟩
    · rename_i hne
      exact .inr ⟨hne, hm⟩
  have fresh {m p : String} {a : Binding} (hm : w.binding? m = some (p, a)) : id ≠ a.handle :=
    Nat.ne_of_gt (Nat.lt_of_lt_of_le (binds.handle_given hm) opens.fresh)
  have later {k : Nat} (hk : k < w.state.server.nextId) : k < w'.state.server.nextId :=
    Nat.lt_of_lt_of_le hk (Nat.le_of_lt (Nat.lt_of_le_of_lt opens.fresh opens.given))
  refine ⟨⟨?_, ?_, ?_, ?_⟩, ?_, ?_, ?_⟩
  · intro m p a hm
    rcases cases hm with ⟨-, -, rfl⟩ | ⟨-, hm⟩
    · exact opens.given
    · exact later (binds.handle_given hm)
  · intro m p a hm
    rcases cases hm with ⟨-, -, rfl⟩ | ⟨-, hm⟩
    · exact later (registered.below c (List.mem_append_left _ (accords.active active)))
    · exact later (binds.connection_given hm)
  · intro m p a hm live
    rw [hc]
    rcases cases hm with ⟨-, rfl, rfl⟩ | ⟨-, hm⟩
    · exact active
    · exact binds.kept hm (opens.connections ▸ live)
  · intro m p a x hm hx
    rw [opens.handles] at hx
    rcases cases hm with ⟨-, -, rfl⟩ | ⟨-, hm⟩
    · rw [if_pos rfl] at hx
      cases hx
      exact ⟨rfl, rfl⟩
    · rw [if_neg (fresh hm)] at hx
      exact binds.named hm hx
  · intro m p a hm live
    rw [hc] at live
    rcases cases hm with ⟨-, -, rfl⟩ | ⟨-, hm⟩
    · exact ⟨_, (opens.handles id).trans (if_pos rfl)⟩
    · obtain ⟨x, hx⟩ := binds.opened hm live
      exact ⟨x, (opens.handles _).trans ((if_neg (fresh hm)).trans hx)⟩
  · intro m k p q a a' hm hk heq
    rcases cases hm with ⟨rfl, -, rfl⟩ | ⟨-, hm⟩ <;> rcases cases hk with ⟨rfl, -, rfl⟩ | ⟨-, hk⟩
    · rfl
    · exact absurd heq (fresh hk)
    · exact absurd heq.symm (fresh hm)
    · exact binds.alone hm hk heq
  · intro k x hx
    rw [opens.handles] at hx
    split at hx
    · rename_i hid
      exact ⟨n, o, ⟨c, id, mode⟩, (hb n).trans (if_pos rfl), hid⟩
    · obtain ⟨m, p, a, hm, rfl⟩ := binds.held hx
      refine ⟨m, p, a, ?_, rfl⟩
      rw [hb, if_neg]
      · exact hm
      · -- the binding that was there is dead, and its handle is not open
        rintro rfl
        apply dead p a hm
        apply binds.kept hm
        rw [← (binds.named hm hx).1]
        exact registered.live hx

theorem Binds.of_same (binds : w.Binds) (accords' : w'.Accords)
    (hb : ∀ n, w'.binding? n = w.binding? n) (hc : ∀ o, w'.connection? o = w.connection? o)
    (outlives : w.state.server.Outlives w'.state.server)
    (handles : ∀ k, get? w'.state.server.handles k = get? w.state.server.handles k) : w'.Binds :=
  binds.of_sessions accords' hb (fun hp _ => (hc _).trans hp) (fun hp _ => hc _ ▸ hp) outlives
    (fun hx => handles _ ▸ hx) (fun hx _ => (handles _).trans hx)

theorem connection?_old {s s' : Session Host} {h' : Host} {c : ConnectionId}
    (found : w.session? n = some s) (outcome : s.Outcome w.state s' h')
    (hc : ∀ m, w'.connection? m = if n = m then s'.connection else w.connection? m)
    (ho : w'.connection? o = some c) (given : c < w.state.server.nextId) :
    w.connection? o = some c := by
  rw [hc] at ho
  split at ho
  · rename_i heq
    rw [← heq, connection?, found]
    exact outcome.connection_old ho given
  · exact ho

theorem Binds.after_session (binds : w.Binds) (accords' : w'.Accords) (standing : w.Standing)
    {s s' : Session Host} (found : w.session? n = some s) (outcome : s.Outcome w.state s' w'.state)
    (hb : ∀ n, w'.binding? n = w.binding? n)
    (hc : ∀ m, w'.connection? m = if n = m then s'.connection else w.connection? m)
    (outlives : w.state.server.Outlives w'.state.server) : w'.Binds := by
  have registered := standing.sane.registered
  refine binds.of_sessions accords' hb ?_ (connection?_old found outcome hc) outlives ?_ ?_
  · intro o c ho live
    rw [hc]
    split
    · rename_i heq
      rw [← heq, connection?, found] at ho
      exact outcome.keeps_connection registered ho live
    · exact ho
  · intro k x hx
    exact ((outcome.handles registered).1 hx).1
  · intro k x hx live
    exact (outcome.handles registered).2 ⟨hx, live⟩

theorem binding?_set {tables : FiniteMap String (String × Table)} {t : Table} :
    (get? (set tables n (o, t)) m).bind (fun e => e.2.binding.map (e.1, ·)) =
      if n = m then t.binding.map (o, ·)
      else (get? tables m).bind fun e => e.2.binding.map (e.1, ·) := by
  rw [get?_set]
  split <;> rfl

theorem Binds.after_table (binds : w.Binds) (accords : w.Accords) (standing : w.Standing)
    {t t' : Table} {s : Session Host} {h' : Host} (entry : get? w.tables n = some (o, t))
    (found : w.session? o = some s) (outcome : t.Outcome s w.state t' h')
    (accords' : Accords { w with state := h', tables := set w.tables n (o, t') })
    (outlives : w.state.server.Outlives h'.server) :
    Binds { w with state := h', tables := set w.tables n (o, t') } := by
  have hn : w.binding? n = t.binding.map (o, ·) := by
    rw [binding?, entry]
    rfl
  have hb (m : String) : binding? { w with state := h', tables := set w.tables n (o, t') } m =
      if n = m then t'.binding.map (o, ·) else w.binding? m := binding?_set
  have hsame (binding : t'.binding = t.binding) (m : String) :
      binding? { w with state := h', tables := set w.tables n (o, t') } m = w.binding? m := by
    rw [hb, binding, ← hn]
    split
    · rename_i heq
      rw [heq]
    · rfl
  cases outcome with
  | kept binding server =>
    exact binds.of_same accords' (hsame binding) (fun _ => rfl) outlives fun k => by
      simp only [server]
  | @bound t' h' c id file mode bindable opens binding =>
    rw [binding] at hb
    refine binds.bound accords standing.sane.registered hb (fun _ => rfl) ?_ ?_ opens
    · rw [connection?, found]
      exact bindable.active
    · intro p b hp
      rw [hn] at hp
      obtain ⟨b, hbound, ⟨⟩⟩ := Option.map_eq_some_iff.1 hp
      intro live
      rw [connection?, found] at live
      have halive := Table.live?_eq_some.2 ⟨hbound, live⟩
      rw [bindable.unbound] at halive
      cases halive
  | @returned h' id x g opens server =>
    refine binds.of_same accords' (hsame rfl) (fun _ => rfl) outlives fun k => ?_
    simp only [server, Server.get?_handles_close, opens.handles]
    split
    · -- the handle that was given back is a new one
      rename_i hid
      cases hk : get? w.state.server.handles k with
      | none => rfl
      | some y =>
        have given := standing.sane.registered.handle_lt hk
        exact absurd opens.fresh (Nat.not_le_of_lt (hid ▸ given))
    · rfl

theorem Binds.after_close (binds : w.Binds) (standing : w.Standing) {t : Table}
    {s : Session Host} (entry : get? w.tables n = some (o, t))
    (found : w.session? o = some s)
    (hb : ∀ m, w'.binding? m = if n = m then none else w.binding? m)
    (hc : ∀ o, w'.connection? o = w.connection? o) (closed : w'.state = (t.close s w.state).2.2) :
    w'.Binds := by
  have hn : w.binding? n = t.binding.map (o, ·) := by
    rw [binding?, entry]
    rfl
  rw [t.close_eq (standing.hosted found)] at closed
  cases ht : t.binding with
  | none =>
    rw [ht] at closed hn
    refine binds.unbound hb hc (closed ▸ .refl _) fun k x => ?_
    simp [closed, hn]
  | some b =>
    rw [ht] at closed hn
    refine binds.unbound hb hc ?_ fun k x => ?_
    · rw [closed]
      exact Server.outlives_close b.handle
    · simp only [closed, Server.get?_handles_close, hn]
      by_cases hk : b.handle = k <;> simp [hk]

theorem Change.binds (change : w.Change w') (standing : w.Standing) (accords : w.Accords)
    (binds : w.Binds) : w'.Binds := by
  have accords' := change.accords standing accords
  cases change with
  | @session n s call found =>
    have reaches := Session.call_reaches (standing.hosted found) call w.state
    exact binds.after_session accords' standing found
      (Session.call_outcome (standing.hosted found) call w.state) (fun _ => rfl)
      (fun _ => connection?_set) (reaches.outlives standing.sane)
  | @sessionDropped n s found =>
    have reaches := Session.call_reaches (standing.hosted found) .logout w.state
    refine binds.after_session accords' standing found
      (Session.logout_outcome (standing.hosted found) w.state) (fun _ => rfl) (fun m => ?_)
      (reaches.outlives standing.sane)
    rw [Session.logout_connection, connection?, session?, get?_erase]
    split <;> rfl
  | @sessionAdded n config vacant =>
    refine binds.of_same accords' (fun _ => rfl) (fun m => ?_) (.refl _) fun _ => rfl
    exact connection?_added vacant
  | @table n o t s call entry found =>
    have reaches := t.call_reaches (standing.hosted found) call w.state
    exact binds.after_table accords standing entry found
      (t.called (standing.hosted found) call w.state).outcome accords'
      (reaches.outlives standing.sane)
  | @closed n o t s entry found =>
    refine binds.after_close standing entry found (fun m => ?_) (fun _ => rfl) rfl
    rw [t.close_eq (standing.hosted found)]
    exact binding?_set
  | @tableDropped n o t s entry found =>
    refine binds.after_close standing entry found (fun m => ?_) (fun _ => rfl) rfl
    simp only [binding?, get?_erase]
    split <;> rfl
  | @tableAdded n p vacant =>
    refine binds.unbound (fun _ => binding?_set) (fun _ => rfl) (.refl _) fun k x => ?_
    refine ⟨fun hx => ⟨hx, ?_⟩, fun hx => hx.1⟩
    rintro o b hn rfl
    -- the binding of a table without its session would be dead
    have live := standing.sane.registered.live hx
    rw [(binds.named hn hx).1] at live
    obtain ⟨s, found, -⟩ := connection?_eq_some.1 (binds.kept hn live)
    obtain ⟨⟨_, t⟩, entry, hn⟩ := Option.bind_eq_some_iff.1 hn
    obtain ⟨_, -, heq⟩ := Option.map_eq_some_iff.1 hn
    cases heq
    rw [table?_eq_some.2 ⟨o, entry, found⟩] at vacant
    cases vacant
  | recordAdded | recordDropped | device =>
    exact binds.of_same accords' (fun _ => rfl) (fun _ => rfl) (.refl _) fun _ => rfl
  | @record name table r t s call entry found =>
    obtain ⟨owner, -, found⟩ := table?_eq_some.1 found
    have reaches := r.call_reaches t (standing.hosted found) call w.state
    exact binds.of_same accords' (fun _ => rfl) (fun _ => rfl) (reaches.outlives standing.sane)
      fun k => by simp only [reaches.sameHandles standing.sane]
  | restarted config => exact binds_start config w.state.disk

theorem binds_run (config : EngineConfig) (disk : Disk) (as : List Act) :
    ((start config disk).run as).Standing ∧ ((start config disk).run as).Binds := by
  -- which handles go with a session depends on the connection that it has
  have step {w w' : Workspace Host} (change : w.Change w') (standing : w.Standing)
      (kept : w.Accords ∧ w.Binds) : w'.Accords ∧ w'.Binds :=
    ⟨change.accords standing kept.1, change.binds standing kept.1 kept.2⟩
  obtain ⟨standing, -, binds⟩ :=
    run_standing config disk as ⟨accords_start config disk, binds_start config disk⟩ step
  exact ⟨standing, binds⟩

theorem binding?_eq_some : w.binding? n = some (o, b) ↔
    ∃ t, get? w.tables n = some (o, t) ∧ t.binding = some b := by
  constructor
  · intro hn
    obtain ⟨⟨_, t⟩, entry, hn⟩ := Option.bind_eq_some_iff.1 hn
    obtain ⟨_, hb, heq⟩ := Option.map_eq_some_iff.1 hn
    cases heq
    exact ⟨t, entry, hb⟩
  · rintro ⟨t, entry, hb⟩
    simp [binding?, entry, hb]

variable {t : Table} {s : Session Host}

theorem Binds.registered (binds : w.Binds) (found : w.table? n = some (t, s))
    (live : t.live? s = some b) :
    ∃ file, get? w.state.server.handles b.handle = some ⟨b.connection, file, b.mode⟩ := by
  obtain ⟨o, entry, found⟩ := table?_eq_some.1 found
  obtain ⟨hb, hc⟩ := Table.live?_eq_some.1 live
  have hn := binding?_eq_some.2 ⟨t, entry, hb⟩
  obtain ⟨x, hx⟩ := binds.opened hn (connection?_eq_some.2 ⟨s, found, hc⟩)
  obtain ⟨hconnection, hmode⟩ := binds.named hn hx
  refine ⟨x.file, ?_⟩
  rw [← hconnection, ← hmode]
  exact hx

theorem Binds.closed (binds : w.Binds) (standing : w.Standing) (found : w.table? n = some (t, s))
    (dead : t.live? s = none) (hb : t.binding = some b) :
    get? w.state.server.handles b.handle = none := by
  obtain ⟨o, entry, found⟩ := table?_eq_some.1 found
  have hn := binding?_eq_some.2 ⟨t, entry, hb⟩
  cases hx : get? w.state.server.handles b.handle with
  | none => rfl
  | some x =>
    have live := standing.sane.registered.live hx
    rw [(binds.named hn hx).1] at live
    obtain ⟨u, hu, hc⟩ := connection?_eq_some.1 (binds.kept hn live)
    rw [found] at hu
    cases hu
    rw [Table.live?_eq_some.2 ⟨hb, hc⟩] at dead
    cases dead

theorem Binds.close_state (binds : w.Binds) (standing : w.Standing)
    (found : w.table? n = some (t, s)) (dead : t.live? s = none) :
    (t.close s w.state).2.2 = w.state := by
  obtain ⟨o, -, hs⟩ := table?_eq_some.1 found
  rw [t.close_eq (standing.hosted hs)]
  cases hb : t.binding with
  | none => rfl
  | some b =>
    simp only
    rw [Server.close_of_closed (binds.closed standing found dead hb)]

end Workspace
end Isam
