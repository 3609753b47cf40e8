import Isam.Proofs.Server.Registered
namespace Isam

open FiniteMap

namespace Server

variable {s t u : Server} {c : ConnectionId} {p : TablePath} {file : FileId} {mode : OpenMode}

def filePath? (s : Server) (n : FileId) : Option TablePath := (get? s.files n).map (·.path)

theorem filePath?_eq_some {n : FileId} :
    s.filePath? n = some p ↔ ∃ i, get? s.files n = some ⟨p, i⟩ := by
  simp only [filePath?, Option.map_eq_some_iff]
  constructor
  · rintro ⟨⟨p', i⟩, hf, rfl⟩
    exact ⟨i, hf⟩
  · rintro ⟨i, hi⟩
    exact ⟨_, hi, rfl⟩

structure RegistryExact (s : Server) : Prop where
  handle_iff : ∀ id p n, (∃ x, get? s.handles id = some x ∧ x.file = n ∧ s.filePath? n = some p) ↔
    ∃ r, get? s.registry p = some r ∧ r.file = n ∧ id ∈ r.handles
  placed : ∀ id x, get? s.handles id = some x → ∃ p, s.filePath? x.file = some p
  occupied : ∀ p r, get? s.registry p = some r → r.handles ≠ []
  live : ∀ id x, get? s.handles id = some x → x.connection ∈ s.connections
  shared : ∀ id k x y f g, s.opened id = .ok (x, f) → s.opened k = .ok (y, g) →
    f.path = g.path → x.file = y.file ∧ f.image = g.image
  exclusive_iff : ∀ p r, get? s.registry p = some r → (r.exclusive = true ↔
    ∃ id ∈ r.handles, ∃ x, get? s.handles id = some x ∧ x.mode = .exclusive)
  exclusive_alone : ∀ p r, get? s.registry p = some r → r.exclusive = true →
    ∃ id, r.handles = [id]
  distinct : s.ids.Nodup
  below : ∀ n ∈ s.ids, n < s.nextId

theorem Consistent.handle_iff (h : s.Consistent) (id : HandleId) (p : TablePath) (n : FileId) :
    (∃ x, get? s.handles id = some x ∧ x.file = n ∧ s.filePath? n = some p) ↔
      ∃ r, get? s.registry p = some r ∧ r.file = n ∧ id ∈ r.handles := by
  constructor
  · rintro ⟨x, hx, rfl, hl⟩
    obtain ⟨i, hi⟩ := filePath?_eq_some.1 hl
    obtain ⟨f, r, hf, hr, hn, hid⟩ := h.handle hx
    rw [hi] at hf
    cases hf
    exact ⟨r, hr, hn, hid⟩
  · rintro ⟨r, hr, rfl, hid⟩
    obtain ⟨x, hx, hn⟩ := (h.registration hr).handles id hid
    exact ⟨x, hx, hn, filePath?_eq_some.2 (h.registration hr).file⟩

theorem Registered.registryExact (h : s.Registered) : s.RegistryExact where
  handle_iff := h.toConsistent.handle_iff
  placed id x hx := by
    obtain ⟨f, r, hf, -⟩ := h.handle hx
    exact ⟨f.path, filePath?_eq_some.2 ⟨f.image, hf⟩⟩
  occupied p r hr := (h.registration hr).occupied
  live id x hx := h.live hx
  shared id k x y f g hf hg hl := by
    have hf := (opened_eq_ok.1 hf).2
    have hg := (opened_eq_ok.1 hg).2
    have hfile := h.file_eq hf hg hl
    rw [hfile, hg] at hf
    cases hf
    exact ⟨hfile, rfl⟩
  exclusive_iff p r hr := by
    constructor
    · intro hm
      obtain ⟨id, x, hid, hx, hmode⟩ := (h.registration hr).alone hm
      exact ⟨id, hid ▸ List.mem_singleton_self id, x, hx, hmode⟩
    · rintro ⟨id, hid, x, hx, hmode⟩
      exact (h.registration hr).marked id hid x hx hmode
  exclusive_alone p r hr hm := by
    obtain ⟨id, x, hid, -⟩ := (h.registration hr).alone hm
    exact ⟨id, hid⟩
  distinct := h.distinct
  below := h.below

/-- Of the numbers that one server has given away, a later one uses only those still in use, each for
what it was used for. -/
structure Outlives (s t : Server) : Prop where
  nextId : s.nextId ≤ t.nextId
  connections : ∀ c ∈ t.connections, c < s.nextId → c ∈ s.connections
  handles : ∀ id x, get? t.handles id = some x → id < s.nextId → get? s.handles id = some x
  files : ∀ n f, get? t.files n = some f → n < s.nextId → s.filePath? n = some f.path

theorem Outlives.refl (s : Server) : s.Outlives s :=
  ⟨Nat.le_refl _, fun _ h _ => h, fun _ _ h _ => h,
    fun _ f h _ => filePath?_eq_some.2 ⟨f.image, h⟩⟩

theorem Outlives.trans (h : s.Outlives t) (k : t.Outlives u) : s.Outlives u where
  nextId := Nat.le_trans h.nextId k.nextId
  connections c hc hlt := h.connections c (k.connections c hc (Nat.lt_of_lt_of_le hlt h.nextId)) hlt
  handles id x hx hlt := h.handles id x (k.handles id x hx (Nat.lt_of_lt_of_le hlt h.nextId)) hlt
  files n f hf hlt := by
    obtain ⟨i, hi⟩ := filePath?_eq_some.1 (k.files n f hf (Nat.lt_of_lt_of_le hlt h.nextId))
    exact h.files n ⟨f.path, i⟩ hi hlt

theorem Outlives.stays_closed (outlives : s.Outlives t) {id : HandleId} (given : id < s.nextId)
    (closed : get? s.handles id = none) : get? t.handles id = none := by
  cases hx : get? t.handles id with
  | none => rfl
  | some x =>
    have hold := outlives.handles id x hx given
    rw [closed] at hold
    cases hold

theorem Outlives.with_locks (h : s.Outlives t) (locks : LockTable) :
    s.Outlives { t with locks } :=
  ⟨h.nextId, h.connections, h.handles, h.files⟩

theorem outlives_register : s.Outlives (s.register c p file mode).2 where
  nextId := Nat.le_succ _
  connections _ hc _ := hc
  handles id x hx hlt := by
    rwa [get?_handles_register, if_neg (Nat.ne_of_gt hlt)] at hx
  files n f hf _ := filePath?_eq_some.2 ⟨f.image, hf⟩

theorem outlives_withFile (i : Image) : s.Outlives (s.withFile p i) where
  nextId := Nat.le_succ _
  connections _ hc _ := hc
  handles _ _ hx _ := hx
  files n f hf hlt := by
    rw [withFile, get?_set_ne _ _ (Nat.ne_of_gt hlt)] at hf
    exact filePath?_eq_some.2 ⟨f.image, hf⟩

theorem outlives_setImage {f : OpenFile} (hf : get? s.files file = some f) (i : Image) :
    s.Outlives (s.setImage file f i) where
  nextId := Nat.le_refl _
  connections _ hc _ := hc
  handles _ _ hx _ := hx
  files n g hg _ := by
    rcases get?_files_of_setImage hg with ⟨rfl, rfl⟩ | hg
    · exact filePath?_eq_some.2 ⟨f.image, hf⟩
    · exact filePath?_eq_some.2 ⟨g.image, hg⟩

theorem outlives_close (id : HandleId) : s.Outlives (s.close id) where
  nextId := Nat.le_of_eq (close_nextId s id).symm
  connections c hc _ := close_connections s id ▸ hc
  handles k x hx _ := by
    rw [get?_handles_close] at hx
    split at hx
    · cases hx
    · exact hx
  files n f hf _ := filePath?_eq_some.2 ⟨f.image, get?_files_of_close hf⟩

theorem Consistent.outlives_disconnect (h : s.Consistent) (c : ConnectionId) :
    s.Outlives (s.disconnect c) := by
  by_cases hc : c ∈ s.connections
  · have hl := h.left_disconnect hc
    refine ⟨Nat.le_of_eq hl.nextId.symm, ?_, ?_, ?_⟩
    · intro d hd _
      exact (List.mem_filter.1 (hl.connections ▸ hd)).1
    · intro id x hx _
      exact ((hl.handles id x).1 hx).1
    · intro n f hf _
      exact filePath?_eq_some.2 ⟨f.image, hl.files n f hf⟩
  · rw [disconnect_of_not_mem hc]
    exact .refl s

end Server

open Server

theorem Effect.outlives {h h' : Host} {r : Request} (e : Effect h r h')
    (inv : h.server.Registered) : h.server.Outlives h'.server := by
  cases e with
  | unchanged => exact .refl _
  | connected =>
    refine ⟨Nat.le_succ _, ?_, fun _ _ hx _ => hx,
      fun _ f hf _ => filePath?_eq_some.2 ⟨f.image, hf⟩⟩
    intro c hc hlt
    rcases List.mem_append.1 hc with hc | hc
    · exact hc
    · exact absurd (List.mem_singleton.1 hc) (Nat.ne_of_lt hlt)
  | disconnected c => exact inv.outlives_disconnect c
  | created | loaded => exact (outlives_withFile _).trans outlives_register
  | joined => exact outlives_register
  | closed id => exact outlives_close id
  | wrote allowed => exact outlives_setImage allowed.file _
  | deleted allowed => exact outlives_setImage allowed.file _
  | locked | unlocked | rowLocked | rowUnlocked => exact (Outlives.refl _).with_locks _

namespace Host

theorem outlives_run {h : Host} (inv : h.server.Registered) (es : List Event)
    (hes : ∀ e ∈ es, e.isRestart = false) : h.server.Outlives (h.run es).server := by
  induction es generalizing h with
  | nil => exact .refl _
  | cons e es ih =>
    have hrest := ih (registered_next inv e) fun e' he' => hes e' (List.mem_cons_of_mem _ he')
    refine Outlives.trans ?_ hrest
    cases e with
    | call r => exact (h.perform_effect r).outlives inv
    | device => exact .refl _
    | restart config => cases hes _ List.mem_cons_self

theorem connect_ok {h h' : Host} {endpoint : String} {k : Credentials} {c : ConnectionId}
    (connected : engine.connect endpoint k h = (.ok c, h')) :
    c = h.server.nextId ∧ c ∈ h'.server.connections := by
  simp only [engine, served] at connected
  rcases h.server.connect_cases endpoint k with ⟨e, hrefused⟩ | hconnected
  · rw [hrefused] at connected
    cases connected
  · rw [hconnected] at connected
    cases connected
    exact ⟨rfl, List.mem_append_right _ List.mem_cons_self⟩

theorem openTable_ok {h h' : Host} {c : ConnectionId} {a : TableAddress} {m : OpenMode}
    {id : HandleId} (inv : h.server.Registered) (ho : h.openTable c a m = (.ok id, h')) :
    h.server.nextId ≤ id ∧ ∃ n, get? h'.server.handles id = some ⟨c, n, m⟩ ∧
      h'.server.filePath? n = some (h.disk.resolve (h.server.path a)) ∧
      (∀ r, get? h.server.registry (h.disk.resolve (h.server.path a)) = some r → n = r.file) ∧
      (get? h.server.registry (h.disk.resolve (h.server.path a)) = none → h.server.nextId ≤ n) := by
  cases Effect.openTable_opened ho with
  | @joined r _ found =>
    refine ⟨Nat.le_refl _, r.file, get?_set_self _ _ _,
      filePath?_eq_some.2 (inv.registration found).file, ?_, ?_⟩
    · intro r' hr'
      rw [found] at hr'
      cases hr'
      rfl
    · intro free
      rw [found] at free
      cases free
  | @loaded p i _ _ _ known free =>
    rw [Disk.resolve_of_key? known]
    refine ⟨Nat.le_succ _, h.server.nextId, get?_set_self _ _ _,
      filePath?_eq_some.2 ⟨i, get?_set_self _ _ _⟩, ?_, fun _ => Nat.le_refl _⟩
    intro r' hr'
    rw [free] at hr'
    cases hr'

theorem createTable_ok {h h' : Host} {c : ConnectionId} {a : TableAddress} {t : Schema}
    {m : CreateMode} {id : HandleId} (ho : h.createTable c a t m = (.ok id, h')) :
    h.server.nextId ≤ id ∧ ∃ n p, h.server.nextId ≤ n ∧
      get? h'.server.handles id = some ⟨c, n, .normal⟩ ∧ h'.server.filePath? n = some p ∧
      h'.disk.key? (h.server.path a) = some p ∧ get? h.server.registry p = none := by
  obtain ⟨p, d, rfl, rfl, -, known, free, -⟩ := Effect.createTable_made ho
  exact ⟨Nat.le_succ _, h.server.nextId, p, Nat.le_refl _, get?_set_self _ _ _,
    filePath?_eq_some.2 ⟨.ofSchema t.numbered, get?_set_self _ _ _⟩, known, free⟩

def Addressed (h : Host) : Prop :=
  ∀ n f, get? h.server.files n = some f → ∃ p, h.disk.key? p = some f.path

theorem addressed_next {h : Host} (inv : h.server.Registered) (addressed : h.Addressed) (e : Event) :
    (h.next e).Addressed := by
  have old (n : FileId) (f : OpenFile) (hf : get? h.server.files n = some f) :
      ∃ p, (h.next e).disk.key? p = some f.path := by
    obtain ⟨p, hp⟩ := addressed n f hf
    exact ⟨p, (directories_run h [e]).key? hp⟩
  cases e with
  | call r =>
    intro n f hf
    exact (h.perform_effect r).opened_at (P := fun k => ∃ p, (h.perform r).disk.key? p = some k)
      inv old (fun a k hk => ⟨h.server.path a, hk⟩) hf
  | device => exact old
  | restart => exact fun _ _ hf => nomatch hf

theorem addressed_run (config : EngineConfig) (disk : Disk) (es : List Event) :
    ((start config disk).run es).Addressed :=
  run_registered config disk es (fun _ _ hf => nomatch hf) fun _ e inv addressed =>
    addressed_next inv addressed e

theorem resolve_run {h : Host} {p : Path} {k : TablePath} {n : FileId} (addressed : h.Addressed)
    (hk : h.server.filePath? n = some k) (hp : h.disk.resolve p = k) (es : List Event) :
    (h.run es).disk.resolve p = k := by
  obtain ⟨i, hi⟩ := filePath?_eq_some.1 hk
  obtain ⟨q, hq⟩ := addressed n ⟨k, i⟩ hi
  exact (directories_run h es).resolve hq hp

/-- In every state that calls of any connections lead to, handles and registry describe each other
exactly, an exclusive handle is alone on its file, and numbers are distinct. Tables are opened and
created under the paths their addresses resolve to, which stay the same as long as they are open.
Every number that is given away is new, and never comes to mean anything else while the engine runs. -/
theorem registry_exact (config : EngineConfig) (disk : Disk) (es : List Event) :
    let h := (start config disk).run es
    h.server.RegistryExact ∧
    (∀ endpoint k c h', engine.connect endpoint k h = (.ok c, h') →
      h.server.nextId ≤ c ∧ c ∈ h'.server.connections) ∧
    (∀ c a m id h', h.openTable c a m = (.ok id, h') → h.server.nextId ≤ id ∧
      ∃ n, get? h'.server.handles id = some ⟨c, n, m⟩ ∧
        h'.server.filePath? n = some (h.disk.resolve (h.server.path a)) ∧
        (∀ r, get? h.server.registry (h.disk.resolve (h.server.path a)) = some r → n = r.file) ∧
        (get? h.server.registry (h.disk.resolve (h.server.path a)) = none →
          h.server.nextId ≤ n)) ∧
    (∀ c a t m id h', h.createTable c a t m = (.ok id, h') → h.server.nextId ≤ id ∧
      ∃ n p, h.server.nextId ≤ n ∧ get? h'.server.handles id = some ⟨c, n, .normal⟩ ∧
        h'.server.filePath? n = some p ∧ h'.disk.key? (h.server.path a) = some p ∧
        get? h.server.registry p = none) ∧
    (∀ n k p, h.server.filePath? n = some k → h.disk.resolve p = k →
      ∀ fs, (h.run fs).disk.resolve p = k) ∧
    ∀ fs : List Event, (∀ e ∈ fs, e.isRestart = false) →
      h.server.Outlives (h.run fs).server := by
  intro h
  have inv : h.server.Registered := registered_run config disk es
  have addressed : h.Addressed := addressed_run config disk es
  refine ⟨inv.registryExact, ?_, ?_, ?_, ?_, fun fs hfs => outlives_run inv fs hfs⟩
  · intro endpoint k c h' connected
    obtain ⟨rfl, live⟩ := connect_ok connected
    exact ⟨Nat.le_refl _, live⟩
  · intro c a m id h' ho
    exact openTable_ok inv ho
  · intro c a t m id h' ho
    exact createTable_ok ho
  · intro n k p hk hp fs
    exact resolve_run addressed hk hp fs

end Host
end Isam
