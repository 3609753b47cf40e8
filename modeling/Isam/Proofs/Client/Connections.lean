import Isam.Proofs.Client.Requests
import Isam.Proofs.Server.Failures
namespace Isam

open FiniteMap

variable {h h' : Host} {s : Session Host}

theorem Server.Guarded.holds?_close_session {s : Server} (guarded : s.Guarded) (hs : s.Numbered)
    (id : HandleId) (o : ConnectionId) :
    (s.close id).locks.holds? o .session = s.locks.holds? o .session := by
  cases hx : get? s.handles id with
  | none => rw [Server.close_of_closed hx]
  | some x =>
    by_cases beside : s.OpenBeside id x
    · rw [Server.locks_close_beside hs hx beside]
    · rw [guarded.holds?_close_last hs hx beside, if_neg fun h => Bool.false_ne_true h.2]

structure Host.SameSessions (h h' : Host) : Prop where
  connections : h'.server.connections = h.server.connections
  holds : ∀ o, h'.server.locks.holds? o .session = h.server.locks.holds? o .session

theorem Effect.sameSessions {q : Request} (e : Effect h q h') (sane : h.Sane) (hq : q.OnTables) :
    h.SameSessions h' := by
  cases e with
  | unchanged | created | joined | loaded | wrote | deleted => exact ⟨rfl, fun _ => rfl⟩
  | connected | disconnected | locked => exact hq.elim
  | unlocked asked => rcases asked with rfl | rfl <;> exact hq.elim
  | closed id =>
    exact ⟨Server.close_connections _ id,
      fun o => sane.guarded.holds?_close_session sane.registered.toNumbered id o⟩
  | rowLocked =>
    refine ⟨rfl, fun o => ?_⟩
    rw [LockTable.holds?_grant, if_neg fun h => LockResource.noConfusion h.2]
  | rowUnlocked =>
    refine ⟨rfl, fun o => ?_⟩
    rw [LockTable.holds?_release, if_neg fun h => LockResource.noConfusion h.2]

theorem Host.Reaches.sameSessions {P : Request → Prop} (r : h.Reaches (Event.On P) h')
    (sane : h.Sane) (hP : ∀ q, P q → q.OnTables) : h.SameSessions h' := by
  refine r.keeps_calls (R := h.SameSessions) sane (fun g q hq sane same => ?_) ⟨rfl, fun _ => rfl⟩
  have same' := (g.perform_effect q).sameSessions sane (hP q hq)
  exact ⟨same'.connections.trans same.connections, fun o => (same'.holds o).trans (same.holds o)⟩

namespace Session

inductive Outcome (s : Session Host) (h : Host) : Session Host → Host → Prop
  | kept {s' : Session Host} (connection : s'.connection = s.connection)
    (lockMode : s'.lockMode = s.lockMode) : Outcome s h s' h
  | loggedOn {s' : Session Host} (inactive : s.connection = none)
    (connection : s'.connection = some h.server.nextId) (lockMode : s'.lockMode = none) :
    Outcome s h s' { h with server := { h.server with
      nextId := h.server.nextId + 1
      connections := h.server.connections ++ [h.server.nextId] } }
  | loggedOut {s' : Session Host} {h' : Host} (connection : s'.connection = none)
    (lockMode : s'.lockMode = none) (left : h' = match s.connection with
      | none => h
      | some c => { h with server := h.server.disconnect c }) : Outcome s h s' h'
  | locked {s' : Session Host} {c : ConnectionId} {m : LockMode} {k : LockKind}
    (active : s.connection = some c) (kind : m.kind? = some k)
    (connection : s'.connection = s.connection) (lockMode : s'.lockMode = some m) :
    Outcome s h s' { h with server := { h.server with locks := h.server.locks.grant c .session k } }
  | unlocked {s' : Session Host} {c : ConnectionId} (active : s.connection = some c)
    (connection : s'.connection = s.connection) (lockMode : s'.lockMode = none) :
    Outcome s h s' { h with server := h.server.unlock c }

theorem logon_outcome (he : s.engine = Host.engine) (endpoint user password : String) (h : Host) :
    s.Outcome h (s.logon endpoint user password h).2.1 (s.logon endpoint user password h).2.2 := by
  unfold logon
  split
  · exact .kept rfl rfl
  · split
    · exact .kept rfl rfl
    · rename_i hinactive
      have hinactive := Option.not_isSome_iff_eq_none.1 hinactive
      rcases h.server.connect_cases endpoint ⟨user, password⟩ with ⟨e, hrefused⟩ | hconnected
      · have hcall : s.engine.connect endpoint ⟨user, password⟩ h = (.error e, h) := by
          simp only [he, Host.engine, Host.served, hrefused]
        simp only [hcall]
        exact .kept rfl rfl
      · have hcall : s.engine.connect endpoint ⟨user, password⟩ h =
            (.ok h.server.nextId, { h with server := { h.server with
              nextId := h.server.nextId + 1
              connections := h.server.connections ++ [h.server.nextId] } }) := by
          simp only [he, Host.engine, Host.served, hconnected]
        simp only [hcall]
        exact .loggedOn hinactive rfl rfl

theorem logout_state (he : s.engine = Host.engine) (h : Host) :
    (s.logout h).2.2 = match s.connection with
      | none => h
      | some c => { h with server := h.server.disconnect c } := by
  unfold logout
  cases s.connection with
  | none => rfl
  | some c =>
    rw [he]
    rfl

theorem logout_connection (s : Session Host) (h : Host) : (s.logout h).2.1.connection = none := by
  unfold logout
  cases s.connection <;> rfl

theorem logout_outcome (he : s.engine = Host.engine) (h : Host) :
    s.Outcome h (s.logout h).2.1 (s.logout h).2.2 := by
  have left := logout_state he h
  unfold logout at left ⊢
  cases hc : s.connection with
  | none => exact .loggedOut rfl rfl (hc ▸ left)
  | some c => exact .loggedOut rfl rfl (hc ▸ left)

theorem lock_cases (he : s.engine = Host.engine) (m : LockMode) (h : Host) :
    (∃ e, s.lock m h = (.error e, s, h)) ∨
    ∃ s' h', s.lock m h = (.ok (), s', h') ∧ s.Outcome h s' h' := by
  unfold lock
  cases hc : s.connection with
  | none => exact .inl ⟨_, rfl⟩
  | some c =>
    rcases h.server.lock_cases c m with ⟨e, hrefused⟩ | ⟨hm, hfreed⟩ |
      ⟨k, -, hk, -, hlocked⟩
    · have hcall : s.engine.lock c m h = (.error e, h) := by
        simp only [he, Host.engine, Host.served, hrefused]
      simp only [hcall]
      exact .inl ⟨e, rfl⟩
    · have hcall : s.engine.lock c m h = (.ok (), { h with server := h.server.unlock c }) := by
        simp only [he, Host.engine, Host.served, hfreed]
      simp only [hcall]
      exact .inr ⟨_, _, rfl, .unlocked hc hc.symm (if_pos hm)⟩
    · have hcall : s.engine.lock c m h = (.ok (), { h with server := { h.server with
          locks := h.server.locks.grant c .session k } }) := by
        simp only [he, Host.engine, Host.served, hlocked]
      simp only [hcall]
      have hm : m ≠ .free := by
        rintro rfl
        cases hk
      exact .inr ⟨_, _, rfl, .locked hc hk hc.symm (if_neg hm)⟩

theorem lockMode_of_lock {σ : Type} {s s' : Session σ} {st st' : σ} {m : LockMode}
    (granted : s.lock m st = (.ok (), s', st')) :
    s'.lockMode = if m = .free then none else some m := by
  unfold lock at granted
  split at granted
  · cases granted
  · split at granted
    · cases granted
    · cases granted
      rfl

theorem unlock_outcome (he : s.engine = Host.engine) (h : Host) :
    s.Outcome h (s.unlock h).2.1 (s.unlock h).2.2 := by
  unfold unlock
  cases hc : s.connection with
  | none => exact .kept rfl rfl
  | some c =>
    have hcall : s.engine.unlock c h = (.ok (), { h with server := h.server.unlock c }) := by
      rw [he]
      rfl
    simp only [hcall]
    exact .unlocked hc hc.symm rfl

theorem call_outcome (he : s.engine = Host.engine) (c : SessionCall) (h : Host) :
    s.Outcome h (s.call c h).2.1 (s.call c h).2.2 := by
  cases c with
  | logon endpoint user password => exact logon_outcome he endpoint user password h
  | logout => exact logout_outcome he h
  | lock m =>
    rcases lock_cases he m h with ⟨e, hrefused⟩ | ⟨s', h', htaken, outcome⟩
    · simp only [call, hrefused]
      exact .kept rfl rfl
    · simp only [call, htaken]
      exact outcome
  | unlock => exact unlock_outcome he h
  | setPathPrefix | setDateFormat => exact .kept rfl rfl

end Session

namespace Workspace

variable {w w' : Workspace Host} {n m : String} {c : ConnectionId}

def connection? (w : Workspace Host) (n : String) : Option ConnectionId :=
  (w.session? n).bind (·.connection)

def lockMode? (w : Workspace Host) (n : String) : Option LockMode :=
  (w.session? n).bind (·.lockMode)

/-- The connections of the server are those of the sessions, one each, and the sessions remember
their locks. -/
structure Accords (w : Workspace Host) : Prop where
  active : ∀ {n c}, w.connection? n = some c → c ∈ w.state.server.connections
  owned : ∀ {c}, c ∈ w.state.server.connections → ∃ n, w.connection? n = some c
  distinct : ∀ {n m c}, w.connection? n = some c → w.connection? m = some c → n = m
  held : ∀ n, (w.lockMode? n).bind LockMode.kind? =
    (w.connection? n).bind (w.state.server.locks.holds? · .session)
  taken : ∀ n, w.lockMode? n ≠ some .free

theorem accords_start (config : EngineConfig) (disk : Disk) : (start config disk).Accords where
  active := nofun
  owned := nofun
  distinct := nofun
  held _ := rfl
  taken := nofun

theorem Accords.of_same (accords : w.Accords) (hc : ∀ m, w'.connection? m = w.connection? m)
    (hm : ∀ m, w'.lockMode? m = w.lockMode? m) (same : w.state.SameSessions w'.state) :
    w'.Accords where
  active {n c} hn := by
    rw [same.connections]
    exact accords.active (hc n ▸ hn)
  owned {c} hmem := by
    rw [same.connections] at hmem
    obtain ⟨n, hn⟩ := accords.owned hmem
    exact ⟨n, (hc n).trans hn⟩
  distinct {n m c} hn hm := accords.distinct (hc n ▸ hn) (hc m ▸ hm)
  held n := by
    rw [hc, hm, accords.held]
    simp only [same.holds]
  taken n := hm n ▸ accords.taken n

theorem Accords.loggedOn (accords : w.Accords) (standing : w.Standing)
    (inactive : w.connection? n = none)
    (hc : ∀ m, w'.connection? m = if n = m then some w.state.server.nextId else w.connection? m)
    (hm : ∀ m, w'.lockMode? m = if n = m then none else w.lockMode? m)
    (connections : w'.state.server.connections =
      w.state.server.connections ++ [w.state.server.nextId])
    (locks : w'.state.server.locks = w.state.server.locks) : w'.Accords := by
  have fresh : w.state.server.nextId ∉ w.state.server.connections := fun hmem =>
    Nat.lt_irrefl _ (standing.sane.registered.below _ (List.mem_append_left _ hmem))
  have old {m : String} (hold : w.connection? m = some w.state.server.nextId) : False :=
    fresh (accords.active hold)
  constructor
  · intro m c h
    rw [connections]
    rw [hc] at h
    split at h
    · cases h
      exact List.mem_append_right _ (List.mem_singleton_self _)
    · exact List.mem_append_left _ (accords.active h)
  · intro c h
    rw [connections] at h
    rcases List.mem_append.1 h with h | h
    · obtain ⟨m, hold⟩ := accords.owned h
      refine ⟨m, ?_⟩
      rw [hc, if_neg]
      · exact hold
      · rintro rfl
        rw [inactive] at hold
        cases hold
    · cases List.mem_singleton.1 h
      exact ⟨n, by rw [hc, if_pos rfl]⟩
  · intro m k c h h'
    rw [hc] at h h'
    split at h <;> split at h'
    · rename_i hn hk
      exact hn.symm.trans hk
    · cases h
      exact (old h').elim
    · cases h'
      exact (old h).elim
    · exact accords.distinct h h'
  · intro m
    rw [hc, hm, locks]
    split
    · cases hheld : w.state.server.locks.holds? w.state.server.nextId .session with
      | none => exact hheld.symm
      | some k =>
        obtain ⟨k, hk⟩ := LockTable.holds?_isSome.1 (Option.isSome_of_eq_some hheld)
        exact absurd (standing.sane.live _ k hk) fresh
    · exact accords.held m
  · intro m
    rw [hm]
    split
    · exact nofun
    · exact accords.taken m

theorem Accords.kind_eq_none_iff (accords : w.Accords) (n : String) :
    (w.lockMode? n).bind LockMode.kind? = none ↔ w.lockMode? n = none := by
  cases hmode : w.lockMode? n with
  | none => simp
  | some m =>
    have hfree : m ≠ .free := by
      rintro rfl
      exact accords.taken n hmode
    simp [LockMode.kind?_eq_none, hfree]

theorem Accords.disconnected (accords : w.Accords) (standing : w.Standing)
    (active : w.connection? n = some c)
    (hc : ∀ m, w'.connection? m = if n = m then none else w.connection? m)
    (hm : ∀ m, w'.lockMode? m = if n = m then none else w.lockMode? m)
    (left : w'.state = { w.state with server := w.state.server.disconnect c }) : w'.Accords := by
  have registered := standing.sane.registered
  have hmem := accords.active active
  have hleft := registered.left_disconnect hmem
  have others {m : String} {d : ConnectionId} (hd : w'.connection? m = some d) :
      n ≠ m ∧ w.connection? m = some d ∧ d ≠ c := by
    rw [hc] at hd
    split at hd
    · cases hd
    · rename_i hne
      refine ⟨hne, hd, ?_⟩
      rintro rfl
      exact hne (accords.distinct active hd)
  constructor
  · intro m d hd
    obtain ⟨-, hd, hne⟩ := others hd
    simp only [left, hleft.connections]
    exact List.mem_filter.2 ⟨accords.active hd, bne_iff_ne.2 hne⟩
  · intro d hd
    simp only [left, hleft.connections] at hd
    obtain ⟨hd, hne⟩ := List.mem_filter.1 hd
    obtain ⟨m, hm⟩ := accords.owned hd
    refine ⟨m, ?_⟩
    rw [hc, if_neg]
    · exact hm
    · rintro rfl
      rw [active] at hm
      cases hm
      exact bne_iff_ne.1 hne rfl
  · intro m k d hd hd'
    exact accords.distinct (others hd).2.1 (others hd').2.1
  · intro m
    cases hd : w'.connection? m with
    | none =>
      rw [hc] at hd
      rw [hm]
      split at hd
      · rename_i h
        rw [if_pos h]
        rfl
      · rename_i h
        rw [if_neg h, accords.held, hd]
        rfl
    | some d =>
      obtain ⟨hne, hd, hdc⟩ := others hd
      rw [hm, if_neg hne, accords.held, hd]
      simp only [Option.bind_some, left]
      rw [standing.sane.guarded.holds?_disconnect registered.toConsistent hmem, if_neg hdc]
  · intro m
    rw [hm]
    split
    · exact nofun
    · exact accords.taken m

theorem Accords.loggedOut (accords : w.Accords) (standing : w.Standing)
    (hc : ∀ m, w'.connection? m = if n = m then none else w.connection? m)
    (hm : ∀ m, w'.lockMode? m = if n = m then none else w.lockMode? m)
    (left : w'.state = match w.connection? n with
      | none => w.state
      | some c => { w.state with server := w.state.server.disconnect c }) : w'.Accords := by
  cases hn : w.connection? n with
  | none =>
    -- without a connection there is no lock to forget
    rw [hn] at left
    have hfree : w.lockMode? n = none := by
      rw [← accords.kind_eq_none_iff, accords.held, hn]
      rfl
    refine accords.of_same (fun m => ?_) (fun m => ?_) ?_
    · rw [hc]
      split
      · rename_i h
        exact h ▸ hn.symm
      · rfl
    · rw [hm]
      split
      · rename_i h
        exact h ▸ hfree.symm
      · rfl
    · rw [left]
      exact ⟨rfl, fun _ => rfl⟩
  | some c =>
    rw [hn] at left
    exact accords.disconnected standing hn hc hm left

theorem Accords.relocked (accords : w.Accords) {mode : Option LockMode}
    (active : w.connection? n = some c) (hc : ∀ m, w'.connection? m = w.connection? m)
    (hm : ∀ m, w'.lockMode? m = if n = m then mode else w.lockMode? m) (hmode : mode ≠ some .free)
    (connections : w'.state.server.connections = w.state.server.connections)
    (holds : ∀ o, w'.state.server.locks.holds? o .session =
      if o = c then mode.bind LockMode.kind? else w.state.server.locks.holds? o .session) :
    w'.Accords where
  active {m d} hd := by
    rw [connections]
    exact accords.active (hc m ▸ hd)
  owned {d} hmem := by
    rw [connections] at hmem
    obtain ⟨m, hd⟩ := accords.owned hmem
    exact ⟨m, (hc m).trans hd⟩
  distinct {m k d} hd hd' := accords.distinct (hc m ▸ hd) (hc k ▸ hd')
  held m := by
    rw [hc, hm]
    split
    · rename_i h
      rw [← h, active, Option.bind_some, holds, if_pos rfl]
    · rename_i h
      rw [accords.held]
      cases hd : w.connection? m with
      | none => rfl
      | some d =>
        have hne : d ≠ c := by
          rintro rfl
          exact h (accords.distinct active hd)
        simp only [Option.bind_some, holds, if_neg hne]
  taken m := by
    rw [hm]
    split
    · exact hmode
    · exact accords.taken m

theorem connection?_set {sessions : FiniteMap String (Session Host)} {s : Session Host} :
    (get? (set sessions n s) m).bind (·.connection) =
      if n = m then s.connection else (get? sessions m).bind (·.connection) := by
  rw [get?_set]
  split <;> rfl

theorem connection?_added {config : SessionConfig} (vacant : w.session? n = none) :
    connection? { w with sessions := set w.sessions n (.ofConfig Host.engine config) } m =
      w.connection? m := by
  simp only [connection?, session?, get?_set] at vacant ⊢
  split
  · rename_i h
    rw [← h, vacant]
    rfl
  · rfl

theorem lockMode?_set {sessions : FiniteMap String (Session Host)} {s : Session Host} :
    (get? (set sessions n s) m).bind (·.lockMode) =
      if n = m then s.lockMode else (get? sessions m).bind (·.lockMode) := by
  rw [get?_set]
  split <;> rfl

theorem Accords.after_call (accords : w.Accords) (standing : w.Standing) {s s' : Session Host}
    {h' : Host} (found : w.session? n = some s) (outcome : s.Outcome w.state s' h') :
    Accords { w with state := h', sessions := set w.sessions n s' } := by
  have hn : w.connection? n = s.connection := by
    rw [connection?, found]
    rfl
  have hmode : w.lockMode? n = s.lockMode := by
    rw [lockMode?, found]
    rfl
  have hc (m : String) : connection? { w with state := h', sessions := set w.sessions n s' } m =
      if n = m then s'.connection else w.connection? m := connection?_set
  have hm (m : String) : lockMode? { w with state := h', sessions := set w.sessions n s' } m =
      if n = m then s'.lockMode else w.lockMode? m := lockMode?_set
  have hsame (connection : s'.connection = s.connection) (m : String) :
      connection? { w with state := h', sessions := set w.sessions n s' } m = w.connection? m := by
    rw [hc, connection, ← hn]
    split
    · rename_i h
      rw [h]
    · rfl
  cases outcome with
  | kept connection lockMode =>
    refine accords.of_same (hsame connection) (fun m => ?_) ⟨rfl, fun _ => rfl⟩
    rw [hm, lockMode, ← hmode]
    split
    · rename_i h
      rw [h]
    · rfl
  | loggedOn inactive connection lockMode =>
    rw [connection] at hc
    rw [lockMode] at hm
    exact accords.loggedOn standing (hn.trans inactive) hc hm rfl rfl
  | loggedOut connection lockMode left =>
    rw [connection] at hc
    rw [lockMode] at hm
    exact accords.loggedOut standing hc hm (hn ▸ left)
  | locked active kind connection lockMode =>
    rw [lockMode] at hm
    refine accords.relocked (hn.trans active) (hsame connection) hm ?_ rfl fun o => ?_
    · rintro ⟨⟩
      cases kind
    · rw [LockTable.holds?_grant, Option.bind_some, kind]
      simp
  | unlocked active connection lockMode =>
    rw [lockMode] at hm
    refine accords.relocked (hn.trans active) (hsame connection) hm nofun rfl fun o => ?_
    simp only [Server.unlock]
    rw [standing.sane.guarded.indexed.holds?_releaseAll]
    rfl

theorem Change.accords (change : w.Change w') (standing : w.Standing) (accords : w.Accords) :
    w'.Accords := by
  cases change with
  | session call found =>
    exact accords.after_call standing found
      (Session.call_outcome (standing.hosted found) call w.state)
  | @sessionDropped n s found =>
    have left := Session.logout_state (standing.hosted found) w.state
    have hn : w.connection? n = s.connection := by
      rw [connection?, found]
      rfl
    rw [← hn] at left
    refine accords.loggedOut standing ?_ ?_ left
    · intro m
      simp only [connection?, session?, get?_erase]
      split <;> rfl
    · intro m
      simp only [lockMode?, session?, get?_erase]
      split <;> rfl
  | @sessionAdded n config vacant =>
    refine accords.of_same (fun _ => connection?_added vacant) ?_ ⟨rfl, fun _ => rfl⟩
    · intro m
      simp only [lockMode?, session?, get?_set] at vacant ⊢
      split
      · rename_i h
        rw [← h, vacant]
        rfl
      · rfl
  | @table name owner t s call entry found =>
    exact accords.of_same (fun _ => rfl) (fun _ => rfl)
      ((t.call_reaches (standing.hosted found) call w.state).sameSessions standing.sane t.onTables)
  | @closed name owner t s entry found | @tableDropped name owner t s entry found =>
    exact accords.of_same (fun _ => rfl) (fun _ => rfl)
      ((t.close_reaches (standing.hosted found) w.state).sameSessions standing.sane t.onTables)
  | tableAdded | recordAdded | recordDropped | device =>
    exact accords.of_same (fun _ => rfl) (fun _ => rfl) ⟨rfl, fun _ => rfl⟩
  | @record name table r t s call entry found =>
    obtain ⟨owner, -, found⟩ := table?_eq_some.1 found
    exact accords.of_same (fun _ => rfl) (fun _ => rfl)
      ((r.call_reaches t (standing.hosted found) call w.state).sameSessions standing.sane
        fun _ hq => hq.onTables)
  | restarted config => exact accords_start config w.state.disk

theorem attempt_lock_refused {mode : LockMode} {e : Error} (standing : w.Standing)
    (refused : w.attempt (.session n (.lock mode)) = some (.error e, w')) : w' = w := by
  simp only [attempt] at refused
  obtain ⟨s, found, hanswer, rfl⟩ := onSession_eq_some refused
  simp only [Session.call] at hanswer ⊢
  rcases Session.lock_cases (standing.hosted found) mode w.state with ⟨e, hrefused⟩ |
    ⟨s', h', htaken, -⟩
  · simp only [hrefused, set_get? found]
  · rw [htaken] at hanswer
    cases hanswer

theorem attempt_lock_granted {mode : LockMode}
    (granted : w.attempt (.session n (.lock mode)) = some (.ok (), w')) :
    ∃ s, w'.session? n = some s ∧ s.lockMode = if mode = .free then none else some mode := by
  simp only [attempt] at granted
  obtain ⟨s, -, hanswer, rfl⟩ := onSession_eq_some granted
  exact ⟨_, get?_set_self _ _ _, Session.lockMode_of_lock (Prod.ext hanswer.symm rfl)⟩

theorem Accords.kind (accords : w.Accords) {s : Session Host} (found : w.session? n = some s) :
    s.lockMode.bind LockMode.kind? =
      s.connection.bind (w.state.server.locks.holds? · .session) := by
  have hheld := accords.held n
  rwa [lockMode?, connection?, found] at hheld

theorem Accords.lockMode_eq_none_iff (accords : w.Accords) {s : Session Host}
    (found : w.session? n = some s) :
    s.lockMode.bind LockMode.kind? = none ↔ s.lockMode = none := by
  have hmode : w.lockMode? n = s.lockMode := by
    rw [lockMode?, found]
    rfl
  rw [← hmode]
  exact accords.kind_eq_none_iff n

theorem Accords.isLocked (accords : w.Accords) (standing : w.Standing) {s : Session Host}
    (found : w.session? n = some s) : s.isLocked w.state = s.lockMode.isSome := by
  have hkind := accords.kind found
  have hnone := accords.lockMode_eq_none_iff found
  have hlocked : s.isLocked w.state =
      (s.connection.bind (w.state.server.locks.holds? · .session)).isSome := by
    unfold Session.isLocked
    cases s.connection with
    | none => rfl
    | some c =>
      rw [standing.hosted found]
      rfl
  rw [hlocked, ← hkind, Bool.eq_iff_iff, Option.isSome_iff_ne_none, Option.isSome_iff_ne_none]
  exact not_congr hnone

theorem connection?_eq_some : w.connection? n = some c ↔
    ∃ s, w.session? n = some s ∧ s.connection = some c := Option.bind_eq_some_iff

/-- In every state that calls of any sessions lead to, a session is active exactly if its connection is
live. The connections of the engine are those of the active sessions, one each. A session remembers a
lock exactly if the lock table has one of its kind for it, and has none for others. Where a lock is
granted the session remembers its mode, and where it is refused all stays as it was. -/
theorem sessions_and_engine_agree (config : EngineConfig) (disk : Disk) (as : List Act) :
    let w := (start config disk).run as
    let server := w.state.server
    (∀ n s, w.session? n = some s →
      (s.isActive = true ↔ ∃ c ∈ server.connections, s.connection = some c)) ∧
    (∀ c, c ∈ server.connections ↔ ∃ n s, w.session? n = some s ∧ s.connection = some c) ∧
    (∀ n m s u c, w.session? n = some s → w.session? m = some u → s.connection = some c →
      u.connection = some c → n = m) ∧
    (∀ n s, w.session? n = some s →
      (∀ m, s.lockMode = some m → ∃ c k, s.connection = some c ∧ m.kind? = some k ∧
        server.locks.holds? c .session = some k) ∧
      (∀ c k, s.connection = some c → server.locks.holds? c .session = some k →
        ∃ m, s.lockMode = some m ∧ m.kind? = some k) ∧
      s.isLocked w.state = s.lockMode.isSome) ∧
    (∀ c k, server.locks.holds? c .session = some k →
      ∃ n s, w.session? n = some s ∧ s.connection = some c) ∧
    (∀ n m w', w.attempt (.session n (.lock m)) = some (.ok (), w') →
      ∃ s, w'.session? n = some s ∧ s.lockMode = if m = .free then none else some m) ∧
    ∀ n m e w', w.attempt (.session n (.lock m)) = some (.error e, w') → w' = w := by
  intro w server
  obtain ⟨standing, accords⟩ : w.Standing ∧ w.Accords :=
    run_standing config disk as (accords_start config disk) Change.accords
  have owned (c : ConnectionId) (hc : c ∈ server.connections) :
      ∃ n s, w.session? n = some s ∧ s.connection = some c := by
    obtain ⟨n, hn⟩ := accords.owned hc
    exact ⟨n, connection?_eq_some.1 hn⟩
  refine ⟨?_, fun c => ⟨owned c, ?_⟩, ?_, ?_, ?_, ?_, ?_⟩
  · intro n s found
    rw [Session.isActive, Option.isSome_iff_exists]
    constructor
    · rintro ⟨c, hc⟩
      exact ⟨c, accords.active (connection?_eq_some.2 ⟨s, found, hc⟩), hc⟩
    · rintro ⟨c, -, hc⟩
      exact ⟨c, hc⟩
  · rintro ⟨n, s, found, hc⟩
    exact accords.active (connection?_eq_some.2 ⟨s, found, hc⟩)
  · intro n m s u c hn hm hs hu
    exact accords.distinct (connection?_eq_some.2 ⟨s, hn, hs⟩) (connection?_eq_some.2 ⟨u, hm, hu⟩)
  · intro n s found
    have hkind := accords.kind found
    refine ⟨?_, ?_, accords.isLocked standing found⟩
    · intro m hm
      cases hk : s.lockMode.bind LockMode.kind? with
      | none =>
        rw [(accords.lockMode_eq_none_iff found).1 hk] at hm
        cases hm
      | some k =>
        rw [hk] at hkind
        obtain ⟨c, hc, hheld⟩ := Option.bind_eq_some_iff.1 hkind.symm
        rw [hm] at hk
        exact ⟨c, k, hc, hk, hheld⟩
    · intro c k hc hheld
      rw [hc, Option.bind_some, hheld] at hkind
      exact Option.bind_eq_some_iff.1 hkind
  · intro c k held
    obtain ⟨j, hj⟩ := LockTable.holds?_isSome.1 (Option.isSome_of_eq_some held)
    exact owned c (standing.sane.live c j hj)
  · intro n m w' granted
    exact attempt_lock_granted granted
  · intro n m e w' refused
    exact attempt_lock_refused standing refused

end Workspace
end Isam
