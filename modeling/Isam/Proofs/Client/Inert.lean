import Isam.Proofs.Client.Answers
namespace Isam

open FiniteMap

variable {σ α : Type} {r : Record} {t : Table} {s : Session σ} {st : σ}

/-- What a call asks of its arguments before it asks for the binding. -/
def RecordCall.ahead (t : Table) (s : Session σ) : RecordCall → Except Error Unit
  | .setText f text => do
    let field ← t.select f
    let _ ← field.ofText s.dateFormat text
    return ()
  | _ => .ok ()

namespace Record

theorem checkBound_eq_error (h : r.checkBound t s ≠ .ok ()) :
    r.checkBound t s = .error .bindingClosed := by
  unfold checkBound at h ⊢
  split
  · split
    · rename_i hhandle heq
      simp [hhandle, heq] at h
    · rfl
  · rfl

section Unbound

variable (unbound : r.checkBound t s = .error .bindingClosed)

include unbound

theorem move_unbound (m : CursorMove) : r.move t s m st = (.error .bindingClosed, r, st) := by
  rw [move, unbound]

theorem moveOn_unbound (m : RowId → CursorMove) :
    r.moveOn t s m st = (.error .bindingClosed, r, st) := by
  unfold moveOn
  split
  · exact move_unbound unbound _
  · rw [unbound]
    rfl

theorem current_unbound : r.current t s = .error .bindingClosed := by
  rw [current, unbound]
  rfl

theorem look_unbound (f : Selector) : r.look t s f = .error .bindingClosed := by
  rw [look, unbound]
  rfl

theorem read_unbound (f : Selector) (reading : Field → Except Error Value → Except Error α) :
    r.read t s f reading = .error .bindingClosed := by
  rw [read, unbound]
  rfl

theorem setText_unbound (f : Selector) (text : String) : r.setText t s f text =
    ((RecordCall.setText f text).ahead t s).bind fun _ => .error .bindingClosed := by
  simp only [setText, RecordCall.ahead, set, unbound, bind, Except.bind]
  cases t.select f with
  | error e => rfl
  | ok field =>
    simp only
    cases field.ofText s.dateFormat text <;> rfl

theorem call_unbound (c : RecordCall) : r.call c t s st =
    ((c.ahead t s).bind fun _ => .error .bindingClosed, r, st) := by
  cases c with
  | first | last =>
    simp only [call, first, last, move_unbound unbound]
    rfl
  | next | prev =>
    simp only [call, next, prev, moveOn_unbound unbound]
    rfl
  | find mode =>
    have hkey : r.searchKey t s = .error .bindingClosed := by
      rw [searchKey, unbound]
      rfl
    simp only [call, find, hkey]
    rfl
  | clear =>
    simp only [call, clear, unbound]
    rfl
  | write =>
    simp only [call, write, unbound]
    rfl
  | delete =>
    simp only [call, delete, current_unbound unbound]
    rfl
  | lock m =>
    simp only [call, lock, current_unbound unbound]
    rfl
  | setIndex i =>
    simp only [call, setIndex, unbound]
    rfl
  | usePhysicalOrder =>
    simp only [call, usePhysicalOrder, unbound]
    rfl
  | get f =>
    simp only [call, get, look_unbound unbound]
    rfl
  | set f v =>
    simp only [call, set, unbound]
    rfl
  | setText f text =>
    simp only [call, setText_unbound unbound]
    cases (RecordCall.setText f text).ahead t s <;> rfl

end Unbound
end Record

def Act.isRestart : Act → Bool
  | .restart _ => true
  | _ => false

def Act.Makes : Act → Event → Prop
  | .newSession .. | .dropSession _ | .session .. => Event.On Session.Asks
  | .newTable .. | .dropTable _ | .table .. | .close _ => Event.On fun q => ∃ t : Table, t.Asks q
  | .record .. => Event.On Request.OnRows
  | .newRecord .. | .dropRecord _ => fun _ => False
  | .device faults => (· = .device faults)
  | .restart config => (· = .restart config)

theorem Act.makes_no_restart (a : Act) (ha : a.isRestart = false) {e : Event} (he : a.Makes e) :
    e.isRestart = false := by
  cases e with
  | call | device => rfl
  | restart config =>
    cases a with
    | restart => cases ha
    | device => cases he
    | newSession | dropSession | session | newTable | dropTable | table | close | newRecord |
      dropRecord | record => exact he.elim

namespace Workspace

variable {w w' : Workspace Host} {a : Act} {answer : Except Error Unit}

theorem attempt_dropSession_state {n : String}
    (attempted : w.attempt (.dropSession n) = some (answer, w')) : w'.state = w.state ∨
      ∃ answer w₁, w.attempt (.session n .logout) = some (answer, w₁) ∧ w'.state = w₁.state := by
  obtain ⟨_, dropped, heq⟩ := Option.map_eq_some_iff.1 attempted
  cases heq
  unfold dropSession at dropped
  split at dropped
  · cases dropped
  · split at dropped
    · rename_i hout
      cases dropped
      exact .inr ⟨_, _, hout, rfl⟩
    · cases dropped
      exact .inl rfl

theorem session_reaches (standing : w.Standing) {n : String} {call : SessionCall}
    (attempted : w.attempt (.session n call) = some (answer, w')) :
    w.state.Reaches (Event.On Session.Asks) w'.state := by
  simp only [attempt] at attempted
  obtain ⟨s, found, -, rfl⟩ := onSession_eq_some attempted
  exact Session.call_reaches (standing.hosted found) call w.state

theorem close_reaches (standing : w.Standing) {n : String}
    (attempted : w.attempt (.close n) = some (answer, w')) :
    w.state.Reaches (Event.On fun q => ∃ t : Table, t.Asks q) w'.state := by
  simp only [attempt] at attempted
  obtain ⟨o, t, s, -, found, -, rfl⟩ := onTable_eq_some attempted
  exact (t.close_reaches (standing.hosted found) w.state).on_mono fun _ hq => ⟨t, hq⟩

theorem dropSession_reaches (standing : w.Standing) {n : String}
    (attempted : w.attempt (.dropSession n) = some (answer, w')) :
    w.state.Reaches (Event.On Session.Asks) w'.state := by
  rcases attempt_dropSession_state attempted with hstate | ⟨_, w₁, hout, hstate⟩ <;> rw [hstate]
  · exact .refl _ _
  · exact session_reaches standing hout

theorem dropTable_reaches (standing : w.Standing) {n : String}
    (attempted : w.attempt (.dropTable n) = some (answer, w')) :
    w.state.Reaches (Event.On fun q => ∃ t : Table, t.Asks q) w'.state := by
  rcases attempt_dropTable_state attempted with hstate | ⟨_, w₁, hclosed, hstate⟩ <;> rw [hstate]
  · exact .refl _ _
  · exact close_reaches standing hclosed

theorem attempt_reaches (standing : w.Standing) (attempted : w.attempt a = some (answer, w')) :
    w.state.Reaches a.Makes w'.state := by
  cases a with
  | newSession name config =>
    obtain ⟨w', added, ⟨⟩⟩ := Option.map_eq_some_iff.1 attempted
    obtain ⟨w₁, dropped, ⟨⟩⟩ := Option.bind_eq_some_iff.1 added
    have attempted' : w.attempt (.dropSession name) = some (.ok (), w₁) := by
      rw [attempt, dropped]
      rfl
    have reaches := dropSession_reaches standing attempted'
    exact reaches
  | dropSession name => exact dropSession_reaches standing attempted
  | session name call => exact session_reaches standing attempted
  | newTable name session =>
    obtain ⟨w', added, ⟨⟩⟩ := Option.map_eq_some_iff.1 attempted
    obtain ⟨⟨⟩, -, added⟩ := Option.bind_eq_some_iff.1 added
    obtain ⟨w₁, dropped, ⟨⟩⟩ := Option.bind_eq_some_iff.1 added
    have attempted' : w.attempt (.dropTable name) = some (.ok (), w₁) := by
      rw [attempt, dropped]
      rfl
    have reaches := dropTable_reaches standing attempted'
    exact reaches
  | dropTable name => exact dropTable_reaches standing attempted
  | table name call =>
    obtain ⟨-, attempted⟩ := onFreeTable_eq_some attempted
    obtain ⟨o, t, s, -, found, -, rfl⟩ := onTable_eq_some attempted
    exact (t.call_reaches (standing.hosted found) call w.state).on_mono fun _ hq => ⟨t, hq⟩
  | close name => exact close_reaches standing attempted
  | newRecord name table =>
    obtain ⟨added, hadded, hanswer⟩ := Option.map_eq_some_iff.1 attempted
    obtain ⟨⟨t, s⟩, found, ⟨⟩⟩ := Option.bind_eq_some_iff.1 hadded
    cases hmade : Record.ofTable t s <;> rw [hmade] at hanswer <;> cases hanswer <;> exact .refl _ _
  | dropRecord name =>
    cases attempted
    exact .refl _ _
  | record name call =>
    simp only [attempt] at attempted
    obtain ⟨table, record, t, s, -, found, -, rfl⟩ := onRecord_eq_some attempted
    obtain ⟨o, -, found⟩ := table?_eq_some.1 found
    exact record.call_reaches t (standing.hosted found) call w.state
  | device faults =>
    cases attempted
    exact .next (e := .device faults) rfl
  | restart config =>
    cases attempted
    exact .next (e := .restart config) rfl

theorem attempt_outlives (standing : w.Standing) (ha : a.isRestart = false)
    (attempted : w.attempt a = some (answer, w')) : w.state.server.Outlives w'.state.server := by
  obtain ⟨es, hes, hstate⟩ := attempt_reaches standing attempted
  rw [hstate]
  exact Host.outlives_run standing.sane.registered es fun e he => a.makes_no_restart ha (hes e he)

theorem run_outlives (standing : w.Standing) {as : List Act}
    (has : ∀ a ∈ as, a.isRestart = false) : w.state.server.Outlives (w.run as).state.server := by
  induction as generalizing w with
  | nil => exact .refl _
  | cons a as ih =>
    obtain ⟨ha, has⟩ := List.forall_mem_cons.1 has
    have step : w.state.server.Outlives (w.next a).state.server := by
      unfold next
      split
      · rename_i attempted
        exact attempt_outlives standing ha attempted
      · exact .refl _
    exact step.trans (ih (next_keeps Change.standing a standing) has)

variable {m o : String} {t : Table} {s : Session Host} {b : Binding}

theorem close_closes (standing : w.Standing) (entry : get? w.tables m = some (o, t))
    (found : w.session? o = some s) (bound : t.binding = some b) :
    get? (w.next (.close m)).state.server.handles b.handle = none := by
  have hnext : (w.next (.close m)).state = (t.close s w.state).2.2 := by
    simp [next, attempt, onTable, entry, found]
  rw [hnext, t.close_eq (standing.hosted found), bound, Server.get?_handles_close, if_pos rfl]

theorem logout_closes (standing : w.Standing) (binds : w.Binds) (found : w.session? o = some s)
    (entry : get? w.tables m = some (o, t)) (live : t.live? s = some b) :
    get? (w.next (.session o .logout)).state.server.handles b.handle = none := by
  obtain ⟨bound, active⟩ := Table.live?_eq_some.1 live
  have registered := standing.sane.registered
  have hnext : (w.next (.session o .logout)).state =
      w.state.perform (.disconnect b.connection) := by
    have hcall : (w.next (.session o .logout)).state = (s.logout w.state).2.2 := by
      simp [next, attempt, onSession, found, Session.call]
    rw [hcall, Session.logout_state (standing.hosted found), active]
    rfl
  rw [hnext]
  cases hx : get? (w.state.perform (.disconnect b.connection)).server.handles b.handle with
  | none => rfl
  | some x =>
    have effect := w.state.perform_effect (.disconnect b.connection)
    have hbound := binding?_eq_some.2 ⟨t, entry, bound⟩
    have hold := (effect.outlives registered).handles _ x hx (binds.handle_given hbound)
    have hlive := (effect.registered registered).live hx
    rw [(binds.named hbound hold).1] at hlive
    exact absurd hlive (Host.gone_after_disconnect registered b.connection)

/-- Everything that is asked of a record is refused as its binding is closed, and nothing changes.
Only a text to be set is looked at before. -/
structure Inert (v : Workspace Host) (k : String) (r : Record) (t : Table) (s : Session Host) :
    Prop where
  calls : ∀ call, v.attempt (.record k call) =
    some ((call.ahead t s).bind fun _ => .error .bindingClosed, v)
  reads : ∀ (α : Type) (f : Selector) (reading : Field → Except Error Value → Except Error α),
    r.read t s f reading = .error .bindingClosed
  isNull : ∀ f, r.isNull t s f = .error .bindingClosed
  first : Record.orEmpty (r.first t s v.state).1 = .error .bindingClosed
  last : Record.orEmpty (r.last t s v.state).1 = .error .bindingClosed

theorem inert_of_unbound {v : Workspace Host} {k : String} {r : Record}
    (found : v.record? k = some (r, t, s)) (unbound : r.checkBound t s = .error .bindingClosed) :
    v.Inert k r t s where
  calls call := by
    obtain ⟨m, entry, found⟩ := record?_eq_some.1 found
    have same : set v.records k (m, r) = v.records := set_get? entry
    simp only [attempt, onRecord, entry, found, Option.bind_some, bind, Record.call_unbound unbound,
      pure, same]
  reads _ f reading := Record.read_unbound unbound f reading
  isNull f := by
    rw [Record.isNull, Record.get, Record.look_unbound unbound]
    rfl
  first := by
    rw [Record.first, Record.move_unbound unbound]
    rfl
  last := by
    rw [Record.last, Record.move_unbound unbound]
    rfl

/-- A record is inert from when its table is closed or its session logs out, whatever is done
then. -/
theorem closed_records_inert (config : EngineConfig) (disk : Disk) (as : List Act)
    {m o : String} {r : Record} {t : Table} {s : Session Host} :
    let w := (start config disk).run as
    get? w.tables m = some (o, t) → w.session? o = some s → r.checkBound t s = .ok () →
    ∀ a ∈ [Act.close m, .session o .logout], ∀ bs : List Act, (∀ b ∈ bs, b.isRestart = false) →
      let v := (w.next a).run bs
      Error.bindingClosed.kind = .notOpen ∧
      ∀ k r' t' s', v.record? k = some (r', t', s') → r'.handle = r.handle →
        v.Inert k r' t' s' := by
  intro w entry found bound a ha bs hbs v
  refine ⟨rfl, fun k r' t' s' found' hhandle' => inert_of_unbound found' ?_⟩
  obtain ⟨standing, binds⟩ : w.Standing ∧ w.Binds := binds_run config disk as
  obtain ⟨b, live, hhandle⟩ := Record.checkBound_eq_ok.1 bound
  have hbinding := (Table.live?_eq_some.1 live).1
  have given : r.handle < w.state.server.nextId :=
    hhandle ▸ binds.handle_given (binding?_eq_some.2 ⟨t, entry, hbinding⟩)
  have quiet : a.isRestart = false := by
    rcases List.mem_pair.1 ha with rfl | rfl <;> rfl
  have closed : get? (w.next a).state.server.handles r.handle = none := by
    rw [← hhandle]
    rcases List.mem_pair.1 ha with rfl | rfl
    · exact close_closes standing entry found hbinding
    · exact logout_closes standing binds found entry live
  have lost : get? v.state.server.handles r.handle = none := by
    have first := run_outlives standing (List.forall_mem_singleton.2 quiet)
    have later := run_outlives (next_keeps Change.standing a standing) hbs
    exact later.stays_closed (Nat.lt_of_lt_of_le given first.nextId) closed
  apply Record.checkBound_eq_error
  intro bound'
  have reached : v = (start config disk).run (as ++ a :: bs) := by
    rw [run, List.foldl_append]
    rfl
  obtain ⟨-, binds'⟩ : v.Standing ∧ v.Binds := reached ▸ binds_run config disk (as ++ a :: bs)
  obtain ⟨b', live', hb'⟩ := Record.checkBound_eq_ok.1 bound'
  obtain ⟨table, -, found'⟩ := record?_eq_some.1 found'
  obtain ⟨file, hopen⟩ := binds'.registered found' live'
  rw [hb', hhandle', lost] at hopen
  cases hopen

def oneTable : List Act :=
  [.newSession "s" {}, .session "s" (.logon "FAIRCOMS" "" ""), .newTable "t" "s",
    .table "t" (.addField "id" .uInteger 4 {}), .table "t" (.create "t" .normal),
    .newRecord "r" "t"]

theorem oneTable_bound : ∃ (r : Record) (t : Table) (s : Session Host),
    get? ((start {} .empty).run oneTable).tables "t" = some ("s", t) ∧
    ((start {} .empty).run oneTable).session? "s" = some s ∧ r.checkBound t s = .ok () ∧
    r.handle = 3 := by
  let w := (start {} .empty).run oneTable
  have hrun : (w.record? "r").map (fun x => (x.1.handle, (x.1.checkBound x.2.1 x.2.2).isOk)) =
      some (3, true) := by decide +kernel
  have htable : (get? w.records "r").map (·.1) = some "t" := by decide +kernel
  have howner : (get? w.tables "t").map (·.1) = some "s" := by decide +kernel
  obtain ⟨⟨r, t, s⟩, found, hbound⟩ := Option.map_eq_some_iff.1 hrun
  obtain ⟨hhandle, hok⟩ := Prod.mk.inj hbound
  obtain ⟨m, hr, found⟩ := record?_eq_some.1 found
  obtain ⟨o, ht, hs⟩ := table?_eq_some.1 found
  rw [hr] at htable
  cases htable
  rw [ht] at howner
  cases howner
  obtain ⟨⟨⟩, bound⟩ := exists_of_isOk hok
  exact ⟨r, t, s, ht, hs, bound, hhandle⟩

theorem loggedOnAgain_inert :
    let w := (start {} .empty).run oneTable
    let v := (w.next (.session "s" .logout)).run [.session "s" (.logon "FAIRCOMS" "" "")]
    (∃ (r : Record) (t : Table) (s : Session Host), get? w.tables "t" = some ("s", t) ∧
      w.session? "s" = some s ∧ r.checkBound t s = .ok () ∧ r.handle = 3) ∧
    ∃ r t s, v.record? "r" = some (r, t, s) ∧ r.handle = 3 ∧ s.isActive = true ∧
      v.Inert "r" r t s := by
  intro w v
  obtain ⟨r, t, s, entry, found, bound, hhandle⟩ := oneTable_bound
  have hafter : (v.record? "r").map (fun x => (x.1.handle, x.2.2.isActive)) = some (3, true) := by
    decide +kernel
  obtain ⟨⟨r', t', s'⟩, found', heq⟩ := Option.map_eq_some_iff.1 hafter
  obtain ⟨hhandle', active⟩ := Prod.mk.inj heq
  have inert := closed_records_inert {} .empty oneTable entry found bound (.session "s" .logout)
    (by simp) [.session "s" (.logon "FAIRCOMS" "" "")] (by simp [Act.isRestart])
  exact ⟨oneTable_bound, r', t', s', found', hhandle', active,
    inert.2 "r" r' t' s' found' (hhandle'.trans hhandle.symm)⟩

theorem not_all_calls_not_open :
    ¬ ∀ (config : EngineConfig) (disk : Disk) (as : List Act) (k : String) (r : Record) (t : Table)
      (s : Session Host), ((start config disk).run as).record? k = some (r, t, s) →
      r.checkBound t s ≠ .ok () → ∀ call, ∃ e w', e.kind = .notOpen ∧
        ((start config disk).run as).attempt (.record k call) = some (.error e, w') := by
  intro always
  let call := RecordCall.setText (.named "nope") "x"
  have hrun : (((start {} .empty).run (oneTable ++ [.close "t"])).record? "r").map (fun x =>
      ((x.1.checkBound x.2.1 x.2.2).isOk, (call.ahead x.2.1 x.2.2).mapError Error.kind)) =
      some (false, .error .notFound) := by decide +kernel
  obtain ⟨⟨r, t, s⟩, found, heq⟩ := Option.map_eq_some_iff.1 hrun
  obtain ⟨hbound, hahead⟩ := Prod.mk.inj heq
  have lost : r.checkBound t s ≠ .ok () := by
    intro bound
    simp [bound, Except.isOk, Except.toBool] at hbound
  obtain ⟨e, w', hkind, hanswer⟩ := always {} .empty _ "r" r t s found lost call
  have inert := inert_of_unbound found (Record.checkBound_eq_error lost)
  rw [inert.calls call] at hanswer
  cases hc : call.ahead t s with
  | ok u => simp [hc, Except.mapError] at hahead
  | error e' =>
    rw [hc] at hahead hanswer
    cases hanswer
    cases hahead.symm.trans (congrArg Except.error hkind)

end Workspace
end Isam
