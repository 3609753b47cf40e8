import Isam.Proofs.Client.Moves
namespace Isam

/-- A record on its way through a table, with the rows that it was given. -/
structure Scan where
  host : Host
  record : Record
  returned : List (RowId × Row) := []

inductive Turn
  | next (t : Table) (s : Session Host)
  | other (e : Event)

/-- Changes that a scan suffers: the row it stands on stays, and no row that stays is given another
key. -/
def Image.KeepsPlaces (i j : Image) (r : Record) : Prop :=
  (∀ k ∈ r.cursor.row?, i.rows.contains k = true → j.rows.contains k = true) ∧
  ∀ d ∈ i.schema.order? r.index, ∀ a ∈ i.rows.entries, ∀ b ∈ j.rows.entries, a.1 = b.1 →
    d.compareKeys (Image.keyOf i.schema d a.2) (Image.keyOf i.schema d b.2) = .eq

instance (i j : Image) (r : Record) : Decidable (i.KeepsPlaces j r) :=
  -- row numbers are a finite type, and this instance does not go through them all
  have : Decidable (∀ k ∈ r.cursor.row?, i.rows.contains k = true → j.rows.contains k = true) :=
    Option.decidableForallMem _
  inferInstanceAs (Decidable (_ ∧ _))

namespace Scan

variable {c : Scan} {s : Schema} {d : IndexDecl} {i j : Image} {a? : Option (RowId × Row)}
  {a b : RowId × Row} {e : Event} {c' : Scan} {t : Table} {session : Session Host} {k : RowId}

def took (c : Scan) : Except Error (Option RowId) × Record × Host → Scan
  | (.ok (some id), r, h) => ⟨h, r, c.returned ++ [(id, r.values)]⟩
  | (_, r, h) => { c with host := h, record := r }

def begin (r : Record) (t : Table) (s : Session Host) (h : Host) : Scan :=
  took ⟨h, r, []⟩ (r.first t s h)

def step (c : Scan) : Turn → Scan
  | .next t s => c.took (c.record.next t s c.host)
  | .other e => { c with host := c.host.next e }

def run (c : Scan) (ts : List Turn) : Scan := ts.foldl step c

def image? (c : Scan) : Option Image := c.host.image? c.record.handle

def Undisturbed (c : Scan) : Turn → Prop
  | .next t s => c.record.Bound t s
  | .other e => ∃ i j, c.image? = some i ∧ (c.step (.other e)).image? = some j ∧
      i.KeepsPlaces j c.record

def Present (c : Scan) (k : RowId) : Prop := ∃ i, c.image? = some i ∧ i.rows.contains k = true

def Stays (c : Scan) (ts : List Turn) (k : RowId) : Prop :=
  Along step (fun c _ => c.Present k) c ts

def Throughout (c : Scan) (ts : List Turn) (k : RowId) : Prop :=
  c.Stays ts k ∧ (c.run ts).Present k

theorem took_eq (c : Scan) (r : Record) (h : Host) (a? : Option (RowId × Row)) :
    c.took (.ok (a?.map (·.1)), r.onto a?, h) = ⟨h, r.onto a?, c.returned ++ a?.toList⟩ := by
  cases a? with
  | none =>
    rw [Option.toList_none, List.append_nil]
    rfl
  | some a => rfl

inductive Stands (c : Scan) (s : Schema) (d : IndexDecl) (i : Image) : Prop
  | on (a b : RowId × Row) (last : c.returned.getLast? = some a)
    (cursor : c.record.cursor = .positioned a.1) (stored : b ∈ i.rows.entries)
    (same : s.SamePlace d a b)
  | past (cursor : c.record.cursor = .beyond)

structure Scans (c : Scan) (s : Schema) (d : IndexDecl) (i : Image) : Prop where
  registered : c.host.server.Registered
  image : c.image? = some i
  schema : i.schema = s
  active : s.order? c.record.index = some d
  stored : ∀ a ∈ i.rows.entries, s.Conforms a.2

structure Sound (c : Scan) (s : Schema) (d : IndexDecl) (i : Image) : Prop extends
    Scans c s d i where
  given : ∀ a ∈ c.returned, s.Conforms a.2
  ascending : c.returned.Pairwise (s.Precedes d)
  stands : c.Stands s d i

def Ahead (c : Scan) (s : Schema) (d : IndexDecl) (b : RowId × Row) : Prop :=
  ∃ a, c.returned.getLast? = some a ∧ c.record.cursor = .positioned a.1 ∧ s.Precedes d a b

def Covers (c : Scan) (s : Schema) (d : IndexDecl) (i : Image) (k : RowId) : Prop :=
  ∀ b ∈ i.rows.entries, b.1 = k → (∃ a ∈ c.returned, a.1 = k) ∨ c.Ahead s d b

def Behind (c : Scan) (s : Schema) (d : IndexDecl) (i : Image) (k : RowId) : Prop :=
  ∀ b ∈ i.rows.entries, b.1 = k → ¬ c.Ahead s d b

structure Advances (c : Scan) (s : Schema) (d : IndexDecl) (i : Image)
    (a? : Option (RowId × Row)) (c' : Scan) : Prop where
  eq : c' = ⟨c.host, c.record.onto a?, c.returned ++ a?.toList⟩
  first : (c.record.cursor = .beyond ∧ a? = none) ∨
    ∃ a, c.returned.getLast? = some a ∧ c.record.cursor = .positioned a.1 ∧
      i.First d (s.Precedes d a) a?

theorem Scans.conforming (scans : c.Scans s d i) : i.Conforming := by
  intro e he
  rw [scans.schema]
  exact scans.stored e he

theorem Scans.order (scans : c.Scans s d i) : i.schema.order? c.record.index = some d := by
  rw [scans.schema]
  exact scans.active

theorem Scans.onto (scans : c.Scans s d i) (a? : Option (RowId × Row)) (returned) :
    Scans ⟨c.host, c.record.onto a?, returned⟩ s d i := by
  cases a? <;> exact ⟨scans.registered, scans.image, scans.schema, scans.active, scans.stored⟩

theorem Scans.sound_onto (scans : c.Scans s d i) (ha : ∀ a ∈ a?, a ∈ i.rows.entries)
    (given : ∀ a ∈ c.returned, s.Conforms a.2)
    (ascending : (c.returned ++ a?.toList).Pairwise (s.Precedes d)) :
    Sound ⟨c.host, c.record.onto a?, c.returned ++ a?.toList⟩ s d i where
  toScans := scans.onto a? _
  given a hmem := by
    rcases List.mem_append.1 hmem with hmem | hmem
    · exact given a hmem
    · exact scans.stored a (ha a (Option.mem_toList.1 hmem))
  ascending := ascending
  stands := by
    cases a? with
    | none => exact .past rfl
    | some a =>
      exact .on a a List.getLast?_concat rfl (ha a rfl) (.refl a)

theorem Sound.last_conforms (sound : c.Sound s d i) (last : c.returned.getLast? = some a) :
    s.Conforms a.2 := sound.given a (List.mem_of_getLast? last)

theorem Sound.ahead_iff (sound : c.Sound s d i) (ha : s.Conforms a.2) (hb : s.Conforms b.2)
    (same : s.SamePlace d a b) : c.Ahead s d a ↔ c.Ahead s d b := by
  constructor
  · rintro ⟨l, last, cursor, h⟩
    exact ⟨l, last, cursor, (same.iff_precedes ha hb (sound.last_conforms last)).1 h⟩
  · rintro ⟨l, last, cursor, h⟩
    exact ⟨l, last, cursor, (same.iff_precedes ha hb (sound.last_conforms last)).2 h⟩

theorem Sound.other (sound : c.Sound s d i) (quiet : c.Undisturbed (.other e)) :
    ∃ j, (c.step (.other e)).Sound s d j ∧ ∀ a ∈ i.rows.entries, ∀ b ∈ j.rows.entries,
      a.1 = b.1 → s.SamePlace d a b := by
  obtain ⟨i', j, hi, hj, hstays, hkeys⟩ := quiet
  rw [sound.image] at hi
  cases hi
  obtain ⟨hschema, hconforming⟩ := Host.image?_next sound.registered sound.image hj
  have hsame : ∀ a ∈ i.rows.entries, ∀ b ∈ j.rows.entries, a.1 = b.1 → s.SamePlace d a b := by
    intro a ha b hb hid
    refine ⟨hid, ?_⟩
    rw [← sound.schema]
    exact hkeys d sound.order a ha b hb hid
  have hstored : ∀ a ∈ j.rows.entries, s.Conforms a.2 := by
    intro a ha
    rw [← sound.schema, ← hschema]
    exact hconforming sound.conforming a ha
  have scans : (c.step (.other e)).Scans s d j := ⟨Host.registered_next sound.registered e, hj,
    hschema.trans sound.schema, sound.active, hstored⟩
  refine ⟨j, ⟨scans, sound.given, sound.ascending, ?_⟩, hsame⟩
  cases sound.stands with
  | past cursor => exact .past cursor
  | on a b last cursor stored same =>
    -- the row it stands on is still there, in its place
    have hthere : i.rows.contains a.1 = true := by
      rw [same.id, Rows.contains, Rows.mem_entries_iff.1 stored, Option.isSome_some]
    have hk : a.1 ∈ c.record.cursor.row? := by
      rw [cursor]
      rfl
    obtain ⟨row, hrow⟩ := Option.isSome_iff_exists.1 (hstays a.1 hk hthere)
    have hmem : (a.1, row) ∈ j.rows.entries := Rows.mem_entries_iff.2 hrow
    have hmoved := hsame b stored _ hmem same.id.symm
    exact .on a (a.1, row) last cursor hmem
      (same.trans (sound.last_conforms last) (sound.stored b stored) (hstored _ hmem) hmoved)

theorem step_next_eq (image : c.image? = some i) (bound : c.record.Bound t session)
    (cursor : c.record.cursor = .positioned k)
    (hmove : i.moveTo c.record.index (.next k) = .ok (a?.map (·.1)))
    (hmem : ∀ a ∈ a?, a ∈ i.rows.entries) :
    c.record.next t session c.host = (.ok (a?.map (·.1)), c.record.onto a?, c.host) ∧
      c.step (.next t session) = ⟨c.host, c.record.onto a?, c.returned ++ a?.toList⟩ := by
  have hnext : c.record.next t session c.host =
      (.ok (a?.map (·.1)), c.record.onto a?, c.host) := by
    simp only [Record.next, Record.moveOn, cursor]
    exact bound.move_eq image hmove hmem
  refine ⟨hnext, ?_⟩
  rw [step, hnext]
  exact c.took_eq _ _ a?

theorem Sound.next (sound : c.Sound s d i) (bound : c.record.Bound t session) :
    ∃ a?, (c.record.next t session c.host).1 = .ok (a?.map (·.1)) ∧
      c.Advances s d i a? (c.step (.next t session)) := by
  cases sound.stands with
  | past cursor =>
    have hnext : c.record.next t session c.host = (.ok none, c.record.onto none, c.host) := by
      have honto : c.record.onto none = c.record := by
        rw [Record.onto, ← cursor]
      simp only [Record.next, Record.moveOn, cursor, bound.checked, Except.map, honto]
    exact ⟨none, by rw [hnext]; rfl, by rw [step, hnext]; exact c.took_eq _ _ none,
      .inl ⟨cursor, rfl⟩⟩
  | on a b last cursor stored same =>
    obtain ⟨a?, hmove, hfirst⟩ := Image.moveTo_next sound.conforming sound.order stored
    have hmem : ∀ a ∈ a?, a ∈ i.rows.entries := by
      rintro a rfl
      exact hfirst.1
    rw [← same.id] at hmove
    obtain ⟨hnext, hstep⟩ := step_next_eq sound.image bound cursor hmove hmem
    refine ⟨a?, by rw [hnext], hstep, .inr ⟨a, last, cursor, hfirst.congr ?_⟩⟩
    intro e he
    rw [sound.schema]
    exact (same.precedes_iff (sound.last_conforms last) (sound.stored b stored)
      (sound.stored e he)).symm

theorem Sound.upto_last (sound : c.Sound s d i) (last : c.returned.getLast? = some a)
    (hb : b ∈ c.returned) : b = a ∨ s.Precedes d b a := by
  obtain ⟨front, hfront⟩ := List.getLast?_eq_some_iff.1 last
  have hascending := sound.ascending
  rw [hfront, List.pairwise_append] at hascending
  rw [hfront] at hb
  rcases List.mem_append.1 hb with hb | hb
  · exact .inr (hascending.2.2 b hb a (List.mem_singleton_self a))
  · exact .inl (List.mem_singleton.1 hb)

theorem Sound.advance (sound : c.Sound s d i) (adv : c.Advances s d i a? c') : c'.Sound s d i := by
  obtain ⟨rfl, hfirst⟩ := adv
  cases a? with
  | none =>
    have hnone : ∀ a ∈ (none : Option (RowId × Row)), a ∈ i.rows.entries := fun _ ha => nomatch ha
    apply sound.sound_onto hnone sound.given
    rw [Option.toList_none, List.append_nil]
    exact sound.ascending
  | some b =>
    obtain ⟨-, hnone⟩ | ⟨a, last, -, hb, hab, -⟩ := hfirst
    · cases hnone
    · apply sound.sound_onto (fun _ ha => Option.some.inj ha ▸ hb) sound.given
      rw [Option.toList_some, List.pairwise_append]
      refine ⟨sound.ascending, List.pairwise_singleton _ _, ?_⟩
      intro x hx y hy
      rw [List.mem_singleton.1 hy]
      rcases sound.upto_last last hx with rfl | hxa
      · exact hab
      · exact hxa.trans (sound.given x hx) (sound.last_conforms last) (sound.stored b hb) hab

theorem ahead_onto : Ahead ⟨c.host, c.record.onto (some a), c.returned ++ [a]⟩ s d b ↔
    s.Precedes d a b := by
  constructor
  · rintro ⟨l, last, -, h⟩
    rw [List.getLast?_concat] at last
    cases last
    exact h
  · intro h
    exact ⟨a, List.getLast?_concat, rfl, h⟩

theorem not_ahead_past (cursor : c.record.cursor = .beyond) : ¬ c.Ahead s d b := by
  rintro ⟨l, -, hcursor, -⟩
  rw [cursor] at hcursor
  cases hcursor

theorem Covers.advance (covers : c.Covers s d i k) (sound : c.Sound s d i)
    (adv : c.Advances s d i a? c') : c'.Covers s d i k := by
  obtain ⟨rfl, hfirst⟩ := adv
  intro b hb hk
  rcases covers b hb hk with ⟨a, ha, hak⟩ | hahead
  · exact .inl ⟨a, List.mem_append_left _ ha, hak⟩
  · obtain ⟨l, last, cursor, hlb⟩ := hahead
    obtain ⟨hpast, -⟩ | ⟨l', last', -, hfirst⟩ := hfirst
    · rw [hpast] at cursor
      cases cursor
    · cases last.symm.trans last'
      cases a? with
      | none => exact absurd hlb (hfirst b hb)
      | some a =>
        rcases hfirst.2.2 b hb hlb with rfl | hab
        · exact .inl ⟨b, List.mem_append_right _ (List.mem_singleton_self b), hk⟩
        · rw [sound.schema] at hab
          exact .inr (ahead_onto.2 hab)

theorem Behind.advance (behind : c.Behind s d i k) (sound : c.Sound s d i)
    (adv : c.Advances s d i a? c') : c'.Behind s d i k ∧ ∀ a ∈ a?, a.1 ≠ k := by
  obtain ⟨rfl, hfirst⟩ := adv
  cases a? with
  | none => exact ⟨fun b _ _ => not_ahead_past rfl, fun _ ha => nomatch ha⟩
  | some a =>
    obtain ⟨-, hnone⟩ | ⟨l, last, cursor, ha, hla, -⟩ := hfirst
    · cases hnone
    constructor
    · intro b hb hk hahead
      have hlb := hla.trans (sound.last_conforms last) (sound.stored a ha) (sound.stored b hb)
        (ahead_onto.1 hahead)
      exact behind b hb hk ⟨l, last, cursor, hlb⟩
    · rintro _ ⟨⟩ hk
      exact behind a ha hk ⟨l, last, cursor, hla⟩

theorem Present.stored (present : c.Present k) (sound : c.Sound s d i) :
    ∃ a ∈ i.rows.entries, a.1 = k := by
  obtain ⟨i', hi, hk⟩ := present
  rw [sound.image] at hi
  cases hi
  obtain ⟨row, hrow⟩ := Option.isSome_iff_exists.1 hk
  exact ⟨(k, row), Rows.mem_entries_iff.2 hrow, rfl⟩

theorem Sound.ahead_other (sound : c.Sound s d i) (sound' : (c.step (.other e)).Sound s d j)
    (same : ∀ a ∈ i.rows.entries, ∀ b ∈ j.rows.entries, a.1 = b.1 → s.SamePlace d a b)
    (present : c.Present k) (hb : b ∈ j.rows.entries) (hk : b.1 = k) :
    ∃ a ∈ i.rows.entries, a.1 = k ∧ ((c.step (.other e)).Ahead s d b ↔ c.Ahead s d a) := by
  obtain ⟨a, ha, hak⟩ := present.stored sound
  have hsame := same a ha b hb (hak.trans hk.symm)
  exact ⟨a, ha, hak, (sound.ahead_iff (sound.stored a ha) (sound'.stored b hb) hsame).symm⟩

theorem Sound.turn (sound : c.Sound s d i) {turn : Turn} (quiet : c.Undisturbed turn) :
    ∃ j, (c.step turn).Sound s d j := by
  cases turn with
  | next t session =>
    obtain ⟨a?, -, adv⟩ := sound.next quiet
    exact ⟨i, sound.advance adv⟩
  | other e =>
    obtain ⟨j, sound', -⟩ := sound.other quiet
    exact ⟨j, sound'⟩

theorem Sound.run (sound : c.Sound s d i) {ts : List Turn} (quiet : Along step Undisturbed c ts) :
    ∃ j, (c.run ts).Sound s d j := by
  have hstep : ∀ c turn, Undisturbed c turn → (∃ j, Sound c s d j) →
      ∃ j, (c.step turn).Sound s d j := by
    rintro c turn quiet ⟨j, sound⟩
    exact sound.turn quiet
  exact quiet.keeps hstep ⟨i, sound⟩

theorem Sound.covers_turn (sound : c.Sound s d i) (covers : c.Covers s d i k) {turn : Turn}
    (quiet : c.Undisturbed turn) (present : c.Present k) :
    ∃ j, (c.step turn).Sound s d j ∧ (c.step turn).Covers s d j k := by
  cases turn with
  | next t session =>
    obtain ⟨a?, -, adv⟩ := sound.next quiet
    exact ⟨i, sound.advance adv, covers.advance sound adv⟩
  | other e =>
    obtain ⟨j, sound', same⟩ := sound.other quiet
    refine ⟨j, sound', fun b hb hk => ?_⟩
    obtain ⟨a, ha, hak, hiff⟩ := sound.ahead_other sound' same present hb hk
    rw [hiff]
    exact covers a ha hak

theorem Sound.behind_turn (sound : c.Sound s d i) (behind : c.Behind s d i k) {turn : Turn}
    (quiet : c.Undisturbed turn) (present : c.Present k) :
    ∃ j more, (c.step turn).Sound s d j ∧ (c.step turn).Behind s d j k ∧
      (c.step turn).returned = c.returned ++ more ∧ ∀ a ∈ more, a.1 ≠ k := by
  cases turn with
  | next t session =>
    obtain ⟨a?, -, adv⟩ := sound.next quiet
    obtain ⟨behind', hne⟩ := behind.advance sound adv
    refine ⟨i, a?.toList, sound.advance adv, behind', by rw [adv.eq], fun a ha => ?_⟩
    exact hne a (Option.mem_toList.1 ha)
  | other e =>
    obtain ⟨j, sound', same⟩ := sound.other quiet
    refine ⟨j, [], sound', fun b hb hk => ?_, (List.append_nil _).symm, fun _ ha => nomatch ha⟩
    obtain ⟨a, ha, hak, hiff⟩ := sound.ahead_other sound' same present hb hk
    rw [hiff]
    exact behind a ha hak

theorem Sound.covers_run (sound : c.Sound s d i) (covers : c.Covers s d i k) {ts : List Turn}
    (quiet : Along step Undisturbed c ts) (stays : c.Stays ts k) :
    ∃ j, (c.run ts).Sound s d j ∧ (c.run ts).Covers s d j k := by
  have hstep : ∀ c turn, Undisturbed c turn ∧ Present c k →
      (∃ j, Sound c s d j ∧ Covers c s d j k) →
      ∃ j, (c.step turn).Sound s d j ∧ (c.step turn).Covers s d j k := by
    rintro c turn ⟨quiet, present⟩ ⟨j, sound, covers⟩
    exact sound.covers_turn covers quiet present
  exact (quiet.both stays).keeps hstep ⟨i, sound, covers⟩

theorem Sound.behind_run (sound : c.Sound s d i) (behind : c.Behind s d i k) {ts : List Turn}
    (quiet : Along step Undisturbed c ts) (stays : c.Stays ts k) :
    ∃ more, (c.run ts).returned = c.returned ++ more ∧ ∀ a ∈ more, a.1 ≠ k := by
  have hstep : ∀ c' turn, Undisturbed c' turn ∧ Present c' k →
      (∃ j more, Sound c' s d j ∧ Behind c' s d j k ∧ c'.returned = c.returned ++ more ∧
        ∀ a ∈ more, a.1 ≠ k) →
      ∃ j more, (c'.step turn).Sound s d j ∧ (c'.step turn).Behind s d j k ∧
        (c'.step turn).returned = c.returned ++ more ∧ ∀ a ∈ more, a.1 ≠ k := by
    rintro c' turn ⟨quiet, present⟩ ⟨j, more, sound, behind, hmore, hne⟩
    obtain ⟨j', rest, sound', behind', hrest, hne'⟩ := sound.behind_turn behind quiet present
    refine ⟨j', more ++ rest, sound', behind', ?_, ?_⟩
    · rw [hrest, hmore, List.append_assoc]
    · intro a ha
      exact (List.mem_append.1 ha).elim (hne a) (hne' a)
  obtain ⟨-, more, -, -, hmore, hne⟩ := (quiet.both stays).keeps hstep
    ⟨i, [], sound, behind, (List.append_nil _).symm, fun _ ha => nomatch ha⟩
  exact ⟨more, hmore, hne⟩

theorem Sound.behind_current (sound : c.Sound s d i) (cursor : c.record.cursor = .positioned k) :
    c.Behind s d i k := by
  rintro b hb hk ⟨l, last, hcursor, hlb⟩
  cases sound.stands with
  | past hpast =>
    rw [hpast] at cursor
    cases cursor
  | on l' b' last' cursor' stored same =>
    cases last.symm.trans last'
    rw [cursor] at cursor'
    cases cursor'
    -- there is one row under the number
    have hrow := Rows.mem_entries_iff.1 hb
    rw [hk, same.id, Rows.mem_entries_iff.1 stored] at hrow
    have heq : b = b' := Prod.ext (hk.trans same.id) (Option.some.inj hrow).symm
    rw [Schema.Precedes, heq, same.compareEntries_eq] at hlb
    cases hlb

theorem begin_sound {r : Record} {h : Host} (scans : Scans ⟨h, r, []⟩ s d i)
    (bound : r.Bound t session) : (∃ k?, (r.first t session h).1 = .ok k?) ∧
      (begin r t session h).Sound s d i ∧ ∀ k, (begin r t session h).Covers s d i k := by
  obtain ⟨a?, hmove, hfirst⟩ := Image.moveTo_first scans.conforming scans.order
  have hmem : ∀ a ∈ a?, a ∈ i.rows.entries := by
    rintro a rfl
    exact hfirst.1
  have hbegin : r.first t session h = (.ok (a?.map (·.1)), r.onto a?, h) :=
    bound.move_eq scans.image hmove hmem
  have heq : begin r t session h = ⟨h, r.onto a?, a?.toList⟩ := by
    rw [begin, hbegin, took_eq, List.nil_append]
  refine ⟨⟨_, by rw [hbegin]⟩, ?_, ?_⟩
  · rw [heq]
    apply scans.sound_onto hmem (fun _ ha => nomatch ha)
    cases a? <;> simp
  · intro k b hb hk
    rw [heq]
    cases a? with
    | none => exact absurd trivial (hfirst b hb)
    | some a =>
      rcases hfirst.2.2 b hb trivial with rfl | hab
      · exact .inl ⟨b, List.mem_singleton_self b, hk⟩
      · rw [scans.schema] at hab
        exact .inr ⟨a, rfl, rfl, hab⟩

theorem next_past (cursor : c.record.cursor = .beyond) (t : Table) (session : Session Host)
    (h : Host) : c.record.next t session h =
      ((c.record.checkBound t session).map fun _ => none, c.record, h) := by
  simp only [Record.next, Record.moveOn, cursor]

theorem step_past (cursor : c.record.cursor = .beyond) (turn : Turn) :
    (c.step turn).record = c.record ∧ (c.step turn).returned = c.returned := by
  cases turn with
  | other => exact ⟨rfl, rfl⟩
  | next t session =>
    rw [step, next_past cursor]
    cases c.record.checkBound t session <;> exact ⟨rfl, rfl⟩

theorem run_past (cursor : c.record.cursor = .beyond) (ts : List Turn) :
    (c.run ts).record = c.record ∧ (c.run ts).returned = c.returned := by
  induction ts generalizing c with
  | nil => exact ⟨rfl, rfl⟩
  | cons turn ts ih =>
    obtain ⟨hrecord, hreturned⟩ := step_past cursor turn
    obtain ⟨hrun, hmore⟩ := ih (c := c.step turn) (hrecord ▸ cursor)
    exact ⟨hrun.trans hrecord, hmore.trans hreturned⟩

theorem Sound.gone (sound : c.Sound s d i) (cursor : c.record.cursor = .positioned k)
    {es : List Event}
    (opened : Along Host.next (fun h e => (h.next e).image? c.record.handle ≠ none) c.host es)
    (gone : ∀ j, (c.host.run es).image? c.record.handle = some j → j.rows.get? k = none)
    (bound : c.record.Bound t session) : c.record.next t session (c.host.run es) =
      (.error (.noRow k), c.record, c.host.run es) := by
  have hstep : ∀ (h : Host) e, (h.next e).image? c.record.handle ≠ none →
      (h.server.Registered ∧ ∃ j, h.image? c.record.handle = some j ∧ j.schema = s) →
      (h.next e).server.Registered ∧
        ∃ j, (h.next e).image? c.record.handle = some j ∧ j.schema = s := by
    rintro h e hopen ⟨inv, j, hj, hschema⟩
    obtain ⟨j', hj'⟩ := Option.ne_none_iff_exists'.1 hopen
    exact ⟨Host.registered_next inv e, j', hj', (Host.image?_next inv hj hj').1.trans hschema⟩
  obtain ⟨-, j, hj, hschema⟩ := opened.keeps hstep ⟨sound.registered, i, sound.image, sound.schema⟩
  have active : j.schema.order? c.record.index = some d := by
    rw [hschema]
    exact sound.active
  exact bound.next_gone hj active cursor (gone j hj)

/-- A scan goes through a table whose rows conform, while others keep the row that it stands on and
the keys of all rows that stay. The rows that it returns ascend strictly, and none is returned again
as long as it is there. The scan does not fail. Once it is past the last row it has returned all that
were there throughout, and it stays there. If the row that it stands on is deleted, its next move
fails and changes nothing. -/
theorem scan_stable (config : EngineConfig) (disk : Disk) (es : List Event) {r : Record} {t : Table}
    {session : Session Host} {i : Image} {d : IndexDecl} (bound : r.Bound t session)
    (image : ((Host.start config disk).run es).image? r.handle = some i)
    (conforming : i.Conforming) (active : i.schema.order? r.index = some d) {ts : List Turn}
    (quiet : Along step Undisturbed
      (begin r t session ((Host.start config disk).run es)) ts) :
    let first := begin r t session ((Host.start config disk).run es)
    let c := first.run ts
    (∃ k?, (r.first t session ((Host.start config disk).run es)).1 = .ok k?) ∧
    c.returned.Pairwise (i.schema.Precedes d) ∧
    (∀ k us, c.record.cursor = .positioned k → Along step Undisturbed c us → c.Stays us k →
      ∃ more, (c.run us).returned = c.returned ++ more ∧ ∀ a ∈ more, a.1 ≠ k) ∧
    (∀ t session, c.record.Bound t session →
      ∃ k?, (c.record.next t session c.host).1 = .ok k? ∧ (k? = none →
        (c.step (.next t session)).record.cursor = .beyond ∧
        ∀ k, first.Throughout ts k → ∃ a ∈ c.returned, a.1 = k)) ∧
    (c.record.cursor = .beyond → ∀ us, (c.run us).record = c.record ∧
      (c.run us).returned = c.returned ∧
      ∀ t session h, c.record.Bound t session →
        c.record.next t session h = (.ok none, c.record, h)) ∧
    ∀ k es t session, c.record.cursor = .positioned k →
      Along Host.next (fun h e => (h.next e).image? c.record.handle ≠ none) c.host es →
      (∀ j, (c.host.run es).image? c.record.handle = some j → j.rows.get? k = none) →
      c.record.Bound t session → c.record.next t session (c.host.run es) =
        (.error (.noRow k), c.record, c.host.run es) ∧ (Error.noRow k).kind = .notFound := by
  intro first c
  have scans : Scans ⟨(Host.start config disk).run es, r, []⟩ i.schema d i :=
    ⟨Host.registered_run config disk es, image, rfl, active, conforming⟩
  obtain ⟨answered, sound₀, covers⟩ := begin_sound scans bound
  obtain ⟨j, sound⟩ : ∃ j, c.Sound i.schema d j := sound₀.run quiet
  refine ⟨answered, sound.ascending, ?_, ?_, ?_, ?_⟩
  · intro k us cursor quiet' stays
    exact sound.behind_run (sound.behind_current cursor) quiet' stays
  · intro t session bound'
    obtain ⟨a?, hanswer, adv⟩ := sound.next bound'
    refine ⟨_, hanswer, fun hnone => ?_⟩
    have ha : a? = none := Option.map_eq_none_iff.1 hnone
    subst ha
    have cursor : (c.step (.next t session)).record.cursor = .beyond := by
      rw [adv.eq]
      rfl
    refine ⟨cursor, fun k present => ?_⟩
    obtain ⟨j', sound', covers'⟩ := sound₀.covers_run (covers k) quiet present.1
    obtain ⟨b, hb, hk⟩ := present.2.stored sound'
    cases sound.image.symm.trans sound'.image
    rcases covers'.advance sound adv b hb hk with hgiven | hahead
    · rwa [adv.eq, Option.toList_none, List.append_nil] at hgiven
    · exact absurd hahead (not_ahead_past cursor)
  · intro cursor us
    obtain ⟨hrecord, hreturned⟩ := run_past cursor us
    refine ⟨hrecord, hreturned, fun t session h bound' => ?_⟩
    rw [next_past cursor, bound'.checked]
    rfl
  · intro k es t session cursor opened gone bound'
    exact ⟨sound.gone cursor opened gone bound', rfl⟩

def byId : IndexDecl := { name := "by_id", kind := .fixed, segments := [⟨"id", ⟨true, false⟩⟩] }

def down : Schema := .ofDecls [⟨"id", .uInteger, 4, 0, .none⟩] [byId]

def threeWritten : List Event := [.call (.connect "FAIRCOMS" ⟨"", ""⟩),
  .call (.createTable 1 Host.address down .normal), .call (.writeRow 3 none [.unsigned 7]),
  .call (.writeRow 3 none [.unsigned 9]), .call (.writeRow 3 none [.unsigned 8])]

def threeRows : Image :=
  ⟨down, ⟨[(1, [.unsigned 7]), (2, [.unsigned 9]), (3, [.unsigned 8])], by decide⟩, 4⟩

def reader : Session Host :=
  { engine := Host.engine, config := {}, dateFormat := .mdcy, connection := some 1 }

def readTable : Table := { id := 1, binding := some ⟨1, 3, .normal⟩ }

def unread : Record := { handle := 3, values := [], index := some 0 }

def fourRows : Image := (threeRows.store none [.unsigned 6]).2

def onRow (a : RowId × Row) : Record := unread.onto (some a)

def interleaved : List Turn := [.other (.call (.writeRow 3 none [.unsigned 6])),
  .next readTable reader, .other (.call (.deleteRow 3 2))]

theorem threeRows_conforming : threeRows.Conforming := by
  intro e he
  apply Schema.checkRow_eq_ok.1
  revert e
  decide

theorem threeRows_inOrder : threeRows.inOrder byId =
    [(2, [.unsigned 9]), (3, [.unsigned 8]), (1, [.unsigned 7])] :=
  Image.inOrder_eq threeRows_conforming (by decide) (by decide +kernel)

theorem fourRows_inOrder : fourRows.inOrder byId =
    [(2, [.unsigned 9]), (3, [.unsigned 8]), (1, [.unsigned 7]), (4, [.unsigned 6])] :=
  Image.inOrder_eq (threeRows_conforming.store rfl) (by decide) (by decide +kernel)

theorem unread_bound : unread.Bound readTable reader := ⟨rfl, by decide⟩

theorem onRow_bound (a : RowId × Row) : (onRow a).Bound readTable reader :=
  unread_bound.onto (some a)

section Interleaved

variable {h h' : Host}

theorem begin_unread (image : h.image? 3 = some threeRows) :
    begin unread readTable reader h = ⟨h, onRow (2, [.unsigned 9]), [(2, [.unsigned 9])]⟩ := by
  have hmove : threeRows.moveTo (some 0) .first =
      .ok ((some (2, [.unsigned 9])).map (·.1 : RowId × Row → RowId)) := by
    rw [Image.moveTo, Image.orderedRows_eq (d := byId) rfl, threeRows_inOrder]
    rfl
  rw [begin, Record.first, unread_bound.move_eq image hmove (by decide)]
  rfl

theorem step_unread (image : h'.image? 3 = some fourRows) :
    step ⟨h', onRow (2, [.unsigned 9]), [(2, [.unsigned 9])]⟩ (.next readTable reader) =
      ⟨h', onRow (3, [.unsigned 8]), [(2, [.unsigned 9]), (3, [.unsigned 8])]⟩ := by
  have hmove : fourRows.moveTo (some 0) (.next 2) =
      .ok ((some (3, [.unsigned 8])).map (·.1 : RowId × Row → RowId)) := by
    rw [Image.moveTo, Image.orderedRows_eq (d := byId) rfl, fourRows_inOrder]
    rfl
  exact (step_next_eq (c := ⟨h', onRow (2, [.unsigned 9]), [(2, [.unsigned 9])]⟩) image
    (onRow_bound _) rfl hmove (by decide)).2

theorem interleaved_quiet (image : h.image? 3 = some threeRows)
    (hwrite : h.next (.call (.writeRow 3 none [.unsigned 6])) = h')
    (written : h'.image? 3 = some fourRows)
    (deleted : (h'.next (.call (.deleteRow 3 2))).image? 3 = some (fourRows.remove 2)) :
    Along step Undisturbed (begin unread readTable reader h) interleaved ∧
      ((begin unread readTable reader h).run interleaved).returned =
        [(2, [.unsigned 9]), (3, [.unsigned 8])] := by
  have hstep : step ⟨h, onRow (2, [.unsigned 9]), [(2, [.unsigned 9])]⟩
      (.other (.call (.writeRow 3 none [.unsigned 6]))) =
      ⟨h', onRow (2, [.unsigned 9]), [(2, [.unsigned 9])]⟩ := by rw [step, hwrite]
  have kept : threeRows.KeepsPlaces fourRows (onRow (2, [.unsigned 9])) := by decide +kernel
  have kept' : fourRows.KeepsPlaces (fourRows.remove 2) (onRow (3, [.unsigned 8])) := by
    decide +kernel
  constructor
  · rw [begin_unread image, interleaved, Along, hstep, Along, step_unread written]
    exact ⟨⟨_, _, image, hstep ▸ written, kept⟩, onRow_bound _, ⟨_, _, written, deleted, kept'⟩,
      trivial⟩
  · rw [begin_unread image, run, interleaved, List.foldl_cons, hstep, List.foldl_cons,
      step_unread written]
    rfl

end Interleaved

theorem interleaved_stable :
    let h := (Host.start {} .empty).run threeWritten
    let c := (begin unread readTable reader h).run interleaved
    c.returned.map (·.1) = [2, 3] ∧ c.returned.Pairwise (down.Precedes byId) ∧
      ∀ k us, c.record.cursor = .positioned k → Along step Undisturbed c us →
        c.Stays us k →
          ∃ more, (c.run us).returned = c.returned ++ more ∧ ∀ a ∈ more, a.1 ≠ k := by
  have image : ((Host.start {} .empty).run threeWritten).image? 3 = some threeRows := by
    decide +kernel
  have written : (((Host.start {} .empty).run threeWritten).next
      (.call (.writeRow 3 none [.unsigned 6]))).image? 3 = some fourRows := by
    decide +kernel
  have deleted : ((((Host.start {} .empty).run threeWritten).next
      (.call (.writeRow 3 none [.unsigned 6]))).next
      (.call (.deleteRow 3 2))).image? 3 = some (fourRows.remove 2) := by decide +kernel
  obtain ⟨quiet, returned⟩ := interleaved_quiet image rfl written deleted
  have stable := scan_stable {} .empty threeWritten unread_bound image threeRows_conforming rfl quiet
  exact ⟨by rw [returned]; rfl, stable.2.1, stable.2.2.1⟩

end Scan
end Isam
