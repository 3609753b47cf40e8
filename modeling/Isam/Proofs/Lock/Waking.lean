import Isam.Proofs.Lock.Holdings
import Isam.Proofs.Server.Run
namespace Isam

variable {t u : LockTable} {c : LockCall} {o p : ConnectionId} {r q : LockResource} {k j i : LockKind}

namespace LockTable

def Wakes (t : LockTable) (c : LockCall) : Prop := (t.after c).releases ≠ t.releases

def Frees (t : LockTable) (c : LockCall) (o : ConnectionId) (r : LockResource) (k : LockKind) :
    Prop :=
  t.conflictingHolder? o r k ≠ none ∧ (t.after c).conflictingHolder? o r k = none

/-- The owner gives up an exclusive lock for a shared one. -/
def Lowers (t : LockTable) (c : LockCall) (p : ConnectionId) (r : LockResource) : Prop :=
  t.holds? p r = some .exclusive ∧ c = .acquire p r .shared

theorem releases_wake : t.wake.releases ≠ t.releases := by
  have hne (n : UInt64) : n + 1 ≠ n := by grind
  exact hne t.releases

theorem acquire_releases : (t.acquire o r k).2.releases = t.releases := by
  rw [acquire_eq]
  cases t.conflictingHolder? o r k <;> rfl

theorem foldl_dropHolder_releases (rs : List LockResource) :
    (rs.foldl (fun t r => t.dropHolder o r) t).releases = t.releases := by
  induction rs generalizing t with
  | nil => rfl
  | cons r rs ih => rw [List.foldl_cons, ih]; rfl

theorem releases_release :
    (t.release o r).2.releases ≠ t.releases ↔ (t.holds? o r).isSome = true := by
  cases hr : (t.holds? o r).isSome with
  | true =>
    simp only [release, hr, if_true, iff_true]
    exact releases_wake
  | false =>
    simp only [release, hr, dropHolder]
    simp

theorem releases_releaseEach (rs : List LockResource) :
    (t.releaseEach o rs).releases ≠ t.releases ↔ ∃ r ∈ rs, (t.holds? o r).isSome = true := by
  have hdropped := foldl_dropHolder_releases (t := t) (o := o) rs
  rw [← List.any_eq_true, releaseEach]
  cases rs.any fun r => (t.holds? o r).isSome with
  | true =>
    simp only [if_true, iff_true]
    rw [← hdropped]
    exact releases_wake
  | false => simp [hdropped]

theorem releases_releaseAll :
    (t.releaseAll o).releases ≠ t.releases ↔ ∃ r ∈ t.ownedBy o, (t.holds? o r).isSome = true :=
  releases_releaseEach _

theorem releases_releaseRows {file : FileId} : (t.releaseRows o file).releases ≠ t.releases ↔
    ∃ r ∈ t.ownedBy o, r.isRowOf file = true ∧ (t.holds? o r).isSome = true := by
  rw [releaseRows, ownedBy]
  cases FiniteMap.get? t.owned o with
  | none => simp
  | some rs =>
    simp only [Option.getD_some]
    refine (releases_releaseEach _).trans (exists_congr fun r => ?_)
    rw [List.mem_filter, and_assoc]
    exact Iff.rfl

theorem Indexed.mem_ownedBy (h : t.Indexed) :
    r ∈ t.ownedBy o ↔ (t.holds? o r).isSome = true := by
  rw [h, holds?_isSome]

theorem holds?_acquire : (t.acquire o r k).2.holds? p q =
    if t.conflictingHolder? o r k = none ∧ p = o ∧ q = r then some k else t.holds? p q := by
  rw [acquire_eq]
  cases t.conflictingHolder? o r k with
  | none => simp [holds?_grant]
  | some x => simp

def Clears (t u : LockTable) (o : ConnectionId) (P : LockResource → Prop) [DecidablePred P] : Prop :=
  ∀ p q, u.holds? p q = if p = o ∧ P q then none else t.holds? p q

theorem clears_release : t.Clears (t.release o r).2 o (r = ·) := fun _ _ => holds?_release

theorem Indexed.clears_releaseAll (h : t.Indexed) : t.Clears (t.releaseAll o) o fun _ => True := by
  intro p q
  simp only [h.holds?_releaseAll, and_true]

theorem Indexed.clears_releaseRows {file : FileId} (h : t.Indexed) :
    t.Clears (t.releaseRows o file) o (·.isRowOf file = true) := fun _ _ => h.holds?_releaseRows

theorem Clears.kept {P : LockResource → Prop} [DecidablePred P] (clears : t.Clears u o P)
    (kept : u.holds? p q = some k) : t.holds? p q = some k := by
  rw [clears] at kept
  split at kept
  · cases kept
  · exact kept

theorem Clears.loses_iff {P : LockResource → Prop} [DecidablePred P] (clears : t.Clears u o P) :
    (∃ p q, (t.holds? p q).isSome = true ∧ u.holds? p q = none) ↔
      ∃ q, P q ∧ (t.holds? o q).isSome = true := by
  constructor
  · rintro ⟨p, q, hheld, hlost⟩
    rw [clears] at hlost
    split at hlost
    · rename_i hpq
      exact ⟨q, hpq.2, hpq.1 ▸ hheld⟩
    · rw [hlost] at hheld
      cases hheld
  · rintro ⟨q, hq, hheld⟩
    exact ⟨o, q, hheld, by rw [clears, if_pos ⟨rfl, hq⟩]⟩

theorem Indexed.wakes_iff (h : t.Indexed) :
    t.Wakes c ↔ ∃ p q, (t.holds? p q).isSome = true ∧ (t.after c).holds? p q = none := by
  unfold Wakes
  cases c with
  | acquire o r k =>
    refine iff_of_false (not_not.2 acquire_releases) ?_
    rintro ⟨p, q, hheld, hlost⟩
    rw [after, holds?_acquire] at hlost
    split at hlost
    · cases hlost
    · rw [hlost] at hheld
      cases hheld
  | release o r =>
    rw [after, clears_release.loses_iff, releases_release]
    simp
  | releaseAll o =>
    rw [after, h.clears_releaseAll.loses_iff, releases_releaseAll]
    simp [h.mem_ownedBy]
  | releaseRows o file =>
    rw [after, h.clears_releaseRows.loses_iff, releases_releaseRows]
    apply exists_congr
    intro r
    rw [h.mem_ownedBy]
    tauto

theorem Compatible.conflictingHolder?_ne_none (h : t.Compatible) :
    t.conflictingHolder? o r k ≠ none ↔
      ∃ p j, p ≠ o ∧ t.holds? p r = some j ∧ (j = .exclusive ∨ k = .exclusive) := by
  constructor
  · intro hc
    obtain ⟨x, hx⟩ := Option.ne_none_iff_exists'.1 hc
    exact ⟨x.1, x.2, conflictingHolder?_eq_some h (fun _ _ => rfl) hx⟩
  · rintro ⟨p, j, hne, hheld, hexclusive⟩ hc
    obtain ⟨hj, hk⟩ := conflictingHolder?_eq_none.1 hc (p, j) (h.holds?_eq_some.1 hheld) hne
    rcases hexclusive with rfl | rfl
    · cases hj
    · cases hk

theorem Indexed.eq_acquire (h : t.Indexed) (before : t.holds? p q = some j)
    (kept : (t.after c).holds? p q = some i) (changed : j ≠ i) : c = .acquire p q i := by
  have hchanged : t.holds? p q ≠ some i := by
    rw [before]
    exact fun hji => changed (Option.some.inj hji)
  cases c with
  | acquire o r k =>
    rw [after, holds?_acquire] at kept
    split at kept
    · rename_i hpq
      rw [hpq.2.1, hpq.2.2, Option.some.inj kept]
    · exact absurd kept hchanged
  | release o r => exact absurd (clears_release.kept kept) hchanged
  | releaseAll o => exact absurd (h.clears_releaseAll.kept kept) hchanged
  | releaseRows o file => exact absurd (h.clears_releaseRows.kept kept) hchanged

theorem WellFormed.frees_of_lowers (h : t.WellFormed) (hne : p ≠ o) (hc : t.Lowers c p r) :
    t.Frees c o r .shared ∧ ¬ t.Wakes c := by
  obtain ⟨hheld, rfl⟩ := hc
  have halone := h.alone r p (h.holds?_eq_some.1 hheld)
  have hgranted : t.conflictingHolder? p r .shared = none := by
    rw [conflictingHolder?_eq_none, halone]
    intro x hx hxp
    rw [List.mem_singleton.1 hx] at hxp
    exact absurd rfl hxp
  refine ⟨⟨h.conflictingHolder?_ne_none.2 ⟨p, .exclusive, hne, hheld, .inl rfl⟩, ?_⟩,
    not_not.2 acquire_releases⟩
  rw [LockTable.after, acquire_eq, hgranted, conflictingHolder?_eq_none, holdersOf_grant, if_pos rfl,
    halone]
  simp [without]

theorem WellFormed.lowers_of_frees (h : t.WellFormed) (freed : t.Frees c o r k)
    (silent : ¬ t.Wakes c) : k = .shared ∧ ∃ p, p ≠ o ∧ t.Lowers c p r := by
  obtain ⟨hbefore, hafter⟩ := freed
  obtain ⟨p, j, hne, hheld, hexclusive⟩ := h.conflictingHolder?_ne_none.1 hbefore
  -- Whoever was in the way has lost its lock, or has it still and is no longer in the way.
  cases hkept : (t.after c).holds? p r with
  | none =>
    refine absurd (h.indexed.wakes_iff.2 ⟨p, r, ?_, hkept⟩) silent
    rw [hheld]
    rfl
  | some i =>
    have hmem := (h.after c).holds?_eq_some.1 hkept
    obtain ⟨rfl, rfl⟩ : i = .shared ∧ k = .shared :=
      conflictingHolder?_eq_none.1 hafter (p, i) hmem hne
    obtain rfl : j = .exclusive := hexclusive.resolve_right LockKind.noConfusion
    exact ⟨rfl, p, hne, hheld, h.indexed.eq_acquire hheld hkept LockKind.noConfusion⟩

end LockTable

inductive Waiter
  | trying
  | asleep
  | served
  deriving DecidableEq

structure Waiting where
  table : LockTable
  waiter : Waiter

namespace Waiting

open LockTable

inductive Turn
  | call (c : LockCall)
  | retry

variable {w : Waiting}

def next (o : ConnectionId) (r : LockResource) (k : LockKind) (w : Waiting) : Turn → Waiting
  | .call c =>
    let t := w.table.after c
    match w.waiter with
    | .asleep => ⟨t, if t.releases = w.table.releases then .asleep else .trying⟩
    | _ => ⟨t, w.waiter⟩
  | .retry =>
    match w.waiter with
    | .trying =>
      match w.table.acquire o r k with
      | (.ok _, t) => ⟨t, .served⟩
      | (.error _, t) => ⟨t, .asleep⟩
    | _ => w

def Unlowered (o : ConnectionId) (r : LockResource) (k : LockKind) (w : Waiting) (e : Turn) : Prop :=
  k = .shared → ∀ c p, e = .call c → p ≠ o → ¬ w.table.Lowers c p r

structure Sound (o : ConnectionId) (r : LockResource) (k : LockKind) (w : Waiting) : Prop where
  wellFormed : w.table.WellFormed
  refused : w.waiter = .asleep → w.table.conflictingHolder? o r k ≠ none

theorem Sound.call (h : w.Sound o r k) (unlowered : Unlowered o r k w (.call c)) :
    (w.next o r k (.call c)).Sound o r k := by
  obtain ⟨t, s⟩ := w
  have hwf := h.wellFormed.after c
  cases s with
  | trying => exact ⟨hwf, Waiter.noConfusion⟩
  | served => exact ⟨hwf, Waiter.noConfusion⟩
  | asleep =>
    refine ⟨hwf, fun hasleep hfree => ?_⟩
    have hsilent : ¬ t.Wakes c := by
      intro hwakes
      rw [next, if_neg hwakes] at hasleep
      cases hasleep
    obtain ⟨hk, p, hne, hlowers⟩ := h.wellFormed.lowers_of_frees ⟨h.refused rfl, hfree⟩ hsilent
    exact unlowered hk c p rfl hne hlowers

theorem Sound.retry (h : w.Sound o r k) : (w.next o r k .retry).Sound o r k := by
  obtain ⟨t, s⟩ := w
  cases s with
  | asleep => exact h
  | served => exact h
  | trying =>
    have hwf : t.WellFormed := h.wellFormed
    rw [next, acquire_eq]
    cases hc : t.conflictingHolder? o r k with
    | none => exact ⟨hwf.grant hc, Waiter.noConfusion⟩
    | some x =>
      refine ⟨hwf, fun _ hfree => ?_⟩
      rw [hc] at hfree
      cases hfree

theorem Sound.step (e : Turn) (unlowered : Unlowered o r k w e) (h : w.Sound o r k) :
    (w.next o r k e).Sound o r k := by
  cases e with
  | call c => exact h.call unlowered
  | retry => exact h.retry

end Waiting

namespace LockTable

/-- After any calls of any owners, the calls that wake the waiting owners are those by which an owner
loses a lock. So what frees a request wakes it, save for an owner that gives up an exclusive lock for
a shared one, which frees the shared requests of all others and wakes none. Where nobody does that, a
request that sleeps is one that would be refused. -/
theorem freed_requests_woken (cs : List LockCall) :
    let t := LockTable.empty.run cs
    (∀ c, t.Wakes c ↔
      ∃ p q, (t.holds? p q).isSome = true ∧ (t.after c).holds? p q = none) ∧
    (∀ c o r k, t.Frees c o r k ∧ ¬ t.Wakes c ↔ k = .shared ∧ ∃ p, p ≠ o ∧ t.Lowers c p r) ∧
    ∀ o r k es, Along (Waiting.next o r k) (Waiting.Unlowered o r k) ⟨t, .trying⟩ es →
      let w := es.foldl (Waiting.next o r k) ⟨t, .trying⟩
      w.waiter = .asleep → w.table.conflictingHolder? o r k ≠ none := by
  intro t
  have h : t.WellFormed := wellFormed_empty.run cs
  refine ⟨fun c => h.indexed.wakes_iff, ?_, ?_⟩
  · intro c o r k
    constructor
    · rintro ⟨hfreed, hsilent⟩
      exact h.lowers_of_frees hfreed hsilent
    · rintro ⟨rfl, p, hne, hlowers⟩
      exact h.frees_of_lowers hne hlowers
  · intro o r k es along
    have hstart : Waiting.Sound o r k ⟨t, .trying⟩ := ⟨h, Waiter.noConfusion⟩
    exact (along.keeps (fun w e => Waiting.Sound.step e) hstart).refused

theorem freed_requests_woken_beside :
    let t := LockTable.empty.run [.acquire 1 (.row 3 7) .exclusive]
    let es := [.retry, .call (.acquire 4 (.row 3 8) .exclusive), .call (.acquire 4 (.row 3 8) .shared)]
    let w := es.foldl (Waiting.next 2 (.row 3 7) .shared) ⟨t, .trying⟩
    w.waiter = .asleep ∧ w.table.conflictingHolder? 2 (.row 3 7) .shared ≠ none := by
  intro t es w
  obtain ⟨-, -, sleeps⟩ := freed_requests_woken [.acquire 1 (.row 3 7) .exclusive]
  have hasleep : w.waiter = .asleep := by decide
  refine ⟨hasleep, sleeps 2 (.row 3 7) .shared es ⟨?_, ?_, ?_, trivial⟩ hasleep⟩
  · intro _ c p hcall
    cases hcall
  · rintro _ c p hcall - ⟨-, hlowers⟩
    cases hcall
    cases hlowers
  · rintro _ c p hcall - ⟨-, hlowers⟩
    cases hcall
    cases hlowers

theorem lowering_wakes_nobody :
    let t := LockTable.empty.run [.acquire 1 (.row 3 7) .exclusive]
    let c : LockCall := .acquire 1 (.row 3 7) .shared
    let w := [.retry, .call c].foldl (Waiting.next 2 (.row 3 7) .shared) ⟨t, .trying⟩
    t.Frees c 2 (.row 3 7) .shared ∧ ¬ t.Wakes c ∧
      w.waiter = .asleep ∧ (w.table.acquire 2 (.row 3 7) .shared).1 = .ok () := by
  intro t c w
  refine ⟨⟨?_, ?_⟩, not_not.2 acquire_releases, by decide, acquire_eq_ok.2 ?_⟩
  all_goals decide

end LockTable
end Isam
