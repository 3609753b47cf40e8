import Isam.Proofs.Lock.WellFormed
import Mathlib.Data.Set.Card
namespace Isam.LockTable

open FiniteMap

variable {t : LockTable} {o : ConnectionId} {r : LockResource}

theorem encard_eq_length {α : Type} {P : α → Prop} {l : List α} (hl : l.Nodup)
    (hP : ∀ a, P a ↔ a ∈ l) : {a | P a}.encard = l.length := by
  classical
  have hset : {a | P a} = (l.toFinset : Set α) := by
    rw [List.coe_toFinset]
    exact Set.ext hP
  rw [hset, Set.encard_coe_eq_coe_finsetCard, List.toFinset_card_of_nodup hl]

theorem WellFormed.entered_iff (h : t.WellFormed) :
    (∃ o, (t.holds? o r).isSome) ↔ r ∈ keys t.holders := by
  simp only [holds?_isSome, mem_keys_iff, holdersOf]
  cases hr : get? t.holders r with
  | none => simp
  | some hs =>
    have hne : hs ≠ [] := fun hnil => h.occupied r (hnil ▸ hr)
    obtain ⟨⟨o, k⟩, hx⟩ := List.exists_mem_of_ne_nil hs hne
    exact ⟨fun _ => ⟨hs, rfl⟩, fun _ => ⟨o, k, hx⟩⟩

theorem WellFormed.held_iff (h : t.WellFormed) :
    (t.holds? o r).isSome ↔ ∃ rs, (o, rs) ∈ t.owned ∧ r ∈ rs := by
  rw [holds?_isSome, ← h.indexed, ownedBy]
  simp only [mem_iff_get? h.owners]
  cases get? t.owned o <;> simp

theorem WellFormed.encard_resources (h : t.WellFormed) :
    {r | ∃ o, (t.holds? o r).isSome}.encard = t.stats.resources := by
  rw [encard_eq_length h.distinct fun r => h.entered_iff, keys, List.length_map]
  rfl

theorem WellFormed.encard_owners (h : t.WellFormed) :
    {o | ∃ r, (t.holds? o r).isSome}.encard = t.stats.owners := by
  have hnodup : (keys (t.owned.filter fun e => !e.2.isEmpty)).Nodup :=
    h.owners.sublist (List.filter_sublist.map _)
  have hmem (o : ConnectionId) : (∃ r, (t.holds? o r).isSome) ↔
      o ∈ keys (t.owned.filter fun e => !e.2.isEmpty) := by
    simp only [h.held_iff, keys, List.mem_map, List.mem_filter]
    constructor
    · rintro ⟨r, rs, hrs, hr⟩
      exact ⟨(o, rs), ⟨hrs, by simpa using List.ne_nil_of_mem hr⟩, rfl⟩
    · rintro ⟨⟨o, rs⟩, ⟨hrs, hne⟩, rfl⟩
      obtain ⟨r, hr⟩ := List.exists_mem_of_ne_nil rs (by simpa using hne)
      exact ⟨r, rs, hrs, hr⟩
  rw [encard_eq_length hnodup hmem, keys, List.length_map]
  rfl

def holdings (t : LockTable) : List (ConnectionId × LockResource) :=
  t.owned.flatMap fun e => e.2.map (e.1, ·)

theorem WellFormed.nodup_holdings (h : t.WellFormed) : t.holdings.Nodup := by
  refine List.nodup_flatMap.2 ⟨fun e he => ?_, ?_⟩
  · have hlisted := h.listed e.1
    rw [ownedBy, (mem_iff_get? h.owners).1 he] at hlisted
    exact hlisted.map fun _ _ heq => (Prod.mk.inj heq).2
  · refine (List.pairwise_map.1 h.owners).imp fun hne x hx hx' => hne ?_
    obtain ⟨r, -, rfl⟩ := List.mem_map.1 hx
    obtain ⟨r', -, heq⟩ := List.mem_map.1 hx'
    exact (Prod.mk.inj heq).1.symm

theorem WellFormed.encard_held (h : t.WellFormed) :
    {x : ConnectionId × LockResource | (t.holds? x.1 x.2).isSome}.encard = t.stats.held := by
  have hmem (x : ConnectionId × LockResource) :
      (t.holds? x.1 x.2).isSome ↔ x ∈ t.holdings := by
    obtain ⟨o, r⟩ := x
    simp [h.held_iff, holdings]
  rw [encard_eq_length h.nodup_holdings hmem]
  simp [holdings, stats, List.length_flatMap]

/-- In every state that calls of any owners on any resources lead to, the holders of a resource are
distinct, an exclusive one is alone, each resource is entered once and only while it is held, and the
index from owners back is exact. So the statistics count the resources that are held, the owners
that hold some, and the holdings. -/
theorem lock_table_exact (cs : List LockCall) :
    let t := empty.run cs
    (∀ r, ((t.holdersOf r).map (·.1)).Nodup) ∧
    (∀ r o, (o, .exclusive) ∈ t.holdersOf r → t.holdersOf r = [(o, .exclusive)]) ∧
    ((keys t.holders).Nodup ∧ ∀ e ∈ t.holders, e.2 ≠ []) ∧
    (∀ o r, r ∈ t.ownedBy o ↔ ∃ k, (o, k) ∈ t.holdersOf r) ∧
    t.stats.resources = {r | ∃ o, (t.holds? o r).isSome}.encard ∧
    t.stats.held = {x : ConnectionId × LockResource | (t.holds? x.1 x.2).isSome}.encard ∧
    t.stats.owners = {o | ∃ r, (t.holds? o r).isSome}.encard := by
  intro t
  have h : t.WellFormed := wellFormed_empty.run cs
  refine ⟨h.once, h.alone, ⟨h.distinct, ?_⟩, h.indexed, ?_⟩
  · rintro ⟨r, hs⟩ he rfl
    exact h.occupied r ((mem_iff_get? h.distinct).1 he)
  · exact ⟨h.encard_resources.symm, h.encard_held.symm, h.encard_owners.symm⟩

def sharedAndRefused : List LockCall :=
  [.acquire 1 .session .shared, .acquire 2 .session .shared, .acquire 1 (.row 3 1) .exclusive,
    .acquire 2 (.row 3 1) .shared]

theorem exact_sharedAndRefused :
    let t := empty.run sharedAndRefused
    (1, .exclusive) ∈ t.holdersOf (.row 3 1) ∧ t.holdersOf (.row 3 1) = [(1, .exclusive)] ∧
      {r | ∃ o, (t.holds? o r).isSome}.encard = 2 ∧ {o | ∃ r, (t.holds? o r).isSome}.encard = 2 ∧
      {x : ConnectionId × LockResource | (t.holds? x.1 x.2).isSome}.encard = 3 := by
  intro t
  obtain ⟨-, alone, -, -, resources, held, owners⟩ := lock_table_exact sharedAndRefused
  have hmem : (1, .exclusive) ∈ t.holdersOf (.row 3 1) := by decide
  have hstats : t.stats = ⟨2, 2, 3⟩ := by decide
  rw [hstats] at resources held owners
  exact ⟨hmem, alone _ _ hmem, resources.symm, owners.symm, held.symm⟩

end Isam.LockTable
