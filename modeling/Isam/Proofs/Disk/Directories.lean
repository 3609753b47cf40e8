import Isam.Disk.Tree
namespace Isam.Disk

variable {d e : Disk} {l m : Location} {bs : List UInt8}

def KeepsDirectories (d e : Disk) : Prop := ∀ l, d.isDirectory l = true → e.isDirectory l = true

theorem KeepsDirectories.refl (d : Disk) : d.KeepsDirectories d := fun _ h => h

theorem KeepsDirectories.trans {f : Disk} (h : d.KeepsDirectories e) (k : e.KeepsDirectories f) :
    d.KeepsDirectories f := fun l hl => k l (h l hl)

theorem keepsDirectories_put (n : Node) (h : n = .directory ∨ d.isDirectory l = false) :
    d.KeepsDirectories (d.put l n) := by
  intro m hm
  by_cases hroot : m = []
  · simp [isDirectory, node?, hroot]
  · simp only [isDirectory, decide_eq_true_eq, node?_put _ _ _ _ hroot] at hm ⊢
    split
    · rename_i hl
      rcases h with rfl | h
      · rfl
      · simp [isDirectory, hl, hm] at h
    · exact hm

theorem keepsDirectories_drop (h : d.isDirectory l = false) : d.KeepsDirectories (d.drop l) := by
  intro m hm
  by_cases hroot : m = []
  · simp [isDirectory, node?, hroot]
  · simp only [isDirectory, decide_eq_true_eq, node?_drop _ _ _ hroot] at hm ⊢
    split
    · rename_i hl
      simp [isDirectory, hl, hm] at h
    · exact hm

theorem isDirectory_of_accepts (h : d.accepts l = true) : d.isDirectory l = false := by
  simp only [accepts, Bool.and_eq_true, bne_iff_ne, ne_eq] at h
  simpa [isDirectory] using h.2

theorem write_cases (d : Disk) (l : Location) (bs : List UInt8) :
    d.write l bs = (false, d) ∨ d.accepts l = true ∧ ∃ written cs,
      d.write l bs = (written, d.put l (.file cs)) ∧
      (written = true → cs = bs ∧ bs.length < sizeLimit) := by
  unfold write
  cases hacc : d.accepts l with
  | false => exact .inl rfl
  | true =>
    cases FiniteMap.get? d.faults l with
    | some fault =>
      cases fault with
      | refused => exact .inl rfl
      | cut n => exact .inr ⟨rfl, false, bs.take n, rfl, nofun⟩
    | none =>
      by_cases hsize : sizeLimit ≤ bs.length
      · exact .inr ⟨rfl, false, [], by simp [hsize], nofun⟩
      · exact .inr ⟨rfl, true, bs, by simp [hsize], fun _ => ⟨rfl, Nat.lt_of_not_le hsize⟩⟩

theorem keepsDirectories_write (d : Disk) (l : Location) (bs : List UInt8) :
    d.KeepsDirectories (d.write l bs).2 := by
  rcases write_cases d l bs with hw | ⟨hacc, written, cs, hw, -⟩ <;> rw [hw]
  · exact .refl d
  · exact keepsDirectories_put _ (.inr (isDirectory_of_accepts hacc))

theorem step_eq_some {n : String} : d.step l n = some m ↔ d.isDirectory l = true ∧
    ((n = ".." ∧ m = l.dropLast) ∨
      n ≠ ".." ∧ (d.node? (l ++ [n])).isSome = true ∧ m = l ++ [n]) := by
  unfold Disk.step
  cases hl : d.isDirectory l with
  | false => simp
  | true =>
    by_cases hup : n = ".." <;> simp [hup, eq_comm (a := m)]

theorem KeepsDirectories.step {n : String} (h : d.KeepsDirectories e) (hs : d.step l n = some m)
    (hm : d.isDirectory m = true) : e.step l n = some m := by
  obtain ⟨hl, hup | ⟨hdown, -, rfl⟩⟩ := step_eq_some.1 hs
  · exact step_eq_some.2 ⟨h l hl, .inl hup⟩
  · have he := h _ hm
    simp only [isDirectory, decide_eq_true_eq] at he
    exact step_eq_some.2 ⟨h l hl, .inr ⟨hdown, by rw [he]; rfl, rfl⟩⟩

theorem isDirectory_of_walk {ns : List String} (hw : d.walk l ns = some m)
    (hm : d.isDirectory m = true) : d.isDirectory l = true := by
  cases ns with
  | nil => cases hw; exact hm
  | cons n ns =>
    obtain ⟨k, hs, -⟩ := Option.bind_eq_some_iff.1 hw
    exact (step_eq_some.1 hs).1

theorem KeepsDirectories.walk {ns : List String} (h : d.KeepsDirectories e)
    (hw : d.walk l ns = some m) (hm : d.isDirectory m = true) : e.walk l ns = some m := by
  induction ns generalizing l with
  | nil => exact hw
  | cons n ns ih =>
    obtain ⟨k, hs, hw⟩ := Option.bind_eq_some_iff.1 hw
    exact Option.bind_eq_some_iff.2 ⟨k, h.step hs (isDirectory_of_walk hw hm), ih hw⟩

theorem KeepsDirectories.place? {p : Path} (h : d.KeepsDirectories e)
    (hp : d.place? p = some l) : e.place? p = some l := by
  unfold Disk.place? at hp ⊢
  split at hp
  · rename_i hpass
    rw [if_pos hpass]
    obtain ⟨m, hd, rfl⟩ := Option.map_eq_some_iff.1 hp
    obtain ⟨hw, hm⟩ := Option.filter_eq_some_iff.1 hd
    exact Option.map_eq_some_iff.2 ⟨m, Option.filter_eq_some_iff.2 ⟨h.walk hw hm, h m hm⟩, rfl⟩
  · cases hp

theorem walk_append (d : Disk) (l : Location) (ns ms : List String) :
    d.walk l (ns ++ ms) = (d.walk l ns).bind fun k => d.walk k ms := by
  induction ns generalizing l with
  | nil => rfl
  | cons n ns ih =>
    rw [List.cons_append, Disk.walk, Disk.walk, Option.bind_assoc]
    congr 1
    funext k
    exact ih k

structure Proper (d : Disk) (l : Location) : Prop where
  walk : d.walk [] l = some l
  down : ".." ∉ l

theorem proper_root (d : Disk) : d.Proper [] := ⟨rfl, List.not_mem_nil⟩

theorem Proper.up {n : String} (h : d.Proper (l ++ [n])) : d.Proper l := by
  refine ⟨?_, fun hm => h.down (List.mem_append_left _ hm)⟩
  have hwalk := h.walk
  rw [walk_append] at hwalk
  obtain ⟨k, hk, hlast⟩ := Option.bind_eq_some_iff.1 hwalk
  obtain ⟨m, hs, hend⟩ := Option.bind_eq_some_iff.1 hlast
  cases hend
  -- the last step was down, from the place itself
  obtain ⟨-, ⟨rfl, -⟩ | ⟨-, -, hkl⟩⟩ := step_eq_some.1 hs
  · exact absurd (List.mem_append_right _ List.mem_cons_self) h.down
  · rw [hk, List.append_inj_left' hkl rfl]

theorem Proper.step {n : String} (h : d.Proper l) (hs : d.step l n = some m) : d.Proper m := by
  obtain ⟨-, ⟨-, rfl⟩ | ⟨hdown, -, rfl⟩⟩ := step_eq_some.1 hs
  · rcases List.eq_nil_or_concat l with rfl | ⟨k, last, rfl⟩
    · exact h
    · rw [List.concat_eq_append] at h ⊢
      rw [List.dropLast_concat]
      exact h.up
  · refine ⟨?_, ?_⟩
    · rw [walk_append, h.walk]
      refine Option.bind_eq_some_iff.2 ⟨l, rfl, ?_⟩
      exact Option.bind_eq_some_iff.2 ⟨_, hs, rfl⟩
    · intro hm
      rcases List.mem_append.1 hm with hm | hm
      · exact h.down hm
      · exact hdown (List.mem_singleton.1 hm).symm

theorem Proper.walk_to {ns : List String} (h : d.Proper l) (hw : d.walk l ns = some m) :
    d.Proper m := by
  induction ns generalizing l with
  | nil =>
    cases hw
    exact h
  | cons n ns ih =>
    obtain ⟨k, hs, hw⟩ := Option.bind_eq_some_iff.1 hw
    exact ih (h.step hs) hw

theorem place?_of_names {p q : Path} (hq : d.place? q = some l) (hp : p.names = l)
    (hpass : p.parent.isPassable = true) : d.place? p = some l := by
  unfold Disk.place? at hq ⊢
  split at hq
  · obtain ⟨m, hd, hl⟩ := Option.map_eq_some_iff.1 hq
    obtain ⟨hw, hm⟩ := Option.filter_eq_some_iff.1 hd
    have hproper := (proper_root d).walk_to hw
    have hparent : p.parentNames = m := by rw [Path.parentNames, hp, ← hl, List.dropLast_concat]
    have hlast : p.lastName = q.lastName := by rw [Path.lastName, hp, ← hl, List.getLastD_concat]
    rw [if_pos hpass, hparent, hlast, ← hl]
    exact Option.map_eq_some_iff.2 ⟨m, Option.filter_eq_some_iff.2 ⟨hproper.walk, hm⟩, rfl⟩
  · cases hq

variable {p q : Path} {k : TablePath}

theorem key?_eq_some : d.key? p = some k ↔ d.place? p = some k.place ∧ k.absolute = !p.isBare := by
  rw [key?, Option.map_eq_some_iff]
  constructor
  · rintro ⟨m, hm, rfl⟩
    exact ⟨hm, rfl⟩
  · obtain ⟨absolute, m⟩ := k
    rintro ⟨hm, rfl⟩
    exact ⟨m, hm, rfl⟩

theorem resolve_of_key? (h : d.key? p = some k) : d.resolve p = k := by
  rw [Disk.resolve, h]
  rfl

theorem KeepsDirectories.key? (h : d.KeepsDirectories e) (hp : d.key? p = some k) :
    e.key? p = some k := by
  obtain ⟨hplace, habsolute⟩ := key?_eq_some.1 hp
  exact key?_eq_some.2 ⟨h.place? hplace, habsolute⟩

theorem key?_eq_none : d.key? p = none ↔ d.place? p = none := Option.map_eq_none_iff

theorem KeepsDirectories.resolve (h : d.KeepsDirectories e) (hq : d.key? q = some k)
    (hp : d.resolve p = k) : e.resolve p = k := by
  cases hkey : d.key? p with
  | some m =>
    rw [resolve_of_key? hkey] at hp
    rw [resolve_of_key? (h.key? hkey), hp]
  | none =>
    rw [Disk.resolve, hkey] at hp
    have hnames : p.names = k.place := congrArg TablePath.place hp
    have hpass : ¬ p.parent.isPassable = true := by
      intro hpass
      have hplace := place?_of_names (key?_eq_some.1 hq).1 hnames hpass
      rw [key?_eq_none.1 hkey] at hplace
      cases hplace
    rw [Disk.resolve, key?_eq_none.2 (by rw [Disk.place?, if_neg hpass])]
    exact hp

end Isam.Disk
