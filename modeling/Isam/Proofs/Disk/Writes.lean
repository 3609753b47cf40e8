import Isam.Proofs.Disk.Directories
import Isam.Proofs.Disk.TablePlaces
import Isam.Proofs.FiniteMap
namespace Isam.Disk

variable {d e : Disk} {l m : Location} {bs : List UInt8}

structure Keeps (d e : Disk) : Prop where
  bytes : ∀ l : Location, l.IsTable → e.bytes? l = d.bytes? l
  directories : d.KeepsDirectories e

structure Replaced (d : Disk) (l : Location) (bs : List UInt8) (e : Disk) : Prop where
  bytes : e.bytes? l = some bs
  size : bs.length < sizeLimit
  others : ∀ m : Location, m.IsTable → m ≠ l → e.bytes? m = d.bytes? m
  directories : d.KeepsDirectories e

theorem Keeps.refl (d : Disk) : d.Keeps d := ⟨fun _ _ => rfl, .refl d⟩

theorem Keeps.replaced {f : Disk} (h : d.Keeps e) (k : e.Replaced l bs f) :
    d.Replaced l bs f where
  bytes := k.bytes
  size := k.size
  others m hm hne := (k.others m hm hne).trans (h.bytes m hm)
  directories := h.directories.trans k.directories

/-- What is on the first disk is on the second one as it was, but for a temporary file that is left
over. What is new is that file, or directories. -/
structure Spares (d e : Disk) (leftover : Option Location) : Prop where
  nodes : ∀ l, e.node? l = d.node? l ∨
    (d.node? l = none ∧ e.node? l = some .directory) ∨
    (leftover = some l ∧ d.node? l ≠ some .directory ∧ ∃ bs, e.node? l = some (.file bs))
  temporary : ∀ l ∈ leftover, l.IsTemporary
  faults : e.faults = d.faults

theorem Spares.refl (d : Disk) : d.Spares d none where
  nodes _ := .inl rfl
  temporary _ hl := nomatch hl
  faults := rfl

theorem Spares.trans {f : Disk} {leftover : Option Location} (h : d.Spares e none)
    (k : e.Spares f leftover) : d.Spares f leftover where
  nodes l := by
    rcases h.nodes l with hd | ⟨hd, he⟩ | ⟨hnone, -⟩
    · rw [← hd]
      exact k.nodes l
    · rcases k.nodes l with hf | ⟨hnone, -⟩ | ⟨-, hne, -⟩
      · exact .inr (.inl ⟨hd, hf.trans he⟩)
      · rw [he] at hnone
        cases hnone
      · exact absurd he hne
    · cases hnone
  temporary := k.temporary
  faults := k.faults.trans h.faults

theorem Spares.keeps {leftover : Option Location} (h : d.Spares e leftover) : d.Keeps e where
  bytes l hl := by
    rcases h.nodes l with hd | ⟨hd, he⟩ | ⟨hleft, -⟩
    · rw [bytes?, hd, bytes?]
    · rw [bytes?, he, bytes?, hd]
    · exact absurd hl (h.temporary l hleft).not_isTable
  directories l hl := by
    simp only [isDirectory, decide_eq_true_eq] at hl ⊢
    rcases h.nodes l with hd | ⟨hd, -⟩ | ⟨-, hne, -⟩
    · exact hd.trans hl
    · rw [hd] at hl
      cases hl
    · exact absurd hl hne

theorem Spares.node?_eq_none (h : d.Spares e none) (he : e.node? l = none) :
    d.node? l = none := by
  rcases h.nodes l with hd | ⟨hd, -⟩ | ⟨hnone, -⟩
  · rw [← hd, he]
  · exact hd
  · cases hnone

theorem bytes?_root (d : Disk) : d.bytes? [] = none := by simp [bytes?, node?]

theorem bytes?_put_ne (d : Disk) (n : Node) (h : l ≠ m) : (d.put l n).bytes? m = d.bytes? m := by
  by_cases hm : m = []
  · rw [hm, bytes?_root, bytes?_root]
  · rw [bytes?, node?_put _ _ _ _ hm, if_neg h, bytes?]

theorem bytes?_put_file (d : Disk) (bs : List UInt8) (h : l ≠ []) :
    (d.put l (.file bs)).bytes? l = some bs := by
  rw [bytes?, node?_put _ _ _ _ h, if_pos rfl]

theorem bytes?_drop_ne (d : Disk) (h : l ≠ m) : (d.drop l).bytes? m = d.bytes? m := by
  by_cases hm : m = []
  · rw [hm, bytes?_root, bytes?_root]
  · rw [bytes?, node?_drop _ _ _ hm, if_neg h, bytes?]

theorem node?_of_step_none {n : String} (h : d.step l n = none) (hl : d.isDirectory l = true) :
    d.node? (l ++ [n]) = none := by
  simp only [step, hl, Bool.not_true, Bool.false_eq_true, if_false] at h
  split at h
  · cases h
  · split at h
    · cases h
    · rename_i hnode
      simpa using hnode

theorem node?_root (d : Disk) : d.node? [] = some .directory := if_pos rfl

theorem spares_put_directory (h : d.node? l = none) : d.Spares (d.put l .directory) none where
  nodes m := by
    by_cases hm : m = []
    · exact .inl (by rw [hm, node?_root, node?_root])
    · rw [node?_put _ _ _ _ hm]
      split
      · rename_i hl
        exact .inr (.inl ⟨hl ▸ h, rfl⟩)
      · exact .inl rfl
  temporary _ hl := nomatch hl
  faults := rfl

theorem spares_makeStep {n : String} (h : d.makeStep l n = some (m, e)) : d.Spares e none := by
  unfold makeStep at h
  split at h
  · split at h
    · cases h
      exact .refl d
    · cases h
  · rename_i hstep
    split at h
    · rename_i hdir
      cases h
      simp only [Bool.and_eq_true] at hdir
      exact spares_put_directory (node?_of_step_none hstep hdir.1)
    · cases h

theorem spares_makeDirectories (d : Disk) (ns : List String) :
    d.Spares (d.makeDirectories ns).2 none := by
  have hfrom (d : Disk) (l : Location) : d.Spares (d.makeFrom l ns).2 none := by
    induction ns generalizing d l with
    | nil => exact .refl d
    | cons n ns ih =>
      unfold makeFrom
      split
      · rename_i m e h
        exact (spares_makeStep h).trans (ih e m)
      · exact .refl d
  exact hfrom d []

theorem accepts_ne_root (h : d.accepts l = true) : l ≠ [] := by
  rintro rfl
  simp [accepts] at h

theorem bytes?_write_ne (d : Disk) (bs : List UInt8) (h : m ≠ l) :
    (d.write l bs).2.bytes? m = d.bytes? m := by
  rcases write_cases d l bs with hw | ⟨-, written, cs, hw, -⟩ <;> rw [hw]
  exact bytes?_put_ne d _ h.symm

theorem spares_put_file (bs : List UInt8) (h : l.IsTemporary) (hdir : d.isDirectory l = false) :
    d.Spares (d.put l (.file bs)) (some l) where
  nodes m := by
    by_cases hm : m = []
    · exact .inl (by rw [hm, node?_root, node?_root])
    · rw [node?_put _ _ _ _ hm]
      split
      · rename_i hl
        simp only [isDirectory, decide_eq_false_iff_not] at hdir
        exact .inr (.inr ⟨congrArg some hl, hl ▸ hdir, bs, rfl⟩)
      · exact .inl rfl
  temporary m hm := Option.some.inj hm ▸ h
  faults := rfl

theorem spares_write (bs : List UInt8) (h : l.IsTemporary) :
    ∃ leftover, d.Spares (d.write l bs).2 leftover := by
  rcases write_cases d l bs with hw | ⟨hacc, written, cs, hw, -⟩ <;> rw [hw]
  · exact ⟨none, .refl d⟩
  · exact ⟨some l, spares_put_file cs h (isDirectory_of_accepts hacc)⟩

theorem write_true (h : d.write l bs = (true, e)) : e.bytes? l = some bs ∧ bs.length < sizeLimit := by
  rcases write_cases d l bs with hw | ⟨hacc, written, cs, hw, hall⟩
  · rw [hw] at h
    cases h
  · rw [hw] at h
    cases h
    obtain ⟨rfl, hsize⟩ := hall rfl
    exact ⟨bytes?_put_file d cs (accepts_ne_root hacc), hsize⟩

theorem rename_false (h : d.rename m l = (false, e)) : e = d := by
  unfold rename at h
  split at h
  · split at h
    · cases h
    · cases h; rfl
  · cases h; rfl

theorem rename_true (h : d.rename m l = (true, e)) :
    e.bytes? l = d.bytes? m ∧ (∀ k, k ≠ m → k ≠ l → e.bytes? k = d.bytes? k) ∧
      d.KeepsDirectories e := by
  unfold rename at h
  split at h
  · rename_i bs hbs
    split at h
    · rename_i hacc
      cases h
      simp only [Bool.and_eq_true] at hacc
      refine ⟨?_, ?_, ?_⟩
      · rw [bytes?_put_file _ _ (accepts_ne_root hacc.1), hbs]
      · intro k hm hl
        rw [bytes?_put_ne _ _ hl.symm, bytes?_drop_ne _ hm.symm]
      · have hm : d.isDirectory m = false := by
          simp only [isDirectory, decide_eq_false_iff_not]
          intro hdir
          rw [bytes?, hdir] at hbs
          cases hbs
        have hl := isDirectory_of_accepts hacc.1
        refine (keepsDirectories_drop hm).trans (keepsDirectories_put _ (.inr ?_))
        by_cases hroot : l = []
        · exact absurd hroot (accepts_ne_root hacc.1)
        · simp only [isDirectory, decide_eq_false_iff_not, node?_drop _ _ _ hroot] at hl ⊢
          split
          · intro hnone
            cases hnone
          · exact hl
    · cases h
  · cases h

theorem replace_false (h : d.replace l bs = (false, e)) : ∃ leftover, d.Spares e leftover := by
  unfold replace at h
  split at h
  · cases h
    exact ⟨none, .refl d⟩
  · rename_i m hm
    obtain ⟨leftover, hw⟩ := spares_write (d := d) bs (isTemporary_of_temporary? hm)
    split at h
    · rename_i f hf
      rw [rename_false h]
      rw [hf] at hw
      exact ⟨leftover, hw⟩
    · rename_i f hf
      cases h
      rw [hf] at hw
      exact ⟨leftover, hw⟩

theorem replace_true (h : d.replace l bs = (true, e)) : d.Replaced l bs e := by
  unfold replace at h
  split at h
  · cases h
  · rename_i m hm
    split at h
    · rename_i f hf
      obtain ⟨hl, hothers, hdirs⟩ := rename_true h
      obtain ⟨hbytes, hsize⟩ := write_true hf
      have hd := keepsDirectories_write d m bs
      rw [hf] at hd
      refine ⟨hl.trans hbytes, hsize, ?_, hd.trans hdirs⟩
      intro k hk hkl
      have hne : k ≠ m := by
        rintro rfl
        exact not_isTable_of_temporary? hm hk
      have hw := bytes?_write_ne d bs hne
      rw [hothers k hne hkl]
      rwa [hf] at hw
    · cases h

end Isam.Disk
