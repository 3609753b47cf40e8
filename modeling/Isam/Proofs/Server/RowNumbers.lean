import Isam.Proofs.Server.Exclusion
import Isam.Proofs.Server.Uniqueness
namespace Isam

open FiniteMap

variable {h : Host} {l : Location} {i j : Image} {x : Option RowId} {e : Event}

namespace Host

def inserted? (h : Host) (l : Location) : Event → Option RowId
  | .call (.writeRow id none row) =>
    match h.server.opened id, (h.writeRow id none row).1 with
    | .ok (_, f), .ok k => if f.location = l then some k else none
    | _, _ => none
  | _ => none

def insertions (h : Host) (l : Location) : List Event → List RowId
  | [] => []
  | e :: es => (h.inserted? l e).toList ++ (h.next e).insertions l es

theorem inserted?_of_error {id : HandleId} {target : Option RowId} {row : Row} {err : Error}
    (he : (h.writeRow id target row).1 = .error err) :
    h.inserted? l (.call (.writeRow id target row)) = none := by
  cases target with
  | some k => rfl
  | none =>
    simp only [inserted?, he]
    cases h.server.opened id <;> rfl

theorem inserted?_of_ok {id : HandleId} {row : Row} {y : Handle} {f : OpenFile} {k : RowId}
    (ho : h.server.opened id = .ok (y, f)) (hk : (h.writeRow id none row).1 = .ok k) :
    h.inserted? l (.call (.writeRow id none row)) = if f.location = l then some k else none := by
  simp only [inserted?, ho, hk]

theorem OnePath.writeRow (single : h.OnePath l) (id : HandleId) (target : Option RowId) (row : Row) :
    (h.perform (.writeRow id target row)).OnePath l := by
  have hperform : h.perform (.writeRow id target row) = (h.writeRow id target row).2 := rfl
  rw [hperform]
  rcases Effect.writeRow_cases (h := h) id target row with ⟨err, d, hrefused, -⟩ |
    ⟨y, f, d, hmade, allowed, -⟩
  · rw [hrefused]
    exact single
  · rw [hmade]
    have old {n : FileId} {g : OpenFile}
        (hg : get? (h.server.setImage y.file f (f.image.store target row).2).files n = some g) :
        ∃ m g', get? h.server.files m = some g' ∧ g'.path = g.path := by
      rcases Server.get?_files_of_setImage hg with ⟨-, rfl⟩ | hg
      · exact ⟨y.file, f, allowed.file, rfl⟩
      · exact ⟨n, g, hg, rfl⟩
    intro n m f g hf hg hfl hgl
    obtain ⟨n', f', hf', hfp⟩ := old hf
    obtain ⟨m', g', hg', hgp⟩ := old hg
    rw [← hfp, ← hgp]
    apply single n' m' f' g' hf' hg'
    · rw [OpenFile.location, hfp, ← hfl, OpenFile.location]
    · rw [OpenFile.location, hgp, ← hgl, OpenFile.location]

theorem Holds.writeRow (H : h.Holds l i) (inv : h.server.Registered) (hl : l.IsTable)
    {id : HandleId} {target : Option RowId} {row : Row}
    (single : (h.perform (.writeRow id target row)).OnePath l) :
    ∃ j, (h.perform (.writeRow id target row)).Holds l j ∧
      i.Advances (h.inserted? l (.call (.writeRow id target row))) j ∧
      ∀ k, h.inserted? l (.call (.writeRow id target row)) = some k → j = (i.store none row).2 := by
  have inv' := ((h.perform_effect (.writeRow id target row)).registered inv).toConsistent
  have hperform : h.perform (.writeRow id target row) = (h.writeRow id target row).2 := rfl
  rw [hperform] at single inv' ⊢
  rcases Effect.writeRow_cases (h := h) id target row with ⟨err, d, hrefused, kept⟩ |
    ⟨y, f, d, hmade, allowed, saved⟩
  · rw [inserted?_of_error (by rw [hrefused]), hrefused]
    exact ⟨i, H.leaves (leaves_of_files (kept.bytes l hl) rfl), .same, nofun⟩
  · have ho := (Server.mayWrite_iff.1 allowed.toMayWrite).1
    have hanswer : (h.writeRow id target row).1 = .ok (f.image.store target row).1 := by rw [hmade]
    rw [hmade] at single inv' ⊢
    by_cases hm : f.location = l
    · subst hm
      have himage := H.image _ f allowed.file rfl
      have unique := allowed.unique
      have conforms := allowed.conforms
      refine ⟨_, (saves_setImage saved).holds single inv', ?_⟩
      cases target with
      | none =>
        rw [inserted?_of_ok ho hanswer, if_pos rfl, ← himage]
        exact ⟨.inserted conforms unique (allowed.room rfl), fun _ _ => rfl⟩
      | some k =>
        rw [← himage]
        exact ⟨.updated (allowed.target_stored k rfl) conforms unique, nofun⟩
    · refine ⟨i, H.leaves (leaves_setImage hm (saved.others l hl (Ne.symm hm))), ?_⟩
      cases target with
      | none =>
        rw [inserted?_of_ok ho hanswer, if_neg hm]
        exact ⟨.same, nofun⟩
      | some k => exact ⟨.same, nofun⟩

theorem Holds.otherwise {q : Request} {h' : Host} (H : h.Holds l i) (made : i.Made)
    (inv : h.server.Registered) (hl : l.IsTable) (e : Effect h q h')
    (preserves : h.Preserves l (.call q)) (single : h'.OnePath l)
    (hw : ∀ id target row, q ≠ .writeRow id target row) :
    ∃ j, h'.Holds l j ∧ i.Advances none j := by
  have inv' := (e.registered inv).toConsistent
  cases e with
  | unchanged _ kept => exact ⟨i, H.leaves (leaves_of_files (kept.bytes l hl) rfl), .same⟩
  | connected | joined | locked | unlocked | rowLocked | rowUnlocked =>
    exact ⟨i, H.leaves (leaves_of_files rfl rfl), .same⟩
  | disconnected =>
    exact ⟨i, H.leaves ⟨rfl, fun _ _ hf _ => inv.get?_files_of_disconnect hf⟩, .same⟩
  | closed => exact ⟨i, H.leaves ⟨rfl, fun _ _ hf _ => Server.get?_files_of_close hf⟩, .same⟩
  | created _ _ _ known _ saved answer fresh =>
    have hne := createTable_elsewhere preserves H.bytes answer known fresh
    exact ⟨i, H.leaves (leaves_registerNew hne (saved.others l hl hne.symm)), .same⟩
  | wrote => exact absurd rfl (hw _ _ _)
  | @loaded _ _ _ p j bs verify live known free bytes decoded =>
    by_cases hm : p.place = l
    · subst hm
      -- the bytes that are loaded are the ones that the image was written as
      rw [H.bytes, Option.some.injEq] at bytes
      rw [← bytes, made.decode_encode H.size] at decoded
      cases decoded
      refine ⟨i, ⟨H.bytes, H.size, fun n f hf hfl => ?_⟩, .same⟩
      rcases Server.get?_files_of_registerNew hf with ⟨-, rfl⟩ | hf
      · rfl
      · exact H.image n f hf hfl
    · exact ⟨i, H.leaves (leaves_registerNew hm rfl), .same⟩
  | @deleted id k y f row d allowed answer saved =>
    by_cases hm : f.location = l
    · subst hm
      rw [← H.image _ f allowed.file rfl]
      exact ⟨_, (saves_setImage saved).holds single inv', .removed k⟩
    · exact ⟨i, H.leaves (leaves_setImage hm (saved.others l hl (Ne.symm hm))), .same⟩

theorem Holds.advances (H : h.Holds l i) (made : i.Made) (inv : h.server.Registered)
    (hl : l.IsTable) (preserves : h.Preserves l e) (single : (h.next e).OnePath l) :
    ∃ j, (h.next e).Holds l j ∧ i.Advances (h.inserted? l e) j := by
  cases e with
  | device => exact ⟨i, H.leaves (leaves_of_files rfl rfl), .same⟩
  | restart config => exact ⟨i, H.leaves (leaves_restart config), .same⟩
  | call q =>
    rw [Host.next] at single ⊢
    cases q with
    | writeRow id target row =>
      obtain ⟨j, holds, advances, -⟩ := H.writeRow inv hl single
      exact ⟨j, holds, advances⟩
    | _ =>
      apply H.otherwise made inv hl (h.perform_effect _) preserves single
      rintro id target row ⟨⟩

structure Tally (h : Host) (l : Location) (ids : List RowId) (i : Image) : Prop where
  holds : h.Holds l i
  made : i.Made
  ascending : ids.Pairwise (· < ·)
  below : ∀ k ∈ ids, k < i.nextRow
  stored : i.rows.ids.Sublist ids
  locked : h.server.LocksBelow l

variable {ids : List RowId}

theorem Tally.locksBelow (t : h.Tally l ids i) (sane : h.Sane) (e : Event) :
    (h.next e).server.LocksBelow l := by
  cases e with
  | device => exact t.locked
  | restart => exact fun _ _ _ _ _ hlock => nomatch hlock
  | call q =>
    refine (h.perform_effect q).locksBelow sane.registered sane.guarded ?_ t.locked
    intro n f hf hl
    rw [t.holds.image n f hf hl]
    exact t.made

theorem Tally.next (t : h.Tally l ids i) (sane : h.Sane) (hl : l.IsTable)
    (preserves : h.Preserves l e) (single : (h.next e).OnePath l) :
    ∃ j, (h.next e).Tally l (ids ++ (h.inserted? l e).toList) j ∧ i.Outgrows j ∧
      ∀ k ∈ (h.inserted? l e).toList, i.nextRow ≤ k := by
  obtain ⟨j, holds, advances⟩ := t.holds.advances t.made sane.registered hl preserves single
  have outgrows := advances.outgrows
  have given : ∀ k ∈ (h.inserted? l e).toList, k = i.nextRow :=
    fun k hk => advances.eq_nextRow (Option.mem_toList.1 hk)
  refine ⟨j, ⟨holds, advances.made t.made, ?_, ?_, advances.stored t.made t.stored,
    t.locksBelow sane e⟩, outgrows, fun k hk => UInt64.le_of_eq (given k hk).symm⟩
  · rw [List.pairwise_append]
    refine ⟨t.ascending, Option.pairwise_toList, ?_⟩
    intro k hk k' hk'
    rw [given k' hk']
    exact t.below k hk
  · intro k hk
    rcases List.mem_append.1 hk with hk | hk
    · exact UInt64.lt_of_lt_of_le (t.below k hk) outgrows.nextRow
    · exact advances.lt_nextRow (Option.mem_toList.1 hk)

theorem Tally.run (t : h.Tally l ids i) (sane : h.Sane) (hl : l.IsTable) {es : List Event}
    (preserves : Along Host.next (Preserves l) h es) (single : h.Throughout (·.OnePath l) es) :
    ∃ j, (h.run es).Tally l (ids ++ h.insertions l es) j ∧ i.Outgrows j ∧
      ∀ k ∈ h.insertions l es, i.nextRow ≤ k := by
  induction es generalizing h ids i with
  | nil =>
    rw [insertions, List.append_nil]
    exact ⟨i, t, .refl i, nofun⟩
  | cons e es ih =>
    -- the tally grows at its end, so that the numbers given before stay below
    rw [insertions, ← List.append_assoc]
    obtain ⟨j, t, outgrows, given⟩ := t.next sane hl preserves.1 single.2.first
    obtain ⟨m, t, outgrows', given'⟩ := ih t (sane.next e) preserves.2 single.2
    refine ⟨m, t, outgrows.trans outgrows', fun k hk => ?_⟩
    rcases List.mem_append.1 hk with hk | hk
    · exact given k hk
    · exact UInt64.le_trans outgrows.nextRow (given' k hk)

variable {h' : Host} {c : ConnectionId} {a : TableAddress} {s : Schema} {m : CreateMode}
  {id : HandleId}

end Host
end Isam
