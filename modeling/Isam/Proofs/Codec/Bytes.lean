import Isam.Codec.Bytes
namespace Isam.Codec

variable {α β : Type} {take : Reader α} {a : α} {b : β} {bs cs : List UInt8}

/-- A reader takes these bytes, whatever follows them, for this value. Bytes too many to be counted
need not be read back. -/
def Reads (take : Reader α) (bs : List UInt8) (a : α) : Prop :=
  bs.length < UInt64.size → ∀ rest, take (bs ++ rest) = some (a, rest)

namespace Reads

theorem pure (a : α) : Reads (Pure.pure a) [] a := fun _ _ => rfl

theorem bind {f : α → Reader β} (h : Reads take bs a) (k : Reads (f a) cs b) :
    Reads (take >>= f) (bs ++ cs) b := by
  intro hlen rest
  rw [List.length_append] at hlen
  have hbs := h (by omega) (cs ++ rest)
  have hcs := k (by omega) rest
  simp only [Bind.bind, StateT.bind, List.append_assoc, hbs, Option.bind_some, hcs]

theorem map (f : α → β) (h : Reads take bs a) : Reads (f <$> take) bs (f a) := by
  intro hlen rest
  have hbs := h hlen rest
  simp only [Functor.map, StateT.map, hbs, Bind.bind, Option.bind_some, Pure.pure]

theorem last (f : α → β) (h : Reads take bs a) :
    Reads (take >>= fun a => Pure.pure (f a)) bs (f a) := by
  have hf := h.bind (f := fun a => Pure.pure (f a)) (pure (f a))
  rwa [List.append_nil] at hf

end Reads

theorem reads_nat {width n : Nat} (h : n < Nat.pow 256 width) :
    Reads (takeNat width) (putNat width n) n := fun _ rest => takeNat_putNat width n h rest

theorem reads_tag {n : Nat} (h : n < 4294967296) : Reads takeTag (putTag n) n := reads_nat h

theorem reads_count {n : Nat} (h : n < UInt64.size) : Reads takeCount (putCount n) n := reads_nat h

theorem reads_short (n : UInt16) : Reads takeShort (putShort n) n := by
  have h := (reads_nat n.toNat_lt : Reads (takeNat 2) _ _).map UInt16.ofNat
  rwa [UInt16.ofNat_toNat] at h

theorem reads_word (n : UInt32) : Reads takeWord (putWord n) n := by
  have h := (reads_nat n.toNat_lt : Reads (takeNat 4) _ _).map UInt32.ofNat
  rwa [UInt32.ofNat_toNat] at h

theorem reads_long (n : UInt64) : Reads takeLong (putLong n) n := by
  have h := (reads_nat n.toNat_lt : Reads (takeNat 8) _ _).map UInt64.ofNat
  rwa [UInt64.ofNat_toNat] at h

theorem reads_bool (b : Bool) : Reads takeBool (putBool b) b := by
  intro _ rest
  cases b <;> rfl

theorem reads_exactly (bs : List UInt8) : Reads (takeExactly bs.length) bs bs := by
  intro _ rest
  simp [takeExactly]

theorem reads_bytes (bs : List UInt8) : Reads takeBytes (putBytes bs) bs := by
  intro hlen rest
  have hcount : bs.length < UInt64.size := by
    simp only [putBytes, List.length_append] at hlen
    omega
  exact (reads_count hcount).bind (reads_exactly bs) hlen rest

theorem reads_text (s : String) : Reads takeText (putText s) s := by
  have h : Reads (liftM (Text.ofUtf8? (Text.utf8 s)) : Reader String) [] s := by
    rw [Text.ofUtf8?_utf8]
    exact .pure s
  have hs := (reads_bytes (Text.utf8 s)).bind (f := fun bs => liftM (Text.ofUtf8? bs)) h
  rwa [List.append_nil] at hs

theorem reads_many {put : α → List UInt8} {as : List α} (h : ∀ a ∈ as, Reads take (put a) a) :
    Reads (takeMany take as.length) (as.flatMap put) as := by
  induction as with
  | nil => exact fun _ _ => rfl
  | cons a as ih =>
    intro hlen rest
    simp only [List.flatMap_cons, List.length_append] at hlen
    have ha := h a List.mem_cons_self (by omega) (as.flatMap put ++ rest)
    have has := ih (fun b hb => h b (List.mem_cons_of_mem _ hb)) (by omega) rest
    simp only [List.length_cons, takeMany, List.flatMap_cons, List.append_assoc, ha, has]

theorem length_le_flatMap {put : α → List UInt8} (h : ∀ a, put a ≠ []) (as : List α) :
    as.length ≤ (as.flatMap put).length := by
  induction as with
  | nil => simp
  | cons a as ih =>
    have ha := List.length_pos_iff.2 (h a)
    simp only [List.length_cons, List.flatMap_cons, List.length_append]
    omega

theorem reads_list {put : α → List UInt8} (h : ∀ a, Reads take (put a) a) (hput : ∀ a, put a ≠ [])
    (as : List α) : Reads (takeList take) (putList put as) as := by
  intro hlen rest
  -- members without a byte could be too many to be counted
  have hcount : as.length < UInt64.size := by
    have has := length_le_flatMap hput as
    simp only [putList, List.length_append] at hlen
    omega
  exact (reads_count hcount).bind (reads_many fun a _ => h a) hlen rest

theorem putNat_ne_nil (width n : Nat) : putNat (width + 1) n ≠ [] := List.cons_ne_nil _ _

end Isam.Codec
