import Isam.Proofs.Codec.TableFile
import Mathlib.Algebra.Group.Nat.Defs
namespace Isam

namespace Codec

variable {bs cs : List UInt8} {width n : Nat}

def numberOf : List UInt8 → Nat
  | [] => 0
  | b :: bs => b.toNat + 256 * numberOf bs

theorem takeNat_eq (h : width ≤ bs.length) :
    takeNat width bs = some (numberOf (bs.take width), bs.drop width) := by
  induction width generalizing bs with
  | zero => rfl
  | succ width ih =>
    cases bs with
    | nil => cases h
    | cons b bs => simp [takeNat, ih (Nat.le_of_succ_le_succ h), numberOf]

theorem numberOf_lt (bs : List UInt8) : numberOf bs < 256 ^ bs.length := by
  induction bs with
  | nil => decide
  | cons b bs ih =>
    have hb := b.toNat_lt
    rw [numberOf, List.length_cons, Nat.pow_succ]
    omega

theorem numberOf_injective (hlen : bs.length = cs.length) (h : numberOf bs = numberOf cs) :
    bs = cs := by
  induction bs generalizing cs with
  | nil => rw [List.eq_nil_of_length_eq_zero hlen.symm]
  | cons b bs ih =>
    obtain ⟨c, cs, rfl⟩ := List.exists_cons_of_length_eq_add_one hlen.symm
    have hb := b.toNat_lt
    have hc := c.toNat_lt
    rw [numberOf, numberOf] at h
    have hfirst : b = c := UInt8.toNat_inj.1 (by omega)
    rw [hfirst, ih (Nat.succ.inj hlen) (by omega)]

end Codec

namespace TableFile

open Codec

variable {bs cs : List UInt8} {start width : Nat} {verify : Bool}

theorem numberAt_eq_numberOf (h : start + width ≤ bs.length) :
    numberAt bs start width = numberOf ((bs.drop start).take width) := by
  rw [numberAt, takeNat_eq (by rw [List.length_drop]; omega)]

theorem numberAt_lt (h : start + width ≤ bs.length) : numberAt bs start width < 256 ^ width := by
  have hlt := numberOf_lt ((bs.drop start).take width)
  rwa [List.length_take, List.length_drop, Nat.min_eq_left (by omega),
    ← numberAt_eq_numberOf h] at hlt

theorem numberAt_append (h : start + width ≤ bs.length) (cs : List UInt8) :
    numberAt (bs ++ cs) start width = numberAt bs start width := by
  rw [numberAt_eq_numberOf h, numberAt_eq_numberOf (by rw [List.length_append]; omega),
    List.drop_append_of_le_length (by omega),
    List.take_append_of_le_length (by rw [List.length_drop]; omega)]

structure Marked (bs : List UInt8) : Prop where
  size : headerSize ≤ bs.length
  magic : bs.take 4 = magic

structure Headed (bs : List UInt8) : Prop extends Marked bs where
  version : numberAt bs 4 2 = formatVersion

theorem marked_iff :
    Marked bs ↔ ¬ (bs.length < headerSize ∨ bs.take 4 ≠ TableFile.magic) := by
  rw [not_or, Nat.not_lt, not_not]
  exact ⟨fun h => ⟨h.size, h.magic⟩, fun h => ⟨h.1, h.2⟩⟩

theorem headed_encode (i : Image) : Headed (encode i) where
  size := by
    simp only [encode, List.length_append, header_length]
    omega
  magic := by
    simp only [encode, header, List.append_assoc]
    exact List.take_left' rfl
  version := version_encode i

theorem Headed.append (h : Headed bs) (cs : List UInt8) : Headed (bs ++ cs) where
  size := by
    rw [List.length_append]
    exact Nat.le_add_right_of_le h.size
  magic := by
    have hsize : 20 ≤ bs.length := h.size
    rw [List.take_append_of_le_length (by omega), h.magic]
  version := by
    have hsize : 20 ≤ bs.length := h.size
    rw [numberAt_append (by omega), h.version]

theorem Headed.front (h : Headed (bs ++ cs)) (size : headerSize ≤ bs.length) : Headed bs where
  size := size
  magic := by
    have hsize : 20 ≤ bs.length := size
    rw [← h.magic, List.take_append_of_le_length (by omega)]
  version := by
    have hsize : 20 ≤ bs.length := size
    rw [← h.version, numberAt_append (by omega)]

theorem decode_of_checkHeader {e : Error} (h : checkHeader bs verify = .error e) :
    decode bs verify = .error e := by
  rw [decode, h]
  rfl

theorem decode_unmarked (h : ¬ Marked bs) : decode bs verify = .error .notTableFile := by
  rw [marked_iff, not_not] at h
  apply decode_of_checkHeader
  rw [checkHeader, if_pos h]

theorem Marked.decode_wrong_version (h : Marked bs) (hne : numberAt bs 4 2 ≠ formatVersion) :
    decode bs verify = .error (.formatVersion (numberAt bs 4 2) formatVersion) := by
  apply decode_of_checkHeader
  rw [checkHeader, if_neg (marked_iff.1 h), if_pos hne]

theorem Headed.checkHeader_eq (h : Headed bs) : checkHeader bs verify =
    if (payloadOf bs).length ≠ statedLength bs then
      .error (.payloadLength (payloadOf bs).length (statedLength bs))
    else if verify ∧ checksum (payloadOf bs) ≠ statedChecksum bs then
      .error (.wrongChecksum (statedChecksum bs) (checksum (payloadOf bs)))
    else .ok () := by
  rw [checkHeader, if_neg (marked_iff.1 h.toMarked), if_neg (not_not_intro h.version)]

theorem checkHeader_eq_ok : checkHeader bs verify = .ok () ↔
    Headed bs ∧ (payloadOf bs).length = statedLength bs ∧
      (verify = true → checksum (payloadOf bs) = statedChecksum bs) := by
  constructor
  · intro h
    have hmarked : Marked bs := by
      rw [marked_iff]
      intro hstart
      rw [checkHeader, if_pos hstart] at h
      cases h
    have hversion : numberAt bs 4 2 = formatVersion := by
      by_contra hne
      rw [checkHeader, if_neg (marked_iff.1 hmarked), if_pos hne] at h
      cases h
    have hheaded : Headed bs := ⟨hmarked, hversion⟩
    rw [hheaded.checkHeader_eq] at h
    split at h
    · cases h
    · rename_i hlen
      split at h
      · cases h
      · rename_i hsum
        refine ⟨hheaded, not_not.1 hlen, fun hverify => ?_⟩
        by_contra hne
        exact hsum ⟨hverify, hne⟩
  · rintro ⟨hheaded, hlen, hsum⟩
    have hsum' : ¬ (verify = true ∧ checksum (payloadOf bs) ≠ statedChecksum bs) :=
      fun h => h.2 (hsum h.1)
    rw [hheaded.checkHeader_eq, if_neg (not_not_intro hlen), if_neg hsum']

theorem Headed.decode_wrong_length (h : Headed bs)
    (hne : (payloadOf bs).length ≠ statedLength bs) :
    decode bs verify = .error (.payloadLength (payloadOf bs).length (statedLength bs)) := by
  apply decode_of_checkHeader
  rw [h.checkHeader_eq, if_pos hne]

theorem Headed.decode_wrong_checksum (h : Headed bs)
    (hne : checksum (payloadOf bs) ≠ statedChecksum bs) :
    ∃ e, decode bs true = .error e ∧ e.kind = .corruption := by
  -- where the length is wrong too, that is what is noticed
  by_cases hlen : (payloadOf bs).length ≠ statedLength bs
  · exact ⟨_, h.decode_wrong_length hlen, rfl⟩
  · have hcheck : checkHeader bs true =
        .error (.wrongChecksum (statedChecksum bs) (checksum (payloadOf bs))) := by
      rw [h.checkHeader_eq, if_neg hlen, if_pos ⟨rfl, hne⟩]
    exact ⟨_, decode_of_checkHeader hcheck, rfl⟩

theorem toNat_statedChecksum (h : headerSize ≤ bs.length) :
    (statedChecksum bs).toNat = numberAt bs 8 4 := by
  have hsize : 20 ≤ bs.length := h
  have hlt : numberAt bs 8 4 < 256 ^ 4 := numberAt_lt (by omega)
  exact UInt32.toNat_ofNat_of_lt' hlt

theorem statedLength_lt (h : headerSize ≤ bs.length) : statedLength bs < UInt64.size :=
  numberAt_lt h

end TableFile
end Isam
