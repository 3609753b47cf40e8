import Isam.Proofs.Codec.Checksum
import Isam.Proofs.Codec.Header
import Isam.Server.Tables
namespace Isam.TableFile

open Codec

variable {bs cs : List UInt8} {start stop width n : Nat} {i : Image} {verify : Bool}

structure Alters (start stop : Nat) (bs cs : List UInt8) : Prop where
  length : cs.length = bs.length
  front : cs.take start = bs.take start
  back : cs.drop stop = bs.drop stop
  changed : cs ≠ bs

def Fails (k : ErrorKind) (r : Except Error Image) : Prop := ∃ e, r = .error e ∧ e.kind = k

theorem append_window (start width : Nat) (bs : List UInt8) :
    bs.take start ++ ((bs.drop start).take width ++ bs.drop (start + width)) = bs := by
  rw [← List.drop_drop, List.take_append_drop, List.take_append_drop]

namespace Alters

theorem start_lt (a : Alters start stop bs cs) : start < bs.length := by
  by_contra hle
  have hbs : bs.length ≤ start := Nat.le_of_not_lt hle
  apply a.changed
  rw [← List.take_of_length_le hbs, ← a.front, List.take_of_length_le (a.length ▸ hbs)]

theorem window_ne (a : Alters start (start + width) bs cs) :
    (bs.drop start).take width ≠ (cs.drop start).take width := by
  intro heq
  apply a.changed
  rw [← append_window start width cs, ← append_window start width bs, a.front, a.back, heq]

theorem window_length (a : Alters start stop bs cs) :
    ((bs.drop start).take width).length = ((cs.drop start).take width).length := by
  rw [List.length_take, List.length_take, List.length_drop, List.length_drop, a.length]

theorem numberAt_front (a : Alters start stop bs cs) (h : n + width ≤ start) :
    numberAt cs n width = numberAt bs n width := by
  have hlt := a.start_lt
  have hfront : n + width ≤ (bs.take start).length := by
    rw [List.length_take]
    omega
  rw [← List.take_append_drop start cs, ← List.take_append_drop start bs, a.front,
    numberAt_append hfront, numberAt_append hfront]

theorem numberAt_ne (a : Alters start (start + width) bs cs) (h : start + width ≤ bs.length) :
    numberAt cs start width ≠ numberAt bs start width := by
  rw [numberAt_eq_numberOf h, numberAt_eq_numberOf (a.length ▸ h)]
  intro heq
  exact a.window_ne (numberOf_injective a.window_length heq.symm)

theorem payloadOf_eq (a : Alters start stop bs cs) (h : stop ≤ headerSize) :
    payloadOf cs = payloadOf bs := by
  have hdrop (ds : List UInt8) : payloadOf ds = (ds.drop stop).drop (headerSize - stop) := by
    rw [payloadOf, List.drop_drop, Nat.add_sub_cancel' h]
  rw [hdrop cs, hdrop bs, a.back]

theorem headed (a : Alters start stop bs cs) (h : Headed bs) (hstart : 6 ≤ start) : Headed cs where
  size := a.length ▸ h.size
  magic := by
    have htake (ds : List UInt8) : ds.take 4 = (ds.take start).take 4 := by
      rw [List.take_take, Nat.min_eq_left (by omega)]
    rw [htake, a.front, ← htake, h.magic]
  version := by rw [a.numberAt_front hstart, h.version]

theorem checksum_payload_ne (a : Alters start (start + 4) bs cs) (hstart : headerSize ≤ start) :
    checksum (payloadOf cs) ≠ checksum (payloadOf bs) := by
  have hlt := a.start_lt
  have hpayload (ds : List UInt8) (hds : ds.length = bs.length) : payloadOf ds =
      (ds.take start).drop headerSize ++ ((ds.drop start).take 4 ++ ds.drop (start + 4)) := by
    have hfront : headerSize ≤ (ds.take start).length := by
      rw [List.length_take]
      omega
    rw [← List.drop_append_of_le_length hfront, append_window, payloadOf]
  rw [hpayload cs a.length, hpayload bs rfl, a.front, a.back]
  apply checksum_ne a.window_length.symm (List.length_take_le _ _) a.window_ne.symm

theorem of_set {b : UInt8} (h : (bs[start]?).any (· != b) = true) :
    Alters start (start + width + 1) bs (bs.set start b) where
  length := List.length_set
  front := List.take_set_of_le (Nat.le_refl start)
  back := List.drop_set_of_lt (by omega)
  changed := by
    intro heq
    rw [← heq, List.getElem?_set_self'] at h
    cases hb : bs[start]? with
    | none => simp [hb] at h
    | some c => simp [hb] at h

end Alters

theorem fails_of_magic (a : Alters 0 (0 + 4) (encode i) cs) :
    Fails .schemaMismatch (decode cs verify) := by
  have hmarked : ¬ Marked cs := by
    intro h
    have hmagic : (encode i).take 4 = cs.take 4 := (headed_encode i).magic.trans h.magic.symm
    exact Alters.window_ne a hmagic
  exact ⟨_, decode_unmarked hmarked, rfl⟩

theorem fails_of_version (a : Alters 4 (4 + 2) (encode i) cs) :
    Fails .schemaMismatch (decode cs verify) := by
  have h := headed_encode i
  have hsize : 20 ≤ (encode i).length := h.size
  have hmarked : Marked cs := by
    refine ⟨a.length ▸ h.size, ?_⟩
    rw [a.front, h.magic]
  have hversion : numberAt cs 4 2 ≠ formatVersion := by
    rw [← h.version]
    exact a.numberAt_ne (by omega)
  exact ⟨_, hmarked.decode_wrong_version hversion, rfl⟩

theorem fails_of_checksum (a : Alters 8 (8 + 4) (encode i) cs) :
    Fails .corruption (decode cs true) := by
  have h := headed_encode i
  have hsize : 20 ≤ (encode i).length := h.size
  have hcs := a.headed h (by decide)
  apply hcs.decode_wrong_checksum
  rw [a.payloadOf_eq (by decide), payloadOf_encode, ← statedChecksum_encode]
  intro heq
  apply a.numberAt_ne (by omega)
  rw [← toNat_statedChecksum hcs.size, ← toNat_statedChecksum h.size, heq]

theorem fails_of_length (a : Alters 12 (12 + 8) (encode i) cs) :
    Fails .corruption (decode cs verify) := by
  have h := headed_encode i
  have hsize : 20 ≤ (encode i).length := h.size
  have hcs := a.headed h (by decide)
  have hlength : (payloadOf cs).length ≠ statedLength cs := by
    rw [a.payloadOf_eq (by decide)]
    intro heq
    have hlt := statedLength_lt hcs.size
    rw [← heq, payloadOf_encode] at hlt
    apply a.numberAt_ne (by omega)
    rw [← statedLength, ← heq, payloadOf_encode, ← statedLength_encode hlt, statedLength]
  exact ⟨_, hcs.decode_wrong_length hlength, rfl⟩

theorem fails_of_payload (a : Alters start (start + 4) (encode i) cs) (hstart : headerSize ≤ start) :
    Fails .corruption (decode cs true) := by
  have h20 : 20 ≤ start := hstart
  have hcs := a.headed (headed_encode i) (by omega)
  have hstated : statedChecksum cs = statedChecksum (encode i) := by
    rw [statedChecksum, a.numberAt_front (by omega), statedChecksum]
  apply hcs.decode_wrong_checksum
  rw [hstated, statedChecksum_encode, ← payloadOf_encode]
  exact a.checksum_payload_ne hstart

theorem fails_of_front (hlen : (encode i).length < UInt64.size) {front back : List UInt8}
    (h : encode i = front ++ back) (hback : back ≠ []) :
    Fails (if front.length < headerSize then .schemaMismatch else .corruption)
      (decode front verify) := by
  split
  · rename_i hshort
    have hmarked : ¬ Marked front := fun hm => Nat.not_lt.2 hm.size hshort
    exact ⟨_, decode_unmarked hmarked, rfl⟩
  · rename_i hsize
    have h20 : 20 ≤ front.length := Nat.not_lt.1 hsize
    have hheaded := headed_encode i
    rw [h] at hheaded
    have hfront : Headed front := hheaded.front h20
    have hstated : statedLength front = (payloadOf (encode i)).length := by
      rw [statedLength, ← numberAt_append (by omega) back, ← h, ← statedLength,
        statedLength_encode (payload_lt hlen), payloadOf_encode]
    have hne : (payloadOf front).length ≠ statedLength front := by
      have hpos := List.length_pos_iff.2 hback
      rw [hstated, h, payloadOf, payloadOf, List.length_drop, List.length_drop,
        List.length_append, headerSize]
      omega
    exact ⟨_, hfront.decode_wrong_length hne, rfl⟩

theorem fails_of_more {more : List UInt8} (hmore : more ≠ []) :
    Fails .corruption (decode (encode i ++ more) verify) := by
  have hheaded := headed_encode i
  have hsize := hheaded.size
  have hpos := List.length_pos_iff.2 hmore
  have hstated : statedLength (encode i ++ more) = statedLength (encode i) := by
    rw [statedLength, numberAt_append hsize, statedLength]
  have hpayload : (payloadOf (encode i ++ more)).length = (putImage i).length + more.length := by
    rw [payloadOf, List.drop_append_of_le_length hsize, ← payloadOf, payloadOf_encode,
      List.length_append]
  have hne : (payloadOf (encode i ++ more)).length ≠ statedLength (encode i ++ more) := by
    rw [hpayload, hstated]
    by_cases hlt : (putImage i).length < UInt64.size
    · rw [statedLength_encode hlt]
      omega
    · have hlimit := statedLength_lt hheaded.size
      omega
  exact ⟨_, (hheaded.append more).decode_wrong_length hne, rfl⟩

theorem decode_verified {j : Image} : decode bs true = .ok j ↔
    decode bs false = .ok j ∧ checksum (payloadOf bs) = statedChecksum bs := by
  simp only [decode, bind_eq_ok]
  constructor
  · rintro ⟨⟨⟩, hcheck, hread⟩
    obtain ⟨hheaded, hlen, hsum⟩ := checkHeader_eq_ok.1 hcheck
    exact ⟨⟨(), checkHeader_eq_ok.2 ⟨hheaded, hlen, fun h => absurd h Bool.false_ne_true⟩, hread⟩,
      hsum rfl⟩
  · rintro ⟨⟨⟨⟩, hcheck, hread⟩, hsum⟩
    obtain ⟨hheaded, hlen, -⟩ := checkHeader_eq_ok.1 hcheck
    exact ⟨(), checkHeader_eq_ok.2 ⟨hheaded, hlen, fun _ => hsum⟩, hread⟩

theorem load_corrupt {h : Host} {a : TableAddress} {m : OpenMode} (hload : h.load a m = .ok i) :
    h.load a .corrupt = .ok i := by
  unfold Host.load at hload ⊢
  cases hknown : h.disk.key? (h.server.path a) with
  | none =>
    rw [hknown] at hload
    cases hload
  | some p =>
    rw [hknown] at hload
    simp only at hload ⊢
    cases hnode : h.disk.node? p.place with
    | none =>
      rw [hnode] at hload
      cases hload
    | some node =>
      rw [hnode] at hload
      cases node with
      | directory => cases hload
      | file bs =>
        simp only [bne_self_eq_false, Bool.and_false] at hload ⊢
        cases hverify : h.server.config.verifyChecksums && m != .corrupt with
        | false => rwa [hverify] at hload
        | true =>
          rw [hverify] at hload
          exact (decode_verified.1 hload).1

/-- Damage to a table file is detected. What is read with a check of the checksum is what is read
without one, so long as the checksum is right. -/
theorem damage_detected :
    (∀ i : Image,
      (∀ cs verify, Alters 0 4 (encode i) cs → Fails .schemaMismatch (decode cs verify)) ∧
      (∀ cs verify, Alters 4 6 (encode i) cs → Fails .schemaMismatch (decode cs verify)) ∧
      (∀ cs, Alters 8 12 (encode i) cs → Fails .corruption (decode cs true)) ∧
      (∀ cs verify, Alters 12 headerSize (encode i) cs → Fails .corruption (decode cs verify)) ∧
      (∀ start cs, headerSize ≤ start → Alters start (start + 4) (encode i) cs →
        Fails .corruption (decode cs true)) ∧
      ((encode i).length < UInt64.size → ∀ front back verify, encode i = front ++ back → back ≠ [] →
        Fails (if front.length < headerSize then .schemaMismatch else .corruption)
          (decode front verify)) ∧
      ∀ more verify, more ≠ [] → Fails .corruption (decode (encode i ++ more) verify)) ∧
    (∀ bs i, decode bs true = .ok i ↔
      decode bs false = .ok i ∧ checksum (payloadOf bs) = statedChecksum bs) ∧
    ∀ (h : Host) a m i, h.load a m = .ok i → h.load a .corrupt = .ok i := by
  refine ⟨fun i => ⟨?_, ?_, ?_, ?_, ?_, ?_, ?_⟩, ?_, ?_⟩
  · intro cs verify a
    exact fails_of_magic a
  · intro cs verify a
    exact fails_of_version a
  · intro cs a
    exact fails_of_checksum a
  · intro cs verify a
    exact fails_of_length a
  · intro start cs hstart a
    exact fails_of_payload a hstart
  · intro hlen front back verify h hback
    exact fails_of_front hlen h hback
  · intro more verify hmore
    exact fails_of_more hmore
  · intro bs i
    exact decode_verified
  · intro h a m i hload
    exact load_corrupt hload

def sevenImage : Image :=
  ⟨.ofDecls [⟨"id", .uInteger, 4, 0, .none⟩] [], Rows.ofEntries [(1, [.unsigned 7])], 2⟩

theorem seven_damaged :
    Alters 98 (98 + 4) (encode sevenImage) ((encode sevenImage).set 98 9) ∧
      Fails .corruption (decode ((encode sevenImage).set 98 9) true) := by
  have a : Alters 98 (98 + 3 + 1) (encode sevenImage) ((encode sevenImage).set 98 9) :=
    .of_set (by decide +kernel)
  obtain ⟨-, -, -, -, hpayload, -⟩ := damage_detected.1 sevenImage
  exact ⟨a, hpayload 98 _ (by decide) a⟩

end Isam.TableFile
