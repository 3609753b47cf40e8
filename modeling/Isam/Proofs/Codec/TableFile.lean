import Isam.Codec.TableFile
import Isam.Proofs.Codec.Payload
import Isam.Error
namespace Isam.TableFile

open Codec

theorem payloadOf_encode (i : Image) : payloadOf (encode i) = putImage i := by
  rw [payloadOf, encode, List.drop_left' (header_length _)]

theorem numberAt_eq {bs : List UInt8} {width n : Nat} (front rest : List UInt8)
    (hbs : bs = front ++ (putNat width n ++ rest)) (hn : n < Nat.pow 256 width) :
    numberAt bs front.length width = n := by
  rw [numberAt, hbs, List.drop_left, takeNat_putNat width n hn rest]

variable {i : Image}

theorem version_encode (i : Image) : numberAt (encode i) 4 2 = formatVersion := by
  refine numberAt_eq magic (putNat 2 0 ++ putWord (checksum (putImage i)) ++
    putCount (putImage i).length ++ putImage i) ?_ (by decide)
  simp only [encode, header, List.append_assoc]

theorem statedChecksum_encode (i : Image) : statedChecksum (encode i) = checksum (putImage i) := by
  have h : numberAt (encode i) 8 4 = (checksum (putImage i)).toNat := by
    refine numberAt_eq (magic ++ putNat 2 formatVersion ++ putNat 2 0)
      (putCount (putImage i).length ++ putImage i) ?_ (UInt32.toNat_lt _)
    simp only [encode, header, putWord, List.append_assoc]
  rw [statedChecksum, h, UInt32.ofNat_toNat]

theorem payload_lt {n : Nat} (h : (encode i).length < n) : (putImage i).length < n := by
  simp only [encode, List.length_append] at h
  omega

theorem statedLength_encode (h : (putImage i).length < UInt64.size) :
    statedLength (encode i) = (putImage i).length := by
  refine numberAt_eq
    (magic ++ putNat 2 formatVersion ++ putNat 2 0 ++ putWord (checksum (putImage i)))
    (putImage i) ?_ h
  simp only [encode, header, putCount, List.append_assoc]

theorem checkHeader_encode (h : (putImage i).length < UInt64.size) (verify : Bool) :
    checkHeader (encode i) verify = .ok () := by
  have hsize : ¬ (encode i).length < headerSize := by
    simp [encode, header_length]
  have hmagic : (encode i).take 4 = magic := by
    simp only [encode, header, List.append_assoc]
    exact List.take_left' rfl
  simp [checkHeader, hsize, hmagic, version_encode, payloadOf_encode, statedLength_encode h,
    statedChecksum_encode]

theorem readPayload_encode (h : (putImage i).length < UInt64.size) :
    readPayload (payloadOf (encode i)) = .ok { i with schema := i.schema.numbered } := by
  have hread := reads_image i h []
  rw [List.append_nil] at hread
  rw [payloadOf_encode, readPayload, hread]
  rfl

theorem decode_encode (h : (putImage i).length < UInt64.size)
    (valid : i.schema.numbered.validate = .ok ()) (verify : Bool) :
    decode (encode i) verify = .ok { i with schema := i.schema.numbered } :=
  bind_eq_ok.2 ⟨(), checkHeader_encode h verify,
    bind_eq_ok.2 ⟨_, readPayload_encode h, bind_eq_ok.2 ⟨(), valid, rfl⟩⟩⟩

theorem decode_encode_eq_ok {j : Image} {verify : Bool} (h : (putImage i).length < UInt64.size)
    (hj : decode (encode i) verify = .ok j) : j = { i with schema := i.schema.numbered } := by
  obtain ⟨⟨⟩, -, hj⟩ := bind_eq_ok.1 hj
  obtain ⟨k, hk, hj⟩ := bind_eq_ok.1 hj
  obtain ⟨⟨⟩, -, ⟨⟩⟩ := bind_eq_ok.1 hj
  rw [readPayload_encode h] at hk
  cases hk
  rfl

end Isam.TableFile
