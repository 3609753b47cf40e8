import Isam.Proofs.Codec.Header
import Isam.Proofs.Schema.Valid
namespace Isam.TableFile

open Codec

variable {i j : Image}

theorem takeImage_putImage (h : (putImage i).length < UInt64.size) :
    takeImage (putImage i) = some ({ i with schema := { i.schema with numbers := [] } }, []) := by
  have hread := reads_image i h []
  rwa [List.append_nil] at hread

theorem decode_encode_too_long (h : UInt64.size ≤ (putImage i).length) (verify : Bool) :
    ∃ e, decode (encode i) verify = .error e := by
  have hheaded := headed_encode i
  have hlt := statedLength_lt hheaded.size
  have hne : (payloadOf (encode i)).length ≠ statedLength (encode i) := by
    rw [payloadOf_encode]
    omega
  exact ⟨_, hheaded.decode_wrong_length hne⟩

theorem decode_encode_iff (valid : i.schema.numbered.validate = .ok ()) (verify : Bool) :
    decode (encode i) verify = .ok { i with schema := i.schema.numbered } ↔
      (putImage i).length < UInt64.size := by
  constructor
  · intro hdecode
    by_contra hle
    obtain ⟨e, he⟩ := decode_encode_too_long (Nat.le_of_not_lt hle) verify
    rw [he] at hdecode
    cases hdecode
  · intro h
    exact decode_encode h valid verify

theorem eq_of_encode_eq (h : (putImage i).length < UInt64.size) (heq : encode j = encode i) :
    { j with schema := j.schema.numbered } = { i with schema := i.schema.numbered } := by
  have hpayload : putImage j = putImage i := by
    rw [← payloadOf_encode j, heq, payloadOf_encode]
  have hread := takeImage_putImage (i := j) (hpayload ▸ h)
  rw [hpayload, takeImage_putImage h] at hread
  obtain ⟨⟨fields, indexes, numbers⟩, rows, next⟩ := i
  obtain ⟨⟨fields', indexes', numbers'⟩, rows', next'⟩ := j
  cases hread
  rfl

/-- An image with a valid schema is read back from its file, with or without a check of the
checksum, if only the length of its payload can be stated. Each field is then found by its name, and
no other image has the same file. -/
theorem image_reads_back (i : Image) (valid : i.schema.numbered.validate = .ok ()) :
    (∀ verify, decode (encode i) verify = .ok { i with schema := i.schema.numbered } ↔
      (putImage i).length < UInt64.size) ∧
    (∀ n f, i.schema.fields[n]? = some f → i.schema.numbered.position? f.name = some n) ∧
    ((putImage i).length < UInt64.size → ∀ j, encode j = encode i →
      { j with schema := j.schema.numbered } = { i with schema := i.schema.numbered }) := by
  refine ⟨?_, ?_, ?_⟩
  · intro verify
    exact decode_encode_iff valid verify
  · intro n f hf
    exact Schema.position?_of_validate valid hf
  · intro h j heq
    exact eq_of_encode_eq h heq

def assorted : Image where
  schema := ⟨[⟨"id", .unknown 77, 0, 0, .none⟩,
    ⟨"größe", .double, 8, 1, {
      allowNull := some (.bool false)
      default := some (.value (.timestamp ⟨⟨-1⟩, ⟨59⟩⟩))
      precision := some (.int (-3))
      collation := some (.text "é") }⟩],
    [⟨"by_size", .leadPad, true, false, [⟨"größe", ⟨true, true⟩⟩, ⟨"id", ⟨false, true⟩⟩]⟩], []⟩
  rows := Rows.ofEntries [(18446744073709551615, [.float ⟨0x7FF8000000000001⟩, .binary [0, 255]]),
    (1, [.signed (-9), .text "ß", .date ⟨-400⟩, .null, .bool true])]
  nextRow := 0

theorem assorted_reads_back : decode (encode assorted) true =
    .ok { assorted with schema := assorted.schema.numbered } := by
  have hvalid : assorted.schema.numbered.validate = .ok () := by decide +kernel
  have hlength : (putImage assorted).length < UInt64.size := by decide +kernel
  exact ((image_reads_back assorted hvalid).1 true).2 hlength

end Isam.TableFile
