import Isam.Codec.Payload
import Isam.Proofs.Codec.Bytes
import Isam.Proofs.Storage.Rows
namespace Isam.Codec

theorem putTag_ne_nil (n : Nat) : putTag n ≠ [] := putNat_ne_nil 3 n

theorem reads_date (d : Date) : Reads takeDate (putWord d.days.toUInt32) d := by
  have h := (reads_word d.days.toUInt32).map fun n => Date.mk n.toInt32
  rwa [Int32.toInt32_toUInt32] at h

theorem reads_time (t : Time) : Reads takeTime (putWord t.seconds) t :=
  (reads_word t.seconds).map Time.mk

theorem reads_value (v : Value) : Reads takeValue (putValue v) v := by
  unfold takeValue
  have tagged {n : Nat} {bs : List UInt8} {f : Nat → Reader Value} (hn : n < 10)
      (h : Reads (f n) bs v) : Reads (takeTag >>= f) (putTag n ++ bs) v :=
    (reads_tag (by omega)).bind h
  cases v with
  | null =>
    rw [putValue, ← List.append_nil (putTag 0)]
    exact tagged (by decide) (.pure _)
  | bool b => exact tagged (by decide) ((reads_bool b).last _)
  | signed n => exact tagged (by decide) ((reads_long n.toUInt64).last _)
  | unsigned n => exact tagged (by decide) ((reads_long n).last _)
  | float x => exact tagged (by decide) ((reads_long x.bits).last _)
  | date d => exact tagged (by decide) ((reads_date d).last _)
  | time t => exact tagged (by decide) ((reads_time t).last _)
  | timestamp t =>
    simp only [putValue, List.append_assoc]
    exact tagged (by decide) ((reads_date t.date).bind ((reads_time t.time).last _))
  | text s => exact tagged (by decide) ((reads_text s).last _)
  | binary bs => exact tagged (by decide) ((reads_bytes bs).last _)

theorem putValue_ne_nil (v : Value) : putValue v ≠ [] := by
  cases v <;> simp [putValue, putTag_ne_nil]

theorem mem_known {t : FieldType} (h : t.isKnown = true) : t ∈ FieldType.known := by
  cases t <;> first | decide | cases h

theorem putType_known {t : FieldType} (h : t.isKnown = true) :
    putType t = putTag (FieldType.known.idxOf t) := by
  cases t <;> first | rfl | cases h

theorem reads_type (t : FieldType) : Reads takeType (putType t) t := by
  unfold takeType
  cases h : t.isKnown with
  | true =>
    rw [putType_known h, ← List.append_nil (putTag _)]
    have hlt := List.idxOf_lt_length_iff.2 (mem_known h)
    have hlen : FieldType.known.length = 26 := rfl
    refine (reads_tag (by omega)).bind ?_
    rw [List.getElem?_eq_getElem hlt, List.getElem_idxOf hlt]
    exact .pure t
  | false =>
    cases t with
    | unknown code => exact (reads_tag (by decide)).bind ((reads_short code).last _)
    | _ => cases h

theorem reads_key (k : PropertyKey) : Reads takeKey (putKey k) k := by
  rw [putKey, ← List.append_nil (putTag _)]
  cases k <;> exact (reads_tag (by decide)).bind (.pure _)

theorem reads_kind (k : IndexKind) : Reads takeKind (putKind k) k := by
  rw [putKind, ← List.append_nil (putTag _)]
  cases k <;> exact (reads_tag (by decide)).bind (.pure _)

theorem reads_propertyValue (v : PropertyValue) :
    Reads takePropertyValue (putPropertyValue v) v := by
  unfold takePropertyValue
  cases v with
  | bool b => exact (reads_tag (by decide)).bind ((reads_bool b).last _)
  | int n => exact (reads_tag (by decide)).bind ((reads_long n.toUInt64).last _)
  | text s => exact (reads_tag (by decide)).bind ((reads_text s).last _)
  | value v => exact (reads_tag (by decide)).bind ((reads_value v).last _)

theorem reads_property (e : PropertyKey × PropertyValue) :
    Reads takeProperty (putProperty e) e :=
  (reads_key e.1).bind ((reads_propertyValue e.2).last (e.1, ·))

theorem putProperty_ne_nil (e : PropertyKey × PropertyValue) : putProperty e ≠ [] := by
  simp [putProperty, putKey, putTag_ne_nil]

theorem reads_properties (p : Properties) : Reads takeProperties (putProperties p) p := by
  have h := (reads_list reads_property putProperty_ne_nil p.entries).map Properties.ofEntries
  rwa [Properties.ofEntries_entries] at h

theorem putText_ne_nil (s : String) : putText s ≠ [] := by
  simp [putText, putBytes, putCount, putNat_ne_nil]

theorem reads_field (f : FieldDecl) : Reads takeField (putField f) f := by
  simp only [putField, List.append_assoc]
  exact (reads_text f.name).bind ((reads_type f.type).bind ((reads_word f.length).bind
    ((reads_long f.number).bind ((reads_properties f.properties).last _))))

theorem putField_ne_nil (f : FieldDecl) : putField f ≠ [] := by
  simp [putField, putText_ne_nil]

theorem reads_segment (g : SegmentDecl) : Reads takeSegment (putSegment g) g := by
  simp only [putSegment, List.append_assoc]
  exact (reads_text g.field).bind ((reads_bool g.mode.descending).bind
    ((reads_bool g.mode.ignoreCase).last _))

theorem putSegment_ne_nil (g : SegmentDecl) : putSegment g ≠ [] := by
  simp [putSegment, putText_ne_nil]

theorem reads_index (i : IndexDecl) : Reads takeIndex (putIndex i) i := by
  simp only [putIndex, List.append_assoc]
  exact (reads_text i.name).bind ((reads_kind i.kind).bind ((reads_bool i.allowDuplicates).bind
    ((reads_bool i.allowNullKeys).bind
      ((reads_list reads_segment putSegment_ne_nil i.segments).last _))))

theorem putIndex_ne_nil (i : IndexDecl) : putIndex i ≠ [] := by
  simp [putIndex, putText_ne_nil]

theorem reads_schema (s : Schema) : Reads takeSchema (putSchema s) { s with numbers := [] } := by
  have hfields := reads_list reads_field putField_ne_nil s.fields
  have hindexes := reads_list reads_index putIndex_ne_nil s.indexes
  exact hfields.bind (hindexes.last fun is => Schema.mk s.fields is [])

theorem reads_row (e : RowId × Row) : Reads takeRow (putRow e) e := by
  have hvalues := reads_list reads_value putValue_ne_nil e.2
  exact (reads_long e.1).bind (hvalues.last (e.1, ·))

theorem putRow_ne_nil (e : RowId × Row) : putRow e ≠ [] := by
  simp [putRow, putLong, putNat_ne_nil]

theorem reads_rows (r : Rows) : Reads takeRows (putRows r) r := by
  have h := (reads_list reads_row putRow_ne_nil r.entries).map Rows.ofEntries
  rwa [Rows.ofEntries_entries] at h

theorem reads_image (i : Image) :
    Reads takeImage (putImage i) { i with schema := { i.schema with numbers := [] } } := by
  simp only [putImage, List.append_assoc]
  exact (reads_schema i.schema).bind ((reads_rows i.rows).bind ((reads_long i.nextRow).last _))

end Isam.Codec
