import Isam.Proofs.Codec.TableFile
import Isam.Proofs.Field.Order
namespace Isam

def FitsInt64 (n : Int) : Prop := Int64.minValue.toInt ≤ n ∧ n ≤ Int64.maxValue.toInt

def Time.OfDay (t : Time) : Prop := t.seconds.toNat < secondsPerDay

instance (t : Time) : Decidable t.OfDay := inferInstanceAs (Decidable (_ < _))

theorem Time.ofSeconds_eq {n : Nat} (h : n < secondsPerDay) : (ofSeconds n).seconds.toNat = n := by
  unfold secondsPerDay at h
  simp only [ofSeconds, secondsPerDay, UInt32.toNat_ofNat']
  omega

theorem Time.ofClock_ofDay {hour minute second : Nat} {t : Time}
    (h : ofClock hour minute second = .ok t) : t.OfDay := by
  unfold ofClock at h
  split at h
  · rename_i hclock
    cases h
    have hsmall : hour * 3600 + minute * 60 + second < 86400 := by omega
    rw [OfDay, UInt32.toNat_ofNat', Nat.mod_eq_of_lt (Nat.lt_trans hsmall (by decide))]
    exact hsmall
  · cases h

namespace Timestamp

variable {a b t : Timestamp} {n : Int}

def InRange (n : Int) : Prop :=
  Int32.minValue.toInt ≤ n / Time.secondsPerDay + Date.epochDay ∧
    n / Time.secondsPerDay + Date.epochDay ≤ Int32.maxValue.toInt

theorem unix_fits (t : Timestamp) : FitsInt64 (t.date.days.toInt - Date.epochDay) ∧
    FitsInt64 ((t.date.days.toInt - Date.epochDay) * Time.secondsPerDay) ∧ FitsInt64 t.unix := by
  have hlow := t.date.days.le_toInt
  have hhigh := t.date.days.toInt_lt
  have hseconds := t.time.seconds.toNat_lt
  have hmin : Int64.minValue.toInt = -2 ^ 63 := rfl
  have hmax : Int64.maxValue.toInt = 2 ^ 63 - 1 := rfl
  simp only [FitsInt64, unix, Date.epochDay, Time.secondsPerDay, hmin, hmax]
  omega

theorem day_fits (h : FitsInt64 n) : FitsInt64 (n / Time.secondsPerDay) ∧
    FitsInt64 (n / Time.secondsPerDay + Date.epochDay) := by
  have hmin : Int64.minValue.toInt = -2 ^ 63 := rfl
  have hmax : Int64.maxValue.toInt = 2 ^ 63 - 1 := rfl
  simp only [FitsInt64, Date.epochDay, Time.secondsPerDay, hmin, hmax] at h ⊢
  omega

theorem unix_div_mod (ht : t.time.OfDay) :
    t.unix / Time.secondsPerDay = t.date.days.toInt - Date.epochDay ∧
      (t.unix % Time.secondsPerDay).toNat = t.time.seconds.toNat := by
  simp only [Time.OfDay, Time.secondsPerDay] at ht
  simp only [unix, Time.secondsPerDay]
  omega

theorem ofUnix_spec (h : InRange n) : ∃ t, ofUnix n = .ok t ∧ t.unix = n ∧ t.time.OfDay := by
  refine ⟨_, if_pos h, ?_, Time.ofSeconds_lt _⟩
  have hrest : (n % Time.secondsPerDay).toNat < Time.secondsPerDay := by
    unfold Time.secondsPerDay
    omega
  rw [unix, Time.ofSeconds_eq hrest, Int32.toInt_ofInt_of_le h.1 (Int.lt_add_one_of_le h.2)]
  unfold Time.secondsPerDay
  omega

theorem inRange_unix (ht : t.time.OfDay) : InRange t.unix := by
  rw [InRange, (unix_div_mod ht).1, Int.sub_add_cancel]
  exact ⟨t.date.days.minValue_le_toInt, t.date.days.toInt_le⟩

theorem unix_injective (ha : a.time.OfDay) (hb : b.time.OfDay) (h : a.unix = b.unix) : a = b := by
  obtain ⟨hdays, hseconds⟩ := unix_div_mod ha
  rw [h, (unix_div_mod hb).1] at hdays
  rw [h, (unix_div_mod hb).2, UInt32.toNat_inj] at hseconds
  have hdays : a.date.days = b.date.days := Int32.toInt_inj.1 (by omega)
  obtain ⟨⟨days⟩, ⟨seconds⟩⟩ := a
  obtain ⟨⟨days'⟩, ⟨seconds'⟩⟩ := b
  dsimp only at hdays hseconds
  rw [hdays, hseconds]

theorem ofUnix_eq_ok : ofUnix n = .ok t ↔ t.unix = n ∧ t.time.OfDay := by
  constructor
  · intro h
    by_cases hrange : InRange n
    · obtain ⟨s, hs, hunix⟩ := ofUnix_spec hrange
      rw [hs] at h
      cases h
      exact hunix
    · have hrefused : ofUnix n = .error (.timestampRange n) := if_neg hrange
      rw [hrefused] at h
      cases h
  · rintro ⟨rfl, ht⟩
    obtain ⟨s, hs, hunix, hday⟩ := ofUnix_spec (inRange_unix ht)
    rw [hs, unix_injective hday ht hunix]

theorem exists_ofUnix : (∃ t, ofUnix n = .ok t) ↔ InRange n := by
  constructor
  · rintro ⟨t, h⟩
    obtain ⟨rfl, ht⟩ := ofUnix_eq_ok.1 h
    exact inRange_unix ht
  · intro h
    obtain ⟨t, ht, -⟩ := ofUnix_spec h
    exact ⟨t, ht⟩

theorem compare_eq (ha : a.time.OfDay) (hb : b.time.OfDay) :
    a.compare b = Ord.compare a.unix b.unix := by
  simp only [Time.OfDay, Time.secondsPerDay] at ha hb
  simp only [compare, Date.compare, Time.compare, unix, Time.secondsPerDay]
  rcases Int.lt_trichotomy a.date.days.toInt b.date.days.toInt with hlt | heq | hgt
  · rw [Std.compare_eq_lt.2 hlt]
    exact (Std.compare_eq_lt.2 (by omega)).symm
  · rw [heq, Std.ReflOrd.compare_self, ← compare_natCast]
    simp only [compareOfLessAndEq, Ord.compare, Int.add_lt_add_iff_left, Int.add_right_inj]
    rfl
  · rw [Std.compare_eq_gt.2 hgt]
    exact (Std.compare_eq_gt.2 (by omega)).symm

/-- Timestamps are made of the seconds whose days have numbers, and count them; all that is computed
fits in 64 bits. With times of day they are the ones that are made so, and their order, which is that
of keys, is the order of their seconds. -/
theorem timestamps_count_seconds (secs : Int) (a b : Timestamp) :
    (FitsInt64 secs → FitsInt64 (secs / Time.secondsPerDay) ∧
      FitsInt64 (secs / Time.secondsPerDay + Date.epochDay)) ∧
    ((∃ t, ofUnix secs = .ok t) ↔ InRange secs) ∧
    (ofUnix secs = .ok a ↔ a.unix = secs ∧ a.time.OfDay) ∧
    (FitsInt64 (a.date.days.toInt - Date.epochDay) ∧
      FitsInt64 ((a.date.days.toInt - Date.epochDay) * Time.secondsPerDay) ∧ FitsInt64 a.unix) ∧
    (∀ hour minute second t, Time.ofClock hour minute second = .ok t → t.OfDay) ∧
    (∀ second, (Time.ofSeconds second).OfDay) ∧
    (a.time.OfDay → b.time.OfDay → a.compare b = Ord.compare a.unix b.unix ∧
      ∀ ignoreCase, (Value.timestamp a).compareKey ignoreCase (.timestamp b) =
        Ord.compare a.unix b.unix) :=
  ⟨day_fits, exists_ofUnix, ofUnix_eq_ok, a.unix_fits, fun _ _ _ _ => Time.ofClock_ofDay,
    Time.ofSeconds_lt, fun ha hb => ⟨compare_eq ha hb, fun _ => compare_eq ha hb⟩⟩

theorem timestamps_count_epoch :
    ofUnix (-1) = .ok ⟨⟨719162⟩, ⟨86399⟩⟩ ∧
    compare ⟨⟨719162⟩, ⟨86399⟩⟩ ⟨⟨719163⟩, ⟨0⟩⟩ = Ord.compare (-1 : Int) 0 := by
  obtain ⟨-, -, hunix, -, -, -, horder⟩ :=
    timestamps_count_seconds (-1) ⟨⟨719162⟩, ⟨86399⟩⟩ ⟨⟨719163⟩, ⟨0⟩⟩
  exact ⟨hunix.2 (by decide), (horder (by decide) (by decide)).1⟩

def lateImage : Image :=
  ⟨.ofDecls [⟨"at", .timestamp, 8, 0, .none⟩] [⟨"by_at", .fixed, true, true, [⟨"at", {}⟩]⟩],
    Rows.ofEntries [(1, [.timestamp ⟨⟨1⟩, ⟨86401⟩⟩]), (2, [.timestamp ⟨⟨2⟩, ⟨0⟩⟩])], 3⟩

theorem not_all_timestamps_ordered : ¬ ∀ (bs : List UInt8) (verify : Bool) (i : Image),
    TableFile.decode bs verify = .ok i → ∀ m n a b, i.rows.get? m = some [.timestamp a] →
      i.rows.get? n = some [.timestamp b] → a.compare b = Ord.compare a.unix b.unix := by
  intro claim
  have hdecode : TableFile.decode (TableFile.encode lateImage) true =
      .ok { lateImage with schema := lateImage.schema.numbered } :=
    TableFile.decode_encode (by decide +kernel) (by decide +kernel) true
  have horder := claim _ true _ hdecode 1 2 ⟨⟨1⟩, ⟨86401⟩⟩ ⟨⟨2⟩, ⟨0⟩⟩ rfl rfl
  revert horder
  decide

end Timestamp
end Isam
