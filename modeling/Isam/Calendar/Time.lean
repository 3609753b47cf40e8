import Isam.Calendar.Date
namespace Isam

structure Time where
  seconds : UInt32
  deriving DecidableEq, Repr

namespace Time

def midnight : Time := ⟨0⟩

def secondsPerDay : Nat := 86400

def ofClock (hour minute second : Nat) : Except Error Time :=
  if hour ≤ 23 ∧ minute ≤ 59 ∧ second ≤ 59 then
    .ok ⟨UInt32.ofNat (hour * 3600 + minute * 60 + second)⟩
  else .error (.invalidTime hour minute second)

def ofSeconds (n : Nat) : Time := ⟨UInt32.ofNat (n % secondsPerDay)⟩

def hour (t : Time) : Nat := t.seconds.toNat / 3600

def minute (t : Time) : Nat := t.seconds.toNat % 3600 / 60

def second (t : Time) : Nat := t.seconds.toNat % 60

def format (t : Time) : String := String.ofList
  (Text.padded 2 t.hour ++ ':' :: Text.padded 2 t.minute ++ ':' :: Text.padded 2 t.second)

def compare (a b : Time) : Ordering := Ord.compare a.seconds.toNat b.seconds.toNat

theorem ofSeconds_lt (n : Nat) : (ofSeconds n).seconds.toNat < secondsPerDay := by
  have := Nat.mod_lt n (show 0 < secondsPerDay by decide)
  simp only [ofSeconds, secondsPerDay, UInt32.toNat_ofNat'] at *
  omega

end Time

structure Timestamp where
  date : Date
  time : Time
  deriving DecidableEq, Repr

namespace Timestamp

def first : Timestamp := ⟨Date.first, Time.midnight⟩

def ofUnix (seconds : Int) : Except Error Timestamp :=
  let day := seconds / Time.secondsPerDay + Date.epochDay
  if Int32.minValue.toInt ≤ day ∧ day ≤ Int32.maxValue.toInt then
    .ok ⟨⟨Int32.ofInt day⟩, Time.ofSeconds (seconds % Time.secondsPerDay).toNat⟩
  else .error (.timestampRange seconds)

def unix (t : Timestamp) : Int :=
  (t.date.days.toInt - Date.epochDay) * Time.secondsPerDay + t.time.seconds.toNat

def compare (a b : Timestamp) : Ordering := (a.date.compare b.date).then (a.time.compare b.time)

end Timestamp

end Isam
