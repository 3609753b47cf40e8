namespace Isam.Text

def digitChar (n : Nat) : Char := Char.ofNat (48 + n % 10)

def digitValue (c : Char) : Nat := c.toNat - 48

def isDigit (c : Char) : Bool := 48 ≤ c.toNat && c.toNat ≤ 57

def places : Nat → Nat → List Char
  | 0, _ => []
  | width + 1, n => places width (n / 10) ++ [digitChar n]

theorem places_length (width n : Nat) : (places width n).length = width := by
  induction width generalizing n with
  | zero => rfl
  | succ width ih => simp [places, ih]

def ofDigits (cs : List Char) : Nat := cs.foldl (fun n c => 10 * n + digitValue c) 0

def digits (n : Nat) : List Char := Nat.toDigits 10 n

def tenTo (n : Nat) : Nat := Nat.pow 10 n

def paddedNat (width n : Nat) : List Char :=
  if n < tenTo width then places width n else digits n

def padded (width : Nat) : Int → List Char
  | .ofNat n => paddedNat width n
  | .negSucc n => '-' :: paddedNat (width - 1) (n + 1)

theorem padded_natCast (width n : Nat) : padded width n = paddedNat width n := rfl

def hexDigit (n : Nat) : Char := if n < 10 then Char.ofNat (48 + n) else Char.ofNat (87 + n)

def hexPlaces : Nat → Nat → List Char
  | 0, _ => []
  | width + 1, n => hexPlaces width (n / 16) ++ [hexDigit (n % 16)]

def hexDigits (n : Nat) : List Char := Nat.toDigits 16 n

def hexValue? (c : Char) : Option Nat :=
  if isDigit c then some (c.toNat - 48)
  else if 97 ≤ c.toNat && c.toNat ≤ 102 then some (c.toNat - 87)
  else if 65 ≤ c.toNat && c.toNat ≤ 70 then some (c.toNat - 55)
  else none

def utf8 (s : String) : List UInt8 := s.toByteArray.data.toList

def ofUtf8? (bs : List UInt8) : Option String := String.fromUTF8? ⟨bs.toArray⟩

theorem ofUtf8?_utf8 (s : String) : ofUtf8? (utf8 s) = some s := by
  simp [ofUtf8?, utf8, String.fromUTF8?, s.isValidUTF8, String.fromUTF8]

def lowerByte (b : UInt8) : UInt8 := if 65 ≤ b && b ≤ 90 then b + 32 else b

def compareBytes : List UInt8 → List UInt8 → Ordering
  | [], [] => .eq
  | [], _ :: _ => .lt
  | _ :: _, [] => .gt
  | a :: as, b :: bs => (compare a b).then (compareBytes as bs)

def hex (bs : List UInt8) : String := String.ofList (bs.flatMap fun b => hexPlaces 2 b.toNat)

def ofHex? : List Char → Option (List UInt8)
  | [] => some []
  | [_] => none
  | a :: b :: cs =>
    match hexValue? a, hexValue? b, ofHex? cs with
    | some x, some y, some bs => some (UInt8.ofNat (16 * x + y) :: bs)
    | _, _, _ => none

end Isam.Text
