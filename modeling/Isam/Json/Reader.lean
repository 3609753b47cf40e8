import Isam.Json.Value
namespace Isam.Json

def isSpace (c : Char) : Bool := c == ' ' || c == '\n' || c == '\t' || c == '\r'

def skipSpace (cs : List Char) : List Char := cs.dropWhile isSpace

def readHex4 : List Char → Option (Nat × List Char)
  | a :: b :: c :: d :: cs =>
    match Text.hexValue? a, Text.hexValue? b, Text.hexValue? c, Text.hexValue? d with
    | some a, some b, some c, some d => some (((a * 16 + b) * 16 + c) * 16 + d, cs)
    | _, _, _, _ => none
  | _ => none

def isHighSurrogate (n : Nat) : Bool := 0xD800 ≤ n && n < 0xDC00

def isLowSurrogate (n : Nat) : Bool := 0xDC00 ≤ n && n < 0xE000

def readUnicode (n : Nat) (cs : List Char) : Option Char × List Char :=
  if isHighSurrogate n then
    match cs with
    | '\\' :: 'u' :: rest =>
      match readHex4 rest with
      | some (m, rest) =>
        if isLowSurrogate m then
          (some (Char.ofNat (0x10000 + (n - 0xD800) * 0x400 + (m - 0xDC00))), rest)
        else (none, cs)
      | none => (none, cs)
    | _ => (none, cs)
  else if isLowSurrogate n then (none, cs)
  else (some (Char.ofNat n), cs)

def escapeValue? : Char → Option Char
  | '"' => some '"'
  | '\\' => some '\\'
  | '/' => some '/'
  | 'b' => some '\x08'
  | 'f' => some '\x0c'
  | 'n' => some '\n'
  | 'r' => some '\r'
  | 't' => some '\t'
  | _ => none

def readString : Nat → Option (List Char) → List Char → Option (Option String × List Char)
  | 0, _, _ => none
  | fuel + 1, taken, cs =>
    match cs with
    | [] => none
    -- taken is what was read so far, the last character first
    | '"' :: cs => some (taken.map fun t => String.ofList t.reverse, cs)
    | '\\' :: 'u' :: cs =>
      match readHex4 cs with
      | none => none
      | some (n, cs) =>
        let (c, cs) := readUnicode n cs
        readString fuel (taken.bind fun t => c.map (· :: t)) cs
    | '\\' :: c :: cs =>
      match escapeValue? c with
      | none => none
      | some c => readString fuel (taken.map (c :: ·)) cs
    | c :: cs =>
      if c = '\\' || c.toNat < 0x20 then none
      else readString fuel (taken.map (c :: ·)) cs

def takeDigits (cs : List Char) : List Char × List Char := cs.span Text.isDigit

def readFraction : List Char → Option (List Char × List Char)
  | '.' :: cs =>
    let (ds, rest) := takeDigits cs
    if ds.isEmpty then none else some (ds, rest)
  | cs => some ([], cs)

def readExponent : List Char → Option (Option (Bool × List Char) × List Char)
  | c :: cs =>
    if c = 'e' || c = 'E' then
      let (negative, cs) := match cs with
        | '-' :: cs => (true, cs)
        | '+' :: cs => (false, cs)
        | cs => (false, cs)
      let (ds, rest) := takeDigits cs
      if ds.isEmpty then none else some (some (negative, ds), rest)
    else some (none, c :: cs)
  | [] => some (none, [])

def readNumber (negative : Bool) (cs : List Char) : Option (Json × List Char) := do
  let (whole, cs) := takeDigits cs
  if whole.isEmpty || (whole.head? == some '0' && 1 < whole.length) then none
  else
    let (fraction, cs) ← readFraction cs
    let (exponent, cs) ← readExponent cs
    return (.number ⟨negative, whole, fraction, exponent⟩, cs)

mutual

def readValue : Nat → List Char → Option (Json × List Char)
  | 0, _ => none
  | fuel + 1, cs =>
    match skipSpace cs with
    | '"' :: cs => do
      let (s, cs) ← readString fuel (some []) cs
      return (.string s, cs)
    | '[' :: cs =>
      match skipSpace cs with
      | ']' :: cs => some (.array [], cs)
      | cs => do
        let (items, cs) ← readItems fuel cs
        return (.array items, cs)
    | '\x7b' :: cs =>
      match skipSpace cs with
      | '\x7d' :: cs => some (.object [], cs)
      | cs => do
        let (entries, cs) ← readEntries fuel cs
        return (.object entries, cs)
    | 'n' :: 'u' :: 'l' :: 'l' :: cs => some (.null, cs)
    | 't' :: 'r' :: 'u' :: 'e' :: cs => some (.bool true, cs)
    | 'f' :: 'a' :: 'l' :: 's' :: 'e' :: cs => some (.bool false, cs)
    | '-' :: cs => readNumber true cs
    | cs => readNumber false cs

def readItems : Nat → List Char → Option (List Json × List Char)
  | 0, _ => none
  | fuel + 1, cs => do
    let (j, cs) ← readValue fuel cs
    match skipSpace cs with
    | ']' :: cs => return ([j], cs)
    | ',' :: cs =>
      let (js, cs) ← readItems fuel cs
      return (j :: js, cs)
    | _ => none

def readEntries : Nat → List Char → Option (List (Option String × Json) × List Char)
  | 0, _ => none
  | fuel + 1, cs => do
    match skipSpace cs with
    | '"' :: cs =>
      let (k, cs) ← readString fuel (some []) cs
      match skipSpace cs with
      | ':' :: cs =>
        let (j, cs) ← readValue fuel cs
        match skipSpace cs with
        | '\x7d' :: cs => return ([(k, j)], cs)
        | ',' :: cs =>
          let (es, cs) ← readEntries fuel cs
          return ((k, j) :: es, cs)
        | _ => none
      | _ => none
    | _ => none

end

def parse (text : String) : Option Json :=
  let cs := text.toList
  match readValue (2 * cs.length + 2) cs with
  | some (j, cs) => if (skipSpace cs).isEmpty then some j else none
  | none => none

end Isam.Json
