import Isam.Disk.Tree
import Isam.Error
namespace Isam.Disk

/-! Files and directories by their paths. What cannot be done fails and changes nothing. -/

def required {α : Type} : Option α → Except Error α
  | some a => .ok a
  | none => .error .diskFailure

def placed (d : Disk) (p : Path) : Except Error Location :=
  required (if p.isPassable && p.endsInName then d.place? p else none)

def contents (d : Disk) (p : Path) : Except Error (List UInt8) := do
  required (d.bytes? (← d.placed p))

def setContents (d : Disk) (p : Path) (bs : List UInt8) : Except Error Disk := do
  match d.write (← d.placed p) bs with
  | (true, d) => return d
  | (false, _) => throw .diskFailure

def editContents (d : Disk) (p : Path) (edit : List UInt8 → List UInt8) : Except Error Disk := do
  d.setContents p (edit (← d.contents p))

def copyContents (d : Disk) (p q : Path) : Except Error Disk := do d.setContents q (← d.contents p)

def removeFile (d : Disk) (p : Path) : Except Error Disk := do
  let l ← d.placed p
  if (d.bytes? l).isSome then return d.drop l else throw .diskFailure

def makeDirectory (d : Disk) (p : Path) : Except Error Disk :=
  match p.isPassable, d.makeDirectories p.names with
  | true, (true, d) => .ok d
  | _, _ => .error .diskFailure

def below (d : Disk) (l : Location) : List (Location × Node) :=
  d.nodes.filterMap fun e =>
    if l.isPrefixOf e.1 && e.1 != l then some (e.1.drop l.length, e.2) else none

def removeDirectory (d : Disk) (p : Path) : Except Error Disk := do
  let l ← required (if p.isPassable then d.directory? p.names else none)
  if l != [] && (d.below l).isEmpty then return d.drop l else throw .diskFailure

def listed : Location × Node → String
  | (l, .directory) => "/".intercalate l ++ "/"
  | (l, .file _) => "/".intercalate l

def listing (d : Disk) (l : Location) : List String :=
  ((d.below l).map listed).mergeSort fun a b => a ≤ b

def flipBits (start : Int) (mask bs : List UInt8) : List UInt8 :=
  let n := if start < 0 then (bs.length + start).toNat else start.toNat
  let (front, back) := bs.splitAt n
  front ++ (List.zipWith (· ^^^ ·) back mask ++ back.drop mask.length)

end Isam.Disk
