import Isam.FiniteMap
import Isam.Disk.Path
namespace Isam

inductive Node
  | directory
  | file (bytes : List UInt8)
  deriving DecidableEq, Repr

/-- How the device fails at a place: no file can be put there, or no more than the first few bytes of
one are stored. -/
inductive Fault
  | refused
  | cut (stored : Nat)
  deriving DecidableEq, Repr

/-- The files and directories by their places. The root is always there. -/
structure Disk where
  nodes : FiniteMap Location Node
  faults : FiniteMap Location Fault := []

namespace Disk

def empty : Disk := { nodes := [] }

def node? (d : Disk) (l : Location) : Option Node :=
  if l = [] then some .directory else FiniteMap.get? d.nodes l

def isDirectory (d : Disk) (l : Location) : Bool := d.node? l = some .directory

def bytes? (d : Disk) (l : Location) : Option (List UInt8) :=
  match d.node? l with
  | some (.file bs) => some bs
  | _ => none

def put (d : Disk) (l : Location) (n : Node) : Disk :=
  { d with nodes := FiniteMap.set d.nodes l n }

def drop (d : Disk) (l : Location) : Disk := { d with nodes := FiniteMap.erase d.nodes l }

theorem node?_put (d : Disk) (l m : Location) (n : Node) (h : m ≠ []) :
    (d.put l n).node? m = if l = m then some n else d.node? m := by
  simp [node?, put, h, FiniteMap.get?_set]

theorem node?_drop (d : Disk) (l m : Location) (h : m ≠ []) :
    (d.drop l).node? m = if l = m then none else d.node? m := by
  simp [node?, drop, h, FiniteMap.get?_erase]

def step (d : Disk) (l : Location) (name : String) : Option Location :=
  if !d.isDirectory l then none
  else if name = ".." then some l.dropLast
  else if (d.node? (l ++ [name])).isSome then some (l ++ [name]) else none

def walk (d : Disk) : Location → List String → Option Location
  | l, [] => some l
  | l, n :: ns => (d.step l n).bind fun l => walk d l ns

def locate (d : Disk) (names : List String) : Option Location := d.walk [] names

def directory? (d : Disk) (names : List String) : Option Location :=
  (d.locate names).filter d.isDirectory

def place? (d : Disk) (p : Path) : Option Location :=
  if p.parent.isPassable then (d.directory? p.parentNames).map (· ++ [p.lastName]) else none

def key? (d : Disk) (p : Path) : Option TablePath := (d.place? p).map (⟨!p.isBare, ·⟩)

/-- The path that a table file is known by: its directory's own path and its name. A bare name, and a
path without its directory, stay as they are written. -/
def resolve (d : Disk) (p : Path) : TablePath := (d.key? p).getD ⟨p.isAbsolute, p.names⟩

def isValidName (name : String) : Bool :=
  name.utf8ByteSize ≤ 255 && !name.toList.contains '\x00'

def makeStep (d : Disk) (l : Location) (name : String) : Option (Location × Disk) :=
  match d.step l name with
  | some m => if d.isDirectory m then some (m, d) else none
  | none =>
    if d.isDirectory l && isValidName name then
      some (l ++ [name], d.put (l ++ [name]) .directory)
    else none

def makeFrom (d : Disk) : Location → List String → Bool × Disk
  | _, [] => (true, d)
  | l, n :: ns =>
    match d.makeStep l n with
    | some (m, d) => makeFrom d m ns
    | none => (false, d)

def makeDirectories (d : Disk) (names : List String) : Bool × Disk := d.makeFrom [] names

def accepts (d : Disk) (l : Location) : Bool :=
  l != [] && d.isDirectory l.dropLast && isValidName (l.getLastD "") &&
    Path.isPassable ⟨l.display⟩ && d.node? l != some .directory

def sizeLimit : Nat := UInt64.size / 2

def write (d : Disk) (l : Location) (bs : List UInt8) : Bool × Disk :=
  if !d.accepts l then (false, d)
  else
    match FiniteMap.get? d.faults l with
    | some .refused => (false, d)
    -- a part of the bytes is left
    | some (.cut n) => (false, d.put l (.file (bs.take n)))
    | none =>
      if sizeLimit ≤ bs.length then (false, d.put l (.file [])) else (true, d.put l (.file bs))

def rename (d : Disk) (source target : Location) : Bool × Disk :=
  match d.bytes? source with
  | some bs =>
    if d.accepts target && !FiniteMap.contains d.faults target then
      (true, (d.drop source).put target (.file bs))
    else (false, d)
  | none => (false, d)

/-- The name of the file that a table is first written to: the last ending gives way to `.dat.tmp`.
There is none for a single dot with an ending, which would give way to the directory above. -/
def temporaryName? (name : String) : Option String :=
  let cs := name.toList
  let stem := (cs.reverse.dropWhile (· != '.')).drop 1 |>.reverse
  if stem = ['.'] then none
  else some (String.ofList (if stem.isEmpty then cs else stem) ++ ".dat.tmp")

def temporary? (l : Location) : Option Location :=
  (temporaryName? (l.getLastD "")).map (l.dropLast ++ [·])

def replace (d : Disk) (l : Location) (bs : List UInt8) : Bool × Disk :=
  match temporary? l with
  | none => (false, d)
  | some m =>
    match d.write m bs with
    | (true, d) => d.rename m l
    | (false, d) => (false, d)

end Disk
end Isam
