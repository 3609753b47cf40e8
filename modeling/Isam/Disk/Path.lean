namespace Isam

abbrev Location := List String

namespace Location

def display (l : Location) : String := "/" ++ "/".intercalate l

end Location

structure Path where
  text : String
  deriving DecidableEq, Repr

namespace Path

def isAbsolute (p : Path) : Bool := p.text.toList.head? == some '/'

def join (p q : Path) : Path :=
  if q.isAbsolute then q
  else if p.text.isEmpty || p.text.toList.getLast? == some '/' then ⟨p.text ++ q.text⟩
  else ⟨p.text ++ "/" ++ q.text⟩

def splitSlash : List Char → List (List Char)
  | [] => [[]]
  | '/' :: cs => [] :: splitSlash cs
  | c :: cs =>
    match splitSlash cs with
    | [] => [[c]]
    | part :: parts => (c :: part) :: parts

def names (p : Path) : List String :=
  ((splitSlash p.text.toList).map String.ofList).filter fun n => n != "" && n != "."

def parentNames (p : Path) : List String := p.names.dropLast

def lastName (p : Path) : String := p.names.getLastD ""

def trimmed : List Char → List Char
  | '/' :: cs => trimmed cs
  | '.' :: '/' :: cs => trimmed cs
  | cs => cs

def parent (p : Path) : Path :=
  let cs := trimmed p.text.toList.reverse
  ⟨String.ofList (trimmed (cs.dropWhile (· != '/'))).reverse⟩

def endsInName (p : Path) : Bool :=
  let last := (splitSlash p.text.toList).getLastD []
  !last.isEmpty && last != ['.'] && last != ['.', '.']

def isPassable (p : Path) : Bool :=
  p.text.utf8ByteSize ≤ 4095 && !p.text.toList.contains '\x00'

/-- A name alone. What stands before it is the empty path, which is no directory. -/
def isBare (p : Path) : Bool := !p.isAbsolute && p.parent.text.isEmpty

end Path

/-- The path by which a table file is open. Relative ones start at the root, so that two paths can lead
to one place. -/
structure TablePath where
  absolute : Bool
  place : Location
  deriving DecidableEq, Repr

namespace TablePath

def display (k : TablePath) : String :=
  if k.absolute then k.place.display else "/".intercalate k.place

end TablePath

structure TableAddress where
  dir : Path
  name : String
  deriving DecidableEq, Repr

namespace TableAddress

def file (a : TableAddress) : Path := a.dir.join ⟨a.name ++ ".dat"⟩

end TableAddress
end Isam
