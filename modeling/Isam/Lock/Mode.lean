namespace Isam

abbrev ConnectionId := Nat
abbrev HandleId := Nat
abbrev FileId := Nat

abbrev RowId := UInt64

inductive LockKind
  | shared
  | exclusive
  deriving DecidableEq, Repr

namespace LockKind

def name : LockKind → String
  | .shared => "Shared"
  | .exclusive => "Exclusive"

def excludes (held asked : LockKind) : Bool := held == .exclusive || asked == .exclusive

end LockKind

inductive LockResource
  | session
  | row (file : FileId) (row : RowId)
  deriving DecidableEq, Repr

namespace LockResource

def describe : LockResource → String
  | .session => "session resources"
  | .row file id => s!"row {id.toNat} of table file {file}"

def isRowOf (file : FileId) : LockResource → Bool
  | .session => false
  | .row f _ => f == file

end LockResource

inductive LockMode
  | free
  | read
  | readBlock
  | write
  | writeBlock
  deriving DecidableEq, Repr

namespace LockMode

def kind? : LockMode → Option LockKind
  | .free => none
  | .read | .readBlock => some .shared
  | .write | .writeBlock => some .exclusive

def isBlocking : LockMode → Bool
  | .readBlock | .writeBlock => true
  | _ => false

def name : LockMode → String
  | .free => "FREE"
  | .read => "READ"
  | .readBlock => "READ_BLOCK"
  | .write => "WRITE"
  | .writeBlock => "WRITE_BLOCK"

end LockMode
end Isam
