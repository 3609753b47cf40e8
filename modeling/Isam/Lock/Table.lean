import Isam.Error
import Isam.FiniteMap
namespace Isam

abbrev Holder := ConnectionId × LockKind

/-- The locks that are held: the holders of each resource in the order of their grants, and the
resources of each owner. `releases` counts the calls that woke the waiting owners. -/
structure LockTable where
  holders : FiniteMap LockResource (List Holder) := []
  owned : FiniteMap ConnectionId (List LockResource) := []
  releases : UInt64 := 0
  deriving DecidableEq

namespace LockTable

def empty : LockTable := {}

def holdersOf (t : LockTable) (r : LockResource) : List Holder :=
  (FiniteMap.get? t.holders r).getD []

def ownedBy (t : LockTable) (o : ConnectionId) : List LockResource :=
  (FiniteMap.get? t.owned o).getD []

def conflict? (hs : List Holder) (o : ConnectionId) (k : LockKind) : Option Holder :=
  hs.find? fun h => h.1 != o && h.2.excludes k

def holds? (t : LockTable) (o : ConnectionId) (r : LockResource) : Option LockKind :=
  ((t.holdersOf r).find? (·.1 == o)).map (·.2)

def conflictingHolder? (t : LockTable) (o : ConnectionId) (r : LockResource) (k : LockKind) :
    Option Holder := conflict? (t.holdersOf r) o k

def without (hs : List Holder) (o : ConnectionId) : List Holder := hs.filter (·.1 != o)

def grant (t : LockTable) (o : ConnectionId) (r : LockResource) (k : LockKind) : LockTable :=
  { t with
    holders := FiniteMap.set t.holders r (without (t.holdersOf r) o ++ [(o, k)])
    owned := FiniteMap.set t.owned o ((t.ownedBy o).filter (· != r) ++ [r]) }

def enter (t : LockTable) (r : LockResource) : LockTable :=
  { t with holders := FiniteMap.set t.holders r (t.holdersOf r) }

def acquire (t : LockTable) (o : ConnectionId) (r : LockResource) (k : LockKind) :
    Except Error Unit × LockTable :=
  -- entered whether or not the lock is then granted
  let t := t.enter r
  match t.conflictingHolder? o r k with
  | some (holder, held) => (.error (.lockDenied k r held holder), t)
  | none => (.ok (), t.grant o r k)

/-- Tries at once, waits while others run, and tries again. A wait that does not outlast the others
ends before they run, so they change nothing about its answer. -/
def acquireWaiting (t : LockTable) (o : ConnectionId) (r : LockResource) (k : LockKind)
    (outlasts : Bool) (others : LockTable → LockTable) : Except Error Unit × LockTable :=
  match t.acquire o r k, outlasts with
  | (.error _, t), true => (others t).acquire o r k
  | (answer, t), _ => (answer, others t)

def dropHolder (t : LockTable) (o : ConnectionId) (r : LockResource) : LockTable :=
  let hs := without (t.holdersOf r) o
  { t with holders := if hs.isEmpty then FiniteMap.erase t.holders r
                      else FiniteMap.set t.holders r hs }

def wake (t : LockTable) : LockTable := { t with releases := t.releases + 1 }

def release (t : LockTable) (o : ConnectionId) (r : LockResource) : Bool × LockTable :=
  let released := (t.holds? o r).isSome
  let owned := match FiniteMap.get? t.owned o with
    | some rs => FiniteMap.set t.owned o (rs.filter (· != r))
    | none => t.owned
  let t := { t.dropHolder o r with owned := owned }
  (released, if released then t.wake else t)

def releaseEach (t : LockTable) (o : ConnectionId) (rs : List LockResource) : LockTable :=
  let t' := rs.foldl (fun t r => t.dropHolder o r) t
  if rs.any fun r => (t.holds? o r).isSome then t'.wake else t'

def releaseAll (t : LockTable) (o : ConnectionId) : LockTable :=
  releaseEach { t with owned := FiniteMap.erase t.owned o } o (t.ownedBy o)

def releaseRows (t : LockTable) (o : ConnectionId) (file : FileId) : LockTable :=
  match FiniteMap.get? t.owned o with
  | none => t
  | some rs =>
    let kept := rs.filter fun r => !r.isRowOf file
    releaseEach { t with owned := FiniteMap.set t.owned o kept } o (rs.filter (·.isRowOf file))

structure Stats where
  resources : Nat
  owners : Nat
  held : Nat
  deriving DecidableEq, Repr

def stats (t : LockTable) : Stats where
  resources := t.holders.length
  owners := (t.owned.filter fun e => !e.2.isEmpty).length
  held := (t.owned.flatMap (·.2)).length

end LockTable
end Isam
