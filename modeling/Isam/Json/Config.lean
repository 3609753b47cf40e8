import Isam.Config
import Isam.Error
import Isam.Json.Decode
namespace Isam

open Json

namespace EngineConfig

def ofJson? (j : Json) : Option EngineConfig := do
  match ← j.parts? ["name", "data_dir", "users", "durability", "verify_checksums"] with
  | [name, dataDir, users, durability, verify] =>
    let users ← optional [] (entries? fun e => e.2.text?.map (e.1, ·)) users
    return {
      name := ← required text? name
      dataDir := ⟨← required text? dataDir⟩
      users := users.foldl (fun m e => FiniteMap.set m e.1 e.2) []
      durability := ← optional .synchronous (case? Durability.ofName?) durability
      verifyChecksums := ← optional true bool? verify }
  | _ => none

def parse (text : String) : Except Error EngineConfig :=
  match (Json.parse text).bind ofJson? with
  | some c => .ok c
  | none => .error .malformedText

end EngineConfig

namespace SessionConfig

def ofJson? (j : Json) : Option SessionConfig := do
  match ← j.parts? ["mode", "default_date_format", "lock_timeout_ms"] with
  | [mode, format, timeout] =>
    return {
      mode := ← optional .ctree (case? SessionMode.ofName?) mode
      dateFormat := ← optional .mdcy (case? DateFormat.ofName?) format
      lockTimeout := ← optional 5000 uint64? timeout }
  | _ => none

def parse (text : String) : Except Error SessionConfig :=
  match (Json.parse text).bind ofJson? with
  | some c => .ok c
  | none => .error .malformedText

end SessionConfig
end Isam
