import Criteria.Json.Decoder
import Criteria.Json.Printer
import Criteria.Store.Backend
import Criteria.Store.Error

/-!
Typed values in the store. Every namespace keeps its values, as JSON text,
under keys that begin with the name of the namespace and a separator.
-/

set_option autoImplicit false

namespace Criteria

/-- How values of a type are written as JSON, which may fail, and read again. -/
class Storable (α : Type) where
  encode : α → Except String Json
  decoder : Decoder α

instance : Storable Json where
  encode := .ok
  decoder := Decoder.json

structure Namespace where
  name : String

namespace Namespace

def maxKeySize : Nat := 1024

def separator : String := "#"

/-- What the keys of all values of the namespace begin with. -/
def keyStart (ns : Namespace) : Bytes :=
  utf8 (ns.name ++ separator)

/-- The key of a value in the backend, unless it is too large. -/
def fullKey (ns : Namespace) (key : String) : Except StorageError Bytes :=
  let full := utf8 (ns.name ++ separator ++ key)
  if maxKeySize < full.length then .error (.keyTooLarge full.length maxKeySize) else .ok full

variable {α : Type} [Storable α]

def decode (key : String) (text : Bytes) : Except StorageError α :=
  match Decoder.decode? Storable.decoder text with
  | some value => .ok value
  | none => .error (.serialization ("failed to decode '" ++ key ++ "': not a value of the type"))

def encode (key : String) (value : α) : Except StorageError Bytes :=
  match Storable.encode value with
  | .ok json => .ok (utf8 json.render)
  | .error detail => .error (.serialization ("failed to encode '" ++ key ++ "': " ++ detail))

def get? (ns : Namespace) (b : Backend) (key : String) : Except StorageError (Option α) := do
  match b.get? (← ns.fullKey key) with
  | none => return none
  | some text => return some (← decode key text)

def put (ns : Namespace) (b : Backend) (key : String) (value : α) :
    Except StorageError Backend := do
  let full ← ns.fullKey key
  let text ← encode key value
  return b.put full text

def delete (ns : Namespace) (b : Backend) (key : String) : Except StorageError (Bool × Backend) := do
  return b.delete (← ns.fullKey key)

/-- An entry of the backend as a key of the namespace and a value. -/
def decodeEntry (ns : Namespace) (entry : Bytes × Bytes) : Except StorageError (String × α) :=
  match ofUtf8? (entry.1.drop ns.keyStart.length) with
  | none => .error (.corruptedData ("non UTF-8 key in '" ++ ns.name ++ "': not a text"))
  | some key => (decode key entry.2).map fun value => (key, value)

/-- The first values of the namespace, in the order of their keys. -/
def scan (ns : Namespace) (b : Backend) (limit : Nat) : Except StorageError (List (String × α)) :=
  (b.scan ns.keyStart limit).mapM ns.decodeEntry

end Namespace

end Criteria
