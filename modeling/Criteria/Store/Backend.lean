import Criteria.Text.Basic
import Std.Data.TreeMap

/-! An ordered map from bytes to bytes, held in memory. -/

set_option autoImplicit false

namespace Criteria

structure Backend where
  map : Std.TreeMap Bytes Bytes := {}

namespace Backend

def name : String :=
  "in-memory"

/-- All entries, in ascending order of their keys. -/
def entries (b : Backend) : List (Bytes × Bytes) :=
  b.map.toList

def size (b : Backend) : Nat :=
  b.map.size

def isEmpty (b : Backend) : Bool :=
  b.map.isEmpty

def get? (b : Backend) (key : Bytes) : Option Bytes :=
  b.map[key]?

def put (b : Backend) (key value : Bytes) : Backend :=
  ⟨b.map.insert key value⟩

/-- Removes an entry, and tells whether there was one. -/
def delete (b : Backend) (key : Bytes) : Bool × Backend :=
  (b.map.contains key, ⟨b.map.erase key⟩)

/-- The first entries whose keys begin with `start`: from the first key not before it to the
first that begins otherwise. -/
def scan (b : Backend) (start : Bytes) (limit : Nat) : List (Bytes × Bytes) :=
  ((b.entries.dropWhile fun entry => (compare entry.1 start).isLT).takeWhile fun entry =>
    start.isPrefixOf entry.1).take limit

end Backend

end Criteria
