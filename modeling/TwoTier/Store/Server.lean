import TwoTier.Bytes
import TwoTier.Duration
import TwoTier.TextMap

/-!
# Servers

A server that a networked store talks to, reduced to what its clients can see of it: whether it can
be reached, what it holds, and which of its commands fail, with what text. It can also be told to
acknowledge writes without keeping them, and to answer every read with fixed bytes.
-/

namespace TwoTier

/-- The state of a server. -/
structure Server where
  /-- Why the server cannot be reached, if it cannot. -/
  unreachable : Option String := none
  data : TextMap Bytes := .empty
  /-- The commands that fail, and the texts with which they do. -/
  faults : TextMap String := .empty
  /-- Whether writes are acknowledged without being kept. -/
  dropsWrites : Bool := false
  /-- What every read is answered with. -/
  readsAs : Option Bytes := none
deriving DecidableEq

namespace Server

/-- The value under a key. -/
def read (key : String) (s : Server) : Option Bytes := s.readsAs.or (s.data.find? key)

/-- Writes a value under a key. -/
def write (key : String) (value : Bytes) (s : Server) : Server :=
  if s.dropsWrites then s else { s with data := s.data.insert key value }

/-- Removes the value under a key. -/
def delete (key : String) (s : Server) : Server := { s with data := s.data.erase key }

end Server

/-! ### What reaches a store -/

/-- A part of a call that reached a store. -/
inductive Call.Part where
  | text (s : String)
  | bytes (b : Bytes)
  | span (d : Duration)
deriving DecidableEq

/-- A call that reached a store: its parts, the command first. -/
abbrev Call := List Call.Part

end TwoTier
