import TwoTier.Script
import TwoTier.Store.Server

/-!
# The recording store

A store that keeps payloads as they are, with the time to live they came with, and never drops one.
It can be told to fail some commands, and what to answer when asked for its health. It stands in for
a store wherever a cache is to be watched: every call that reaches it is recorded.
-/

namespace TwoTier

/-- The state of a recording store. -/
structure Recording where
  /-- The name of the store. -/
  name : String
  data : TextMap (Bytes × Duration) := .empty
  getFault : Option Failure := none
  setFault : Option Failure := none
  removeFault : Option Failure := none
  healthy : Bool := true
deriving DecidableEq

namespace Recording

/-- The name of a store that has none of its own. -/
def anonymous : String := "unknown"

/-- The call that a command is. -/
def call : Command → Call
  | .get key => [.text "get", .text key]
  | .set key payload ttl => [.text "set", .text key, .bytes payload, .span ttl]
  | .remove key => [.text "remove", .text key]

/-- A reply, or the failure that was asked for. -/
def answer {α : Type} (fault : Option Failure) (a : α) : Except Failure α :=
  match fault with
  | some f => .error f
  | none => .ok a

/-- Answers a command. -/
def serve (r : Recording) : (c : Command) → c.Reply × Recording
  | .get key => (answer r.getFault ((r.data.find? key).map (·.1)), r)
  | .set key payload ttl =>
    (answer r.setFault (),
      if r.setFault.isSome then r else { r with data := r.data.insert key (payload, ttl) })
  | .remove key =>
    (answer r.removeFault (),
      if r.removeFault.isSome then r else { r with data := r.data.erase key })

end Recording

end TwoTier
