import TwoTier.Store

/-!
# Rigging stores

Changes to a recording store, or to the server behind a store, that no command makes: commands are
told to fail, or no longer to, and data appear from elsewhere. A rig of the wrong kind for a store
does nothing.
-/

namespace TwoTier

namespace Store

/-- A change that no command makes. -/
inductive Rig where
  /-- Reads of a recording store fail, or no longer do. -/
  | failGet (fault : Option Failure)
  /-- Writes of a recording store fail, or no longer do. -/
  | failSet (fault : Option Failure)
  /-- Removals of a recording store fail, or no longer do. -/
  | failRemove (fault : Option Failure)
  /-- What a recording store says of its health. -/
  | health (healthy : Bool)
  /-- A command of a server fails with a text, or no longer does. -/
  | failCommand (command : String) (fault : Option String)
  /-- A value appears under a key. -/
  | plant (key : String) (value : Bytes)
  /-- Whether a server acknowledges writes without keeping them. -/
  | dropWrites (drops : Bool)
  /-- What a server answers every read with. -/
  | readAs (value : Option Bytes)

/-- The time to live with which a value appears in a recording store. -/
def plantedTtl : Duration := .ofSecs 60

/-- The recording store after a change. -/
def rigRecording (r : Recording) : Rig → Recording
  | .failGet f => { r with getFault := f }
  | .failSet f => { r with setFault := f }
  | .failRemove f => { r with removeFault := f }
  | .health b => { r with healthy := b }
  | .plant key value => { r with data := r.data.insert key (value, plantedTtl) }
  | _ => r

/-- The server after a change. -/
def rigServer (s : Server) : Rig → Server
  | .failCommand c (some text) => { s with faults := s.faults.insert c text }
  | .failCommand c none => { s with faults := s.faults.erase c }
  | .plant key value => { s with data := s.data.insert key value }
  | .dropWrites b => { s with dropsWrites := b }
  | .readAs v => { s with readsAs := v }
  | _ => s

/-- The store after a change. -/
def rig (g : Rig) : Store → Store
  | .recording r => .recording (rigRecording r g)
  | .redis r => .redis ⟨rigServer r.server g⟩
  | .memcached m => .memcached ⟨rigServer m.server g⟩
  | s => s

end Store

end TwoTier
