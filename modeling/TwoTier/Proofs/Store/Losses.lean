import TwoTier.Proofs.Store.Uses

/-!
# Records given up for want of room

A store that has room for a given number of records gives some of them up when it has too many.
Which ones is a matter of its policy, and no caller's doing; so the operations of `Bounded` and
`Ceiling` are those of a store that has room, and what is given up is a step of its own,
`Store.lose`, that may come at any time and may take any records. What holds whenever whatever is
given up, holds of every policy and every capacity, none at all included; what is said without
losses is said of stores that have room.

* `Store.keeps` says whether the record of a key outlasts a loss. A store without a capacity gives
  up nothing.
* `watchLosing` runs scripts on a store that gives up records between the commands, and `examine`
  asks such a store for its health; with nothing given up, these are `watch` and `checkHealth`.
-/

namespace TwoTier.Store

/-- Gives up records, in a store that may: all but those under some keys. -/
def lose (keep : String → Bool) : Store → Store
  | .bounded s => .bounded { s with records := s.records.filter fun key _ => keep key }
  | .ceiling s => .ceiling { s with records := s.records.filter fun key _ => keep key }
  | s => s

/-- Whether the record of a key outlasts a loss. -/
def keeps (keep : String → Bool) (k : String) : Store → Bool
  | .bounded _ => keep k
  | .ceiling _ => keep k
  | _ => true

section Lose

variable {s : Store} {keep : String → Bool} {k : String}

/-- A loss takes whole records, and no other than those that it does not keep. -/
theorem record?_lose (s : Store) (keep : String → Bool) (k : String) :
    (s.lose keep).record? k = if s.keeps keep k then s.record? k else none := by
  -- the two kinds that have a capacity filter their records; the others lose nothing
  cases s with
  | recording s | unbounded s | redis s | memcached s => rfl
  | bounded s => exact s.records.find?_filter_keys keep k
  | ceiling s =>
    show ((s.records.filter fun key _ => keep key).find? k).map Ceiling.Timed.raw = _
    rw [TextMap.find?_filter_keys, apply_ite (Option.map Ceiling.Timed.raw)]
    rfl

/-- A record that is kept stays as it is. -/
theorem record?_lose_of_keeps (hk : s.keeps keep k = true) :
    (s.lose keep).record? k = s.record? k :=
  (record?_lose s keep k).trans (if_pos hk)

/-- No loss brings a record back. -/
theorem record?_lose_of_none (h : s.record? k = none) : (s.lose keep).record? k = none := by
  rw [record?_lose, h, ite_self]

/-- A loss leaves a store in the process. -/
theorem InProcess.lose (hs : s.InProcess) : (s.lose keep).InProcess := by
  cases s with
  | unbounded s | bounded s | ceiling s => trivial
  | recording s | redis s | memcached s => exact hs.elim

/-- A loss does not change what a store may lose, … -/
@[simp] theorem keeps_lose (keep keep' : String → Bool) :
    (s.lose keep').keeps keep k = s.keeps keep k := by
  cases s <;> rfl

/-- … and neither does a command, as it leads to a store of the same kind. -/
theorem keeps_serve (hs : s.InProcess) (c : Clock) (x : Command) (keep : String → Bool)
    (k : String) : (s.serve c x).store.keeps keep k = s.keeps keep k := by
  cases s with
  | unbounded s | bounded s | ceiling s => cases x <;> rfl
  | recording s | redis s | memcached s => exact hs.elim

end Lose

/-! ### Losses between commands -/

/-- Gives up what is up next to be given up, if anything. -/
def loseNext (losses : List (String → Bool)) (s : Store) : Store :=
  losses.head?.elim s fun keep => s.lose keep

section LoseNext

variable {s : Store} {losses : List (String → Bool)} {k : String}

/-- The next loss leaves a store in the process, … -/
theorem InProcess.loseNext (hs : s.InProcess) (losses : List (String → Bool)) :
    (s.loseNext losses).InProcess := by
  cases losses with
  | nil => exact hs
  | cons keep losses => exact InProcess.lose hs

/-- … changes nothing about what it may lose, … -/
theorem keeps_loseNext (losses : List (String → Bool)) (keep : String → Bool) :
    (s.loseNext losses).keeps keep k = s.keeps keep k := by
  cases losses with
  | nil => rfl
  | cons keep' losses => exact keeps_lose keep keep'

/-- … brings no record back, … -/
theorem record?_loseNext_of_none (h : s.record? k = none) :
    (s.loseNext losses).record? k = none := by
  cases losses with
  | nil => exact h
  | cons keep losses => exact record?_lose_of_none h

/-- … and takes those that it does not keep. -/
theorem record?_loseNext_of_not_kept (h : ¬∀ keep ∈ losses.head?, s.keeps keep k = true) :
    (s.loseNext losses).record? k = none := by
  -- with nothing to give up, everything is kept
  cases losses with
  | nil => exact absurd (fun keep hkeep => nomatch hkeep) h
  | cons keep losses =>
    have hk : ¬s.keeps keep k = true := fun hk => h fun keep' hkeep' =>
      Option.some.inj hkeep' ▸ hk
    exact (record?_lose ..).trans (if_neg hk)

end LoseNext

/-- Runs scripts on one store that gives up records as it goes, what is next after each command. -/
def watchLosing (c : Clock) : Handler Unit (Watched × List (String → Bool)) where
  serve _ x w :=
    let (reply, w') := (watch c).serve () x w.1
    (reply, { w' with store := w'.store.loseNext w.2 }, w.2.tail)
  healthy _ w := (true, w)
  note e w := ((watch c).note e w.1, w.2)
  compute w := w

/-- Asks a store in the process for its health while it gives up records. -/
def examine (c : Clock) (losses : List (String → Bool)) (s : Store) : Served Bool :=
  let (reply, w, _) := (Probe.script s.probeKey).run (watchLosing c) (⟨s, [], []⟩, losses)
  { reply := reply, store := w.store, events := w.events, calls := w.calls }

/-- With nothing to give up, a run is that of a store that has room. -/
theorem run_watchLosing_nil {α : Type} (c : Clock) (x : Script Unit α) (w : Watched) :
    x.run (watchLosing c) (w, []) = ((x.run (watch c) w).1, (x.run (watch c) w).2, []) := by
  -- on the script: a step of either run leaves the same for the rest
  induction x generalizing w with
  | done a => rfl
  | ask i x k ih => exact ih _ _
  | check i k ih => exact ih _ _
  | note e k ih => exact ih _
  | compute k ih => exact ih _

/-- So is an examination. -/
theorem examine_nil {s : Store} (hs : s.InProcess) (c : Clock) :
    s.examine c [] = s.checkHealth c := by
  unfold examine
  rw [run_watchLosing_nil]
  -- all of them probe in the same way
  cases s with
  | unbounded s | bounded s | ceiling s => rfl
  | recording s | redis s | memcached s => exact hs.elim

end TwoTier.Store
