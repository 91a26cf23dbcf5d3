import TwoTier.Proofs.Deployment.Agreement
import TwoTier.Proofs.Deployment.Keeping
import TwoTier.Proofs.Store.Losses

/-!
# What a probe finds, and what it leaves behind

A probe that nobody disturbs, seen from both sides.

* Of a store that may answer anything, `Probe.Verdict` says what the probe asks and what it makes of
  the answers. It is a statement about exchanges alone, so it holds of every run under every handler
  (`Probe.verdict`): the removal is asked for, but its answer is not part of the verdict.
* Of a store in the process, `Store.Examined` says what an examination of its health comes to, in
  any state, at any clock, and whatever the store gives up meanwhile for want of room
  (`Store.examined`). The store is healthy exactly if it can keep a record at all, and keeps the
  marker until it is read. The probe works in the live store; yet it cannot be told afterwards under
  any key but its own, where it leaves no record.
-/

namespace TwoTier

/-! ### A store that may answer anything -/

namespace Probe

/-- **What a probe asks and concludes**: it asked `asked` of its store, under the key `key`, and
found it healthy or not. -/
structure Verdict (key : String) (asked : List (Exchange Unit)) (healthy : Bool) : Prop where
  /-- It writes the marker, reads it back and removes it, in this order, and stops somewhere, … -/
  inOrder : ∃ w r q,
    asked <+: [.write () key marker ttl w, .read () key r, .removal () key q]
  /-- … but not before the write. -/
  writes : ∃ w, .write () key marker ttl w ∈ asked
  /-- It reads exactly if the write succeeded, … -/
  reads_iff : (∃ r, .read () key r ∈ asked) ↔ .write () key marker ttl (.ok ()) ∈ asked
  /-- … and removes exactly if the read gave anything, whatever it was. -/
  removes_iff : (∃ q, .removal () key q ∈ asked) ↔ ∃ b, .read () key (.ok (some b)) ∈ asked
  /-- The store is healthy if the write succeeded and the read gave what was written. -/
  healthy_iff : healthy = true ↔
    .write () key marker ttl (.ok ()) ∈ asked ∧ .read () key (.ok (some marker)) ∈ asked

section Verdict

variable {σ : Type} (h : Handler Unit σ) (key : String) (st : σ)

/-- There is one read at most, so what was read is the answer to it. -/
theorem eq_of_read_mem {w q : Except Failure Unit} {r r' : Except Failure (Option Bytes)}
    {l : List (Exchange Unit)} (hl : l <+: [.read () key r, .removal () key q])
    (h : .read () key r' ∈ .write () key marker ttl w :: l) : r' = r := by
  -- the write is no read, and after the read there is at most the removal
  rcases List.mem_cons.mp h with hx | hx
  · cases hx
  · rcases List.mem_cons.mp (hl.subset hx) with hx | hx
    · exact (Exchange.read.inj hx).2.2
    · cases List.mem_singleton.mp hx

/-- A write that fails ends the probe. -/
theorem verdict_unwritten (f : Failure) :
    Verdict key [.write () key marker ttl (.error f)] false where
  inOrder := ⟨.error f, .ok none, .ok (), ⟨_, rfl⟩⟩
  writes := ⟨_, List.mem_cons_self⟩
  reads_iff := by simp
  removes_iff := by simp
  healthy_iff := by simp

/-- So does a read that fails, or finds nothing. -/
theorem verdict_unread {r : Except Failure (Option Bytes)} (hr : ∀ b, r ≠ .ok (some b)) :
    Verdict key [.write () key marker ttl (.ok ()), .read () key r] false := by
  have hread (b : Bytes) : Exchange.read () key (.ok (some b)) ∉
      [.write () key marker ttl (.ok ()), .read () key r] := fun hx =>
    hr b (eq_of_read_mem key (q := .ok ()) ⟨_, rfl⟩ hx).symm
  exact {
    inOrder := ⟨.ok (), r, .ok (), ⟨_, rfl⟩⟩
    writes := ⟨_, List.mem_cons_self⟩
    reads_iff := iff_of_true ⟨r, by simp⟩ List.mem_cons_self
    removes_iff := by
      refine iff_of_false ?_ fun ⟨b, hx⟩ => hread b hx
      simp
    healthy_iff := iff_of_false Bool.false_ne_true fun h => hread marker h.2 }

/-- What the read gave is removed, and only then compared. -/
theorem verdict_read (b : Bytes) (q : Except Failure Unit) :
    Verdict key
      [.write () key marker ttl (.ok ()), .read () key (.ok (some b)), .removal () key q]
      (b == marker) where
  inOrder := ⟨.ok (), .ok (some b), q, List.prefix_refl _⟩
  writes := ⟨_, List.mem_cons_self⟩
  reads_iff := iff_of_true ⟨.ok (some b), by simp⟩ List.mem_cons_self
  removes_iff := iff_of_true ⟨q, by simp⟩ ⟨b, by simp⟩
  healthy_iff := by
    rw [beq_iff_eq]
    constructor
    · rintro rfl
      exact ⟨List.mem_cons_self, List.mem_cons_of_mem _ List.mem_cons_self⟩
    · rintro ⟨-, hx⟩
      have he : Except.ok (some marker) = Except.ok (some b) :=
        eq_of_read_mem key (List.prefix_refl _) hx
      exact (Option.some.inj (Except.ok.inj he)).symm

/-! The runs that end with these exchanges: -/

/-- A write that fails is all that is asked. -/
theorem ends_unwritten {f : Failure}
    (hw : (h.serve () (.set key marker ttl) st).1 = .error f) :
    (script key).trace h st = [.write () key marker ttl (.error f)] ∧
      ((script key).run h st).1 = false := by
  unfold script
  rw [Script.trace, Script.run, hw]
  exact ⟨rfl, rfl⟩

variable (hw : (h.serve () (.set key marker ttl) st).1 = .ok ())
  {r : Except Failure (Option Bytes)}
  (hr : (h.serve () (.get key) (h.serve () (.set key marker ttl) st).2).1 = r)
include hw hr

/-- A read that gives nothing ends the probe in the state that it leaves. -/
theorem ends_unread (hnone : ∀ b, r ≠ .ok (some b)) :
    (script key).trace h st = [.write () key marker ttl (.ok ()), .read () key r] ∧
      (script key).run h st =
        (false, (h.serve () (.get key) (h.serve () (.set key marker ttl) st).2).2) := by
  unfold script
  rw [Script.trace, Script.run, hw]
  show _ :: Script.trace h (.ask () (.get key) _) _ = _ ∧ Script.run h (.ask () (.get key) _) _ = _
  rw [Script.trace, Script.run, hr]
  cases r with
  | error f => exact ⟨rfl, rfl⟩
  | ok found =>
    cases found with
    | none => exact ⟨rfl, rfl⟩
    | some b => exact absurd rfl (hnone b)

/-- A read that gives something is followed by the removal. -/
theorem ends_read {b : Bytes} (hb : r = .ok (some b)) :
    let read := h.serve () (.get key) (h.serve () (.set key marker ttl) st).2
    (script key).trace h st =
        [.write () key marker ttl (.ok ()), .read () key (.ok (some b)),
          .removal () key (h.serve () (.remove key) read.2).1] ∧
      (script key).run h st = (b == marker, (h.serve () (.remove key) read.2).2) := by
  subst hb
  unfold script
  rw [Script.trace, Script.run, hw]
  show _ :: Script.trace h (.ask () (.get key) _) _ = _ ∧ Script.run h (.ask () (.get key) _) _ = _
  rw [Script.trace, Script.run, hr]
  exact ⟨rfl, rfl⟩

end Verdict

/-- **Every probe is as `Verdict` says**, whatever its store answers. -/
theorem verdict {σ : Type} (h : Handler Unit σ) (key : String) (st : σ) :
    Verdict key ((script key).trace h st) ((script key).run h st).1 := by
  -- the cases are those of the script: it can end after each of its commands
  cases hw : (h.serve () (.set key marker ttl) st).1 with
  | error f =>
    obtain ⟨htrace, hrun⟩ := ends_unwritten h key st hw
    rw [htrace, hrun]
    exact verdict_unwritten key f
  | ok u =>
    by_cases hread : ∃ b, (h.serve () (.get key) (h.serve () (.set key marker ttl) st).2).1 =
        .ok (some b)
    · obtain ⟨b, hb⟩ := hread
      obtain ⟨htrace, hrun⟩ := ends_read h key st hw rfl hb
      rw [htrace, hrun]
      exact verdict_read key b _
    · have hnone := not_exists.mp hread
      obtain ⟨htrace, hrun⟩ := ends_unread h key st hw rfl hnone
      rw [htrace, hrun]
      exact verdict_unread key hnone

/-- A probe asks about its own key only. -/
theorem asks (key : String) : (script key).Asks fun _ x => x.key = key := by
  refine Script.Asks.ask (P := fun _ x => x.key = key) (c := .set key marker ttl) rfl fun w => ?_
  -- after the write the probe goes on only if it has succeeded
  cases w with
  | error f => exact .done false
  | ok u =>
    refine Script.Asks.ask (P := fun _ x => x.key = key) (c := .get key) rfl fun r => ?_
    cases r with
    | error f => exact .done false
    | ok found =>
      cases found with
      | none => exact .done false
      | some b =>
        exact Script.Asks.ask (P := fun _ x => x.key = key) (c := .remove key) rfl fun _ => .done _

end Probe

/-! ### A store in the process -/

/-- The ceilings leave room for records exactly if one that is written now is held. -/
theorem Ceiling.isHeld_new_iff {l : Limits} {uptime : Nat} (raw : Bytes) :
    (⟨raw, uptime, uptime⟩ : Timed).isHeld l uptime = true ↔ Roomy l uptime := by
  rw [Timed.isHeld_iff]
  constructor
  · rintro ⟨hlast, hlife, hidle⟩
    refine ⟨hlast, ?_, fun d hd => ?_⟩
    · dsimp only at hlife
      omega
    · have hlt : uptime < uptime + d.toNanos := hidle d hd
      omega
  · rintro ⟨hlast, hlife, hidle⟩
    refine ⟨hlast, by dsimp only; omega, fun d hd => ?_⟩
    have hpos : 0 < d.toNanos := hidle d hd
    show uptime < uptime + d.toNanos
    omega

namespace Store

section Examined

variable {s : Store} {c : Clock}

/-- A store in the process gives back what was just written to it exactly if it keeps anything. -/
theorem reply_get_serve_set (hs : s.InProcess) (key : String) (p : Bytes) (ttl : Duration) :
    ((s.serve c (.set key p ttl)).store.serve c (.get key)).reply = .ok (some p) ∧ s.Keeping c ∨
      ((s.serve c (.set key p ttl)).store.serve c (.get key)).reply = .ok none ∧ ¬s.Keeping c := by
  have hs' : (s.serve c (.set key p ttl)).store.InProcess := closed_inProcess c _ s hs
  rw [reply_serve_get hs']
  -- a store that keeps what it is given has the payload; only ceilings can leave no room
  by_cases hroom : s.Keeping c
  · left
    have hheld : (s.serve c (.set key p ttl)).store.held c key = some p :=
      (held_serve_set hroom (reply_serve_set hs p ttl) key).trans (if_pos rfl)
    rw [← held_of_inProcess hs', hheld]
    exact ⟨rfl, hroom⟩
  · right
    cases s with
    | unbounded s | bounded s => exact absurd trivial hroom
    | recording s | redis s | memcached s => exact hs.elim
    | ceiling s =>
      -- the new record is not held at the very uptime at which it was written
      have hnone : (s.set c key p ttl).held? c key = none := by
        unfold Ceiling.held?
        have hfind : (s.set c key p ttl).records.find? key =
            some ⟨Entry.encode c.now p ttl, c.uptime, c.uptime⟩ := TextMap.find?_insert_self ..
        have hnot : ¬Ceiling.Timed.isHeld (s.set c key p ttl).limits c.uptime
            ⟨Entry.encode c.now p ttl, c.uptime, c.uptime⟩ = true :=
          fun hheld => hroom ((Ceiling.isHeld_new_iff _).mp hheld)
        rw [hfind, Option.filter_some, if_neg hnot]
      have hfound : (Store.ceiling (s.set c key p ttl)).found c key = .absent := by
        rw [found, hnone]
        rfl
      refine ⟨?_, hroom⟩
      show Except.ok ((Store.ceiling (s.set c key p ttl)).found c key).payload? = _
      rw [hfound]
      rfl

/-- **What an examination of a store comes to**, in the state `s` at the clock `c`, if the store
gives up `losses` as it goes. -/
structure Examined (c : Clock) (losses : List (String → Bool)) (s : Store) (r : Served Bool) :
    Prop where
  inProcess : r.store.InProcess
  /-- The store is healthy exactly if it keeps what it is given, and still has the marker when that
  is read. -/
  healthy_iff : r.reply = true ↔
    s.Keeping c ∧ ∀ keep ∈ losses.head?, s.keeps keep s.probeKey = true
  /-- If it keeps what it is given, the probe leaves no record under its key, whatever is lost. -/
  absent : s.Keeping c → r.store.record? s.probeKey = none
  /-- Under every other key the records stay as they are, but for those that are given up, … -/
  kept : ∀ k, k ≠ s.probeKey → r.store.record? k = s.record? k ∨
    r.store.record? k = none ∧ ∃ keep ∈ losses, s.keeps keep k = false
  /-- … and where nothing is given up, so does all that any later command on the key depends on. -/
  unnoticed : ∀ k, k ≠ s.probeKey → (∀ keep ∈ losses, s.keeps keep k = true) →
    r.store.AgreeOn k s

/-- A store in the process is examined by a probe. -/
theorem checkHealth_of_inProcess (hs : s.InProcess) (c : Clock) :
    let w := (Probe.script s.probeKey).run (watch c) ⟨s, [], []⟩
    (s.checkHealth c).reply = w.1 ∧ (s.checkHealth c).store = w.2.store := by
  cases s with
  | unbounded s | bounded s | ceiling s => exact ⟨rfl, rfl⟩
  | recording s | redis s | memcached s => exact hs.elim

/-! #### Under the key of the probe -/

section Losses

variable {losses : List (String → Bool)} {keep : String → Bool} {key k : String}

/-- What is kept is the same to readers, whatever was lost of other keys. -/
theorem agreeOn_lose (hs : s.InProcess) (hk : s.keeps keep k = true) :
    AgreeOn k (s.lose keep) s := by
  cases s with
  | unbounded s => exact .refl hs k
  | bounded s => exact .plain trivial trivial (record?_lose_of_keeps hk)
  | ceiling s =>
    -- the whole record is kept, with the uptimes of its writing and its last use
    exact .ceiling rfl ((TextMap.find?_filter_keys ..).trans (if_pos hk))
  | recording s | redis s | memcached s => exact hs.elim

/-- So it is if nothing is up next that would take it. -/
theorem agreeOn_loseNext (hs : s.InProcess) (hk : ∀ keep ∈ losses.head?, s.keeps keep k = true) :
    AgreeOn k (s.loseNext losses) s := by
  cases losses with
  | nil => exact .refl hs k
  | cons keep losses => exact agreeOn_lose hs (hk keep rfl)

/-- After a command, what is up next takes what it would have taken before: it either takes nothing
from the readers of a key, … -/
theorem agreeOn_serve_loseNext (hs : s.InProcess) (x : Command)
    (hk : ∀ keep ∈ losses.head?, s.keeps keep k = true) :
    AgreeOn k ((s.serve c x).store.loseNext losses) (s.serve c x).store :=
  agreeOn_loseNext (closed_inProcess c x _ hs) fun keep h => (keeps_serve hs ..).trans (hk keep h)

/-- … or leaves no record under it. -/
theorem record?_serve_loseNext (hs : s.InProcess) (x : Command)
    (hk : ¬∀ keep ∈ losses.head?, s.keeps keep k = true) :
    ((s.serve c x).store.loseNext losses).record? k = none :=
  record?_loseNext_of_not_kept (by simpa only [keeps_serve hs] using hk)

/-- A reader finds nothing where there is no record. -/
theorem reply_get_of_none (hs : s.InProcess) (h : s.record? key = none) :
    (s.serve c (.get key)).reply = .ok none := by
  rw [reply_serve_get hs]
  by_cases hfound : s.found c key = .absent
  · rw [hfound]
    rfl
  · rw [lookup_of_found hfound, h]
    rfl

/-- **The read of a probe** finds the marker exactly if the store keeps what it is given, and did
not give the marker up. -/
theorem reply_get_loseNext (hs : s.InProcess) (losses : List (String → Bool)) (key : String)
    (p : Bytes) (ttl : Duration) :
    let read := (((s.serve c (.set key p ttl)).store.loseNext losses).serve c (.get key)).reply
    let found := s.Keeping c ∧ ∀ keep ∈ losses.head?, s.keeps keep key = true
    read = .ok (some p) ∧ found ∨ read = .ok none ∧ ¬found := by
  intro read found
  have hset : (s.serve c (.set key p ttl)).store.InProcess := closed_inProcess c _ s hs
  by_cases hkept : ∀ keep ∈ losses.head?, s.keeps keep key = true
  · -- then the read is that of a store that lost nothing
    have hread : read = _ := ((agreeOn_serve_loseNext hs _ hkept).serve c (x := .get key) rfl).1
    rcases reply_get_serve_set hs key p ttl with ⟨hsome, hroom⟩ | ⟨hnone, hroom⟩
    · exact .inl ⟨hread.trans hsome, hroom, hkept⟩
    · exact .inr ⟨hread.trans hnone, fun h => hroom h.1⟩
  · -- the marker was given up
    have hnone := record?_serve_loseNext hs (c := c) (.set key p ttl) hkept
    exact .inr ⟨reply_get_of_none (hset.loseNext losses) hnone, fun h => hkept h.2⟩

/-- A read leaves no record where there was none. -/
theorem record?_serve_get_of_none (hs : s.InProcess) (h : s.record? key = none) :
    (s.serve c (.get key)).store.record? key = none := by
  rcases record?_serve_get hs c key key with hsame | ⟨-, -, hnone⟩
  · exact hsame.trans h
  · exact hnone

/-- What a probe of a store in the process finds, and what it leaves under its key. -/
theorem run_probe (hs : s.InProcess) (c : Clock) (losses : List (String → Bool)) (key : String) :
    let w := (Probe.script key).run (watchLosing c) (⟨s, [], []⟩, losses)
    (w.1 = true ↔ s.Keeping c ∧ ∀ keep ∈ losses.head?, s.keeps keep key = true) ∧
      (s.Keeping c → w.2.1.store.record? key = none) := by
  intro w
  have hset : (s.serve c (.set key Probe.marker Probe.ttl)).store.InProcess :=
    closed_inProcess c _ s hs
  have hwritten := hset.loseNext losses
  have hget := closed_inProcess c (.get key) _ hwritten
  have hwrite : (s.serve c (.set key Probe.marker Probe.ttl)).reply = .ok () :=
    reply_serve_set hs ..
  rcases reply_get_loseNext hs losses key Probe.marker Probe.ttl with
    ⟨hread, hfound⟩ | ⟨hread, hlost⟩
  · have hw : w = _ :=
      (Probe.ends_read (watchLosing c) key (⟨s, [], []⟩, losses) hwrite hread rfl).2
    rw [hw]
    refine ⟨iff_of_true (beq_self_eq_true _) hfound, fun _ => ?_⟩
    exact record?_loseNext_of_none
      ((record?_serve_remove (hget.loseNext losses.tail) key).trans (if_pos rfl))
  · have hw : w = _ :=
      (Probe.ends_unread (watchLosing c) key (⟨s, [], []⟩, losses) hwrite hread nofun).2
    rw [hw]
    refine ⟨iff_of_false Bool.false_ne_true hlost, fun hroom => ?_⟩
    -- a store that keeps what it is given reads nothing only if it gave up the marker
    have hgone : ¬∀ keep ∈ losses.head?, s.keeps keep key = true := fun h => hlost ⟨hroom, h⟩
    exact record?_loseNext_of_none
      (record?_serve_get_of_none hwritten (record?_serve_loseNext hs _ hgone))

/-- The store stays in the process, whatever it gives up. -/
theorem inProcess_run_watchLosing {α : Type} {P : Unit → Command → Prop} {x : Script Unit α}
    (hs : s.InProcess) (losses : List (String → Bool)) (hx : x.Asks P) :
    (x.run (watchLosing c) (⟨s, [], []⟩, losses)).2.1.store.InProcess :=
  hx.run_keeps (I := fun w : Watched × List (String → Bool) => w.1.store.InProcess)
    (fun _ hw => (closed_inProcess c _ _ hw).loseNext _) (fun _ {_} hw => hw) (fun {_} hw => hw) hs

/-! #### Under other keys -/

/-- **What a key that a script does not ask about goes through**: a store that started as `s` has
the same under it, or gave its record up. -/
structure Spared (s : Store) (losses : List (String → Bool)) (k : String)
    (w : Watched × List (String → Bool)) : Prop where
  inProcess : w.1.store.InProcess
  /-- What is still to be given up is of the losses, … -/
  left : ∀ keep ∈ w.2, keep ∈ losses
  /-- … and takes what it would have taken at the start. -/
  keeps : ∀ keep, w.1.store.keeps keep k = s.keeps keep k
  kept : w.1.store.AgreeOn k s ∨
    w.1.store.record? k = none ∧ ∃ keep ∈ losses, s.keeps keep k = false

/-- A command about another key does not touch the record, and what is lost after it may. -/
theorem Spared.serve {w : Watched × List (String → Bool)} (h : Spared s losses k w) {x : Command}
    (hx : x.key ≠ k) : Spared s losses k ((watchLosing c).serve () x w).2 := by
  obtain ⟨w, left⟩ := w
  obtain ⟨hin, hleft, hkeeps, hkept⟩ := h
  have hserve : (w.store.serve c x).store.AgreeOn k w.store := (AgreeOn.refl hin k).serve_other c hx
  have hin' : (w.store.serve c x).store.InProcess := closed_inProcess c x _ hin
  refine ⟨hin'.loseNext left, fun keep h => hleft keep (List.mem_of_mem_tail h), ?_, ?_⟩
  · exact fun keep => (keeps_loseNext left keep).trans ((keeps_serve hin ..).trans (hkeeps keep))
  · -- still as at the start, or given up before
    rcases hkept with hagree | ⟨hnone, hgiven⟩
    · -- the next loss may take the record
      by_cases hall : ∀ keep ∈ left.head?, w.store.keeps keep k = true
      · exact .inl ((agreeOn_serve_loseNext hin x hall).trans (hserve.trans hagree))
      · refine .inr ⟨record?_serve_loseNext hin x hall, ?_⟩
        -- what takes the record is one of the losses
        simp only [not_forall, Bool.not_eq_true] at hall
        obtain ⟨keep, hmem, hlost⟩ := hall
        exact ⟨keep, hleft keep (List.mem_of_mem_head? hmem), (hkeeps keep).symm.trans hlost⟩
    · exact .inr ⟨record?_loseNext_of_none (hserve.record?_eq.trans hnone), hgiven⟩

/-- So every other key is spared by a probe. -/
theorem spared_run_probe (hs : s.InProcess) (c : Clock) (losses : List (String → Bool))
    (hk : k ≠ key) :
    Spared s losses k ((Probe.script key).run (watchLosing c) (⟨s, [], []⟩, losses)).2 := by
  refine (Probe.asks key).run_keeps (I := Spared s losses k) ?_ ?_ ?_ ?_
  · exact fun hx hw => hw.serve fun hxk => hk (hxk.symm.trans hx)
  · exact fun _ {_} hw => ⟨hw.inProcess, hw.left, hw.keeps, hw.kept⟩
  · exact fun {_} hw => hw
  · exact ⟨hs, fun _ h => h, fun _ => rfl, .inl (.refl hs k)⟩

/-- **A store in the process is examined** in any state, at any clock, and whatever it gives up. -/
theorem examined (hs : s.InProcess) (c : Clock) (losses : List (String → Bool)) :
    Examined c losses s (s.examine c losses) := by
  obtain ⟨hhealthy, habsent⟩ := run_probe hs c losses s.probeKey
  -- the probe asks about its own key only
  have hspared (k : String) (hk : k ≠ s.probeKey) := spared_run_probe hs c losses hk
  exact {
    inProcess := inProcess_run_watchLosing hs losses (Probe.asks s.probeKey)
    healthy_iff := hhealthy
    absent := habsent
    kept := fun k hk => (hspared k hk).kept.imp_left AgreeOn.record?_eq
    unnoticed := fun k hk hkeeps => (hspared k hk).kept.resolve_right fun ⟨_, keep, hmem, hlost⟩ =>
      Bool.false_ne_true (hlost.symm.trans (hkeeps keep hmem)) }

end Losses

end Examined

end Store

end TwoTier
