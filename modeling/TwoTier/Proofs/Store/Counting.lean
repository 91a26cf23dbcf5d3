import TwoTier.Proofs.Probe.Verdict
import TwoTier.Proofs.Store.History
import TwoTier.Store.Opening

/-!
# What the counters of a store count

The stores in the process count what they are asked, each on its own paths. What the counters come
to can be told from the questions and answers alone: each question is **logged** with the store as
it was before and the clock, and a counter is the number of entries that count for it, modulo
`2 ^ 64`.

* `Counter.counts` says which entries those are. A read is a hit or a miss by its answer; a miss
  counts as expired as well if a stale record was there to be found.
* `Store.Counted` is the balance between two states, with a log of what happened between them. It
  composes (`Counted.append`), and every command keeps to it (`counted_serve`); so does every
  script, the probe of a health check among them (`counted_run`).
* `counters_account` follows by induction over a run: nothing but reads and writes is counted, and
  each of them once.
-/

namespace TwoTier

/-! ### What is asked in a script -/

/-- The exchanges of a run, each with the state before it. -/
def Script.visits {ι σ α : Type} (h : Handler ι σ) : Script ι α → σ → List (σ × Exchange ι)
  | .done _, _ => []
  | .ask i c k, st =>
    (st, .of i c (h.serve i c st).1) :: (k (h.serve i c st).1).visits h (h.serve i c st).2
  | .check i k, st =>
    (st, .health i (h.healthy i st).1) :: (k (h.healthy i st).1).visits h (h.healthy i st).2
  | .note e k, st => k.visits h (h.note e st)
  | .compute k, st => k.visits h (h.compute st)

/-! ### Counters -/

/-- What a store may count. -/
inductive Counter where
  | hits
  | misses
  | sets
  | expired
deriving DecidableEq, Repr

namespace Store

/-- The state of a counter, if a store has it. -/
def counter? : Counter → Store → Option UInt64
  | .hits, .unbounded s => some s.hits
  | .misses, .unbounded s => some s.misses
  | .sets, .unbounded s => some s.sets
  | .hits, .bounded s => some s.hits
  | .misses, .bounded s => some s.misses
  | .hits, .ceiling s => some s.hits
  | .misses, .ceiling s => some s.misses
  | .sets, .ceiling s => some s.sets
  | .expired, .ceiling s => some s.expired
  | _, _ => none

/-- A question to a store with its answer, the store as it was before, and the clock. -/
structure Logged where
  clock : Clock
  store : Store
  exchange : Exchange Unit

/-- Whether a stale record is there for a reader to find. -/
def hasStale (c : Clock) (key : String) (s : Store) : Bool :=
  (s.present? c key).any (Entry.isStale c.now)

end Store

/-- **Whether an entry counts** for a counter. -/
def Counter.counts : Counter → Store.Logged → Bool
  | .hits, ⟨_, _, .read _ _ (.ok (some _))⟩ => true
  | .misses, ⟨_, _, .read _ _ (.ok none)⟩ => true
  | .sets, ⟨_, _, .write ..⟩ => true
  | .expired, ⟨c, s, .read _ key (.ok none)⟩ => s.hasStale c key
  | _, _ => false

/-- What a read adds to a counter, by what it found. -/
def Counter.tally : Counter → Entry.Found → UInt64
  | .hits, .live _ => 1
  | .misses, .stale => 1
  | .misses, .absent => 1
  | .expired, .stale => 1
  | _, _ => 0

/-! ### What each kind of store does

A read has three exits, in each kind of store. Whichever it takes, apart from the records it changes
the counters alone, each by its tally. -/

section Kinds

variable (now : Nat) (c : Clock) (key : String)

/-- A store that counts one hit or one miss at each exit, counts the tally of what was found. -/
theorem Counter.exits_tally {σ : Type} (m : TextMap Bytes) (hits misses : UInt64)
    (put : TextMap Bytes → UInt64 → UInt64 → σ) :
    let f := Entry.lookup now (m.find? key)
    (Entry.exits now (m.find? key) (put m (hits + 1) misses) (put m hits (misses + 1))
        (put (m.dropStale now key) hits (misses + 1))).2 =
      put (m.dropStale now key) (hits + Counter.hits.tally f)
        (misses + Counter.misses.tally f) := by
  have hzero (n : UInt64) : n + 0 = n := UInt64.add_zero n
  unfold Entry.exits TextMap.dropStale
  -- a hit, a miss, or a miss that drops the record
  cases Entry.lookup now (m.find? key) <;> simp [tally, hzero]

/-- What a read makes of the unbounded kind: the records without a stale one, and the tally in its
counters. -/
theorem Unbounded.get_snd (s : Unbounded) :
    let f := Entry.lookup now (s.records.find? key)
    (s.get now key).2 = { s with
      records := s.records.dropStale now key
      hits := s.hits + Counter.hits.tally f
      misses := s.misses + Counter.misses.tally f } := by
  rw [get_eq_exits]
  exact Counter.exits_tally now key s.records s.hits s.misses fun records hits misses =>
    ({ s with records, hits, misses } : Unbounded)

/-- What it makes of the bounded kind, which has counters of its own. -/
theorem Bounded.get_snd (s : Bounded) :
    let f := Entry.lookup now (s.records.find? key)
    (s.get now key).2 = { s with
      records := s.records.dropStale now key
      hits := s.hits + Counter.hits.tally f
      misses := s.misses + Counter.misses.tally f } := by
  rw [get_eq_exits]
  exact Counter.exits_tally now key s.records s.hits s.misses fun records hits misses =>
    ({ s with records, hits, misses } : Bounded)

/-- A purge changes nothing but the records. -/
theorem Ceiling.exists_purgeStale (s : Ceiling) :
    ∃ r, s.purgeStale c key = { s with records := r } := by
  unfold purgeStale
  split
  · split
    · exact ⟨_, rfl⟩
    · exact ⟨s.records, rfl⟩
  · exact ⟨s.records, rfl⟩

/-- With ceilings the records change by use too, and what has expired is counted as well. -/
theorem Ceiling.exists_get (s : Ceiling) :
    let f := Entry.lookup c.now ((s.held? c key).map Timed.raw)
    ∃ r, (s.get c key).2 = { s with
      records := r
      hits := s.hits + Counter.hits.tally f
      misses := s.misses + Counter.misses.tally f
      expired := s.expired + Counter.expired.tally f } := by
  unfold get
  cases s.held? c key with
  | none => exact ⟨s.records, by simp [Counter.tally, Entry.lookup]⟩
  | some r =>
    rw [Option.map_some]
    rcases Entry.lookup_some c.now r.raw with ⟨-, hf⟩ | ⟨-, p, hf⟩
    · -- the record is used before it is dropped
      obtain ⟨r', hr'⟩ := (s.use c key r).exists_purgeStale c key
      refine ⟨r', ?_⟩
      simp only [hf, hr']
      simp [Counter.tally, use]
    · exact ⟨(s.use c key r).records, by simp [Counter.tally, hf, use]⟩

end Kinds

namespace Store

/-! ### The balance -/

/-- **The counters of `s'` are those of `s` and the entries of a log.** -/
def Counted (s s' : Store) (log : List Logged) : Prop :=
  ∀ k : Counter, s'.counter? k = (s.counter? k).map (· + UInt64.ofNat (log.countP k.counts))

section Counted

variable {s s' s'' : Store} {c : Clock} {log log' : List Logged} {key : String} {k : Counter}

theorem counted_nil_iff : Counted s s' [] ↔ ∀ k, s'.counter? k = s.counter? k := by
  have hzero (n : UInt64) : n + UInt64.ofNat 0 = n := UInt64.add_zero n
  simp only [Counted, List.countP_nil, hzero, Option.map_id']

/-- **Balances add up**: the counters of the first are the ground of the second. -/
theorem Counted.append (h : Counted s s' log) (h' : Counted s' s'' log') :
    Counted s s'' (log ++ log') := by
  intro k
  rw [h' k, h k, Option.map_map, List.countP_append, UInt64.ofNat_add]
  simp only [Function.comp_def, UInt64.add_assoc]

end Counted

/-! ### Uses -/

/-- Drops the record under a key if it is stale, and does nothing else. -/
def purgeStale (c : Clock) (key : String) : Store → Store
  | .unbounded s => .unbounded (s.purgeStale c.now key)
  | .bounded s => .bounded (s.purgeStale c.now key)
  | .ceiling s => .ceiling (s.purgeStale c key)
  | s => s

section Uses

variable {s : Store} {c : Clock} {key : String} {k : Counter}

/-- A purge by itself counts nothing: it is the read that does. -/
theorem counter?_purgeStale (s : Store) (c : Clock) (key : String) (k : Counter) :
    (s.purgeStale c key).counter? k = s.counter? k := by
  cases s with
  | recording s | redis s | memcached s => rfl
  | unbounded s =>
    rw [purgeStale, s.purgeStale_eq]
    cases k <;> rfl
  | bounded s =>
    rw [purgeStale, s.purgeStale_eq]
    cases k <;> rfl
  | ceiling s =>
    obtain ⟨r, hr⟩ := s.exists_purgeStale c key
    rw [purgeStale, hr]
    cases k <;> rfl

/-- A read adds its tally to every counter. -/
theorem counter?_serve_get (hs : s.InProcess) (c : Clock) (key : String) (k : Counter) :
    (s.serve c (.get key)).store.counter? k =
      (s.counter? k).map (· + k.tally (s.found c key)) := by
  have hzero (n : UInt64) : n + 0 = n := UInt64.add_zero n
  cases s with
  | recording s | redis s | memcached s => exact hs.elim
  -- by kind: a counter that the kind does not have stays missing
  | unbounded s =>
    show (Store.unbounded (s.get c.now key).2).counter? k = _
    rw [s.get_snd]
    cases k <;> simp [counter?, found, Counter.tally, hzero]
  | bounded s =>
    show (Store.bounded (s.get c.now key).2).counter? k = _
    rw [s.get_snd]
    cases k <;> rfl
  | ceiling s =>
    obtain ⟨r, hr⟩ := s.exists_get c key
    show (Store.ceiling (s.get c key).2).counter? k = _
    rw [hr]
    cases k <;> simp [counter?, found, Counter.tally, hzero]

/-- Whether something stale is there is what a reader would find. -/
theorem hasStale_eq (s : Store) (c : Clock) (key : String) :
    s.hasStale c key = decide (s.found c key = .stale) := by
  rw [Bool.eq_iff_iff, decide_eq_true_iff, found_eq, Entry.lookup_eq_stale_iff, hasStale,
    Option.any_eq_true]

/-- The entry of a read counts by what the read found. -/
theorem countP_read (s : Store) (c : Clock) (key : String) (k : Counter) :
    UInt64.ofNat ([⟨c, s, .read () key (.ok (s.found c key).payload?)⟩].countP k.counts) =
      k.tally (s.found c key) := by
  cases hf : s.found c key <;> cases k <;>
    simp [Counter.counts, Counter.tally, Entry.Found.payload?, hasStale_eq, hf]

/-- **Every command is counted once**, if it is counted. -/
theorem counted_serve (hs : s.InProcess) (c : Clock) (x : Command) :
    Counted s (s.serve c x).store [⟨c, s, .of () x (s.serve c x).reply⟩] := by
  intro k
  cases x with
  -- a read counts by its answer, which is what it found
  | get key =>
    rw [counter?_serve_get hs, reply_serve_get hs]
    exact congrArg (fun n => (s.counter? k).map (· + n)) (countP_read s c key k).symm
  -- a write counts by itself, where writes are counted
  | set key p ttl =>
    cases s with
    | recording s | redis s | memcached s => exact hs.elim
    | unbounded s | bounded s | ceiling s =>
      cases k <;> simp [counter?, serve, Exchange.of, Counter.counts, Unbounded.set, Bounded.set,
        Ceiling.set]
  -- a removal has no counter in any kind
  | remove key =>
    cases s with
    | recording s | redis s | memcached s => exact hs.elim
    | unbounded s | bounded s | ceiling s =>
      cases k <;> simp [counter?, serve, Exchange.of, Counter.counts, Unbounded.remove,
        Bounded.remove, Ceiling.remove]

/-- Removals are not counted, … -/
theorem counter?_serve_remove (hs : s.InProcess) (c : Clock) (key : String) (k : Counter) :
    (s.serve c (.remove key)).store.counter? k = s.counter? k := by
  have hcounted := counted_serve hs c (.remove key) k
  have hzero : [(⟨c, s, .of () (.remove key) (s.serve c (.remove key)).reply⟩ : Logged)].countP
      k.counts = 0 := by
    cases k <;> rfl
  rw [hcounted, hzero]
  simp

/-- … and neither is what goes past the commands. -/
theorem counter?_use_of_uncounted (hs : s.InProcess) {u : Use} (hu : ∀ x, u ≠ .command x) :
    (s.use c u).2.counter? k = s.counter? k := by
  cases u with
  | command x => exact absurd rfl (hu x)
  | contains key =>
    cases s with
    | recording s | redis s | memcached s => exact hs.elim
    | unbounded s | bounded s => rfl
    | ceiling s =>
      show (Store.ceiling (s.contains c key).2).counter? k = _
      unfold Ceiling.contains
      cases s.held? c key <;> cases k <;> rfl
  | sweep =>
    cases s with
    | recording s | redis s | memcached s => exact hs.elim
    | bounded s | ceiling s => rfl
    | unbounded s => cases k <;> rfl

end Uses

/-! ### Scripts -/

/-- An entry is **genuine** if it is a command, with the answer of the store as it was. -/
structure Logged.Genuine (e : Logged) : Prop where
  inProcess : e.store.InProcess
  answered : ∃ x, e.exchange = .of () x (e.store.serve e.clock x).reply

/-- The exchanges of a script with a store, logged. -/
def logOf {α : Type} (c : Clock) (x : Script Unit α) (w : Watched) : List Logged :=
  (x.visits (watch c) w).map fun v => ⟨c, v.1.store, v.2⟩

section Scripts

variable {α : Type} {P : Unit → Command → Prop} {x : Script Unit α} {c : Clock} {w : Watched}

/-- **Every script is counted**, command by command. -/
theorem counted_run (hx : x.Asks P) (hw : w.store.InProcess) :
    Counted w.store (x.run (watch c) w).2.store (logOf c x w) := by
  -- along the script: each command adds its own entry
  induction hx generalizing w with
  | done a => exact counted_nil_iff.mpr fun _ => rfl
  | ask _ _ ih => exact (counted_serve hw c _).append (ih _ (closed_inProcess c _ _ hw))
  | note e _ ih => exact ih hw
  | compute _ ih => exact ih hw

/-- What is logged of a script are commands, with the answers of the store. -/
theorem genuine_logOf (hx : x.Asks P) (hw : w.store.InProcess) : ∀ e ∈ logOf c x w, e.Genuine := by
  induction hx generalizing w with
  | done a => exact List.forall_mem_nil _
  | ask _ _ ih =>
    exact List.forall_mem_cons.mpr ⟨⟨hw, _, rfl⟩, ih _ (closed_inProcess c _ _ hw)⟩
  | note e _ ih => exact ih hw
  | compute _ ih => exact ih hw

end Scripts

/-! ### Runs -/

/-- What can happen to a store in the process. -/
inductive Turn where
  | use (u : Use)
  /-- A check of its health. -/
  | health
  /-- Records are given up for want of room, all but those under some keys. -/
  | lose (keep : String → Bool)

/-- The store after a turn. -/
def Turn.after (c : Clock) : Turn → Store → Store
  | .use u, s => (s.use c u).2
  | .health, s => (s.checkHealth c).store
  | .lose keep, s => s.lose keep

/-- What a store is asked in a turn. -/
def Turn.log (c : Clock) : Turn → Store → List Logged
  | .use (.command x), s => [⟨c, s, .of () x (s.serve c x).reply⟩]
  | .use _, _ => []
  | .health, s => logOf c (Probe.script s.probeKey) ⟨s, [], []⟩
  | .lose _, _ => []

/-- The store after some turns, the first of them first. -/
def afterTurns : List (Clock × Turn) → Store → Store
  | [], s => s
  | (c, t) :: turns, s => afterTurns turns (t.after c s)

/-- What a store is asked in some turns. -/
def log : List (Clock × Turn) → Store → List Logged
  | [], _ => []
  | (c, t) :: turns, s => t.log c s ++ log turns (t.after c s)

section Runs

variable {s : Store} {c : Clock} {t : Turn} {turns : List (Clock × Turn)}

/-- No turn leads out of the process. -/
theorem InProcess.afterTurn (hs : s.InProcess) : (t.after c s).InProcess := by
  cases t with
  | use u => exact hs.use
  | health => exact closed_inProcess.checkHealth hs
  | lose keep => exact hs.lose

/-- What is logged of a turn are commands, with the answers of the store. -/
theorem genuine_turn (hs : s.InProcess) : ∀ e ∈ t.log c s, e.Genuine := by
  cases t with
  | use u =>
    cases u with
    | command x => exact List.forall_mem_singleton.mpr ⟨hs, x, rfl⟩
    | contains key | sweep => exact List.forall_mem_nil _
  | health => exact genuine_logOf (Probe.asks s.probeKey) hs
  | lose keep => exact List.forall_mem_nil _

/-- **Every turn is counted.** -/
theorem counted_turn (hs : s.InProcess) : Counted s (t.after c s) (t.log c s) := by
  cases t with
  | use u =>
    cases u with
    | command x => exact counted_serve hs c x
    | contains key | sweep =>
      exact counted_nil_iff.mpr fun k => counter?_use_of_uncounted hs nofun
  -- the probe is a script that asks commands only
  | health =>
    rw [Turn.after, (checkHealth_of_inProcess hs c).2]
    exact counted_run (w := ⟨s, [], []⟩) (Probe.asks s.probeKey) hs
  | lose keep =>
    refine counted_nil_iff.mpr fun k => ?_
    cases s <;> cases k <;> rfl

/-- So it is of a run. -/
theorem genuine_log (hs : s.InProcess) : ∀ e ∈ log turns s, e.Genuine := by
  induction turns generalizing s with
  | nil => exact List.forall_mem_nil _
  | cons x turns ih =>
    exact fun e he => (List.mem_append.mp he).elim (genuine_turn hs e) (ih hs.afterTurn e)

/-- **So is every run.** -/
theorem counted_turns (hs : s.InProcess) : Counted s (afterTurns turns s) (log turns s) := by
  -- turn by turn, the log of the rest after that of the first
  induction turns generalizing s with
  | nil => exact counted_nil_iff.mpr fun _ => rfl
  | cons x turns ih => exact (counted_turn hs).append (ih hs.afterTurn)

end Runs

/-! ### Numbers of entries -/

section Numbers

variable {l : List Logged}

/-- Only a miss is counted as expired, … -/
theorem countP_expired_le (l : List Logged) :
    l.countP Counter.expired.counts ≤ l.countP Counter.misses.counts := by
  refine List.countP_mono_left fun e _ he => ?_
  obtain ⟨c, s, y⟩ := e
  cases y with
  | write | removal | health => cases he
  | read i key r =>
    rcases r with f | _ | p
    · cases he
    · rfl
    · cases he

/-- … and a read is a hit or a miss, and not both. -/
theorem countP_isRead (hl : ∀ e ∈ l, e.Genuine) :
    l.countP (·.exchange.isRead) =
      l.countP Counter.hits.counts + l.countP Counter.misses.counts := by
  induction l with
  | nil => rfl
  | cons e l ih =>
    obtain ⟨⟨hs, x, hx⟩, hrest⟩ := List.forall_mem_cons.mp hl
    obtain ⟨c, s, y⟩ := e
    dsimp only at hs hx
    subst hx
    rw [List.countP_cons, List.countP_cons, List.countP_cons, ih hrest]
    -- only a read is in question, and its answer is a payload or none
    cases x with
    | get key =>
      rw [reply_serve_get hs]
      cases (s.found c key).payload? with
      | none => exact Nat.add_assoc ..
      | some p => exact Nat.add_right_comm ..
    | set key p ttl | remove key => simp [Exchange.of, Exchange.isRead, Counter.counts]

end Numbers

/-- A fresh store has counted nothing. -/
theorem counter?_fresh {spec : Spec} {s : Store} (hopen : spec.opening.result = .ok s)
    (hs : s.InProcess) {k : Counter} {n : UInt64} (hk : s.counter? k = some n) : n = 0 := by
  cases spec with
  | recording name | unbounded | bounded capacity | ceiling limits =>
    cases hopen
    cases k <;> cases hk <;> rfl
  | redis url valid server =>
    -- whatever was opened is no store in the process
    cases s with
    | unbounded s | bounded s | ceiling s =>
      dsimp only [Spec.opening] at hopen
      generalize (Redis.connect url valid server).1 = r at hopen
      cases r <;> cases hopen
    | recording s | redis s | memcached s => exact hs.elim
  | memcached url refusal server =>
    cases s with
    | unbounded s | bounded s | ceiling s =>
      dsimp only [Spec.opening] at hopen
      generalize (Memcached.connect url refusal server).1 = r at hopen
      cases r <;> cases hopen
    | recording s | redis s | memcached s => exact hs.elim

/-- **The counters account for every question.** After any run from a fresh store in the process,
with the clock set at will, each counter that the store has is the number of questions that count
for it, modulo `2 ^ 64`. The questions are logged with the answers of the store; a read is a hit or
a miss, and only a miss is counted as expired. Nothing else is counted. -/
theorem counters_account {spec : Spec} {s : Store} (hopen : spec.opening.result = .ok s)
    (hs : s.InProcess) (turns : List (Clock × Turn)) :
    (∀ e ∈ log turns s, e.Genuine) ∧
    (∀ k : Counter, (afterTurns turns s).counter? k =
      (s.counter? k).map fun _ => UInt64.ofNat ((log turns s).countP k.counts)) ∧
    (log turns s).countP (·.exchange.isRead) =
      (log turns s).countP Counter.hits.counts + (log turns s).countP Counter.misses.counts ∧
    ((log turns s).countP (·.exchange.isRead) < UInt64.size → ∀ expired misses,
      (afterTurns turns s).counter? .expired = some expired →
      (afterTurns turns s).counter? .misses = some misses → expired ≤ misses) ∧
    ∀ (s' : Store) c key k, s'.InProcess →
      (s'.use c (.command (.remove key))).2.counter? k = s'.counter? k ∧
      (s'.use c (.contains key)).2.counter? k = s'.counter? k ∧
      (s'.use c .sweep).2.counter? k = s'.counter? k ∧
      (s'.purgeStale c key).counter? k = s'.counter? k := by
  -- a fresh store has counted nothing, so that the counters are the log alone
  have hcounts (k : Counter) : (afterTurns turns s).counter? k =
      (s.counter? k).map fun _ => UInt64.ofNat ((log turns s).countP k.counts) := by
    rw [counted_turns hs k]
    cases hk : s.counter? k with
    | none => rfl
    | some n =>
      rw [counter?_fresh hopen hs hk]
      exact congrArg some (UInt64.zero_add _)
  have hgenuine : ∀ e ∈ log turns s, e.Genuine := genuine_log hs
  refine ⟨hgenuine, hcounts, countP_isRead hgenuine, ?_, ?_⟩
  · intro hlt expired misses hexpired hmisses
    have hle : (log turns s).countP Counter.expired.counts ≤
        (log turns s).countP Counter.misses.counts := countP_expired_le _
    have hreads := countP_isRead hgenuine
    rw [hcounts, Option.map_eq_some_iff] at hexpired hmisses
    obtain ⟨-, -, rfl⟩ := hexpired
    obtain ⟨-, -, rfl⟩ := hmisses
    rw [UInt64.le_iff_toNat_le, UInt64.toNat_ofNat_of_lt' (by omega),
      UInt64.toNat_ofNat_of_lt' (by omega)]
    exact hle
  · intro s' c key k hs'
    exact ⟨counter?_serve_remove hs' c key k, counter?_use_of_uncounted hs' nofun,
      counter?_use_of_uncounted hs' nofun, counter?_purgeStale ..⟩

/-- A payload for one second, a read after its deadline, a health check, and the same read again. -/
def readTwice : List (Clock × Turn) :=
  [(.atSecond 0, .use (.command (.set "k" [1] (.ofSecs 1)))),
    (.atSecond 2, .use (.command (.get "k"))), (.atSecond 2, .health),
    (.atSecond 2, .use (.command (.get "k")))]

/-- The hit is that of the health check, and the second miss finds nothing any more. -/
theorem counters_account_readTwice :
    let s : Store := .ceiling {}
    (Spec.ceiling {}).opening.result = .ok s ∧ s.InProcess ∧
      (afterTurns readTwice s).counter? .hits = some 1 ∧
      (afterTurns readTwice s).counter? .misses = some 2 ∧
      (afterTurns readTwice s).counter? .sets = some 2 ∧
      (afterTurns readTwice s).counter? .expired = some 1 ∧
      ∀ expired misses, (afterTurns readTwice s).counter? .expired = some expired →
        (afterTurns readTwice s).counter? .misses = some misses → expired ≤ misses := by
  intro s
  have hopen : (Spec.ceiling {}).opening.result = .ok s := rfl
  have hs : s.InProcess := trivial
  obtain ⟨-, hcounts, -, hle, -⟩ := counters_account hopen hs readTwice
  have hhits : (log readTwice s).countP Counter.hits.counts = 1 := by decide +kernel
  have hmisses : (log readTwice s).countP Counter.misses.counts = 2 := by decide +kernel
  have hsets : (log readTwice s).countP Counter.sets.counts = 2 := by decide +kernel
  have hexpired : (log readTwice s).countP Counter.expired.counts = 1 := by decide +kernel
  refine ⟨hopen, hs, ?_, ?_, ?_, ?_, hle (by decide +kernel)⟩
  · rw [hcounts, hhits]
    rfl
  · rw [hcounts, hmisses]
    rfl
  · rw [hcounts, hsets]
    rfl
  · rw [hcounts, hexpired]
    rfl

end Store

end TwoTier
