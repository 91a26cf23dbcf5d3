import TwoTier.Proofs.Store.Losses

/-!
# Reads in two steps

A read that finds a stale record does so in one step, and drops it in another. Between the two,
other callers may do anything, the clock may be set, and the store may run out of room.

* `Store.look` and `Store.purge` are the two steps, and `store_serve_get` puts a read together from
  them;
* `Act` is an atomic step of a caller, or of the store itself when it gives up records, and
  `Store.acts` carries out what several callers do, in the order in which it happens;
  `Store.readAround` is a read with its steps apart;
* the purge looks again: it drops what is stale when it comes, whatever was found before
  (`record?_purge`). So no caller loses a record that is live but by removing it or writing over it,
  in any interleaving (`Store.purges_only_stale`).
-/

namespace TwoTier

/-! ### The two steps in each kind of store -/

section Kinds

variable {now : Nat} {c : Clock} {key : String}

/-- The first step of a read: what is found, counted unless it is stale. -/
def Unbounded.look (now : Nat) (key : String) (s : Unbounded) : Entry.Found × Unbounded :=
  match Entry.lookup now (s.records.find? key) with
  | .live p => (.live p, { s with hits := s.hits + 1 })
  | .absent => (.absent, { s with misses := s.misses + 1 })
  | .stale => (.stale, s)

/-- The second step of a read that found a stale record: drops the record if it is stale, and counts
the miss. -/
def Unbounded.purge (now : Nat) (key : String) (s : Unbounded) : Unbounded :=
  let s' := s.purgeStale now key
  { s' with misses := s'.misses + 1 }

/-- Both steps are reads as to what is found, and differ from one in what they drop. -/
theorem Unbounded.look_eq_exits (s : Unbounded) : s.look now key =
    Entry.exits now (s.records.find? key) { s with hits := s.hits + 1 }
      { s with misses := s.misses + 1 } s :=
  rfl

/-- A read of the unbounded kind is its two steps, one right after the other. -/
theorem Unbounded.get_eq (s : Unbounded) : s.get now key =
    ((s.look now key).1, if (s.look now key).1 = .stale then (s.look now key).2.purge now key
      else (s.look now key).2) :=
  Entry.exits_drop now (s.records.find? key) (purge now key)

/-- The first step of a read: what is found, counted unless it is stale. -/
def Bounded.look (now : Nat) (key : String) (s : Bounded) : Entry.Found × Bounded :=
  match Entry.lookup now (s.records.find? key) with
  | .live p => (.live p, { s with hits := s.hits + 1 })
  | .absent => (.absent, { s with misses := s.misses + 1 })
  | .stale => (.stale, s)

/-- The second step of a read that found a stale record: drops the record if it is stale, and counts
the miss. -/
def Bounded.purge (now : Nat) (key : String) (s : Bounded) : Bounded :=
  let s' := s.purgeStale now key
  { s' with misses := s'.misses + 1 }

theorem Bounded.look_eq_exits (s : Bounded) : s.look now key =
    Entry.exits now (s.records.find? key) { s with hits := s.hits + 1 }
      { s with misses := s.misses + 1 } s :=
  rfl

/-- So is a read of the bounded kind. -/
theorem Bounded.get_eq (s : Bounded) : s.get now key =
    ((s.look now key).1, if (s.look now key).1 = .stale then (s.look now key).2.purge now key
      else (s.look now key).2) :=
  Entry.exits_drop now (s.records.find? key) (purge now key)

/-- The first step of a read: what is found, counted unless it is stale. A record that is held is
used, whether it is stale or not. -/
def Ceiling.look (c : Clock) (key : String) (s : Ceiling) : Entry.Found × Ceiling :=
  match s.held? c key with
  | none => (.absent, { s with misses := s.misses + 1 })
  | some r =>
    let s := s.use c key r
    match Entry.lookup c.now (some r.raw) with
    | .live p => (.live p, { s with hits := s.hits + 1 })
    | _ => (.stale, s)

/-- The second step of a read that found a stale record: drops the record if it is held and stale,
and counts the miss, as expired. -/
def Ceiling.purge (c : Clock) (key : String) (s : Ceiling) : Ceiling :=
  let s' := s.purgeStale c key
  { s' with misses := s'.misses + 1, expired := s'.expired + 1 }

/-- What the first step finds is looked up in what is held. -/
theorem Ceiling.look_fst (s : Ceiling) :
    (s.look c key).1 = Entry.lookup c.now ((s.held? c key).map Timed.raw) := by
  unfold look
  cases s.held? c key with
  | none => rfl
  | some r =>
    rcases Entry.lookup_some c.now r.raw with ⟨-, hf⟩ | ⟨-, p, hf⟩
    · simp only [Option.map_some, hf]
    · simp only [Option.map_some, hf]

/-- To use a record does not change it. -/
theorem Ceiling.find?_look (s : Ceiling) (k : String) :
    ((s.look c key).2.records.find? k).map Timed.raw = (s.records.find? k).map Timed.raw := by
  unfold look
  cases hr : s.held? c key with
  | none => rfl
  | some r =>
    have huse := find?_use hr k
    dsimp only
    cases Entry.lookup c.now (some r.raw) <;> exact huse

/-- A read of a store with ceilings is its two steps too: what it uses in the first is what it drops
in the second. -/
theorem Ceiling.get_eq (s : Ceiling) : s.get c key =
    ((s.look c key).1, if (s.look c key).1 = .stale then (s.look c key).2.purge c key
      else (s.look c key).2) := by
  unfold get look
  cases s.held? c key with
  | none => rfl
  | some r =>
    -- a held record is stale, and goes through both steps, or is live and through one
    rcases Entry.lookup_some c.now r.raw with ⟨-, hf⟩ | ⟨-, p, hf⟩
    · simp only [hf]
      rfl
    · simp only [hf]
      rfl

end Kinds

namespace Store

/-! ### The two steps -/

/-- The first step of a read. -/
def look (c : Clock) (key : String) : Store → Entry.Found × Store
  | .unbounded s => ((s.look c.now key).1, .unbounded (s.look c.now key).2)
  | .bounded s => ((s.look c.now key).1, .bounded (s.look c.now key).2)
  | .ceiling s => ((s.look c key).1, .ceiling (s.look c key).2)
  | s => (.absent, s)

/-- The second step of a read that found a stale record. -/
def purge (c : Clock) (key : String) : Store → Store
  | .unbounded s => .unbounded (s.purge c.now key)
  | .bounded s => .bounded (s.purge c.now key)
  | .ceiling s => .ceiling (s.purge c key)
  | s => s

section Steps

variable {s : Store} {c : Clock} {key : String}

/-- The first step finds what a read finds. -/
theorem look_fst (s : Store) (c : Clock) (key : String) :
    (s.look c key).1 = s.found c key := by
  cases s with
  | recording s | redis s | memcached s => rfl
  | unbounded s => exact (congrArg Prod.fst s.look_eq_exits).trans (Entry.exits_fst ..)
  | bounded s => exact (congrArg Prod.fst s.look_eq_exits).trans (Entry.exits_fst ..)
  | ceiling s => exact s.look_fst

/-- **A read, step by step.** -/
theorem store_serve_get (hs : s.InProcess) (c : Clock) (key : String) :
    (s.serve c (.get key)).store =
      if s.found c key = .stale then (s.look c key).2.purge c key else (s.look c key).2 := by
  rw [← look_fst]
  cases s with
  | recording s | redis s | memcached s => exact hs.elim
  | unbounded s => exact (congrArg (fun r => unbounded r.2) s.get_eq).trans (apply_ite ..)
  | bounded s => exact (congrArg (fun r => bounded r.2) s.get_eq).trans (apply_ite ..)
  | ceiling s => exact (congrArg (fun r => ceiling r.2) s.get_eq).trans (apply_ite ..)

/-- Neither step leads to a store of another sort. -/
theorem InProcess.look (hs : s.InProcess) : (s.look c key).2.InProcess := by
  cases s with
  | recording s | redis s | memcached s => exact hs.elim
  | unbounded s | bounded s | ceiling s => trivial

theorem InProcess.purge (hs : s.InProcess) : (s.purge c key).InProcess := by
  cases s with
  | recording s | redis s | memcached s => exact hs.elim
  | unbounded s | bounded s | ceiling s => trivial

/-- The first step leaves all records as they are. -/
theorem record?_look (s : Store) (c : Clock) (key k : String) :
    (s.look c key).2.record? k = s.record? k := by
  cases s with
  | recording s | redis s | memcached s => rfl
  -- plain stores count only; those with ceilings also use the record
  | unbounded s =>
    show (s.look c.now key).2.records.find? k = s.records.find? k
    rw [s.look_eq_exits]
    exact Entry.exits_congr c.now _ (fun t : Unbounded => t.records.find? k) rfl rfl rfl
  | bounded s =>
    show (s.look c.now key).2.records.find? k = s.records.find? k
    rw [s.look_eq_exits]
    exact Entry.exits_congr c.now _ (fun t : Bounded => t.records.find? k) rfl rfl rfl
  | ceiling s => exact s.find?_look k

/-- **The second step looks again**: it drops the record if that is found stale now. -/
theorem record?_purge (s : Store) (c : Clock) (key k : String) :
    (s.purge c key).record? k =
      if k = key ∧ s.found c key = .stale then none else s.record? k := by
  cases s with
  | recording s | redis s | memcached s => rw [if_neg fun h => nomatch h.2]; rfl
  | unbounded s =>
    show (s.purgeStale c.now key).records.find? k = _
    rw [s.purgeStale_eq]
    exact TextMap.find?_dropStale ..
  | bounded s =>
    show (s.purgeStale c.now key).records.find? k = _
    rw [s.purgeStale_eq]
    exact TextMap.find?_dropStale ..
  | ceiling s =>
    -- a record that is not held is neither found nor dropped
    show ((s.purgeStale c key).records.find? k).map Ceiling.Timed.raw = _
    rw [Ceiling.find?_purgeStale, apply_ite (Option.map Ceiling.Timed.raw)]
    rfl

end Steps

end Store

/-! ### Several callers -/

/-- An atomic step of a caller, or of the store itself. -/
inductive Act where
  | use (u : Use)
  /-- The first step of a read. -/
  | look (key : String)
  /-- The second step of a read that found a stale record. -/
  | purge (key : String)
  /-- Records are given up for want of room, all but those under some keys; no caller asks for it.
  -/
  | lose (keep : String → Bool)

namespace Act

/-- Whether a step writes or removes the record of a key. -/
def writes (k : String) : Act → Bool
  | .use u => u.writes k
  | _ => false

/-- Whether a step drops the record of a key if that is stale. -/
def checks (k : String) : Act → Bool
  | .use u => u.checks k
  | .look _ => false
  | .purge key => key == k
  | .lose _ => false

/-- A step that writes or removes the record of a key is a deposit under it, or a removal. -/
theorem of_writes {k : String} {x : Act} (hx : x.writes k = true) :
    (∃ p ttl, x = .use (.command (.set k p ttl))) ∨ x = .use (.command (.remove k)) := by
  cases x with
  | look key | purge key | lose keep => cases hx
  | use u =>
    rcases Use.of_writes hx with ⟨p, ttl, rfl⟩ | rfl
    · exact .inl ⟨p, ttl, rfl⟩
    · exact .inr rfl

end Act

namespace Store

/-- Carries out a step. -/
def act (c : Clock) : Act → Store → Store
  | .use u, s => (s.use c u).2
  | .look key, s => (s.look c key).2
  | .purge key, s => s.purge c key
  | .lose keep, s => s.lose keep

/-- Carries out steps, each at its clock, in their order. -/
def acts (l : List (Clock × Act)) (s : Store) : Store := l.foldl (fun s x => s.act x.1 x.2) s

/-- A read whose first step is at the clock `c` and whose second, if it comes to that, at `c'`, with
the steps of other callers between them. -/
def readAround (c : Clock) (key : String) (between : List (Clock × Act)) (c' : Clock) (s : Store) :
    Except Failure (Option Bytes) × Store :=
  let (found, s) := s.look c key
  (.ok found.payload?, if found = .stale then (s.acts between).purge c' key else s.acts between)

/-- A step gives up the record of a key for want of room. -/
def GivesUp (k : String) (x : Act) (s : Store) : Prop :=
  ∃ keep, x = .lose keep ∧ s.keeps keep k = false

/-- A record that a reader has before it is expired or malformed. -/
def HasStale (s : Store) (c : Clock) (key : String) : Prop :=
  ∃ raw, s.present? c key = some raw ∧
    (Entry.decode c.now raw = .expired ∨ Entry.decode c.now raw = .malformed)

section Acts

variable {s : Store} {c : Clock} {k : String} {x : Act} {raw : Bytes}

/-- To have something stale is to find it stale. -/
theorem hasStale_iff : s.HasStale c k ↔ s.found c k = .stale := by
  rw [found_eq, Entry.lookup_eq_stale_iff]
  simp only [Entry.isStale_iff_decode]
  rfl

theorem acts_append (l l' : List (Clock × Act)) : s.acts (l ++ l') = (s.acts l).acts l' :=
  List.foldl_append

/-- No step leads out of the process. -/
theorem InProcess.act (hs : s.InProcess) : (s.act c x).InProcess := by
  cases x with
  | use u => exact InProcess.use hs
  | look key => exact InProcess.look hs
  | purge key => exact InProcess.purge hs
  | lose keep => exact InProcess.lose hs

/-- Nor do several. -/
theorem InProcess.acts (hs : s.InProcess) (l : List (Clock × Act)) : (s.acts l).InProcess := by
  induction l generalizing s with
  | nil => exact hs
  | cons x l ih => exact ih hs.act

/-- No step changes what a store may give up. -/
theorem keeps_act (hs : s.InProcess) (keep : String → Bool) (k : String) :
    (s.act c x).keeps keep k = s.keeps keep k := by
  cases x with
  | lose keep' => exact keeps_lose keep keep'
  | look key | purge key =>
    cases s with
    | unbounded s | bounded s | ceiling s => rfl
    | recording s | redis s | memcached s => exact hs.elim
  -- all kinds keep their capacity, whatever the use does to the records
  | use u =>
    cases u with
    | command q => exact keeps_serve hs c q keep k
    | contains key | sweep =>
      cases s with
      | unbounded s | bounded s | ceiling s => rfl
      | recording s | redis s | memcached s => exact hs.elim

/-- Whether a step is a loss does not depend on what was done before, -/
theorem givesUp_act (hs : s.InProcess) {y : Act} :
    (s.act c x).GivesUp k y ↔ s.GivesUp k y := by
  simp only [GivesUp, keeps_act hs]

/-- however much that was. -/
theorem givesUp_acts (hs : s.InProcess) (l : List (Clock × Act)) {y : Act} :
    (s.acts l).GivesUp k y ↔ s.GivesUp k y := by
  induction l generalizing s with
  | nil => exact Iff.rfl
  | cons x l ih => exact (ih hs.act).trans (givesUp_act hs)

/-- **A step** that writes nothing under a key leaves its record, or finds it stale and drops it, or
gives it up. -/
theorem record?_act_of_unwritten (hs : s.InProcess) (hx : x.writes k = false) :
    (s.act c x).record? k = s.record? k ∨
      (s.act c x).record? k = none ∧
        (x.checks k = true ∧ (∃ raw, s.record? k = some raw ∧ Entry.isStale c.now raw = true) ∨
          s.GivesUp k x) := by
  cases x with
  | use u =>
    rcases record?_use_of_unwritten hs hx with hsame | ⟨hcheck, hstale, hnone⟩
    · exact .inl hsame
    · exact .inr ⟨hnone, .inl ⟨hcheck, hstale⟩⟩
  | look key => exact .inl (record?_look s c key k)
  -- a purge is a check of its own key, at its own clock
  | purge key =>
    have hpurge := record?_purge s c key k
    by_cases h : k = key ∧ s.found c key = .stale
    · obtain ⟨rfl, hstale⟩ := h
      rw [if_pos ⟨rfl, hstale⟩] at hpurge
      exact .inr ⟨hpurge, .inl ⟨beq_self_eq_true k, record?_of_found_stale hstale⟩⟩
    · rw [if_neg h] at hpurge
      exact .inl hpurge
  | lose keep =>
    have hlose := record?_lose s keep k
    cases hk : s.keeps keep k with
    | true => exact .inl (record?_lose_of_keeps hk)
    | false =>
      rw [hk] at hlose
      exact .inr ⟨hlose, .inr ⟨keep, rfl, hk⟩⟩

/-- A record that is live stays, unless it is removed, written over or given up. -/
theorem record?_act_of_live (hs : s.InProcess) (hraw : s.record? k = some raw)
    (hlive : Entry.isStale c.now raw = false) (hx : x.writes k = false) :
    (s.act c x).record? k = some raw ∨ (s.act c x).record? k = none ∧ s.GivesUp k x := by
  rcases record?_act_of_unwritten (c := c) hs hx with hsame | ⟨hnone, hstale | hlost⟩
  · exact .inl (hsame.trans hraw)
  · -- what was found stale is the very record, which is live
    obtain ⟨-, raw', hraw', hstale⟩ := hstale
    rw [hraw] at hraw'
    obtain rfl := Option.some.inj hraw'
    rw [hlive] at hstale
    cases hstale
  · exact .inr ⟨hnone, hlost⟩

/-- **In any interleaving**, what becomes of a record happens at one of the steps: it is written
over or removed, or found stale by a check, or given up for want of room. -/
theorem exists_step_of_lost (hs : s.InProcess) (hraw : s.record? k = some raw)
    (l : List (Clock × Act)) (hlost : (s.acts l).record? k ≠ some raw) :
    ∃ before c x after, l = before ++ (c, x) :: after ∧ (s.acts before).record? k = some raw ∧
      (x.writes k = true ∨ x.checks k = true ∧ Entry.isStale c.now raw = true ∨
        s.GivesUp k x) := by
  -- on the steps, from the first: it is the first at which the record is not what it was
  induction l generalizing s with
  | nil => exact absurd hraw hlost
  | cons y l ih =>
    obtain ⟨c, x⟩ := y
    -- the first step keeps the record, or it is the one that is looked for
    by_cases hkept : (s.act c x).record? k = some raw
    · obtain ⟨before, c', x', after, rfl, hbefore, hcause⟩ := ih hs.act hkept hlost
      rw [givesUp_act hs] at hcause
      exact ⟨(c, x) :: before, c', x', after, rfl, hbefore, hcause⟩
    · refine ⟨[], c, x, l, rfl, hraw, ?_⟩
      cases hx : x.writes k with
      | true => exact .inl rfl
      | false =>
        rcases record?_act_of_unwritten (c := c) hs hx with
          hsame | ⟨-, ⟨hcheck, raw', hr, hst⟩ | hgiven⟩
        · exact absurd (hsame.trans hraw) hkept
        · rw [hraw] at hr
          obtain rfl := Option.some.inj hr
          exact .inr (.inl ⟨hcheck, hst⟩)
        · exact .inr (.inr hgiven)

/-- With nothing between its steps, it is a read. -/
theorem readAround_nil (hs : s.InProcess) :
    s.readAround c k [] c = ((s.serve c (.get k)).reply, (s.serve c (.get k)).store) := by
  rw [reply_serve_get hs, store_serve_get hs, ← look_fst]
  rfl

/-- A read that found a stale record misses, and then looks again. -/
theorem readAround_of_stale {between : List (Clock × Act)} {c' : Clock} (h : s.found c k = .stale) :
    s.readAround c k between c' = (.ok none, ((s.look c k).2.acts between).purge c' k) := by
  have hlook : s.look c k = (.stale, (s.look c k).2) := Prod.ext ((s.look_fst c k).trans h) rfl
  unfold readAround
  rw [hlook]
  rfl

/-- A record that is live is taken away by its removal or given up, and replaced by a write alone.
-/
theorem act_of_live (hs : s.InProcess) (hraw : s.record? k = some raw)
    (hlive : Entry.isStale c.now raw = false) :
    ((s.act c x).record? k = none → x = .use (.command (.remove k)) ∨ s.GivesUp k x) ∧
      ∀ raw', (s.act c x).record? k = some raw' → raw' ≠ raw →
        ∃ p ttl, x = .use (.command (.set k p ttl)) := by
  cases hx : x.writes k with
  | false =>
    rcases record?_act_of_live (c := c) hs hraw hlive hx with hkept | ⟨hnone, hgiven⟩
    · rw [hkept]
      exact ⟨fun h => (nomatch h), fun raw' h hne => absurd (Option.some.inj h).symm hne⟩
    · rw [hnone]
      exact ⟨fun _ => .inr hgiven, fun raw' h => (nomatch h)⟩
  | true =>
    -- a write leaves its own record, a removal none
    rcases Act.of_writes hx with ⟨p, ttl, rfl⟩ | rfl
    · have hset : (s.act c (.use (.command (.set k p ttl)))).record? k = some _ :=
        (record?_serve_set hs p ttl k).trans (if_pos rfl)
      rw [hset]
      exact ⟨fun h => (nomatch h), fun raw' _ _ => ⟨p, ttl, rfl⟩⟩
    · have hremove : (s.act c (.use (.command (.remove k)))).record? k = none :=
        (record?_serve_remove hs k).trans (if_pos rfl)
      rw [hremove]
      exact ⟨fun _ => .inl rfl, fun raw' h => (nomatch h)⟩

end Acts

/-- **A purge never loses what is live.** A read that found a stale record reports a miss, whatever
happens before it drops the record; then it drops the record that is there exactly if that is
expired or malformed at this moment, and leaves the records of all other keys alone. So in any
interleaving of the steps of any callers, a record that is live at a step is taken away by a caller
only if the step removes it, and replaced only if the step writes it; and a record that is gone was
written over, removed, or found stale by a step that looked again. A store with a capacity may give
up records at any step between: these are steps of its own, and it is not the purge that takes
them. -/
theorem purges_only_stale {s : Store} (hs : s.InProcess) :
    (∀ c key, s.readAround c key [] c =
      ((s.serve c (.get key)).reply, (s.serve c (.get key)).store)) ∧
    (∀ c key between c', s.found c key = .stale →
      let now := (s.look c key).2.acts between
      let after := s.readAround c key between c'
      after.1 = .ok none ∧
        (now.HasStale c' key → now.record? key ≠ none ∧ after.2.record? key = none) ∧
        (¬now.HasStale c' key → after.2.record? key = now.record? key) ∧
        ∀ k, k ≠ key → after.2.record? k = now.record? k) ∧
    (∀ l c x k raw p, (s.acts l).record? k = some raw → Entry.decode c.now raw = .live p →
      ((s.acts (l ++ [(c, x)])).record? k = none →
        x = .use (.command (.remove k)) ∨ s.GivesUp k x) ∧
      ∀ raw', (s.acts (l ++ [(c, x)])).record? k = some raw' → raw' ≠ raw →
        ∃ q ttl, x = .use (.command (.set k q ttl))) ∧
    ∀ l k raw, s.record? k = some raw → (s.acts l).record? k ≠ some raw →
      ∃ before c x after, l = before ++ (c, x) :: after ∧ (s.acts before).record? k = some raw ∧
        ((∃ q ttl, x = .use (.command (.set k q ttl))) ∨ x = .use (.command (.remove k)) ∨
          x.checks k = true ∧
            (Entry.decode c.now raw = .expired ∨ Entry.decode c.now raw = .malformed) ∨
          s.GivesUp k x) := by
  refine ⟨fun c key => readAround_nil hs, ?_, ?_, ?_⟩
  · intro c key between c' hstale now after
    have hafter : after = (.ok none, now.purge c' key) := readAround_of_stale hstale
    -- the second step as it finds the store, whatever happened since the first
    have hpurge (k : String) : after.2.record? k =
        if k = key ∧ now.found c' key = .stale then none else now.record? k := by
      rw [hafter]
      exact now.record?_purge c' key k
    rw [hasStale_iff]
    refine ⟨by rw [hafter], fun h => ⟨?_, ?_⟩, fun h => ?_, fun k hk => ?_⟩
    · obtain ⟨raw, hraw, -⟩ := record?_of_found_stale h
      rw [hraw]
      exact Option.some_ne_none raw
    · rw [hpurge, if_pos ⟨rfl, h⟩]
    · rw [hpurge, if_neg fun h' => h h'.2]
    · rw [hpurge, if_neg fun h' => hk h'.1]
  · intro l c x k raw p hraw hlive
    rw [acts_append, ← givesUp_acts hs l]
    exact act_of_live (hs.acts l) hraw (Entry.isStale_eq_false_iff.mpr ⟨p, hlive⟩)
  · intro l k raw hraw hlost
    -- a record that is gone was lost at some first step
    obtain ⟨before, c, x, after, hl, hbefore, hcause⟩ := exists_step_of_lost hs hraw l hlost
    refine ⟨before, c, x, after, hl, hbefore, ?_⟩
    rcases hcause with hx | ⟨hcheck, hstale⟩ | hgiven
    · rcases Act.of_writes hx with hset | hremove
      · exact .inl hset
      · exact .inr (.inl hremove)
    · exact .inr (.inr (.inl ⟨hcheck, Entry.isStale_iff_decode.mp hstale⟩))
    · exact .inr (.inr (.inr hgiven))

/-- A write between the steps of a read of a malformed record is kept; without it, the record is
dropped. In a store that has room for one record, another that was written meanwhile is given up. -/
theorem purges_only_stale_rewritten :
    let s : Store := .bounded { capacity := 1, records := TextMap.empty.insert "k" [0] }
    let wrote : Clock := ⟨.ofParts 1 0, 0⟩
    let rewrite : List (Clock × Act) :=
      [(wrote, .use (.command (.set "j" [2] (.ofSecs 60)))),
        (wrote, .use (.command (.set "k" [1] (.ofSecs 60)))), (wrote, .lose (· == "k"))]
    let c : Clock := ⟨.ofParts 2 0, 0⟩
    s.InProcess ∧ s.found c "k" = .stale ∧
      (s.readAround c "k" rewrite c).1 = .ok none ∧
      (s.readAround c "k" rewrite c).2.record? "k" =
        some (Entry.encode nanosPerSec [1] (.ofSecs 60)) ∧
      (s.readAround c "k" rewrite c).2.record? "j" = none ∧
      (s.readAround c "k" [] c).2.record? "k" = none := by
  intro s wrote rewrite c
  have hs : s.InProcess := trivial
  have hstale : s.found c "k" = .stale := by decide
  obtain ⟨-, haround, -, -⟩ := purges_only_stale hs
  obtain ⟨hmiss, -, hkept, hothers⟩ := haround c "k" rewrite c hstale
  obtain ⟨-, hdropped, -, -⟩ := haround c "k" [] c hstale
  refine ⟨hs, hstale, hmiss, ?_, ?_, ?_⟩
  · -- what the second step finds is the write of another caller, and not stale
    have hlive : ¬((s.look c "k").2.acts rewrite).HasStale c "k" := by
      rw [hasStale_iff]
      decide
    exact (hkept hlive).trans (by decide)
  · exact (hothers "j" (by decide)).trans (by decide)
  · exact (hdropped ⟨[0], by decide, .inr (by decide)⟩).2

end Store

end TwoTier
