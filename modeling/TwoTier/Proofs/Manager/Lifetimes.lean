import TwoTier.Proofs.Manager.Effects
import TwoTier.Proofs.Manager.Reading
import TwoTier.Proofs.Runs

/-!
# Times to live

A time to live passes three places on its way to a store: creation replaces the zeros of a
configuration, a call may bring times of its own, and a copy of an `l2` hit has a time of its own
again. This file shows that no zero comes through, whatever was configured and whatever a call says.

* `Request.Writes` says where a write of a call comes from: it is the call's own value, after no
  tier had the key, or a copy of what the call found in `l2` (`writes`);
* `Manager.LifetimeRules` gives the time to live of either in terms of the configuration and the
  call, and `write_lifetimes` says that every call of every run keeps to them;
* a configuration may be normalized any number of times: the cache is the same
  (`Config.normalized_normalized`, `create_normalized`).
-/

namespace TwoTier

/-! ### Configured times to live -/

/-- The time itself, or the default if it is no time at all. -/
def Duration.orDefault (d : Duration) : Duration := if d.toNanos = 0 then defaultTtl else d

/-- A configured time to live that is given is kept or replaced by the default. -/
theorem Duration.positiveOr_defaultTtl (d : Duration) :
    Duration.positiveOr (some d) defaultTtl = d.orDefault := by
  unfold orDefault
  by_cases hd : d.toNanos = 0
  · rw [if_pos hd]
    refine positiveOr_of_zero fun d' hd' => ?_
    cases hd'
    exact hd
  · rw [if_neg hd]
    exact positiveOr_of_pos (Nat.pos_of_ne_zero hd)

/-- What comes of it is never zero, … -/
theorem Duration.orDefault_pos (d : Duration) : 0 < d.orDefault.toNanos := by
  rw [← positiveOr_defaultTtl]
  exact positiveOr_pos (by decide)

/-- … so a second time changes nothing. -/
@[simp] theorem Duration.orDefault_orDefault (d : Duration) : d.orDefault.orDefault = d.orDefault :=
  if_neg (Nat.ne_of_gt d.orDefault_pos)

namespace Config

/-- The configured time to live for a tier where a call gives none. -/
def fallbackTtl (c : Config) : Tier → Duration
  | .l1 => c.l1Ttl
  | .l2 => c.l2Ttl

/-- Each time is replaced on its own. -/
theorem normalized_eq (c : Config) :
    c.normalized = ⟨c.mode, c.warmupTtl.orDefault, c.l1Ttl.orDefault, c.l2Ttl.orDefault⟩ := by
  rw [normalized, Duration.positiveOr_defaultTtl, Duration.positiveOr_defaultTtl,
    Duration.positiveOr_defaultTtl]

@[simp] theorem normalized_normalized (c : Config) : c.normalized.normalized = c.normalized := by
  simp only [normalized_eq, Duration.orDefault_orDefault]

end Config

namespace Manager

variable {σ κ : Type}

/-- A cache of a normalized configuration is the cache of the configuration, and the same is
reported of its making. -/
theorem create_normalized (l1 l2 : Option StoreRef) (codec : Option Codec) (config : Config) :
    create l1 l2 codec config.normalized = create l1 l2 codec config := by
  unfold create
  rw [Config.normalized_normalized]

section Created

variable {l1 l2 : Option StoreRef} {codec : Option Codec} {config : Config} {m : Manager}

/-- A manager has the configured time of copies, … -/
theorem warmupTtl_of_create (hc : (create l1 l2 codec config).1 = .ok m) :
    m.warmupTtl = config.warmupTtl.orDefault := by
  obtain ⟨c, -, -, rfl⟩ := create_eq_ok_iff.mp hc
  exact Duration.positiveOr_defaultTtl _

/-- … and the configured times of its tiers, but for the zeros. -/
theorem fallbackTtl_of_create (hc : (create l1 l2 codec config).1 = .ok m) (i : Tier) :
    m.fallbackTtl i = (config.fallbackTtl i).orDefault := by
  obtain ⟨c, -, -, rfl⟩ := create_eq_ok_iff.mp hc
  cases i
  · exact Duration.positiveOr_defaultTtl _
  · exact Duration.positiveOr_defaultTtl _

end Created

end Manager

/-! ### Where writes come from -/

/-- **The writes of a call** with the given trace: the tier, the key, the payload and the time to
live. -/
inductive Request.Writes (m : Manager) (r : Request) (T : List (Exchange Tier)) :
    Tier → String → Bytes → Duration → Prop
  /-- The call's own value, where the call has found nothing. -/
  | store {v : Typed} {p : Bytes} {i : Tier} (hv : r.value? = some v)
      (hs : m.codec.serialize v.shape v.value = .ok p)
      (hi : (m.chosen r.options).contains i = true)
      (hmiss : ∀ j q, .read j r.key (.ok (some q)) ∉ T) :
    Writes m r T i r.key p (m.ttl r.options i)
  /-- A copy of what the call has found in `l2`. -/
  | copy {p : Bytes} (hhit : .read .l2 r.key (.ok (some p)) ∈ T) (hmode : m.mode = .bothLevels)
      (hflag : r.options.targetL1 = none) :
    Writes m r T .l1 r.key p m.warmupTtl

namespace Manager

variable {σ κ α : Type}

section Writes

variable {m : Manager} {h : Handler Tier σ} {s : Shape α} {key : String} {o : Options} {st st' : σ}
  {T : List (Exchange Tier)}

/-- A read that finds nothing was told of nothing. -/
theorem ReadFootprint.not_hit (hf : m.ReadFootprint s key o T (.ok none)) (i : Tier) (p : Bytes) :
    .read i key (.ok (some p)) ∉ T := by
  intro hx
  rcases hf.of_hit hx with ⟨v, -, hr⟩ | ⟨f, -, hr⟩ <;> cases hr

/-- A read that finds nothing writes nothing. -/
theorem ReadFootprint.not_write (hf : m.ReadFootprint s key o T (.ok none)) (i : Tier) (k : String)
    (p : Bytes) (ttl : Duration) (reply : Except Failure Unit) : .write i k p ttl reply ∉ T := by
  intro hx
  obtain ⟨-, -, -, hhit⟩ := hf.write_l1 i k p ttl reply hx
  exact hf.not_hit .l2 p hhit

variable {outcome : Except Failure α} {r : Result α} {i : Tier} {k : String} {p : Bytes}
  {ttl : Duration} {reply : Except Failure Unit}

/-- A write of a call that reads through is one of its read, or it stores what was computed after a
read that found nothing. -/
theorem Through.write (hm : m.Created) (hw : Through m h s key o outcome st T r st')
    (hx : .write i k p ttl reply ∈ T) :
    (T = (m.get s key o).trace h st) ∨
      ∃ a, outcome = .ok a ∧ (∀ j q, .read j key (.ok (some q)) ∉ T) ∧ k = key ∧
        m.codec.serialize s a = .ok p ∧ (m.chosen o).contains i = true ∧ ttl = m.ttl o i := by
  have hf := (reading h m s key o st).footprint hm
  have hread := @hw.read
  -- only a call that has computed a value writes more than its read
  cases hw with
  | failed | found | notComputed => exact .inl rfl
  | @stored a hr ho | @notStored a _ hr ho =>
    rw [hr] at hf
    -- the read is told of nothing and writes nothing, so the write is of the value
    have hset := (List.mem_append.mp hx).resolve_left (hf.not_write i k p ttl reply)
    exact .inr ⟨a, ho, fun j q hq => hf.not_hit j q (hread hq),
      (writing h m s key a o m.writeOrder _).write hset⟩

/-- **Every write of a call is of its own value or a copy**, whatever the stores answer. -/
theorem writes (hm : m.Created) {r : Request}
    (hx : .write i k p ttl reply ∈ (m.answer h r st).1.trace) :
    r.Writes m (m.answer h r st).1.trace i k p ttl := by
  cases r with
  | get s key o =>
    -- all that a read writes is a copy
    obtain ⟨rfl, rfl, rfl, hhit, -, hmode, hflag⟩ := (reading h m s key o st).write hx
    exact .copy hhit hmode hflag
  | set s key a o =>
    have hw := writing h m s key a o m.writeOrder st
    obtain ⟨rfl, hs, hi, rfl⟩ := hw.write hx
    exact .store (v := ⟨s, a⟩) rfl hs hi fun j q hq => hw.reads_nothing hq
  | getOrCompute s key o outcome =>
    -- the write is one of the read, or of the value that was computed after it
    have hthrough := (readThrough m h s key o outcome st).write hm hx
    rcases hthrough with hT | ⟨a, rfl, hmiss, rfl, hs, hi, rfl⟩
    · have hx' : .write i k p ttl reply ∈ (m.get s key o).trace h st := by
        rw [← hT]
        exact hx
      obtain ⟨rfl, rfl, rfl, hhit, -, hmode, hflag⟩ := (reading h m s key o st).write hx'
      have hhit' : .read .l2 k (.ok (some p)) ∈ (m.getOrCompute s k o outcome).trace h st := by
        rw [hT]
        exact hhit
      exact .copy hhit' hmode hflag
    · exact .store (v := ⟨s, a⟩) rfl hs hi hmiss
  | delete key =>
    obtain ⟨j, removed, hx⟩ := delete_only h key m st _ hx
    cases hx

end Writes

/-! ### The rules -/

/-- **The times to live of what a call writes**, by the configuration of the cache and by what the
call says. -/
structure LifetimeRules (config : Config) (a : Answered) : Prop where
  /-- None of them is zero. -/
  positive : ∀ i k p ttl reply, .write i k p ttl reply ∈ a.trace → 0 < ttl.toNanos
  /-- A write of a call that has found something in `l2` is a copy of it, for the time of copies. -/
  copy : ∀ i k p ttl reply q, .write i k p ttl reply ∈ a.trace →
    .read .l2 a.request.key (.ok (some q)) ∈ a.trace →
    i = .l1 ∧ k = a.request.key ∧ ttl = config.warmupTtl.orDefault
  /-- Any other is for the call's time for that tier if it is positive, … -/
  given : ∀ i k p ttl reply d, .write i k p ttl reply ∈ a.trace →
    (∀ q, .read .l2 a.request.key (.ok (some q)) ∉ a.trace) →
    a.request.options.ttl? i = some d → 0 < d.toNanos → ttl = d
  /-- … and else for the configured time of that tier. -/
  fallback : ∀ i k p ttl reply, .write i k p ttl reply ∈ a.trace →
    (∀ q, .read .l2 a.request.key (.ok (some q)) ∉ a.trace) →
    (∀ d, a.request.options.ttl? i = some d → d.toNanos = 0) →
    ttl = (config.fallbackTtl i).orDefault

section Rules

variable {l1 l2 : Option StoreRef} {codec : Option Codec} {config : Config} {m : Manager}

/-- **Every call keeps the rules.** -/
theorem lifetimeRules (hc : (create l1 l2 codec config).1 = .ok m) (h : Handler Tier σ)
    (r : Request) (st : σ) : LifetimeRules config (m.answer h r st).1 where
  positive i k p ttl reply hx := by
    have hm : m.Created := ⟨l1, l2, codec, config, hc⟩
    -- a write is of the call's own value, or a copy
    cases writes hm hx with
    | store => exact hm.ttl_pos _ _
    | copy => exact hm.warmupTtl_pos
  copy i k p ttl reply q hx hhit := by
    cases writes ⟨l1, l2, codec, config, hc⟩ hx with
    | store _ _ _ hmiss => exact absurd hhit (hmiss .l2 q)
    | copy => exact ⟨rfl, rfl, warmupTtl_of_create hc⟩
  given i k p ttl reply d hx hmiss hd hpos := by
    cases writes ⟨l1, l2, codec, config, hc⟩ hx with
    | store =>
      have hd' : r.options.ttl? i = some d := hd
      rw [ttl, hd']
      exact Duration.positiveOr_of_pos hpos
    | copy hhit => exact absurd hhit (hmiss p)
  fallback i k p ttl reply hx hmiss hzero := by
    cases writes ⟨l1, l2, codec, config, hc⟩ hx with
    | store =>
      rw [← fallbackTtl_of_create hc]
      exact Duration.positiveOr_of_zero hzero
    | copy hhit => exact absurd hhit (hmiss p)

/-- **The times to live of writes.** Whatever the configuration of a cache, its calls and the stores
are, every write of every call of a run is for a positive time, which is the one that
`LifetimeRules` says; and a cache of the normalized configuration is the same cache. -/
theorem write_lifetimes (hc : (create l1 l2 codec config).1 = .ok m) (h : Handler Tier σ)
    (turn : κ → σ → σ) (steps : List (κ × Request)) (st : σ) :
    (∀ a ∈ (m.answers h turn steps st).1, LifetimeRules config a) ∧
      config.normalized.normalized = config.normalized ∧
      create l1 l2 codec config.normalized = create l1 l2 codec config := by
  refine ⟨fun a ha => ?_, config.normalized_normalized, create_normalized l1 l2 codec config⟩
  -- each call of a run is a call from some state
  obtain ⟨st', ha'⟩ := exists_of_mem_answers ha
  rw [ha']
  exact lifetimeRules hc h _ st'

end Rules

/-- A configuration of nothing but zeros. -/
def zeroConfig : Config := ⟨.bothLevels, .zero, .zero, .zero⟩

/-- A read that copies an `l2` hit, and a write of which one time to live is zero. -/
theorem write_lifetimes_zero :
    let m := sample .bothLevels
    let run := m.answers (farOnly [1] (.ok ())) (fun () st => st)
      [((), .get .bool "k" { l1Ttl := some .zero }),
        ((), .set .bool "k" true { l1Ttl := some .zero, l2Ttl := some (.ofSecs 2) })] ()
    (create m.l1 m.l2 (some m.codec) zeroConfig).1 = .ok m ∧
      (∀ a ∈ run.1, LifetimeRules zeroConfig a) ∧
      run.1.map Answered.trace =
        [[.read .l1 "k" (.ok none), .read .l2 "k" (.ok (some [1])),
            .write .l1 "k" [1] defaultTtl (.ok ())],
          [.write .l1 "k" [1] defaultTtl (.ok ()), .write .l2 "k" [1] (.ofSecs 2) (.ok ())]] ∧
      create m.l1 m.l2 (some m.codec) zeroConfig.normalized =
        create m.l1 m.l2 (some m.codec) zeroConfig := by
  intro m run
  have hc : (create m.l1 m.l2 (some m.codec) zeroConfig).1 = .ok m := rfl
  obtain ⟨hrules, -, hsame⟩ := write_lifetimes hc (farOnly [1] (.ok ())) (fun () st => st)
    [((), .get .bool "k" { l1Ttl := some .zero }),
      ((), .set .bool "k" true { l1Ttl := some .zero, l2Ttl := some (.ofSecs 2) })] ()
  exact ⟨hc, hrules, rfl, hsame⟩

end Manager

end TwoTier
