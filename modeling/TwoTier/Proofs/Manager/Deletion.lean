import TwoTier.Proofs.Deployment.Contents
import TwoTier.Proofs.Manager.Independence
import TwoTier.Proofs.Manager.Lifetimes
import TwoTier.Proofs.Manager.Removing

/-!
# What a removal leaves

What a removal asks and returns is its footprint, whatever the stores do. This file says what is
there after it, over stores that remove what they are told to (`Handler.Removes`), whichever of the
removals fail: nothing under the key where the removal succeeded, and everything else as it was.

A key is **gone** (`Manager.Gone`) if no tier has anything under it. A read of such a key is told of
nothing (`Reading.told_nothing`), and so copies nothing. Hence a key stays gone through every run in
which no call stores it (`gone_answers`), and is missed by every read.
-/

namespace TwoTier

/-- A call has stored something under a key. -/
def Answered.Stores (a : Answered) (key : String) : Prop :=
  a.request.value?.isSome = true ∧ ∃ i p ttl, .write i key p ttl (.ok ()) ∈ a.trace

section Contract

variable {ι σ ρ α : Type} {h : Handler ι σ} {I : σ → Prop} {has : ι → String → σ → Option ρ}
  {k : String} {i j : ι} {st : σ}

/-- A command that is no write of the key leaves nothing where there was nothing. -/
theorem Handler.Removes.stays (hr : h.Removes I has) (hI : I st) (hnone : has j k st = none)
    {c : Command}
    (hnot : ∀ p ttl, .write i k p ttl (.ok ()) ≠ Exchange.of i c (h.serve i c st).1) :
    has j k (h.serve i c st).2 = none := by
  by_contra hcomes
  obtain ⟨p, ttl, hx⟩ := hr.comes i c j k st hI hnone hcomes
  exact hnot p ttl hx.symm

/-- Nor does a script without such a write. -/
theorem Handler.Removes.stays_run (hr : h.Removes I has) {P : ι → Command → Prop}
    {s : Script ι α} (hs : s.Asks P) (hI : I st) (hnone : has j k st = none)
    (hnot : ∀ i p ttl, .write i k p ttl (.ok ()) ∉ s.trace h st) :
    has j k (s.run h st).2 = none := by
  induction hs generalizing st with
  | done a => exact hnone
  | ask _ _ ih =>
    -- neither the command at the head nor one of the rest is such a write
    have hnone' := hr.stays hI hnone fun p ttl hx => hnot _ p ttl (List.mem_cons.mpr (.inl hx))
    exact ih _ (hr.serve _ _ _ hI) hnone' fun i p ttl hx => hnot i p ttl (List.mem_cons_of_mem _ hx)
  | note e _ ih => exact ih (hr.note e _ hI) ((hr.has_note ..).trans hnone) hnot
  | compute _ ih => exact ih (hr.compute _ hI) ((hr.has_compute ..).trans hnone) hnot

/-- What is there after one removal, of which is reported. -/
theorem Handler.Removes.removal (hr : h.Removes I has) (hI : I st) {st₁ : σ}
    {reply : Except Failure Unit} (hs : h.serve i (.remove k) st = (reply, st₁)) (e : Event) :
    I (h.note e st₁) ∧ (∀ j, has j k st = none → has j k (h.note e st₁) = none) ∧
      (∀ j k', k' ≠ k → has j k' (h.note e st₁) = has j k' st) ∧
      (reply = .ok () → has i k (h.note e st₁) = none) := by
  have hst₁ : st₁ = (h.serve i (.remove k) st).2 := by rw [hs]
  simp only [hr.has_note, hst₁]
  refine ⟨hr.note _ _ (hr.serve _ _ _ hI), fun j hnone => hr.stays hI hnone nofun,
    fun j k' hk => hr.others i k st j k' hI hk, ?_⟩
  rintro rfl
  exact hr.removed i k st hI (by rw [hs])

end Contract

namespace Manager

variable {σ ρ α κ : Type} {h : Handler Tier σ} {I : σ → Prop} {has : Tier → String → σ → Option ρ}
  {m : Manager} {key : String} {st st' : σ} {T : List (Exchange Tier)}

/-! ### Over the tiers -/

section Removal

variable {ts : List Tier} {e : Option CacheError} (hr : h.Removes I has) (hI : I st)
include hr hI

/-- What is there after a removal from some tiers: the key is gone where the removal did not fail,
and everything else is as it was. -/
theorem Removing.leaves (hw : Removing h key ts st T e st') :
    I st' ∧ (∀ j, has j key st = none → has j key st' = none) ∧
      (∀ j k, k ≠ key → has j k st' = has j k st) ∧
      ∀ i, .removal i key (.ok ()) ∈ T → has i key st' = none := by
  -- on the tiers that are left, the first of which has removed the key or failed
  induction hw with
  | done => exact ⟨hI, fun _ hnone => hnone, fun _ _ _ => rfl, nofun⟩
  | removed hs _ ih =>
    obtain ⟨hI₁, hstays₁, hothers₁, hgone₁⟩ := hr.removal hI hs _
    obtain ⟨hI', hstays, hothers, hgone⟩ := ih hI₁
    refine ⟨hI', fun j hj => hstays j (hstays₁ j hj),
      fun j k hk => (hothers j k hk).trans (hothers₁ j k hk), fun j hx => ?_⟩
    -- what the first tier has lost, the rest does not bring back
    rcases List.mem_cons.mp hx with hx | hx
    · cases hx
      exact hstays _ (hgone₁ rfl)
    · exact hgone j hx
  | failed hs _ ih =>
    obtain ⟨hI₁, hstays₁, hothers₁, -⟩ := hr.removal hI hs _
    obtain ⟨hI', hstays, hothers, hgone⟩ := ih hI₁
    refine ⟨hI', fun j hj => hstays j (hstays₁ j hj),
      fun j k hk => (hothers j k hk).trans (hothers₁ j k hk), fun j hx => ?_⟩
    rcases List.mem_cons.mp hx with hx | hx
    · cases hx
    · exact hgone j hx

/-- Removing what is missing does not fail. -/
theorem Removing.eq_none_of_missing (hw : Removing h key ts st T e st')
    (hmissing : ∀ i ∈ ts, h.RemovesMissing I has key i) (hgone : ∀ i ∈ ts, has i key st = none) :
    e = none := by
  induction hw with
  | done => rfl
  | removed hs _ ih =>
    obtain ⟨hI₁, hstays, -, -⟩ := hr.removal hI hs _
    obtain ⟨-, hmissing'⟩ := List.forall_mem_cons.mp hmissing
    obtain ⟨-, hgone'⟩ := List.forall_mem_cons.mp hgone
    exact ih hI₁ hmissing' fun j hj => hstays j (hgone' j hj)
  | failed hs =>
    -- a tier that has nothing under the key does not fail
    have hok := hmissing _ List.mem_cons_self _ hI (hgone _ List.mem_cons_self)
    rw [hs] at hok
    cases hok

end Removal

/-! ### Keys that are gone -/

/-- No tier has anything under a key. -/
def Gone (m : Manager) (has : Tier → String → σ → Option ρ) (key : String) (st : σ) : Prop :=
  ∀ i, m.hasTier i = true → has i key st = none

section Gone

variable {s : Shape α} {o : Options} (hr : h.Removes I has) (hI : I st)
include hr hI

/-- If there is nothing in the second tier, its read is told of nothing. -/
theorem BeyondL1.told_nothing {t : Targets} {r : Result (Option α)}
    (hb : BeyondL1 h m s key o t st T r st') (hgone : t.l2 = true → has .l2 key st = none)
    {i : Tier} {found : Option Bytes} (hx : .read i key (.ok found) ∈ T) : found = none := by
  cases hb with
  | notAsked | failed => simp at hx
  | missed =>
    obtain ⟨-, rfl⟩ : i = .l2 ∧ found = none := by simpa using hx
    rfl
  | undecodable hl2 hs | hit hl2 hs | warmed hl2 hs =>
    -- there was nothing to be found
    cases hr.read .l2 key st _ hI (hgone hl2) (by rw [hs])

/-- **A read of a key that is gone is told of nothing.** -/
theorem Reading.told_nothing {r : Result (Option α)} (hw : Reading h m s key o st T r st')
    (hgone : m.Gone has key st) {i : Tier} {found : Option Bytes}
    (hx : .read i key (.ok found) ∈ T) : found = none := by
  cases hw with
  | refused => cases hx
  | failed => simp at hx
  | beyond hp _ hb =>
    exact hb.told_nothing hr hI (fun hl2 => hgone .l2 (hasTier_of_plan hp (i := .l2) hl2)) hx
  | hit hp hl1 hs =>
    cases hr.read .l1 key st _ hI (hgone .l1 (hasTier_of_plan hp (i := .l1) hl1)) (by rw [hs])
  | @missed _ _ _ st₁ _ hp _ hs hb =>
    rcases List.mem_cons.mp hx with hx | hx
    · cases hx
      rfl
    · -- the read of `l1` before it has left the key gone
      have hI₁ := hr.serve .l1 (.get key) st hI
      have hstays {j : Tier} (hj : has j key st = none) :=
        hr.stays (i := .l1) (c := .get key) hI hj nofun
      rw [hs] at hI₁ hstays
      refine hb.told_nothing hr (hr.note _ _ hI₁) (fun hl2 => ?_) hx
      exact (hr.has_note ..).trans (hstays (hgone .l2 (hasTier_of_plan hp (i := .l2) hl2)))

/-- All calls are told of nothing under a key that is gone. -/
theorem told_nothing {r : Request} (hgone : m.Gone has r.key st) {i : Tier} {found : Option Bytes}
    (hx : .read i r.key (.ok found) ∈ (r.script m).trace h st) : found = none := by
  cases r with
  | get s key o => exact (reading h m s key o st).told_nothing hr hI hgone hx
  | set s key a o => exact absurd hx (writing h m s key a o m.writeOrder st).reads_nothing
  | delete key => exact absurd hx (delete_reads_nothing h key m st)
  | getOrCompute s key o outcome =>
    have hx' := (readThrough m h s key o outcome st).read hx
    exact (reading h m s key o st).told_nothing hr hI hgone hx'

/-- A call keeps what its exchanges keep, … -/
theorem keeps_answer (r : Request) : I (m.answer h r st).2 :=
  (asks_script m r).run_keeps (fun _ hI => hr.serve _ _ _ hI) (fun e _ hI => hr.note e _ hI)
    (fun hI => hr.compute _ hI) hI

/-- … and so does a run of calls. -/
theorem keeps_answers {turn : κ → σ → σ} (hturn : ∀ t st, I st → I (turn t st))
    (steps : List (κ × Request)) : I (m.answers h turn steps st).2 := by
  induction steps generalizing st with
  | nil => exact hI
  | cons x steps ih => exact ih (keeps_answer hr (hturn x.1 st hI) x.2)

/-- **A call that does not store a key that is gone leaves it gone**: it has nothing to copy. -/
theorem gone_answer (hm : m.Created) (hgone : m.Gone has key st) (r : Request)
    (hnot : ¬(m.answer h r st).1.Stores key) : m.Gone has key (m.answer h r st).2 := by
  -- a write would be the call's own, which is excluded, or a copy of what was found
  have hwrites (i : Tier) (p : Bytes) (ttl : Duration) :
      .write i key p ttl (.ok ()) ∉ (m.answer h r st).1.trace := by
    intro hx
    cases writes hm hx with
    | store hv => exact hnot ⟨Option.isSome_iff_exists.mpr ⟨_, hv⟩, i, p, _, hx⟩
    | copy hhit => cases told_nothing hr hI hgone hhit
  exact fun j hj => hr.stays_run (asks_script m r) hI (hgone j hj) hwrites

/-- **A key stays gone** through every run in which no call stores it. -/
theorem gone_answers (hm : m.Created) (hgone : m.Gone has key st) {turn : κ → σ → σ}
    (hturn : ∀ t st, I st → I (turn t st))
    (hleft : ∀ t st i, I st → has i key st = none → has i key (turn t st) = none)
    (steps : List (κ × Request)) (hnot : ∀ a ∈ (m.answers h turn steps st).1, ¬a.Stores key) :
    m.Gone has key (m.answers h turn steps st).2 := by
  -- on the calls, between which anything may happen that leaves the key gone
  induction steps generalizing st with
  | nil => exact hgone
  | cons x steps ih =>
    obtain ⟨t, r⟩ := x
    obtain ⟨hfirst, hrest⟩ := List.forall_mem_cons.mp hnot
    have hI₁ : I (turn t st) := hturn t st hI
    have hgone₁ : m.Gone has key (turn t st) := fun i hi => hleft t st i hI (hgone i hi)
    exact ih (keeps_answer hr hI₁ r) (gone_answer hr hI₁ hm hgone₁ r hfirst) hrest

/-- A read of a key that is gone misses, unless a store fails. -/
theorem get_of_gone (hm : m.Created) (hgone : m.Gone has key st) (s : Shape α)
    (hp : m.Proper key o)
    (hreads : ∀ i f, .read i key (.error f) ∉ (m.get s key o).trace h st) :
    ((m.get s key o).run h st).1 = .ok none := by
  have hw := reading h m s key o st
  have hf := hw.footprint hm
  -- the read ends with a hit, a failure, or a miss everywhere
  rcases hf.outcome hp with ⟨i, p, hx⟩ | ⟨i, f, hx⟩ | hall
  · cases hw.told_nothing hr hI hgone hx
  · exact absurd hx (hreads i f)
  · exact (hf.missed hp).mpr hall

end Gone

/-- A call stores under its own key only. -/
theorem eq_key_of_stores (hm : m.Created) {r : Request} (hs : (m.answer h r st).1.Stores key) :
    key = r.key := by
  obtain ⟨-, i, p, ttl, hx⟩ := hs
  cases writes hm hx with
  | store | copy => rfl

/-! ### What a removal leaves -/

/-- **What a removal leaves** in stores of which `has` says what they have. -/
structure DeleteEffect (m : Manager) (h : Handler Tier σ) (I : σ → Prop)
    (has : Tier → String → σ → Option ρ) (key : String) (st : σ) (T : List (Exchange Tier))
    (r : Result Unit) (st' : σ) : Prop where
  /-- The key is gone from the tiers that have not failed, … -/
  removed : ∀ i, .removal i key (.ok ()) ∈ T → has i key st' = none
  /-- … and other keys are as they were, in every tier. -/
  others : ∀ i k, k ≠ key → has i k st' = has i k st
  /-- Removing what is missing changes nothing, … -/
  missing : m.Gone has key st → ∀ i k, m.hasTier i = true → has i k st' = has i k st
  /-- … and succeeds if it is no error to the stores. -/
  missing_ok : (∀ i, m.hasTier i = true → h.RemovesMissing I has key i) → m.Gone has key st →
    r = .ok ()
  /-- After a removal that succeeds, the key is missed until it is stored again: whatever calls are
  made that do not store it, and whatever happens between them that does not put it there, every
  read that no failure interrupts finds nothing. -/
  forgets : r = .ok () → ∀ {κ : Type} (turn : κ → σ → σ), (∀ t st, I st → I (turn t st)) →
    (∀ t st i, I st → has i key st = none → has i key (turn t st) = none) →
    ∀ steps t, (∀ a ∈ (m.answers h turn steps st').1, ¬a.Stores key) →
      ∀ {α : Type} (s : Shape α) o, m.Proper key o →
        ∀ st'', st'' = turn t (m.answers h turn steps st').2 →
          (∀ i f, .read i key (.error f) ∉ (m.get s key o).trace h st'') →
            ((m.get s key o).run h st'').1 = .ok none

/-- A removal leaves what it should, over stores that remove what they are told to. -/
theorem deleteEffect (hm : m.Created) (hr : h.Removes I has) (hI : I st) (hk : key ≠ "") :
    m.DeleteEffect h I has key st ((m.delete key).trace h st) ((m.delete key).run h st).1
      ((m.delete key).run h st).2 := by
  have hw := removing h key m.tiers st
  have hf := delete_footprint h m hk st
  rw [← trace_delete h m hk, ← run_delete_snd h m hk] at hw
  obtain ⟨hI', hstays, hothers, hgone⟩ := hw.leaves hr hI
  refine ⟨hgone, hothers, fun hmiss i k hi => ?_, fun hmissing hmiss => ?_, ?_⟩
  · -- the key itself was gone before, and other keys are as they were
    by_cases hki : k = key
    · subst hki
      rw [hstays i (hmiss i hi), hmiss i hi]
    · exact hothers i k hki
  · have hnone := hw.eq_none_of_missing hr hI (fun i hi => hmissing i (mem_tiers.mp hi))
      fun i hi => hmiss i (mem_tiers.mp hi)
    rw [run_delete h m hk, hnone]
  · intro hok κ turn hturn hleft steps t hnot α s o hp st'' hst'' hreads
    -- every tier was asked, and none of them failed
    have hall : m.Gone has key ((m.delete key).run h st).2 := by
      intro i hi
      have hasked : i ∈ ((m.delete key).trace h st).map Exchange.store :=
        hw.map_store ▸ mem_tiers.mpr hi
      obtain ⟨x, hx, rfl⟩ := List.mem_map.mp hasked
      obtain ⟨i, reply, rfl⟩ := hf.only x hx
      cases reply with
      | ok u => exact hgone i hx
      | error f => exact absurd hx (hf.succeeds.mp hok i f)
    have hI₁ := keeps_answers (m := m) hr hI' hturn steps
    have hgone₁ := gone_answers hr hI' hm hall hturn hleft steps hnot
    subst hst''
    exact get_of_gone hr (hturn t _ hI₁) hm (fun i hi => hleft t _ i hI₁ (hgone₁ i hi)) s hp hreads

/-- **Removals reach every tier.** Whatever the mode is and whichever removals fail, a removal asks
every tier that there is, ends with the first failure, and leaves what `DeleteEffect` says in stores
that remove what they are told to. -/
theorem deletion (hm : m.Created) (hk : key ≠ "") (h : Handler Tier σ) (st : σ) :
    m.DeleteFootprint key ((m.delete key).trace h st) ((m.delete key).run h st).1 ∧
      ∀ {ρ : Type} {I : σ → Prop} {has : Tier → String → σ → Option ρ}, h.Removes I has → I st →
        m.DeleteEffect h I has key st ((m.delete key).trace h st) ((m.delete key).run h st).1
          ((m.delete key).run h st).2 :=
  ⟨delete_footprint h m hk st, fun hr hI => deleteEffect hm hr hI hk⟩

/-- Two recording stores, of which the one in the process fails removals. -/
def nearStuck : Deployment where
  clock := ⟨⟨0⟩, 0⟩
  stores := TextMap.ofList
    [("far", .recording { name := "Far", data := TextMap.ofList [("k", ([1], defaultTtl))] }),
      ("near", .recording
        { name := "Near"
          data := TextMap.ofList [("k", ([1], defaultTtl)), ("other", ([0], defaultTtl))]
          removeFault := some { text := "stuck" } })]

/-- Both of them store and remove as they say. -/
theorem nearStuck_truthful (mode : Mode) :
    Deployment.Hosted Store.Truthful (sample mode) nearStuck := by
  intro i _
  cases i
  · exact ⟨_, rfl, trivial⟩
  · exact ⟨_, rfl, trivial⟩

/-- Two stores in the process that have a record. -/
def bothHold : Deployment :=
  (twoFresh.run (sample .bothLevels) ((sample .bothLevels).set .bool "k" true {})).2

theorem bothHold_inProcess : Deployment.Hosted Store.InProcess (sample .bothLevels) bothHold :=
  Deployment.Hosted.run Store.closed_inProcess
    ((twoFresh_hosted .bothLevels).imp fun _ hs => hs.inProcess) _

/-- A removal whose first tier fails goes on to the second, which the mode does not use. After one
that succeeds, the key is missed, whatever time it is, though another is stored in between. The
removal of a key that is nowhere succeeds, and leaves the records of others. -/
theorem deletion_nearStuck :
    (let m := sample .l1Only
      let h := Deployment.handler m
      let st' := ((m.delete "k").run h nearStuck).2
      m.Created ∧ Deployment.Hosted Store.Truthful m nearStuck ∧
        h.Removes (Deployment.Hosted Store.Truthful m) (Deployment.content? m) ∧
        (m.delete "k").trace h nearStuck =
          [.removal .l1 "k" (.error { text := "stuck" }), .removal .l2 "k" (.ok ())] ∧
        ((m.delete "k").run h nearStuck).1 = .error (.tier .l1 .delete { text := "stuck" }) ∧
        Deployment.content? m .l2 "k" st' = none ∧
        Deployment.content? m .l1 "other" st' = some [0]) ∧
    (let m := sample .bothLevels
      let h := Deployment.handler m
      let st' := ((m.delete "k").run h bothHold).2
      ((m.get .bool "k" {}).run h bothHold).1 = .ok (some true) ∧
        ((m.delete "k").run h bothHold).1 = .ok () ∧
        ∀ c₁ c₂ : Clock, ((m.get .bool "k" {}).run h (Deployment.setClock c₂ (m.answers h
          Deployment.setClock [(c₁, .set .bool "other" true {})] st').2)).1 = .ok none) ∧
    (let m := sample .bothLevels
      let h := Deployment.handler m
      let st' := ((m.delete "other").run h bothHold).2
      (∀ i, m.hasTier i = true →
        h.RemovesMissing (Deployment.Hosted Store.InProcess m) (Deployment.content? m) "other" i) ∧
        m.Gone (Deployment.content? m) "other" bothHold ∧
        ((m.delete "other").run h bothHold).1 = .ok () ∧
        ∀ i, m.hasTier i = true →
          Deployment.content? m i "k" st' = Deployment.content? m i "k" bothHold) := by
  refine ⟨?_, ?_, ?_⟩
  · intro m h st'
    have hm : m.Created := sample_created .l1Only
    have hremoves : h.Removes (Deployment.Hosted Store.Truthful m) (Deployment.content? m) :=
      Deployment.handler_removes m Store.closed_truthful fun _ hs => hs
    have htruthful := nearStuck_truthful .l1Only
    obtain ⟨hfoot, heffect⟩ := deletion hm (show "k" ≠ "" by decide) h nearStuck
    have he := heffect hremoves htruthful
    have htrace : (m.delete "k").trace h nearStuck =
        [.removal .l1 "k" (.error { text := "stuck" }), .removal .l2 "k" (.ok ())] := rfl
    refine ⟨hm, htruthful, hremoves, htrace, ?_, he.removed .l2 ?_, ?_⟩
    · exact hfoot.fails [] .l1 _ _ htrace nofun
    · rw [htrace]
      exact List.mem_cons_of_mem _ List.mem_cons_self
    · exact (he.others .l1 "other" (by decide)).trans rfl
  · intro m h st'
    have hm : m.Created := sample_created .bothLevels
    have hremoves : h.Removes (Deployment.Hosted Store.InProcess m) (Deployment.content? m) :=
      Deployment.handler_removes m Store.closed_inProcess fun _ hs => hs.truthful
    have he := (deletion hm (show "k" ≠ "" by decide) h bothHold).2 hremoves bothHold_inProcess
    have hok : ((m.delete "k").run h bothHold).1 = .ok () := rfl
    refine ⟨rfl, hok, fun c₁ c₂ => ?_⟩
    have hp : m.Proper "k" {} := ⟨by decide, fun ho => Bool.false_ne_true ho.1, rfl⟩
    -- the one call in between stores another key
    have hnot : ∀ a ∈ (m.answers h Deployment.setClock [(c₁, .set .bool "other" true {})] st').1,
        ¬a.Stores "k" := by
      intro a ha hs
      obtain rfl := List.mem_singleton.mp ha
      exact absurd (eq_key_of_stores hm hs) (by decide)
    refine he.forgets hok Deployment.setClock (fun _ _ hh => hh) (fun _ _ _ _ hnone => hnone) _ c₂
      hnot .bool {} hp _ rfl fun i f hx => ?_
    -- and no read in the process fails
    have hin := keeps_answers (m := m) hremoves
      (bothHold_inProcess.run Store.closed_inProcess (m.delete "k"))
      (fun c _ hh => hh.setClock c) [(c₁, .set .bool "other" true {})]
    exact get_reads (sample_distinct _) (hin.setClock c₂) .bool "k" {} i "k" f hx
  · intro m h st'
    have hm : m.Created := sample_created .bothLevels
    have hremoves : h.Removes (Deployment.Hosted Store.InProcess m) (Deployment.content? m) :=
      Deployment.handler_removes m Store.closed_inProcess fun _ hs => hs.truthful
    -- the stores in the process do not fail to remove what they do not have
    have hmissing (i : Tier) (hi : m.hasTier i = true) :
        h.RemovesMissing (Deployment.Hosted Store.InProcess m) (Deployment.content? m) "other" i :=
      Deployment.handler_removesMissing hi fun _ hs => Store.InProcess.failsNo hs _
    have hgone : m.Gone (Deployment.content? m) "other" bothHold := by
      intro i _
      cases i <;> decide
    have he := (deletion hm (show "other" ≠ "" by decide) h bothHold).2 hremoves bothHold_inProcess
    exact ⟨hmissing, hgone, he.missing_ok hmissing hgone, fun i hi => he.missing hgone i "k" hi⟩

end Manager

end TwoTier
