import TwoTier.Codec.Row
import TwoTier.Proofs.Codec.Takes

/-!
# Readers that come through

A value that was read off an input is read in the same way off an input that begins with it, if what
comes after it does not go on with the value (`Extends`). This is kept by the ways in which readers
are put together, so it is shown of a reader along its definition.

The other lemmas here take a run that came through apart: into the runs of its parts
(`run_bind_eq_ok`), and into the steps of a loop (`loop_induction`).
-/

namespace TwoTier

variable {ε α β σ : Type}

namespace Reader

/-! ### Runs that come through -/

/-- Two readers in sequence come through one after the other. -/
theorem run_bind_eq_ok {p : Reader ε α} {f : α → Reader ε β} {s r : Bytes} {b : β} :
    (p >>= f).run s = .ok (b, r) ↔
      ∃ a u, p.run s = .ok (a, u) ∧ (f a).run u = .ok (b, r) := by
  rw [run_bind]
  cases p.run s with
  | error e => exact iff_of_false nofun nofun
  | ok x =>
    obtain ⟨a, u⟩ := x
    refine ⟨fun h => ⟨a, u, rfl, h⟩, ?_⟩
    rintro ⟨_, _, ⟨⟩, h⟩
    exact h

/-- A byte is read exactly where the input begins with it. -/
theorem run_byte_eq_ok {e : ε} {s r : Bytes} {b : UInt8} :
    (byte e).run s = .ok (b, r) ↔ s = b :: r := by
  cases s with
  | nil => exact iff_of_false nofun nofun
  | cons c s =>
    rw [run_byte_cons]
    simp

theorem run_ofOption_eq_ok {e : ε} {a? : Option α} {s r : Bytes} {a : α} :
    (ofOption e a?).run s = .ok (a, r) ↔ a? = some a ∧ s = r := by
  cases a? with
  | none => exact iff_of_false nofun nofun
  | some b =>
    show Except.ok (b, s) = .ok (a, r) ↔ _
    simp

/-- **A loop that comes through** does so in steps: what holds when it is done, and of each step if
it holds of the loop from there, holds of the loop. -/
theorem loop_induction {step : σ → Reader ε (Turn σ α)} {h : ∀ st, (step st).Moves}
    {motive : σ → Bytes → α → Bytes → Prop}
    (hdone : ∀ st s a r, (step st).run s = .ok (.done a, r) → motive st s a r)
    (hnext : ∀ st s st' s' a r, (step st).run s = .ok (.next st', s') →
      (loop step h st').run s' = .ok (a, r) → motive st' s' a r → motive st s a r)
    {st : σ} {s r : Bytes} {a : α} (hrun : (loop step h st).run s = .ok (a, r)) :
    motive st s a r := by
  change runLoop step h st s = _ at hrun
  -- along the steps that the loop takes; a step that fails does not come through
  fun_induction runLoop step h st s with
  | case1 => cases hrun
  | case2 st s b t hs =>
    cases hrun
    exact hdone st s _ _ hs
  | case3 st s st' t hs ih => exact hnext st s st' t a r hs hrun (ih hrun)

/-! ### More input -/

/-- **More input makes no difference**: what was read is read the same with more bytes after it, if
the first of them ends what was read. This is asked of it only if nothing was left. -/
def Extends (ends : UInt8 → Bool) (p : Reader ε α) : Prop :=
  ∀ w a r t, p.run w = .ok (a, r) → (r = [] → ∀ c ∈ t.head?, ends c = true) →
    p.run (w ++ t) = .ok (a, r ++ t)

namespace Extends

variable {ends : UInt8 → Bool} {p : Reader ε α} {f : α → Reader ε β}

/-- What reads nothing extends. -/
theorem pure (a : α) : Extends ends (Pure.pure a : Reader ε α) := by
  intro w a' r t h _
  cases h
  rfl

theorem fail (e : ε) : Extends ends (fail e : Reader ε α) := by
  intro w a r t h _
  cases h

/-- Taking the value of an option, or failing, reads nothing. -/
theorem ofOption (e : ε) (a? : Option α) : Extends ends (ofOption e a?) := by
  cases a? with
  | none => exact fail e
  | some a => exact pure a

/-- Taking the value of an outcome, or failing, reads nothing. -/
theorem ofExcept (r : Except ε α) : Extends ends (ofExcept r) := by
  cases r with
  | error e => exact fail e
  | ok a => exact pure a

/-- A byte that was there is still there with more after it. -/
theorem byte (e : ε) : Extends ends (byte e) := by
  intro w b r t h _
  cases w with
  | nil => cases h
  | cons c w =>
    cases h
    rfl

/-- So are some bytes in a fixed number: what comes after them is not looked at. -/
theorem take (e : ε) (n : Nat) : Extends ends (take e n) := by
  intro w b r t h _
  unfold Reader.take at h ⊢
  dsimp only at h ⊢
  split at h
  · next hn =>
    cases h
    rw [if_pos (by rw [List.length_append]; omega), List.take_append_of_le_length hn,
      List.drop_append_of_le_length hn]
  · cases h

/-- **A run of bytes** extends where what ends a value also ends the run. This is the only reader of
all that would swallow more if more came. -/
theorem span {accept : UInt8 → Bool} (hends : ∀ c, ends c = true → accept c = false) :
    Extends ends (span accept : Reader ε Bytes) := by
  intro w b r t h ht
  cases h
  rw [run_span]
  -- the run ends with the input, or at a byte that is still there
  induction w with
  | nil =>
    have hstop : (Reader.span accept : Reader ε Bytes).run ([] ++ t) = .ok ([], t) :=
      Takes.run_span_append (List.forall_mem_nil _) fun c hc => hends c (ht rfl c hc)
    exact hstop
  | cons c w ih =>
    rw [List.cons_append]
    by_cases hc : accept c = true
    · rw [List.dropWhile_cons_of_pos hc] at ht
      rw [List.takeWhile_cons_of_pos hc, List.dropWhile_cons_of_pos hc,
        List.takeWhile_cons_of_pos hc, List.dropWhile_cons_of_pos hc]
      have hrest := Prod.mk.inj (Except.ok.inj (ih ht))
      rw [hrest.1, hrest.2]
    · rw [List.takeWhile_cons_of_neg hc, List.dropWhile_cons_of_neg hc,
        List.takeWhile_cons_of_neg hc, List.dropWhile_cons_of_neg hc, List.cons_append]

/-- **Readers in sequence** extend if both do. What ends the value is asked of the first only where
the second read nothing: if the first left nothing, then so does the second. -/
theorem bind (hp : Extends ends p) (hf : ∀ a, Extends ends (f a)) : Extends ends (p >>= f) := by
  intro w b r t h ht
  rw [run_bind] at h
  split at h
  · next a r' hr' =>
    -- what the second leaves is an end of what the first left
    have hrest : r' = [] → r = [] := fun hnil => List.suffix_nil.mp (hnil ▸ (f a).suffix h)
    rw [run_bind_ok (hp w a r' t hr' fun hnil => ht (hrest hnil))]
    exact hf a r' b r t h ht
  · cases h

theorem map (hp : Extends ends p) (g : α → β) : Extends ends (g <$> p) := hp.bind fun _ => pure _

/-- Looking ahead, where the end of the input is a fault. -/
theorem peek_bind {g : Option UInt8 → Reader ε α} (hsome : ∀ c, Extends ends (g (some c)))
    (hnone : (g none).Fails []) : Extends ends (peek >>= g) := by
  intro w a r t h ht
  cases w with
  | nil =>
    obtain ⟨e, he⟩ := hnone
    cases he.symm.trans h
  | cons c w => exact hsome c (c :: w) a r t h ht

/-- Looking ahead, where a byte that ends what was read is treated as the end of the input. -/
theorem peek_bind_of_eq {g : Option UInt8 → Reader ε α} (hg : ∀ c?, Extends ends (g c?))
    (heq : ∀ c, ends c = true → g (some c) = g none) : Extends ends (peek >>= g) := by
  intro w a r t h ht
  cases w with
  | cons c w => exact hg (some c) (c :: w) a r t h ht
  | nil =>
    have hr : r = [] := List.suffix_nil.mp ((g none).suffix h)
    -- nothing came after it, or a byte that counts as the end of the input
    cases t with
    | nil =>
      rw [List.append_nil, List.append_nil]
      exact h
    | cons c t =>
      show (g (some c)).run (c :: t) = _
      rw [heq c (ht hr c rfl)]
      exact hg none [] a r (c :: t) h ht

/-- **A loop** extends if its steps do, from every state that it comes through. -/
theorem loop {step : σ → Reader ε (Turn σ α)} {h : ∀ st, (step st).Moves}
    (hstep : ∀ st, Extends ends (step st)) (st : σ) : Extends ends (loop step h st) := by
  intro w a r t hrun
  -- the loop is taken apart into its steps, and put together again over the longer input
  refine loop_induction (motive := fun st w a r =>
    (r = [] → ∀ c ∈ t.head?, ends c = true) →
      (Reader.loop step h st).run (w ++ t) = .ok (a, r ++ t)) ?_ ?_ hrun
  · intro st w a r hdone ht
    rw [run_loop, hstep st w _ r t hdone ht]
  · intro st w st' r' a r hnext hrest ih ht
    -- as for two readers in sequence: a step that leaves nothing is the last that reads anything
    have hnil : r' = [] → r = [] := fun hnil =>
      List.suffix_nil.mp (hnil ▸ (Reader.loop step h st').suffix hrest)
    rw [run_loop, hstep st w _ r' t hnext fun h => ht (hnil h)]
    exact ih ht

end Extends

end Reader

/-! ### Rows -/

namespace Row

variable {S : Type} {style : RowStyle ε σ} {name k : String} {fallback : Option α}
  {value : Reader ε α} {rest : Row ε σ β S} {slots : Option α × S} {ends : UInt8 → Bool}

/-- What is read of the entry under a name is a fault, the value of the first field, or an entry of
the others. -/
theorem fill?_cons_eq_some {p : Reader ε (Option α × S)}
    (h : (Row.cons style name fallback value rest).fill? k slots = some p) :
    p = Reader.fail style.duplicate ∨
      p = (do
        style.between
        let a ← value
        pure (some a, slots.2)) ∨
      ∃ q, rest.fill? k slots.2 = some q ∧ p = (do
        let slots' ← q
        pure (slots.1, slots')) := by
  unfold Row.cons at h
  dsimp only at h
  -- under the name of the first field, which was filled before or is filled now
  split at h
  · split at h
    · exact .inl (Option.some.inj h).symm
    · exact .inr (.inl (Option.some.inj h).symm)
  · obtain ⟨q, hq, rfl⟩ := Option.map_eq_some_iff.mp h
    exact .inr (.inr ⟨q, hq, rfl⟩)

/-- **A row extends**: more input makes no difference to its fields, in either form. -/
structure Extends (ends : UInt8 → Bool) (row : Row ε σ α S) : Prop where
  inOrder : ∀ st, (row.inOrder st).Extends ends
  fill : ∀ k slots p, row.fill? k slots = some p → p.Extends ends

theorem Extends.nil : Extends ends (Row.nil : Row ε σ Unit Unit) where
  inOrder _ := .pure _
  fill _ _ _ h := nomatch h

/-- A row extends if its first field does, the rest of the row does, and the style of the form does
around them. -/
theorem Extends.cons (hanother : ∀ st, (style.another st).Extends ends)
    (hbetween : style.between.Extends ends) (hvalue : value.Extends ends)
    (hrest : rest.Extends ends) : Extends ends (Row.cons style name fallback value rest) where
  inOrder st := by
    have hitem : (style.item fallback value st).Extends ends := by
      refine (hanother st).bind fun st? => ?_
      cases st? with
      | none => exact (Reader.Extends.ofOption _ _).bind fun _ => .pure _
      | some st' => exact hvalue.bind fun _ => .pure _
    exact hitem.bind fun x => (hrest.inOrder x.2).bind fun _ => .pure _
  fill k slots p h := by
    rcases fill?_cons_eq_some h with rfl | rfl | ⟨q, hq, rfl⟩
    · exact .fail _
    · exact hbetween.bind fun _ => hvalue.bind fun _ => .pure _
    · exact (hrest.fill k _ q hq).bind fun _ => .pure _

end Row

end TwoTier
