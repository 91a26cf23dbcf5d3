import TwoTier.Proofs.Script.Trace

/-!
# Scripts that keep to one store

A script is **within** a store (`Script.Within`) if that is the only one that it ever asks, and does
not ask it for its health. What such a script does is decided by that store: two handlers that
**share** it (`Handler.Share`), and may differ in all their other stores, give the script the same
result and leave the store the same (`Within.run_eq`).

Being within a store is kept by every way of putting scripts together, so a script is shown to be
within a store part by part.
-/

namespace TwoTier

/-- The script asks the one store only, and asks it nothing but commands. -/
inductive Script.Within {ι α : Type} (i : ι) : Script ι α → Prop
  | done (a : α) : Within i (.done a)
  | ask (c : Command) {k : c.Reply → Script ι α} (hk : ∀ r, Within i (k r)) :
    Within i (.ask i c k)
  | note (e : Event) {k : Script ι α} (hk : Within i k) : Within i (.note e k)
  | compute {k : Script ι α} (hk : Within i k) : Within i (.compute k)

/-- **Two handlers share a store**: `view` and `view'` are the parts of their states that belong to
it. Where these are the same, the store answers the same and becomes the same; nothing else that
happens in either of them can tell the two apart. -/
structure Handler.Share {ι σ σ' ρ : Type} (h : Handler ι σ) (h' : Handler ι σ') (i : ι)
    (view : σ → ρ) (view' : σ' → ρ) : Prop where
  reply : ∀ c st st', view st = view' st' → (h.serve i c st).1 = (h'.serve i c st').1
  self : ∀ c st st', view st = view' st' →
    view (h.serve i c st).2 = view' (h'.serve i c st').2
  /-- Commands to other stores leave the shared one as it is, in either. -/
  other : ∀ j c st, j ≠ i → view (h.serve j c st).2 = view st
  other' : ∀ j c st, j ≠ i → view' (h'.serve j c st).2 = view' st
  note : ∀ e st, view (h.note e st) = view st
  note' : ∀ e st, view' (h'.note e st) = view' st
  /-- The callers' functions may reach the shared store too, and then do the same to it. -/
  compute : ∀ st st', view st = view' st' → view (h.compute st) = view' (h'.compute st')

namespace Script

variable {ι σ σ' ρ α β : Type} {i : ι}

/-! ### Putting scripts together -/

theorem Within.pure (a : α) : Within i (Pure.pure a : Script ι α) := .done a

/-- Scripts in sequence are within a store if both are, the second whatever the first returns. -/
theorem Within.bind {s : Script ι α} {f : α → Script ι β} (hs : Within i s)
    (hf : ∀ a, Within i (f a)) : Within i (s >>= f) := by
  change Within i (s.bind f)
  -- along the first script, up to its end, where the second begins
  induction hs with
  | done a => exact hf a
  | ask c _ ih => exact .ask c ih
  | note e _ ih => exact .note e ih
  | compute _ ih => exact .compute ih

theorem Within.command (i : ι) (c : Command) : Within i (Script.command i c) := .ask c .done

theorem Within.event (e : Event) : Within i (Script.event e : Script ι Unit) := .note e (.done ())

theorem Within.computed : Within i (Script.computed : Script ι Unit) := .compute (.done ())

/-! ### What a script within a store does -/

/-- No other store is asked. -/
theorem Within.store_eq {s : Script ι α} (hs : Within i s) (h : Handler ι σ) (st : σ) :
    ∀ x ∈ s.trace h st, x.store = i := by
  induction hs generalizing st with
  | done a => exact fun x hx => by cases hx
  | ask c _ ih =>
    intro x hx
    -- the exchange of this command, or one of the rest of the script
    rcases List.mem_cons.mp hx with rfl | hx
    · cases c <;> rfl
    · exact ih _ _ x hx
  | note e _ ih => exact ih _
  | compute _ ih => exact ih _

/-- **The store decides.** Under handlers that share it, the script has the same result and leaves
the store the same. -/
theorem Within.run_eq {s : Script ι α} (hs : Within i s) {h : Handler ι σ} {h' : Handler ι σ'}
    {view : σ → ρ} {view' : σ' → ρ} (hsh : h.Share h' i view view') {st : σ} {st' : σ'}
    (hst : view st = view' st') :
    (s.run h st).1 = (s.run h' st').1 ∧ view (s.run h st).2 = view' (s.run h' st').2 := by
  induction hs generalizing st st' with
  | done a => exact ⟨rfl, hst⟩
  | ask c _ ih =>
    -- the same reply leads to the same rest of the script
    have hself := hsh.self c st st' hst
    simp only [Script.run, hsh.reply c st st' hst]
    exact ih _ hself
  | note e _ ih =>
    refine ih ?_
    rw [hsh.note, hsh.note', hst]
  | compute _ ih => exact ih (hsh.compute st st' hst)

end Script

/-- The stores of a handler that are apart are each shared by the handler with itself, if the
callers' functions do not reach them. -/
theorem Handler.Apart.share {ι σ : Type} {ρ : ι → Type} {h : Handler ι σ}
    {view : (i : ι) → σ → ρ i} (hap : h.Apart view) (i : ι)
    (hcompute : ∀ st, view i (h.compute st) = view i st) :
    h.Share h i (view i) (view i) where
  reply := hap.reply i
  self := hap.self i
  other j c st hj := hap.other j i c st hj.symm
  other' j c st hj := hap.other j i c st hj.symm
  note := hap.note i
  note' := hap.note i
  compute st st' hst := by rw [hcompute, hcompute, hst]

end TwoTier
