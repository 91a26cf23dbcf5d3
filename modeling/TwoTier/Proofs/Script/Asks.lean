import TwoTier.Proofs.Script.Trace

/-!
# Scripts that ask certain commands only

`Script.Asks P` says of a script that every command it may ever give to a store is in the class `P`,
whatever the stores answer, and that it asks none for its health. This is kept by every way of
putting scripts together.

So what such commands keep, the script keeps (`Asks.run_keeps`); and where such commands cannot tell
the states of two handlers apart, which is a relation `R` between the states (`Handler.Alike`), the
script cannot either (`Asks.run_alike`).
-/

namespace TwoTier

/-- The script asks the stores nothing but commands of a class. -/
inductive Script.Asks {ι α : Type} (P : ι → Command → Prop) : Script ι α → Prop
  | done (a : α) : Asks P (.done a)
  | ask {i : ι} {c : Command} (hc : P i c) {k : c.Reply → Script ι α} (hk : ∀ r, Asks P (k r)) :
    Asks P (.ask i c k)
  | note (e : Event) {k : Script ι α} (hk : Asks P k) : Asks P (.note e k)
  | compute {k : Script ι α} (hk : Asks P k) : Asks P (.compute k)

/-- **Two handlers are alike to the commands of a class**, in states that stand in a relation: these
are answered the same, and nothing leads out of the relation. -/
structure Handler.Alike {ι σ σ' : Type} (h : Handler ι σ) (h' : Handler ι σ')
    (P : ι → Command → Prop) (R : σ → σ' → Prop) : Prop where
  reply : ∀ {i c st st'}, P i c → R st st' → (h.serve i c st).1 = (h'.serve i c st').1
  serve : ∀ {i c st st'}, P i c → R st st' → R (h.serve i c st).2 (h'.serve i c st').2
  note : ∀ e {st st'}, R st st' → R (h.note e st) (h'.note e st')
  compute : ∀ {st st'}, R st st' → R (h.compute st) (h'.compute st')

namespace Script.Asks

variable {ι σ σ' α β : Type} {P : ι → Command → Prop}

/-! ### Putting scripts together -/

theorem pure (a : α) : Asks P (Pure.pure a : Script ι α) := .done a

/-- Scripts in sequence ask only commands of a class if both do, the second whatever the first
returns. -/
theorem bind {s : Script ι α} {f : α → Script ι β} (hs : Asks P s) (hf : ∀ a, Asks P (f a)) :
    Asks P (s >>= f) := by
  change Asks P (s.bind f)
  -- along the first script, up to its end, where the second begins
  induction hs with
  | done a => exact hf a
  | ask hc _ ih => exact .ask hc ih
  | note e _ ih => exact .note e ih
  | compute _ ih => exact .compute ih

theorem command {i : ι} {c : Command} (hc : P i c) : Asks P (Script.command i c) := .ask hc .done

theorem event (e : Event) : Asks P (Script.event e : Script ι Unit) := .note e (.done ())

theorem computed : Asks P (Script.computed : Script ι Unit) := .compute (.done ())

/-! ### Running them -/

/-- What the commands of the class keep, the script keeps. -/
theorem run_keeps {s : Script ι α} (hs : Asks P s) {h : Handler ι σ} {I : σ → Prop}
    (hserve : ∀ {i c st}, P i c → I st → I (h.serve i c st).2)
    (hnote : ∀ e {st}, I st → I (h.note e st)) (hcompute : ∀ {st}, I st → I (h.compute st)) {st : σ}
    (hst : I st) : I (s.run h st).2 := by
  -- every reply is possible to the script, so the rest keeps the property after whichever came
  induction hs generalizing st with
  | done a => exact hst
  | ask hc _ ih => exact ih _ (hserve hc hst)
  | note e _ ih => exact ih (hnote e hst)
  | compute _ ih => exact ih (hcompute hst)

/-- **Alike handlers** lead the script to the same result by the same exchanges, and stay alike. -/
theorem run_alike {s : Script ι α} (hs : Asks P s) {h : Handler ι σ} {h' : Handler ι σ'}
    {R : σ → σ' → Prop} (hal : h.Alike h' P R) {st : σ} {st' : σ'} (hst : R st st') :
    (s.run h st).1 = (s.run h' st').1 ∧ s.trace h st = s.trace h' st' ∧
      R (s.run h st).2 (s.run h' st').2 := by
  induction hs generalizing st st' with
  | done a => exact ⟨rfl, rfl, hst⟩
  | ask hc _ ih =>
    -- the same reply leads to the same rest of the script
    obtain ⟨hresult, htrace, hend⟩ := ih (h.serve _ _ st).1 (hal.serve hc hst)
    simp only [run, trace, ← hal.reply hc hst]
    exact ⟨hresult, congrArg (List.cons _) htrace, hend⟩
  | note e _ ih => exact ih (hal.note e hst)
  | compute _ ih => exact ih (hal.compute hst)

end Script.Asks

end TwoTier
