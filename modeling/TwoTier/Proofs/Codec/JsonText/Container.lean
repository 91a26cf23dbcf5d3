import TwoTier.Proofs.Codec.JsonText.Scalar

/-!
# Arrays and objects in JSON text

Items and entries stand between brackets or braces with commas between them (`enclose_eq`). Whatever
stands there, it is ended by the comma or the closing byte after it, even if it is a number: neither
goes on with digits. So an array takes the values that its items are taken for (`takes_items`), and
an object leads from one state to another as its entries do, one after the other (`Leads`,
`takes_entries`).
-/

namespace TwoTier.JsonText

open Reader

variable {α β σ : Type} {more : UInt8 → Bool} {w : Bytes} {b : β} {c : UInt8}

/-- A reader takes a value, which has a first byte that values may begin with. -/
structure TakesValue (p : Reader Fault α) (w : Bytes) (a : α) : Prop where
  takes : Takes goesOn p w a
  starts : ∃ c t, w = c :: t ∧ Starts c

/-! ### Commas and closing bytes -/

/-- Parts with commas between them, and one in front unless the first part comes first. -/
def separated (first : Bool) : List Bytes → Bytes
  | [] => []
  | w :: ws => (if first then [] else [Bytes.ascii ',']) ++ (w ++ separated false ws)

theorem enclose_eq (l r : Char) (ws : List Bytes) :
    enclose l r ws = Bytes.ascii l :: (separated true ws ++ [Bytes.ascii r]) := by
  -- the commas in front of the later parts, put there one by one
  have hrest (ws : List Bytes) : ws.flatMap (Bytes.ascii ',' :: ·) = separated false ws := by
    induction ws with
    | nil => rfl
    | cons w ws ih =>
      rw [List.flatMap_cons, ih]
      rfl
  cases ws with
  | nil => rfl
  | cons w ws =>
    rw [enclose, hrest]
    rfl

/-- What stands after a value does not go on with digits. -/
theorem separated_append_eq_cons (ws : List Bytes) {r : UInt8} (hr : goesOn r = false) (w : Bytes) :
    ∃ c t, separated false ws ++ r :: w = c :: t ∧ goesOn c = false := by
  cases ws with
  | nil => exact ⟨r, w, rfl, hr⟩
  | cons v ws => exact ⟨Bytes.ascii ',', _, rfl, by decide⟩

theorem Starts.ne (h : Starts c) {d : UInt8} (hd : Start.of d = .other) : c ≠ d :=
  fun hcd => h (hcd ▸ hd)

theorem fails_closing (r : Char) : (closing r).Fails [] := ⟨.truncated, rfl⟩

/-- The closing byte may have blanks in front of it, but is none itself. -/
theorem takes_closing {r : Char} (hr : isBlank (Bytes.ascii r) = false) :
    Takes closed (closing r) [Bytes.ascii r] () := by
  refine takes_peekPastBlank hr ⟨.truncated, rfl⟩ ?_
  simp only [beq_self_eq_true, if_true]
  exact (Takes.byte Fault.truncated _).bind_nil fun _ => rfl

theorem takes_colon : Takes closed colon [Bytes.ascii ':'] () := takes_closing (by decide)

/-! ### Arrays -/

/-- After a comma there is an item, and not the end of the array. -/
theorem takes_itemComma {f : Unit → Reader Fault β} (hc : Starts c)
    (h : Takes more (f ()) (c :: w) b) :
    Takes more (itemComma >>= f) (Bytes.ascii ',' :: c :: w) b := by
  -- a bracket after the comma would be refused, but no value begins with one
  have hbracket : ¬ (c == Bytes.ascii ']') = true := by simpa using hc.ne (by decide)
  rw [itemComma, Reader.bind_assoc]
  refine (Takes.byte Fault.truncated _).bind ?_
  rw [Reader.bind_assoc]
  refine takes_peekPastBlank hc.not_blank ⟨.truncated, rfl⟩ ?_
  simp only [if_neg hbracket]
  exact h

/-- Another item follows a comma. -/
theorem takes_another {f : Option Bool → Reader Fault β} (hc : Starts c)
    (h : Takes more (f (some false)) (c :: w) b) :
    Takes more (another false >>= f) (Bytes.ascii ',' :: c :: w) b := by
  rw [another, Reader.bind_assoc]
  refine takes_peekPastBlank (by decide) ⟨.truncated, rfl⟩ ?_
  show Takes more ((do itemComma; pure (some false)) >>= f) _ b
  rw [Reader.bind_assoc]
  exact takes_itemComma hc h

/-- The first item has no comma in front of it. -/
theorem run_another_true (hc : Starts c) (s : Bytes) :
    (another true).run (c :: s) = .ok (some false, c :: s) := by
  have hbracket : ¬ (c == Bytes.ascii ']') = true := by simpa using hc.ne (by decide)
  rw [another, run_bind_ok (run_peekPastBlank hc.not_blank s)]
  simp only [if_neg hbracket]
  rfl

section Items

variable {p : Reader Fault α} {write : α → Bytes} {k : List α → Reader Fault β}

/-- One turn of the loop takes a comma and an item. -/
theorem takes_itemStep {a : α} (h : TakesValue p w a) (sofar : List α) :
    Takes goesOn (itemStep p sofar) (Bytes.ascii ',' :: w) (.next (a :: sofar)) := by
  obtain ⟨c, t, rfl, hc⟩ := h.starts
  refine takes_peekPastBlank (by decide) ⟨.truncated, rfl⟩ ?_
  exact takes_itemComma hc (h.takes.bind_nil fun _ => rfl)

/-- The loop waits for another byte, whatever it has read so far. -/
theorem fails_itemLoop (sofar : List α) :
    (loop (itemStep p) (moves_itemStep p) sofar >>= k).Fails [] := by
  have hstep : (itemStep p sofar).Fails [] := ⟨.truncated, rfl⟩
  rw [loop_eq]
  exact (hstep.bind _).bind _

/-- The items after the first. -/
theorem takes_itemLoop {xs : List α} (h : ∀ x ∈ xs, TakesValue p (write x) x) (sofar : List α)
    (hk : Takes closed (k (sofar.reverse ++ xs)) (Bytes.ascii ']' :: w) b)
    (hnil : ∀ as, (k as).Fails []) :
    Takes closed (loop (itemStep p) (moves_itemStep p) sofar >>= k)
      (separated false (xs.map write) ++ Bytes.ascii ']' :: w) b := by
  -- on the items that are left, for whatever items have been read
  induction xs generalizing sofar with
  | nil =>
    rw [List.append_nil] at hk
    -- the bracket ends the loop
    exact .loop_bind_done (fun _ => rfl) ⟨.truncated, rfl⟩ hk
  | cons x xs ih =>
    have hrest := ih (fun y hy => h y (List.mem_cons_of_mem x hy)) (x :: sofar)
      (by rwa [List.reverse_cons, List.append_assoc, List.singleton_append])
    -- the byte after the item is a comma or the bracket, and ends even a number
    obtain ⟨c, t, hct, hc⟩ :=
      separated_append_eq_cons (xs.map write) (show goesOn (Bytes.ascii ']') = false by decide) w
    have hstep := takes_itemStep (h x List.mem_cons_self) sofar
    rw [List.map_cons, separated, if_neg Bool.false_ne_true, List.append_assoc, List.append_assoc,
      hct]
    rw [hct] at hrest
    exact .loop_bind_next hstep hc hrest (fun _ => ⟨.truncated, rfl⟩) hnil

/-- **The items of an array.** -/
theorem takes_items {xs : List α} (h : ∀ x ∈ xs, TakesValue p (write x) x)
    (hk : Takes closed (k xs) (Bytes.ascii ']' :: w) b) (hnil : ∀ as, (k as).Fails []) :
    Takes closed (items p >>= k) (separated true (xs.map write) ++ Bytes.ascii ']' :: w) b := by
  rw [items, Reader.bind_assoc]
  -- without items the bracket comes at once, with some the first comes without a comma
  cases xs with
  | nil => exact .stop (fun _ => rfl) ⟨.truncated, rfl⟩ hk
  | cons x xs =>
    have hx := h x List.mem_cons_self
    obtain ⟨c, t, hct, hc⟩ := hx.starts
    obtain ⟨d, u, hdu, hd⟩ :=
      separated_append_eq_cons (xs.map write) (show goesOn (Bytes.ascii ']') = false by decide) w
    have hrest := takes_itemLoop (fun y hy => h y (List.mem_cons_of_mem x hy)) [x] hk hnil
    rw [hdu] at hrest
    have hall : Takes closed
        ((do let a ← p; loop (itemStep p) (moves_itemStep p) [a]) >>= k) (write x ++ d :: u) b := by
      rw [Reader.bind_assoc]
      exact hx.takes.bind_closed hrest hd fun a => fails_itemLoop [a]
    rw [List.map_cons, separated, if_pos rfl, List.nil_append, List.append_assoc, hdu]
    rw [hct] at hall ⊢
    exact .stop (run_another_true hc) ⟨.truncated, rfl⟩ hall

end Items

/-- An array is what stands between its brackets. -/
theorem takes_array {d : Nat} {p : Nat → Reader Fault α} {a : α}
    (h : Takes closed (do let a ← p d; closing ']'; pure a) (w ++ [Bytes.ascii ']']) a) :
    Takes closed (array (d + 1) p) (Bytes.ascii '[' :: (w ++ [Bytes.ascii ']'])) a :=
  (Takes.byte Fault.truncated _).bind h

/-! ### Objects -/

/-- Another key follows a comma. -/
theorem takes_anotherKey {f : Bool → Reader Fault β}
    (h : Takes more (f true) (Bytes.ascii '"' :: w) b) :
    Takes more (anotherKey false >>= f) (Bytes.ascii ',' :: Bytes.ascii '"' :: w) b := by
  rw [anotherKey, Reader.bind_assoc]
  refine takes_peekPastBlank (by decide) ⟨.truncated, rfl⟩ ?_
  dsimp only
  rw [if_neg (by decide), if_neg (by decide), if_pos (by decide), Reader.bind_assoc]
  refine (Takes.byte Fault.truncated _).bind ?_
  rw [Reader.bind_assoc]
  exact takes_peekPastBlank (by decide) ⟨.truncated, rfl⟩ h

/-- **Entries lead from a state to another**, each taken by the step for its key. -/
inductive Leads (step : σ → String → Reader Fault σ) : σ → List (String × Bytes) → σ → Prop
  | nil (st : σ) : Leads step st [] st
  | cons {st st' st'' : σ} {e : String × Bytes} {es : List (String × Bytes)}
    (first : Takes goesOn (step st e.1) (Bytes.ascii ':' :: e.2) st')
    (rest : Leads step st' es st'') : Leads step st (e :: es) st''

section Entries

variable {step : σ → String → Reader Fault σ} {k : σ → Reader Fault β}

/-- A key and what the step for it takes. -/
theorem takes_entry {st st' : σ} {name : String}
    (h : Takes goesOn (step st name) (Bytes.ascii ':' :: w) st') :
    Takes goesOn (do
        let k ← quoted
        let st' ← step st k
        pure (.next (false, st') : Turn (Bool × σ) σ))
      (writeEntry name w) (.next (false, st')) :=
  (takes_quoted name).bind (h.bind_nil fun _ => rfl)

/-- One turn of the loop takes an entry, with a comma in front of all but the first. -/
theorem takes_entryStep {st st' : σ} {name : String}
    (h : Takes goesOn (step st name) (Bytes.ascii ':' :: w) st') (first : Bool) :
    Takes goesOn (entryStep step (first, st))
      ((if first then [] else [Bytes.ascii ',']) ++ writeEntry name w) (.next (false, st')) := by
  cases first with
  | true => exact .stop (fun _ => rfl) ⟨.truncated, rfl⟩ (takes_entry h)
  | false => exact takes_anotherKey (takes_entry h)

/-- The entries from one on. -/
theorem takes_entryLoop {st st' : σ} {es : List (String × Bytes)} (h : Leads step st es st')
    (first : Bool) (hk : Takes closed (k st') (Bytes.ascii '\x7d' :: w) b)
    (hnil : ∀ st, (k st).Fails []) :
    Takes closed (loop (entryStep step) (moves_entryStep step) (first, st) >>= k)
      (separated first (es.map fun e => writeEntry e.1 e.2) ++ Bytes.ascii '\x7d' :: w) b := by
  -- on how the entries lead on; the comma in front of the first is missing just once
  induction h generalizing first with
  | nil st =>
    refine .loop_bind_done (fun s => ?_) ⟨.truncated, rfl⟩ hk
    cases first <;> rfl
  | @cons st st₁ st₂ e es hfirst _ ih =>
    have hrest := ih false hk
    -- the byte after the value is a comma or the brace
    obtain ⟨c, t, hct, hc⟩ :=
      separated_append_eq_cons (es.map fun e => writeEntry e.1 e.2)
        (show goesOn (Bytes.ascii '\x7d') = false by decide) w
    rw [List.map_cons, separated, ← List.append_assoc, List.append_assoc, hct]
    rw [hct] at hrest
    exact .loop_bind_next (takes_entryStep hfirst first) hc hrest (fun _ => ⟨.truncated, rfl⟩) hnil

/-- **The entries of an object.** -/
theorem takes_entries {st st' : σ} {es : List (String × Bytes)} (h : Leads step st es st')
    (hk : Takes closed (k st') (Bytes.ascii '\x7d' :: w) b) (hnil : ∀ st, (k st).Fails []) :
    Takes closed (entries step st >>= k)
      (separated true (es.map fun e => writeEntry e.1 e.2) ++ Bytes.ascii '\x7d' :: w) b :=
  takes_entryLoop h true hk hnil

end Entries

/-- An object is what stands between its braces. -/
theorem takes_object {d : Nat} {p : Nat → Reader Fault α} {a : α}
    (h : Takes closed (do let a ← p d; closing '\x7d'; pure a) (w ++ [Bytes.ascii '\x7d']) a) :
    Takes closed (object (d + 1) p) (Bytes.ascii '\x7b' :: (w ++ [Bytes.ascii '\x7d'])) a :=
  (Takes.byte Fault.truncated _).bind h

end TwoTier.JsonText
