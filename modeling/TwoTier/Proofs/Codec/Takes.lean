import TwoTier.Codec.Reader

/-!
# Readers of written forms

An encoding is a writer and a reader, and what ties the two together is said here of a reader alone:
`Takes more p w a` says that `p` **takes** the bytes `w` for the value `a`,

* whatever comes after them, as long as it does not begin with a byte that goes on with the form;
* and never before they are complete: cut short anywhere, they are a fault.

A form is **closed** if there is no byte that goes on with it. The decimal digits of a number are
not closed: one more digit makes another number, and one digit less does as well. So a cut may be
taken for a value where the byte that was cut off goes on with the form, but then nothing is left of
the input, and whatever is to be read next is the fault.

The lemmas follow the ways in which readers are put together: `Takes.bind` for one form after the
other, `Takes.bind_closed` for a form that the next one ends, `Takes.times` for repetitions,
`Takes.peek` for readers that look ahead.

`Refuses p w e` says that `p` finds the fault `e` within the bytes `w`, so that nothing after them
matters. A reader refuses what begins with forms that it takes and goes on with one that it refuses.
-/

namespace TwoTier.Reader

variable {ε α β γ σ : Type}

/-! ### Readers in sequence -/

/-- Readers that do the same are the same, as the proof that each carries does not tell them apart.
-/
@[ext]
theorem ext {p q : Reader ε α} (h : ∀ s, p.run s = q.run s) : p = q := by
  obtain ⟨run, _⟩ := p
  obtain ⟨run', _⟩ := q
  obtain rfl : run = run' := funext h
  rfl

/-- Which two of three readers in sequence are put together first makes no difference. -/
theorem bind_assoc (p : Reader ε α) (f : α → Reader ε β) (g : β → Reader ε γ) :
    p >>= f >>= g = p >>= fun a => f a >>= g := by
  ext s
  simp only [run_bind]
  cases p.run s <;> rfl

/-- A loop is its first step, and from there the loop or its value. -/
theorem loop_eq (step : σ → Reader ε (Turn σ α)) (h : ∀ st, (step st).Moves) (st : σ) :
    loop step h st = step st >>= fun
      | .next st' => loop step h st'
      | .done a => pure a := by
  ext s
  rw [run_loop, run_bind]
  split <;> simp_all

/-! ### Faults -/

/-- A reader finds a fault in an input. -/
def Fails (p : Reader ε α) (s : Bytes) : Prop := ∃ e, p.run s = .error e

theorem fails_fail (e : ε) (s : Bytes) : (fail e : Reader ε α).Fails s := ⟨e, rfl⟩

theorem fails_byte_nil (e : ε) : (byte e).Fails [] := ⟨e, rfl⟩

/-- A fault of the first reader is one of the sequence, -/
theorem Fails.bind {p : Reader ε α} {s : Bytes} (h : p.Fails s) (f : α → Reader ε β) :
    (p >>= f).Fails s := by
  obtain ⟨e, he⟩ := h
  exact ⟨e, run_bind_error he⟩

/-- and so is a fault of the second on what the first left. -/
theorem Fails.bind_right {p : Reader ε α} {f : α → Reader ε β} {s r : Bytes} {a : α}
    (hp : p.run s = .ok (a, r)) (hf : (f a).Fails r) : (p >>= f).Fails s := by
  obtain ⟨e, he⟩ := hf
  exact ⟨e, by rw [run_bind_ok hp, he]⟩

theorem Fails.map {p : Reader ε α} {s : Bytes} (h : p.Fails s) (f : α → β) : (f <$> p).Fails s :=
  h.bind _

/-- At the end of the input a reader finds a fault, or reads nothing. -/
theorem fails_nil_or (p : Reader ε α) : p.Fails [] ∨ ∃ a, p.run [] = .ok (a, []) := by
  cases h : p.run [] with
  | error e => exact .inl ⟨e, h⟩
  | ok x =>
    obtain ⟨a, r⟩ := x
    rw [List.suffix_nil.mp (p.suffix h)]
    exact .inr ⟨a, rfl⟩

/-! ### Taking a form -/

/-- No byte goes on with the form. -/
def closed : UInt8 → Bool := fun _ => false

/-- **A reader takes a form for a value.** The bytes `c` with `more c` go on with the form. -/
structure Takes (more : UInt8 → Bool) (p : Reader ε α) (w : Bytes) (a : α) : Prop where
  /-- The form is read to its end, where nothing goes on with it, … -/
  run_append : ∀ rest, (∀ c ∈ rest.head?, more c = false) → p.run (w ++ rest) = .ok (a, rest)
  /-- … and a part of it only if the byte after the part goes on with the form. -/
  cut : ∀ s c t, w = s ++ c :: t → p.Fails s ∨ more c = true ∧ ∃ b, p.run s = .ok (b, [])

namespace Takes

variable {more : UInt8 → Bool} {p : Reader ε α} {f : α → Reader ε β} {w w' : Bytes} {a : α} {b : β}

/-- A closed form is taken whatever comes after it. -/
theorem run_closed (h : Takes closed p w a) (rest : Bytes) : p.run (w ++ rest) = .ok (a, rest) :=
  h.run_append rest fun _ _ => rfl

/-- A form is taken at the end of the input, where nothing can go on with it. -/
theorem run_self (h : Takes more p w a) : p.run w = .ok (a, []) := by
  have h0 := h.run_append [] (by simp)
  rwa [List.append_nil] at h0

/-- A strict prefix of a closed form is a fault. -/
theorem fails_of_prefix (h : Takes closed p w a) {s : Bytes} (hs : s <+: w) (hne : s ≠ w) :
    p.Fails s := by
  obtain ⟨t, rfl⟩ := hs
  cases t with
  | nil => exact absurd (List.append_nil s).symm hne
  | cons c t =>
    rcases h.cut s c t rfl with hf | ⟨hc, -⟩
    · exact hf
    · cases hc

/-- Where more bytes may go on with a form, it is still taken. -/
theorem mono {more' : UInt8 → Bool} (h : Takes more p w a)
    (hmore : ∀ c, more c = true → more' c = true) : Takes more' p w a where
  run_append rest hrest := h.run_append rest fun c hc => by
    have := hrest c hc
    cases hm : more c with
    | false => rfl
    | true => rw [hmore c hm] at this; cases this
  cut s c t hw := (h.cut s c t hw).imp_right fun hc => ⟨hmore c hc.1, hc.2⟩

/-- A closed form is taken as one that anything may go on with. -/
theorem of_closed (h : Takes closed p w a) : Takes more p w a := h.mono fun _ hc => nomatch hc

/-- Nothing is taken for a value at hand. -/
theorem of_run_eq (h : ∀ s, (∀ c ∈ s.head?, more c = false) → p.run s = .ok (a, s)) :
    Takes more p [] a where
  run_append := h
  cut s c t hw := by simp at hw

theorem pure (a : α) : Takes more (Pure.pure a : Reader ε α) [] a := of_run_eq fun _ _ => rfl

/-- A byte is a closed form of its own. -/
theorem byte (e : ε) (b : UInt8) : Takes more (byte e) [b] b where
  run_append _ _ := rfl
  cut s c t hw := by
    cases s with
    | nil => exact .inl (fails_byte_nil e)
    | cons => simp at hw

/-- Bytes in a fixed number are a closed form: fewer of them are too few. -/
theorem take (e : ε) {n : Nat} (h : w.length = n) : Takes more (take e n) w w where
  run_append rest _ := run_take_append e h rest
  cut s c t hw := by
    have hlt : ¬ n ≤ s.length := by
      rw [← h, hw, List.length_append, List.length_cons]
      omega
    exact .inl ⟨e, if_neg hlt⟩

/-- A run ends before a byte that it does not accept. -/
theorem run_span_append {accept : UInt8 → Bool} {rest : Bytes} (hw : ∀ x ∈ w, accept x = true)
    (hrest : ∀ c ∈ rest.head?, accept c = false) :
    (Reader.span accept : Reader ε Bytes).run (w ++ rest) = .ok (w, rest) := by
  rw [run_span, List.takeWhile_append_of_pos hw, List.dropWhile_append_of_pos hw]
  -- at the end of the input, or before such a byte
  cases rest with
  | nil => simp
  | cons c rest =>
    have hc : ¬ accept c = true := by rw [hrest c rfl]; exact Bool.false_ne_true
    rw [List.takeWhile_cons_of_neg hc, List.dropWhile_cons_of_neg hc, List.append_nil]

/-- A run of accepted bytes, which another accepted byte goes on with. -/
theorem span {accept : UInt8 → Bool} (hw : ∀ x ∈ w, accept x = true) :
    Takes accept (Reader.span accept : Reader ε Bytes) w w where
  run_append _ hrest := run_span_append hw hrest
  cut s c t h := by
    subst h
    -- a part of the run is a run, and is taken for one where it ends
    have hs : ∀ x ∈ s, accept x = true := fun x hx => hw x (List.mem_append_left _ hx)
    have hrun : (Reader.span accept : Reader ε Bytes).run (s ++ []) = .ok (s, []) :=
      run_span_append hs (by simp)
    rw [List.append_nil] at hrun
    exact .inr ⟨hw c (by simp), s, hrun⟩

/-! ### One form after the other -/

/-- A closed form, and another one after it. -/
theorem bind (hp : Takes closed p w a) (hf : Takes more (f a) w' b) :
    Takes more (p >>= f) (w ++ w') b where
  run_append rest hrest := by
    rw [List.append_assoc, run_bind_ok (hp.run_closed _)]
    exact hf.run_append rest hrest
  cut s c t hw := by
    -- the cut is in the second form, right between the two, or in the first
    rcases List.append_eq_append_iff.mp hw with ⟨s', rfl, hs'⟩ | ⟨v, rfl, hv⟩
    · -- in the second: the first was read whole before it
      rcases hf.cut s' c t hs' with ⟨e, he⟩ | ⟨hc, b', hb⟩
      · exact .inl (Fails.bind_right (hp.run_closed s') ⟨e, he⟩)
      · exact .inr ⟨hc, b', by rw [run_bind_ok (hp.run_closed s'), hb]⟩
    · cases v with
      -- between them: the first is whole, and the second is cut down to nothing
      | nil =>
        rw [List.append_nil] at hp
        rcases hf.cut [] c t hv.symm with ⟨e, he⟩ | ⟨hc, b', hb⟩
        · exact .inl (Fails.bind_right hp.run_self ⟨e, he⟩)
        · exact .inr ⟨hc, b', by rw [run_bind_ok hp.run_self, hb]⟩
      -- in the first, which is closed, so that the cut is a fault at once
      | cons d v =>
        cases hv
        rcases hp.cut s c v rfl with hfail | ⟨hc, -⟩
        · exact .inl (hfail.bind f)
        · cases hc

/-- A form, and a closed one after it whose first byte ends the first. -/
theorem bind_closed {c : UInt8} (hp : Takes more p w a) (hf : Takes closed (f a) (c :: w') b)
    (hc : more c = false) (hnil : ∀ a', (f a').Fails []) :
    Takes closed (p >>= f) (w ++ c :: w') b where
  run_append rest hrest := by
    rw [List.append_assoc, run_bind_ok (hp.run_append _ (by simpa using hc))]
    exact hf.run_append rest hrest
  cut s d t hw := by
    rcases List.append_eq_append_iff.mp hw with ⟨s', rfl, hs'⟩ | ⟨v, rfl, hv⟩
    · -- what is left of the second form still begins as it does
      have hhead : ∀ x ∈ s'.head?, more x = false := by
        cases s' with
        | nil => simp
        | cons x s' =>
          cases hs'
          simpa using hc
      rcases hf.cut s' d t hs' with hfail | ⟨hd, -⟩
      · exact .inl (Fails.bind_right (hp.run_append s' hhead) hfail)
      · cases hd
    · cases v with
      | nil =>
        rw [List.append_nil] at hp
        exact .inl (Fails.bind_right hp.run_self (hnil a))
      | cons x v =>
        cases hv
        -- a part that is taken for a value leaves nothing for the second form
        rcases hp.cut s d v rfl with hfail | ⟨-, a', ha'⟩
        · exact .inl (hfail.bind f)
        · exact .inl (Fails.bind_right ha' (hnil a'))

/-- A form, and a reader after it that takes nothing there. -/
theorem bind_empty (hp : Takes more p w a) (hf : Takes more (f a) [] b) :
    Takes more (p >>= f) w b where
  run_append rest hrest := by
    rw [run_bind_ok (hp.run_append rest hrest)]
    exact hf.run_append rest hrest
  cut s c t hw := by
    rcases hp.cut s c t hw with hfail | ⟨hc, a', ha'⟩
    · exact .inl (hfail.bind f)
    · -- a part that was taken left nothing, and the second reader has to make do with that
      rcases fails_nil_or (f a') with hfail | ⟨b', hb'⟩
      · exact .inl (Fails.bind_right ha' hfail)
      · exact .inr ⟨hc, b', by rw [run_bind_ok ha', hb']⟩

theorem bind_nil (hp : Takes more p w a) (hf : ∀ s, (f a).run s = .ok (b, s)) :
    Takes more (p >>= f) w b :=
  hp.bind_empty (of_run_eq fun s _ => hf s)

theorem map (hp : Takes more p w a) (g : α → β) : Takes more (g <$> p) w (g a) :=
  hp.bind_nil fun _ => rfl

/-- A form of which a value is made. -/
theorem bind_ofOption {g : α → Option β} {e : ε} (hp : Takes more p w a) (hg : g a = some b) :
    Takes more (p >>= fun a => Reader.ofOption e (g a)) w b :=
  hp.bind_nil fun s => by
    rw [hg]
    rfl

/-- A reader that stops before a byte, and a form that begins with it. -/
theorem stop {c : UInt8} (hp : ∀ s, p.run (c :: s) = .ok (a, c :: s)) (hnil : (p >>= f).Fails [])
    (hf : Takes more (f a) (c :: w) b) : Takes more (p >>= f) (c :: w) b where
  run_append rest hrest := by
    rw [List.cons_append, run_bind_ok (hp _)]
    exact hf.run_append rest hrest
  cut s d t hw := by
    cases s with
    | nil => exact .inl hnil
    | cons x s =>
      -- what is cut still begins with the byte that stops the first reader
      have hx : c = x := (List.cons.inj hw).1
      subst hx
      rcases hf.cut (c :: s) d t hw with ⟨e, he⟩ | ⟨hd, b', hb'⟩
      · exact .inl ⟨e, by rw [run_bind_ok (hp s), he]⟩
      · exact .inr ⟨hd, b', by rw [run_bind_ok (hp s), hb']⟩

theorem peek {g : Option UInt8 → Reader ε α} {c : UInt8} (hg : Takes more (g (some c)) (c :: w) a)
    (hnil : (g none).Fails []) : Takes more (Reader.peek >>= g) (c :: w) a :=
  stop (fun _ => rfl) hnil hg

/-! ### Repetition -/

/-- As many closed forms as there are items. -/
theorem times {write : β → Bytes} {val : β → α} {xs : List β}
    (h : ∀ x ∈ xs, Takes closed p (write x) (val x)) :
    Takes closed (p.times xs.length) (xs.flatMap write) (xs.map val) := by
  -- along the items: one closed form, and those of the others after it
  induction xs with
  | nil => exact .pure []
  | cons x xs ih =>
    have hx := h x List.mem_cons_self
    have hxs := ih fun y hy => h y (List.mem_cons_of_mem x hy)
    exact hx.bind (hxs.map (val x :: ·))

/-- As many closed forms as there are values. -/
theorem times_self {write : α → Bytes} {as : List α} (h : ∀ a ∈ as, Takes closed p (write a) a) :
    Takes closed (p.times as.length) (as.flatMap write) as := by
  have hid : Takes closed (p.times as.length) (as.flatMap write) (as.map id) := times h
  rwa [List.map_id] at hid

section Loop

variable {step : σ → Reader ε (Turn σ α)} {h : ∀ st, (step st).Moves} {st st' : σ}
  {k : α → Reader ε β}

/-- A loop goes on after a closed form. -/
theorem loop_next (hstep : Takes closed (step st) w (.next st'))
    (hrest : Takes more (loop step h st') w' a) : Takes more (loop step h st) (w ++ w') a := by
  rw [loop_eq]
  exact hstep.bind hrest

theorem loop_done (hstep : Takes more (step st) w (.done a)) : Takes more (loop step h st) w a := by
  rw [loop_eq]
  exact hstep.bind_nil fun _ => rfl

/-- A loop with a closed form after it goes on after a form that the next byte ends. -/
theorem loop_bind_next {c : UInt8} (hstep : Takes more (step st) w (.next st'))
    (hc : more c = false) (hrest : Takes closed (loop step h st' >>= k) (c :: w') b)
    (hnil : ∀ st, (step st).Fails []) (hk : ∀ a, (k a).Fails []) :
    Takes closed (loop step h st >>= k) (w ++ c :: w') b := by
  rw [loop_eq, bind_assoc]
  -- after the step, whatever it says, the end of the input would be a fault
  refine hstep.bind_closed hrest hc fun t => ?_
  cases t with
  | next st' =>
    show (loop step h st' >>= k).Fails []
    rw [loop_eq]
    exact ((hnil st').bind _).bind _
  | done a => exact hk a

/-- A loop with a form after it is done before the first byte of the form. -/
theorem loop_bind_done {c : UInt8} (hstep : ∀ s, (step st).run (c :: s) = .ok (.done a, c :: s))
    (hnil : (step st).Fails []) (hk : Takes more (k a) (c :: w) b) :
    Takes more (loop step h st >>= k) (c :: w) b := by
  rw [loop_eq, bind_assoc]
  exact stop hstep (hnil.bind _) hk

end Loop

end Takes

/-! ### Refusing a form -/

/-- **A reader finds a fault in the bytes**, whatever comes after them. -/
def Refuses (p : Reader ε α) (w : Bytes) (e : ε) : Prop := ∀ rest, p.run (w ++ rest) = .error e

section Refuses

variable {more : UInt8 → Bool} {p : Reader ε α} {f : α → Reader ε β} {w w' : Bytes} {a : α} {e : ε}

theorem refuses_fail (e : ε) (w : Bytes) : (fail e : Reader ε α).Refuses w e := fun _ => rfl

namespace Refuses

/-- The fault is found in the bytes by themselves. -/
theorem run_self (h : p.Refuses w e) : p.run w = .error e := by
  have h0 := h []
  rwa [List.append_nil] at h0

/-- More bytes are refused as well, as they begin with those that are. -/
theorem append (h : p.Refuses w e) (w' : Bytes) : p.Refuses (w ++ w') e := by
  intro rest
  rw [List.append_assoc]
  exact h _

theorem bind (h : p.Refuses w e) (f : α → Reader ε β) : (p >>= f).Refuses w e :=
  fun rest => run_bind_error (h rest)

theorem map (h : p.Refuses w e) (g : α → β) : (g <$> p).Refuses w e := h.bind _

/-- A reader that stops before a byte, and bytes from there on that are refused. -/
theorem stop {c : UInt8} (hp : ∀ s, p.run (c :: s) = .ok (a, c :: s))
    (hf : (f a).Refuses (c :: w) e) : (p >>= f).Refuses (c :: w) e := by
  intro rest
  rw [List.cons_append, run_bind_ok (hp _)]
  exact hf rest

end Refuses

/-- A closed form, and bytes after it that are refused. -/
theorem Takes.bind_refuses (hp : Takes closed p w a) (hf : (f a).Refuses w' e) :
    (p >>= f).Refuses (w ++ w') e := by
  intro rest
  rw [List.append_assoc, run_bind_ok (hp.run_closed _)]
  exact hf rest

/-- A form, and bytes after it of which the first ends it, and that are refused. -/
theorem Takes.bind_refuses_cons {c : UInt8} (hp : Takes more p w a) (hc : more c = false)
    (hf : (f a).Refuses (c :: w') e) : (p >>= f).Refuses (w ++ c :: w') e := by
  intro rest
  rw [List.append_assoc, run_bind_ok (hp.run_append _ (by simpa using hc))]
  exact hf rest

end Refuses

end TwoTier.Reader
