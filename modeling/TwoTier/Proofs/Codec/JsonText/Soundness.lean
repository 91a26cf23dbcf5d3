import TwoTier.Proofs.Codec.JsonText.Skipping

/-!
# What is read of JSON text

Whatever a reader reads is a value of the grammar: numbers and strings (`number_sound`,
`textBody_sound`), scalars (`scalar_sound`), strict records and choices (`readsValue_record`,
`readsValue_choice`). Of the last two more is said: they are no numbers (`ReadsValue`), so that they
end by themselves.

Between brackets and braces, a reader goes from part to part by white space and commas, while the
grammar has a comma before each further part. `Continues` is what both say of the rest of a frame,
of which the first part is still to come or not; a row keeps to it in either form (`RowSound`).
-/

namespace TwoTier.JsonText

open Reader

variable {α β σ : Type} {s u r : Bytes}

/-! ### White space and first bytes -/

/-- Looking past white space leaves what comes after it. -/
theorem blanks_of_peekPastBlank {c? : Option UInt8} (h : peekPastBlank.run s = .ok (c?, u)) :
    Blanks s u ∧ c? = u.head? := by
  cases h
  exact ⟨run_takeWhile_dropWhile isBlank s, rfl⟩

/-- Looking past white space for a byte. -/
theorem run_peekPastBlank_bind {g : Option UInt8 → Reader Fault α} {a : α}
    (h : (peekPastBlank >>= g).run s = .ok (a, r)) (hnone : ∀ s, (g none).Fails s) :
    ∃ c t, Blanks s (c :: t) ∧ (g (some c)).run (c :: t) = .ok (a, r) := by
  obtain ⟨c?, u, hpeek, hg⟩ := run_bind_eq_ok.mp h
  obtain ⟨hs, rfl⟩ := blanks_of_peekPastBlank hpeek
  cases u with
  | nil =>
    obtain ⟨e, he⟩ := hnone []
    cases he.symm.trans hg
  | cons c t => exact ⟨c, t, hs, hg⟩

/-- A value begins with a byte past white space, which says what kind of value it is. -/
theorem run_start_bind {f : Start → Reader Fault α} {a : α}
    (h : (start >>= f).run s = .ok (a, r)) :
    ∃ c t, Blanks s (c :: t) ∧ (f (Start.of c)).run (c :: t) = .ok (a, r) := by
  rw [start, Reader.bind_assoc] at h
  exact run_peekPastBlank_bind h fun s => (fails_fail Fault.truncated s).bind f

/-- Only one byte begins a value of a given kind. -/
theorem eq_of_start {c : UInt8} :
    (Start.of c = .quote → c = Bytes.ascii '"') ∧
      (Start.of c = .bracket → c = Frame.array.opening) ∧
      (Start.of c = .brace → c = Frame.object.opening) := by
  -- each comparison of the byte either fails, or gives the byte
  unfold Start.of
  refine ⟨fun h => ?_, fun h => ?_, fun h => ?_⟩ <;>
  · repeat' split at h
    all_goals first | exact absurd h (by decide) | exact eq_of_beq ‹_›

/-! ### Numbers -/

/-- A digit with the run of digits after it. -/
theorem digits_of_span {c : UInt8} {ds : Bytes} (hc : isDigit c = true)
    (h : (span isDigit : Reader Fault Bytes).run s = .ok (ds, r)) : Digits (c :: s) r := by
  cases h
  exact .intro hc (run_takeWhile_dropWhile isDigit s)

/-- A run of digits that is not empty. -/
theorem digits_of_span_ne_nil {ds : Bytes}
    (h : (span isDigit : Reader Fault Bytes).run s = .ok (ds, r)) (hne : ¬ds.isEmpty = true) :
    Digits s r := by
  cases h
  cases s with
  | nil => exact absurd rfl hne
  | cons c s =>
    -- a run that begins with anything else would be empty
    by_cases hc : isDigit c = true
    · rw [List.dropWhile_cons_of_pos hc]
      exact .intro hc (run_takeWhile_dropWhile isDigit s)
    · rw [List.takeWhile_cons_of_neg hc] at hne
      exact absurd rfl hne

/-- The digits before a point: no further digit comes after a leading zero. -/
theorem whole_sound {ds : Bytes} (h : whole.run s = .ok (ds, r)) : Whole s r := by
  obtain ⟨c, t, hbyte, hdigits⟩ := run_bind_eq_ok.mp h
  obtain rfl := run_byte_eq_ok.mp hbyte
  split at hdigits
  · next hc =>
    obtain ⟨ds, u, hspan, hleading⟩ := run_bind_eq_ok.mp hdigits
    split at hleading
    · cases hleading
    · next hzero =>
      cases hleading
      by_cases h0 : c = Bytes.ascii '0'
      · -- no digit comes after a leading zero
        subst h0
        have hds : ds = [] := by simpa using hzero
        cases hspan
        have ht : t.takeWhile isDigit ++ t.dropWhile isDigit = t :=
          List.takeWhile_append_dropWhile
        rw [hds, List.nil_append] at ht
        rw [ht]
        exact .zero t
      · -- any other digit may be followed by more
        exact .digits h0 (digits_of_span hc hspan)
  · cases hdigits

/-- The digits after a point are some, or the point is missing too. -/
theorem fraction_sound {ds? : Option Bytes} (h : fraction.run s = .ok (ds?, r)) :
    Fraction s r := by
  obtain ⟨c?, u, hpeek, hrest⟩ := run_bind_eq_ok.mp h
  cases hpeek
  split at hrest
  · next hpoint =>
    obtain ⟨b, t, hbyte, hdigits⟩ := run_bind_eq_ok.mp hrest
    obtain rfl := run_byte_eq_ok.mp hbyte
    obtain rfl : b = Bytes.ascii '.' := by simpa using hpoint
    obtain ⟨ds, v, hspan, hdone⟩ := run_bind_eq_ok.mp hdigits
    -- a point without digits is refused
    split at hdone
    · obtain ⟨c?, w, hpeek, hdone⟩ := run_bind_eq_ok.mp hdone
      cases c? <;> cases hdone
    · next hne =>
      cases hdone
      exact .present (digits_of_span_ne_nil hspan hne)
  · cases hrest
    exact .absent _

/-- The exponent, with a sign or without, or none. -/
theorem exponent_sound {e? : Option Int} (h : exponent.run s = .ok (e?, r)) : Exponent s r := by
  -- what is read after the sign
  have hdigits {u : Bytes} {negative : Bool} (h : (do
      let first ← byte Fault.truncated
      if isDigit first then
        let ds ← span isDigit
        let n : Int := digitsValue (first :: ds)
        pure (some (if negative then -n else n))
      else fail .malformed).run u = .ok (e?, r)) : Digits u r := by
    obtain ⟨c, t, hbyte, hspan⟩ := run_bind_eq_ok.mp h
    obtain rfl := run_byte_eq_ok.mp hbyte
    split at hspan
    · next hc =>
      obtain ⟨ds, v, hspan, hdone⟩ := run_bind_eq_ok.mp hspan
      cases hdone
      exact digits_of_span hc hspan
    · cases hspan
  -- the letter, and after it the sign; only where there is a letter
  obtain ⟨c?, u, hpeek, hrest⟩ := run_bind_eq_ok.mp h
  cases hpeek
  split at hrest
  · next hmark =>
    obtain ⟨b, t, hbyte, hsigned⟩ := run_bind_eq_ok.mp hrest
    obtain rfl := run_byte_eq_ok.mp hbyte
    have hb : b = Bytes.ascii 'e' ∨ b = Bytes.ascii 'E' := by simpa using hmark
    obtain ⟨sign, u, hpeek, hrest'⟩ := run_bind_eq_ok.mp hsigned
    cases hpeek
    dsimp only at hrest'
    split at hrest'
    · next hsign =>
      obtain ⟨c, v, hbyte', hlast⟩ := run_bind_eq_ok.mp hrest'
      obtain rfl := run_byte_eq_ok.mp hbyte'
      have hc : c = Bytes.ascii '-' ∨ c = Bytes.ascii '+' := by simpa using hsign
      rcases hc with rfl | rfl
      · exact .present hb (.minus v) (hdigits hlast)
      · exact .present hb (.plus v) (hdigits hlast)
    · exact .present hb (.absent t) (hdigits hrest')
  · cases hrest
    exact .absent _

/-- **What is read of a number is one**, sign, digits, fraction and exponent. -/
theorem number_sound {n : Number} (h : number.run s = .ok (n, r)) : Numeral s r := by
  -- what is read after the sign
  have hparts {u : Bytes} {negative : Bool} (h : (do
      let ds ← whole
      let f ← fraction
      let e ← exponent
      ofExcept (Number.ofParts negative ds f e)).run u = .ok (n, r)) :
      ∃ s₂ s₃, Whole u s₂ ∧ Fraction s₂ s₃ ∧ Exponent s₃ r := by
    obtain ⟨ds, s₂, hwhole, h⟩ := run_bind_eq_ok.mp h
    obtain ⟨f, s₃, hfraction, h⟩ := run_bind_eq_ok.mp h
    obtain ⟨e, s₄, hexponent, h⟩ := run_bind_eq_ok.mp h
    -- whether the parts make a number that is kept does not change what was read
    have hr : s₄ = r := by
      cases hn : Number.ofParts negative ds f e with
      | error e =>
        rw [hn] at h
        cases h
      | ok m =>
        rw [hn] at h
        cases h
        rfl
    rw [← hr]
    exact ⟨s₂, s₃, whole_sound hwhole, fraction_sound hfraction, exponent_sound hexponent⟩
  obtain ⟨c?, u, hpeek, hrest⟩ := run_bind_eq_ok.mp h
  cases hpeek
  dsimp only at hrest
  split at hrest
  · next hminus =>
    obtain ⟨b, t, hbyte, hrest⟩ := run_bind_eq_ok.mp hrest
    obtain rfl := run_byte_eq_ok.mp hbyte
    obtain rfl : b = Bytes.ascii '-' := by simpa using hminus
    obtain ⟨s₂, s₃, hparts⟩ := hparts hrest
    exact ⟨t, s₂, s₃, .present t, hparts⟩
  · obtain ⟨s₂, s₃, hparts⟩ := hparts hrest
    exact ⟨s, s₂, s₃, .absent s, hparts⟩

/-! ### Strings -/

/-- Four digits that were read are hexadecimal. -/
theorem hexFour_sound {n : Nat} (h : hexFour.run s = .ok (n, r)) :
    ∃ ds, s = ds ++ r ∧ ds.length = 4 ∧ ∀ d ∈ ds, (hexValue? d).isSome = true := by
  obtain ⟨ds, u, htake, hnumber⟩ := run_bind_eq_ok.mp h
  obtain ⟨hn, rfl⟩ := run_ofOption_eq_ok.mp hnumber
  unfold take at htake
  dsimp only at htake
  split at htake
  · next hlen =>
    cases htake
    refine ⟨s.take 4, (List.take_append_drop 4 s).symm, List.length_take_of_le hlen, ?_⟩
    exact hexNumber?_isSome.mp (by rw [hn]; rfl)
  · cases htake

/-- A fixed word that was read stands there. -/
theorem exactly_sound : {w s r : Bytes} → (exactly w).run s = .ok ((), r) → s = w ++ r
  | [], s, r, h => by
    cases h
    rfl
  | b :: w, s, r, h => by
    -- along the word
    obtain ⟨c, t, hbyte, hrest⟩ := run_bind_eq_ok.mp h
    obtain rfl := run_byte_eq_ok.mp hbyte
    split at hrest
    · next hc =>
      rw [eq_of_beq hc, exactly_sound hrest]
      rfl
    · cases hrest

/-- An escape that is read for a character, with what is a string after it. -/
theorem escape_sound {b q : Bytes} (h : escape.run s = .ok (b, u)) (hq : Chars u q) :
    Chars (Bytes.ascii '\\' :: s) q := by
  obtain ⟨c, t, hbyte, hrest⟩ := run_bind_eq_ok.mp h
  obtain rfl := run_byte_eq_ok.mp hbyte
  -- an escape of one letter is told from that letter
  have hshort {x : Bytes} (hc : c ∈ shortEscapes) (hx : (pure x : Reader Fault Bytes).run t =
      .ok (b, u)) : Chars (Bytes.ascii '\\' :: c :: t) q := by
    cases hx
    exact .short hc hq
  split at hrest
  · next hc =>
    refine hshort ?_ hrest
    simp only [Bool.or_eq_true, beq_iff_eq] at hc
    rcases hc with (rfl | rfl) | rfl <;> decide
  -- five more of them, each for one control character
  iterate 5
    split at hrest
    · next hc =>
      refine hshort ?_ hrest
      rw [eq_of_beq hc]
      decide
  split at hrest
  · next hc =>
    obtain rfl := eq_of_beq hc
    obtain ⟨n, v, hfour, hcode⟩ := run_bind_eq_ok.mp hrest
    -- four digits; a code of its own, or the first of a pair
    obtain ⟨ds, rfl, hlen, hds⟩ := hexFour_sound hfour
    split at hcode
    · cases hcode
    split at hcode
    · cases hcode
      exact .code hlen hds hq
    · -- the other surrogate of a pair
      obtain ⟨_, v', hexact, hpair⟩ := run_bind_eq_ok.mp hcode
      obtain rfl := exactly_sound hexact
      obtain ⟨m, v'', hfour', hdone⟩ := run_bind_eq_ok.mp hpair
      obtain ⟨ds', rfl, hlen', hds'⟩ := hexFour_sound hfour'
      split at hdone
      · cases hdone
      · rw [run_pure] at hdone
        obtain ⟨-, rfl⟩ := Prod.mk.inj (Except.ok.inj hdone)
        have hsecond : Chars (Bytes.ascii '\\' :: Bytes.ascii 'u' :: (ds' ++ v'')) q :=
          .code hlen' hds' hq
        exact .code hlen hds hsecond
  · cases hrest

/-- A step through a string that goes on, with what is a string after it. -/
theorem textStep_sound {sofar : Bytes} {turn : Turn Bytes Bytes}
    (h : (textStep escape sofar).run s = .ok (turn, u)) :
    match turn with
    | .next _ => ∀ q, Chars u q → Chars s q
    | .done _ => Chars s u := by
  -- the quote ends the string, a backslash begins an escape, and of other bytes only control
  -- characters are refused
  obtain ⟨c, t, hbyte, hrest⟩ := run_bind_eq_ok.mp h
  obtain rfl := run_byte_eq_ok.mp hbyte
  split at hrest
  · next hc =>
    obtain rfl := eq_of_beq hc
    cases hrest
    exact .quote _
  split at hrest
  · next hc =>
    obtain rfl := eq_of_beq hc
    obtain ⟨b, v, hescape, hdone⟩ := run_bind_eq_ok.mp hrest
    cases hdone
    exact fun q => escape_sound hescape
  split at hrest
  · cases hrest
  · next hquote hslash hcontrol =>
    cases hrest
    exact fun q => .plain ⟨by simpa using hquote, by simpa using hslash, hcontrol⟩

/-- **What is read of a text is a string**, from after its opening quote. -/
theorem textBody_sound {text : String} (h : textBody.run s = .ok (text, r)) : Chars s r := by
  obtain ⟨b, u, hloop, hdone⟩ := run_bind_eq_ok.mp h
  obtain ⟨-, rfl⟩ := run_ofOption_eq_ok.mp hdone
  -- along the steps of the loop, from its end
  refine loop_induction (motive := fun _ s _ r => Chars s r) ?_ ?_ hloop
  · exact fun _ _ _ _ hstep => textStep_sound hstep
  · exact fun _ _ _ _ _ _ hstep _ ih => textStep_sound hstep _ ih

/-! ### Scalars -/

/-- What is read of a scalar is a value. -/
theorem scalarAt_sound {c : UInt8} {v : Scalar}
    (h : (scalarAt (Start.of c)).run (c :: s) = .ok (v, r)) : Value (c :: s) r := by
  obtain ⟨hquote, -, -⟩ := eq_of_start (c := c)
  generalize hst : Start.of c = st at h
  -- a fixed word stands there whole
  have hword {w : String} {a : Scalar} (hw : w ∈ ["null", "true", "false"])
      (h : (do exactly (Bytes.ofText w); pure a).run (c :: s) = .ok (v, r)) : Value (c :: s) r := by
    obtain ⟨_, u, hexact, hdone⟩ := run_bind_eq_ok.mp h
    cases hdone
    rw [exactly_sound hexact]
    exact .word hw r
  cases st with
  | nullWord => exact hword (w := "null") (by decide) h
  | trueWord => exact hword (w := "true") (by decide) h
  | falseWord => exact hword (w := "false") (by decide) h
  | number =>
    obtain ⟨n, u, hnumber, hdone⟩ := run_bind_eq_ok.mp h
    cases hdone
    exact .number (number_sound hnumber)
  | quote =>
    obtain ⟨b, t, hbyte, hrest⟩ := run_bind_eq_ok.mp h
    cases hbyte
    obtain ⟨text, u, htext, hdone⟩ := run_bind_eq_ok.mp hrest
    cases hdone
    rw [hquote hst]
    exact .text (textBody_sound htext)
  | bracket | brace | other => cases h

/-- **What is read of a scalar is a value**, with the white space before it. -/
theorem scalar_sound {accept : Scalar → Option α} {a : α}
    (h : (scalar accept).run s = .ok (a, r)) : Value s r := by
  obtain ⟨c, t, hs, hscalar⟩ := run_start_bind h
  obtain ⟨v, u, hv, hdone⟩ := run_bind_eq_ok.mp hscalar
  obtain ⟨-, rfl⟩ := run_ofOption_eq_ok.mp hdone
  exact .of_blanks hs (scalarAt_sound hv)

/-! ### Arrays and objects -/

/-- White space up to the first part, or a comma with white space around it up to another part. -/
def Reaches (first : Bool) (s u : Bytes) : Prop :=
  if first then Blanks s u else ∃ t, Blanks s (Bytes.ascii ',' :: t) ∧ Blanks t u

/-- What stands in an array or object from its first part on, or after a part. -/
def Continues (f : Frame) (first : Bool) (s r : Bytes) : Prop :=
  if first then Blanks s (f.close :: r) ∨ Parts f s r else Tail f s r

section Frames

variable {f : Frame} {first : Bool}

/-- White space before the first part belongs to the frame. -/
theorem Parts.of_blanks (hs : Blanks s u) (h : Parts f u r) : Parts f s r := by
  obtain ⟨hlabel, hv, htail⟩ := h
  cases hlabel with
  | array => exact .part (.array s) (hv.of_blanks hs) htail
  | object hk hchars hc => exact .part (.object (hs.trans hk) hchars hc) hv htail

/-- A frame may end where its closing byte comes. -/
theorem Continues.close (h : Blanks s (f.close :: r)) : Continues f first s r := by
  cases first with
  | true => exact .inl h
  | false => exact Tail.close h

/-- A frame goes on where a part comes, after a comma if it is not the first. -/
theorem Continues.parts (hs : Reaches first s u) (h : Parts f u r) : Continues f first s r := by
  cases first with
  | true => exact .inr (h.of_blanks hs)
  | false =>
    obtain ⟨t, hcomma, ht⟩ := hs
    exact Tail.comma hcomma (h.of_blanks ht)

/-- White space makes no difference to how a frame goes on. -/
theorem Continues.of_blanks (hs : Blanks s u) (h : Continues f first u r) :
    Continues f first s r := by
  cases first with
  | true => exact h.imp hs.trans (Parts.of_blanks hs)
  | false =>
    cases h with
    | close h => exact Tail.close (hs.trans h)
    | comma hcomma h => exact Tail.comma (hs.trans hcomma) h

theorem Continues.value (h : Continues f true s r) : Value (f.opening :: s) r :=
  h.elim (.empty f) (.parts f)

/-- A closing byte that was read stands past white space. -/
theorem closing_sound {c : Char} (h : (closing c).run s = .ok ((), r)) :
    Blanks s (Bytes.ascii c :: r) := by
  obtain ⟨b, t, hs, hclose⟩ := run_peekPastBlank_bind h (fails_fail Fault.truncated)
  dsimp only at hclose
  split at hclose
  · next hb =>
    obtain ⟨x, u, hbyte, hdone⟩ := run_bind_eq_ok.mp hclose
    cases hbyte
    cases hdone
    rwa [eq_of_beq hb] at hs
  · cases hclose

/-- What is between an opening and a closing byte makes a value. -/
theorem framed_sound {c : Char} (hc : f.close = Bytes.ascii c) {budget : Nat}
    {p : Nat → Reader Fault α} {a : α}
    (hp : ∀ d s a u, (p d).run s = .ok (a, u) → ∀ r, Blanks u (f.close :: r) →
      Continues f true s r)
    (h : (within budget fun d => do
      let _ ← byte .truncated
      let a ← p d
      closing c
      pure a).run (f.opening :: s) = .ok (a, r)) : Value (f.opening :: s) r := by
  cases budget with
  | zero => cases h
  | succ d =>
    -- the opening byte, what is inside, and the closing byte
    obtain ⟨x, t, hbyte, hinside⟩ := run_bind_eq_ok.mp h
    cases hbyte
    obtain ⟨b, u, hb, hclosing⟩ := run_bind_eq_ok.mp hinside
    obtain ⟨_, v, hclose, hdone⟩ := run_bind_eq_ok.mp hclosing
    cases hdone
    exact (hp d s a u hb _ (by rw [hc]; exact closing_sound hclose)).value

end Frames

/-- A comma that was read has white space after it, and an item to come. -/
theorem itemComma_sound (h : itemComma.run s = .ok ((), u)) :
    ∃ c t, s = c :: t ∧ Blanks t u := by
  obtain ⟨c, t, hbyte, hrest⟩ := run_bind_eq_ok.mp h
  obtain ⟨b, v, ht, hdone⟩ := run_peekPastBlank_bind hrest (fails_fail Fault.truncated)
  dsimp only at hdone
  split at hdone
  · cases hdone
  · cases hdone
    exact ⟨c, t, run_byte_eq_ok.mp hbyte, ht⟩

/-- **Whether an array goes on**: it ends past white space, or an item is reached by white space or
a comma. -/
theorem another_sound {first : Bool} {st? : Option Bool}
    (h : (another first).run s = .ok (st?, u)) :
    st? = none ∧ Blanks s u ∨ st? = some false ∧ Reaches first s u := by
  obtain ⟨c, t, hs, hrest⟩ := run_peekPastBlank_bind h (fails_fail Fault.truncated)
  dsimp only at hrest
  -- the closing bracket, the first item, a comma, or something else
  split at hrest
  · cases hrest
    exact .inl ⟨rfl, hs⟩
  split at hrest
  · next hfirst =>
    cases hrest
    rw [hfirst]
    exact .inr ⟨rfl, hs⟩
  split at hrest
  · next hfirst hcomma =>
    obtain ⟨_, v, hitem, hdone⟩ := run_bind_eq_ok.mp hrest
    cases hdone
    obtain ⟨c', t', heq, ht⟩ := itemComma_sound hitem
    cases heq
    rw [eq_of_beq hcomma] at hs
    rw [Reaches, if_neg hfirst]
    exact .inr ⟨rfl, t, hs, ht⟩
  · cases hrest

/-- **Whether an object goes on**: it ends past white space, or the quote of a name is reached by
white space or a comma. -/
theorem anotherKey_sound {first more : Bool} (h : (anotherKey first).run s = .ok (more, u)) :
    if more then Reaches first s u ∧ ∃ t, u = Bytes.ascii '"' :: t else Blanks s u := by
  obtain ⟨c, t, hs, hrest⟩ := run_peekPastBlank_bind h (fails_fail Fault.truncated)
  dsimp only at hrest
  -- the closing brace, the first name, a comma before a name, or something else
  split at hrest
  · cases hrest
    exact hs
  split at hrest
  · next hfirst =>
    split at hrest
    · next hquote =>
      cases hrest
      rw [hfirst, if_pos rfl]
      exact ⟨hs, t, by rw [eq_of_beq hquote]⟩
    · cases hrest
  split at hrest
  · next hfirst hcomma =>
    obtain ⟨x, t', hbyte, hafter⟩ := run_bind_eq_ok.mp hrest
    cases hbyte
    obtain ⟨d, v, ht, hkey⟩ := run_peekPastBlank_bind hafter (fails_fail Fault.truncated)
    dsimp only at hkey
    split at hkey
    · next hquote =>
      cases hkey
      rw [eq_of_beq hcomma] at hs
      rw [if_pos rfl, Reaches, if_neg hfirst]
      exact ⟨⟨t, hs, ht⟩, v, by rw [eq_of_beq hquote]⟩
    · cases hkey
  · cases hrest

/-- What the step of an entry reads is a colon and a value. -/
def ReadsEntry (p : Reader Fault σ) : Prop :=
  ∀ s st r, p.run s = .ok (st, r) → ∃ v, Blanks s (Bytes.ascii ':' :: v) ∧ Value v r

/-- **The entries of an object** that were read go on from its first part to its closing brace. -/
theorem entries_sound {step : σ → String → Reader Fault σ}
    (hstep : ∀ st k, ReadsEntry (step st k)) {st a : σ} (h : (entries step st).run s = .ok (a, u))
    (hu : Blanks u (Frame.object.close :: r)) : Continues .object true s r := by
  -- from the last step back: after it the object closes, and each step before puts a part in front
  refine loop_induction (motive := fun st s _ u => Blanks u (Frame.object.close :: r) →
    Continues .object st.1 s r) ?_ ?_ h hu
  · intro st s a u hdone hu
    obtain ⟨more, v, hkey, hrest⟩ := run_bind_eq_ok.mp hdone
    have hreach := anotherKey_sound hkey
    cases more with
    | false =>
      cases hrest
      exact .close (hreach.trans hu)
    | true =>
      obtain ⟨k, w, -, hentry⟩ := run_bind_eq_ok.mp hrest
      -- a step that read an entry is not the last
      obtain ⟨st', w', -, hnext⟩ := run_bind_eq_ok.mp hentry
      cases hnext
  · intro st s st' s' a u hnext _ ih hu
    obtain ⟨more, v, hkey, hrest⟩ := run_bind_eq_ok.mp hnext
    have hreach := anotherKey_sound hkey
    cases more with
    | false => cases hrest
    | true =>
      obtain ⟨hs, t, rfl⟩ := hreach
      obtain ⟨k, w, hquoted, hentry⟩ := run_bind_eq_ok.mp hrest
      obtain ⟨x, t', hbyte, htext⟩ := run_bind_eq_ok.mp hquoted
      cases hbyte
      obtain ⟨st'', w', hvalue, hdone⟩ := run_bind_eq_ok.mp hentry
      cases hdone
      obtain ⟨v, hcolon, hv⟩ := hstep _ k _ _ _ hvalue
      exact .parts hs (.part (.object (.nil _) (textBody_sound htext) hcolon) hv (ih hu))

/-! ### Records and choices -/

/-- **What a row reads** are values: one after the other in brackets, or each after its key. -/
structure RowSound {S : Type} (row : Row Fault Bool α S) : Prop where
  inOrder : ∀ first s x u, (row.inOrder first).run s = .ok (x, u) →
    ∀ r, Blanks u (Frame.array.close :: r) → Continues .array first s r
  fill : ∀ k slots p, row.fill? k slots = some p → ReadsEntry p

/-- A row without fields reads nothing, so the frame closes where it is. -/
theorem RowSound.nil : RowSound (Row.nil : Row Fault Bool Unit Unit) where
  inOrder _ _ _ _ h _ hu := by
    cases h
    exact .close hu
  fill _ _ _ h := nomatch h

/-- Another field is a part in front of what the others read, or nothing where the array has ended.
-/
theorem RowSound.cons {S : Type} {name : String} {fallback : Option α} {value : Reader Fault α}
    {rest : Row Fault Bool β S} (hvalue : ∀ s a r, value.run s = .ok (a, r) → Value s r)
    (hrest : RowSound rest) : RowSound (Row.cons rowStyle name fallback value rest) where
  inOrder first s x u h r hu := by
    obtain ⟨⟨a, st⟩, v, hitem, hafter⟩ := run_bind_eq_ok.mp h
    obtain ⟨⟨b, st'⟩, v', hinOrder, hdone⟩ := run_bind_eq_ok.mp hafter
    cases hdone
    have htail := hrest.inOrder _ _ _ _ hinOrder r hu
    obtain ⟨st?, w, hanother, hread⟩ := run_bind_eq_ok.mp hitem
    rcases another_sound hanother with ⟨rfl, hs⟩ | ⟨rfl, hs⟩
    · -- no more items: the fallback
      obtain ⟨a', w', hfallback, hdone⟩ := run_bind_eq_ok.mp hread
      obtain ⟨-, rfl⟩ := run_ofOption_eq_ok.mp hfallback
      cases hdone
      exact htail.of_blanks hs
    · obtain ⟨a', w', hv, hdone⟩ := run_bind_eq_ok.mp hread
      cases hdone
      exact .parts hs (.part (.array _) (hvalue _ _ _ hv) htail)
  fill k slots p h := by
    intro s st r hp
    -- a field that comes twice is refused, the first field is a value, and of the others this is
    -- known
    rcases Row.fill?_cons_eq_some h with rfl | rfl | ⟨q, hq, rfl⟩
    · cases hp
    · obtain ⟨_, u, hcolon, hread⟩ := run_bind_eq_ok.mp hp
      obtain ⟨a, v, hv, hdone⟩ := run_bind_eq_ok.mp hread
      cases hdone
      exact ⟨u, closing_sound hcolon, hvalue _ _ _ hv⟩
    · obtain ⟨slots', u, hfill, hdone⟩ := run_bind_eq_ok.mp hp
      cases hdone
      exact hrest.fill k _ q hq _ _ _ hfill

/-- What a reader reads is a value, and no number. -/
def ReadsValue (p : Reader Fault α) : Prop :=
  ∀ s a r, p.run s = .ok (a, r) → Value s r ∧ ¬Bare s

/-- A value with any other first byte is no number, as there is only one first byte past white
space. -/
theorem not_bare {c : UInt8} (hs : Blanks s (c :: u)) (hc : Starts c)
    (hne : Start.of c ≠ .number) : ¬Bare s := by
  rintro ⟨d, t, hs', hd⟩
  have hd' : Starts d := by
    rw [Starts, hd]
    decide
  have hpeek := (run_peekPastBlank_cons hs hc.not_blank).symm.trans
    (run_peekPastBlank_cons hs' hd'.not_blank)
  cases hpeek
  exact hne hd

/-- A strict record. -/
theorem readsValue_record {fs : Fields α} {budget : Nat}
    {row : Nat → Row Fault Bool α fs.Slots} (hrow : ∀ d, RowSound (row d)) (make : α → Option β) :
    ReadsValue (record true fs budget row make) := by
  intro s b r h
  obtain ⟨c, t, hs, hrecord⟩ := run_start_bind h
  obtain ⟨-, hbracket, hbrace⟩ := eq_of_start (c := c)
  generalize hst : Start.of c = st at hrecord
  cases st with
  | bracket =>
    -- an array of fields
    obtain rfl := hbracket hst
    refine ⟨.of_blanks hs (framed_sound (c := ']') rfl (fun d s b u h r hu => ?_) hrecord),
      not_bare hs (by decide) (by decide)⟩
    obtain ⟨x, v, hinOrder, hmake⟩ := run_bind_eq_ok.mp h
    obtain ⟨-, rfl⟩ := run_ofOption_eq_ok.mp hmake
    exact (hrow d).inOrder _ _ _ _ hinOrder r hu
  | brace =>
    -- an object of fields, under names that the record has
    obtain rfl := hbrace hst
    refine ⟨.of_blanks hs (framed_sound (c := '\x7d') rfl (fun d s b u h r hu => ?_) hrecord),
      not_bare hs (by decide) (by decide)⟩
    obtain ⟨slots, v, hentries, hmake⟩ := run_bind_eq_ok.mp h
    obtain ⟨-, rfl⟩ := run_ofOption_eq_ok.mp hmake
    refine entries_sound (fun slots k => ?_) hentries hu
    unfold recordEntry
    split
    · next p hp => exact (hrow d).fill k slots p hp
    · intro s st r hfail
      cases hfail
  | _ =>
    obtain ⟨v, u, -, hfail⟩ := run_bind_eq_ok.mp hrecord
    cases hfail

/-- The name of a choice, in quotes. -/
theorem chosen_sound {names : List String} {c : UInt8} {i : Fin names.length}
    (h : (chosen names (Start.of c)).run (c :: s) = .ok (i, r)) :
    c = Bytes.ascii '"' ∧ Chars s r := by
  obtain ⟨hquote, -, -⟩ := eq_of_start (c := c)
  generalize hst : Start.of c = st at h
  cases st with
  | quote =>
    obtain ⟨k, u, hquoted, hpick⟩ := run_bind_eq_ok.mp h
    obtain ⟨-, rfl⟩ := run_ofOption_eq_ok.mp hpick
    obtain ⟨x, t, hbyte, htext⟩ := run_bind_eq_ok.mp hquoted
    cases hbyte
    exact ⟨hquote hst, textBody_sound htext⟩
  | _ => cases h

/-- **A choice is a value and no number**: a text, or an object of one entry. -/
theorem readsValue_choice (budget : Nat) (names : List String) :
    ReadsValue (choice budget names) := by
  intro s i r h
  obtain ⟨c, t, hs, hchoice⟩ := run_start_bind h
  obtain ⟨-, -, hbrace⟩ := eq_of_start (c := c)
  generalize hst : Start.of c = st at hchoice
  cases st with
  | brace =>
    -- the only entry is the name of the choice, with a value that says nothing
    obtain rfl := hbrace hst
    refine ⟨.of_blanks hs (framed_sound (c := '\x7d') rfl (fun d s b u h r hu => ?_) hchoice),
      not_bare hs (by decide) (by decide)⟩
    obtain ⟨c', t', hs', hname⟩ := run_start_bind h
    obtain ⟨j, v, hchosen, hafter⟩ := run_bind_eq_ok.mp hname
    obtain ⟨rfl, hchars⟩ := chosen_sound hchosen
    obtain ⟨_, v', hcolon, hnull⟩ := run_bind_eq_ok.mp hafter
    obtain ⟨_, v'', hscalar, hdone⟩ := run_bind_eq_ok.mp hnull
    cases hdone
    exact .inr (.part (.object hs' hchars (closing_sound hcolon)) (scalar_sound hscalar)
      (.close hu))
  | _ =>
    have hchosen : (chosen names (Start.of c)).run (c :: t) = .ok (i, r) := by
      rw [hst]
      exact hchoice
    obtain ⟨rfl, hchars⟩ := chosen_sound hchosen
    exact ⟨.of_blanks hs (.text hchars), not_bare hs (by decide) (by decide)⟩

end TwoTier.JsonText
