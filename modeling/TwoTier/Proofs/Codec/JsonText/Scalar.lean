import TwoTier.Proofs.Codec.JsonText.Number

/-!
# Scalars in JSON text

What is written of a scalar begins with a byte that tells what it is, and is not white space; so the
readers go straight to it (`takes_start`, `takes_scalar`). Words and strings are closed forms, while
digits may go on (`goesOn`).

A string is read back byte by byte (`takes_textStep`): what is written of a byte is the byte itself,
or an escape that stands for it (`escapeByte_cases`). The bytes gathered in this way are those of
the string, and so they are UTF-8 (`takes_textBody`).
-/

namespace TwoTier.JsonText

open Reader

variable {α : Type} {more : UInt8 → Bool} {w : Bytes} {a : α} {c : UInt8}

/-! ### First bytes -/

/-- A value may begin with the byte. -/
def Starts (c : UInt8) : Prop := Start.of c ≠ .other

instance (c : UInt8) : Decidable (Starts c) := inferInstanceAs (Decidable (_ ≠ _))

/-- White space begins no value. -/
theorem Starts.not_blank (h : Starts c) : isBlank c = false := by
  cases hc : isBlank c with
  | false => rfl
  | true =>
    simp only [isBlank, Bool.or_eq_true, beq_iff_eq] at hc
    rcases hc with ((rfl | rfl) | rfl) | rfl <;> exact absurd rfl h

/-- Where there is no white space, looking past it finds the next byte. -/
theorem run_peekPastBlank (hc : isBlank c = false) (s : Bytes) :
    peekPastBlank.run (c :: s) = .ok (some c, c :: s) := by
  have hc' : ¬ isBlank c = true := by rw [hc]; exact Bool.false_ne_true
  simp only [peekPastBlank, run_bind, run_span, List.takeWhile_cons_of_neg hc',
    List.dropWhile_cons_of_neg hc', run_peek, List.head?_cons]

/-- Where there is no white space, the next byte is the first one. -/
theorem takes_peekPastBlank {f : Option UInt8 → Reader Fault α} (hc : isBlank c = false)
    (hnil : (f none).Fails []) (h : Takes more (f (some c)) (c :: w) a) :
    Takes more (peekPastBlank >>= f) (c :: w) a :=
  .stop (run_peekPastBlank hc) hnil h

/-- What is read of a value depends on its first byte. -/
theorem takes_start {f : Start → Reader Fault α} (hc : Starts c)
    (h : Takes more (f (Start.of c)) (c :: w) a) : Takes more (start >>= f) (c :: w) a := by
  refine .stop (fun s => ?_) ⟨.truncated, rfl⟩ h
  rw [start, run_bind_ok (run_peekPastBlank hc.not_blank s)]
  rfl

/-- A scalar is read by its first byte, and then accepted or not. -/
theorem takes_scalar {v : Scalar} {accept : Scalar → Option α} (hc : Starts c)
    (h : Takes more (scalarAt (Start.of c)) (c :: w) v) (ha : accept v = some a) :
    Takes more (scalar accept) (c :: w) a :=
  takes_start hc (h.bind_ofOption ha)

/-! ### Words -/

/-- A fixed word is a closed form. -/
theorem takes_exactly : (w : Bytes) → Takes closed (exactly w) w ()
  | [] => .pure ()
  | b :: w => by
    -- along the word: each byte is the one that is looked for
    refine (Takes.byte Fault.truncated b).bind ?_
    rw [if_pos (beq_self_eq_true b)]
    exact takes_exactly w

theorem takes_null : Takes closed (scalarAt .nullWord) (Bytes.ofText "null") .null :=
  (takes_exactly _).bind_nil fun _ => rfl

theorem takes_true : Takes closed (scalarAt .trueWord) (Bytes.ofText "true") (.bool true) :=
  (takes_exactly _).bind_nil fun _ => rfl

theorem takes_false : Takes closed (scalarAt .falseWord) (Bytes.ofText "false") (.bool false) :=
  (takes_exactly _).bind_nil fun _ => rfl

/-! ### Strings -/

theorem hexNumber?_eq {n : Nat} (h : n < 0x20) :
    hexNumber? [0x30, 0x30, hexDigit (n / 16), hexDigit (n % 16)] = some n := by
  decide +revert

theorem codeBytes_eq {n : Nat} (h : n < 0x20) : codeBytes n = [UInt8.ofNat n] := by
  decide +revert

/-- The bytes `w` after a backslash stand for the byte `x`. -/
structure Escapes (w : Bytes) (x : UInt8) : Prop where
  takes : Takes closed escape w [x]
  takes_skip : Takes closed skipEscape w []

/-- **Control characters** without an escape of one letter have one of four digits. -/
theorem escapes_control {x : UInt8} (h : x < 0x20) :
    Escapes [0x75, 0x30, 0x30, hexDigit (x.toNat / 16), hexDigit (x.toNat % 16)] x := by
  have hx : x.toNat < 0x20 := UInt8.lt_iff_toNat_lt.mp h
  -- the digits make the number of the byte, which is no surrogate
  have hfour : Takes closed hexFour
      [0x30, 0x30, hexDigit (x.toNat / 16), hexDigit (x.toNat % 16)] x.toNat :=
    (Takes.take Fault.truncated rfl).bind_ofOption (hexNumber?_eq hx)
  constructor
  · refine (Takes.byte Fault.truncated 0x75).bind (hfour.bind_nil fun s => ?_)
    rw [if_neg (by simp; omega), if_pos (by simp; omega), codeBytes_eq hx, UInt8.ofNat_toNat]
    rfl
  · exact (Takes.byte Fault.truncated 0x75).bind (hfour.bind_nil fun s => rfl)

/-- The escapes of one byte. -/
theorem escapes_short {c x : UInt8}
    (h : (c, x) ∈ [(0x22, 0x22), (0x5c, 0x5c), (0x62, 0x08), (0x66, 0x0c), (0x6e, 0x0a),
      (0x72, 0x0d), (0x74, (0x09 : UInt8))]) : Escapes [c] x := by
  simp only [List.mem_cons, Prod.mk.injEq, List.not_mem_nil, or_false] at h
  rcases h with ⟨rfl, rfl⟩ | ⟨rfl, rfl⟩ | ⟨rfl, rfl⟩ | ⟨rfl, rfl⟩ | ⟨rfl, rfl⟩ | ⟨rfl, rfl⟩ |
    ⟨rfl, rfl⟩ <;>
  exact ⟨(Takes.byte Fault.truncated _).bind (.pure _),
    (Takes.byte Fault.truncated _).bind (.pure _)⟩

/-- A byte of a string that stands for itself. -/
def Plain (x : UInt8) : Prop := x ≠ Bytes.ascii '"' ∧ x ≠ Bytes.ascii '\\' ∧ ¬ x < 0x20

/-- What is written of a byte is the byte itself, or after a backslash an escape for it. -/
theorem escapeByte_cases (x : UInt8) :
    escapeByte x = [x] ∧ Plain x ∨ ∃ w, escapeByte x = Bytes.ascii '\\' :: w ∧ Escapes w x := by
  -- along the comparisons that the writer makes: seven bytes with a letter of their own, the other
  -- control characters, and what needs no escape
  unfold escapeByte
  simp only [beq_iff_eq]
  split
  case isTrue h => exact .inr ⟨[0x22], rfl, by rw [h]; exact escapes_short (by decide)⟩
  split
  case isTrue h => exact .inr ⟨[0x5c], rfl, by rw [h]; exact escapes_short (by decide)⟩
  split
  case isTrue h => exact .inr ⟨[0x62], rfl, by rw [h]; exact escapes_short (by decide)⟩
  split
  case isTrue h => exact .inr ⟨[0x66], rfl, by rw [h]; exact escapes_short (by decide)⟩
  split
  case isTrue h => exact .inr ⟨[0x6e], rfl, by rw [h]; exact escapes_short (by decide)⟩
  split
  case isTrue h => exact .inr ⟨[0x72], rfl, by rw [h]; exact escapes_short (by decide)⟩
  split
  case isTrue h => exact .inr ⟨[0x74], rfl, by rw [h]; exact escapes_short (by decide)⟩
  split
  case isTrue h => exact .inr ⟨_, rfl, escapes_control h⟩
  case isFalse hquote hslash _ _ _ _ _ hcontrol => exact .inl ⟨rfl, hquote, hslash, hcontrol⟩

section Steps

variable {esc : Reader Fault Bytes} {sofar u : Bytes}

/-- A byte that stands for itself is gathered as it is. -/
theorem takes_textStep_plain {x : UInt8} (hx : Plain x) :
    Takes closed (textStep esc sofar) [x] (.next (x :: sofar)) := by
  refine (Takes.byte Fault.truncated x).bind_nil fun s => ?_
  rw [if_neg (by simpa using hx.1), if_neg (by simpa using hx.2.1), if_neg hx.2.2]
  rfl

theorem takes_textStep_escape (hw : Takes closed esc w u) :
    Takes closed (textStep esc sofar) (Bytes.ascii '\\' :: w) (.next (u.reverse ++ sofar)) :=
  (Takes.byte Fault.truncated _).bind (hw.bind_nil fun _ => rfl)

theorem takes_textStep_quote :
    Takes closed (textStep esc sofar) [Bytes.ascii '"'] (.done sofar.reverse) :=
  (Takes.byte Fault.truncated _).bind_nil fun _ => rfl

end Steps

/-- The bytes of a string are gathered one by one. -/
theorem takes_textLoop (b sofar : Bytes) :
    Takes closed (loop (textStep escape) (moves_textStep _) sofar)
      (b.flatMap escapeByte ++ [Bytes.ascii '"']) (sofar.reverse ++ b) := by
  -- along the bytes of the string, with what was gathered before them
  induction b generalizing sofar with
  | nil =>
    rw [List.append_nil]
    exact .loop_done takes_textStep_quote
  | cons x b ih =>
    have hstep : Takes closed (textStep escape sofar) (escapeByte x) (.next (x :: sofar)) := by
      -- each byte was written as itself or as an escape
      rcases escapeByte_cases x with ⟨hx, hplain⟩ | ⟨w, hx, hw⟩
      · rw [hx]
        exact takes_textStep_plain hplain
      · rw [hx]
        exact takes_textStep_escape hw.takes
    have hrest := ih (x :: sofar)
    rw [List.reverse_cons, List.append_assoc, List.singleton_append] at hrest
    rw [List.flatMap_cons, List.append_assoc]
    exact .loop_next hstep hrest

/-- **A string is read back** from what is written of its bytes, which are UTF-8 because it is a
string. -/
theorem takes_textBody (s : String) :
    Takes closed textBody ((Bytes.ofText s).flatMap escapeByte ++ [Bytes.ascii '"']) s :=
  (takes_textLoop (Bytes.ofText s) []).bind_ofOption (Bytes.text?_ofText s)

theorem takes_quoted (s : String) : Takes closed quoted (writeText s) s :=
  (Takes.byte Fault.truncated _).bind (takes_textBody s)

theorem takes_text (s : String) : Takes closed (scalarAt .quote) (writeText s) (.text s) :=
  (Takes.byte Fault.truncated _).bind ((takes_textBody s).bind_nil fun _ => rfl)

/-- A string can be passed over; what is gathered in doing so does not matter. -/
theorem takes_skipText (b : Bytes) :
    Takes closed skipText (b.flatMap escapeByte ++ [Bytes.ascii '"']) () := by
  have hloop (sofar : Bytes) : ∃ b', Takes closed
      (loop (textStep skipEscape) (moves_textStep _) sofar)
      (b.flatMap escapeByte ++ [Bytes.ascii '"']) b' := by
    -- as for a string that is read, but what is gathered may be anything
    induction b generalizing sofar with
    | nil => exact ⟨_, .loop_done takes_textStep_quote⟩
    | cons x b ih =>
      rw [List.flatMap_cons, List.append_assoc]
      rcases escapeByte_cases x with ⟨hx, hplain⟩ | ⟨w, hx, hw⟩
      · obtain ⟨b', hrest⟩ := ih (x :: sofar)
        rw [hx]
        exact ⟨b', .loop_next (takes_textStep_plain hplain) hrest⟩
      · obtain ⟨b', hrest⟩ := ih sofar
        rw [hx]
        exact ⟨b', .loop_next (takes_textStep_escape hw.takes_skip) hrest⟩
  obtain ⟨b', h⟩ := hloop []
  exact h.bind_nil fun _ => rfl

end TwoTier.JsonText
