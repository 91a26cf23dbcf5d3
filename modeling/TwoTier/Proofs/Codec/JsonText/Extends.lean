import TwoTier.Proofs.Codec.JsonText.Skipping

/-!
# Values inside JSON text

A value is read in the same way by itself and inside an array or object. There, what comes after it
is white space and a byte that separates or closes (`delimits`), none of which goes on with a number
or is white space itself. So the readers of scalars, strict records and choices extend: each along
its definition, from the readers it is made of.
-/

namespace TwoTier.JsonText

open Reader

variable {α β σ : Type}

/-! ### What comes after a value -/

/-- The bytes that may stand right after a value or a key. -/
def delimits (c : UInt8) : Bool :=
  c == Bytes.ascii ',' || c == Bytes.ascii ']' || c == Bytes.ascii '\x7d' || c == Bytes.ascii ':'

/-- A byte that delimits a value does not go on with a number. -/
theorem goesOn_of_delimits {c : UInt8} (h : delimits c = true) : goesOn c = false := by
  simp only [delimits, Bool.or_eq_true, beq_iff_eq] at h
  rcases h with ((rfl | rfl) | rfl) | rfl <;> decide

/-- A byte that delimits a value is not white space, so that white space before it ends there. -/
theorem isBlank_of_delimits {c : UInt8} (h : delimits c = true) : isBlank c = false := by
  simp only [delimits, Bool.or_eq_true, beq_iff_eq] at h
  rcases h with ((rfl | rfl) | rfl) | rfl <;> decide

/-- A byte that delimits a value is no digit. -/
theorem isDigit_of_delimits {c : UInt8} (h : delimits c = true) : isDigit c = false := by
  simp only [delimits, Bool.or_eq_true, beq_iff_eq] at h
  rcases h with ((rfl | rfl) | rfl) | rfl <;> decide

/-- A reader that looks past white space extends, if each way on does and the end of the input is a
fault. -/
theorem extends_peekPastBlank {g : Option UInt8 → Reader Fault α}
    (hsome : ∀ c, Extends delimits (g (some c))) (hnone : (g none).Fails []) :
    Extends delimits (peekPastBlank >>= g) := by
  rw [peekPastBlank, Reader.bind_assoc]
  exact (Extends.span fun _ => isBlank_of_delimits).bind fun _ => .peek_bind hsome hnone

/-- What a value begins with is found in the same way. -/
theorem extends_start : Extends delimits start :=
  extends_peekPastBlank (fun c => .pure (Start.of c)) (fails_fail Fault.truncated [])

/-! ### Scalars -/

/-- The bytes of a fixed word, one after the other. -/
theorem extends_exactly : (w : Bytes) → Extends delimits (exactly w)
  | [] => .pure ()
  | b :: w => by
    -- along the word: the reader of the rest is the same function at a shorter word
    refine (Extends.byte Fault.truncated).bind fun a => ?_
    split
    · exact extends_exactly w
    · exact .fail Fault.malformed

/-- The digits before a point: a zero alone, or a run of digits, which a delimiter ends. -/
theorem extends_whole : Extends delimits whole := by
  refine (Extends.byte Fault.truncated).bind fun first => ?_
  split
  · refine (Extends.span fun _ => isDigit_of_delimits).bind fun ds => ?_
    split
    · exact .fail Fault.malformed
    · exact .pure _
  · exact .fail Fault.malformed

/-- A byte that delimits a value is none of those that are looked for. -/
theorem some_beq_some_of_delimits {c d : UInt8} (hc : delimits c = true) (hd : delimits d = false) :
    (some c == some d) = false :=
  some_beq_some fun h => by
    rw [h, hd] at hc
    cases hc

/-- The digits after a point, if there is a point. A delimiter is taken for the end of the input:
neither is a point. -/
theorem extends_fraction : Extends delimits fraction := by
  refine .peek_bind_of_eq (fun c? => ?_) fun c hc => ?_
  · -- what follows is read on with a point, or there is no fraction
    split
    · refine (Extends.byte Fault.truncated).bind fun _ => ?_
      refine (Extends.span fun _ => isDigit_of_delimits).bind fun ds => ?_
      split
      · exact .peek_bind (fun _ => .fail Fault.malformed) (fails_fail Fault.truncated [])
      · exact .pure _
    · exact .pure none
  · -- a delimiter is no point
    rw [some_beq_some_of_delimits hc (by decide)]
    rfl

/-- The exponent, if there is one; a delimiter is neither of the letters that it begins with. -/
theorem extends_exponent : Extends delimits exponent := by
  -- what is read after the sign
  have hdigits (negative : Bool) : Extends delimits (do
      let first ← byte Fault.truncated
      if isDigit first then
        let ds ← span isDigit
        let n : Int := digitsValue (first :: ds)
        pure (some (if negative then -n else n))
      else fail .malformed) := by
    refine (Extends.byte Fault.truncated).bind fun first => ?_
    split
    · exact (Extends.span fun _ => isDigit_of_delimits).bind fun ds => .pure _
    · exact .fail Fault.malformed
  -- a letter is looked for, and after it a sign
  refine .peek_bind_of_eq (fun c? => ?_) fun c hc => ?_
  · split
    · refine (Extends.byte Fault.truncated).bind fun _ => ?_
      refine .peek_bind (fun sign => ?_) ⟨.truncated, rfl⟩
      dsimp only
      split
      · exact (Extends.byte Fault.truncated).bind fun _ => hdigits _
      · exact hdigits _
    · exact .pure none
  · -- a delimiter is neither of the letters
    rw [some_beq_some_of_delimits hc (by decide), some_beq_some_of_delimits hc (by decide)]
    rfl

/-- **A number** ends before a delimiter as it does at the end of the input: neither goes on with
any of its parts. -/
theorem extends_number : Extends delimits number := by
  -- what is read after the sign
  have hrest (negative : Bool) : Extends delimits (do
      let ds ← whole
      let f ← fraction
      let e ← exponent
      ofExcept (Number.ofParts negative ds f e)) :=
    extends_whole.bind fun _ => extends_fraction.bind fun _ => extends_exponent.bind fun _ =>
      .ofExcept _
  refine .peek_bind (fun c => ?_) ⟨.truncated, rfl⟩
  dsimp only
  split
  · exact (Extends.byte Fault.truncated).bind fun _ => hrest _
  · exact hrest _

/-- Four hexadecimal digits; their number is fixed, so what follows them does not matter. -/
theorem extends_hexFour : Extends delimits hexFour :=
  (Extends.take Fault.truncated 4).bind fun _ => .ofOption _ _

/-- The rest of an escape, which may be the first half of a pair. -/
theorem extends_escape : Extends delimits escape := by
  refine (Extends.byte Fault.truncated).bind fun b => ?_
  -- the escapes of one letter are done or refused
  repeat' split
  all_goals try exact .pure _
  all_goals try exact .fail Fault.malformed
  -- what is left is the escape of a code, and for a leading half that of its other half
  refine extends_hexFour.bind fun n => ?_
  split
  · exact .fail Fault.malformed
  split
  · exact .pure _
  · refine (extends_exactly _).bind fun _ => extends_hexFour.bind fun m => ?_
    split
    · exact .fail Fault.malformed
    · exact .pure _

/-- One step in a text: its end, an escape, a refused byte, or a byte as it is. -/
theorem extends_textStep (sofar : Bytes) : Extends delimits (textStep escape sofar) := by
  refine (Extends.byte Fault.truncated).bind fun b => ?_
  split
  · exact .pure _
  split
  · exact extends_escape.bind fun _ => .pure _
  split
  · exact .fail Fault.malformed
  · exact .pure _

/-- A text from after its opening quote. It ends at its own closing quote, whatever follows that. -/
theorem extends_textBody : Extends delimits textBody :=
  (Extends.loop extends_textStep []).bind fun _ => .ofOption _ _

/-- A scalar that begins as was found. Arrays and objects are none, and are refused by their first
byte. -/
theorem extends_scalarAt (st : Start) : Extends delimits (scalarAt st) := by
  cases st with
  | nullWord | trueWord | falseWord => exact (extends_exactly _).bind fun _ => .pure _
  | number => exact extends_number.bind fun _ => .pure _
  | quote =>
    exact (Extends.byte Fault.truncated).bind fun _ => extends_textBody.bind fun _ => .pure _
  | bracket | brace => exact .fail Fault.mismatched
  | other => exact .fail Fault.malformed

/-- **A scalar**, with any choice of those that are accepted. -/
theorem extends_scalar (accept : Scalar → Option α) : Extends delimits (scalar accept) :=
  extends_start.bind fun st => (extends_scalarAt st).bind fun _ => .ofOption _ _

/-- A value of another kind, read before it is refused. -/
theorem extends_refuse (st : Start) : Extends delimits (refuse st : Reader Fault α) :=
  (extends_scalarAt st).bind fun _ => .fail Fault.mismatched

/-! ### Arrays and objects -/

/-- The byte that closes an array or object, past white space. -/
theorem extends_closing (c : Char) : Extends delimits (closing c) := by
  refine extends_peekPastBlank (fun b => ?_) (fails_fail Fault.truncated [])
  dsimp only
  split
  · exact (Extends.byte Fault.truncated).bind fun _ => .pure ()
  · exact .fail Fault.malformed

/-- The colon between a name and its value, past white space. -/
theorem extends_colon : Extends delimits colon := extends_closing ':'

/-- Whether an array has another item, with the comma before it. The closing bracket is seen and
left. -/
theorem extends_another (first : Bool) : Extends delimits (another first) := by
  -- after a comma an item must come
  have hcomma : Extends delimits itemComma := by
    refine (Extends.byte Fault.truncated).bind fun _ => ?_
    refine extends_peekPastBlank (fun b => ?_) (fails_fail Fault.truncated [])
    dsimp only
    split
    · exact .fail Fault.malformed
    · exact .pure ()
  refine extends_peekPastBlank (fun b => ?_) (fails_fail Fault.truncated [])
  dsimp only
  repeat' split
  · exact .pure _
  · exact .pure _
  · exact hcomma.bind fun _ => .pure _
  · exact .fail Fault.malformed

/-- Whether an object has another entry, with the comma before it; after the comma a name must come.
-/
theorem extends_anotherKey (first : Bool) : Extends delimits (anotherKey first) := by
  refine extends_peekPastBlank (fun b => ?_) (fails_fail Fault.truncated [])
  dsimp only
  -- the object ends, its first entry comes, a comma is due, or a comma is there
  repeat' split
  · exact .pure _
  · exact .pure _
  · exact .fail Fault.malformed
  · refine (Extends.byte Fault.truncated).bind fun _ => ?_
    refine extends_peekPastBlank (fun c => ?_) (fails_fail Fault.truncated [])
    dsimp only
    split
    · exact .pure _
    · exact .fail Fault.malformed
  · exact .fail Fault.malformed

/-- A text with its opening quote, as the name of an entry. -/
theorem extends_quoted : Extends delimits quoted :=
  (Extends.byte Fault.truncated).bind fun _ => extends_textBody

/-- **The entries of an object**, if the values under all names extend. -/
theorem extends_entries {step : σ → String → Reader Fault σ}
    (hstep : ∀ st k, Extends delimits (step st k)) (st : σ) :
    Extends delimits (entries step st) := by
  -- the entries are a loop, and each step reads one of them: its name and its value
  refine .loop (fun st => ?_) (true, st)
  refine (extends_anotherKey st.1).bind fun more => ?_
  cases more with
  | false => exact .pure _
  | true => exact extends_quoted.bind fun k => (hstep st.2 k).bind fun _ => .pure _

/-- One level deeper, where the budget of levels allows it. -/
theorem extends_within {budget : Nat} {p : Nat → Reader Fault α}
    (hp : ∀ d, Extends delimits (p d)) : Extends delimits (within budget p) := by
  cases budget with
  | zero => exact .fail Fault.malformed
  | succ d => exact hp d

/-- An array, if its items extend on every level. -/
theorem extends_array {budget : Nat} {p : Nat → Reader Fault α}
    (hp : ∀ d, Extends delimits (p d)) : Extends delimits (array budget p) :=
  extends_within fun d => (Extends.byte Fault.truncated).bind fun _ => (hp d).bind fun _ =>
    (extends_closing ']').bind fun _ => .pure _

/-- An object, if its entries extend on every level. -/
theorem extends_object {budget : Nat} {p : Nat → Reader Fault α}
    (hp : ∀ d, Extends delimits (p d)) : Extends delimits (object budget p) :=
  extends_within fun d => (Extends.byte Fault.truncated).bind fun _ => (hp d).bind fun _ =>
    (extends_closing '\x7d').bind fun _ => .pure _

/-! ### Records and choices -/

/-- A strict record. -/
theorem extends_record {fs : Fields α} {budget : Nat} {row : Nat → Row Fault Bool α fs.Slots}
    (hrow : ∀ d, (row d).Extends delimits) (make : α → Option β) :
    Extends delimits (record true fs budget row make) := by
  refine extends_start.bind fun st => ?_
  -- an array gives the fields in their order, an object under their names
  cases st with
  | bracket => exact extends_array fun d => ((hrow d).inOrder true).bind fun x => .ofOption _ _
  | brace =>
    refine extends_object fun d => (extends_entries (fun slots k => ?_) _).bind fun _ =>
      .ofOption _ _
    -- a name that the row has is filled by the row, any other is refused
    unfold recordEntry
    split
    · next p hp => exact (hrow d).fill k slots p hp
    · exact .fail _
  | _ => exact extends_refuse _

/-- A choice between names, which stands as a text or as the only name of an object. -/
theorem extends_choice (budget : Nat) (names : List String) :
    Extends delimits (choice budget names) := by
  -- the name itself
  have hchosen (st : Start) : Extends delimits (chosen names st) := by
    cases st with
    | quote => exact extends_quoted.bind fun _ => .ofOption _ _
    | _ => exact .fail _
  -- in an object, the name is followed by a colon and by a value that says nothing
  refine extends_start.bind fun st => ?_
  cases st with
  | brace =>
    exact extends_object fun _ => extends_start.bind fun st => (hchosen st).bind fun _ =>
      extends_colon.bind fun _ => (extends_scalar _).bind fun _ => .pure _
  | _ => exact hchosen _

end TwoTier.JsonText
