import TwoTier.Proofs.Codec.Extends
import TwoTier.Proofs.Codec.JsonText.Value

/-!
# The grammar of JSON text

What a JSON value is, said without a reader: a form relates the bytes that begin with it to the
bytes that are left after it. So `Value s r` says that `s` begins with a value, after which `r` is
left, and `Document w` that `w` is a value with nothing but white space around it. Numbers may be of
any size, strings may hold any bytes and escapes of any surrogates, and arrays and objects may nest
as deep as they like.

Arrays and objects have the same form, but for the keys: their parts are values with commas between
them, each after what its `Frame` has stand before it (`Label`), up to the byte that closes the
frame (`Parts`, `Tail`).

A form is still there with more bytes after it (`Value.append`), and a value has a first byte
(`Value.first`).
-/

namespace TwoTier.JsonText

open Reader

/-! ### Runs of bytes -/

/-- Bytes of one class, as many as there are up to some place. -/
def Run (accept : UInt8 → Bool) (s r : Bytes) : Prop :=
  ∃ w, s = w ++ r ∧ ∀ x ∈ w, accept x = true

section Run

variable {accept : UInt8 → Bool} {s r u : Bytes} {c : UInt8}

theorem Run.nil (s : Bytes) : Run accept s s := ⟨[], rfl, List.forall_mem_nil _⟩

theorem Run.cons (hc : accept c = true) (h : Run accept s r) : Run accept (c :: s) r := by
  obtain ⟨w, rfl, hw⟩ := h
  exact ⟨c :: w, rfl, List.forall_mem_cons.mpr ⟨hc, hw⟩⟩

/-- A run that goes on with another is one run. -/
theorem Run.trans (h : Run accept s r) (h' : Run accept r u) : Run accept s u := by
  obtain ⟨w, rfl, hw⟩ := h
  obtain ⟨w', rfl, hw'⟩ := h'
  refine ⟨w ++ w', (List.append_assoc ..).symm, fun x hx => ?_⟩
  exact (List.mem_append.mp hx).elim (hw x) (hw' x)

/-- What comes after a place does not change what comes before it. -/
theorem Run.append (h : Run accept s r) (t : Bytes) : Run accept (s ++ t) (r ++ t) := by
  obtain ⟨w, rfl, hw⟩ := h
  exact ⟨w, List.append_assoc .., hw⟩

/-- All bytes up to a byte of another class. -/
theorem Run.run_span (h : Run accept s r) (hr : ∀ c ∈ r.head?, accept c = false) :
    ∃ w, s = w ++ r ∧ (span accept : Reader Fault Bytes).run s = .ok (w, r) := by
  obtain ⟨w, rfl, hw⟩ := h
  exact ⟨w, rfl, Takes.run_span_append hw hr⟩

/-- A run begins with a byte of its class, or is empty. -/
theorem Run.head (h : Run accept s r) : ∀ c ∈ s.head?, accept c = true ∨ c ∈ r.head? := by
  obtain ⟨w, rfl, hw⟩ := h
  intro c hc
  cases w with
  | nil => exact .inr hc
  | cons x w =>
    cases hc
    exact .inl (hw c List.mem_cons_self)

/-- The longest run of a class, as readers take it, is one. -/
theorem run_takeWhile_dropWhile (accept : UInt8 → Bool) (s : Bytes) :
    Run accept s (s.dropWhile accept) := by
  -- along the bytes, up to the first of another class
  induction s with
  | nil => exact .nil _
  | cons c s ih =>
    by_cases hc : accept c = true
    · rw [List.dropWhile_cons_of_pos hc]
      exact ih.cons hc
    · rw [List.dropWhile_cons_of_neg hc]
      exact .nil _

end Run

/-- White space. -/
abbrev Blanks : Bytes → Bytes → Prop := Run isBlank

/-! ### Numbers -/

/-- One digit or more. -/
inductive Digits : Bytes → Bytes → Prop
  | intro {c : UInt8} {s r : Bytes} (hc : isDigit c = true) (h : Run isDigit s r) :
      Digits (c :: s) r

/-- A minus sign, or none. -/
inductive Minus : Bytes → Bytes → Prop
  | absent (r : Bytes) : Minus r r
  | present (r : Bytes) : Minus (Bytes.ascii '-' :: r) r

/-- Zero, or digits of which the first is not zero. -/
inductive Whole : Bytes → Bytes → Prop
  | zero (r : Bytes) : Whole (Bytes.ascii '0' :: r) r
  | digits {c : UInt8} {s r : Bytes} (hne : c ≠ Bytes.ascii '0') (h : Digits (c :: s) r) :
      Whole (c :: s) r

/-- A point and digits, or nothing. -/
inductive Fraction : Bytes → Bytes → Prop
  | absent (r : Bytes) : Fraction r r
  | present {s r : Bytes} (h : Digits s r) : Fraction (Bytes.ascii '.' :: s) r

/-- The sign of an exponent, or none. -/
inductive Sign : Bytes → Bytes → Prop
  | absent (r : Bytes) : Sign r r
  | plus (r : Bytes) : Sign (Bytes.ascii '+' :: r) r
  | minus (r : Bytes) : Sign (Bytes.ascii '-' :: r) r

/-- An `e` of either case, a sign and digits, or nothing. -/
inductive Exponent : Bytes → Bytes → Prop
  | absent (r : Bytes) : Exponent r r
  | present {c : UInt8} {s u r : Bytes} (hc : c = Bytes.ascii 'e' ∨ c = Bytes.ascii 'E')
      (hs : Sign s u) (h : Digits u r) : Exponent (c :: s) r

/-- A number. -/
def Numeral (s r : Bytes) : Prop :=
  ∃ s₁ s₂ s₃, Minus s s₁ ∧ Whole s₁ s₂ ∧ Fraction s₂ s₃ ∧ Exponent s₃ r

/-! ### Strings -/

/-- The bytes that make an escape by themselves. -/
def shortEscapes : Bytes :=
  [Bytes.ascii '"', Bytes.ascii '\\', Bytes.ascii '/', Bytes.ascii 'b', Bytes.ascii 'f',
    Bytes.ascii 'n', Bytes.ascii 'r', Bytes.ascii 't']

/-- The inside of a string, and its closing quote. -/
inductive Chars : Bytes → Bytes → Prop
  | quote (r : Bytes) : Chars (Bytes.ascii '"' :: r) r
  | plain {c : UInt8} {s r : Bytes} (hc : Plain c) (h : Chars s r) : Chars (c :: s) r
  | short {c : UInt8} {s r : Bytes} (hc : c ∈ shortEscapes) (h : Chars s r) :
      Chars (Bytes.ascii '\\' :: c :: s) r
  | code {ds s r : Bytes} (hlen : ds.length = 4) (hds : ∀ d ∈ ds, (hexValue? d).isSome = true)
      (h : Chars s r) : Chars (Bytes.ascii '\\' :: Bytes.ascii 'u' :: (ds ++ s)) r

/-! ### Values -/

/-- The byte that begins an array or object. -/
def Frame.opening : Frame → UInt8
  | .array => Bytes.ascii '['
  | .object => Bytes.ascii '\x7b'

/-- What stands before a value: in an object a key and a colon. -/
inductive Label : Frame → Bytes → Bytes → Prop
  | array (s : Bytes) : Label .array s s
  | object {s k k' v : Bytes} (hs : Blanks s (Bytes.ascii '"' :: k)) (hk : Chars k k')
      (hc : Blanks k' (Bytes.ascii ':' :: v)) : Label .object s v

mutual
/-- **A value**, with white space before it. -/
inductive Value : Bytes → Bytes → Prop
  | blank {c : UInt8} {s r : Bytes} (hc : isBlank c = true) (h : Value s r) : Value (c :: s) r
  | word {w : String} (hw : w ∈ ["null", "true", "false"]) (r : Bytes) :
      Value (Bytes.ofText w ++ r) r
  | number {s r : Bytes} (h : Numeral s r) : Value s r
  | text {s r : Bytes} (h : Chars s r) : Value (Bytes.ascii '"' :: s) r
  | empty (f : Frame) {s r : Bytes} (h : Blanks s (f.close :: r)) : Value (f.opening :: s) r
  | parts (f : Frame) {s r : Bytes} (h : Parts f s r) : Value (f.opening :: s) r
/-- The parts of an array or object that is not empty, and the byte that closes it. -/
inductive Parts : Frame → Bytes → Bytes → Prop
  | part {f : Frame} {s v u r : Bytes} (hs : Label f s v) (hv : Value v u) (h : Tail f u r) :
      Parts f s r
/-- What stands after a part: the byte that closes the frame, or a comma and more parts. -/
inductive Tail : Frame → Bytes → Bytes → Prop
  | close {f : Frame} {s r : Bytes} (h : Blanks s (f.close :: r)) : Tail f s r
  | comma {f : Frame} {s u r : Bytes} (hs : Blanks s (Bytes.ascii ',' :: u)) (h : Parts f u r) :
      Tail f s r
end

/-- **The bytes are a value**, with white space around it. -/
def Document (w : Bytes) : Prop := ∃ r, Value w r ∧ Blanks r []

/-! ### More bytes after a form -/

section Append

variable {s r : Bytes}

/-- Digits are still there. -/
theorem Digits.append (h : Digits s r) (t : Bytes) : Digits (s ++ t) (r ++ t) := by
  obtain ⟨hc, h⟩ := h
  exact .intro hc (h.append t)

/-- A minus sign is still there, and where there was none there is still none before the digits. -/
theorem Minus.append (h : Minus s r) (t : Bytes) : Minus (s ++ t) (r ++ t) := by
  cases h with
  | absent => exact .absent _
  | present => exact .present _

/-- The digits before a point are still there. -/
theorem Whole.append (h : Whole s r) (t : Bytes) : Whole (s ++ t) (r ++ t) := by
  cases h with
  | zero => exact .zero _
  | digits hne h => exact .digits hne (h.append t)

/-- A fraction is still there, or still missing: the form says nothing of what is left. -/
theorem Fraction.append (h : Fraction s r) (t : Bytes) : Fraction (s ++ t) (r ++ t) := by
  cases h with
  | absent => exact .absent _
  | present h => exact .present (h.append t)

/-- A sign is still there, or still missing. -/
theorem Sign.append (h : Sign s r) (t : Bytes) : Sign (s ++ t) (r ++ t) := by
  cases h with
  | absent => exact .absent _
  | plus => exact .plus _
  | minus => exact .minus _

/-- An exponent is still there, or still missing. -/
theorem Exponent.append (h : Exponent s r) (t : Bytes) : Exponent (s ++ t) (r ++ t) := by
  cases h with
  | absent => exact .absent _
  | present hc hs h => exact .present hc (hs.append t) (h.append t)

/-- **A number** is still there, if perhaps no longer the longest one. -/
theorem Numeral.append (h : Numeral s r) (t : Bytes) : Numeral (s ++ t) (r ++ t) := by
  obtain ⟨s₁, s₂, s₃, h₁, h₂, h₃, h₄⟩ := h
  exact ⟨s₁ ++ t, s₂ ++ t, s₃ ++ t, h₁.append t, h₂.append t, h₃.append t, h₄.append t⟩

/-- **A string** is still there, up to the same closing quote. -/
theorem Chars.append (h : Chars s r) (t : Bytes) : Chars (s ++ t) (r ++ t) := by
  -- along the characters
  induction h with
  | quote r => exact .quote _
  | plain hc _ ih => exact .plain hc ih
  | short hc _ ih => exact .short hc ih
  | code hlen hds _ ih =>
    rw [List.cons_append, List.cons_append, List.append_assoc]
    exact .code hlen hds ih

/-- A name is still there. -/
theorem Label.append {f : Frame} (h : Label f s r) (t : Bytes) : Label f (s ++ t) (r ++ t) := by
  cases h with
  | array => exact .array _
  | object hs hk hc => exact .object (hs.append t) (hk.append t) (hc.append t)

end Append

mutual
/-- **A value is still there with more bytes after it**, by induction together with its parts. -/
theorem Value.append {s r : Bytes} (t : Bytes) : Value s r → Value (s ++ t) (r ++ t)
  | .blank hc h => .blank hc (h.append t)
  | .word hw r => by
    rw [List.append_assoc]
    exact .word hw (r ++ t)
  | .number h => .number (h.append t)
  | .text h => .text (h.append t)
  | .empty f h => .empty f (h.append t)
  | .parts f h => .parts f (h.append t)
/-- The parts of an array or object are still there. -/
theorem Parts.append {f : Frame} {s r : Bytes} (t : Bytes) : Parts f s r → Parts f (s ++ t) (r ++ t)
  | .part hs hv h => .part (hs.append t) (hv.append t) (h.append t)
/-- So is what stands after a part. -/
theorem Tail.append {f : Frame} {s r : Bytes} (t : Bytes) : Tail f s r → Tail f (s ++ t) (r ++ t)
  | .close h => .close (h.append t)
  | .comma hs h => .comma (hs.append t) (h.append t)
end

/-! ### First bytes -/

section First

variable {s r : Bytes} {f : Frame}

/-- White space before a value belongs to it. -/
theorem Value.of_blanks {u : Bytes} (hs : Blanks s u) (h : Value u r) : Value s r := by
  obtain ⟨w, rfl, hw⟩ := hs
  -- along the white space, byte by byte
  induction w with
  | nil => exact h
  | cons c w ih => exact .blank (hw c List.mem_cons_self) (ih fun x hx => hw x (.tail c hx))

/-- A number begins with a digit or a minus sign. -/
theorem Numeral.first (h : Numeral s r) : ∃ c t, s = c :: t ∧ Start.of c = .number := by
  obtain ⟨s₁, s₂, s₃, hminus, hwhole, -, -⟩ := h
  -- the sign, or without one the first of the digits
  cases hminus with
  | present => exact ⟨_, _, rfl, rfl⟩
  | absent =>
    cases hwhole with
    | zero => exact ⟨_, _, rfl, rfl⟩
    | digits hne h =>
      cases h with
      | intro hc h => exact ⟨_, _, rfl, start_of_digit hc⟩

/-- **A value has a first byte**, which tells that it is one. -/
theorem Value.first (h : Value s r) : ∃ c t, Blanks s (c :: t) ∧ Starts c := by
  -- on the length: white space before the value is passed byte by byte, and everything else begins
  -- at once
  induction hn : s.length using Nat.strongRecOn generalizing s with
  | ind n ih =>
    cases h with
    | blank hc h =>
      obtain ⟨d, t, hs, hd⟩ := ih _ (by rw [← hn]; exact Nat.lt_succ_self _) h rfl
      exact ⟨d, t, hs.cons hc, hd⟩
    | word hw r =>
      simp only [List.mem_cons, List.not_mem_nil, or_false] at hw
      rcases hw with rfl | rfl | rfl <;> exact ⟨_, _, .nil _, by decide⟩
    | number h =>
      obtain ⟨c, t, rfl, hc⟩ := h.first
      exact ⟨c, t, .nil _, by rw [Starts, hc]; decide⟩
    | text h => exact ⟨_, _, .nil _, by decide⟩
    | empty f h => exact ⟨_, _, .nil _, by cases f <;> decide⟩
    | parts f h => exact ⟨_, _, .nil _, by cases f <;> decide⟩

end First

end TwoTier.JsonText
