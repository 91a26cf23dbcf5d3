import Mathlib.Data.List.Induction
import TwoTier.Proofs.Config.Loading

/-!
# Faults in numbers of seconds

Why a text is no number of seconds, said without the way in which it is read. A text is read from
the left and given up at the first character that is no digit, or with which the number becomes too
large. What comes after that character makes no difference, so of two faults the one further left
is reported, and zeros in front of a number are no fault, however many they are.

* `FirstOffence` says this of the characters after the sign, and `SecsText.Refused` of a whole text
  without the white space around it.
* Reading goes through digits that are not too large without a fault (`readDigits_append`), and so
  comes to the first offence, if there is one (`readDigits_eq_error_iff`).
* `readTtl_classified` puts this together with `SecsText`, the grammar of the texts that are read,
  and with what loading reports.
-/

namespace TwoTier

/-! ### The first offence -/

/-- **The first offence** among characters that should be digits: the first that is no digit, or
with which the number that they stand for becomes `2 ^ 64` or more. -/
inductive FirstOffence : List Char → SecsFault → Prop
  | noDigit {before after : List Char} {c : Char} (hbefore : ∀ d ∈ before, d.isDigit = true)
    (hlt : decimalValue before < 2 ^ 64) (hc : c.isDigit = false) :
    FirstOffence (before ++ c :: after) .invalidDigit
  | tooLarge {before after : List Char} {c : Char} (hbefore : ∀ d ∈ before, d.isDigit = true)
    (hlt : decimalValue before < 2 ^ 64) (hc : c.isDigit = true)
    (hge : 2 ^ 64 ≤ decimalValue (before ++ [c])) :
    FirstOffence (before ++ c :: after) .tooLarge

/-- The characters after a plus sign, if there is one in front. -/
def afterPlus : List Char → List Char
  | '+' :: cs => cs
  | cs => cs

/-- **A text that is no number of seconds**, and why: there is no text, or nothing but a sign, or
there is a first offence after the sign. -/
inductive SecsText.Refused : List Char → SecsFault → Prop
  | empty : Refused [] .empty
  | signAlone : Refused ['+'] .invalidDigit
  | offence {cs : List Char} {f : SecsFault} (h : FirstOffence (afterPlus cs) f) : Refused cs f

section Digits

variable {c : Char} {before cs : List Char} {n : Nat} {f : SecsFault}

/-- One more digit is the last one of the number. -/
theorem decimalValue_concat (cs : List Char) (c : Char) :
    decimalValue (cs ++ [c]) = decimalValue cs * 10 + digitValue c := by
  unfold decimalValue
  rw [List.reverse_append, List.reverse_singleton, List.singleton_append, List.map_cons,
    Nat.ofDigits_cons, Nat.add_comm, Nat.mul_comm]

/-- A digit has its value, … -/
theorem digit?_of_isDigit (h : c.isDigit = true) : digit? c = some (digitValue c) :=
  digit?_eq_some_iff.mpr ⟨h, rfl⟩

/-- … and nothing else has one. -/
theorem digit?_of_not_isDigit (h : c.isDigit = false) : digit? c = none := by
  cases hd : digit? c with
  | none => rfl
  | some d =>
    rw [(digit?_eq_some_iff.mp hd).1] at h
    cases h

/-- Digits are read without a fault as long as the number is not too large. -/
theorem readDigits_append (hbefore : ∀ d ∈ before, d.isDigit = true)
    (hlt : decimalValue before < UInt64.size) (cs : List Char) :
    readDigits 0 (before ++ cs) = readDigits (decimalValue before) cs := by
  -- induction from the right, since the number grows with the last digit
  induction before using List.reverseRecOn generalizing cs with
  | nil => rfl
  | append_singleton before c ih =>
    rw [decimalValue_concat] at hlt ⊢
    have hc : c.isDigit = true := hbefore c List.mem_concat_self
    have hrest : ∀ d ∈ before, d.isDigit = true := fun d hd =>
      hbefore d (List.mem_append_left _ hd)
    rw [List.append_assoc, List.singleton_append, ih hrest (by omega), readDigits,
      digit?_of_isDigit hc]
    exact if_pos hlt

/-- Reading comes to the first offence, … -/
theorem readDigits_of_firstOffence (h : FirstOffence cs f) : readDigits 0 cs = .error f := by
  cases h with
  | noDigit hbefore hlt hc =>
    rw [readDigits_append hbefore hlt, readDigits, digit?_of_not_isDigit hc]
  | tooLarge hbefore hlt hc hge =>
    rw [decimalValue_concat] at hge
    rw [readDigits_append hbefore hlt, readDigits, digit?_of_isDigit hc]
    exact if_neg (Nat.not_lt.mpr hge)

/-- … and finds no other fault: `before` are the digits that have been read. -/
theorem firstOffence_of_readDigits (hbefore : ∀ d ∈ before, d.isDigit = true)
    (hlt : decimalValue before < UInt64.size)
    (h : readDigits (decimalValue before) cs = .error f) : FirstOffence (before ++ cs) f := by
  -- on the characters that are left, each of which is an offence or one more digit
  induction cs generalizing before with
  | nil => cases h
  | cons c cs ih =>
    rw [readDigits] at h
    cases hc : c.isDigit with
    | false =>
      rw [digit?_of_not_isDigit hc] at h
      cases h
      exact .noDigit hbefore hlt hc
    | true =>
      rw [digit?_of_isDigit hc] at h
      dsimp only at h
      rw [← decimalValue_concat] at h
      split at h
      · -- no offence: the digit joins those that have been read
        next hfits =>
        have hmore : ∀ d ∈ before ++ [c], d.isDigit = true := fun d hd =>
          (List.mem_append.mp hd).elim (hbefore d) fun hd => List.mem_singleton.mp hd ▸ hc
        have hrest := ih hmore hfits h
        rwa [List.append_assoc, List.singleton_append] at hrest
      · -- with this digit the number has left its words
        next hlarge =>
        cases h
        exact .tooLarge hbefore hlt hc (Nat.not_lt.mp hlarge)

/-- **Faults of digits** are first offences. -/
theorem readDigits_eq_error_iff : readDigits 0 cs = .error f ↔ FirstOffence cs f :=
  -- in the beginning no digit has been read
  have hnil : ∀ d ∈ ([] : List Char), d.isDigit = true := nofun
  ⟨firstOffence_of_readDigits hnil (by decide), readDigits_of_firstOffence⟩

end Digits

/-! ### Whole texts -/

section Texts

variable {cs : List Char} {text : String} {f : SecsFault}

/-- A text of more than a sign is read from after its sign. -/
theorem readNumber_eq_readDigits (h : afterPlus cs ≠ []) :
    readNumber cs = readDigits 0 (afterPlus cs) := by
  unfold readNumber
  split
  · exact absurd rfl h
  · exact absurd rfl h
  · rfl
  · next hne hsign hplus =>
    -- there is no sign in front
    unfold afterPlus
    split
    · next digits => exact absurd rfl (hplus digits)
    · rfl

/-- Where there is nothing there is no offence. -/
theorem FirstOffence.ne_nil (h : FirstOffence cs f) : cs ≠ [] := by
  cases h <;> exact List.append_ne_nil_of_right_ne_nil _ (List.cons_ne_nil _ _)

theorem FirstOffence.ne_empty (h : FirstOffence cs f) : f ≠ .empty := by
  cases h <;> nofun

/-- Nothing after the sign means that there is nothing, or the sign alone. -/
theorem eq_of_afterPlus_eq_nil (h : afterPlus cs = []) : cs = [] ∨ cs = ['+'] := by
  unfold afterPlus at h
  split at h
  · exact .inr (by rw [h])
  · exact .inl h

/-- **Faults of numbers** are those of texts without white space around them. -/
theorem readNumber_eq_error_iff : readNumber cs = .error f ↔ SecsText.Refused cs f := by
  by_cases hnil : afterPlus cs = []
  · -- there is no digit to be read
    rcases eq_of_afterPlus_eq_nil hnil with rfl | rfl
    · constructor
      · rintro ⟨⟩
        exact .empty
      · rintro (_ | _ | h)
        · rfl
        · exact absurd hnil h.ne_nil
    · constructor
      · rintro ⟨⟩
        exact .signAlone
      · rintro (_ | _ | h)
        · rfl
        · exact absurd hnil h.ne_nil
  · rw [readNumber_eq_readDigits hnil, readDigits_eq_error_iff]
    constructor
    · exact .offence
    · rintro (_ | _ | h)
      · exact absurd rfl hnil
      · exact absurd rfl hnil
      · exact h

/-- There being no text is the reason only where there is none. -/
theorem SecsText.refused_empty_iff : SecsText.Refused cs .empty ↔ cs = [] := by
  constructor
  · -- the reason is made a variable, since the cases are about the text
    generalize hf : SecsFault.empty = f
    rintro (_ | _ | h)
    · rfl
    · cases hf
    · exact absurd hf.symm h.ne_empty
  · rintro rfl
    exact .empty

/-- A time to live is refused for the fault of its trimmed text. -/
theorem readTtl_eq_error_iff :
    readTtl text = .error f ↔ ∃ rest, Text.Trimmed text.toList rest ∧ SecsText.Refused rest f := by
  simp only [Text.trimmed_iff, exists_eq_left', ← readNumber_eq_error_iff]
  show _ ↔ readSecs text = .error f
  unfold readTtl
  split
  · next n h => exact iff_of_false nofun fun he => nomatch h.symm.trans he
  · next e h => rw [h, Except.error.injEq, Except.error.injEq]

end Texts

/-! ### What is reported -/

namespace Setting

/-- The configuration with a time to live set. -/
def withTtl (d : Duration) (c : Config) : Setting → Config
  | .mode => c
  | .warmupTtl => { c with warmupTtl := d }
  | .l1Ttl => { c with l1Ttl := d }
  | .l2Ttl => { c with l2Ttl := d }

/-- A setting for a time to live is read as one, and a fault is given by its text. -/
theorem apply_eq {s : Setting} (hs : s ≠ .mode) (text : String) (c : Config) :
    s.apply text c = ((readTtl text).map fun d => s.withTtl d c).mapError SecsFault.message := by
  cases s with
  | mode => exact absurd rfl hs
  | warmupTtl | l1Ttl | l2Ttl =>
    unfold apply
    cases readTtl text <;> rfl

end Setting

/-- No two faults have the same text. -/
theorem SecsFault.message_injective : Function.Injective SecsFault.message := by
  intro f g h
  cases f <;> cases g <;> first | rfl | exact absurd h (by decide)

/-- **Every text of a time to live is read or refused for one reason.** It stands for `n` seconds if
it is a number of seconds, and white space around it (`SecsText`); the reason why it is refused is
that there is nothing but white space, or that there is nothing after the sign, or the first offence
after the sign. Loading reports the name of the setting, the text as it is, and the reason. -/
theorem readTtl_classified (text : String) :
    (∀ d, readTtl text = .ok d ↔ ∃ rest n, Text.Trimmed text.toList rest ∧ SecsText rest n ∧
      d.secs = n ∧ d.nanos = 0) ∧
    (∀ f, readTtl text = .error f ↔
      ∃ rest, Text.Trimmed text.toList rest ∧ SecsText.Refused rest f) ∧
    (readTtl text = .error .empty ↔ Text.Trimmed text.toList []) ∧
    Function.Injective SecsFault.message ∧
    ∀ s : Setting, s ≠ .mode → ∀ lookup, lookup s.name = some text → ∀ ss c,
      (∀ d, readTtl text = .ok d → Config.loadFrom lookup (s :: ss) c =
        (s.name :: (Config.loadFrom lookup ss (s.withTtl d c)).1,
          (Config.loadFrom lookup ss (s.withTtl d c)).2)) ∧
      ∀ f, readTtl text = .error f → Config.loadFrom lookup (s :: ss) c =
        ([s.name], .error (.invalidSetting s.name text f.message)) := by
  refine ⟨fun d => readTtl_eq_ok_iff, fun f => readTtl_eq_error_iff, ?_,
    SecsFault.message_injective, ?_⟩
  · simp only [readTtl_eq_error_iff, SecsText.refused_empty_iff, exists_eq_right]
  · intro s hs lookup hlookup ss c
    -- loading looks the setting up, reads its text, and goes on or stops
    refine ⟨fun d hd => ?_, fun f hf => ?_⟩
    · rw [Config.loadFrom, hlookup]
      dsimp only
      rw [Setting.apply_eq hs, hd]
      rfl
    · rw [Config.loadFrom, hlookup]
      dsimp only
      rw [Setting.apply_eq hs, hf]
      rfl

/-- Twenty digits of which the last makes the number too large, and then a letter: the digit is
the offence, as it comes first, and the text is reported with its white space. -/
theorem readTtl_classified_twoFaults :
    let text := " +18446744073709551616x "
    (∃ rest, Text.Trimmed text.toList rest ∧ SecsText.Refused rest .tooLarge) ∧
    Config.loadFrom (fun _ => some text) [.l1Ttl, .l2Ttl] {} =
      (["CACHE_L1_TTL_SECS"], .error (.invalidSetting "CACHE_L1_TTL_SECS" text
        "number too large to fit in target type")) := by
  intro text
  obtain ⟨-, hrefused, -, -, hload⟩ := readTtl_classified text
  have hread : readTtl text = .error .tooLarge := by decide
  exact ⟨(hrefused .tooLarge).mp hread,
    (hload .l1Ttl (by decide) _ rfl [.l2Ttl] {}).2 .tooLarge hread⟩

end TwoTier
