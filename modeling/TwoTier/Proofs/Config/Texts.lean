import Mathlib.Data.Nat.Digits.Defs
import TwoTier.Config.Settings

/-!
# The texts of settings

Which texts a setting can be read from, said without the way in which they are read.

* `Text.Trimmed` says what is left of a text without the white space around it; there is exactly one
  such rest (`trimmed_iff`).
* `SecsText` is the grammar of numbers of seconds, on what is left: a sign or none, and digits, with
  the number that they stand for in base ten. Reading goes through the digits from the left and
  gives up as soon as the number is too large; since appending digits never makes a number smaller,
  that is no sooner than it must (`readDigits_eq_ok_iff`).
* `Mode.Named` and `SecsText.Names` are the texts of the two kinds of settings as a whole.
-/

namespace TwoTier

/-! ### White space around a text -/

namespace Text

/-- **`rest` is what is left of `cs`** without the white space at both ends. -/
structure Trimmed (cs rest : List Char) : Prop where
  split : ∃ before after, cs = before ++ rest ++ after ∧
    (∀ c ∈ before, isBlank c = true) ∧ ∀ c ∈ after, isBlank c = true
  head : ∀ c, rest.head? = some c → isBlank c = false
  last : ∀ c, rest.getLast? = some c → isBlank c = false

section Trimmed

variable {cs rest : List Char}

/-- Dropping white space drops all of it, and stops there. -/
theorem dropWhile_isBlank {before : List Char} (hbefore : ∀ c ∈ before, isBlank c = true)
    (hrest : ∀ c, rest.head? = some c → isBlank c = false) :
    (before ++ rest).dropWhile isBlank = rest := by
  rw [List.dropWhile_append_of_pos hbefore]
  cases rest with
  | nil => rfl
  | cons c rest =>
    have hc : isBlank c = false := hrest c rfl
    exact List.dropWhile_cons_of_neg (by rw [hc]; exact Bool.false_ne_true)

/-- What is left after dropping white space does not begin with any. -/
theorem head_dropWhile_isBlank (cs : List Char) (c : Char)
    (h : (cs.dropWhile isBlank).head? = some c) : isBlank c = false := by
  have hnot := List.head?_dropWhile_not isBlank cs
  rw [h] at hnot
  exact hnot

/-- Trimming takes white space off both ends, and no more. -/
theorem trimBlank_append {before after : List Char} (hbefore : ∀ c ∈ before, isBlank c = true)
    (hafter : ∀ c ∈ after, isBlank c = true)
    (hhead : ∀ c, rest.head? = some c → isBlank c = false)
    (hlast : ∀ c, rest.getLast? = some c → isBlank c = false) :
    trimBlank (before ++ rest ++ after) = rest := by
  have hafter' : ∀ c ∈ after.reverse, isBlank c = true := fun c hc =>
    hafter c (List.mem_reverse.mp hc)
  -- trimming the end is trimming the front of the reversed text
  have hlast' : ∀ c, rest.reverse.head? = some c → isBlank c = false := by
    rw [List.head?_reverse]
    exact hlast
  unfold trimBlank
  cases rest with
  | nil =>
    -- all is white space
    have hall : ∀ c ∈ before ++ after, isBlank c = true := fun c hc =>
      (List.mem_append.mp hc).elim (hbefore c) (hafter c)
    have hdrop : ((before ++ after) ++ []).dropWhile isBlank = [] := dropWhile_isBlank hall nofun
    rw [List.append_nil] at hdrop ⊢
    rw [hdrop]
    rfl
  | cons x rest =>
    have hhead' : ∀ c, (x :: rest ++ after).head? = some c → isBlank c = false := hhead
    rw [List.append_assoc, dropWhile_isBlank hbefore hhead', List.reverse_append,
      dropWhile_isBlank hafter' hlast', List.reverse_reverse]

/-- Every text has something left, if only nothing. -/
theorem trimmed_trimBlank (cs : List Char) : Trimmed cs (trimBlank cs) := by
  -- the text from its first character that is not white space on, backwards
  let inner := (cs.dropWhile isBlank).reverse
  have hinner : inner.takeWhile isBlank ++ inner.dropWhile isBlank = inner :=
    List.takeWhile_append_dropWhile
  have hrest : cs.dropWhile isBlank = trimBlank cs ++ (inner.takeWhile isBlank).reverse := by
    calc cs.dropWhile isBlank
      _ = inner.reverse := (List.reverse_reverse _).symm
      _ = (inner.takeWhile isBlank ++ inner.dropWhile isBlank).reverse := by rw [hinner]
      _ = trimBlank cs ++ (inner.takeWhile isBlank).reverse := List.reverse_append
  refine ⟨⟨cs.takeWhile isBlank, (inner.takeWhile isBlank).reverse, ?_, ?_, ?_⟩, ?_, ?_⟩
  · rw [List.append_assoc, ← hrest, List.takeWhile_append_dropWhile]
  · exact fun c hc => List.all_eq_true.mp List.all_takeWhile c hc
  · exact fun c hc => List.all_eq_true.mp List.all_takeWhile c (List.mem_reverse.mp hc)
  · intro c hc
    refine head_dropWhile_isBlank cs c ?_
    rw [hrest, List.head?_append, hc]
    rfl
  · intro c hc
    refine head_dropWhile_isBlank inner c ?_
    rw [← List.getLast?_reverse]
    exact hc

/-- **There is one rest**, and trimming finds it. -/
theorem trimmed_iff : Trimmed cs rest ↔ trimBlank cs = rest := by
  constructor
  · rintro ⟨⟨before, after, rfl, hbefore, hafter⟩, hhead, hlast⟩
    exact trimBlank_append hbefore hafter hhead hlast
  · rintro rfl
    exact trimmed_trimBlank cs

end Trimmed

end Text

/-! ### Numbers of seconds -/

/-- The value of a digit. -/
def digitValue (c : Char) : Nat := c.toNat - '0'.toNat

/-- The number that digits stand for in base ten, the most significant first. -/
def decimalValue (cs : List Char) : Nat := Nat.ofDigits 10 (cs.reverse.map digitValue)

/-- **A number of seconds**, as it may be written: digits, after a plus sign or none, that stand for
a number below `2 ^ 64`. -/
structure SecsText (cs : List Char) (n : Nat) : Prop where
  split : ∃ sign digits, cs = sign ++ digits ∧ (sign = [] ∨ sign = ['+']) ∧ digits ≠ [] ∧
    (∀ c ∈ digits, c.isDigit = true) ∧ decimalValue digits = n
  lt : n < 2 ^ 64

section Digits

variable {c : Char} {cs : List Char} {d n m : Nat}

/-- A character is read as a digit exactly if it is one in base ten. -/
theorem digit?_eq_some_iff : digit? c = some d ↔ c.isDigit = true ∧ digitValue c = d := by
  have hdigit : ('0' ≤ c && c ≤ '9') = c.isDigit := by
    simp only [Char.isDigit, Char.le_def]
  unfold digit?
  rw [hdigit]
  cases c.isDigit with
  | true => simp [digitValue]
  | false => simp

/-- The first digit stands for the greatest power of ten. -/
theorem decimalValue_cons (c : Char) (cs : List Char) :
    decimalValue (c :: cs) = digitValue c * 10 ^ cs.length + decimalValue cs := by
  unfold decimalValue
  rw [List.reverse_cons, List.map_append, List.map_singleton, Nat.ofDigits_append,
    Nat.ofDigits_singleton, List.length_map, List.length_reverse, Nat.mul_comm, Nat.add_comm]

/-- **Reading digits** after a number comes to the number that they stand for together, if that is
not too large. -/
theorem readDigits_eq_ok_iff (hn : n < UInt64.size) :
    readDigits n cs = .ok m ↔ (∀ c ∈ cs, c.isDigit = true) ∧
      n * 10 ^ cs.length + decimalValue cs = m ∧ m < UInt64.size := by
  -- digit after digit, the number read so far being arbitrary
  induction cs generalizing n with
  | nil =>
    have hnil : decimalValue [] = 0 := rfl
    simp only [readDigits, List.not_mem_nil, List.length_nil, hnil, Except.ok.injEq]
    constructor
    · rintro rfl
      exact ⟨fun c hc => hc.elim, by omega, hn⟩
    · rintro ⟨-, h, -⟩
      omega
  | cons c cs ih =>
    -- the first digit joins the number read so far
    have hvalue : n * 10 ^ (c :: cs).length + decimalValue (c :: cs) =
        (n * 10 + digitValue c) * 10 ^ cs.length + decimalValue cs := by
      rw [decimalValue_cons, List.length_cons, Nat.pow_succ]
      ring
    rw [readDigits, hvalue, List.forall_mem_cons]
    cases hc : digit? c with
    | none =>
      have hnot : c.isDigit ≠ true := fun h =>
        Option.some_ne_none _ ((digit?_eq_some_iff.mpr ⟨h, rfl⟩).symm.trans hc)
      exact iff_of_false (by rintro ⟨⟩) fun h => hnot h.1.1
    | some d =>
      obtain ⟨hdigit, rfl⟩ := digit?_eq_some_iff.mp hc
      dsimp only
      split
      · next hlt =>
        rw [ih hlt]
        exact and_congr_left' (and_iff_right hdigit).symm
      · next hge =>
        -- what is too large stays so, however many digits follow
        refine iff_of_false (by rintro ⟨⟩) ?_
        rintro ⟨-, h, hm⟩
        have hpos : 0 < 10 ^ cs.length := Nat.pow_pos (by decide)
        have hle : n * 10 + digitValue c ≤ (n * 10 + digitValue c) * 10 ^ cs.length :=
          Nat.le_mul_of_pos_right _ hpos
        omega

/-- A sign alone is no number, and no digit is a sign. -/
theorem readNumber_eq (cs : List Char) :
    readNumber cs = .error .empty ∧ cs = [] ∨ readNumber cs = .error .invalidDigit ∧ cs = ['+'] ∨
      ∃ sign digits, cs = sign ++ digits ∧ (sign = [] ∨ sign = ['+']) ∧ digits ≠ [] ∧
        readNumber cs = readDigits 0 digits := by
  unfold readNumber
  split
  · exact .inl ⟨rfl, rfl⟩
  · exact .inr (.inl ⟨rfl, rfl⟩)
  · next digits hne =>
    exact .inr (.inr ⟨['+'], digits, rfl, .inr rfl, fun h => hne h, rfl⟩)
  · next hne hsign hplus =>
    exact .inr (.inr ⟨[], cs, rfl, .inl rfl, hne, rfl⟩)

/-- **Numbers are read** exactly if they are written as numbers of seconds are. -/
theorem readNumber_eq_ok_iff : readNumber cs = .ok n ↔ SecsText cs n := by
  have hzero : 0 < UInt64.size := by decide
  constructor
  · intro h
    rcases readNumber_eq cs with ⟨he, -⟩ | ⟨he, -⟩ | ⟨sign, digits, rfl, hsign, hne, he⟩
    · cases he.symm.trans h
    · cases he.symm.trans h
    · obtain ⟨hdigits, hvalue, hlt⟩ := (readDigits_eq_ok_iff hzero).mp (he.symm.trans h)
      rw [Nat.zero_mul, Nat.zero_add] at hvalue
      exact ⟨⟨sign, digits, rfl, hsign, hne, hdigits, hvalue⟩, hlt⟩
  · rintro ⟨⟨sign, digits, rfl, hsign, hne, hdigits, hvalue⟩, hlt⟩
    have hread : readDigits 0 digits = .ok n := by
      refine (readDigits_eq_ok_iff hzero).mpr ⟨hdigits, ?_, hlt⟩
      rw [Nat.zero_mul, Nat.zero_add, hvalue]
    -- a digit in front is no sign, so the last rule applies
    cases digits with
    | nil => exact absurd rfl hne
    | cons c digits =>
      rcases hsign with rfl | rfl
      · have hc : c.isDigit = true := hdigits c List.mem_cons_self
        rw [← hread]
        unfold readNumber
        split
        · next h => cases h
        · next h =>
          obtain ⟨rfl, -⟩ := List.cons.inj h
          cases hc
        · next h =>
          obtain ⟨rfl, -⟩ := List.cons.inj h
          cases hc
        · rfl
      · exact hread

end Digits

/-- **A time to live by its text**: a number of seconds, and white space around it. -/
def SecsText.Names (text : String) (d : Duration) : Prop :=
  ∃ rest n, Text.Trimmed text.toList rest ∧ SecsText rest n ∧ d.secs = n ∧ d.nanos = 0

/-- **Times to live are read** by their texts. -/
theorem readTtl_eq_ok_iff {text : String} {d : Duration} :
    readTtl text = .ok d ↔ SecsText.Names text d := by
  unfold SecsText.Names
  simp only [Text.trimmed_iff, exists_and_left, exists_eq_left', ← readNumber_eq_ok_iff]
  show readTtl text = .ok d ↔ ∃ n, readSecs text = .ok n ∧ d.secs = n ∧ d.nanos = 0
  unfold readTtl
  split
  · next n h =>
    simp only [h, Except.ok.injEq, exists_eq_left']
    have hsecs : (UInt64.ofNatLT n (readSecs_lt h)).toNat = n := UInt64.toNat_ofNatLT
    constructor
    · rintro rfl
      exact ⟨hsecs, rfl⟩
    · rintro ⟨hs, hz⟩
      -- a time to live is fixed by its seconds and its nanoseconds
      exact Duration.ext_toNanos (by simp only [Duration.toNanos, Duration.ofSecs, hs, hz, hsecs])
  · next e h =>
    rw [h]
    refine iff_of_false (by rintro ⟨⟩) ?_
    rintro ⟨n, hn, -⟩
    cases hn

/-- A text is one of a time to live exactly if it is a number of seconds. -/
theorem SecsText.exists_names_iff {text : String} :
    (∃ d, SecsText.Names text d) ↔ ∃ rest n, Text.Trimmed text.toList rest ∧ SecsText rest n := by
  constructor
  · rintro ⟨d, rest, n, hrest, hn, -⟩
    exact ⟨rest, n, hrest, hn⟩
  · rintro ⟨rest, n, hrest, hn⟩
    have hsecs : (UInt64.ofNatLT n hn.lt).toNat = n := UInt64.toNat_ofNatLT
    exact ⟨.ofSecs (UInt64.ofNatLT n hn.lt), rest, n, hrest, hn, hsecs, rfl⟩

/-! ### Names of modes -/

namespace Mode

/-- A name is compared with its ASCII letters in lower case, and with an underscore for a hyphen. -/
theorem foldChar_eq (c : Char) : foldChar c =
    if c = '-' then '_' else if 'A' ≤ c ∧ c ≤ 'Z' then Char.ofNat (c.toNat + 32) else c := by
  -- the letters are few enough to be checked one by one
  have hletters : ∀ n < 91, 65 ≤ n → (Char.ofNat n).toLower = Char.ofNat (n + 32) := by decide
  unfold foldChar
  by_cases hc : c = '-'
  · rw [hc]
    rfl
  · rw [if_neg hc, if_neg (by simpa using hc)]
    -- only capital letters of ASCII change
    by_cases hupper : 'A' ≤ c ∧ c ≤ 'Z'
    · have hlo : 65 ≤ c.toNat := hupper.1
      have hhi : c.toNat ≤ 90 := hupper.2
      have hlower := hletters c.toNat (by omega) hlo
      rw [Char.ofNat_toNat] at hlower
      rw [if_pos hupper, hlower]
    · rw [if_neg hupper]
      exact dif_neg hupper

/-- **A mode by its text**: one of its spellings, up to the case of ASCII letters and the choice
between hyphen and underscore, and white space around it. -/
def Named (text : String) (m : Mode) : Prop :=
  ∃ rest, Text.Trimmed text.toList rest ∧ (String.ofList (rest.map foldChar), m) ∈ spellings

/-- No spelling is that of two modes. -/
theorem lookup_spellings_iff {name : String} {m : Mode} :
    spellings.lookup name = some m ↔ (name, m) ∈ spellings := by
  -- no spelling is listed twice
  have hnodup : spellings.Pairwise fun a b => a.1 ≠ b.1 := by decide
  rw [List.lookup_eq_some_iff]
  constructor
  · rintro ⟨before, after, hsplit, -⟩
    rw [hsplit]
    exact List.mem_append_right _ List.mem_cons_self
  · intro hmem
    obtain ⟨before, after, hsplit⟩ := List.append_of_mem hmem
    refine ⟨before, after, hsplit, fun e he => ?_⟩
    rw [hsplit, List.pairwise_append] at hnodup
    have hne : e.1 ≠ name := hnodup.2.2 e he _ List.mem_cons_self
    simpa using hne.symm

/-- A text names a mode exactly if it is one of nine, when it is compared. -/
theorem exists_named_iff {text : String} :
    (∃ m, Named text m) ↔ ∃ rest, Text.Trimmed text.toList rest ∧
      String.ofList (rest.map foldChar) ∈ ["both", "both_levels", "bothlevels", "l1", "l1_only",
        "l1only", "l2", "l2_only", "l2only"] := by
  have hnames (name : String) : (∃ m, (name, m) ∈ spellings) ↔
      name ∈ ["both", "both_levels", "bothlevels", "l1", "l1_only", "l1only", "l2", "l2_only",
        "l2only"] := by
    show _ ↔ name ∈ spellings.map Prod.fst
    rw [List.mem_map]
    exact ⟨fun ⟨m, hm⟩ => ⟨(name, m), hm, rfl⟩, fun ⟨e, he, hname⟩ => ⟨e.2, hname ▸ he⟩⟩
  unfold Named
  rw [exists_comm]
  simp only [exists_and_left, hnames]

/-- **Modes are read** by their texts. -/
theorem parse_eq_ok_iff {text : String} {m : Mode} : parse text = .ok m ↔ Named text m := by
  have hfold : foldText text = String.ofList ((Text.trimBlank text.toList).map foldChar) := rfl
  unfold parse Named
  simp only [Text.trimmed_iff, exists_eq_left', ← hfold, ← lookup_spellings_iff]
  cases spellings.lookup (foldText text) with
  | none => exact iff_of_false nofun nofun
  | some m' => simp

end Mode

end TwoTier
