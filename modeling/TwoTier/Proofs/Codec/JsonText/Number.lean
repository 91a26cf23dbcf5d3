import TwoTier.Codec.JsonText.Read
import TwoTier.Codec.JsonText.Write
import TwoTier.Proofs.Codec.Takes

/-!
# Integers in JSON text

An integer is written in decimal digits, with a minus sign in front if it is negative
(`writeInt_eq`). Digits do not end by themselves: more of them, a fraction or an exponent may follow
(`goesOn`). Before any other byte, and at the end of the input, `number` takes the digits of an
integer of 64 bits for it (`takes_number`).
-/

namespace TwoTier

namespace JsonText

open Reader

/-! ### Decimal digits -/

/-- The digits of a natural. -/
def decimal (n : Nat) : Bytes := (Nat.toDigits 10 n).map Bytes.ascii

/-- A digit as a byte. -/
def digitByte (d : Nat) : UInt8 := Bytes.ascii (Nat.digitChar d)

/-- A digit is written as a digit, -/
theorem isDigit_digitByte {d : Nat} (h : d < 10) : isDigit (digitByte d) = true := by
  decide +revert

/-- and stands for itself. -/
theorem digitValue_digitByte {d : Nat} (h : d < 10) : digitValue (digitByte d) = d := by
  decide +revert

theorem digitByte_eq_zero {d : Nat} (h : d < 10) (h0 : digitByte d = 0x30) : d = 0 := by
  decide +revert

/-- A number below ten is one digit. -/
theorem decimal_of_lt {n : Nat} (h : n < 10) : decimal n = [digitByte n] := by
  rw [decimal, Nat.toDigits_of_lt_base h]
  rfl

/-- Any other is that of its tenth part, and one digit more. -/
theorem decimal_of_le {n : Nat} (h : 10 ≤ n) :
    decimal n = decimal (n / 10) ++ [digitByte (n % 10)] := by
  rw [decimal, Nat.toDigits_of_base_le (by decide) h, List.map_append]
  rfl

/-- All of what is written of a natural are digits. -/
theorem isDigit_of_mem_decimal (n : Nat) : ∀ d ∈ decimal n, isDigit d = true := by
  induction n using Nat.strongRecOn with
  | ind n ih =>
    intro d hd
    -- the last digit, and those of a smaller number before it
    by_cases h : n < 10
    · rw [decimal_of_lt h] at hd
      rw [List.mem_singleton.mp hd]
      exact isDigit_digitByte h
    · rw [decimal_of_le (by omega)] at hd
      rcases List.mem_append.mp hd with hd | hd
      · exact ih (n / 10) (by omega) d hd
      · rw [List.mem_singleton.mp hd]
        exact isDigit_digitByte (Nat.mod_lt n (by decide))

/-- **The digits of a natural have its value.** -/
theorem digitsValue_decimal (n : Nat) : digitsValue (decimal n) = n := by
  induction n using Nat.strongRecOn with
  | ind n ih =>
    by_cases h : n < 10
    · rw [decimal_of_lt h, digitsValue, List.foldl_cons, List.foldl_nil, digitValue_digitByte h]
      omega
    · -- the value of the digits before the last one, ten times over, and the last one
      have hrec := ih (n / 10) (by omega)
      have hdigit := digitValue_digitByte (Nat.mod_lt n (show 0 < 10 by decide))
      rw [digitsValue] at hrec
      rw [decimal_of_le (by omega), digitsValue, List.foldl_append, hrec, List.foldl_cons,
        List.foldl_nil, hdigit]
      omega

/-- Only zero begins with the digit zero. -/
theorem decimal_eq_cons (n : Nat) :
    ∃ d ds, decimal n = d :: ds ∧ (d = 0x30 → ds = []) := by
  -- a positive number has a first digit that is not zero, and keeps it when digits are appended
  have hpos (n : Nat) : 0 < n → ∃ d ds, decimal n = d :: ds ∧ d ≠ 0x30 := by
    induction n using Nat.strongRecOn with
    | ind n ih =>
      intro hn
      by_cases h : n < 10
      · exact ⟨digitByte n, [], decimal_of_lt h, fun h0 => by
          have := digitByte_eq_zero h h0
          omega⟩
      · obtain ⟨d, ds, hds, hd⟩ := ih (n / 10) (by omega) (by omega)
        refine ⟨d, ds ++ [digitByte (n % 10)], ?_, hd⟩
        rw [decimal_of_le (by omega), hds]
        rfl
  by_cases h : n = 0
  · exact ⟨digitByte 0, [], by rw [h]; rfl, fun _ => rfl⟩
  · obtain ⟨d, ds, hds, hd⟩ := hpos n (by omega)
    exact ⟨d, ds, hds, fun h0 => absurd h0 hd⟩

/-- A digit is one byte of UTF-8. -/
theorem utf8EncodeChar_digit {c : Char} (h : c.isDigit = true) :
    String.utf8EncodeChar c = [Bytes.ascii c] := by
  have hle : c.val.toNat ≤ 127 := by
    simp only [Char.isDigit, Bool.and_eq_true, decide_eq_true_eq, ge_iff_le,
      UInt32.le_iff_toNat_le] at h
    have h9 : '9'.val.toNat = 57 := rfl
    omega
  unfold String.utf8EncodeChar
  simp only [if_pos hle]
  rfl

/-- What is printed of a natural are its digits. -/
theorem ofText_repr (n : Nat) : Bytes.ofText n.repr = decimal n := by
  rw [Nat.repr_eq_ofList_toDigits, Bytes.ofText_ofList, decimal]
  have hdigit (c) (hc : c ∈ Nat.toDigits 10 n) : String.utf8EncodeChar c = [Bytes.ascii c] :=
    utf8EncodeChar_digit (Nat.isDigit_of_mem_toDigits (by decide) (by decide) hc)
  rw [List.flatMap_def, List.map_congr_left hdigit, ← List.flatMap_def, ← List.map_eq_flatMap]

/-- An integer is its digits, after a minus sign if it is negative. -/
theorem writeInt_eq (i : Int) :
    writeInt i = (if i < 0 then [Bytes.ascii '-'] else []) ++ decimal i.natAbs := by
  cases i with
  | ofNat n =>
    have hneg : ¬ Int.ofNat n < 0 := Int.not_lt.mpr (Int.natCast_nonneg n)
    rw [if_neg hneg, List.nil_append]
    exact ofText_repr n
  | negSucc n =>
    have htext : toString (Int.negSucc n) = "-" ++ (n + 1).repr := rfl
    rw [if_pos (Int.negSucc_lt_zero n), writeInt, htext]
    simp only [Int.natAbs_negSucc, ← ofText_repr, Bytes.ofText, String.toByteArray_append,
      ByteArray.data_append, Array.toList_append]
    rfl

/-! ### Reading digits -/

/-- A byte that goes on with a number. -/
def goesOn (b : UInt8) : Bool :=
  isDigit b || b == Bytes.ascii '.' || b == Bytes.ascii 'e' || b == Bytes.ascii 'E'

/-- Digits below the limit of the significand are all used. -/
theorem gather_eq (n : Nat) (ds : Bytes)
    (h : ds.foldl (fun n d => n * 10 + digitValue d) n < UInt64.size) :
    gather n ds = (ds.foldl (fun n d => n * 10 + digitValue d) n, []) := by
  induction ds generalizing n with
  | nil => rfl
  | cons d ds ih =>
    -- what was gathered never gets less, so that it stays below the limit on the way
    have hle (ds : Bytes) (m : Nat) : m ≤ ds.foldl (fun n d => n * 10 + digitValue d) m := by
      induction ds generalizing m with
      | nil => exact Nat.le_refl m
      | cons d ds ih => exact Nat.le_trans (by omega) (ih (m * 10 + digitValue d))
    have hlt := Nat.lt_of_le_of_lt (hle ds (n * 10 + digitValue d)) h
    rw [gather]
    simp only [if_pos hlt]
    exact ih _ h

theorem goesOn_of_isDigit {c : UInt8} (h : isDigit c = true) : goesOn c = true := by
  rw [goesOn, h]
  rfl

/-- **The digits of a natural are read whole**, up to a byte that is none. -/
theorem takes_whole (n : Nat) : Takes isDigit whole (decimal n) (decimal n) := by
  obtain ⟨d, ds, hds, hzero⟩ := decimal_eq_cons n
  have hdigit := isDigit_of_mem_decimal n
  rw [hds] at hdigit ⊢
  -- a zero in front stands alone
  have hleading : ¬ (d == Bytes.ascii '0' && !ds.isEmpty) = true := by
    intro h
    simp only [Bool.and_eq_true, beq_iff_eq] at h
    rw [hzero h.1] at h
    exact absurd h.2 (by decide)
  refine (Takes.byte Fault.truncated d).bind ?_
  rw [if_pos (hdigit d List.mem_cons_self)]
  refine (Takes.span fun x hx => hdigit x (List.mem_cons_of_mem d hx)).bind_nil fun s => ?_
  rw [if_neg hleading]
  rfl

/-- There is no fraction, if the next byte does not go on with the number. -/
theorem takes_fraction : Takes goesOn fraction [] none :=
  .of_run_eq fun s hs => by
    cases s with
    | nil => rfl
    | cons c s =>
      have hc : goesOn c = false := hs c rfl
      have hpoint : (some c == some (Bytes.ascii '.')) = false := by
        simp only [goesOn, Bool.or_eq_false_iff] at hc
        exact hc.1.1.2
      simp only [fraction, run_bind, run_peek, List.head?_cons, hpoint]
      rfl

/-- Nor is there an exponent. -/
theorem takes_exponent : Takes goesOn exponent [] none :=
  .of_run_eq fun s hs => by
    cases s with
    | nil => rfl
    | cons c s =>
      have hc : goesOn c = false := hs c rfl
      have hmark :
          (some c == some (Bytes.ascii 'e') || some c == some (Bytes.ascii 'E')) = false := by
        simp only [goesOn, Bool.or_eq_false_iff] at hc ⊢
        exact ⟨hc.1.2, hc.2⟩
      simp only [exponent, run_bind, run_peek, List.head?_cons, hmark]
      rfl

/-- The number that digits without fraction and exponent stand for. -/
theorem ofParts_decimal {i : Int} (h : Json.InRange i) :
    Number.ofParts (decide (i < 0)) (decimal i.natAbs) none none = .ok (.int i) := by
  obtain ⟨hlow, hhigh⟩ := h
  have hdigits := digitsValue_decimal i.natAbs
  rw [digitsValue] at hdigits
  -- all digits fit, so none is dropped
  have hgather : gather 0 (decimal i.natAbs) = (i.natAbs, []) := by
    rw [gather_eq, hdigits]
    rw [hdigits, UInt64.size]
    omega
  rw [Number.ofParts, hgather]
  by_cases hneg : i < 0
  · have hrange : 0 < i.natAbs ∧ i.natAbs ≤ 0x8000000000000000 := by omega
    have hval : -(i.natAbs : Int) = i := by omega
    simp only [hneg, decide_true, Bool.not_true, Bool.false_eq_true, if_false, if_pos hrange, hval]
  · have hval : (i.natAbs : Int) = i := by omega
    simp only [hneg, decide_false, Bool.not_false, if_true, hval]

/-- **The digits of an integer are read as it**, up to a byte that does not go on with them. -/
theorem takes_number {i : Int} (h : Json.InRange i) :
    Takes goesOn number (writeInt i) (.int i) := by
  -- what is read after the sign
  have hrest : Takes goesOn (do
      let ds ← whole
      let f ← fraction
      let e ← exponent
      ofExcept (Number.ofParts (decide (i < 0)) ds f e)) (decimal i.natAbs) (.int i) := by
    refine ((takes_whole i.natAbs).mono fun _ => goesOn_of_isDigit).bind_empty ?_
    refine takes_fraction.bind_empty (takes_exponent.bind_empty ?_)
    rw [ofParts_decimal h]
    exact .pure _
  rw [writeInt_eq, number]
  by_cases hneg : i < 0
  · rw [if_pos hneg]
    refine Takes.peek ?_ ⟨_, rfl⟩
    rw [decide_eq_true hneg] at hrest
    exact (Takes.byte Fault.truncated _).bind hrest
  · rw [if_neg hneg, List.nil_append]
    -- the first byte is a digit, and no sign
    obtain ⟨d, ds, hds, -⟩ := decimal_eq_cons i.natAbs
    have hd : isDigit d = true :=
      isDigit_of_mem_decimal i.natAbs d (by rw [hds]; exact List.mem_cons_self)
    have hminus : (some d == some (Bytes.ascii '-')) = false := by
      refine beq_eq_false_iff_ne.mpr fun h => ?_
      cases h
      cases hd
    rw [decide_eq_false hneg] at hrest
    rw [hds] at hrest ⊢
    refine Takes.peek ?_ ⟨_, rfl⟩
    simp only [hminus]
    exact hrest

end JsonText

end TwoTier
