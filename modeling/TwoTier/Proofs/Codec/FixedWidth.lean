import TwoTier.Codec.FixedWidth
import TwoTier.Proofs.Codec.Takes
import TwoTier.Proofs.Value.Regular

/-!
# Reading what was written in fixed width

`FixedWidth.reader` takes what `FixedWidth.write` makes of a value for that value, if the shape is
regular and the lengths in the value fit in the eight bytes that they are written with
(`takes_reader`). All forms are closed, so what was written is read whatever comes after it, and a
strict prefix of it is a fault.
-/

namespace TwoTier.FixedWidth

open Reader

/-! ### Scalars -/

/-- A number within its width is read as it was written. -/
theorem takes_word {width n : Nat} (h : n < Bytes.bound width) :
    Takes closed (word width) (Bytes.littleEndian width n) n := by
  refine (Takes.take Fault.short (Bytes.length_littleEndian width n)).bind_nil fun s => ?_
  rw [Bytes.ofLittleEndian_littleEndian h]
  rfl

/-- The bytes of an integer of a kind, in two's complement, are those of the integer. -/
theorem signed_emod_bound {k : IntKind} (v : k.Value) :
    signed k (v.1 % Bytes.bound k.width).toNat = v.1 := by
  obtain ⟨i, hi⟩ := v
  cases k <;>
    simp only [IntKind.least, IntKind.greatest, IntKind.width, Bytes.bound, signed, Nat.pow_eq,
      Nat.reducePow] at hi ⊢ <;>
    omega

/-- An integer of a kind is read as it was written. -/
theorem takes_int {k : IntKind} (v : k.Value) :
    Takes closed (reader (.int k)) (writeInt k.width v.1) v := by
  have hpos : (0 : Int) < Bytes.bound k.width := by cases k <;> decide
  -- the bytes hold the integer modulo their bound
  have hlt : (v.1 % Bytes.bound k.width).toNat < Bytes.bound k.width := by
    have := Int.emod_lt_of_pos v.1 hpos
    omega
  rw [reader]
  refine (takes_word hlt).bind_ofOption ?_
  rw [signed_emod_bound, IntKind.ofInt?_val]

/-- A double is its 64 bits. -/
theorem takes_float (x : Binary64) :
    Takes closed (reader .float) (Bytes.littleEndian 8 x.bits.toNat) x := by
  rw [reader]
  refine (takes_word (UInt64.toNat_lt x.bits)).bind_nil fun s => ?_
  rw [UInt64.ofNat_toNat]
  rfl

theorem takes_text {s : String} (h : (Bytes.ofText s).length < Bytes.bound 8) :
    Takes closed text (writeText s) s :=
  (takes_word h).bind ((Takes.take Fault.short rfl).bind_ofOption (Bytes.text?_ofText s))

/-- The first byte of a character tells how many there are. -/
theorem utf8EncodeChar_eq_cons (c : Char) :
    ∃ b bs, String.utf8EncodeChar c = b :: bs ∧ charWidth b = bs.length + 1 := by
  have hc : c.val.toNat < 0x110000 := by
    rcases c.valid with h | h <;> omega
  -- the widths are those of the ranges that the first byte lies in
  have hwidth (n : Nat) (hn : n < 256) : charWidth (UInt8.ofNat n) =
      if n < 0x80 then 1 else if n < 0xc2 then 0 else if n < 0xe0 then 2
      else if n < 0xf0 then 3 else if n < 0xf5 then 4 else 0 := by
    have hmod : n % 256 = n := Nat.mod_eq_of_lt hn
    simp only [charWidth, UInt8.lt_iff_toNat_lt, UInt8.toNat_ofNat', Nat.reducePow, hmod]
    rfl
  unfold String.utf8EncodeChar
  simp only []
  -- one to four bytes, by the size of the code point
  split
  · exact ⟨_, _, rfl, by rw [hwidth _ (by omega), if_pos (by omega)]; rfl⟩
  split
  · exact ⟨_, _, rfl, by
      rw [hwidth _ (by omega), if_neg (by omega), if_neg (by omega), if_pos (by omega)]; rfl⟩
  split
  · exact ⟨_, _, rfl, by
      rw [hwidth _ (by omega), if_neg (by omega), if_neg (by omega), if_neg (by omega),
        if_pos (by omega)]; rfl⟩
  · exact ⟨_, _, rfl, by
      rw [hwidth _ (by omega), if_neg (by omega), if_neg (by omega), if_neg (by omega),
        if_neg (by omega), if_pos (by omega)]; rfl⟩

/-- A character is read by its first byte. -/
theorem takes_char (c : Char) : Takes closed char (String.utf8EncodeChar c) c := by
  obtain ⟨b, bs, hbs, hwidth⟩ := utf8EncodeChar_eq_cons c
  -- the bytes of the character are those of a text of one
  have htext : Bytes.text? (b :: bs) = some (String.singleton c) := by
    rw [← hbs, ← Bytes.ofText_singleton, Bytes.text?_ofText]
  rw [hbs]
  refine Takes.bind (Takes.byte Fault.short b) ?_
  simp only [hwidth]
  refine (Takes.take Fault.badChar rfl).bind_nil fun s => ?_
  simp only [htext, Option.map_some, String.toList_singleton]
  rfl

/-! ### Values -/

mutual
/-- **The reader takes what was written of a value.** -/
theorem takes_reader : {α : Type} → (s : Shape α) → s.Regular → (v : α) → s.Fits 8 v →
    Takes closed (reader s) (write s v) v
  | _, .unit, _, _, _ => .pure ()
  | _, .bool, _, b, _ => by
    rw [reader, write]
    cases b with
    | false => exact (Takes.byte Fault.short 0).bind (.pure false)
    | true => exact (Takes.byte Fault.short 1).bind (.pure true)
  | _, .char, _, c, _ => takes_char c
  | _, .text, _, s, hv => takes_text hv
  | _, .int k, _, i, _ => takes_int i
  | _, .float, _, x, _ => takes_float x
  | _, .option s, hs, v, hv => by
    rw [reader]
    cases v with
    | none => exact (Takes.byte Fault.short 0).bind (.pure none)
    | some a =>
      exact (Takes.byte Fault.short 1).bind ((takes_reader s hs.2 a (hv a rfl)).map some)
  | _, .list s, hs, v, hv => by
    rw [reader, write]
    exact (takes_word hv.1).bind (.times_self fun a ha => takes_reader s hs a (hv.2 a ha))
  | _, .map s, hs, v, hv => by
    rw [reader, write]
    -- an entry is its key and its value, one after the other
    have hentry (e) (he : e ∈ v.entries) : Takes closed
        (do
          let k ← text
          let v ← reader s
          pure (k, v)) (writeText e.1 ++ write s e.2) e :=
      (takes_text (hv.2 e he).1).bind ((takes_reader s hs e.2 (hv.2 e he).2).map (e.1, ·))
    refine (takes_word hv.1).bind ((Takes.times_self hentry).bind_nil fun r => ?_)
    rw [TextMap.ofList_entries]
    rfl
  | _, .pair s t, hs, v, hv => by
    rw [reader, write]
    exact (takes_reader s hs.1 v.1 hv.1).bind ((takes_reader t hs.2 v.2 hv.2).map (v.1, ·))
  | _, .record _ fs make fields hmake, hs, v, hv => by
    rw [reader, write]
    exact (takes_fieldsReader fs hs.2.2 (fields v) hv).bind_ofOption (hmake v)
  | _, .choice names pick index hpick, hs, v, _ => by
    rw [reader, write]
    refine (takes_word (Nat.lt_trans (index v).isLt hs.2.1)).bind_nil fun r => ?_
    rw [dif_pos (index v).isLt, Fin.eta, hpick]
    rfl
  | _, .json, hs, _, _ => hs.elim
  | _, .refused _, hs, _, _ => hs.elim
/-- The reader of fields takes what was written of them. -/
theorem takes_fieldsReader : {α : Type} → (fs : Fields α) → fs.Regular → (v : α) → fs.Fits 8 v →
    Takes closed (fieldsReader fs) (writeFields fs v) v
  | _, .nil, _, _, _ => .pure ()
  | _, .cons _ _ s rest, hs, v, hv => by
    rw [fieldsReader, writeFields]
    exact (takes_reader s hs.2.1 v.1 hv.1).bind
      ((takes_fieldsReader rest hs.2.2 v.2 hv.2).map (v.1, ·))
end

end TwoTier.FixedWidth
