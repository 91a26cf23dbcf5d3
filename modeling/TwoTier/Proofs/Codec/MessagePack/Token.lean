import TwoTier.Codec.MessagePack.Read
import TwoTier.Codec.MessagePack.Write
import TwoTier.Proofs.Codec.Takes

/-!
# Tokens of written MessagePack

What the writer puts at the start of a value is one token: a whole scalar, or the length of an array
or a map. A token takes the shortest form that holds it. Of each of these forms the lemmas here say
that its first byte is a marker of the right kind and that the token is read from what follows
(`StartsWith`); after that, the width of a number or of a length makes no difference.
-/

namespace TwoTier.MessagePack

open Reader

/-! ### Markers that hold a number or a length -/

theorem toNat_ofNat_byte {n : Nat} (hn : n < 0x100) : (UInt8.ofNat n).toNat = n := by
  rw [UInt8.toNat_ofNat']
  omega

section Markers

variable {n : Nat}

/-- The markers below `0x80` are small naturals, -/
theorem Marker.of_positive (h : n < 0x80) : Marker.of (UInt8.ofNat n) = .small n := by
  simp only [Marker.of, toNat_ofNat_byte (show n < 0x100 by omega)]
  rw [if_pos h]

/-- the next sixteen are short maps, -/
theorem Marker.of_map (h : n < 0x10) : Marker.of (UInt8.ofNat (0x80 + n)) = .map (.known n) := by
  simp only [Marker.of, toNat_ofNat_byte (show 0x80 + n < 0x100 by omega)]
  rw [if_neg (by omega), if_pos (by omega), Nat.add_sub_cancel_left]

/-- the sixteen after them short arrays, -/
theorem Marker.of_array (h : n < 0x10) :
    Marker.of (UInt8.ofNat (0x90 + n)) = .array (.known n) := by
  simp only [Marker.of, toNat_ofNat_byte (show 0x90 + n < 0x100 by omega)]
  rw [if_neg (by omega), if_neg (by omega), if_pos (by omega), Nat.add_sub_cancel_left]

/-- and the next thirty-two short texts. -/
theorem Marker.of_text (h : n < 0x20) : Marker.of (UInt8.ofNat (0xa0 + n)) = .text (.known n) := by
  simp only [Marker.of, toNat_ofNat_byte (show 0xa0 + n < 0x100 by omega)]
  rw [if_neg (by omega), if_neg (by omega), if_neg (by omega), if_pos (by omega),
    Nat.add_sub_cancel_left]

/-- The last thirty-two are small negative integers. -/
theorem Marker.of_negative (h : 0xe0 ≤ n) (h' : n < 0x100) :
    Marker.of (UInt8.ofNat n) = .small (n - 0x100) := by
  simp only [Marker.of, toNat_ofNat_byte h']
  repeat rw [if_neg (by omega)]

end Markers

/-- A number that fits is read back from its bytes, the most significant first. -/
theorem takes_word {width n : Nat} (h : n < Bytes.bound width) :
    Takes closed (word width) (Bytes.bigEndian width n) n := by
  refine (Takes.take Fault.short (Bytes.length_bigEndian width n)).bind_nil fun s => ?_
  rw [Bytes.ofBigEndian_bigEndian h]
  rfl

/-! ### The start of a value -/

/-- The bytes begin with a marker, and what belongs to it is the token. -/
def StartsWith (w : Bytes) (m : Marker) (t : Token) : Prop :=
  ∃ b bs, w = b :: bs ∧ Marker.of b = m ∧ Takes closed (Token.ofMarker m) bs t

section StartsWith

variable {w : Bytes} {m : Marker} {t : Token}

/-- What starts a value is a closed form. -/
theorem StartsWith.takes_token (h : StartsWith w m t) : Takes closed token w t := by
  obtain ⟨b, bs, rfl, rfl, ht⟩ := h
  have hm : Takes closed marker [b] (Marker.of b) := (Takes.byte Fault.noMarker b).bind (.pure _)
  exact hm.bind ht

/-- The bytes begin with another byte than that of nil. -/
def NotNil (w : Bytes) : Prop := ∃ b bs, w = b :: bs ∧ b ≠ 0xc0

theorem NotNil.append (h : NotNil w) (v : Bytes) : NotNil (w ++ v) := by
  obtain ⟨b, bs, rfl, hb⟩ := h
  exact ⟨b, bs ++ v, rfl, hb⟩

theorem StartsWith.notNil (h : StartsWith w m t) (hm : m ≠ .nil) : NotNil w := by
  obtain ⟨b, bs, rfl, rfl, -⟩ := h
  exact ⟨b, bs, rfl, fun hb => hm (by rw [hb]; rfl)⟩

end StartsWith

theorem startsWith_single {b : UInt8} {m : Marker} {t : Token} (hm : Marker.of b = m)
    (ht : Token.ofMarker m = pure t) : StartsWith [b] m t :=
  ⟨b, [], rfl, hm, by rw [ht]; exact .pure t⟩

/-- A double is nine bytes, whatever its bits are. -/
theorem startsWith_float (x : Binary64) : StartsWith (writeFloat x) .double (.float x) := by
  refine ⟨0xcb, _, rfl, rfl, (takes_word (UInt64.toNat_lt x.bits)).bind_nil fun s => ?_⟩
  rw [UInt64.ofNat_toNat]
  rfl

/-! ### Lengths -/

/-- The bytes begin with a marker of a kind that has a length, and the length is `n`. -/
def StartsWithLength (kind : Length → Marker) (w : Bytes) (n : Nat) : Prop :=
  ∃ b bs l, w = b :: bs ∧ Marker.of b = kind l ∧ Takes closed l.reader bs n

theorem startsWithLength_known {kind : Length → Marker} {b : UInt8} {n : Nat}
    (hb : Marker.of b = kind (.known n)) : StartsWithLength kind [b] n :=
  ⟨b, [], .known n, rfl, hb, .pure n⟩

/-- A longer one is stored after it. -/
theorem startsWithLength_stored {kind : Length → Marker} {b : UInt8} {width n : Nat}
    (hb : Marker.of b = kind (.stored width)) (hn : n < Bytes.bound width) :
    StartsWithLength kind (b :: Bytes.bigEndian width n) n :=
  ⟨b, _, .stored width, rfl, hb, takes_word hn⟩

theorem announced_of_lt {n : Nat} (hn : n < Bytes.bound 4) : announced n = n := Nat.mod_eq_of_lt hn

/-- **The start of an array** gives its length, in the shortest form. -/
theorem startsWith_arrayStart {n : Nat} (hn : n < Bytes.bound 4) :
    ∃ l, StartsWith (arrayStart n) (.array l) (.array n) := by
  have h : StartsWithLength .array (arrayStart n) n := by
    simp only [arrayStart, announced_of_lt hn]
    -- the three forms: in the marker, in two bytes, in four
    split
    · exact startsWithLength_known (Marker.of_array ‹_›)
    split
    · exact startsWithLength_stored rfl ‹_›
    · exact startsWithLength_stored rfl hn
  obtain ⟨b, bs, l, hw, hb, hl⟩ := h
  exact ⟨l, b, bs, hw, hb, hl.map Token.array⟩

/-- **The start of a map** gives the number of its entries, in the shortest form. -/
theorem startsWith_mapStart {n : Nat} (hn : n < Bytes.bound 4) :
    ∃ l, StartsWith (mapStart n) (.map l) (.map n) := by
  have h : StartsWithLength .map (mapStart n) n := by
    simp only [mapStart, announced_of_lt hn]
    -- the same three forms as for arrays
    split
    · exact startsWithLength_known (Marker.of_map ‹_›)
    split
    · exact startsWithLength_stored rfl ‹_›
    · exact startsWithLength_stored rfl hn
  obtain ⟨b, bs, l, hw, hb, hl⟩ := h
  exact ⟨l, b, bs, hw, hb, hl.map Token.map⟩

/-- **A text** is its length in bytes and the bytes. -/
theorem startsWith_writeText {s : String} (hs : (Bytes.ofText s).length < Bytes.bound 4) :
    ∃ l, StartsWith (writeText s) (.text l) (.text (Bytes.ofText s)) := by
  -- the length before the bytes themselves
  have h : ∃ start, writeText s = start ++ Bytes.ofText s ∧
      StartsWithLength .text start (Bytes.ofText s).length := by
    refine ⟨_, rfl, ?_⟩
    rw [announced_of_lt hs]
    -- in the marker, or in one byte, in two, in four
    split
    · exact startsWithLength_known (Marker.of_text ‹_›)
    split
    · exact startsWithLength_stored rfl ‹_›
    split
    · exact startsWithLength_stored rfl ‹_›
    · exact startsWithLength_stored rfl hs
  obtain ⟨start, hw, b, bs, l, rfl, hb, hl⟩ := h
  refine ⟨l, b, bs ++ Bytes.ofText s, hw, hb, hl.bind ?_⟩
  exact (Takes.take Fault.short rfl).map Token.text

/-! ### Integers -/

/-- The token of an integer: a natural has an unsigned form. -/
def Token.ofInt (i : Int) : Token := if 0 ≤ i then .nat i.toNat else .int i

/-- The marker starts a number. -/
def Marker.isNumber : Marker → Bool
  | .small _ => true
  | .unsigned _ => true
  | .signed _ => true
  | .single => true
  | .double => true
  | _ => false

section Integers

variable {i : Int} {n : Nat}

/-- A natural that fits in the width is read back. -/
theorem startsWith_unsigned {b : UInt8} {width : Nat} (hb : Marker.of b = .unsigned width)
    (hn : n < Bytes.bound width) :
    StartsWith (b :: Bytes.bigEndian width n) (.unsigned width) (.nat n) :=
  ⟨b, _, rfl, hb, (takes_word hn).map Token.nat⟩

/-- A negative integer that fits in `width` bytes comes back from its two's complement. -/
theorem startsWith_signed {b : UInt8} {width : Nat} (hb : Marker.of b = .signed width)
    (hneg : i < 0) (hlow : -(Bytes.bound width : Int) ≤ 2 * i) :
    StartsWith (b :: Bytes.bigEndian width (i + Bytes.bound width).toNat) (.signed width)
      (.int i) := by
  have hn : (i + Bytes.bound width).toNat < Bytes.bound width := by omega
  -- the number that was stored is in the upper half, so it stands for a negative one
  have hvalue : signedValue width (i + Bytes.bound width).toNat = i := by
    rw [signedValue, if_neg (by omega)]
    omega
  refine ⟨b, _, rfl, hb, (takes_word hn).bind_nil fun s => ?_⟩
  rw [hvalue]
  rfl

/-- An integer of 64 bits begins with the marker of a number. -/
theorem startsWith_writeInt (hi : Json.InRange i) :
    ∃ m, m.isNumber = true ∧ StartsWith (writeInt i) m (Token.ofInt i) := by
  obtain ⟨hlow, hhigh⟩ := hi
  have h1 : Bytes.bound 1 = 0x100 := rfl
  have h2 : Bytes.bound 2 = 0x10000 := rfl
  have h4 : Bytes.bound 4 = 0x100000000 := rfl
  have h8 : Bytes.bound 8 = 0x10000000000000000 := rfl
  unfold writeInt Token.ofInt
  by_cases h0 : 0 ≤ i
  · -- naturals take the shortest unsigned form, and those below `0x80` are markers
    simp only [if_pos h0]
    split
    · refine ⟨.small i.toNat, rfl, startsWith_single (Marker.of_positive ‹_›) ?_⟩
      rw [Token.ofMarker, if_pos (by omega)]
      rfl
    split
    · exact ⟨_, rfl, startsWith_unsigned rfl ‹_›⟩
    split
    · exact ⟨_, rfl, startsWith_unsigned rfl ‹_›⟩
    split
    · exact ⟨_, rfl, startsWith_unsigned rfl ‹_›⟩
    · refine ⟨_, rfl, startsWith_unsigned rfl ?_⟩
      omega
  · -- negative integers take the shortest signed form, and those down to `-32` are markers
    simp only [if_neg h0]
    have hneg : i < 0 := by omega
    split
    · refine ⟨.small i, rfl, startsWith_single ?_ ?_⟩
      · rw [Marker.of_negative (by omega) (by omega)]
        congr 1
        omega
      · rw [Token.ofMarker, if_neg h0]
    split
    · refine ⟨_, rfl, startsWith_signed rfl hneg ?_⟩
      omega
    split
    · refine ⟨_, rfl, startsWith_signed rfl hneg ?_⟩
      omega
    split
    · refine ⟨_, rfl, startsWith_signed rfl hneg ?_⟩
      omega
    · refine ⟨_, rfl, startsWith_signed rfl hneg ?_⟩
      omega

end Integers

end TwoTier.MessagePack
