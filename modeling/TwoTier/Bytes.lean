/-!
# Byte strings

Payloads, stored records and encoded values are lists of bytes. This file holds the two conversions
that everything else is written with:

* `Bytes.ofText` and `Bytes.text?`: a text and its UTF-8 form, where `text?` refuses what is not
  UTF-8 (`text?_ofText`);
* `Bytes.littleEndian` and `Bytes.ofLittleEndian`: a natural number and its `width` lowest bytes,
  the least significant first (`ofLittleEndian_littleEndian`), with `bigEndian` and `ofBigEndian`
  for the opposite order.
-/

namespace TwoTier

/-- A payload, a stored record or an encoded value. -/
abbrev Bytes := List UInt8

namespace Bytes

/-! ### Text -/

/-- The UTF-8 form of a text. -/
def ofText (s : String) : Bytes := s.toByteArray.data.toList

/-- The text with the given UTF-8 form, if the bytes are valid UTF-8. -/
def text? (b : Bytes) : Option String := String.fromUTF8? ⟨b.toArray⟩

@[simp] theorem text?_ofText (s : String) : text? (ofText s) = some s := by
  have h : (⟨(ofText s).toArray⟩ : ByteArray) = s.toByteArray := by simp [ofText]
  rw [text?, h, String.fromUTF8?, dif_pos s.isValidUTF8]
  rfl

theorem ofText_singleton (c : Char) :
    ofText (String.singleton c) = String.utf8EncodeChar c := by
  simp [ofText, String.toByteArray_singleton, List.utf8Encode_singleton]

/-- The UTF-8 form of a text is that of its characters, one after the other. -/
theorem ofText_ofList (cs : List Char) :
    ofText (String.ofList cs) = cs.flatMap String.utf8EncodeChar := by
  induction cs with
  | nil => rfl
  | cons c cs ih =>
    have ih' : cs.utf8Encode.data.toList = cs.flatMap String.utf8EncodeChar := by
      simpa [ofText] using ih
    rw [ofText, String.toByteArray_ofList, List.utf8Encode_cons, ByteArray.data_append,
      Array.toList_append, ih', List.flatMap_cons, List.utf8Encode_singleton,
      List.data_toByteArray]

/-- The code of an ASCII character. -/
abbrev ascii (c : Char) : UInt8 := UInt8.ofNat c.toNat

/-! ### Words -/

/-- The least number that does not fit in `width` bytes. -/
def bound (width : Nat) : Nat := Nat.pow 256 width

@[simp] theorem bound_zero : bound 0 = 1 := rfl

theorem bound_succ (width : Nat) : bound (width + 1) = bound width * 256 := rfl

/-- The `width` lowest bytes of `n`, the least significant first. -/
def littleEndian : (width n : Nat) → Bytes
  | 0, _ => []
  | width + 1, n => UInt8.ofNat (n % 256) :: littleEndian width (n / 256)

/-- The number whose bytes are given, the least significant first. -/
def ofLittleEndian : Bytes → Nat
  | [] => 0
  | b :: bs => b.toNat + 256 * ofLittleEndian bs

/-- The `width` lowest bytes of `n`, the most significant first. -/
def bigEndian (width n : Nat) : Bytes := (littleEndian width n).reverse

/-- The number whose bytes are given, the most significant first. -/
def ofBigEndian (b : Bytes) : Nat := ofLittleEndian b.reverse

@[simp] theorem length_littleEndian (width n : Nat) : (littleEndian width n).length = width := by
  induction width generalizing n with
  | zero => rfl
  | succ width ih => simp [littleEndian, ih]

@[simp] theorem length_bigEndian (width n : Nat) : (bigEndian width n).length = width := by
  simp [bigEndian]

theorem ofLittleEndian_littleEndian {width n : Nat} (h : n < bound width) :
    ofLittleEndian (littleEndian width n) = n := by
  induction width generalizing n with
  | zero => simp_all [littleEndian, ofLittleEndian]
  | succ width ih =>
    have hn : n / 256 < bound width := by
      rw [Nat.div_lt_iff_lt_mul (by decide)]
      simpa [bound_succ] using h
    have hb : (UInt8.ofNat (n % 256)).toNat = n % 256 := by
      rw [UInt8.toNat_ofNat']
      omega
    rw [littleEndian, ofLittleEndian, ih hn, hb]
    omega

theorem ofBigEndian_bigEndian {width n : Nat} (h : n < bound width) :
    ofBigEndian (bigEndian width n) = n := by
  simp [ofBigEndian, bigEndian, ofLittleEndian_littleEndian h]

theorem ofLittleEndian_lt (b : Bytes) : ofLittleEndian b < bound b.length := by
  induction b with
  | nil => decide
  | cons b bs ih =>
    have := b.toNat_lt
    rw [ofLittleEndian, List.length_cons, bound_succ]
    omega

end Bytes

end TwoTier
