import TwoTier.Proofs.Codec.Extends
import TwoTier.Proofs.Codec.MessagePack.Value

/-!
# The grammar of MessagePack

What a MessagePack value is, said without a reader. `Header` gives the forms of a length for each
kind of value that has one, and `Packed d w` says that `w` is exactly one value, in which arrays,
maps and extensions nest at most `d` deep. Texts may hold any bytes, and a map any values as keys.

Such a value can be passed over, whatever comes after it (`Packed.takes_skip`).
-/

namespace TwoTier.MessagePack

open Reader

/-! ### Values -/

/-- The kinds of values that begin with a length. -/
inductive Kind where
  | text
  | binary
  | array
  | map
  | extension
deriving DecidableEq

/-- The bytes after which a length stands, with the number of bytes that it takes. -/
def wideHeaders : List (Kind × UInt8 × Nat) :=
  [(.text, 0xd9, 1), (.text, 0xda, 2), (.text, 0xdb, 4),
    (.binary, 0xc4, 1), (.binary, 0xc5, 2), (.binary, 0xc6, 4),
    (.array, 0xdc, 2), (.array, 0xdd, 4), (.map, 0xde, 2), (.map, 0xdf, 4),
    (.extension, 0xc7, 1), (.extension, 0xc8, 2), (.extension, 0xc9, 4)]

/-- The bytes after which a number stands, with the number of bytes that it takes. -/
def wideNumbers : List (UInt8 × Nat) :=
  [(0xca, 4), (0xcb, 8), (0xcc, 1), (0xcd, 2), (0xce, 4), (0xcf, 8), (0xd0, 1), (0xd1, 2),
    (0xd2, 4), (0xd3, 8)]

/-- **The start of a value** with a length. -/
inductive Header : Kind → Nat → Bytes → Prop
  | text {n : Nat} (h : n < 0x20) : Header .text n [UInt8.ofNat (0xa0 + n)]
  | array {n : Nat} (h : n < 0x10) : Header .array n [UInt8.ofNat (0x90 + n)]
  | map {n : Nat} (h : n < 0x10) : Header .map n [UInt8.ofNat (0x80 + n)]
  | extension {b : UInt8} {n : Nat}
      (h : (b, n) ∈ [((0xd4 : UInt8), 1), (0xd5, 2), (0xd6, 4), (0xd7, 8), (0xd8, 16)]) :
      Header .extension n [b]
  | wide {k : Kind} {b : UInt8} {width n : Nat} (h : (k, b, width) ∈ wideHeaders)
      (hn : n < Bytes.bound width) : Header k n (b :: Bytes.bigEndian width n)

/-- **The bytes are one value**, in which arrays, maps and extensions nest at most `d` deep. -/
inductive Packed : (d : Nat) → Bytes → Prop
  /-- A number in one byte, nil, or a truth value. -/
  | single {d : Nat} {b : UInt8} (hb : b < 0x80 ∨ 0xe0 ≤ b ∨ b ∈ [0xc0, 0xc2, 0xc3]) :
      Packed d [b]
  | number {d width : Nat} {b : UInt8} {w : Bytes} (hb : (b, width) ∈ wideNumbers)
      (hw : w.length = width) : Packed d (b :: w)
  | text {d : Nat} {h w : Bytes} (hh : Header .text w.length h) : Packed d (h ++ w)
  | binary {d : Nat} {h w : Bytes} (hh : Header .binary w.length h) : Packed d (h ++ w)
  | array {d : Nat} {h : Bytes} {ws : List Bytes} (hh : Header .array ws.length h)
      (hws : ∀ w ∈ ws, Packed d w) : Packed (d + 1) (h ++ ws.flatten)
  /-- Keys and values in turn. -/
  | map {d n : Nat} {h : Bytes} {ws : List Bytes} (hh : Header .map n h) (hn : ws.length = 2 * n)
      (hws : ∀ w ∈ ws, Packed d w) : Packed (d + 1) (h ++ ws.flatten)
  /-- A byte that tells the type, and the bytes of the extension. -/
  | extension {d : Nat} {h w : Bytes} (type : UInt8) (hh : Header .extension w.length h) :
      Packed (d + 1) (h ++ type :: w)

/-! ### Headers -/

/-- The marker of a kind. -/
def Kind.marker : Kind → Length → Marker
  | .text => .text
  | .binary => .binary
  | .array => .array
  | .map => .map
  | .extension => .extension

/-- A header starts with the marker of its kind, and its length. -/
theorem Header.startsWithLength {k : Kind} {n : Nat} {h : Bytes} (hh : Header k n h) :
    StartsWithLength k.marker h n := by
  cases hh with
  | text hn => exact startsWithLength_known (Marker.of_text hn)
  | array hn => exact startsWithLength_known (Marker.of_array hn)
  | map hn => exact startsWithLength_known (Marker.of_map hn)
  | extension hb =>
    simp only [List.mem_cons, Prod.mk.injEq, List.not_mem_nil, or_false] at hb
    rcases hb with ⟨rfl, rfl⟩ | ⟨rfl, rfl⟩ | ⟨rfl, rfl⟩ | ⟨rfl, rfl⟩ | ⟨rfl, rfl⟩ <;>
    exact startsWithLength_known rfl
  | @wide k b width n hb hn =>
    -- all wide headers are checked, as they are finitely many
    have hmarker : ∀ x ∈ wideHeaders, Marker.of x.2.1 = x.1.marker (.stored x.2.2) := by decide
    exact startsWithLength_stored (hmarker _ hb) hn

/-- The token of an array, a map or an extension is its length. -/
theorem Header.takes_token {k : Kind} {n : Nat} {h : Bytes} {t : Nat → Token} (hh : Header k n h)
    (ht : ∀ l, Token.ofMarker (k.marker l) = t <$> l.reader) : Takes closed token h (t n) := by
  obtain ⟨b, bs, l, rfl, hb, hl⟩ := hh.startsWithLength
  -- the marker and its length are all of the token
  have hstart : StartsWith (b :: bs) (k.marker l) (t n) :=
    ⟨b, bs, rfl, hb, by rw [ht]; exact hl.map t⟩
  exact hstart.takes_token

/-- The token of a text or of a binary value is all of it. -/
theorem Header.takes_token_bytes {k : Kind} {h w : Bytes} {t : Bytes → Token}
    (hh : Header k w.length h)
    (ht : ∀ l, Token.ofMarker (k.marker l) = do
      let n ← l.reader
      let b ← take .short n
      pure (t b)) : Takes closed token (h ++ w) (t w) := by
  obtain ⟨b, bs, l, rfl, hb, hl⟩ := hh.startsWithLength
  have hstart : StartsWith (b :: bs ++ w) (k.marker l) (t w) := by
    refine ⟨b, bs ++ w, rfl, hb, ?_⟩
    rw [ht]
    exact hl.bind ((Takes.take Fault.short rfl).map t)
  exact hstart.takes_token

/-! ### Scalars -/

/-- The bytes are one token, and begin no array, map or extension. -/
def IsScalar (w : Bytes) : Prop := ∃ t, t.nests = false ∧ Takes closed token w t

/-- A number that is its own marker is one token, … -/
theorem isScalar_small {b : UInt8} {i : Int} (hb : Marker.of b = .small i) : IsScalar [b] := by
  refine ⟨if 0 ≤ i then .nat i.toNat else .int i, ?_, (startsWith_single hb rfl).takes_token⟩
  split <;> rfl

/-- … as is every value of one byte, … -/
theorem isScalar_single {b : UInt8} (hb : b < 0x80 ∨ 0xe0 ≤ b ∨ b ∈ [0xc0, 0xc2, 0xc3]) :
    IsScalar [b] := by
  -- small numbers of either sign, and the three words
  rcases hb with hlow | hhigh | hword
  · have hmarker := Marker.of_positive (show b.toNat < 0x80 from hlow)
    rw [UInt8.ofNat_toNat] at hmarker
    exact isScalar_small hmarker
  · have hmarker := Marker.of_negative (show 0xe0 ≤ b.toNat from hhigh) b.toNat_lt
    rw [UInt8.ofNat_toNat] at hmarker
    exact isScalar_small hmarker
  · simp only [List.mem_cons, List.not_mem_nil, or_false] at hword
    rcases hword with rfl | rfl | rfl <;>
    exact ⟨_, rfl, (startsWith_single rfl rfl).takes_token⟩

/-- … and every number in more bytes. -/
theorem isScalar_number {b : UInt8} {width : Nat} {w : Bytes} (hb : (b, width) ∈ wideNumbers)
    (hw : w.length = width) : IsScalar (b :: w) := by
  have hword : Takes closed (word width) w (Bytes.ofBigEndian w) :=
    (Takes.take Fault.short hw).map Bytes.ofBigEndian
  -- the marker tells how wide the number is, and the rest of the bytes are it
  have hstart {m : Marker} {t : Nat → Token} (hm : Marker.of b = m)
      (ht : Token.ofMarker m = t <$> word width) (hnests : ∀ n, (t n).nests = false) :
      IsScalar (b :: w) := by
    have hstart : StartsWith (b :: w) m (t (Bytes.ofBigEndian w)) :=
      ⟨b, w, rfl, hm, by rw [ht]; exact hword.map t⟩
    exact ⟨_, hnests _, hstart.takes_token⟩
  simp only [wideNumbers, List.mem_cons, Prod.mk.injEq, List.not_mem_nil, or_false] at hb
  rcases hb with ⟨rfl, rfl⟩ | ⟨rfl, rfl⟩ | ⟨rfl, rfl⟩ | ⟨rfl, rfl⟩ | ⟨rfl, rfl⟩ | ⟨rfl, rfl⟩ |
    ⟨rfl, rfl⟩ | ⟨rfl, rfl⟩ | ⟨rfl, rfl⟩ | ⟨rfl, rfl⟩ <;>
  exact hstart rfl rfl fun _ => rfl

/-- Such a value is passed over at any depth. -/
theorem IsScalar.takes_skip {w : Bytes} (h : IsScalar w) (d : Nat) :
    Takes closed (skip d) w () := by
  obtain ⟨t, ht, htoken⟩ := h
  exact takes_skip_of_token htoken ht d

/-! ### Passing over a value -/

/-- The values of an array, or the keys and values of a map. -/
theorem takes_times_skip_flatten {d n : Nat} {ws : List Bytes} (hn : ws.length = n)
    (hws : ∀ w ∈ ws, Takes closed (skip d) w ()) :
    Takes closed ((skip d).times n) ws.flatten (ws.map fun _ => ()) := by
  have h : Takes closed ((skip d).times ws.length) (ws.flatMap id) (ws.map fun _ => ()) :=
    .times hws
  rwa [hn, List.flatMap_id] at h

/-- **A value within the depth can be passed over**, whatever comes after it. -/
theorem Packed.takes_skip {d : Nat} {w : Bytes} (h : Packed d w) : Takes closed (skip d) w () := by
  -- on the value: a scalar is one token, and what has parts is passed over part by part
  induction h with
  | single hb => exact (isScalar_single hb).takes_skip _
  | number hb hw => exact (isScalar_number hb hw).takes_skip _
  | text hh =>
    exact takes_skip_of_token (hh.takes_token_bytes (t := .text) fun _ => rfl) rfl _
  | binary hh =>
    exact takes_skip_of_token (hh.takes_token_bytes (t := .binary) fun _ => rfl) rfl _
  | array hh hws ih =>
    refine (hh.takes_token (t := .array) fun _ => rfl).bind ?_
    exact (takes_times_skip_flatten rfl ih).bind_nil fun _ => rfl
  | map hh hn hws ih =>
    refine (hh.takes_token (t := .map) fun _ => rfl).bind ?_
    exact (takes_times_skip_flatten hn ih).bind_nil fun _ => rfl
  | @extension d h w type hh =>
    have hbody : Takes closed (take Fault.short (w.length + 1)) (type :: w) (type :: w) :=
      .take Fault.short rfl
    exact (hh.takes_token (t := .extension) fun _ => rfl).bind (hbody.bind_nil fun _ => rfl)

end TwoTier.MessagePack
