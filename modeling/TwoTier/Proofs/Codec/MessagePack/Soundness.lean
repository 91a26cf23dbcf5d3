import TwoTier.Proofs.Codec.MessagePack.Grammar

/-!
# What is read of MessagePack

Whatever a reader reads off bytes that are one value, it reads to the end of the value
(`Packed.left_eq`). The value can be passed over, and so can what is read (`ReadsValue`): a scalar
is a token that begins nothing (`Flat`), and strict records and choices are as many values as their
tokens say (`PassesOver`, `RowSound`). As passing over has one result only, both leave the same.

Values have ends of their own here, so the readers extend whatever comes after them (`anything`).
-/

namespace TwoTier.MessagePack

open Reader

variable {α β σ : Type} {s u r : Bytes} {budget : Nat}

/-! ### More bytes -/

/-- Whatever comes after a value, it is not part of it. -/
def anything : UInt8 → Bool := fun _ => true

theorem extends_word (width : Nat) : Extends anything (word width) :=
  (Extends.take Fault.short width).bind fun _ => .pure _

/-- **The token that a marker announces.** Its length comes first, where it has one, so that its end
is known before its contents are read. -/
theorem extends_ofMarker (m : Marker) : Extends anything (Token.ofMarker m) := by
  -- the length is in the marker, or stored after it
  have hlength (l : Length) : Extends anything l.reader := by
    cases l with
    | known n => exact .pure n
    | stored width => exact extends_word width
  cases m with
  | nil | bool | small => exact .pure _
  | reserved => exact .fail _
  | unsigned | signed | single | double => exact (extends_word _).bind fun _ => .pure _
  | text l | binary l =>
    exact (hlength l).bind fun n => (Extends.take Fault.short n).bind fun _ => .pure _
  | array l | map l | extension l => exact (hlength l).bind fun _ => .pure _

theorem extends_marker : Extends anything marker :=
  (Extends.byte Fault.noMarker).bind fun _ => .pure _

theorem extends_token : Extends anything token := extends_marker.bind extends_ofMarker

/-- The budget of levels depends on the token alone. -/
theorem extends_tokenWithin (budget : Nat) : Extends anything (tokenWithin budget) := by
  refine extends_token.bind fun t => ?_
  cases t with
  | array | map | extension =>
    dsimp only
    split
    · exact .fail _
    · exact .pure _
  | _ => exact .pure _

/-- A value of another kind is refused by its token. -/
theorem extends_refuse (t : Token) : Extends anything (refuse t : Reader Fault α) := by
  unfold refuse
  repeat' split
  all_goals exact .fail _

/-- **A scalar** is a token that is accepted. -/
theorem extends_scalar (budget : Nat) (accept : Token → Option α) :
    Extends anything (scalar budget accept) := by
  refine (extends_tokenWithin budget).bind fun t => ?_
  split
  · exact .pure _
  · exact extends_refuse t

/-- A scalar that is read without a budget, as it cannot nest. -/
theorem extends_plain (accept : Token → Option α) : Extends anything (plain accept) := by
  refine extends_marker.bind fun m => ?_
  split <;> first
    | exact (extends_ofMarker _).bind fun _ => .ofOption _ _
    | exact .fail _

/-- The marker of nothing, as the value that goes with the name of a choice. -/
theorem extends_nilMark : Extends anything nilMark := by
  refine extends_marker.bind fun m => ?_
  split
  · exact .pure ()
  · exact .fail _

/-- A choice between names, which stands as a text or as the only name of a map. -/
theorem extends_choice (budget : Nat) (names : List String) :
    Extends anything (choice budget names) := by
  refine extends_token.bind fun t => ?_
  split
  · -- a map has to have one entry; a text is compared with the names
    split
    · exact (extends_scalar budget _).bind fun _ => extends_nilMark.bind fun _ => .pure _
    · exact .fail _
  · split
    · exact .pure _
    · exact extends_refuse _

/-- Whether an array has another item is counted, not read. -/
theorem extends_another (n : Nat) : Extends anything (rowStyle.another n) := by
  cases n <;> exact .pure _

/-- The entries of a strict record. -/
theorem extends_recordEntries {S : Type} {row : Row Fault Nat α S} (hrow : row.Extends anything)
    (names : List String) (budget n : Nat) (slots : S) :
    Extends anything (recordEntries true names budget row n slots) := by
  induction n generalizing slots with
  | zero => exact .pure slots
  | succ n ih =>
    -- the name of an entry first, which says what its value is
    have hentry : Extends anything (recordEntry true names budget row slots) := by
      refine (extends_scalar budget _).bind fun k => ?_
      split
      · next p hp => exact hrow.fill k slots p hp
      · exact .fail _
    -- and then the entries that are still announced
    exact hentry.bind ih

/-- A strict record. -/
theorem extends_record {fs : Fields α} {row : Nat → Row Fault Nat α fs.Slots}
    (hrow : ∀ d, (row d).Extends anything) (budget : Nat) (make : α → Option β) :
    Extends anything (record true fs budget row make) := by
  -- an array gives the fields in their order, a map under their names, bytes one by one
  refine (extends_tokenWithin budget).bind fun t => ?_
  split
  · refine ((hrow _).inOrder _).bind fun x => (Extends.ofOption _ _).bind fun b => ?_
    refine Extends.bind ?_ fun _ => .pure b
    unfold noneLeft
    split
    · exact .pure ()
    · exact .fail _
  · exact (extends_recordEntries (hrow _) _ _ _ _).bind fun slots => .ofOption _ _
  · exact .ofOption _ _
  · exact extends_refuse _

/-! ### Values that are read and values that are passed over -/

/-- **What a reader reads is one value**: it can be passed over with the given budget. -/
def ReadsValue (d : Nat) (p : Reader Fault α) : Prop :=
  ∀ s a r, p.run s = .ok (a, r) → (skip d).run s = .ok ((), r)

/-- A token that begins nothing needs no budget. -/
theorem run_tokenWithin_of_token {t : Token} (h : token.run s = .ok (t, r)) (ht : t.nests = false)
    (budget : Nat) : (tokenWithin budget).run s = .ok (t, r) := by
  rw [tokenWithin, run_bind_ok h]
  cases t with
  | array | map | extension => cases ht
  | _ => rfl

/-- A token that begins nothing is passed over whole, with any budget. -/
theorem run_skip_of_token {t : Token} (h : token.run s = .ok (t, r)) (ht : t.nests = false)
    (d : Nat) : (skip d).run s = .ok ((), r) := by
  -- on the last level the token is only checked, on others its parts would follow
  cases d with
  | zero =>
    rw [skip, run_bind_ok (run_tokenWithin_of_token h ht 0)]
    rfl
  | succ d =>
    rw [skip, run_bind_ok h]
    cases t with
    | array | map | extension => cases ht
    | _ => rfl

/-- A token that was read within a budget is a token. -/
theorem token_of_tokenWithin {t : Token} (h : (tokenWithin budget).run s = .ok (t, r)) :
    token.run s = .ok (t, r) := by
  obtain ⟨t', u, htoken, hdone⟩ := run_bind_eq_ok.mp h
  split at hdone <;> first
    | (split at hdone
       · cases hdone
       · cases hdone
         exact htoken)
    | (cases hdone
       exact htoken)

/-- A refusal is a failure, whatever the token. -/
theorem fails_refuse (t : Token) (s : Bytes) : (refuse t : Reader Fault α).Fails s := by
  unfold refuse
  repeat' split
  all_goals exact ⟨_, rfl⟩

/-- What is accepted begins no array, map or extension. -/
def Flat (accept : Token → Option α) : Prop := ∀ t a, accept t = some a → t.nests = false

section Scalars

variable {accept : Token → Option α}

/-- A token that is accepted is all that is read. -/
theorem token_of_scalar {a : α} (h : (scalar budget accept).run s = .ok (a, r)) :
    ∃ t, accept t = some a ∧ token.run s = .ok (t, r) := by
  obtain ⟨t, u, htoken, hdone⟩ := run_bind_eq_ok.mp h
  split at hdone
  · next b hb =>
    cases hdone
    exact ⟨t, hb, token_of_tokenWithin htoken⟩
  · obtain ⟨e, he⟩ := fails_refuse (α := α) t u
    cases he.symm.trans hdone

/-- **A scalar is one value**, if only tokens without parts are accepted. -/
theorem readsValue_scalar (haccept : Flat accept) (budget d : Nat) :
    ReadsValue d (scalar budget accept) := by
  intro s a r h
  obtain ⟨t, ht, htoken⟩ := token_of_scalar h
  exact run_skip_of_token htoken (haccept t a ht) d

/-- So is a scalar that is read without a budget. -/
theorem readsValue_plain (haccept : Flat accept) (d : Nat) : ReadsValue d (plain accept) := by
  intro s a r h
  obtain ⟨m, u, hmarker, hrest⟩ := run_bind_eq_ok.mp h
  -- the marker and what it announces are a token, however they were read
  have htoken {t : Token} {v : Bytes} (ht : (Token.ofMarker m).run u = .ok (t, v)) :
      token.run s = .ok (t, v) := by
    rw [token, run_bind_ok hmarker, ht]
  split at hrest <;> first
    | (obtain ⟨t, v, ht, hdone⟩ := run_bind_eq_ok.mp hrest
       obtain ⟨ha, rfl⟩ := run_ofOption_eq_ok.mp hdone
       exact run_skip_of_token (htoken ht) (haccept t a ha) d)
    | cases hrest

end Scalars

/-- Several values, one after the other. -/
def PassesOver (d n : Nat) (s r : Bytes) : Prop := ∃ as, ((skip d).times n).run s = .ok (as, r)

theorem PassesOver.zero (d : Nat) (s : Bytes) : PassesOver d 0 s s := ⟨[], rfl⟩

/-- One value more is passed over first. -/
theorem PassesOver.succ {d n : Nat} (h : (skip d).run s = .ok ((), u))
    (hrest : PassesOver d n u r) : PassesOver d (n + 1) s r := by
  obtain ⟨as, has⟩ := hrest
  refine ⟨() :: as, ?_⟩
  rw [times_succ, run_bind_ok h, run_bind_ok has]
  rfl

/-- An array is passed over with its items, one level deeper. -/
theorem run_skip_array {d n : Nat} (h : token.run s = .ok (.array n, u)) (hn : PassesOver d n u r) :
    (skip (d + 1)).run s = .ok ((), r) := by
  obtain ⟨as, has⟩ := hn
  rw [skip, run_bind_ok h]
  dsimp only
  rw [run_bind_ok has]
  rfl

/-- A map is passed over with its entries, each of which is two values. -/
theorem run_skip_map {d n : Nat} (h : token.run s = .ok (.map n, u))
    (hn : PassesOver d (2 * n) u r) : (skip (d + 1)).run s = .ok ((), r) := by
  obtain ⟨as, has⟩ := hn
  rw [skip, run_bind_ok h]
  dsimp only
  rw [run_bind_ok has]
  rfl

/-! ### Records and choices -/

/-- The name of a choice is a text or a number, and begins nothing. -/
theorem flat_choiceName (names : List String) : Flat (choiceName names) := by
  intro t i h
  cases t with
  | array | map | extension => cases h
  | _ => rfl

/-- **A choice is one value**: a single token, or a map of one entry. -/
theorem readsValue_choice (names : List String) (budget d : Nat) :
    ReadsValue (d + 1) (choice budget names) := by
  intro s i r h
  obtain ⟨t, u, htoken, hrest⟩ := run_bind_eq_ok.mp h
  split at hrest
  · next n =>
    split at hrest
    · next hn =>
      subst hn
      obtain ⟨j, v, hname, hnil⟩ := run_bind_eq_ok.mp hrest
      obtain ⟨_, v', hmark, hdone⟩ := run_bind_eq_ok.mp hnil
      cases hdone
      -- the entry is two values: the name, and nil
      have hkey := readsValue_scalar (flat_choiceName names) budget d _ _ _ hname
      -- nil is a token of its own
      have hvalue : (skip d).run v = .ok ((), r) := by
        obtain ⟨m, w, hmarker, hm⟩ := run_bind_eq_ok.mp hmark
        split at hm
        · cases hm
          refine run_skip_of_token (t := .nil) ?_ rfl d
          rw [token, run_bind_ok hmarker]
          rfl
        · cases hm
      exact run_skip_map htoken (.succ hkey (.succ hvalue (.zero d _)))
    · cases hrest
  · split at hrest
    · next j hj =>
      cases hrest
      exact run_skip_of_token htoken (flat_choiceName names t i hj) _
    · obtain ⟨e, he⟩ := fails_refuse (α := Fin names.length) t u
      cases he.symm.trans hrest

/-- **What a row reads** are values: in order as many as are taken off the number of items. -/
structure RowSound {S : Type} (d : Nat) (row : Row Fault Nat α S) : Prop where
  inOrder : ∀ n s a left r, (row.inOrder n).run s = .ok ((a, left), r) →
    ∃ m, n = m + left ∧ PassesOver d m s r
  fill : ∀ k slots p, row.fill? k slots = some p → ReadsValue d p

/-- A row without fields takes nothing off the items. -/
theorem RowSound.nil (d : Nat) : RowSound d (Row.nil : Row Fault Nat Unit Unit) where
  inOrder n s _ _ _ h := by
    cases h
    exact ⟨0, (Nat.zero_add n).symm, .zero d s⟩
  fill _ _ _ h := nomatch h

/-- Another field reads one value, or nothing where the items have run out. -/
theorem RowSound.cons {S : Type} {d : Nat} {name : String} {fallback : Option α}
    {value : Reader Fault α} {rest : Row Fault Nat β S} (hvalue : ReadsValue d value)
    (hrest : RowSound d rest) : RowSound d (Row.cons rowStyle name fallback value rest) where
  inOrder n s x left r h := by
    obtain ⟨⟨a, n'⟩, v, hitem, hafter⟩ := run_bind_eq_ok.mp h
    obtain ⟨⟨b, n''⟩, v', hinOrder, hdone⟩ := run_bind_eq_ok.mp hafter
    cases hdone
    obtain ⟨m, hm, hpasses⟩ := hrest.inOrder _ _ _ _ _ hinOrder
    obtain ⟨st?, w, hanother, hread⟩ := run_bind_eq_ok.mp hitem
    cases n with
    | zero =>
      -- no more items: the fallback
      cases hanother
      obtain ⟨a', w', hfallback, hdone⟩ := run_bind_eq_ok.mp hread
      obtain ⟨-, rfl⟩ := run_ofOption_eq_ok.mp hfallback
      cases hdone
      exact ⟨m, hm, hpasses⟩
    | succ n =>
      cases hanother
      obtain ⟨a', w', hv, hdone⟩ := run_bind_eq_ok.mp hread
      cases hdone
      exact ⟨m + 1, by omega, .succ (hvalue _ _ _ hv) hpasses⟩
  fill k slots p h := by
    intro s st r hp
    -- a field that comes twice is refused, the first field is a value, and of the others this is
    -- known
    rcases Row.fill?_cons_eq_some h with rfl | rfl | ⟨q, hq, rfl⟩
    · cases hp
    · obtain ⟨_, u, hbetween, hread⟩ := run_bind_eq_ok.mp hp
      obtain ⟨a, v, hv, hdone⟩ := run_bind_eq_ok.mp hread
      cases hbetween
      cases hdone
      exact hvalue _ _ _ hv
    · obtain ⟨slots', u, hfill, hdone⟩ := run_bind_eq_ok.mp hp
      cases hdone
      exact hrest.fill k _ q hq _ _ _ hfill

/-- A name is a text or bytes, and begins nothing. -/
theorem flat_text : Flat fun
    | .text b | .binary b => Bytes.text? b
    | _ => none := by
  intro t i h
  cases t with
  | array | map | extension => cases h
  | _ => rfl

theorem readsValue_text (budget d : Nat) : ReadsValue d (text budget) :=
  readsValue_scalar flat_text budget d

/-- The entries of a strict record are two values each. -/
theorem passesOver_recordEntries {S : Type} {d : Nat} {row : Row Fault Nat α S}
    (hrow : RowSound d row) {names : List String} {n : Nat} {slots slots' : S}
    (h : (recordEntries true names d row n slots).run s = .ok (slots', r)) :
    PassesOver d (2 * n) s r := by
  -- along the entries that the map announces
  induction n generalizing s slots with
  | zero =>
    cases h
    exact .zero d _
  | succ n ih =>
    obtain ⟨slots₁, u, hentry, hrest⟩ := run_bind_eq_ok.mp h
    obtain ⟨k, v, hname, hfield⟩ := run_bind_eq_ok.mp hentry
    have hkey := readsValue_text d d _ _ _ hname
    split at hfield
    · next p hp => exact .succ hkey (.succ (hrow.fill _ _ p hp _ _ _ hfield) (ih hrest))
    · cases hfield

/-- A strict record. -/
theorem readsValue_record {fs : Fields α} {d : Nat} {row : Nat → Row Fault Nat α fs.Slots}
    (hrow : RowSound d (row d)) (make : α → Option β) :
    ReadsValue (d + 1) (record true fs (d + 1) row make) := by
  intro s b r h
  obtain ⟨t, u, hwithin, hrest⟩ := run_bind_eq_ok.mp h
  have htoken := token_of_tokenWithin hwithin
  split at hrest
  · -- an array: the row says how many of its items it took, and none may be left
    next n =>
    obtain ⟨⟨a, left⟩, v, hinOrder, hmake⟩ := run_bind_eq_ok.mp hrest
    obtain ⟨b', w, hb, hleft⟩ := run_bind_eq_ok.mp hmake
    obtain ⟨-, rfl⟩ := run_ofOption_eq_ok.mp hb
    obtain ⟨_, w', hnone, hdone⟩ := run_bind_eq_ok.mp hleft
    cases hdone
    obtain ⟨m, hm, hpasses⟩ := hrow.inOrder _ _ _ _ _ hinOrder
    unfold noneLeft at hnone
    split at hnone
    · next h0 =>
      -- all the items were fields
      cases hnone
      rw [h0, Nat.add_zero] at hm
      rw [← hm] at hpasses
      exact run_skip_array htoken hpasses
    · cases hnone
  · -- a map: each entry is a name and a value
    next n =>
    obtain ⟨slots, v, hentries, hmake⟩ := run_bind_eq_ok.mp hrest
    obtain ⟨-, rfl⟩ := run_ofOption_eq_ok.mp hmake
    exact run_skip_map htoken (passesOver_recordEntries hrow hentries)
  · obtain ⟨-, rfl⟩ := run_ofOption_eq_ok.mp hrest
    exact run_skip_of_token htoken rfl _
  · obtain ⟨e, he⟩ := fails_refuse (α := β) t u
    cases he.symm.trans hrest

/-- **What is read at the place of a value** is all of it. -/
theorem Packed.left_eq {d : Nat} {p : Reader Fault α} {w t r' : Bytes} {a : α} (h : Packed d w)
    (hp : ReadsValue d p) (hrun : p.run (w ++ t) = .ok (a, r')) : r' = t := by
  have hskip := h.takes_skip.run_closed t
  exact (Prod.mk.inj (Except.ok.inj ((hp _ _ _ hrun).symm.trans hskip))).2

end TwoTier.MessagePack
