import TwoTier.Proofs.Codec.JsonText.Grammar

/-!
# Passing over JSON text

A value that is not asked for is passed over: its first byte tells what it is, numbers and strings
are passed over by their forms, and arrays and objects with a stack of frames in place of a
recursion. This file shows that exactly the value is passed over, whatever its size and depth.

* `Numeral.run_skipNumber`, `Chars.run_skipText`: what has no parts. A number has no end of its own,
  so what comes after it must not go on with it (`Stops`).
* `Value.run_skipFrom`, by induction on the value together with its parts: inside any frames, what
  is left to do after the value is to leave the frames (`skipAfter`).
* `Document.run_skip` is the statement for a value with white space around it. As passing over has
  one result only, whatever else is read at the place of a value is all of it (`Document.left_eq`).
-/

namespace TwoTier.JsonText

open Reader

variable {s u r : Bytes}

/-! ### White space -/

/-- The bytes do not go on with the digits of a number. -/
def Stops (s : Bytes) : Prop := ∀ c ∈ s.head?, goesOn c = false

theorem goesOn_of_isBlank {c : UInt8} (h : isBlank c = true) : goesOn c = false := by
  simp only [isBlank, Bool.or_eq_true, beq_iff_eq] at h
  rcases h with ((rfl | rfl) | rfl) | rfl <;> decide

/-- What stops a number does so after white space too, as white space stops it itself. -/
theorem Stops.of_blanks (hs : Blanks s r) (hr : Stops r) : Stops s := by
  intro c hc
  -- the first byte is white space, or there was none and it is the first of the rest
  rcases hs.head c hc with hblank | hrest
  · exact goesOn_of_isBlank hblank
  · exact hr c hrest

theorem peekPastBlank_of_blanks (hs : Blanks s r) : peekPastBlank.run s = peekPastBlank.run r := by
  obtain ⟨w, rfl, hw⟩ := hs
  simp only [peekPastBlank, run_bind, run_span, List.dropWhile_append_of_pos hw]

/-- The first byte after white space. -/
theorem run_peekPastBlank_cons {c : UInt8} (hs : Blanks s (c :: r)) (hc : isBlank c = false) :
    peekPastBlank.run s = .ok (some c, c :: r) := by
  rw [peekPastBlank_of_blanks hs, run_peekPastBlank hc]

/-! ### Numbers -/

section Numbers

/-- Some digits are passed over, if what follows is none. -/
theorem Digits.run_someDigits (h : Digits s r) (hr : ∀ c ∈ r.head?, isDigit c = false) :
    someDigits.run s = .ok ((), r) := by
  obtain @⟨c, s, r, hc, h⟩ := h
  obtain ⟨w, hw, hrun⟩ := (h.cons hc).run_span hr
  rw [someDigits, run_bind_ok hrun]
  -- there is a digit, so what was passed over is not empty
  cases w with
  | nil =>
    rw [List.nil_append] at hw
    rw [hr c (by rw [← hw]; rfl)] at hc
    cases hc
  | cons x w => rfl

/-- Before an exponent, or where there is none, neither a digit nor a point comes next. -/
theorem Exponent.head (h : Exponent s r) (hr : Stops r) :
    ∀ c ∈ s.head?, isDigit c = false ∧ c ≠ Bytes.ascii '.' := by
  intro c hc
  cases h with
  | absent =>
    have hgo := hr c hc
    simp only [goesOn, Bool.or_eq_false_iff, beq_eq_false_iff_ne] at hgo
    exact ⟨hgo.1.1.1, hgo.1.1.2⟩
  | present he hs h =>
    cases hc
    rcases he with rfl | rfl <;> exact ⟨by decide, by decide⟩

/-- Before a fraction, or where there is none, no digit comes next. -/
theorem Fraction.head (h : Fraction s u) (hu : ∀ c ∈ u.head?, isDigit c = false) :
    ∀ c ∈ s.head?, isDigit c = false := by
  intro c hc
  cases h with
  | absent => exact hu c hc
  | present h =>
    cases hc
    decide

theorem some_beq_some {c d : UInt8} (h : c ≠ d) : (some c == some d) = false := by simpa using h

/-- Looking for a sign or a mark does not find a digit. -/
theorem some_beq_some_of_isDigit {c d : UInt8} (hc : isDigit c = true) (hd : isDigit d = false) :
    (some c == some d) = false :=
  some_beq_some fun h => by
    rw [h, hd] at hc
    cases hc

/-- An exponent is passed over, or its absence is noticed. -/
theorem Exponent.run_skipExponent (h : Exponent s r) (hr : Stops r) :
    skipExponent.run s = .ok ((), r) := by
  cases h with
  | absent =>
    cases s with
    | nil => rfl
    | cons c s =>
      -- no mark comes next, as a mark would go on with the number
      have hgo : goesOn c = false := hr c rfl
      simp only [goesOn, Bool.or_eq_false_iff, beq_eq_false_iff_ne] at hgo
      simp only [skipExponent, run_bind, run_peek, List.head?_cons, some_beq_some hgo.1.2,
        some_beq_some hgo.2]
      rfl
  | @present c s u r he hs h =>
    have hrun := h.run_someDigits fun c hc => ((Exponent.absent r).head hr c hc).1
    have hmark : (some c == some (Bytes.ascii 'e') || some c == some (Bytes.ascii 'E')) = true := by
      rcases he with rfl | rfl <;> rfl
    simp only [skipExponent, run_bind, run_peek, List.head?_cons, hmark, if_true, run_byte_cons]
    -- after the mark, the sign is passed over if there is one
    cases hs with
    | plus | minus => exact hrun
    | absent =>
      cases h with
      | intro hc h =>
        simp only [List.head?_cons,
          some_beq_some_of_isDigit hc (show isDigit (Bytes.ascii '-') = false by decide),
          some_beq_some_of_isDigit hc (show isDigit (Bytes.ascii '+') = false by decide)]
        exact hrun

/-- A fraction is passed over, or its absence is noticed. -/
theorem Fraction.run_skipFraction (h : Fraction s u)
    (hu : ∀ c ∈ u.head?, isDigit c = false ∧ c ≠ Bytes.ascii '.') :
    skipFraction.run s = .ok ((), u) := by
  cases h with
  | absent =>
    cases s with
    | nil => rfl
    | cons c s =>
      simp only [skipFraction, run_bind, run_peek, List.head?_cons, some_beq_some (hu c rfl).2]
      rfl
  | present h => exact h.run_someDigits fun c hc => (hu c hc).1

/-- A minus sign is passed over, or its absence is noticed, as a digit has to come next. -/
theorem Minus.run_skipMinus (h : Minus s u) (hu : ∃ c t, u = c :: t ∧ isDigit c = true) :
    skipMinus.run s = .ok ((), u) := by
  cases h with
  | present => rfl
  | absent =>
    obtain ⟨c, t, rfl, hc⟩ := hu
    simp only [skipMinus, run_bind, run_peek, List.head?_cons,
      some_beq_some_of_isDigit hc (show isDigit (Bytes.ascii '-') = false by decide)]
    rfl

/-- The digits before a fraction: the first, and the others, of which there are none after zero. -/
theorem Whole.run_span (h : Whole s u) (hu : ∀ c ∈ u.head?, isDigit c = false) :
    ∃ c t ds, s = c :: t ∧ isDigit c = true ∧ (c = Bytes.ascii '0' → ds = []) ∧
      (span isDigit : Reader Fault Bytes).run t = .ok (ds, u) := by
  -- a zero stands alone; any other digit may be followed by more
  cases h with
  | zero =>
    obtain ⟨ds, hds, hrun⟩ := (Run.nil u).run_span hu
    exact ⟨_, _, ds, rfl, by decide, fun _ => by simpa using hds, hrun⟩
  | digits hne h =>
    cases h with
    | intro hc h =>
      obtain ⟨ds, -, hrun⟩ := h.run_span hu
      exact ⟨_, _, ds, rfl, hc, fun h0 => absurd h0 hne, hrun⟩

/-- **A number is passed over**, if what comes after it does not go on with it. -/
theorem Numeral.run_skipNumber (h : Numeral s r) (hr : Stops r) :
    skipNumber.run s = .ok ((), r) := by
  obtain ⟨s₁, s₂, s₃, hminus, hwhole, hfraction, hexponent⟩ := h
  -- each part must stop before the next one begins, so the first bytes are known from the end on
  have h₃ := hexponent.head hr
  have h₂ := hfraction.head fun c hc => (h₃ c hc).1
  obtain ⟨c, t, ds, rfl, hc, hzero, hspan⟩ := hwhole.run_span h₂
  -- the digits do not begin with a zero unless there is only that
  have hleading : ¬ (c == Bytes.ascii '0' && !ds.isEmpty) = true := by
    intro h
    simp only [Bool.and_eq_true, beq_iff_eq] at h
    rw [hzero h.1] at h
    exact absurd h.2 (by decide)
  rw [skipNumber, run_bind_ok (hminus.run_skipMinus ⟨c, t, rfl, hc⟩),
    run_bind_ok (run_byte_cons _ c t), if_pos hc, run_bind_ok hspan, if_neg hleading,
    run_bind_ok (hfraction.run_skipFraction h₃)]
  exact hexponent.run_skipExponent hr

end Numbers

/-! ### Strings -/

/-- Hexadecimal digits, and nothing else, have a number. -/
theorem hexNumber?_isSome {ds : Bytes} :
    (hexNumber? ds).isSome = true ↔ ∀ d ∈ ds, (hexValue? d).isSome = true := by
  unfold hexNumber?
  -- whatever number has been read so far
  generalize 0 = n
  induction ds generalizing n with
  | nil => exact iff_of_true rfl (List.forall_mem_nil _)
  | cons d ds ih =>
    rw [List.foldlM_cons, List.forall_mem_cons]
    cases hd : hexValue? d with
    | none => exact iff_of_false nofun nofun
    | some x => exact (ih _).trans (by simp)

/-- A step through a string at a backslash is the reader of escapes that is given. -/
theorem run_textStep_escape {esc : Reader Fault Bytes} {b : Bytes} (h : esc.run s = .ok (b, r))
    (sofar : Bytes) :
    (textStep esc sofar).run (Bytes.ascii '\\' :: s) = .ok (.next (b.reverse ++ sofar), r) := by
  have hbyte := run_byte_cons Fault.truncated (Bytes.ascii '\\') s
  rw [textStep, run_bind_ok hbyte, if_neg (by decide), if_pos (by decide), run_bind_ok h]
  rfl

/-- An escape of one letter is passed over. -/
theorem run_skipEscape_short {c : UInt8} (hc : c ∈ shortEscapes) (s : Bytes) :
    skipEscape.run (c :: s) = .ok ([], s) := by
  have hu : ¬ (c == Bytes.ascii 'u') = true := by
    simp only [beq_iff_eq]
    rintro rfl
    exact absurd hc (by decide)
  rw [skipEscape, run_bind_ok (run_byte_cons _ c s), if_neg hu, if_pos]
  · rfl
  · exact List.contains_iff_mem.mpr hc

/-- An escape of a code is passed over: its four digits are looked at, but not what they stand for.
-/
theorem run_skipEscape_code {ds : Bytes} (hlen : ds.length = 4)
    (hds : ∀ d ∈ ds, (hexValue? d).isSome = true) (s : Bytes) :
    skipEscape.run (Bytes.ascii 'u' :: (ds ++ s)) = .ok ([], s) := by
  obtain ⟨n, hn⟩ := Option.isSome_iff_exists.mp (hexNumber?_isSome.mpr hds)
  have hfour : hexFour.run (ds ++ s) = .ok (n, s) := by
    rw [hexFour, run_bind_ok (run_take_append _ hlen s), hn]
    rfl
  rw [skipEscape, run_bind_ok (run_byte_cons _ _ _), if_pos (by decide), run_bind_ok hfour]
  rfl

/-- **The characters of a string** are passed over up to the closing quote, whatever was read before
them. -/
theorem Chars.run_textLoop (h : Chars s r) (sofar : Bytes) :
    ∃ b, (loop (textStep skipEscape) (moves_textStep _) sofar).run s = .ok (b, r) := by
  -- along the characters; what was read so far is carried along and not looked at
  induction h generalizing sofar with
  | quote r => exact ⟨_, by rw [run_loop]; rfl⟩
  | @plain c s r hc h ih =>
    obtain ⟨b, hb⟩ := ih (c :: sofar)
    have hplain : Takes closed (textStep skipEscape sofar) [c] (.next (c :: sofar)) :=
      takes_textStep_plain hc
    have hstep := hplain.run_closed s
    rw [List.singleton_append] at hstep
    exact ⟨b, by rw [run_loop, hstep, ← hb]⟩
  | short hc h ih =>
    obtain ⟨b, hb⟩ := ih sofar
    exact ⟨b, by rw [run_loop, run_textStep_escape (run_skipEscape_short hc _), ← hb]; rfl⟩
  | code hlen hds h ih =>
    obtain ⟨b, hb⟩ := ih sofar
    exact ⟨b, by rw [run_loop, run_textStep_escape (run_skipEscape_code hlen hds _), ← hb]; rfl⟩

/-- **A string is passed over.** -/
theorem Chars.run_skipText (h : Chars s r) : skipText.run s = .ok ((), r) := by
  obtain ⟨b, hb⟩ := h.run_textLoop []
  exact run_bind_ok hb

/-! ### Values -/

/-- Each step reads at least one byte, so that the loop ends. -/
theorem moves_skipStep (fs : List Frame) : (do skipAt fs (← start)).Moves :=
  Moves.bind_right _ (moves_skipAt fs)

/-- Passes over a value within the given frames, and over what is left of them. -/
def skipFrom (fs : List Frame) : Reader Fault Unit :=
  loop (fun fs => do skipAt fs (← start)) moves_skipStep fs

/-- Goes on after a value within frames, or after all of them. -/
def goOn : Turn (List Frame) Unit → Reader Fault Unit
  | .next fs => skipFrom fs
  | .done a => pure a

/-- Passes over what is left of the given frames after a value. -/
def skipAfter (fs : List Frame) : Reader Fault Unit := leave fs >>= goOn

/-- To pass over a value is to do so within no frames. -/
theorem skip_eq_skipFrom : skip = skipFrom [] := rfl

/-- One step of the loop: the value at hand, and then whatever that leaves to do. -/
theorem skipFrom_eq (fs : List Frame) :
    skipFrom fs = start >>= fun st => skipAt fs st >>= goOn := by
  rw [skipFrom, loop_eq, Reader.bind_assoc]
  congr 1
  funext st
  congr 1
  funext turn
  -- either another round, or the end
  cases turn <;> rfl

theorem skipFrom_of_blanks (fs : List Frame) (hs : Blanks s r) :
    (skipFrom fs).run s = (skipFrom fs).run r := by
  rw [skipFrom_eq, start, Reader.bind_assoc, run_bind, run_bind, peekPastBlank_of_blanks hs]

/-- A value is passed over from its first byte on. -/
theorem run_skipFrom {c : UInt8} (fs : List Frame) (hs : Blanks s (c :: u)) (hc : Starts c) :
    (skipFrom fs).run s = (skipAt fs (Start.of c) >>= goOn).run (c :: u) := by
  have hstart : start.run (c :: u) = .ok (Start.of c, c :: u) := by
    rw [start, run_bind_ok (run_peekPastBlank hc.not_blank u)]
    rfl
  rw [skipFrom_of_blanks fs hs, skipFrom_eq, run_bind_ok hstart]

/-- After a value without parts, the frames around it are left. -/
theorem run_skipFrom_leaf {c : UInt8} {fs : List Frame} (hc : Starts c)
    (h : (skipAt fs (Start.of c)).run (c :: u) = (leave fs).run r) :
    (skipFrom fs).run (c :: u) = (skipAfter fs).run r := by
  rw [run_skipFrom fs (.nil _) hc, run_bind, h]
  rfl

/-- The three fixed words are passed over. -/
theorem run_skipFrom_word {w : String} (hw : w ∈ ["null", "true", "false"]) (fs : List Frame)
    (r : Bytes) : (skipFrom fs).run (Bytes.ofText w ++ r) = (skipAfter fs).run r := by
  -- each word is known by its first letter; the rest of it is compared
  have hword (c : UInt8) (w : Bytes) (hc : Starts c) (st : Start) (hst : Start.of c = st)
      (hskip : skipAt fs st = do let _ ← byte .truncated; exactly w; leave fs) :
      (skipFrom fs).run (c :: (w ++ r)) = (skipAfter fs).run r := by
    refine run_skipFrom_leaf hc ?_
    rw [hst, hskip, run_bind_ok (run_byte_cons _ _ _),
      run_bind_ok ((takes_exactly w).run_closed r)]
  simp only [List.mem_cons, List.not_mem_nil, or_false] at hw
  rcases hw with rfl | rfl | rfl
  · exact hword (Bytes.ascii 'n') (Bytes.ofText "ull") (by decide) _ rfl rfl
  · exact hword (Bytes.ascii 't') (Bytes.ofText "rue") (by decide) _ rfl rfl
  · exact hword (Bytes.ascii 'f') (Bytes.ofText "alse") (by decide) _ rfl rfl

/-! ### Frames -/

theorem not_isBlank_close (f : Frame) : isBlank f.close = false := by cases f <;> rfl

theorem run_colon (hs : Blanks s (Bytes.ascii ':' :: u)) : colon.run s = .ok ((), u) := by
  rw [colon, closing, run_bind_ok (run_peekPastBlank_cons hs (by decide))]
  rfl

/-- The name before a part, or nothing in an array, is passed over on entering the part. -/
theorem Label.run_enter {f : Frame} (h : Label f s u) : f.enter.run s = .ok ((), u) := by
  cases h with
  | array => rfl
  -- the opening quote, the name, and the colon
  | object hs hk hc =>
    rw [Frame.enter, run_bind_ok (run_peekPastBlank_cons hs (by decide))]
    dsimp only
    rw [if_pos (by decide), run_bind_ok (run_byte_cons _ _ _), run_bind_ok hk.run_skipText,
      run_colon hc]

/-- The first part begins with a byte that does not close its frame, so that the frame is entered.
-/
theorem Parts.first {f : Frame} (h : Parts f s r) :
    ∃ c t, Blanks s (c :: t) ∧ isBlank c = false ∧ c ≠ f.close := by
  obtain ⟨hlabel, hv, -⟩ := h
  cases hlabel with
  | array =>
    obtain ⟨c, t, hs, hc⟩ := hv.first
    exact ⟨c, t, hs, hc.not_blank, hc.ne (by decide)⟩
  | object hs hk hc => exact ⟨_, _, hs, by decide, by decide⟩

/-- What stands after a part does not go on with digits. -/
theorem Tail.stops {f : Frame} (h : Tail f s r) : Stops s := by
  cases h with
  | close h => exact .of_blanks h fun c hc => by cases hc; cases f <;> decide
  | comma h => exact .of_blanks h fun c hc => by cases hc; decide

/-- White space before a part makes no difference either. -/
theorem enter_of_blanks (f : Frame) (fs : List Frame) (hs : Blanks s r) :
    (f.enter >>= fun _ => skipFrom fs).run s = (f.enter >>= fun _ => skipFrom fs).run r := by
  cases f with
  | array => exact skipFrom_of_blanks fs hs
  | object =>
    rw [Frame.enter, Reader.bind_assoc, run_bind, run_bind, peekPastBlank_of_blanks hs]

theorem skipAt_opening (fs : List Frame) (f : Frame) (s : Bytes) :
    (skipAt fs (Start.of f.opening)).run (f.opening :: s) = (enterFrame f fs).run s := by
  cases f <;> rfl

/-- The value begins with a digit or a minus sign. -/
def Bare (s : Bytes) : Prop := ∃ c t, Blanks s (c :: t) ∧ Start.of c = .number

mutual
/-- **A value of any size and depth is passed over**, if it is no number that goes on. -/
theorem Value.run_skipFrom {s r : Bytes} (h : Value s r) (hr : Bare s → Stops r)
    (fs : List Frame) : (skipFrom fs).run s = (skipAfter fs).run r :=
  match h with
  | .blank hc h => by
    rw [skipFrom_of_blanks fs ((Run.nil _).cons hc)]
    -- the white space is no part of the value, so it may still be a number
    exact h.run_skipFrom (fun ⟨c, t, hs, hst⟩ => hr ⟨c, t, hs.cons hc, hst⟩) fs
  | .word hw r => run_skipFrom_word hw fs r
  | .number h => by
    obtain ⟨c, t, rfl, hc⟩ := h.first
    refine run_skipFrom_leaf (by rw [Starts, hc]; decide) ?_
    rw [hc, skipAt, run_bind_ok (h.run_skipNumber (hr ⟨c, t, .nil _, hc⟩))]
  | .text h => by
    refine run_skipFrom_leaf (by decide) ?_
    show (skipAt fs .quote).run _ = _
    rw [skipAt, run_bind_ok (run_byte_cons _ _ _), run_bind_ok h.run_skipText]
  | .empty f h => by
    refine run_skipFrom_leaf (by cases f <;> decide) ?_
    rw [skipAt_opening, enterFrame, run_bind_ok (run_peekPastBlank_cons h (not_isBlank_close f))]
    dsimp only
    rw [if_pos (beq_self_eq_true _), run_bind_ok (run_byte_cons _ _ _)]
  | .parts f h => by
    -- the frame does not close at once, so it is pushed and its first part is entered
    obtain ⟨c, t, hs, hblank, hclose⟩ := h.first
    rw [JsonText.run_skipFrom fs (.nil _) (by cases f <;> decide), run_bind, skipAt_opening,
      ← run_bind, enterFrame, Reader.bind_assoc, run_bind_ok (run_peekPastBlank_cons hs hblank)]
    dsimp only
    rw [if_neg (by simpa using hclose), Reader.bind_assoc]
    exact (enter_of_blanks f (f :: fs) hs).symm.trans (h.run_enter fs)
/-- From the label of a part on: the part is passed over, and what follows it. -/
theorem Parts.run_enter {f : Frame} {s r : Bytes} (h : Parts f s r) (fs : List Frame) :
    (f.enter >>= fun _ => skipFrom (f :: fs)).run s = (skipAfter fs).run r :=
  match h with
  | .part hs hv h => by
    rw [run_bind_ok hs.run_enter, hv.run_skipFrom (fun _ => h.stops)]
    exact h.run_skipAfter fs
/-- After a part, its frame is left, or another part is entered. -/
theorem Tail.run_skipAfter {f : Frame} {s r : Bytes} (h : Tail f s r) (fs : List Frame) :
    (skipAfter (f :: fs)).run s = (skipAfter fs).run r :=
  match h with
  | .close h => by
    have hcomma : ¬ (f.close == Bytes.ascii ',') = true := by cases f <;> decide
    rw [skipAfter, leave, Reader.bind_assoc,
      run_bind_ok (run_peekPastBlank_cons h (not_isBlank_close f))]
    dsimp only
    rw [if_neg hcomma, if_pos (beq_self_eq_true _), Reader.bind_assoc,
      run_bind_ok (run_byte_cons _ _ _)]
    rfl
  | .comma hs h => by
    rw [skipAfter, leave, Reader.bind_assoc, run_bind_ok (run_peekPastBlank_cons hs (by decide))]
    dsimp only
    rw [if_pos (beq_self_eq_true _), Reader.bind_assoc, run_bind_ok (run_byte_cons _ _ _),
      Reader.bind_assoc]
    exact h.run_enter fs
end

/-! ### Whole values -/

/-- What a value leaves when more bytes come after it, if it may be a number. -/
theorem Stops.append {t : Bytes} (hr : Blanks r []) (ht : Stops t) : Stops (r ++ t) := by
  have h := hr.append t
  rw [List.nil_append] at h
  exact .of_blanks h ht

/-- **A value is passed over whole**, before anything that does not go on with a number. -/
theorem Document.run_skip {w t : Bytes} (h : Document w) (ht : Stops t) :
    ∃ r, Blanks r [] ∧ skip.run (w ++ t) = .ok ((), r ++ t) := by
  obtain ⟨r, hv, hr⟩ := h
  refine ⟨r, hr, ?_⟩
  rw [skip_eq_skipFrom, (hv.append t).run_skipFrom fun _ => ht.append hr]
  rfl

/-- What is read at the place of a value is all of it, if it is no number. -/
theorem Document.left_eq {w t r' : Bytes} (h : Document w) (ht : Stops t) (hv : Value (w ++ t) r')
    (hbare : ¬Bare (w ++ t)) : ∃ r, Blanks r [] ∧ r' = r ++ t := by
  obtain ⟨r, hr, hskip⟩ := h.run_skip ht
  have hskip' := hv.run_skipFrom (fun hb => absurd hb hbare) []
  exact ⟨r, hr, (Prod.mk.inj (Except.ok.inj (hskip'.symm.trans hskip))).2⟩

end TwoTier.JsonText
