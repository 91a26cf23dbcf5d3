import TwoTier.Proofs.Codec.JsonText.Extends
import TwoTier.Proofs.Codec.JsonText.Soundness
import TwoTier.Proofs.Config.Entries

/-!
# Configurations as JSON objects

A JSON object is given by its entries, the names and values of its members in their order
(`Object`). Keys are strings that have a text (`Names`), as those with half of a surrogate pair have
none, and values are any values, with any white space around them.

* A reader of configurations comes from member to member (`Arrives`), and makes of each what the
  entry is (`run_configStep`, `configStep_sound`): the value of a setting, which is read inside the
  object as it is by itself, or a value that is passed over.
* So it gathers the entries, one after the other: `Object.deserialize_of_gathers` and
  `Object.gathers_of_deserialize`.
-/

namespace TwoTier.JsonText

open Reader

/-! ### Objects -/

/-- The bytes are a string, with white space around it, for the text. -/
def Names (k : Bytes) (name : String) : Prop := Codec.jsonText.deserialize .text k = .ok name

/-- Members of an object with commas between them: keys, colons and values. -/
inductive Members : List (String × Bytes) → Bytes → Prop
  | one {k w : Bytes} {name : String} (hk : Names k name) (hw : Document w) :
      Members [(name, w)] (k ++ Bytes.ascii ':' :: w)
  | more {k w m : Bytes} {name : String} {es : List (String × Bytes)} (hk : Names k name)
      (hw : Document w) (h : Members es m) :
      Members ((name, w) :: es) (k ++ Bytes.ascii ':' :: (w ++ Bytes.ascii ',' :: m))

/-- **The bytes are an object** with the given entries: the names of its members, and their values
with the white space around them. -/
inductive Object : List (String × Bytes) → Bytes → Prop
  | empty {b s t : Bytes} (hb : Blanks b (Bytes.ascii '\x7b' :: s))
      (hs : Blanks s (Bytes.ascii '\x7d' :: t)) (ht : Blanks t []) : Object [] b
  | members {b m t : Bytes} {es : List (String × Bytes)}
      (hb : Blanks b (Bytes.ascii '\x7b' :: (m ++ Bytes.ascii '\x7d' :: t))) (hm : Members es m)
      (ht : Blanks t []) : Object es b

/-! ### The values of settings -/

section Shape

/-- The value of a setting needs one level, which is there inside the configuration too. -/
theorem reader_shape_inside (s : Setting) :
    reader s.shape (maxDepth - 1) = reader s.shape maxDepth := by
  cases s <;> rfl

/-- What is read as the value of a setting is read so with more after it that ends a number. -/
theorem extends_shape (s : Setting) (d : Nat) : Extends delimits (reader s.shape d) := by
  have hmode : Extends delimits (reader Mode.shape d) := (extends_choice d _).map _
  have hrow (d : Nat) : (row Duration.fields d).Extends delimits :=
    .cons extends_another extends_colon (extends_scalar _)
      (.cons extends_another extends_colon (extends_scalar _) .nil)
  -- a time to live is a record of two numbers
  have hduration : Extends delimits (reader Duration.shape d) := extends_record hrow _
  cases s with
  | mode => exact hmode
  | warmupTtl | l1Ttl | l2Ttl => exact hduration

/-- What is read as the value of a setting is one whole value. -/
theorem readsValue_shape (s : Setting) (d : Nat) : ReadsValue (reader s.shape d) := by
  -- a mode is the name of a choice
  have hmode : ReadsValue (reader Mode.shape d) := by
    intro s m r h
    obtain ⟨i, u, hchoice, hdone⟩ := run_bind_eq_ok.mp h
    cases hdone
    exact readsValue_choice d _ s i r hchoice
  have hrow (d : Nat) : RowSound (row Duration.fields d) :=
    .cons (fun _ _ _ => scalar_sound) (.cons (fun _ _ _ => scalar_sound) .nil)
  have hduration : ReadsValue (reader Duration.shape d) := readsValue_record hrow _
  cases s with
  | mode => exact hmode
  | warmupTtl | l1Ttl | l2Ttl => exact hduration

end Shape

/-! ### Keys -/

/-- White space up to the end is nothing but white space. -/
theorem blanks_nil_iff {r : Bytes} : Blanks r [] ↔ r.all isBlank = true := by
  rw [List.all_eq_true]
  constructor
  · rintro ⟨w, rfl, hw⟩
    rwa [List.append_nil]
  · exact fun h => ⟨r, (List.append_nil r).symm, h⟩

/-- What is decoded is read up to white space. -/
theorem deserialize_eq_ok {α : Type} {s : Shape α} {b : Bytes} {v : α} :
    Codec.jsonText.deserialize s b = .ok v ↔
      ∃ r, Blanks r [] ∧ (reader s maxDepth).run b = .ok (v, r) := by
  show (read s b).mapError _ = .ok v ↔ _
  unfold read
  cases hrun : (reader s maxDepth).run b with
  | error e => exact iff_of_false nofun nofun
  | ok x =>
    obtain ⟨a, r⟩ := x
    dsimp only
    -- decoding refuses what comes after the value, unless it is white space
    by_cases hr : r.all isBlank = true
    · rw [if_pos hr]
      constructor
      · intro h
        cases h
        exact ⟨r, blanks_nil_iff.mpr hr, rfl⟩
      · rintro ⟨_, _, ⟨⟩⟩
        rfl
    · rw [if_neg hr]
      refine iff_of_false nofun ?_
      rintro ⟨_, h, ⟨⟩⟩
      exact hr (blanks_nil_iff.mp h)

/-- A value of a setting is a value. -/
theorem document_of_readsAlone {s : Setting} {w : Bytes} {v : s.Value}
    (h : Codec.jsonText.ReadsAlone s w v) : Document w := by
  obtain ⟨r, hr, hrun⟩ := deserialize_eq_ok.mp h
  exact ⟨r, (readsValue_shape s _ _ _ _ hrun).1, hr⟩

/-- The string of a key begins with a quote, and ends by itself. -/
theorem Names.run {k : Bytes} {name : String} (h : Names k name) :
    ∃ t r, Blanks k (Bytes.ascii '"' :: t) ∧ Blanks r [] ∧ textBody.run t = .ok (name, r) := by
  obtain ⟨r, hr, hrun⟩ := deserialize_eq_ok.mp h
  obtain ⟨c, t, hk, hscalar⟩ := run_start_bind hrun
  obtain ⟨v, u, hv, hdone⟩ := run_bind_eq_ok.mp hscalar
  obtain ⟨hname, rfl⟩ := run_ofOption_eq_ok.mp hdone
  obtain ⟨hquote, -, -⟩ := eq_of_start (c := c)
  -- only a string has a text; the other scalars give none
  generalize hst : Start.of c = st at hv
  cases st with
  | quote =>
    obtain ⟨x, t', hbyte, htext⟩ := run_bind_eq_ok.mp hv
    cases hbyte
    obtain ⟨text, u', hbody, hdone⟩ := run_bind_eq_ok.mp htext
    cases hdone
    cases hname
    rw [hquote hst] at hk
    exact ⟨t, u, hk, hr, hbody⟩
  | nullWord | trueWord | falseWord | number =>
    obtain ⟨x, u', -, hdone⟩ := run_bind_eq_ok.mp hv
    cases hdone
    cases hname
  | bracket | brace | other => cases hv

/-! ### Entries -/

/-- White space up to a key, or a comma with white space before it. -/
def Arrives (first : Bool) (s m : Bytes) : Prop :=
  if first then Blanks s m else Blanks s (Bytes.ascii ',' :: m)

section Entries

variable {first : Bool} {g : Given} {s k w m t : Bytes} {name : String}

/-- A key is found where one may stand. -/
theorem run_anotherKey_of_arrives {u : Bytes} (hs : Arrives first s m)
    (hm : Blanks m (Bytes.ascii '"' :: u)) :
    (anotherKey first).run s = .ok (true, Bytes.ascii '"' :: u) := by
  have hquote := run_peekPastBlank_cons hm (by decide)
  -- the first key may come at once, and every other after a comma
  cases first with
  | true =>
    rw [anotherKey, run_bind_ok ((peekPastBlank_of_blanks hs).trans hquote)]
    rfl
  | false =>
    rw [anotherKey, run_bind_ok (run_peekPastBlank_cons hs (by decide))]
    dsimp only
    rw [if_neg (by decide), if_neg (by decide), if_pos (by decide),
      run_bind_ok (run_byte_cons _ _ _), run_bind_ok hquote]
    rfl

/-- A step through an entry comes to what is after its key. -/
theorem run_entryStep {σ : Type} (step : σ → String → Reader Fault σ) (st : σ)
    (hs : Arrives first s (k ++ Bytes.ascii ':' :: t)) (hk : Names k name) :
    ∃ r, Blanks r (Bytes.ascii ':' :: t) ∧ (entryStep step (first, st)).run s = (do
      let st' ← step st name
      pure (.next (false, st')) : Reader Fault (Turn (Bool × σ) σ)).run r := by
  obtain ⟨u, r, hquote, hr, hbody⟩ := hk.run
  -- the string ends with its quote, whatever comes after it
  have hbody' : textBody.run (u ++ Bytes.ascii ':' :: t) = .ok (name, r ++ Bytes.ascii ':' :: t) :=
    extends_textBody u name r _ hbody fun _ c hc => by
      cases hc
      decide
  have hquoted : quoted.run (Bytes.ascii '"' :: (u ++ Bytes.ascii ':' :: t)) =
      .ok (name, r ++ Bytes.ascii ':' :: t) := by
    rw [quoted, run_bind_ok (run_byte_cons _ _ _), hbody']
  refine ⟨r ++ Bytes.ascii ':' :: t, hr.append _, ?_⟩
  rw [entryStep, run_bind_ok (run_anotherKey_of_arrives hs (hquote.append _))]
  exact run_bind_ok hquoted

/-- The step through the entries of a configuration. -/
def configStep (slots : Config.fields.Slots) (name : String) : Reader Fault Config.fields.Slots :=
  recordEntry false (row Config.fields (maxDepth - 1)) slots name

/-- At the name of a setting, the step fills its slot; … -/
theorem configStep_setting (g : Given) (s : Setting) :
    configStep g.slots s.storedName =
      Fields.fillSlot rowStyle (g s) (reader s.shape (maxDepth - 1))
        fun v => (g.set s v).slots := by
  rw [configStep, recordEntry, row_eq, fill?_storedName]

/-- … at any other name, it passes over the value. -/
theorem configStep_other (g : Given) (hk : name ∉ Config.fields.names) :
    configStep g.slots name = (do colon; skip; pure g.slots) := by
  rw [configStep, recordEntry, row_eq, Fields.fill?_eq_none _ _ hk]
  rfl

/-- **An entry that can be read makes its step**, whatever comes after it. -/
theorem run_configStep {g' : Given} (hstep : Given.Step Codec.jsonText.ReadsAlone g (name, w) g')
    (hw : Document w) (ht : ∀ c ∈ t.head?, delimits c = true)
    (hs : Blanks s (Bytes.ascii ':' :: (w ++ t))) :
    ∃ r, Blanks r t ∧ (configStep g.slots name).run s = .ok (g'.slots, r) := by
  cases hstep with
  | @setting x _ v hg hv =>
    obtain ⟨r, hr, hrun⟩ := deserialize_eq_ok.mp hv
    rw [← reader_shape_inside x] at hrun
    -- the value is read inside the object as it is by itself
    have hinside := extends_shape x (maxDepth - 1) w v r t hrun fun _ => ht
    have hbetween : rowStyle.between.run s = .ok ((), w ++ t) := run_colon hs
    refine ⟨r ++ t, hr.append t, ?_⟩
    rw [configStep_setting, hg, Fields.fillSlot, run_bind_ok hbetween, run_bind_ok hinside]
    rfl
  | other hk =>
    obtain ⟨r, hr, hskip⟩ := hw.run_skip fun c hc => goesOn_of_delimits (ht c hc)
    refine ⟨r ++ t, hr.append t, ?_⟩
    rw [configStep_other g hk, run_bind_ok (run_colon hs), run_bind_ok hskip]
    rfl

/-- **An entry that makes a step** is of a setting without a value, or of none, and is read to its
end. -/
theorem configStep_sound {slots : Config.fields.Slots} {r : Bytes} (hw : Document w)
    (ht : ∀ c ∈ t.head?, delimits c = true) (hs : Blanks s (Bytes.ascii ':' :: (w ++ t)))
    (h : (configStep g.slots name).run s = .ok (slots, r)) :
    ∃ g', Given.Step (fun _ _ _ => True) g (name, w) g' ∧ slots = g'.slots ∧ Blanks r t := by
  have hstops : Stops t := fun c hc => goesOn_of_delimits (ht c hc)
  by_cases hk : name ∈ Config.fields.names
  · obtain ⟨x, rfl⟩ := Setting.exists_storedName hk
    rw [configStep_setting] at h
    -- a setting that has a value is refused as a duplicate
    cases hg : g x with
    | some v =>
      rw [hg] at h
      cases h
    | none =>
      have hbetween : rowStyle.between.run s = .ok ((), w ++ t) := run_colon hs
      rw [hg, Fields.fillSlot, run_bind_ok hbetween] at h
      obtain ⟨v, u, hread, hdone⟩ := run_bind_eq_ok.mp h
      cases hdone
      obtain ⟨hvalue, hbare⟩ := readsValue_shape x _ _ _ _ hread
      -- the value that was read is the one that the entry has
      obtain ⟨r', hr', rfl⟩ := hw.left_eq hstops hvalue hbare
      exact ⟨_, .setting hg trivial, rfl, hr'.append t⟩
  · rw [configStep_other g hk, run_bind_ok (run_colon hs)] at h
    obtain ⟨_, u, hskip, hdone⟩ := run_bind_eq_ok.mp h
    cases hdone
    obtain ⟨r', hr', hskip'⟩ := hw.run_skip hstops
    cases hskip'.symm.trans hskip
    exact ⟨g, .other hk w, rfl, hr'.append t⟩

/-! ### Members -/

/-- The loop through the members of an object. -/
def configLoop (first : Bool) (g : Given) : Reader Fault Config.fields.Slots :=
  loop (entryStep configStep) (moves_entryStep configStep) (first, g.slots)

/-- The loop is done before the closing brace. -/
theorem run_configLoop_close (hs : Blanks s (Bytes.ascii '\x7d' :: t)) :
    (configLoop first g).run s = .ok (g.slots, Bytes.ascii '\x7d' :: t) := by
  -- the brace is no key, so there is not another
  have hkey : (anotherKey first).run s = .ok (false, Bytes.ascii '\x7d' :: t) := by
    rw [anotherKey, run_bind_ok (run_peekPastBlank_cons hs (by decide))]
    rfl
  have hstep : (entryStep configStep (first, g.slots)).run s =
      .ok (.done g.slots, Bytes.ascii '\x7d' :: t) := by
    rw [entryStep, run_bind_ok hkey]
    rfl
  rw [configLoop, run_loop, hstep]

/-- The loop goes on after a member. -/
theorem run_configLoop_next {g' : Given} {v : Bytes}
    (hs : Arrives first s (k ++ Bytes.ascii ':' :: v)) (hk : Names k name)
    (hstep : ∀ s, Blanks s (Bytes.ascii ':' :: v) →
      ∃ r, Blanks r t ∧ (configStep g.slots name).run s = .ok (g'.slots, r)) :
    ∃ r, Blanks r t ∧ (configLoop first g).run s = (configLoop false g').run r := by
  obtain ⟨u, hu, hrun⟩ := run_entryStep configStep g.slots hs hk
  obtain ⟨r, hr, hu'⟩ := hstep u hu
  refine ⟨r, hr, ?_⟩
  rw [configLoop, run_loop, hrun, run_bind_ok hu']
  rfl

/-- **Entries that can be read are read**, up to the closing brace. -/
theorem Members.run_configLoop {es : List (String × Bytes)} (hm : Members es m) {g g' : Given}
    (hg : Given.Gathers Codec.jsonText.ReadsAlone g es g')
    (hs : Arrives first s (m ++ Bytes.ascii '\x7d' :: t)) :
    (configLoop first g).run s = .ok (g'.slots, Bytes.ascii '\x7d' :: t) := by
  -- on the members, from any settings that have a value already
  induction hm generalizing first g s with
  | @one k w name hk hw =>
    cases hg with
    | cons hstep hrest =>
      cases hrest
      rw [List.append_assoc, List.cons_append] at hs
      obtain ⟨r, hr, hnext⟩ := run_configLoop_next hs hk fun s hs =>
        run_configStep hstep hw (fun c hc => by cases hc; decide) hs
      rw [hnext]
      exact run_configLoop_close hr
  | @more k w m name es hk hw hm ih =>
    cases hg with
    | cons hstep hrest =>
      rw [List.append_assoc, List.cons_append, List.append_assoc, List.cons_append] at hs
      obtain ⟨r, hr, hnext⟩ := run_configLoop_next hs hk fun s hs =>
        run_configStep hstep hw (fun c hc => by cases hc; decide) hs
      rw [hnext]
      exact ih hrest hr

/-- A loop that comes through has made the step of the next member. -/
theorem configLoop_next_sound {slots : Config.fields.Slots} {r : Bytes} (hw : Document w)
    (ht : ∀ c ∈ t.head?, delimits c = true) (hk : Names k name)
    (hs : Arrives first s (k ++ Bytes.ascii ':' :: (w ++ t)))
    (h : (configLoop first g).run s = .ok (slots, r)) :
    ∃ g' u, Given.Step (fun _ _ _ => True) g (name, w) g' ∧ Blanks u t ∧
      (configLoop false g').run u = .ok (slots, r) := by
  obtain ⟨v, hv, hrun⟩ := run_entryStep configStep g.slots hs hk
  rw [configLoop, run_loop, hrun, run_bind] at h
  -- a step that fails would have ended the loop
  cases hstep : (configStep g.slots name).run v with
  | error e =>
    rw [hstep] at h
    cases h
  | ok x =>
    obtain ⟨slots', u⟩ := x
    rw [hstep] at h
    obtain ⟨g', hg', rfl, hu⟩ := configStep_sound hw ht hv hstep
    exact ⟨g', u, hg', hu, h⟩

/-- **Entries that are read** are of no setting twice. -/
theorem Members.configLoop_sound {es : List (String × Bytes)} (hm : Members es m) {g : Given}
    {slots : Config.fields.Slots} {r : Bytes}
    (hs : Arrives first s (m ++ Bytes.ascii '\x7d' :: t))
    (h : (configLoop first g).run s = .ok (slots, r)) :
    ∃ g', Given.Gathers (fun _ _ _ => True) g es g' := by
  induction hm generalizing first g s with
  | @one k w name hk hw =>
    rw [List.append_assoc, List.cons_append] at hs
    obtain ⟨g', u, hstep, -, -⟩ :=
      configLoop_next_sound hw (fun c hc => by cases hc; decide) hk hs h
    exact ⟨g', .cons hstep (.nil g')⟩
  | @more k w m name es hk hw hm ih =>
    rw [List.append_assoc, List.cons_append, List.append_assoc, List.cons_append] at hs
    obtain ⟨g₁, u, hstep, hu, hrest⟩ :=
      configLoop_next_sound hw (fun c hc => by cases hc; decide) hk hs h
    have harrives : Arrives false u (m ++ Bytes.ascii '\x7d' :: t) := hu
    obtain ⟨g', hg'⟩ := ih harrives hrest
    exact ⟨g', .cons hstep hg'⟩

end Entries

/-! ### Configurations -/

section Configs

variable {es : List (String × Bytes)} {b : Bytes}

/-- A configuration that is an object, after its opening brace. -/
theorem run_config {s : Bytes} (hb : Blanks b (Bytes.ascii '\x7b' :: s)) :
    (reader Config.shape maxDepth).run b = (do
      let slots ← configLoop true .nothing
      let c ← ofOption Fault.mismatched ((Config.fields.collect slots).bind fun f =>
        some (⟨f.1, f.2.1, f.2.2.1, f.2.2.2.1⟩ : Config))
      closing '\x7d'
      pure c).run s := by
  -- the brace says that this is an object
  have hstart : start.run b = .ok (.brace, Bytes.ascii '\x7b' :: s) := by
    rw [start, run_bind_ok (run_peekPastBlank_cons hb (by decide))]
    rfl
  rw [Config.shape, reader, record, run_bind_ok hstart]
  dsimp only
  rw [object, maxDepth, within, run_bind_ok (run_byte_cons _ _ _), Reader.bind_assoc]
  rfl

/-- The entries of an object are gathered up to its closing brace. -/
theorem run_config_of_loop {s t : Bytes} {g : Given} (hb : Blanks b (Bytes.ascii '\x7b' :: s))
    (hloop : (configLoop true .nothing).run s = .ok (g.slots, Bytes.ascii '\x7d' :: t)) :
    (reader Config.shape maxDepth).run b = .ok (g.config, t) := by
  have hconfig : (Config.fields.collect g.slots).bind (fun f =>
      some (⟨f.1, f.2.1, f.2.2.1, f.2.2.2.1⟩ : Config)) = some g.config := by
    rw [g.collect_slots]
    rfl
  rw [run_config hb, run_bind_ok hloop, hconfig]
  rfl

/-- **An object whose entries can be read is decoded** as the configuration that they give. -/
theorem Object.deserialize_of_gathers (h : Object es b) {g : Given}
    (hg : Given.Gathers Codec.jsonText.ReadsAlone .nothing es g) :
    Codec.jsonText.deserialize Config.shape b = .ok g.config := by
  refine deserialize_eq_ok.mpr ?_
  cases h with
  | empty hb hs ht =>
    cases hg
    exact ⟨_, ht, run_config_of_loop hb (run_configLoop_close hs)⟩
  | members hb hm ht => exact ⟨_, ht, run_config_of_loop hb (hm.run_configLoop hg (.nil _))⟩

/-- **An object that is decoded** has no setting twice. -/
theorem Object.gathers_of_deserialize (h : Object es b) {c : Config}
    (hc : Codec.jsonText.deserialize Config.shape b = .ok c) :
    ∃ g, Given.Gathers (fun _ _ _ => True) .nothing es g := by
  obtain ⟨r, -, hrun⟩ := deserialize_eq_ok.mp hc
  cases h with
  | empty => exact ⟨_, .nil _⟩
  | members hb hm ht =>
    rw [run_config hb] at hrun
    obtain ⟨slots, u, hloop, -⟩ := run_bind_eq_ok.mp hrun
    have harrives {m : Bytes} : Arrives true m m := Run.nil m
    exact hm.configLoop_sound harrives hloop

end Configs

end TwoTier.JsonText
