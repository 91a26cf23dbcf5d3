import TwoTier.Bytes
import TwoTier.Config.Error

/-!
# Settings from the environment

A configuration can be read from four named settings. They are looked up one after the other, each
once; one that is not set keeps its default, and the first whose text cannot be read ends the
loading (`Config.load`).

The text of a time to live, without the white space around it, is a number of seconds below `2 ^ 64`
in ASCII digits, with an optional plus sign and any number of leading zeros (`readSecs`).
-/

namespace TwoTier

/-! ### Numbers of seconds -/

/-- Why a text is no number of seconds. -/
inductive SecsFault where
  /-- There is no text. -/
  | empty
  /-- There is no digit where one should be. -/
  | invalidDigit
  /-- The number is `2 ^ 64` or more. -/
  | tooLarge
deriving DecidableEq, Repr

/-- The text of a fault. -/
def SecsFault.message : SecsFault → String
  | .empty => "cannot parse integer from empty string"
  | .invalidDigit => "invalid digit found in string"
  | .tooLarge => "number too large to fit in target type"

/-- The value of an ASCII digit. -/
def digit? (c : Char) : Option Nat :=
  if '0' ≤ c && c ≤ '9' then some (c.toNat - '0'.toNat) else none

/-- Appends digits to a number; the first character that is no digit, or makes the number too large,
is the fault. -/
def readDigits (n : Nat) : List Char → Except SecsFault Nat
  | [] => .ok n
  | c :: cs =>
    match digit? c with
    | none => .error .invalidDigit
    | some d => if n * 10 + d < UInt64.size then readDigits (n * 10 + d) cs else .error .tooLarge

/-- The number that a text without white space around it stands for. -/
def readNumber : List Char → Except SecsFault Nat
  | [] => .error .empty
  -- a sign alone lacks a digit, although there is a text
  | ['+'] => .error .invalidDigit
  | '+' :: cs => readDigits 0 cs
  | cs => readDigits 0 cs

/-- The number of seconds that a text stands for. -/
def readSecs (s : String) : Except SecsFault Nat := readNumber (Text.trimBlank s.toList)

theorem readDigits_lt {n m : Nat} {cs : List Char} (hn : n < UInt64.size)
    (h : readDigits n cs = .ok m) : m < UInt64.size := by
  induction cs generalizing n with
  | nil => cases h; exact hn
  | cons c cs ih =>
    rw [readDigits] at h
    split at h
    · cases h
    · split at h
      · next hlt => exact ih hlt h
      · cases h

theorem readSecs_lt {s : String} {n : Nat} (h : readSecs s = .ok n) : n < UInt64.size := by
  rw [readSecs] at h
  generalize Text.trimBlank s.toList = cs at h
  unfold readNumber at h
  split at h
  · cases h
  · cases h
  · exact readDigits_lt (by decide) h
  · exact readDigits_lt (by decide) h

/-- The time to live that a text stands for, in whole seconds. -/
def readTtl (s : String) : Except SecsFault Duration :=
  match h : readSecs s with
  | .ok n => .ok (.ofSecs (UInt64.ofNatLT n (readSecs_lt h)))
  | .error e => .error e

/-! ### Settings -/

/-- A part of a configuration that can be set from outside. -/
inductive Setting where
  | mode
  | warmupTtl
  | l1Ttl
  | l2Ttl
deriving DecidableEq, Repr

namespace Setting

/-- All settings, in the order in which they are looked up. -/
def all : List Setting := [.mode, .warmupTtl, .l1Ttl, .l2Ttl]

/-- The name under which a setting is looked up. -/
def name : Setting → String
  | .mode => "CACHE_MODE"
  | .warmupTtl => "CACHE_WARMUP_TTL_SECS"
  | .l1Ttl => "CACHE_L1_TTL_SECS"
  | .l2Ttl => "CACHE_L2_TTL_SECS"

/-- The configuration with one setting read from a text, or why that text cannot be read. -/
def apply (s : Setting) (text : String) (c : Config) : Except String Config :=
  let ttl := (readTtl text).mapError SecsFault.message
  match s with
  | .mode => (Mode.parse text).map fun m => { c with mode := m }
  | .warmupTtl => ttl.map fun d => { c with warmupTtl := d }
  | .l1Ttl => ttl.map fun d => { c with l1Ttl := d }
  | .l2Ttl => ttl.map fun d => { c with l2Ttl := d }

end Setting

namespace Config

/-- Looks up the given settings in order; also gives the names that were looked up. -/
def loadFrom (lookup : String → Option String) :
    List Setting → Config → List String × Except ConfigError Config
  | [], c => ([], .ok c)
  | s :: rest, c =>
    match lookup s.name with
    | none =>
      let (asked, r) := loadFrom lookup rest c
      (s.name :: asked, r)
    | some text =>
      match s.apply text c with
      -- the first fault ends the look-ups; the text is shown as it was found
      | .error reason => ([s.name], .error (.invalidSetting s.name text reason))
      | .ok c' =>
        let (asked, r) := loadFrom lookup rest c'
        (s.name :: asked, r)

/-- The configuration in the settings that `lookup` finds; also gives the names that were looked up,
in order. -/
def load (lookup : String → Option String) : List String × Except ConfigError Config :=
  loadFrom lookup Setting.all {}

/-- The configuration in an environment of named byte strings. One that is no text counts as not
set. -/
def ofEnvironment (environment : String → Option Bytes) : Except ConfigError Config :=
  (load fun name => (environment name).bind Bytes.text?).2

end Config

end TwoTier
