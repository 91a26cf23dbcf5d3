import TwoTier.Script
import TwoTier.Store.Server

/-!
# The Memcached store

A store on a Memcached server, which ends lifetimes itself: a write carries its time to live in
whole seconds, rounded up, since zero would mean no end (`Memcached.expirySecs`). The rounding is
done on numbers of 64 bits and wraps around at their end. Keys have at most 250 bytes. A failure of
the server is a failure of the call.
-/

namespace TwoTier

/-- A store on a Memcached server. -/
structure Memcached where
  server : Server
deriving DecidableEq

namespace Memcached

/-- The name of the store. -/
def name : String := "Memcached"

/-- Where the server is sought if nothing else is said. -/
def defaultUrl : String := "memcache://127.0.0.1:11211"

/-- The address of the server in an environment of named byte strings; one that is no text counts as
not set. -/
def urlOf (environment : String → Option Bytes) : String :=
  ((environment "MEMCACHED_URL").bind Bytes.text?).getD defaultUrl

/-- The greatest number of bytes of a key. -/
def maxKeyLength : Nat := 250

/-- The time to live in whole seconds, rounded up modulo `2 ^ 64`. -/
def wholeSecs (ttl : Duration) : UInt64 :=
  UInt64.ofNat ttl.secs + if 0 < ttl.nanos then 1 else 0

/-- The expiry of a write in seconds: whole ones, rounded up, at least one, and at most the greatest
number of 32 bits. -/
def expirySecs (ttl : Duration) : Nat := min (max (wholeSecs ttl).toNat 1) (UInt32.size - 1)

/-- The text of an error line of the server. -/
def lineText (line : String) : String :=
  if line = "ERROR" then "Invalid command sent to the server."
  else line ++ "\r\n"

/-- Why a command fails before it is sent, or what the server fails it with. -/
def fault? (m : Memcached) (command key : String) : Option String :=
  if maxKeyLength < (Bytes.ofText key).length then some "The provided key was too long."
  else (m.server.faults.find? command).map lineText

/-- The calls that a command is on the server: none if its key is too long. -/
def calls (c : Command) : List Call :=
  if maxKeyLength < (Bytes.ofText c.key).length then []
  else match c with
    | .get key => [[.text "get", .text key]]
    | .set key payload ttl =>
      [[.text "set", .text key, .text "0", .text (toString (expirySecs ttl)),
        .text (toString payload.length), .bytes payload]]
    | .remove key => [[.text "delete", .text key]]

/-- Answers a command. -/
def serve (m : Memcached) : (c : Command) → c.Reply × Memcached × List Event
  | .get key =>
    match m.fault? "get" key with
    | some reason => (.error { text := "Memcached GET failed: " ++ reason }, m, [])
    | none => (.ok (m.server.read key), m, [])
  -- the expiry goes with the call alone: what the server makes of it is the server's
  | .set key payload ttl =>
    match m.fault? "set" key with
    | some reason => (.error { text := "Memcached SET failed: " ++ reason }, m, [])
    | none =>
      (.ok (), ⟨m.server.write key payload⟩, [.storedForSecs name key (expirySecs ttl)])
  | .remove key =>
    match m.fault? "delete" key with
    | some reason => (.error { text := "Memcached DELETE failed: " ++ reason }, m, [])
    | none => (.ok (), ⟨m.server.delete key⟩, [])

/-- Connects to a server under the given address, and asks it for its version; `refusal` says why
that is no address, if it is none. Also gives what was reported. -/
def connect (url : String) (refusal : Option String) (server : Server) :
    Except Failure Memcached × List Event :=
  let connecting := [Event.memcachedConnecting url]
  match refusal, server.unreachable with
  | some reason, _ => (.error { text := "Failed to connect to Memcached: " ++ reason }, connecting)
  -- a pool waits for its first connection, so the wait is what runs out
  | none, some reason =>
    (.error
      { text := "Failed to connect to Memcached: timed out waiting for connection: " ++ reason },
      connecting)
  | none, none =>
    match server.faults.find? "version" with
    | some line =>
      (.error { text := "Memcached connection test failed: " ++ lineText line }, connecting)
    | none => (.ok ⟨server⟩, connecting ++ [.memcachedConnected url 1])

end Memcached

end TwoTier
