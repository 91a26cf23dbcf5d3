import TwoTier.Script
import TwoTier.Store.Server

/-!
# The Redis store

A store on a Redis server, which ends lifetimes itself: a write carries its time to live in whole
milliseconds, at least one (`Redis.expiryMillis`). A failure of the server is a failure of the call.
-/

namespace TwoTier

/-- A store on a Redis server. -/
structure Redis where
  server : Server
deriving DecidableEq

namespace Redis

/-- The name of the store. -/
def name : String := "Redis"

/-- Where the server is sought if nothing else is said. -/
def defaultUrl : String := "redis://127.0.0.1:6379"

/-- The address of the server in an environment of named byte strings; one that is no text counts as
not set. -/
def urlOf (environment : String → Option Bytes) : String :=
  ((environment "REDIS_URL").bind Bytes.text?).getD defaultUrl

/-- The expiry of a write in milliseconds: the whole ones in the time to live, at least one, and at
most the greatest number of 64 bits. -/
def expiryMillis (ttl : Duration) : Nat := max (min ttl.toMillis (UInt64.size - 1)) 1

/-- The failure of a command. -/
def failure (command key reason : String) : Failure :=
  { text := "Redis " ++ command ++ " failed for key '" ++ key ++ "'", causes := [reason] }

/-- The call that a command is on the server. -/
def call : Command → Call
  | .get key => [.text "GET", .text key]
  | .set key payload ttl =>
    [.text "PSETEX", .text key, .text (toString (expiryMillis ttl)), .bytes payload]
  | .remove key => [.text "DEL", .text key]

/-- Answers a command. -/
def serve (r : Redis) : (c : Command) → c.Reply × Redis × List Event
  | .get key =>
    match r.server.faults.find? "GET" with
    | some reason => (.error (failure "GET" key reason), r, [])
    | none =>
      let value := r.server.read key
      (.ok value, r, [.redisRead key value.isSome])
  | .set key payload ttl =>
    match r.server.faults.find? "PSETEX" with
    | some reason => (.error (failure "PSETEX" key reason), r, [])
    | none => (.ok (), ⟨r.server.write key payload⟩, [.stored name key ttl])
  | .remove key =>
    match r.server.faults.find? "DEL" with
    | some reason => (.error (failure "DEL" key reason), r, [])
    | none => (.ok (), ⟨r.server.delete key⟩, [])

/-- Connects to a server under the given address; `valid` says whether that is an address at all.
Also gives what was reported, and the calls that reached the server. -/
def connect (url : String) (valid : Bool) (server : Server) :
    Except Failure Redis × List Event × List Call :=
  let connecting := [Event.redisConnecting url]
  if !valid then
    (.error { text := "Failed to create Redis client with URL: " ++ url }, connecting, [])
  else match server.unreachable with
    | some reason =>
      (.error { text := "Failed to establish Redis connection manager", causes := [reason] },
        connecting, [])
    | none =>
      let ping : Call := [.text "PING"]
      match server.faults.find? "PING" with
      | some reason =>
        (.error { text := "Redis PING health check failed", causes := [reason] }, connecting,
          [ping])
      | none => (.ok ⟨server⟩, connecting ++ [.redisConnected url], [ping])

end Redis

end TwoTier
