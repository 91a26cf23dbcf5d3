import TwoTier.Store

/-!
# Opening stores

What each kind of store is opened from (`Store.Spec`), and what comes of opening it
(`Store.Spec.opening`): the store or why there is none, and in both cases what was reported and
which calls reached a server. Only a store on a server can fail to open.
-/

namespace TwoTier

namespace Store

/-- What a store is opened from. -/
inductive Spec where
  | recording (name : String)
  | unbounded
  | bounded (capacity : Nat)
  | ceiling (limits : Ceiling.Limits)
  /-- A store on a Redis server; `valid` says whether the client accepts the address. -/
  | redis (url : String) (valid : Bool) (server : Server)
  /-- A store on a Memcached server; `refusal` is why the client refuses the address. -/
  | memcached (url : String) (refusal : Option String) (server : Server)

/-- What comes of opening a store. -/
structure Opened where
  result : Except Failure Store
  events : List Event := []
  calls : List Call := []

/-- Opens a store. -/
def Spec.opening : Spec → Opened
  | .recording name => { result := .ok (.recording { name := name }) }
  | .unbounded => { result := .ok (.unbounded {}) }
  | .bounded capacity =>
    { result := .ok (.bounded { capacity := capacity }), events := [.boundedOpened capacity] }
  | .ceiling limits =>
    { result := .ok (.ceiling { limits := limits })
      events := [.ceilingOpened limits.capacity limits.lifetime] }
  | .redis url valid server =>
    let (r, events, calls) := Redis.connect url valid server
    { result := r.map .redis, events := events, calls := calls }
  | .memcached url refusal server =>
    let (r, events) := Memcached.connect url refusal server
    { result := r.map .memcached, events := events }

end Store

end TwoTier
