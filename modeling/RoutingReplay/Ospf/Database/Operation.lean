/-
The operations on a link state database as data, for runs of them.
-/
import RoutingReplay.Run
import RoutingReplay.Ospf.Database

namespace RoutingReplay.Ospf.Database

/-- what can be done to a database -/
inductive Op where
  | receive (hdr : Header) (body : Body)
  | installRouterLsa (routerId : Address4) (flags : RouterFlags) (links : List RouterLink)
  | installExternalLsa (routerId : Address4) (route : ExternalRoute)
  | installNssaLsa (routerId : Address4) (route : ExternalRoute)
  | flush (key : LsaKey)
  | refresh
  | age (elapsed : Nat)
  | ageTick
  | clear
  deriving DecidableEq

/-- what an operation answers -/
inductive Answer where
  /-- whether an LSA was taken or flushed -/
  | flag (b : Bool)
  /-- how many LSAs were concerned -/
  | count (n : Nat)
  deriving DecidableEq

/-- the operation that an `Op` names -/
def perform (op : Op) (now : Instant) (db : Database) : Step Answer :=
  match op with
  | .receive hdr body => (db.receive now hdr body).map .flag
  | .installRouterLsa routerId flags links => (db.installRouterLsa now routerId flags links).map .flag
  | .installExternalLsa routerId route => (db.installExternalLsa now routerId route).map .flag
  | .installNssaLsa routerId route => (db.installNssaLsa now routerId route).map .flag
  | .flush key => (db.flush now key).map .flag
  | .refresh => (db.refresh now).map .count
  | .age elapsed => (db.age now elapsed).map .count
  | .ageTick => (db.ageTick now).map .count
  | .clear => db.clear.map .count

/-- a run of a database -/
def run : Timed Database → List (Turn Op) → Except Fault (Outcome (Timed Database) Notice (List Answer)) :=
  Timed.run perform

end RoutingReplay.Ospf.Database
