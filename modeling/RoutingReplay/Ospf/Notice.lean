/-
What the link state engine reports: the events of its journal, with their reasons.
-/
import RoutingReplay.Journal
import RoutingReplay.Ospf.Header

namespace RoutingReplay.Ospf

/-- how much of the outside world an area hears of -/
inductive AreaType where
  | normal
  | stub
  | nssa
  deriving DecidableEq

/-- why an LSA was not taken into the database -/
inductive DiscardReason where
  | notNewer
  | typeMismatch
  | invalidAreaType (type : AreaType)
  deriving DecidableEq

/-- why an LSA was taken out of the database -/
inductive FlushReason where
  | expiry
  | prematureAging
  deriving DecidableEq

inductive Notice where
  | instanceCreated (routerId : Address4)
  | areaCreated (type : AreaType)
  | discarding (hdr : Header) (reason : DiscardReason)
  | installing (hdr : Header)
  | originating (hdr : Header)
  | flushing (hdr : Header) (reason : FlushReason)
  | refreshing (hdr : Header)
  | clearing (count : Nat)
  deriving DecidableEq

/-- the name of an area type in running text -/
def AreaType.label : AreaType → String
  | .normal => "normal"
  | .stub => "stub"
  | .nssa => "NSSA"

def DiscardReason.message : DiscardReason → String
  | .notNewer => "database copy is at least as recent"
  | .typeMismatch => "LSA type doesn't match the LSA body"
  | .invalidAreaType type => "LSA type not allowed in " ++ type.label ++ " area"

def FlushReason.message : FlushReason → String
  | .expiry => "LSA reached MaxAge"
  | .prematureAging => "premature aging"

def Notice.message : Notice → String
  | .instanceCreated _ => "instance created"
  | .areaCreated _ => "area created"
  | .discarding .. => "discarding LSA"
  | .installing _ => "installing LSA"
  | .originating _ => "originating LSA"
  | .flushing .. => "flushing LSA"
  | .refreshing _ => "refreshing LSA"
  | .clearing _ => "clearing LSDB"

end RoutingReplay.Ospf
