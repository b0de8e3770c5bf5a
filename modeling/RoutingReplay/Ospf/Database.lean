/-
The link state database of one area.

A `Database` is a plain value. It has no clock and no timers: an operation that needs the time takes the current
instant, and ageing happens only when it is asked for. An LSA in the table is never changed in part. A more recent
instance replaces it as a whole; the one exception is its age.

- `install` is the only way into the table, `remove` the only way out of it one by one; both write the change log,
  touch the discontinuity stamp, and report what they do.
- `receive` installs what a neighbour sent, `originate` what the local router builds. An origination takes the sequence
  number after that of the stored instance; when the numbers are exhausted, the old instance is flushed first and
  numbering starts over.
- `age`, `ageTick`, `refresh` and `clear` go through the whole table, in the order of the keys.
-/
import RoutingReplay.Clock
import RoutingReplay.Ospf.Body
import RoutingReplay.Ospf.Notice

namespace RoutingReplay.Ospf

/-- a link state advertisement and the time it was built or installed -/
structure Lsa where
  hdr : Header
  body : Body
  time : Instant
  deriving DecidableEq

/-- Where an LSA in the database comes from. An entry carries one mark for this, so the type itself says that no record
is both received and of the local router, and none is neither. -/
inductive Origin where
  | received
  | selfOriginated
  deriving DecidableEq

/-- an LSA in the table -/
structure Record where
  lsa : Lsa
  origin : Origin
  deriving DecidableEq

/-- what kind of change the change log tells of -/
inductive ChangeReason where
  | refresh
  | contentChange
  | purge
  deriving DecidableEq

/-- one line of the change log -/
structure Change where
  id : UInt32
  key : LsaKey
  seqNo : Option UInt32
  time : Instant
  reason : ChangeReason
  deriving DecidableEq

structure Database where
  areaId : Address4
  table : SortedMap LsaKey Record
  /-- the time up to which `ageTick` has aged the table -/
  lastAgeTick : Instant
  /-- the most recent changes, newest first -/
  changes : List Change
  /-- the number of the newest change -/
  lastChangeId : UInt32
  /-- how many LSAs the local router has installed -/
  originated : UInt32
  /-- how many LSAs were accepted from neighbours -/
  received : UInt32
  /-- how often the table has changed its set of instances; it stands for the time of the last such change -/
  discontinuity : Nat
  deriving DecidableEq

namespace Database

/-- what an operation on a database results in -/
abbrev Step (α : Type) := Outcome Database Notice α

/-- the number of changes that the log keeps -/
def changeLogSize : Nat := 64

/-- a database without LSAs -/
def empty (areaId : Address4) (now : Instant) : Database where
  areaId := areaId
  table := .empty
  lastAgeTick := now
  changes := []
  lastChangeId := 0
  originated := 0
  received := 0
  discontinuity := 0

/-! ## Changes of one record -/

/-- the database with one more change in its log -/
def logChange (db : Database) (now : Instant) (hdr : Header) (reason : ChangeReason) : Database :=
  { db with
    changes := (⟨db.lastChangeId + 1, hdr.key, hdr.seqNo, now, reason⟩ :: db.changes).take changeLogSize
    lastChangeId := db.lastChangeId + 1
    discontinuity := db.discontinuity + 1 }

/-- the record of a key goes, if there is one -/
def remove (db : Database) (now : Instant) (key : LsaKey) (reason : FlushReason) : Step Unit :=
  match db.table.find? key with
  | none => .silent db ()
  | some record =>
    .after (.flushing record.lsa.hdr reason)
      (.silent { db.logChange now record.lsa.hdr .purge with table := db.table.erase key } ())

/-- whether a header is more recent than the stored instance of its LSA -/
def isNewer (db : Database) (hdr : Header) : Bool :=
  match db.table.find? hdr.key with
  | none => true
  | some record => hdr.isNewer record.lsa.hdr

/-- whether an LSA says something that the stored instance does not; the first instance always does -/
def isContentChange (db : Database) (hdr : Header) (body : Body) : Bool :=
  match db.table.find? hdr.key with
  | none => true
  | some record => record.lsa.body ≠ body || record.lsa.hdr.options ≠ hdr.options

def changeReason (db : Database) (hdr : Header) (body : Body) : ChangeReason :=
  if hdr.isMaxAge then .purge else if db.isContentChange hdr body then .contentChange else .refresh

/-- the database with a record in its table, whatever stood there before -/
def store (db : Database) (now : Instant) (origin : Origin) (hdr : Header) (body : Body) : Database :=
  let logged := db.logChange now hdr (db.changeReason hdr body)
  { logged with
    table := db.table.insert hdr.key ⟨⟨hdr, body, now⟩, origin⟩
    received := if origin = .received then db.received + 1 else db.received }

/-- takes an LSA into the table unless its body is of another type or the stored instance is as recent; the answer
tells whether it was taken -/
def install (db : Database) (now : Instant) (origin : Origin) (hdr : Header) (body : Body) : Step Bool :=
  .within (.database db.areaId) <|
    if hdr.lsaType ≠ body.lsaType then .after (.discarding hdr .typeMismatch) (.silent db false)
    else
      let hdr := hdr.aged 0
      if db.isNewer hdr then .after (.installing hdr) (.silent (db.store now origin hdr body) true)
      else .after (.discarding hdr .notNewer) (.silent db false)

/-- installs an LSA that a neighbour sent -/
def receive (db : Database) (now : Instant) (hdr : Header) (body : Body) : Step Bool :=
  db.install now .received hdr body

/-! ## Origination -/

/-- the sequence number after that of the stored instance -/
def nextSeqNo (db : Database) (key : LsaKey) : UInt32 :=
  match (db.table.find? key).bind (·.lsa.hdr.seqNo) with
  | none => initialSeqNo
  | some s => s + 1

/-- the next instance of an LSA of the local router; checksum and length are left to the packet codec -/
def nextInstance (db : Database) (now : Instant) (options : Options) (lsaId advRouter : Address4) (body : Body) : Lsa :=
  let seqNo := db.nextSeqNo ⟨body.lsaType, advRouter, lsaId⟩
  ⟨⟨0, options, body.lsaType, lsaId, advRouter, some seqNo, none, none⟩, body, now⟩

/-- the next Router-LSA of the local router -/
def nextRouterLsa (db : Database) (now : Instant) (routerId : Address4) (flags : RouterFlags)
    (links : List RouterLink) : Lsa :=
  db.nextInstance now .external routerId routerId (.router ⟨flags, links⟩)

/-- the next AS-external LSA for a route; its link state ID is the address of the network -/
def nextExternalLsa (db : Database) (now : Instant) (routerId : Address4) (route : ExternalRoute) : Lsa :=
  db.nextInstance now .external route.net.base routerId (.asExternal route.body)

/-- the next NSSA-external LSA for a route, which always asks to be carried on into the backbone -/
def nextNssaLsa (db : Database) (now : Instant) (routerId : Address4) (route : ExternalRoute) : Lsa :=
  db.nextInstance now .propagate route.net.base routerId (.nssaExternal route.body)

/-- installs an LSA of the local router. An instance that would get the reserved number stands for exhausted numbers:
the old instance is flushed, and the new one gets the first number. -/
def originate (db : Database) (now : Instant) (lsa : Lsa) : Step Bool :=
  .within (.database db.areaId) <|
    if lsa.hdr.seqNo = some reservedSeqNo then
      let flushed := db.remove now lsa.hdr.key .prematureAging
      let out := installOwn flushed.state { lsa.hdr with seqNo := some initialSeqNo }
      { out with journal := flushed.journal ++ out.journal }
    else installOwn db lsa.hdr
where
  installOwn (db : Database) (hdr : Header) : Step Bool :=
    let out := db.install now .selfOriginated hdr lsa.body
    .after (.originating hdr)
      { out with state := if out.answer then { out.state with originated := out.state.originated + 1 } else out.state }

def installRouterLsa (db : Database) (now : Instant) (routerId : Address4) (flags : RouterFlags)
    (links : List RouterLink) : Step Bool :=
  db.originate now (db.nextRouterLsa now routerId flags links)

def installExternalLsa (db : Database) (now : Instant) (routerId : Address4) (route : ExternalRoute) : Step Bool :=
  db.originate now (db.nextExternalLsa now routerId route)

def installNssaLsa (db : Database) (now : Instant) (routerId : Address4) (route : ExternalRoute) : Step Bool :=
  db.originate now (db.nextNssaLsa now routerId route)

/-- takes an LSA of the local router out of the table ahead of time; others stay -/
def flush (db : Database) (now : Instant) (key : LsaKey) : Step Bool :=
  if (db.table.find? key).any (·.origin = .selfOriginated) then
    ((db.remove now key .prematureAging).map fun _ => true).within (.database db.areaId)
  else .silent db false

/-! ## Operations on the whole table -/

/-- the table after `elapsed` more seconds, the expired LSAs still in it -/
def agedTable (db : Database) (elapsed : Nat) : SortedMap LsaKey Record :=
  db.table.mapValues fun _ record => { record with lsa := { record.lsa with hdr := record.lsa.hdr.aged elapsed } }

/-- ages all LSAs and removes those that reach `maxAge`; the answer is their number -/
def age (db : Database) (now : Instant) (elapsed : Nat) : Step Nat :=
  let aged := db.agedTable elapsed
  let expired := (aged.filter fun _ record => record.lsa.hdr.isMaxAge).keys
  let out := Outcome.forEach (fun key db => db.remove now key .expiry) expired { db with table := aged }
  (out.map fun _ => expired.length).within (.database db.areaId)

/-- ages by the whole seconds since the last call; what is left of a second counts in the next call -/
def ageTick (db : Database) (now : Instant) : Step Nat :=
  let elapsed := (now.since db.lastAgeTick).seconds
  { db with lastAgeTick := db.lastAgeTick.later (.ofSeconds elapsed) }.age now elapsed

/-- the LSAs that the local router has to originate anew -/
def dueForRefresh (db : Database) : List Lsa :=
  (db.table.values.filter fun record =>
    record.origin = .selfOriginated && decide (refreshAge ≤ record.lsa.hdr.age.toNat)).map Record.lsa

/-- originates anew what is due; the answer is the number of LSAs that were -/
def refresh (db : Database) (now : Instant) : Step Nat :=
  let due := db.dueForRefresh
  (Outcome.forEach (fun lsa db => renew lsa db) due db).map fun _ => due.length
where
  renew (lsa : Lsa) (db : Database) : Step Bool :=
    .within (.database db.areaId) <| .after (.refreshing lsa.hdr) <|
      db.originate now (db.nextInstance now lsa.hdr.options lsa.hdr.lsaId lsa.hdr.advRouter lsa.body)

/-- empties the table; the answer is the number of LSAs that were in it -/
def clear (db : Database) : Step Nat :=
  let count := db.table.size
  if count = 0 then .silent db 0
  else
    .within (.database db.areaId) <| .after (.clearing count) <|
      .silent { db with table := .empty, discontinuity := db.discontinuity + 1 } count

/-! ## Views -/

/-- all LSAs, in the order of their keys -/
def lsas (db : Database) : List Lsa := db.table.values.map Record.lsa

def headers (db : Database) : List Header := db.lsas.map Lsa.hdr

def find? (db : Database) (lsaType : LsaType) (lsaId advRouter : Address4) : Option Lsa :=
  (db.table.find? ⟨lsaType, advRouter, lsaId⟩).map Record.lsa

/-- the LSAs of the known types that pass a test -/
def lsasOfKind (db : Database) (p : LsaKind → Bool) : List Lsa :=
  (db.table.entries.filter fun entry => (entry.1.lsaType.kind?).any p).map fun entry => entry.2.lsa

def routerLsas (db : Database) : List Lsa := db.lsasOfKind (· = .router)

def networkLsas (db : Database) : List Lsa := db.lsasOfKind (· = .network)

def summaryLsas (db : Database) : List Lsa := db.lsasOfKind fun k => k = .summaryNetwork || k = .summaryRouter

def externalLsas (db : Database) : List Lsa := db.lsasOfKind (· = .asExternal)

def nssaLsas (db : Database) : List Lsa := db.lsasOfKind (· = .nssaExternal)

def size (db : Database) : Nat := db.table.size

end Database

end RoutingReplay.Ospf
