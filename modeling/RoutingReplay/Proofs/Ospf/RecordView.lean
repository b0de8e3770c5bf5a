/-
The database as seen from one key.

What an operation does to the record of a key depends on that record alone: `Op.effect` says how, and `find?_perform`
says that the operations do just that. There is one look-up equation for each building block (`find?_remove`,
`find?_install`, `find?_originate`, `find?_age`, `find?_refresh`); what holds of a database over a run is proved from
`Op.effect`, without opening the operations again. `Op.Source` inverts it: it says where a record that an operation
leaves comes from. That an origination never fails is part of its closed form (`originate_build`).

A refresh finds the keys it writes to in the headers it rebuilds. So its equation needs a table that is in order
(`Database.Sound`): every record stands under the key of its header, and its header is of the type of its body.
-/
import RoutingReplay.Proofs.Ospf.Recency
import RoutingReplay.Ospf.Database.Operation

namespace RoutingReplay.Ospf

/-! ## Records -/

namespace Record

/-- the record after `elapsed` more seconds -/
def aged (r : Record) (elapsed : Nat) : Record := { r with lsa := { r.lsa with hdr := r.lsa.hdr.aged elapsed } }

/-- whether a refresh originates this record anew -/
def isDue (r : Record) : Bool := r.origin = .selfOriginated && decide (refreshAge ≤ r.lsa.hdr.age.toNat)

end Record

/-- what an origination is to say, all but its sequence number -/
structure Build where
  options : Options
  body : Body
  advRouter : Address4
  lsaId : Address4

namespace Build

def router (routerId : Address4) (flags : RouterFlags) (links : List RouterLink) : Build :=
  ⟨.external, .router ⟨flags, links⟩, routerId, routerId⟩

def external (routerId : Address4) (route : ExternalRoute) : Build :=
  ⟨.external, .asExternal route.body, routerId, route.net.base⟩

def nssa (routerId : Address4) (route : ExternalRoute) : Build :=
  ⟨.propagate, .nssaExternal route.body, routerId, route.net.base⟩

/-- the same LSA once more -/
def again (lsa : Lsa) : Build := ⟨lsa.hdr.options, lsa.body, lsa.hdr.advRouter, lsa.hdr.lsaId⟩

def key (b : Build) : LsaKey := ⟨b.body.lsaType, b.advRouter, b.lsaId⟩

/-- the sequence number that follows the stored one; after the last number comes the first -/
def seqNo (r? : Option Record) : UInt32 :=
  match r?.bind (·.lsa.hdr.seqNo) with
  | none => initialSeqNo
  | some s => if s + 1 = reservedSeqNo then initialSeqNo else s + 1

/-- the header of the instance that follows the stored one -/
def header (b : Build) (r? : Option Record) : Header :=
  ⟨0, b.options, b.body.lsaType, b.lsaId, b.advRouter, some (seqNo r?), none, none⟩

/-- the record of the instance that follows the stored one -/
def record (b : Build) (now : Instant) (r? : Option Record) : Record := ⟨⟨b.header r?, b.body, now⟩, .selfOriginated⟩

theorem key_header (b : Build) (r? : Option Record) : (b.header r?).key = b.key := rfl

theorem seqNo_ne_reserved (r? : Option Record) : seqNo r? ≠ reservedSeqNo := by
  unfold seqNo
  split
  · decide
  · split
    · decide
    · assumption

/-- A new instance has another sequence number than the stored one. -/
theorem seqNo_ne_stored (r : Record) : r.lsa.hdr.seqNo ≠ some (seqNo (some r)) := by
  cases hs : r.lsa.hdr.seqNo with
  | none => simp
  | some s =>
    simp only [seqNo, Option.bind_some, hs, ne_eq, Option.some.injEq]
    split
    · rename_i hlast
      rw [Header.succ_eq_reserved_iff.mp hlast]
      decide
    · intro hsame
      have hnat : s.toNat = (s.toNat + 1) % 2 ^ 32 := (congrArg UInt32.toNat hsame).trans (UInt32.toNat_add s 1)
      have hlt := s.toNat_lt
      omega

/-- A new instance is more recent than the stored one, unless the numbers are exhausted. -/
theorem rank_lt_header (b : Build) {r : Record} (hlast : r.lsa.hdr.seqNo ≠ some 0x7fffffff) :
    r.lsa.hdr.rank < (b.header (some r)).rank := by
  cases hs : r.lsa.hdr.seqNo with
  | none => simp [Header.rank, header, hs]
  | some s =>
    have hne : s + 1 ≠ reservedSeqNo := fun e => hlast (by rw [hs, Header.succ_eq_reserved_iff.mp e])
    have hsucc := Header.signedSeqNo_succ hne
    have hbounds := Header.signedSeqNo_bounds s
    have hc : (r.lsa.hdr.checksum.getD 0).toNat < 2 ^ 16 := UInt16.toNat_lt _
    simp only [Header.rank, header, seqNo, Option.bind_some, hs, hne, if_false, hsucc]
    omega

end Build

namespace Database

/-! ## What an operation does to the record of a key -/

/-- the record after an LSA was offered -/
def afterOffer (now : Instant) (origin : Origin) (hdr : Header) (body : Body) (r? : Option Record) : Option Record :=
  if hdr.lsaType = body.lsaType ∧ ∀ r ∈ r?, r.lsa.hdr.rank < hdr.rank then some ⟨⟨hdr.aged 0, body, now⟩, origin⟩
  else r?

/-- the record after an origination -/
def afterBuild (now : Instant) (b : Build) (k : LsaKey) (r? : Option Record) : Option Record :=
  if k = b.key then some (b.record now r?) else r?

/-- the record after `elapsed` more seconds, if it has not expired by then -/
def afterAging (elapsed : Nat) (r? : Option Record) : Option Record :=
  (r?.map (·.aged elapsed)).filter fun r => !r.lsa.hdr.isMaxAge

/-- the record after a refresh -/
def afterRefresh (now : Instant) (r? : Option Record) : Option Record :=
  r?.map fun r => if r.isDue then (Build.again r.lsa).record now (some r) else r

/-- the record of `k` after an operation; the last age tick counts for `ageTick` only -/
def Op.effect (op : Op) (now lastAgeTick : Instant) (k : LsaKey) (r? : Option Record) : Option Record :=
  match op with
  | .receive hdr body => if k = hdr.key then afterOffer now .received hdr body r? else r?
  | .installRouterLsa routerId flags links => afterBuild now (.router routerId flags links) k r?
  | .installExternalLsa routerId route => afterBuild now (.external routerId route) k r?
  | .installNssaLsa routerId route => afterBuild now (.nssa routerId route) k r?
  | .flush key => if k = key ∧ r?.any (·.origin = .selfOriginated) then none else r?
  | .refresh => afterRefresh now r?
  | .age elapsed => afterAging elapsed r?
  | .ageTick => afterAging (now.since lastAgeTick).seconds r?
  | .clear => none

/-- the seconds that an operation adds to the ages, if it ages the table -/
def Op.aging? (op : Op) (now lastAgeTick : Instant) : Option Nat :=
  match op with
  | .age elapsed => some elapsed
  | .ageTick => some (now.since lastAgeTick).seconds
  | _ => none

/-- an operation that ages the table does nothing else -/
theorem Op.effect_of_aging {op : Op} {now lastAgeTick : Instant} {elapsed : Nat}
    (h : op.aging? now lastAgeTick = some elapsed) (k : LsaKey) (r? : Option Record) :
    op.effect now lastAgeTick k r? = afterAging elapsed r? := by
  cases op with
  | age n =>
    cases h
    rfl
  | ageTick =>
    cases h
    rfl
  | _ => cases h

/-! ### Where a record comes from -/

/-- ageing removes a record that reaches `maxAge` -/
theorem afterAging_some (elapsed : Nat) (r : Record) :
    afterAging elapsed (some r) = if r.lsa.hdr.age.toNat + elapsed < maxAge then some (r.aged elapsed) else none := by
  have hexp : (r.aged elapsed).lsa.hdr.isMaxAge = true ↔ maxAge ≤ r.lsa.hdr.age.toNat + elapsed :=
    Header.isMaxAge_aged
  by_cases hlt : r.lsa.hdr.age.toNat + elapsed < maxAge
  · have halive : (r.aged elapsed).lsa.hdr.isMaxAge = false :=
      Bool.eq_false_iff.mpr fun h => Nat.not_le.mpr hlt (hexp.mp h)
    simp [afterAging, hlt, halive]
  · have hgone := hexp.mpr (Nat.not_lt.mp hlt)
    simp [afterAging, hlt, hgone]

theorem mem_afterAging {elapsed : Nat} {r? : Option Record} {r : Record} :
    r ∈ afterAging elapsed r? ↔ ∃ old ∈ r?, old.lsa.hdr.age.toNat + elapsed < maxAge ∧ old.aged elapsed = r := by
  cases r? with
  | none => simp [afterAging]
  | some old =>
    rw [afterAging_some]
    split
    · rename_i hlt
      simp [hlt]
    · rename_i hlt
      simp [hlt]

/-- what an operation originates by itself; a refresh repeats what is stored -/
def Op.build? : Op → Option Build
  | .installRouterLsa routerId flags links => some (.router routerId flags links)
  | .installExternalLsa routerId route => some (.external routerId route)
  | .installNssaLsa routerId route => some (.nssa routerId route)
  | _ => none

/-- where a record that an operation leaves under a key comes from -/
inductive Op.Source (op : Op) (now lastAgeTick : Instant) (k : LsaKey) (r? : Option Record) : Record → Prop
  /-- it was there, it was not originated anew, and if the operation is a refresh it was not due -/
  | kept {r : Record} (hr : r ∈ r?) (hkey : ∀ b ∈ op.build?, b.key ≠ k) (hdue : op = .refresh → r.isDue = false) :
      Source op now lastAgeTick k r? r
  | aged {elapsed : Nat} {old : Record} (hop : op.aging? now lastAgeTick = some elapsed) (hold : old ∈ r?)
      (hlt : old.lsa.hdr.age.toNat + elapsed < maxAge) : Source op now lastAgeTick k r? (old.aged elapsed)
  | offered {hdr : Header} {body : Body} (hop : op = .receive hdr body) (hkey : hdr.key = k)
      (htype : hdr.lsaType = body.lsaType) (hnewer : ∀ r ∈ r?, r.lsa.hdr.rank < hdr.rank) :
      Source op now lastAgeTick k r? ⟨⟨hdr.aged 0, body, now⟩, .received⟩
  | built (b : Build) (hop : b ∈ op.build?) (hkey : b.key = k) : Source op now lastAgeTick k r? (b.record now r?)
  | renewed {old : Record} (hop : op = .refresh) (hold : old ∈ r?) (hdue : old.isDue = true) :
      Source op now lastAgeTick k r? ((Build.again old.lsa).record now (some old))

/-- an operation that originates nothing leaves a record as it is, if it is no refresh -/
theorem Op.Source.of_mem {op : Op} {now lastAgeTick : Instant} {k : LsaKey} {r? : Option Record} {r : Record}
    (hbuild : op.build? = none) (hop : op ≠ .refresh) (h : r ∈ r?) : op.Source now lastAgeTick k r? r := by
  refine .kept h ?_ fun hrefresh => absurd hrefresh hop
  intro b hb
  rw [hbuild] at hb
  cases hb

/-- an origination puts its record in place or leaves what is there -/
theorem Op.Source.of_mem_afterBuild {op : Op} {now lastAgeTick : Instant} {k : LsaKey} {r? : Option Record} {r : Record}
    {b : Build} (hop : op.build? = some b) (h : r ∈ afterBuild now b k r?) : op.Source now lastAgeTick k r? r := by
  unfold afterBuild at h
  split at h
  · rename_i hkey
    cases h
    exact .built b hop hkey.symm
  · rename_i hkey
    refine .kept h ?_ ?_
    · intro b' hb'
      cases hop.symm.trans hb'
      exact Ne.symm hkey
    · rintro rfl
      cases hop

/-- Every record that an operation leaves has a source. -/
theorem Op.source_of_mem_effect {op : Op} {now lastAgeTick : Instant} {k : LsaKey} {r? : Option Record} {r : Record}
    (h : r ∈ op.effect now lastAgeTick k r?) : op.Source now lastAgeTick k r? r := by
  have haging : ∀ elapsed, op.aging? now lastAgeTick = some elapsed → r ∈ afterAging elapsed r? →
      op.Source now lastAgeTick k r? r := by
    intro elapsed hop hr
    obtain ⟨old, hold, hlt, rfl⟩ := mem_afterAging.mp hr
    exact .aged hop hold hlt
  cases op with
  | receive hdr body =>
    simp only [effect, afterOffer] at h
    split at h
    · rename_i hkey
      split at h
      · rename_i hoffer
        cases h
        exact .offered rfl hkey.symm hoffer.1 hoffer.2
      · exact .of_mem rfl (by simp) h
    · exact .of_mem rfl (by simp) h
  | installRouterLsa routerId flags links => exact .of_mem_afterBuild rfl h
  | installExternalLsa routerId route => exact .of_mem_afterBuild rfl h
  | installNssaLsa routerId route => exact .of_mem_afterBuild rfl h
  | flush key =>
    simp only [effect] at h
    split at h
    · cases h
    · exact .of_mem rfl (by simp) h
  | refresh =>
    obtain ⟨old, hold, rfl⟩ := Option.map_eq_some_iff.mp h
    split
    · rename_i hdue
      exact .renewed rfl hold hdue
    · rename_i hdue
      refine .kept hold ?_ fun _ => Bool.eq_false_iff.mpr hdue
      rintro b ⟨⟩
  | age elapsed => exact haging _ rfl h
  | ageTick => exact haging _ rfl h
  | clear => cases h

/-- A record of the local router that is not the one that was there, grown older or not, is originated by the operation
or repeated by a refresh. -/
theorem Op.Source.originated {op : Op} {now lastAgeTick : Instant} {k : LsaKey} {r? : Option Record} {r : Record}
    (h : op.Source now lastAgeTick k r? r) (hage : ∀ old ∈ r?, old.lsa.hdr.age.toNat ≤ maxAge)
    (hown : r.origin = .selfOriginated) (hnew : ∀ old ∈ r?, ∀ elapsed, r ≠ old.aged elapsed) :
    (∃ b ∈ op.build?, b.body = r.lsa.body) ∨ op = .refresh := by
  cases h with
  | kept hr =>
    have hkept : r = r.aged 0 := by rw [Record.aged, Header.aged_zero (hage r hr)]
    exact absurd hkept (hnew r hr 0)
  | aged _ hold => exact absurd rfl (hnew _ hold _)
  | offered => cases hown
  | built b hop => exact Or.inl ⟨b, hop, rfl⟩
  | renewed hop => exact Or.inr hop

/-- What a record says, and who says it, is what was there before, what a neighbour offers or what the operation
originates. -/
theorem Op.content_effect {op : Op} {now lastAgeTick : Instant} {k : LsaKey} {r? : Option Record}
    {Q : Origin → Body → Prop} (hkept : (∀ b ∈ op.build?, b.key ≠ k) → ∀ r ∈ r?, Q r.origin r.lsa.body)
    (hoffered : ∀ hdr body, op = .receive hdr body → hdr.key = k → hdr.lsaType = body.lsaType → Q .received body)
    (hbuilt : ∀ b ∈ op.build?, b.key = k → Q .selfOriginated b.body) :
    ∀ r ∈ op.effect now lastAgeTick k r?, Q r.origin r.lsa.body := by
  intro r hr
  cases source_of_mem_effect hr with
  | kept hold hkey => exact hkept hkey r hold
  | @aged elapsed old hop hold =>
    refine hkept ?_ old hold
    cases op with
    | age => simp [build?]
    | ageTick => simp [build?]
    | _ => cases hop
  | offered hop hkey htype => exact hoffered _ _ hop hkey htype
  | built b hop hkey => exact hbuilt b hop hkey
  | @renewed old hop hold hdue =>
    subst hop
    have hown : old.origin = .selfOriginated := by
      simp only [Record.isDue, Bool.and_eq_true, decide_eq_true_eq] at hdue
      exact hdue.1
    have hold' := hkept (by simp [build?]) old hold
    rw [hown] at hold'
    exact hold'

/-! ## The building blocks -/

theorem find?_remove (db : Database) (now : Instant) (key k : LsaKey) (reason : FlushReason) :
    (db.remove now key reason).state.table.find? k = if k = key then none else db.table.find? k := by
  unfold remove
  by_cases hk : k = key
  · subst hk
    cases hr : db.table.find? k with
    | none => simp [Outcome.silent, hr]
    | some r => simp [Outcome.silent, SortedMap.find?_erase]
  · cases db.table.find? key with
    | none => simp [Outcome.silent, hk]
    | some r => simp [Outcome.silent, SortedMap.find?_erase, hk]

theorem isNewer_iff {db : Database} {hdr : Header} :
    db.isNewer hdr = true ↔ ∀ r ∈ db.table.find? hdr.key, r.lsa.hdr.rank < hdr.rank := by
  unfold isNewer
  cases db.table.find? hdr.key with
  | none => simp
  | some r => simp [Header.isNewer_iff]

/-- The age of an LSA does not count in whether it is taken. -/
@[simp] theorem isNewer_aged (db : Database) (hdr : Header) (elapsed : Nat) :
    db.isNewer (hdr.aged elapsed) = db.isNewer hdr := rfl

theorem find?_install (db : Database) (now : Instant) (origin : Origin) (hdr : Header) (body : Body) (k : LsaKey) :
    (db.install now origin hdr body).state.table.find? k =
      if k = hdr.key then afterOffer now origin hdr body (db.table.find? k) else db.table.find? k := by
  unfold install afterOffer
  by_cases htype : hdr.lsaType = body.lsaType
  · by_cases hnew : db.isNewer hdr = true
    · have hstored := isNewer_iff.mp hnew
      simp only [htype, isNewer_aged, hnew, ne_eq, not_true_eq_false, if_false, if_true, Outcome.state_within,
        Outcome.state_after, Outcome.silent, store, SortedMap.find?_insert, Header.key_aged, true_and]
      split
      · rename_i hk
        rw [hk, if_pos hstored]
      · rfl
    · have hstored := mt isNewer_iff.mpr hnew
      simp only [htype, isNewer_aged, hnew, ne_eq, not_true_eq_false, if_false, Outcome.state_within,
        Outcome.state_after, Outcome.silent, true_and, Bool.false_eq_true]
      split
      · rename_i hk
        rw [hk, if_neg hstored]
      · rfl
  · simp [htype, Outcome.silent]

/-- an LSA is taken exactly if it fits its body and surpasses what is stored -/
theorem answer_install (db : Database) (now : Instant) (origin : Origin) (hdr : Header) (body : Body) :
    (db.install now origin hdr body).answer = true ↔
      hdr.lsaType = body.lsaType ∧ ∀ r ∈ db.table.find? hdr.key, r.lsa.hdr.rank < hdr.rank := by
  rw [← isNewer_iff]
  unfold install
  by_cases htype : hdr.lsaType = body.lsaType
  · by_cases hnew : db.isNewer hdr = true <;> simp [htype, hnew, Outcome.silent]
  · simp [htype, Outcome.silent]

/-! ## Originations -/

/-- the instance that an origination installs, before exhausted numbers are dealt with -/
def build (db : Database) (now : Instant) (b : Build) : Lsa := db.nextInstance now b.options b.lsaId b.advRouter b.body

/-- the sequence number of a stored record -/
def storedSeqNo (db : Database) (key : LsaKey) : Option UInt32 := (db.table.find? key).bind (·.lsa.hdr.seqNo)

/-- a record whose number is the last one has exhausted the numbers of its key -/
theorem filter_exhausted (db : Database) (key : LsaKey) :
    ((db.table.find? key).filter fun r => r.lsa.hdr.seqNo = some 0x7fffffff) =
      if db.storedSeqNo key = some 0x7fffffff then db.table.find? key else none := by
  unfold storedSeqNo
  cases db.table.find? key with
  | none => simp
  | some r => simp [Option.filter]

theorem build_hdr {db : Database} (now : Instant) {b : Build} (hlast : db.storedSeqNo b.key ≠ some 0x7fffffff) :
    (db.build now b).hdr = b.header (db.table.find? b.key) := by
  have hseq : db.nextSeqNo b.key = Build.seqNo (db.table.find? b.key) := by
    unfold storedSeqNo at hlast
    rw [nextSeqNo, Build.seqNo]
    cases hs : (db.table.find? b.key).bind (·.lsa.hdr.seqNo) with
    | none => rfl
    | some s =>
      have hne : s + 1 ≠ reservedSeqNo := fun e => hlast (by rw [hs, Header.succ_eq_reserved_iff.mp e])
      exact (if_neg hne).symm
  simp only [build, nextInstance, Build.header, ← hseq]
  rfl

theorem build_hdr_exhausted {db : Database} (now : Instant) {b : Build}
    (hlast : db.storedSeqNo b.key = some 0x7fffffff) :
    (db.build now b).hdr.seqNo = some reservedSeqNo ∧
      { (db.build now b).hdr with seqNo := some initialSeqNo } = b.header (db.table.find? b.key) := by
  have hnext : db.nextSeqNo b.key = reservedSeqNo := by
    unfold storedSeqNo at hlast
    rw [nextSeqNo, hlast]
    rfl
  have hseq : Build.seqNo (db.table.find? b.key) = initialSeqNo := by
    unfold storedSeqNo at hlast
    rw [Build.seqNo, hlast]
    rfl
  refine ⟨congrArg some hnext, ?_⟩
  simp only [build, nextInstance, Build.header, hseq]

theorem table_installOwn (db : Database) (now : Instant) (lsa : Lsa) (hdr : Header) :
    (originate.installOwn now lsa db hdr).state.table = (db.install now .selfOriginated hdr lsa.body).state.table := by
  simp only [originate.installOwn, Outcome.state_after]
  split <;> rfl

/-- an LSA of the local router that fits its body and surpasses what is stored goes into the table and is counted -/
theorem installOwn_of_newer {db : Database} {lsa : Lsa} {hdr : Header} (htype : hdr.lsaType = lsa.body.lsaType)
    (hage : hdr.aged 0 = hdr) (hnew : ∀ r ∈ db.table.find? hdr.key, r.lsa.hdr.rank < hdr.rank) (now : Instant) :
    (originate.installOwn now lsa db hdr).answer = true ∧
      (originate.installOwn now lsa db hdr).state =
        { db.store now .selfOriginated hdr lsa.body with originated := db.originated + 1 } := by
  have hnewer : db.isNewer hdr = true := isNewer_iff.mpr hnew
  simp only [originate.installOwn, install, htype, hage, hnewer, ne_eq, not_true_eq_false, if_false, if_true,
    Outcome.answer_after, Outcome.state_after, Outcome.answer_within, Outcome.state_within, Outcome.silent]
  exact ⟨trivial, rfl⟩

/-- the database that an origination installs into, without the stored instance if the numbers are exhausted -/
def vacated (db : Database) (now : Instant) (key : LsaKey) : Database :=
  if db.storedSeqNo key = some 0x7fffffff then (db.remove now key .prematureAging).state else db

theorem find?_vacated_of_ne (db : Database) (now : Instant) {key k : LsaKey} (h : k ≠ key) :
    (db.vacated now key).table.find? k = db.table.find? k := by
  unfold vacated
  split
  · rw [find?_remove, if_neg h]
  · rfl

/-- The next instance surpasses what an origination leaves of the stored one. -/
theorem rank_lt_of_vacated {db : Database} {now : Instant} {b : Build} {r : Record}
    (hr : r ∈ (db.vacated now b.key).table.find? b.key) :
    r.lsa.hdr.rank < (b.header (db.table.find? b.key)).rank := by
  unfold vacated at hr
  split at hr
  · rw [find?_remove, if_pos rfl] at hr
    cases hr
  · rename_i hlast
    rw [Option.mem_def] at hr
    rw [hr]
    exact b.rank_lt_header fun hlast' => hlast (by rw [storedSeqNo, hr]; exact hlast')

theorem installOwn_vacated (db : Database) (now : Instant) (b : Build) :
    (originate.installOwn now (db.build now b) (db.vacated now b.key) (b.header (db.table.find? b.key))).answer = true ∧
      (originate.installOwn now (db.build now b) (db.vacated now b.key) (b.header (db.table.find? b.key))).state =
        { (db.vacated now b.key).store now .selfOriginated (b.header (db.table.find? b.key)) b.body with
          originated := (db.vacated now b.key).originated + 1 } :=
  installOwn_of_newer rfl (Header.aged_zero (Nat.zero_le _)) (fun _ hr => rank_lt_of_vacated hr) now

/-- **An origination succeeds**, whatever is stored: it puts the next instance into the table and counts it. -/
theorem originate_build (db : Database) (now : Instant) (b : Build) :
    (db.originate now (db.build now b)).answer = true ∧
      (db.originate now (db.build now b)).state =
        { (db.vacated now b.key).store now .selfOriginated (b.header (db.table.find? b.key)) b.body with
          originated := (db.vacated now b.key).originated + 1 } := by
  have hinstalled := installOwn_vacated db now b
  by_cases hlast : db.storedSeqNo b.key = some 0x7fffffff
  · obtain ⟨hreserved, hhdr⟩ := build_hdr_exhausted now hlast
    have hvacated : (db.remove now (db.build now b).hdr.key .prematureAging).state = db.vacated now b.key :=
      (if_pos hlast).symm
    simp only [originate, Outcome.answer_within, Outcome.state_within, hreserved, if_true, hhdr, hvacated]
    exact hinstalled
  · have hreserved : (b.header (db.table.find? b.key)).seqNo ≠ some reservedSeqNo := fun e =>
      Build.seqNo_ne_reserved _ (Option.some.inj e)
    have hvacated : db.vacated now b.key = db := if_neg hlast
    simp only [originate, Outcome.answer_within, Outcome.state_within, build_hdr now hlast, hreserved, if_false]
    rw [hvacated] at hinstalled ⊢
    exact hinstalled

/-- An origination always puts the next instance in place, whatever was stored. -/
theorem find?_originate (db : Database) (now : Instant) (b : Build) (k : LsaKey) :
    (db.originate now (db.build now b)).state.table.find? k = afterBuild now b k (db.table.find? k) := by
  rw [(originate_build db now b).2, store, SortedMap.find?_insert, afterBuild, Build.key_header]
  by_cases hk : k = b.key
  · rw [if_pos hk, if_pos hk, hk]
    rfl
  · rw [if_neg hk, if_neg hk]
    exact find?_vacated_of_ne db now hk

theorem find?_flush (db : Database) (now : Instant) (key k : LsaKey) :
    (db.flush now key).state.table.find? k =
      if k = key ∧ (db.table.find? k).any (·.origin = .selfOriginated) then none else db.table.find? k := by
  unfold flush
  by_cases hown : (db.table.find? key).any (·.origin = .selfOriginated) = true
  · simp only [hown, if_true, Outcome.state_within, Outcome.map, find?_remove]
    by_cases hk : k = key
    · rw [if_pos hk, if_pos ⟨hk, hk ▸ hown⟩]
    · rw [if_neg hk, if_neg fun h => hk h.1]
  · have hnot : ¬ (k = key ∧ (db.table.find? k).any (·.origin = .selfOriginated) = true) := by
      rintro ⟨rfl, h⟩
      exact hown h
    rw [if_neg hown, if_neg hnot]
    rfl

/-! ## Operations on the whole table -/

theorem find?_forEach_remove (now : Instant) (reason : FlushReason) (keys : List LsaKey) (db : Database) (k : LsaKey) :
    (Outcome.forEach (fun key db => db.remove now key reason) keys db).state.table.find? k =
      if k ∈ keys then none else db.table.find? k := by
  induction keys generalizing db with
  | nil => simp [Outcome.forEach, Outcome.silent]
  | cons key rest ih =>
    simp only [Outcome.forEach]
    rw [ih, find?_remove]
    by_cases hk : k = key
    · simp [hk]
    · simp [hk]

theorem find?_age (db : Database) (now : Instant) (elapsed : Nat) (k : LsaKey) :
    (db.age now elapsed).state.table.find? k = afterAging elapsed (db.table.find? k) := by
  have haged : (db.agedTable elapsed).find? k = (db.table.find? k).map (·.aged elapsed) :=
    SortedMap.find?_mapValues _ _ _
  simp only [age, Outcome.state_within, Outcome.map]
  rw [find?_forEach_remove]
  simp only [SortedMap.mem_keys_iff, SortedMap.find?_filter, haged, afterAging]
  cases db.table.find? k with
  | none => rfl
  | some r => cases hexp : (r.aged elapsed).lsa.hdr.isMaxAge <;> simp [Option.filter, hexp]

/-- what refreshing one LSA leaves in the table -/
theorem find?_renew (db : Database) (now : Instant) (lsa : Lsa) (k : LsaKey) :
    (refresh.renew now lsa db).state.table.find? k = afterBuild now (.again lsa) k (db.table.find? k) :=
  find?_originate db now (.again lsa) k

theorem find?_forEach_renew_of_notMem {now : Instant} {lsas : List Lsa} {k : LsaKey}
    (hk : k ∉ lsas.map fun lsa => (Build.again lsa).key) (db : Database) :
    (Outcome.forEach (refresh.renew now) lsas db).state.table.find? k = db.table.find? k := by
  induction lsas generalizing db with
  | nil => rfl
  | cons lsa rest ih =>
    simp only [List.map_cons, List.mem_cons, not_or] at hk
    simp only [Outcome.forEach]
    rw [ih hk.2, find?_renew, afterBuild, if_neg hk.1]

/-- LSAs with different keys are refreshed independently of each other. -/
theorem find?_forEach_renew_of_mem (now : Instant) {lsas : List Lsa} {lsa : Lsa}
    (hnodup : (lsas.map fun lsa => (Build.again lsa).key).Nodup) (hmem : lsa ∈ lsas) (db : Database) :
    (Outcome.forEach (refresh.renew now) lsas db).state.table.find? (Build.again lsa).key =
      some ((Build.again lsa).record now (db.table.find? (Build.again lsa).key)) := by
  induction lsas generalizing db with
  | nil => cases hmem
  | cons first rest ih =>
    simp only [List.map_cons, List.nodup_cons] at hnodup
    simp only [Outcome.forEach]
    rcases List.mem_cons.mp hmem with rfl | hmem
    · rw [find?_forEach_renew_of_notMem hnodup.1, find?_renew, afterBuild, if_pos rfl]
    · have hne : (Build.again lsa).key ≠ (Build.again first).key := fun e =>
        hnodup.1 (e ▸ List.mem_map_of_mem hmem)
      rw [ih hnodup.2 hmem, find?_renew, afterBuild, if_neg hne]

/-! ## Tables in order -/

end Database

/-- a record that is in order under a key -/
structure Record.Sound (k : LsaKey) (r : Record) : Prop where
  key : r.lsa.hdr.key = k
  type : r.lsa.hdr.lsaType = r.lsa.body.lsaType
  age : r.lsa.hdr.age.toNat ≤ maxAge
  own : r.origin = .selfOriginated →
    r.lsa.hdr.age.toNat < maxAge ∧ r.lsa.hdr.checksum = none ∧ r.lsa.hdr.length = none ∧
      ∃ s, r.lsa.hdr.seqNo = some s ∧ s ≠ reservedSeqNo

namespace Record.Sound

variable {k : LsaKey} {r : Record}

theorem again_key (h : r.Sound k) : (Build.again r.lsa).key = k := by
  rw [← h.key, Build.key, Header.key, h.type]
  rfl

/-- an offered LSA is in order once it is stored -/
theorem offered {hdr : Header} {body : Body} (htype : hdr.lsaType = body.lsaType) (now : Instant) :
    Record.Sound hdr.key ⟨⟨hdr.aged 0, body, now⟩, .received⟩ :=
  ⟨rfl, htype, Header.age_aged_le _ _, fun h => by cases h⟩

/-- an originated LSA is in order once it is stored -/
theorem built (b : Build) (now : Instant) (r? : Option Record) : (b.record now r?).Sound b.key :=
  ⟨rfl, rfl, Nat.zero_le _,
    fun _ => ⟨(by decide : (0 : UInt16).toNat < maxAge), rfl, rfl, _, rfl, Build.seqNo_ne_reserved _⟩⟩

/-- ageing keeps a record in order as long as it does not expire -/
theorem aged (h : r.Sound k) {elapsed : Nat} (hlt : r.lsa.hdr.age.toNat + elapsed < maxAge) :
    (r.aged elapsed).Sound k := by
  have hage : (r.aged elapsed).lsa.hdr.age.toNat < maxAge := by
    rw [Record.aged, Header.age_aged]
    omega
  exact ⟨h.key, h.type, hage.le, fun hown => ⟨hage, (h.own hown).2⟩⟩

end Record.Sound

namespace Database

/-- every record of the table is in order -/
def Sound (db : Database) : Prop := ∀ k, ∀ r ∈ db.table.find? k, r.Sound k

theorem mem_dueForRefresh {db : Database} {lsa : Lsa} :
    lsa ∈ db.dueForRefresh ↔ ∃ k, ∃ r ∈ db.table.find? k, r.isDue = true ∧ r.lsa = lsa := by
  simp only [dueForRefresh, SortedMap.values, List.mem_map, List.mem_filter, Option.mem_def]
  constructor
  · rintro ⟨r, ⟨⟨⟨k, r'⟩, he, rfl⟩, hdue⟩, rfl⟩
    exact ⟨k, r', SortedMap.find?_eq_some_iff.mpr he, hdue, rfl⟩
  · rintro ⟨k, r, hr, hdue, rfl⟩
    exact ⟨r, ⟨⟨(k, r), SortedMap.find?_eq_some_iff.mp hr, rfl⟩, hdue⟩, rfl⟩

/-- no LSA is refreshed twice -/
theorem nodup_dueForRefresh {db : Database} (h : db.Sound) :
    (db.dueForRefresh.map fun lsa => (Build.again lsa).key).Nodup := by
  have hkeys : db.dueForRefresh.map (fun lsa => (Build.again lsa).key) =
      (db.table.entries.filter fun e => e.2.isDue).map Prod.fst := by
    simp only [dueForRefresh, SortedMap.values, List.filter_map, List.map_map]
    refine List.map_congr_left fun e he => ?_
    have hsound : e.2.Sound e.1 := h e.1 e.2 (SortedMap.find?_eq_some_iff.mpr (List.mem_filter.mp he).1)
    exact hsound.again_key
  rw [hkeys, List.Nodup, List.pairwise_map]
  exact (db.table.ascending.filter _).imp fun hlt => KeyOrder.ne_of_lt hlt

theorem find?_refresh {db : Database} (h : db.Sound) (now : Instant) (k : LsaKey) :
    (db.refresh now).state.table.find? k = afterRefresh now (db.table.find? k) := by
  simp only [refresh, Outcome.map]
  by_cases hdue : ∃ r ∈ db.table.find? k, r.isDue = true
  · obtain ⟨r, hr, hdue⟩ := hdue
    have hkey : (Build.again r.lsa).key = k := (h k r hr).again_key
    have hmem : r.lsa ∈ db.dueForRefresh := mem_dueForRefresh.mpr ⟨k, r, hr, hdue, rfl⟩
    have hafter := find?_forEach_renew_of_mem now (nodup_dueForRefresh h) hmem db
    rw [hkey, hr] at hafter
    rw [hafter, hr, afterRefresh, Option.map_some, if_pos hdue]
  · have hk : k ∉ db.dueForRefresh.map fun lsa => (Build.again lsa).key := by
      intro hmem
      obtain ⟨lsa, hlsa, hkey⟩ := List.mem_map.mp hmem
      obtain ⟨k', r, hr, hrdue, rfl⟩ := mem_dueForRefresh.mp hlsa
      rw [(h k' r hr).again_key] at hkey
      exact hdue ⟨r, hkey ▸ hr, hrdue⟩
    rw [find?_forEach_renew_of_notMem hk]
    cases hr : db.table.find? k with
    | none => rfl
    | some r =>
      have hrdue : r.isDue = false := by
        cases hd : r.isDue with
        | false => rfl
        | true => exact absurd ⟨r, hr, hd⟩ hdue
      rw [afterRefresh, Option.map_some, hrdue]
      rfl

theorem find?_clear (db : Database) (k : LsaKey) : db.clear.state.table.find? k = none := by
  simp only [clear]
  split
  · rename_i hsize
    have hentries : db.table.entries = [] := List.eq_nil_of_length_eq_zero hsize
    simp [Outcome.silent, SortedMap.find?, hentries, SortedMap.lookup]
  · rfl

/-- **What an operation does to a record depends on that record alone.** -/
theorem find?_perform {db : Database} (h : db.Sound) (op : Op) (now : Instant) (k : LsaKey) :
    (perform op now db).state.table.find? k = op.effect now db.lastAgeTick k (db.table.find? k) := by
  cases op with
  | receive hdr body => exact find?_install db now .received hdr body k
  | installRouterLsa routerId flags links => exact find?_originate db now (.router routerId flags links) k
  | installExternalLsa routerId route => exact find?_originate db now (.external routerId route) k
  | installNssaLsa routerId route => exact find?_originate db now (.nssa routerId route) k
  | flush key => exact find?_flush db now key k
  | refresh => exact find?_refresh h now k
  | age elapsed => exact find?_age db now elapsed k
  | ageTick => exact find?_age _ now _ k
  | clear => exact find?_clear db k

/-! ## What the records say -/

/-- what every record of the table says, and who says it, under its key -/
def Contents (db : Database) (Q : LsaKey → Origin → Body → Prop) : Prop :=
  ∀ k, ∀ r ∈ db.table.find? k, Q k r.origin r.lsa.body

theorem contents_empty (areaId : Address4) (now : Instant) (Q : LsaKey → Origin → Body → Prop) :
    (empty areaId now).Contents Q := by
  intro k r hr
  cases hr

/-- what has to be looked at to know what the records say after an operation -/
theorem contents_perform {db : Database} (hsound : db.Sound) {P Q : LsaKey → Origin → Body → Prop}
    (h : db.Contents P) (op : Op) (now : Instant)
    (hkept : ∀ k origin body, (∀ b ∈ op.build?, b.key ≠ k) → P k origin body → Q k origin body)
    (hoffered : ∀ hdr body, op = .receive hdr body → hdr.lsaType = body.lsaType → Q hdr.key .received body)
    (hbuilt : ∀ b ∈ op.build?, Q b.key .selfOriginated b.body) : (perform op now db).state.Contents Q := by
  intro k r hr
  rw [Option.mem_def, find?_perform hsound] at hr
  refine Op.content_effect (Q := Q k) ?_ ?_ ?_ r hr
  · intro hkey old hold
    exact hkept k old.origin old.lsa.body hkey (h k old hold)
  · rintro hdr body hop rfl htype
    exact hoffered hdr body hop htype
  · rintro b hb rfl
    exact hbuilt b hb

end Database

end RoutingReplay.Ospf
