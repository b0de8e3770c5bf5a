/-
Flooding: the order in which LSAs arrive does not matter.

A flood is a run of offers from neighbours, with time passing between them. `Flooded` says what a flood leaves under one
key: the record that was there or one of the offered LSAs, and in any case one that no offer for the key surpasses. Two
floods from one database with the same offers, in any order and any number of times, therefore end with the same keys
and equally recent headers (`flood_order`); if no two different offers tie, they end with the same LSAs.
-/
import RoutingReplay.Proofs.Ospf.RecordView

namespace RoutingReplay.Ospf.Database

/-- an LSA that a neighbour offers -/
structure Offer where
  hdr : Header
  body : Body
  deriving DecidableEq

namespace Offer

/-- an offer that can be installed under `k`: it is for this key, and its header is of the type of its body -/
def Fits (o : Offer) (k : LsaKey) : Prop := o.hdr.key = k ∧ o.hdr.lsaType = o.body.lsaType

instance (o : Offer) (k : LsaKey) : Decidable (o.Fits k) := inferInstanceAs (Decidable (_ ∧ _))

/-- an offer once it is installed -/
def record (o : Offer) (now : Instant) : Record := ⟨⟨o.hdr.aged 0, o.body, now⟩, .received⟩

end Offer

/-- a run of offers, with time passing between them -/
def flood : Timed Database → List (Turn Offer) → Except Fault (Outcome (Timed Database) Notice (List Bool)) :=
  Timed.run fun o now db => db.receive now o.hdr o.body

/-- no two different offers for one key are equally recent -/
def NoTies (ts : List (Turn Offer)) : Prop :=
  ∀ k, ∀ o o', .perform o ∈ ts → .perform o' ∈ ts → o.Fits k → o'.Fits k → o.hdr.recency o'.hdr = .eq → o = o'

/-! ## What a flood leaves under one key -/

/-- `new` is what a flood leaves under `k` where `old` was stored -/
structure Flooded (k : LsaKey) (old : Option Record) (ts : List (Turn Offer)) (new : Option Record) : Prop where
  /-- no offer surpasses what is stored -/
  covers : ∀ o, .perform o ∈ ts → o.Fits k → ∃ r ∈ new, o.hdr.rank ≤ r.lsa.hdr.rank
  /-- what is stored was there or is an offer that surpasses what was there -/
  source : new = old ∨ ∃ o, .perform o ∈ ts ∧ o.Fits k ∧ (∀ r ∈ old, r.lsa.hdr.rank < o.hdr.rank) ∧
    ∃ now, new = some (o.record now)

namespace Flooded

variable {k : LsaKey} {old mid new new' : Option Record} {ts ts' : List (Turn Offer)}

theorem nil : Flooded k old [] old := ⟨fun _ ho => absurd ho List.not_mem_nil, Or.inl rfl⟩

/-- what was stored is never surpassed by what replaces it -/
theorem grows (h : Flooded k old ts new) : ∀ r ∈ old, ∃ r' ∈ new, r.lsa.hdr.rank ≤ r'.lsa.hdr.rank := by
  intro r hr
  rcases h.source with rfl | ⟨o, -, -, hnewer, now, rfl⟩
  · exact ⟨r, hr, le_rfl⟩
  · exact ⟨o.record now, rfl, (hnewer r hr).le⟩

/-- time may pass -/
theorem wait (d : Duration) (h : Flooded k old ts new) : Flooded k old (.wait d :: ts) new := by
  refine ⟨fun o ho => h.covers o (by simpa using ho), h.source.imp_right ?_⟩
  rintro ⟨o, ho, hrest⟩
  exact ⟨o, List.mem_cons_of_mem _ ho, hrest⟩

/-- an offer that changes nothing: it does not fit, or it is surpassed already -/
theorem discard {o : Offer} (h : Flooded k old ts new) (ho : o.Fits k → ∃ r ∈ old, o.hdr.rank ≤ r.lsa.hdr.rank) :
    Flooded k old (.perform o :: ts) new := by
  refine ⟨fun o' ho' hfits => ?_, h.source.imp_right ?_⟩
  · rcases List.mem_cons.mp ho' with e | ho'
    · cases e
      obtain ⟨r, hr, hle⟩ := ho hfits
      obtain ⟨r', hr', hle'⟩ := h.grows r hr
      exact ⟨r', hr', hle.trans hle'⟩
    · exact h.covers o' ho' hfits
  · rintro ⟨o', ho', hrest⟩
    exact ⟨o', List.mem_cons_of_mem _ ho', hrest⟩

/-- an offer that is taken -/
theorem take {o : Offer} {now : Instant} (hfits : o.Fits k) (hnewer : ∀ r ∈ old, r.lsa.hdr.rank < o.hdr.rank)
    (h : Flooded k (some (o.record now)) ts new) : Flooded k old (.perform o :: ts) new := by
  refine ⟨fun o' ho' hfits' => ?_, Or.inr ?_⟩
  · rcases List.mem_cons.mp ho' with e | ho'
    · cases e
      exact h.grows _ rfl
    · exact h.covers o' ho' hfits'
  · rcases h.source with rfl | ⟨o', ho', hfits', hnewer', hnow⟩
    · exact ⟨o, List.mem_cons_self, hfits, hnewer, now, rfl⟩
    · exact ⟨o', List.mem_cons_of_mem _ ho', hfits', fun r hr => (hnewer r hr).trans (hnewer' _ rfl), hnow⟩

end Flooded

/-- one offer, as seen from one key -/
theorem flooded_receive {db : Database} {now : Instant} {o : Offer} {k : LsaKey} {ts : List (Turn Offer)}
    {new : Option Record}
    (h : Flooded k ((db.receive now o.hdr o.body).state.table.find? k) ts new) :
    Flooded k (db.table.find? k) (.perform o :: ts) new := by
  have hafter := find?_install db now .received o.hdr o.body k
  by_cases hkey : k = o.hdr.key
  · rw [if_pos hkey] at hafter
    by_cases hoffer : o.hdr.lsaType = o.body.lsaType ∧ ∀ r ∈ db.table.find? k, r.lsa.hdr.rank < o.hdr.rank
    · have hstored : (db.receive now o.hdr o.body).state.table.find? k = some (o.record now) :=
        hafter.trans (if_pos hoffer)
      exact .take ⟨hkey.symm, hoffer.1⟩ hoffer.2 (hstored ▸ h)
    · have hsame : (db.receive now o.hdr o.body).state.table.find? k = db.table.find? k := hafter.trans (if_neg hoffer)
      rw [hsame] at h
      refine h.discard fun hfits => ?_
      by_contra hnone
      refine hoffer ⟨hfits.2, fun r hr => ?_⟩
      by_contra hle
      exact hnone ⟨r, hr, Nat.le_of_not_lt hle⟩
  · rw [if_neg hkey] at hafter
    have hsame : (db.receive now o.hdr o.body).state.table.find? k = db.table.find? k := hafter
    rw [hsame] at h
    exact h.discard fun hfits => absurd hfits.1.symm hkey

/-- A flood leaves under every key a record that no offer surpasses. -/
theorem flooded_of_flood {s : Timed Database} {ts : List (Turn Offer)}
    {out : Outcome (Timed Database) Notice (List Bool)} (h : flood s ts = .ok out) (k : LsaKey) :
    Flooded k (s.state.table.find? k) ts (out.state.state.table.find? k) := by
  induction ts generalizing s out with
  | nil => exact (Timed.run_nil h) ▸ .nil
  | cons t rest ih =>
    cases t with
    | wait d =>
      obtain ⟨now, -, others, hrest, hstate, -⟩ := Timed.run_wait h
      exact hstate ▸ (ih hrest).wait d
    | perform o =>
      obtain ⟨others, hrest, hstate, -⟩ := Timed.run_perform h
      exact hstate ▸ flooded_receive (ih hrest)

/-! ## Two floods with the same offers -/

namespace Flooded

variable {k : LsaKey} {old new new' : Option Record} {ts ts' : List (Turn Offer)}

/-- what one flood leaves is at least as recent as what another leaves that has the same offers -/
theorem rank_le (h : Flooded k old ts new) (h' : Flooded k old ts' new')
    (same : ∀ o : Offer, .perform o ∈ ts ↔ .perform o ∈ ts') :
    ∀ r ∈ new', ∃ r' ∈ new, r.lsa.hdr.rank ≤ r'.lsa.hdr.rank := by
  intro r hr
  rcases h'.source with rfl | ⟨o, ho, hfits, -, now, rfl⟩
  · exact h.grows r hr
  · cases hr
    exact h.covers o ((same o).mpr ho) hfits

theorem isSome_eq (h : Flooded k old ts new) (h' : Flooded k old ts' new')
    (same : ∀ o : Offer, .perform o ∈ ts ↔ .perform o ∈ ts') : new.isSome = new'.isSome := by
  cases hnew : new with
  | none =>
    cases hnew' : new' with
    | none => rfl
    | some r' =>
      obtain ⟨r, hr, -⟩ := h.rank_le h' same r' hnew'
      rw [hnew] at hr
      cases hr
  | some r =>
    obtain ⟨r', hr', -⟩ := h'.rank_le h (fun o => (same o).symm) r hnew
    rw [hr']
    rfl

theorem rank_eq (h : Flooded k old ts new) (h' : Flooded k old ts' new')
    (same : ∀ o : Offer, .perform o ∈ ts ↔ .perform o ∈ ts') {r r' : Record} (hr : r ∈ new) (hr' : r' ∈ new') :
    r.lsa.hdr.rank = r'.lsa.hdr.rank := by
  obtain ⟨q, hq, hle⟩ := h'.rank_le h (fun o => (same o).symm) r hr
  obtain ⟨q', hq', hle'⟩ := h.rank_le h' same r' hr'
  cases Option.mem_unique hq hr'
  cases Option.mem_unique hq' hr
  exact le_antisymm hle hle'

/-- without ties, both floods leave the same LSA -/
theorem content_eq (h : Flooded k old ts new) (h' : Flooded k old ts' new')
    (same : ∀ o : Offer, .perform o ∈ ts ↔ .perform o ∈ ts') (noTies : NoTies ts) {r r' : Record} (hr : r ∈ new)
    (hr' : r' ∈ new') : r.lsa.hdr = r'.lsa.hdr ∧ r.lsa.body = r'.lsa.body ∧ r.origin = r'.origin := by
  have hrank : r.lsa.hdr.rank = r'.lsa.hdr.rank := h.rank_eq h' same hr hr'
  rcases h.source with rfl | ⟨o, ho, hfits, hnewer, now, rfl⟩
  · rcases h'.source with rfl | ⟨o', -, -, hnewer', now', rfl⟩
    · cases Option.mem_unique hr hr'
      exact ⟨rfl, rfl, rfl⟩
    · -- an offer was taken in one run only, although it surpasses what both started from
      cases hr'
      have hlt : r.lsa.hdr.rank < o'.hdr.rank := hnewer' r hr
      exact absurd hrank hlt.ne
  · cases hr
    rcases h'.source with rfl | ⟨o', ho', hfits', -, now', rfl⟩
    · have hlt : r'.lsa.hdr.rank < o.hdr.rank := hnewer r' hr'
      exact absurd hrank.symm hlt.ne
    · cases hr'
      have htie : o.hdr.recency o'.hdr = .eq := Header.recency_eq_iff.mpr hrank
      cases noTies k o o' ho ((same o').mpr ho') hfits hfits' htie
      exact ⟨rfl, rfl, rfl⟩

end Flooded

/-- **Flooding does not depend on the order.** Two floods of one database that offer the same LSAs, in any order and any
number of times, end with the same keys and with equally recent headers under every key. If moreover no two different
offers for one key tie, the headers, bodies and origins are the same. -/
theorem flood_order {s : Timed Database} {ts ts' : List (Turn Offer)}
    {out out' : Outcome (Timed Database) Notice (List Bool)}
    (h : flood s ts = .ok out) (h' : flood s ts' = .ok out')
    (same : ∀ o : Offer, .perform o ∈ ts ↔ .perform o ∈ ts') :
    (∀ k, out.state.state.table.contains k = out'.state.state.table.contains k) ∧
      (∀ k, ∀ r ∈ out.state.state.table.find? k, ∀ r' ∈ out'.state.state.table.find? k,
        r.lsa.hdr.recency r'.lsa.hdr = .eq) ∧
      (NoTies ts → ∀ k, ∀ r ∈ out.state.state.table.find? k, ∀ r' ∈ out'.state.state.table.find? k,
        r.lsa.hdr = r'.lsa.hdr ∧ r.lsa.body = r'.lsa.body ∧ r.origin = r'.origin) := by
  have hk := flooded_of_flood h
  have hk' := flooded_of_flood h'
  refine ⟨fun k => (hk k).isSome_eq (hk' k) same, fun k r hr r' hr' => ?_, fun noTies k r hr r' hr' => ?_⟩
  · exact Header.recency_eq_iff.mpr ((hk k).rank_eq (hk' k) same hr hr')
  · exact (hk k).content_eq (hk' k) same noTies hr hr'

/-- instances of one Router-LSA, told apart by number and metric -/
def instanceOffer (seqNo : UInt32) (metric : UInt16) : Offer :=
  ⟨⟨0, .external, LsaKind.router.type, ⟨1⟩, ⟨1⟩, some seqNo, none, none⟩,
    .router ⟨⟨0⟩, [⟨.stubNetwork, ⟨1⟩, ⟨1⟩, metric⟩]⟩⟩

/-- the older of two instances first, and once more later -/
def ascendingFlood : List (Turn Offer) :=
  [.perform (instanceOffer 1 10), .wait (.ofSeconds 5), .perform (instanceOffer 2 20), .perform (instanceOffer 1 10)]

/-- the newer of two instances first -/
def descendingFlood : List (Turn Offer) := [.perform (instanceOffer 2 20), .perform (instanceOffer 1 10)]

theorem noTies_ascendingFlood : NoTies ascendingFlood := by
  intro k o o' ho ho' _ _ htie
  simp only [ascendingFlood, List.mem_cons, Turn.perform.injEq, reduceCtorEq, false_or, List.not_mem_nil, or_false]
    at ho ho'
  rcases ho with rfl | rfl | rfl <;> rcases ho' with rfl | rfl | rfl <;> first | rfl | exact absurd htie (by decide)

/-- two instances, in either order -/
theorem flood_order_instances :
    ∃ out out', flood ⟨.start, empty .unspecified .start⟩ ascendingFlood = .ok out ∧
      flood ⟨.start, empty .unspecified .start⟩ descendingFlood = .ok out' ∧ NoTies ascendingFlood ∧
      ∀ k, ∀ r ∈ out.state.state.table.find? k, ∀ r' ∈ out'.state.state.table.find? k,
        r.lsa.hdr = r'.lsa.hdr ∧ r.lsa.body = r'.lsa.body ∧ r.origin = r'.origin := by
  have same : ∀ o : Offer, .perform o ∈ ascendingFlood ↔ .perform o ∈ descendingFlood := by
    intro o
    simp only [ascendingFlood, descendingFlood, List.mem_cons, reduceCtorEq, false_or, List.not_mem_nil, or_false]
    tauto
  exact ⟨_, _, rfl, rfl, noTies_ascendingFlood, (flood_order rfl rfl same).2.2 noTies_ascendingFlood⟩

end RoutingReplay.Ospf.Database
