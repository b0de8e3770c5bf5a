/-
What becomes of an LSA that a neighbour sends.

Whether an LSA is more recent than the stored instance can be asked without offering it (`Database.isNewer`). The question
is put to the header as it came and the database decides on the header with its age cut off, but the age does not count
in the comparison, so both agree. An LSA that is refused leaves no trace; one that is taken replaces the record of its
key as a whole, and from then on it is not more recent than what is stored.

- `Database.reception_receive`, `Area.reception_receive`: what becomes of the LSA in a database, and in an area with its
  rule for types.
- `receptions_atomic`: both, and that the same LSA is not taken twice.
-/
import RoutingReplay.Proofs.Ospf.RecordView
import RoutingReplay.Ospf.Area

namespace RoutingReplay.Ospf

/-- an age that is cut off at `maxAge` -/
theorem Header.aged_zero_eq (h : Header) : h.aged 0 = { h with age := min h.age 3600 } := by
  have hage : (h.aged 0).age = min h.age 3600 := by
    rw [← UInt16.toNat_inj, age_aged, UInt16.toNat_min]
    rfl
  rw [← hage]
  rfl

/-- What becomes of an LSA of a neighbour: whether it is taken, and what that does to the database. Besides the two
conditions of the database there may be another one. -/
structure Reception (admitted : Prop) (now : Instant) (hdr : Header) (body : Body) (before : Database) (answer : Bool)
    (after : Database) : Prop where
  taken : answer = true ↔ admitted ∧ hdr.lsaType = body.lsaType ∧ before.isNewer hdr = true
  /-- the log, the counters and the stamps included -/
  refused : answer = false → after = before
  stored : answer = true →
    after.table.find? hdr.key = some ⟨⟨{ hdr with age := min hdr.age 3600 }, body, now⟩, .received⟩
  changed : answer = true → ∀ k, after.table.find? k ≠ before.table.find? k ↔ k = hdr.key
  outdated : answer = true → after.isNewer hdr = false

namespace Database

theorem install_of_refused {db : Database} {now : Instant} {origin : Origin} {hdr : Header} {body : Body}
    (h : (db.install now origin hdr body).answer = false) : (db.install now origin hdr body).state = db := by
  unfold install at h ⊢
  by_cases htype : hdr.lsaType = body.lsaType
  · by_cases hnew : db.isNewer hdr = true
    · simp [htype, hnew, Outcome.silent] at h
    · simp [htype, hnew, Outcome.silent]
  · simp [htype, Outcome.silent]

/-- **An LSA is taken as a whole or not at all.** -/
theorem reception_receive (db : Database) (now : Instant) (hdr : Header) (body : Body) :
    Reception True now hdr body db (db.receive now hdr body).answer (db.receive now hdr body).state := by
  unfold receive
  have htaken := answer_install db now .received hdr body
  have hstored : (db.install now .received hdr body).answer = true →
      (db.install now .received hdr body).state.table.find? hdr.key =
        some ⟨⟨{ hdr with age := min hdr.age 3600 }, body, now⟩, .received⟩ := by
    intro h
    rw [find?_install, if_pos rfl, afterOffer, if_pos (htaken.mp h), Header.aged_zero_eq]
  refine ⟨?_, install_of_refused, hstored, ?_, ?_⟩
  · rw [htaken, isNewer_iff, true_and]
  · intro h k
    constructor
    · intro hne
      by_contra hk
      apply hne
      rw [find?_install, if_neg hk]
    · rintro rfl hsame
      -- the stored instance would be more recent than itself
      rw [hstored h] at hsame
      have hlt := (htaken.mp h).2 _ hsame.symm
      exact Nat.lt_irrefl _ hlt
  · intro h
    rw [Bool.eq_false_iff]
    intro hnewer
    have hlt := isNewer_iff.mp hnewer _ (hstored h)
    exact Nat.lt_irrefl _ hlt

/-- an LSA is not taken twice in a row -/
theorem answer_receive_again (db : Database) (now later : Instant) (hdr : Header) (body : Body) :
    ((db.receive now hdr body).state.receive later hdr body).answer = false := by
  have hfirst := db.reception_receive now hdr body
  rw [Bool.eq_false_iff]
  intro hagain
  obtain ⟨-, htype, hnewer⟩ := ((db.receive now hdr body).state.reception_receive later hdr body).taken.mp hagain
  cases hanswer : (db.receive now hdr body).answer with
  | true =>
    rw [hfirst.outdated hanswer] at hnewer
    cases hnewer
  | false =>
    rw [hfirst.refused hanswer] at hnewer
    have htaken := hfirst.taken.mpr ⟨trivial, htype, hnewer⟩
    rw [hanswer] at htaken
    cases htaken

end Database

namespace Area

variable {area : Area} {hdr : Header}

theorem receive_of_admitted (h : area.type.admits hdr.lsaType = true) (now : Instant) (body : Body) :
    area.receive now hdr body = area.onDatabase fun db => db.receive now hdr body := if_pos h

theorem receive_of_not_admitted (h : ¬ area.type.admits hdr.lsaType = true) (now : Instant) (body : Body) :
    (area.receive now hdr body).answer = false ∧ (area.receive now hdr body).state = area := by
  rw [receive, if_neg h]
  exact ⟨rfl, rfl⟩

/-- **An area takes what its database takes, if the type may enter the area.** -/
theorem reception_receive (area : Area) (now : Instant) (hdr : Header) (body : Body) :
    Reception (area.type.admits hdr.lsaType = true) now hdr body area.db (area.receive now hdr body).answer
      (area.receive now hdr body).state.db := by
  by_cases hadmitted : area.type.admits hdr.lsaType = true
  · have hdb := area.db.reception_receive now hdr body
    rw [receive_of_admitted hadmitted]
    refine ⟨?_, hdb.refused, hdb.stored, hdb.changed, hdb.outdated⟩
    rw [eq_true hadmitted]
    exact hdb.taken
  · obtain ⟨hanswer, hstate⟩ := receive_of_not_admitted hadmitted now body
    rw [hanswer, hstate]
    refine ⟨?_, fun _ => rfl, ?_, ?_, ?_⟩
    · simp [hadmitted]
    · rintro ⟨⟩
    · rintro ⟨⟩
    · rintro ⟨⟩

/-- a reception concerns the database only -/
theorem state_receive_eq (area : Area) (now : Instant) (hdr : Header) (body : Body) :
    (area.receive now hdr body).state = { area with db := (area.receive now hdr body).state.db } := by
  unfold receive
  split <;> rfl

theorem answer_receive_again (area : Area) (now later : Instant) (hdr : Header) (body : Body) :
    ((area.receive now hdr body).state.receive later hdr body).answer = false := by
  by_cases hadmitted : area.type.admits hdr.lsaType = true
  · have hadmitted' : (area.receive now hdr body).state.type.admits hdr.lsaType = true := by
      rw [state_receive_eq]
      exact hadmitted
    rw [receive_of_admitted hadmitted', receive_of_admitted hadmitted]
    exact area.db.answer_receive_again now later hdr body
  · rw [(receive_of_not_admitted hadmitted now body).2]
    exact (receive_of_not_admitted hadmitted later body).1

end Area

/-- **Receptions are atomic.** A database takes an LSA from a neighbour exactly if the header is of the type of the body
and was more recent than the stored instance. If it does not, it is in every part as it was. If it does, the record of
that key and no other has changed: it holds the header with its age cut off at `maxAge` and the body, it is marked as
received, and the header is not more recent any more; so the same LSA is not taken again. The same is true of an area,
which also looks at the type of the LSA. -/
theorem receptions_atomic (db : Database) (area : Area) (now : Instant) (hdr : Header) (body : Body) :
    Reception True now hdr body db (db.receive now hdr body).answer (db.receive now hdr body).state ∧
      (∀ later, ((db.receive now hdr body).state.receive later hdr body).answer = false) ∧
      Reception (area.type.admits hdr.lsaType = true) now hdr body area.db (area.receive now hdr body).answer
        (area.receive now hdr body).state.db ∧
      (area.receive now hdr body).state = { area with db := (area.receive now hdr body).state.db } ∧
      ∀ later, ((area.receive now hdr body).state.receive later hdr body).answer = false := by
  refine ⟨db.reception_receive now hdr body, ?_, area.reception_receive now hdr body,
    area.state_receive_eq now hdr body, ?_⟩
  · intro later
    exact db.answer_receive_again now later hdr body
  · intro later
    exact area.answer_receive_again now later hdr body

end RoutingReplay.Ospf
