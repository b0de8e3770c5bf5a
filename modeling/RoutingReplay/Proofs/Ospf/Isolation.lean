/-
Keys do not get into each other's way.

The record of a key, and what the database answers about that key, depend on the operations on that key, on those on the
whole table, and on the time. So the operations on other keys can be left out of a run, and the account of the key stays
the same (`keys_isolated`). What may differ are the change log, the counters, and how many LSAs an operation on the whole
table concerns.

That holds although ageing and refreshing go through the whole table and change it as they go: what they leave of a
record depends on that record alone (`find?_perform`), in a table that is in order, as all tables are that runs lead to.
-/
import RoutingReplay.Proofs.Ospf.Ticks
import RoutingReplay.Proofs.Projection

namespace RoutingReplay.Ospf.Database

/-! ## Operations and answers on a key -/

/-- the key that an operation is about, unless it is about the whole table -/
def Op.key? : Op → Option LsaKey
  | .receive hdr _ => some hdr.key
  | .installRouterLsa routerId flags links => some (Build.router routerId flags links).key
  | .installExternalLsa routerId route => some (Build.external routerId route).key
  | .installNssaLsa routerId route => some (Build.nssa routerId route).key
  | .flush key => some key
  | .refresh | .age _ | .ageTick | .clear => none

/-- whether an operation is about a key or about the whole table -/
def Op.concerns (op : Op) (k : LsaKey) : Bool := op.key?.all (· = k)

/-- what an answer says about a key; the counts of the operations on the whole table are not about any key -/
def Op.tells (k : LsaKey) (op : Op) (answer : Answer) : Option Answer :=
  op.key?.bind fun key => if key = k then some answer else none

/-- what a database shows of a key at an instant -/
structure KeyView (k : LsaKey) where
  now : Instant
  lastAgeTick : Instant
  record : Option Record
  /-- which headers are more recent than the stored one -/
  isNewer : { hdr : Header // hdr.key = k } → Bool
  /-- the instances that the local router would build now -/
  next : { b : Build // b.key = k } → Lsa

def keyView (k : LsaKey) (s : Timed Database) : KeyView k where
  now := s.now
  lastAgeTick := s.state.lastAgeTick
  record := s.state.table.find? k
  isNewer hdr := s.state.isNewer hdr
  next b := s.state.build s.now b

/-- what the database says and keeps about a key over a run -/
def keyAccount (k : LsaKey) (s : Timed Database) (turns : List (Turn Op)) :
    Except Fault (Account (KeyView k) Answer) :=
  Timed.account perform (keyView k) (Op.tells k) s turns

variable {db db' : Database} {k : LsaKey}

theorem Op.concerns_iff {op : Op} {key k : LsaKey} (h : op.key? = some key) : op.concerns k = true ↔ key = k := by
  simp [Op.concerns, h]

theorem Op.concerns_eq_false_iff {op : Op} {key k : LsaKey} (h : op.key? = some key) :
    op.concerns k = false ↔ key ≠ k := by
  simp [Op.concerns, h]

/-- an operation that is not about a key is about another one -/
theorem Op.exists_key_of_not_concerns {op : Op} (hop : op.concerns k = false) :
    ∃ key, op.key? = some key ∧ key ≠ k := by
  cases hkey : op.key? with
  | none => simp [Op.concerns, hkey] at hop
  | some key => exact ⟨key, rfl, (Op.concerns_eq_false_iff hkey).mp hop⟩

theorem Op.tells_of_not_concerns {op : Op} (hop : op.concerns k = false) (answer : Answer) :
    op.tells k answer = none := by
  obtain ⟨key, hkey, hne⟩ := Op.exists_key_of_not_concerns hop
  rw [Op.tells, hkey, Option.bind_some, if_neg hne]

/-- the answer of an operation on the whole table is not about any key -/
theorem Op.tells_of_whole {op : Op} (h : op.key? = none) (answer : Answer) : op.tells k answer = none := by
  rw [Op.tells, h, Option.bind_none]

/-! ## What an answer depends on -/

/-- whether a flush succeeds depends on the record of its key -/
theorem answer_flush (db : Database) (now : Instant) (key : LsaKey) :
    (db.flush now key).answer = (db.table.find? key).any (·.origin = .selfOriginated) := by
  unfold flush
  split
  · rename_i hown
    exact hown.symm
  · rename_i hown
    exact (Bool.eq_false_iff.mpr hown).symm

theorem isNewer_congr {hdr : Header} (h : db.table.find? hdr.key = db'.table.find? hdr.key) :
    db.isNewer hdr = db'.isNewer hdr := by
  rw [isNewer, isNewer, h]

theorem build_congr {b : Build} (h : db.table.find? b.key = db'.table.find? b.key) (now : Instant) :
    db.build now b = db'.build now b := by
  have hseqNo : db.nextSeqNo ⟨b.body.lsaType, b.advRouter, b.lsaId⟩ =
      db'.nextSeqNo ⟨b.body.lsaType, b.advRouter, b.lsaId⟩ := by
    change db.nextSeqNo b.key = db'.nextSeqNo b.key
    rw [nextSeqNo, nextSeqNo, h]
  rw [build, build, nextInstance, nextInstance, hseqNo]

/-- Databases with the same record of a key give the same answers about that key. -/
theorem tells_perform_congr {op : Op} (hop : op.concerns k = true) (now : Instant)
    (h : db.table.find? k = db'.table.find? k) :
    op.tells k (perform op now db).answer = op.tells k (perform op now db').answer := by
  have hbuilt : ∀ b : Build, (db.originate now (db.build now b)).answer =
      (db'.originate now (db'.build now b)).answer := by
    intro b
    rw [(originate_build db now b).1, (originate_build db' now b).1]
  cases op with
  | receive hdr body =>
    obtain rfl : hdr.key = k := (Op.concerns_iff rfl).mp hop
    have hanswer : (db.receive now hdr body).answer = (db'.receive now hdr body).answer := by
      rw [Bool.eq_iff_iff, receive, receive, answer_install, answer_install, h]
    exact congrArg (fun b => Op.tells hdr.key (.receive hdr body) (.flag b)) hanswer
  | installRouterLsa routerId flags links =>
    exact congrArg (fun b => Op.tells k _ (.flag b)) (hbuilt (.router routerId flags links))
  | installExternalLsa routerId route =>
    exact congrArg (fun b => Op.tells k _ (.flag b)) (hbuilt (.external routerId route))
  | installNssaLsa routerId route =>
    exact congrArg (fun b => Op.tells k _ (.flag b)) (hbuilt (.nssa routerId route))
  | flush key =>
    obtain rfl : key = k := (Op.concerns_iff rfl).mp hop
    have hanswer : (db.flush now key).answer = (db'.flush now key).answer := by
      rw [answer_flush, answer_flush, h]
    exact congrArg (fun b => Op.tells key (.flush key) (.flag b)) hanswer
  | refresh | age elapsed | ageTick | clear => exact (Op.tells_of_whole rfl _).trans (Op.tells_of_whole rfl _).symm

/-! ## What an operation does -/

/-- an operation on another key leaves a record alone -/
theorem effect_of_not_concerns {op : Op} (hop : op.concerns k = false) (now lastAgeTick : Instant)
    (r? : Option Record) : op.effect now lastAgeTick k r? = r? := by
  obtain ⟨key, hkey, hne⟩ := Op.exists_key_of_not_concerns hop
  cases op with
  | receive hdr body =>
    cases hkey
    exact if_neg (Ne.symm hne)
  | installRouterLsa routerId flags links =>
    cases hkey
    exact if_neg (Ne.symm hne)
  | installExternalLsa routerId route =>
    cases hkey
    exact if_neg (Ne.symm hne)
  | installNssaLsa routerId route =>
    cases hkey
    exact if_neg (Ne.symm hne)
  | flush key =>
    cases hkey
    exact if_neg fun hflushed => hne hflushed.1.symm
  | refresh | age elapsed | ageTick | clear => cases hkey

/-- two databases in order, with the same record of a key and the same last age tick -/
structure AgreeOn (k : LsaKey) (db db' : Database) : Prop where
  sound : db.Sound
  sound' : db'.Sound
  lastAgeTick : db.lastAgeTick = db'.lastAgeTick
  record : db.table.find? k = db'.table.find? k

/-- Databases that agree on a key agree on it after the same operation. -/
theorem AgreeOn.perform (h : AgreeOn k db db') (op : Op) (now : Instant) :
    AgreeOn k (Database.perform op now db).state (Database.perform op now db').state where
  sound := sound_perform h.sound op now
  sound' := sound_perform h.sound' op now
  lastAgeTick := by
    by_cases htick : op = .ageTick
    · subst htick
      change (db.ageTick now).state.lastAgeTick = (db'.ageTick now).state.lastAgeTick
      rw [lastAgeTick_ageTick, lastAgeTick_ageTick, h.lastAgeTick]
    · rw [lastAgeTick_perform htick, lastAgeTick_perform htick]
      exact h.lastAgeTick
  record := by
    rw [find?_perform h.sound, find?_perform h.sound', h.lastAgeTick, h.record]

/-- They still agree if only one of them performs an operation on another key. -/
theorem AgreeOn.skip (h : AgreeOn k db db') {op : Op} (hop : op.concerns k = false) (now : Instant) :
    AgreeOn k (Database.perform op now db).state db' where
  sound := sound_perform h.sound op now
  sound' := h.sound'
  lastAgeTick := by
    obtain ⟨key, hkey, -⟩ := Op.exists_key_of_not_concerns hop
    have htick : op ≠ .ageTick := by
      rintro rfl
      cases hkey
    rw [lastAgeTick_perform htick]
    exact h.lastAgeTick
  record := by
    rw [find?_perform h.sound, effect_of_not_concerns hop]
    exact h.record

theorem AgreeOn.keyView_eq (h : AgreeOn k db db') (now : Instant) : keyView k ⟨now, db⟩ = keyView k ⟨now, db'⟩ := by
  have hnewer : ∀ hdr : { hdr : Header // hdr.key = k }, db.isNewer hdr = db'.isNewer hdr := by
    rintro ⟨hdr, rfl⟩
    exact isNewer_congr h.record
  have hnext : ∀ b : { b : Build // b.key = k }, db.build now b = db'.build now b := by
    rintro ⟨b, rfl⟩
    exact build_congr h.record now
  simp only [keyView, h.lastAgeTick, h.record, hnewer, hnext]

/-! ## Main result -/

/-- **Keys do not get into each other's way.** From a run of a database, the operations on other keys can be left out:
the key ends with the same record, or without one, at the same instant and after the same age tick; the same headers
are more recent than the stored one, and the local router would build the same instances; and all answers to the
operations on the key are the same. -/
theorem keys_isolated (areaId : Address4) (start : Instant) (turns : List (Turn Op)) (k : LsaKey) :
    keyAccount k ⟨start, empty areaId start⟩ turns =
      keyAccount k ⟨start, empty areaId start⟩ (turns.filter (Turn.passes fun op => op.concerns k)) := by
  have hempty : (empty areaId start).Sound := sound_empty areaId start
  refine Timed.account_filter (P := fun s s' => s.now = s'.now ∧ AgreeOn k s.state s'.state) ?_ ?_ ?_ ?_
    ⟨rfl, hempty, hempty, rfl, rfl⟩ turns
  · rintro ⟨now, db⟩ ⟨now', db'⟩ ⟨hnow, hagree⟩
    obtain rfl : now = now' := hnow
    exact ⟨rfl, hagree.keyView_eq now⟩
  · rintro s s' now ⟨-, hagree⟩
    exact ⟨rfl, hagree⟩
  · rintro s s' op hop ⟨hnow, hagree⟩
    exact ⟨⟨hnow, hagree.skip hop s.now⟩, Op.tells_of_not_concerns hop _⟩
  · rintro s s' op hop ⟨hnow, hagree⟩
    rw [← hnow]
    exact ⟨⟨rfl, hagree.perform op s.now⟩, tells_perform_congr hop s.now hagree.record⟩

end RoutingReplay.Ospf.Database
