/-
Ageing by ticks.

A tick ages the table by the whole seconds since the last one and moves `lastAgeTick` forward by just these seconds, so
what is left of a second counts in the next tick. However the ticks fall, the seconds that they count add up: after a
tick `lastAgeTick` is the last whole second since the database was created, and an LSA is as much older than when it was
installed as `lastAgeTick` has moved since (`ticks_telescope`).

What carries the induction is `Dated`: it goes back, for every record, to the call that installed it
(`LastInstallation`) and counts the seconds from the `lastAgeTick` of that call. For ticks alone the sum has a closed
form (`find?_of_ticks`), in which the number of the ticks does not occur; so one tick does as well as many.
-/
import RoutingReplay.Proofs.Ospf.Reachable

namespace RoutingReplay

/-! ## Whole seconds -/

namespace Instant

theorem later_zero (t : Instant) : t.later (.ofSeconds 0) = t := rfl

theorem later_later (t : Instant) (m n : Nat) :
    (t.later (.ofSeconds m)).later (.ofSeconds n) = t.later (.ofSeconds (m + n)) := by
  simp only [later, Duration.ofSeconds, Nat.add_mul, Nat.add_assoc]

/-- the last whole second after `t` that is not after `now` -/
theorem later_since_le {t now : Instant} (h : t ≤ now) : t.later (.ofSeconds (now.since t).seconds) ≤ now := by
  have hle : t.sinceStart.nanos ≤ now.sinceStart.nanos := h
  change t.sinceStart.nanos + (now.sinceStart.nanos - t.sinceStart.nanos) / 1000000000 * 1000000000 ≤
    now.sinceStart.nanos
  omega

/-- one more second would be too late -/
theorem not_later_since_succ_le (t now : Instant) :
    ¬ (t.later (.ofSeconds (now.since t).seconds)).later (.ofSeconds 1) ≤ now := by
  change ¬ t.sinceStart.nanos + (now.sinceStart.nanos - t.sinceStart.nanos) / 1000000000 * 1000000000 +
    1 * 1000000000 ≤ now.sinceStart.nanos
  omega

/-- whole seconds first or last, the whole seconds add up -/
theorem seconds_since_later {t now : Instant} {n : Nat} (h : t.later (.ofSeconds n) ≤ now) :
    n + (now.since (t.later (.ofSeconds n))).seconds = (now.since t).seconds := by
  have hle : t.sinceStart.nanos + n * 1000000000 ≤ now.sinceStart.nanos := h
  change n + (now.sinceStart.nanos - (t.sinceStart.nanos + n * 1000000000)) / 1000000000 =
    (now.sinceStart.nanos - t.sinceStart.nanos) / 1000000000
  omega

/-- an instant that is not after one in the range can be reached -/
theorem advance_of_le {t now : Instant} {d : Duration} (hnow : now.sinceStart.seconds < range) (h : t.later d ≤ now) :
    t.advance d = .ok (t.later d) := by
  have hle : (t.later d).sinceStart.seconds ≤ now.sinceStart.seconds := Nat.div_le_div_right h
  rw [advance, if_pos (Nat.lt_of_le_of_lt hle hnow)]

theorem seconds_lt_of_advance {t now : Instant} {d : Duration} (h : t.advance d = .ok now) :
    now.sinceStart.seconds < range := by
  unfold advance at h
  split at h
  · rename_i hlt
    exact Except.ok.inj h ▸ hlt
  · cases h

end Instant

namespace Ospf

theorem Record.aged_aged (r : Record) (m n : Nat) : (r.aged m).aged n = r.aged (m + n) := by
  have hage : ((r.lsa.hdr.aged m).aged n).age = (r.lsa.hdr.aged (m + n)).age := by
    rw [← UInt16.toNat_inj, Header.age_aged, Header.age_aged, Header.age_aged]
    omega
  simp only [Record.aged, Header.aged] at hage ⊢
  rw [hage]

namespace Database

/-- ageing twice is ageing once -/
theorem afterAging_afterAging (m n : Nat) (r? : Option Record) :
    afterAging n (afterAging m r?) = afterAging (m + n) r? := by
  cases r? with
  | none => rfl
  | some r =>
    have hage : (r.aged m).lsa.hdr.age.toNat = min (r.lsa.hdr.age.toNat + m) maxAge := Header.age_aged _ _
    rw [afterAging_some, afterAging_some]
    split
    · rename_i hlt
      rw [afterAging_some, Record.aged_aged, hage, Nat.min_eq_left hlt.le, Nat.add_assoc]
    · rename_i hlt
      rw [if_neg fun h => hlt (by omega)]
      rfl

/-! ## The time of the last tick -/

theorem lastAgeTick_remove (db : Database) (now : Instant) (key : LsaKey) (reason : FlushReason) :
    (db.remove now key reason).state.lastAgeTick = db.lastAgeTick := by
  unfold remove
  cases db.table.find? key <;> rfl

theorem lastAgeTick_install (db : Database) (now : Instant) (origin : Origin) (hdr : Header) (body : Body) :
    (db.install now origin hdr body).state.lastAgeTick = db.lastAgeTick := by
  unfold install
  by_cases htype : hdr.lsaType = body.lsaType
  · by_cases hnew : db.isNewer hdr = true
    · simp [htype, hnew, Outcome.silent, store, logChange]
    · simp [htype, hnew, Outcome.silent]
  · simp [htype, Outcome.silent]

theorem lastAgeTick_installOwn (db : Database) (now : Instant) (lsa : Lsa) (hdr : Header) :
    (originate.installOwn now lsa db hdr).state.lastAgeTick = db.lastAgeTick := by
  rw [← lastAgeTick_install db now .selfOriginated hdr lsa.body]
  simp only [originate.installOwn, Outcome.state_after]
  split <;> rfl

theorem lastAgeTick_originate (db : Database) (now : Instant) (lsa : Lsa) :
    (db.originate now lsa).state.lastAgeTick = db.lastAgeTick := by
  simp only [originate, Outcome.state_within]
  split
  · exact (lastAgeTick_installOwn _ now lsa _).trans (lastAgeTick_remove _ _ _ _)
  · exact lastAgeTick_installOwn db now lsa lsa.hdr

theorem lastAgeTick_forEach {κ α : Type} {act : κ → Database → Step α}
    (h : ∀ k db, (act k db).state.lastAgeTick = db.lastAgeTick) (ks : List κ) (db : Database) :
    (Outcome.forEach act ks db).state.lastAgeTick = db.lastAgeTick := by
  induction ks generalizing db with
  | nil => rfl
  | cons k rest ih => exact (ih (act k db).state).trans (h k db)

theorem lastAgeTick_age (db : Database) (now : Instant) (elapsed : Nat) :
    (db.age now elapsed).state.lastAgeTick = db.lastAgeTick :=
  lastAgeTick_forEach (fun key db => lastAgeTick_remove db now key .expiry) _ { db with table := db.agedTable elapsed }

/-- a tick moves it forward by the seconds that it counts -/
theorem lastAgeTick_ageTick (db : Database) (now : Instant) :
    (db.ageTick now).state.lastAgeTick = db.lastAgeTick.later (.ofSeconds (now.since db.lastAgeTick).seconds) :=
  lastAgeTick_age _ now _

/-- other operations leave it where it is -/
theorem lastAgeTick_perform {op : Op} (h : op ≠ .ageTick) (now : Instant) (db : Database) :
    (perform op now db).state.lastAgeTick = db.lastAgeTick := by
  cases op with
  | receive hdr body => exact lastAgeTick_install db now .received hdr body
  | installRouterLsa routerId flags links => exact lastAgeTick_originate db now _
  | installExternalLsa routerId route => exact lastAgeTick_originate db now _
  | installNssaLsa routerId route => exact lastAgeTick_originate db now _
  | flush key =>
    simp only [perform, Outcome.map, flush]
    split
    · exact lastAgeTick_remove db now key .prematureAging
    · rfl
  | refresh =>
    have hrenew : ∀ lsa db, (refresh.renew now lsa db).state.lastAgeTick = db.lastAgeTick :=
      fun lsa db => lastAgeTick_originate db now _
    exact lastAgeTick_forEach hrenew _ db
  | age elapsed => exact lastAgeTick_age db now elapsed
  | ageTick => exact absurd rfl h
  | clear =>
    simp only [perform, Outcome.map, clear]
    split <;> rfl

/-! ## Installations -/

/-- the time of the last tick when a call is done -/
def Call.tick (call : Call) : Instant := (perform call.op call.before.now call.before.state).state.lastAgeTick

/-- a call other than a tick leaves a record under a key that was not there -/
def Call.Installs (call : Call) (k : LsaKey) (r : Record) : Prop :=
  call.op ≠ .ageTick ∧ call.leaves k = some r ∧ call.before.state.table.find? k ≠ some r

/-- the last of some calls that installs a record under a key, and that record -/
def LastInstallation (past : List Call) (k : LsaKey) (call : Call) (r : Record) : Prop :=
  ∃ before after, past = before ++ call :: after ∧ call.Installs k r ∧ ∀ later ∈ after, ∀ r', ¬ later.Installs k r'

/-- among some calls, only ticks age the table -/
def AgedByTicks (past : List Call) : Prop := ∀ call ∈ past, ∀ elapsed, call.op ≠ .age elapsed

theorem LastInstallation.concat {past : List Call} {k : LsaKey} {call : Call} {r : Record}
    (h : LastInstallation past k call r) {next : Call} (hnext : ∀ r', ¬ next.Installs k r') :
    LastInstallation (past ++ [next]) k call r := by
  obtain ⟨before, after, hpast, hinstalls, hafter⟩ := h
  refine ⟨before, after ++ [next], by rw [hpast, List.append_assoc]; rfl, hinstalls, ?_⟩
  intro later hlater
  rcases List.mem_append.mp hlater with hlater | hlater
  · exact hafter later hlater
  · rw [List.mem_singleton.mp hlater]
    exact hnext

theorem Call.Installs.last {past : List Call} {k : LsaKey} {call : Call} {r : Record} (h : call.Installs k r) :
    LastInstallation (past ++ [call]) k call r :=
  ⟨past, [], rfl, h, fun _ hlater => absurd hlater List.not_mem_nil⟩

/-- a record goes back to its installation: since then it has grown older by the seconds that the ticks have counted -/
def Dated (past : List Call) (tick : Instant) (k : LsaKey) (r : Record) : Prop :=
  ∃ call r₀ elapsed, LastInstallation past k call r₀ ∧ tick = call.tick.later (.ofSeconds elapsed) ∧
    r = r₀.aged elapsed ∧ r.lsa.hdr.age.toNat = r₀.lsa.hdr.age.toNat + elapsed

/-- what holds in a run in which only ticks age the table -/
structure Ticking (start : Instant) (past : List Call) (s : Timed Database) : Prop where
  sound : s.state.Sound
  inRange : s.now.sinceStart.seconds < Instant.range
  /-- the ticks have counted whole seconds from the start -/
  whole : ∃ n, s.state.lastAgeTick = start.later (.ofSeconds n)
  tick_le : s.state.lastAgeTick ≤ s.now
  dated : ∀ k, ∀ r ∈ s.state.table.find? k, Dated past s.state.lastAgeTick k r

namespace Ticking

variable {start : Instant} {past : List Call} {s : Timed Database}

theorem created (areaId : Address4) (hstart : start.sinceStart.seconds < Instant.range) :
    Ticking start [] ⟨start, empty areaId start⟩ := by
  refine ⟨sound_empty areaId start, hstart, ⟨0, rfl⟩, Instant.le_refl start, ?_⟩
  intro k r hr
  cases hr

theorem wait (h : Ticking start past s) {d : Duration} {now : Instant} (hnow : s.now.advance d = .ok now) :
    Ticking start past { s with now } :=
  ⟨h.sound, Instant.seconds_lt_of_advance hnow, h.whole, Instant.le_trans h.tick_le (Instant.le_of_advance hnow),
    h.dated⟩

/-- a tick makes every record older by the seconds that it counts, or removes it -/
theorem dated_tick (h : Ticking start past s) {k : LsaKey} {r : Record} (hr : r ∈ s.state.table.find? k)
    {elapsed : Nat} (hlt : r.lsa.hdr.age.toNat + elapsed < maxAge) :
    Dated (past ++ [⟨s, .ageTick⟩]) (s.state.lastAgeTick.later (.ofSeconds elapsed)) k (r.aged elapsed) := by
  obtain ⟨call, r₀, n, hlast, htick, hr₀, hage⟩ := h.dated k r hr
  have hnext : ∀ r', ¬ Call.Installs ⟨s, .ageTick⟩ k r' := fun r' hinstalls => hinstalls.1 rfl
  refine ⟨call, r₀, n + elapsed, hlast.concat hnext, ?_, ?_, ?_⟩
  · rw [htick, Instant.later_later]
  · rw [hr₀, Record.aged_aged]
  · have haged : (r.aged elapsed).lsa.hdr.age.toNat = min (r.lsa.hdr.age.toNat + elapsed) maxAge := Header.age_aged _ _
    omega

/-- any other operation installs a record or leaves it as it is -/
theorem dated_perform (h : Ticking start past s) {op : Op} (hop : op ≠ .ageTick) {k : LsaKey} {r : Record}
    (hr : r ∈ (Database.perform op s.now s.state).state.table.find? k) :
    Dated (past ++ [⟨s, op⟩]) s.state.lastAgeTick k r := by
  have hleaves : Call.leaves ⟨s, op⟩ k = some r := hr
  by_cases hsame : s.state.table.find? k = some r
  · obtain ⟨call, r₀, n, hlast, hdated⟩ := h.dated k r hsame
    refine ⟨call, r₀, n, hlast.concat ?_, hdated⟩
    rintro r' ⟨-, hleaves', hnew⟩
    exact hnew (hsame.trans (hleaves.symm.trans hleaves'))
  · have hinstalls : Call.Installs ⟨s, op⟩ k r := ⟨hop, hleaves, hsame⟩
    have hage : r.lsa.hdr.age.toNat ≤ maxAge := (sound_perform h.sound op s.now k r hr).age
    refine ⟨⟨s, op⟩, r, 0, hinstalls.last, ?_, ?_, rfl⟩
    · rw [Instant.later_zero]
      exact (lastAgeTick_perform hop s.now s.state).symm
    · rw [Record.aged, Header.aged_zero hage]

theorem perform (h : Ticking start past s) {op : Op} (hop : ∀ elapsed, op ≠ .age elapsed) :
    Ticking start (past ++ [⟨s, op⟩]) { s with state := (Database.perform op s.now s.state).state } := by
  by_cases htick : op = .ageTick
  · subst htick
    have hlast := lastAgeTick_ageTick s.state s.now
    refine ⟨sound_perform h.sound .ageTick s.now, h.inRange, ?_, ?_, ?_⟩
    · obtain ⟨n, hn⟩ := h.whole
      refine ⟨n + (s.now.since s.state.lastAgeTick).seconds, ?_⟩
      rw [← Instant.later_later, ← hn]
      exact hlast
    · change (s.state.ageTick s.now).state.lastAgeTick ≤ s.now
      rw [hlast]
      exact Instant.later_since_le h.tick_le
    · intro k r hr
      rw [Option.mem_def, find?_perform h.sound] at hr
      obtain ⟨old, hold, hlt, rfl⟩ := mem_afterAging.mp hr
      change Dated _ (s.state.ageTick s.now).state.lastAgeTick k _
      rw [hlast]
      exact h.dated_tick hold hlt
  · have hlast := lastAgeTick_perform htick s.now s.state
    refine ⟨sound_perform h.sound op s.now, h.inRange, ?_, ?_, ?_⟩
    · obtain ⟨n, hn⟩ := h.whole
      exact ⟨n, hlast.trans hn⟩
    · change (Database.perform op s.now s.state).state.lastAgeTick ≤ s.now
      rw [hlast]
      exact h.tick_le
    · intro k r hr
      change Dated _ (Database.perform op s.now s.state).state.lastAgeTick k r
      rw [hlast]
      exact h.dated_perform htick hr

/-- a tick keeps a record as long as the sum of its age at the installation and the seconds since is below `maxAge` -/
theorem leaves_tick (h : Ticking start past s) {k : LsaKey} {r : Record} (hr : s.state.table.find? k = some r) :
    ∃ call r₀ elapsed, LastInstallation past k call r₀ ∧
      Call.tick ⟨s, .ageTick⟩ = call.tick.later (.ofSeconds elapsed) ∧
        Call.leaves ⟨s, .ageTick⟩ k =
          if r₀.lsa.hdr.age.toNat + elapsed < maxAge then some (r₀.aged elapsed) else none := by
  obtain ⟨call, r₀, n, hlast, htick, hr₀, hage⟩ := h.dated k r hr
  refine ⟨call, r₀, n + (s.now.since s.state.lastAgeTick).seconds, hlast, ?_, ?_⟩
  · rw [← Instant.later_later, ← htick]
    exact lastAgeTick_ageTick s.state s.now
  · have hleaves : Call.leaves ⟨s, .ageTick⟩ k = afterAging (s.now.since s.state.lastAgeTick).seconds (some r) := by
      rw [← hr]
      exact find?_perform h.sound .ageTick s.now k
    rw [hleaves, afterAging_some, hage, hr₀, Record.aged_aged, Nat.add_assoc]

theorem tick_eq (h : Ticking start past s) :
    Call.tick ⟨s, .ageTick⟩ = start.later (.ofSeconds (s.now.since start).seconds) := by
  obtain ⟨n, hn⟩ := h.whole
  have hle : start.later (.ofSeconds n) ≤ s.now := hn ▸ h.tick_le
  have htick : Call.tick ⟨s, .ageTick⟩ = _ := lastAgeTick_ageTick s.state s.now
  rw [htick, hn, Instant.later_later, Instant.seconds_since_later hle]

end Ticking

/-- Every state of a run in which only ticks age the table. -/
theorem ticking_of_run {areaId : Address4} {start : Instant} (hstart : start.sinceStart.seconds < Instant.range)
    {turns : List (Turn Op)} {out : Outcome (Timed Database) Notice (List Answer)}
    (hrun : run ⟨start, empty areaId start⟩ turns = .ok out) (hticks : AgedByTicks (calls areaId start turns)) :
    Ticking start (calls areaId start turns) out.state ∧
      ∀ before after call, calls areaId start turns = before ++ call :: after → Ticking start before call.before := by
  have hwait : ∀ past s d now, (AgedByTicks past → Ticking start past s) → s.now.advance d = .ok now →
      AgedByTicks past → Ticking start past { s with now } :=
    fun past s d now h hnow haged => (h haged).wait hnow
  have hperform : ∀ past s op, (AgedByTicks past → Ticking start past s) → AgedByTicks (past ++ [⟨s, op⟩]) →
      Ticking start (past ++ [⟨s, op⟩]) { s with state := (perform op s.now s.state).state } := by
    intro past s op h haged
    have hpast : AgedByTicks past := fun call hcall => haged call (List.mem_append_left _ hcall)
    exact (h hpast).perform (haged ⟨s, op⟩ (List.mem_append_right _ (List.mem_singleton_self _)))
  refine ⟨?_, ?_⟩
  · exact Timed.history_of_run (P := fun past s => AgedByTicks past → Ticking start past s) hwait hperform []
      (fun _ => .created areaId hstart) turns hrun hticks
  · intro before after call hsplit
    refine Timed.history_of_trace (P := fun past s => AgedByTicks past → Ticking start past s) hwait hperform []
      (fun _ => .created areaId hstart) hsplit ?_
    intro c hc
    exact hticks c (hsplit ▸ List.mem_append_left _ hc)

/-! ## Ticks alone -/

/-- nothing but ticks, at any instants -/
def TicksAlone (turns : List (Turn Op)) : Prop := ∀ op, .perform op ∈ turns → op = .ageTick

/-- the same time without the operations -/
def waits (turns : List (Turn Op)) : List (Turn Op) := turns.filter fun
  | .wait _ => true
  | .perform _ => false

/-- one tick after the same time -/
theorem exists_run_waits {s : Timed Database} (turns : List (Turn Op))
    {out : Outcome (Timed Database) Notice (List Answer)} (h : run s (turns ++ [.perform .ageTick]) = .ok out)
    (db : Database) :
    ∃ single, run ⟨s.now, db⟩ (waits turns ++ [.perform .ageTick]) = .ok single ∧
      single.state.now = out.state.now := by
  induction turns generalizing s out with
  | nil =>
    obtain ⟨others, hothers, hstate, -⟩ := Timed.run_perform h
    rw [hstate, Timed.run_nil hothers]
    exact ⟨_, rfl, rfl⟩
  | cons t rest ih =>
    cases t with
    | wait d =>
      obtain ⟨now, hnow, others, hothers, hstate, -⟩ := Timed.run_wait h
      obtain ⟨single, hsingle, htime⟩ := ih (s := { s with now }) hothers
      obtain ⟨longer, hlonger, hsame⟩ := Timed.exists_run_wait (s := ⟨s.now, db⟩) hnow hsingle
      exact ⟨longer, hlonger, by rw [hsame, htime, hstate]⟩
    | perform op =>
      obtain ⟨others, hothers, hstate, -⟩ := Timed.run_perform h
      rw [hstate]
      exact ih (s := { s with state := (perform op s.now s.state).state }) hothers

/-- What ticks do to a table in a stretch of time does not depend on how many there are, if one is at its end. -/
theorem find?_of_ticks {s : Timed Database} (htick : s.state.lastAgeTick ≤ s.now) {turns : List (Turn Op)}
    (hturns : TicksAlone turns) {out : Outcome (Timed Database) Notice (List Answer)}
    (hrun : run s (turns ++ [.perform .ageTick]) = .ok out) :
    out.state.state.lastAgeTick =
        s.state.lastAgeTick.later (.ofSeconds (out.state.now.since s.state.lastAgeTick).seconds) ∧
      ∀ k, out.state.state.table.find? k =
        afterAging (out.state.now.since s.state.lastAgeTick).seconds (s.state.table.find? k) := by
  induction turns generalizing s out with
  | nil =>
    obtain ⟨others, hothers, hstate, -⟩ := Timed.run_perform hrun
    rw [hstate, Timed.run_nil hothers]
    exact ⟨lastAgeTick_ageTick s.state s.now, fun k => find?_age _ s.now _ k⟩
  | cons t rest ih =>
    have hrest : TicksAlone rest := fun op hop => hturns op (List.mem_cons_of_mem _ hop)
    cases t with
    | wait d =>
      obtain ⟨now, hnow, others, hothers, hstate, -⟩ := Timed.run_wait hrun
      rw [hstate]
      exact ih (s := { s with now }) (Instant.le_trans htick (Instant.le_of_advance hnow)) hrest hothers
    | perform op =>
      obtain rfl := hturns op List.mem_cons_self
      obtain ⟨others, hothers, hstate, -⟩ := Timed.run_perform hrun
      have hlast : (perform .ageTick s.now s.state).state.lastAgeTick = _ := lastAgeTick_ageTick s.state s.now
      have hle : s.state.lastAgeTick.later (.ofSeconds (s.now.since s.state.lastAgeTick).seconds) ≤ s.now :=
        Instant.later_since_le htick
      obtain ⟨htime, hfind⟩ := ih (s := { s with state := (perform .ageTick s.now s.state).state })
        (hlast ▸ hle) hrest hothers
      have hnow : s.now ≤ others.state.now :=
        Timed.now_le_of_run (s := { s with state := (perform .ageTick s.now s.state).state }) hothers
      have hsum := Instant.seconds_since_later (Instant.le_trans hle hnow)
      simp only [hlast] at htime hfind
      rw [hstate]
      refine ⟨?_, fun k => ?_⟩
      · rw [htime, Instant.later_later, hsum]
      · have hfirst : (perform .ageTick s.now s.state).state.table.find? k = _ := find?_age _ s.now _ k
        rw [hfind, hfirst, afterAging_afterAging, hsum]

/-! ## Main result -/

/-- what ticks come to, in a run from `start` with these calls and this end -/
structure Telescoped (start : Instant) (calls : List Call) (final : Timed Database) : Prop where
  /-- a tick moves the time of the last tick to the last whole second since `start`, and it does not leave the range -/
  tick : ∀ call ∈ calls, call.op = .ageTick →
    call.tick = start.later (.ofSeconds (call.before.now.since start).seconds) ∧
      call.tick ≤ call.before.now ∧ ¬ call.tick.later (.ofSeconds 1) ≤ call.before.now ∧
        call.before.state.lastAgeTick.advance
          (.ofSeconds (call.before.now.since call.before.state.lastAgeTick).seconds) = .ok call.tick
  /-- a record is as much older than when it was installed as the time of the last tick has moved since -/
  ages : ∀ k, ∀ r ∈ final.state.table.find? k, Dated calls final.state.lastAgeTick k r
  /-- it goes with the first tick that would make this `maxAge` -/
  expiry : ∀ before after call, calls = before ++ call :: after → call.op = .ageTick →
    ∀ k, ∀ r ∈ call.before.state.table.find? k, ∃ installation r₀ elapsed, LastInstallation before k installation r₀ ∧
      call.tick = installation.tick.later (.ofSeconds elapsed) ∧
        call.leaves k = if r₀.lsa.hdr.age.toNat + elapsed < maxAge then some (r₀.aged elapsed) else none
  /-- from here on, one tick at the end does what many do -/
  once : ∀ turns, TicksAlone turns → ∀ often, run final (turns ++ [.perform .ageTick]) = .ok often →
    ∃ single, run final (waits turns ++ [.perform .ageTick]) = .ok single ∧ single.state.now = often.state.now ∧
      single.state.state.table = often.state.state.table ∧
        single.state.state.lastAgeTick = often.state.state.lastAgeTick

/-- **Ticks add up.** In a run in which only ticks age the table, whatever else is done in between and at whatever
instants, nothing is lost of the time between two ticks and nothing is counted twice. -/
theorem ticks_telescope {areaId : Address4} {start : Instant} (hstart : start.sinceStart.seconds < Instant.range)
    {turns : List (Turn Op)} {out : Outcome (Timed Database) Notice (List Answer)}
    (hrun : run ⟨start, empty areaId start⟩ turns = .ok out) (hticks : AgedByTicks (calls areaId start turns)) :
    Telescoped start (calls areaId start turns) out.state := by
  obtain ⟨hfinal, hcalls⟩ := ticking_of_run hstart hrun hticks
  refine ⟨?_, hfinal.dated, ?_, ?_⟩
  · rintro ⟨s, op⟩ hcall rfl
    obtain ⟨before, after, hsplit⟩ := List.append_of_mem hcall
    have hs : Ticking start before s := hcalls before after _ hsplit
    have htick : Call.tick ⟨s, .ageTick⟩ = _ := lastAgeTick_ageTick s.state s.now
    have hle := Instant.later_since_le hs.tick_le
    refine ⟨hs.tick_eq, ?_, ?_, ?_⟩
    · rw [htick]
      exact hle
    · rw [htick]
      exact Instant.not_later_since_succ_le _ _
    · rw [htick]
      exact Instant.advance_of_le hs.inRange hle
  · rintro before after ⟨s, op⟩ hsplit rfl k r hr
    exact (hcalls before after _ hsplit).leaves_tick hr
  · intro ticks halone often hoften
    obtain ⟨hlast, hfind⟩ := find?_of_ticks hfinal.tick_le halone hoften
    obtain ⟨single, hsingle, hnow⟩ := exists_run_waits ticks hoften out.state.state
    have hwaits : TicksAlone (waits ticks) := by
      intro op hop
      simp [waits] at hop
    obtain ⟨hlast', hfind'⟩ := find?_of_ticks hfinal.tick_le hwaits hsingle
    refine ⟨single, hsingle, hnow, SortedMap.ext_find? fun k => ?_, ?_⟩
    · rw [hfind, hfind', hnow]
    · rw [hlast, hlast', hnow]

/-- a Router-LSA is originated half a second after the start, another LSA comes in five seconds before its end; the ticks
fall between the seconds -/
def unevenTicks : List (Turn Op) :=
  [.wait (.ofMillis 500), .perform (.installRouterLsa ⟨1⟩ ⟨0⟩ []), .wait (.ofMillis 700), .perform .ageTick,
    .perform (.receive ⟨3595, .external, LsaKind.router.type, ⟨2⟩, ⟨2⟩, some 1, none, none⟩ (.router ⟨⟨0⟩, []⟩)),
    .wait (.ofMillis 1900), .perform .ageTick, .wait (.ofMillis 2900)]

/-- By then the first is three seconds older and the second two; with the next tick the second goes. -/
theorem ticks_telescope_uneven :
    ∃ out, run ⟨.start, empty .unspecified .start⟩ unevenTicks = .ok out ∧
      AgedByTicks (calls .unspecified .start unevenTicks) ∧
      Telescoped .start (calls .unspecified .start unevenTicks) out.state ∧
      out.state.state.lastAgeTick = Instant.start.later (.ofSeconds 3) ∧
      out.state.state.headers.map (fun hdr => (hdr.lsaId, hdr.age)) = [(⟨1⟩, 3), (⟨2⟩, 3597)] ∧
      ((out.state.state.ageTick out.state.now).state.headers.map fun hdr => (hdr.lsaId, hdr.age)) = [(⟨1⟩, 6)] := by
  have hticks : AgedByTicks (calls .unspecified .start unevenTicks) := by
    have hops : ∀ op ∈ (calls .unspecified .start unevenTicks).map Timed.Call.op,
        op = .ageTick ∨ op.aging? .start .start = none := by decide +kernel
    intro call hcall elapsed hop
    rcases hops call.op (List.mem_map_of_mem hcall) with htick | hnone
    · rw [hop] at htick
      cases htick
    · rw [hop] at hnone
      cases hnone
  obtain ⟨out, hrun, hlast, hheaders, hnext⟩ : ∃ out, run ⟨.start, empty .unspecified .start⟩ unevenTicks = .ok out ∧
      out.state.state.lastAgeTick = Instant.start.later (.ofSeconds 3) ∧
      out.state.state.headers.map (fun hdr => (hdr.lsaId, hdr.age)) = [(⟨1⟩, 3), (⟨2⟩, 3597)] ∧
      ((out.state.state.ageTick out.state.now).state.headers.map fun hdr => (hdr.lsaId, hdr.age)) = [(⟨1⟩, 6)] :=
    ⟨_, rfl, rfl, rfl, rfl⟩
  exact ⟨out, hrun, hticks, ticks_telescope (by decide) hrun hticks, hlast, hheaders, hnext⟩

end Database

end Ospf

end RoutingReplay
