/-
What a tick charges a record.

All records share the time of the last tick. So a record that comes in between two ticks is charged for all the seconds
since the earlier one, also for those that had passed when it came in (`Call.pending`). If the pause was long, the next
tick makes the record older than it is, and it may expire at once (`late_arrival_overcharged`). There is no other charge
ahead of time: a record is at most as many seconds older than when it was installed as were pending then and have begun
since (`ticks_charge`).

Which call installed a record is known from `Dated`; a key has one last installation (`LastInstallation.unique`).
-/
import RoutingReplay.Proofs.Ospf.Ticks

namespace RoutingReplay

/-- the seconds that have begun -/
def Duration.secondsUp (d : Duration) : Nat := (d.nanos + 999999999) / 1000000000

namespace Instant

/-- The whole seconds of two stretches of time are at most the whole seconds of the first and the begun ones of the
second. -/
theorem seconds_since_le (now mid t : Instant) :
    (now.since t).seconds ≤ (mid.since t).seconds + (now.since mid).secondsUp := by
  simp only [since, Duration.seconds, Duration.secondsUp]
  omega

/-- the whole seconds that have passed are known from the last whole second -/
theorem seconds_since_eq {t now : Instant} {n : Nat} (h : t.later (.ofSeconds n) ≤ now)
    (hnext : ¬ (t.later (.ofSeconds n)).later (.ofSeconds 1) ≤ now) : (now.since t).seconds = n := by
  have hle : t.sinceStart.nanos + n * 1000000000 ≤ now.sinceStart.nanos := h
  have hlt : ¬ t.sinceStart.nanos + n * 1000000000 + 1 * 1000000000 ≤ now.sinceStart.nanos := hnext
  change (now.sinceStart.nanos - t.sinceStart.nanos) / 1000000000 = n
  omega

end Instant

namespace Ospf.Database

/-- the whole seconds that no tick has counted when a call is done -/
def Call.pending (call : Call) : Nat := (call.before.now.since call.tick).seconds

/-- a tick leaves a record at most `n` seconds older than when it was installed, and it removes the record only if this
is `maxAge` -/
structure ChargesAtMost (tick : Call) (k : LsaKey) (installed : Record) (n : Nat) : Prop where
  age_le : ∀ r ∈ tick.leaves k, r.lsa.hdr.age.toNat ≤ installed.lsa.hdr.age.toNat + n
  maxAge_le : tick.leaves k = none → maxAge ≤ installed.lsa.hdr.age.toNat + n

/-- a key has one last installation -/
theorem LastInstallation.unique {past : List Call} {k : LsaKey} {call call' : Call} {r r' : Record}
    (h : LastInstallation past k call r) (h' : LastInstallation past k call' r') : call = call' ∧ r = r' := by
  obtain ⟨before, after, hpast, hinstalls, hafter⟩ := h
  obtain ⟨before', after', hpast', hinstalls', hafter'⟩ := h'
  have hcall : call = call' := by
    rcases List.append_eq_append_iff.mp (hpast.symm.trans hpast') with ⟨between, -, hrest⟩ | ⟨between, -, hrest⟩
    · cases between with
      | nil => exact (List.cons.inj hrest).1
      | cons _ rest =>
        rw [(List.cons.inj hrest).2] at hafter
        exact absurd hinstalls' (hafter call' (List.mem_append_right _ List.mem_cons_self) r')
    · cases between with
      | nil => exact (List.cons.inj hrest).1.symm
      | cons _ rest =>
        rw [(List.cons.inj hrest).2] at hafter'
        exact absurd hinstalls (hafter' call (List.mem_append_right _ List.mem_cons_self) r)
  subst hcall
  exact ⟨rfl, Option.some.inj (hinstalls.2.1.symm.trans hinstalls'.2.1)⟩

/-- **A tick charges a record for the seconds since the last tick before its installation.** -/
theorem Ticking.leaves_tick_of_installation {start : Instant} {past : List Call} {s : Timed Database}
    (h : Ticking start past s) {k : LsaKey} {installation : Call} {r₀ : Record}
    (hlast : LastInstallation past k installation r₀) (hstored : (s.state.table.find? k).isSome = true) :
    Call.leaves ⟨s, .ageTick⟩ k =
      if r₀.lsa.hdr.age.toNat + (s.now.since installation.tick).seconds < maxAge then
        some (r₀.aged (s.now.since installation.tick).seconds) else none := by
  obtain ⟨r, hr⟩ := Option.isSome_iff_exists.mp hstored
  obtain ⟨call, r', elapsed, hlast', htick, hleaves⟩ := h.leaves_tick hr
  obtain ⟨rfl, rfl⟩ := hlast'.unique hlast
  have hmoved : Call.tick ⟨s, .ageTick⟩ = _ := lastAgeTick_ageTick s.state s.now
  have hle : Call.tick ⟨s, .ageTick⟩ ≤ s.now := hmoved ▸ Instant.later_since_le h.tick_le
  have hnext : ¬ (Call.tick ⟨s, .ageTick⟩).later (.ofSeconds 1) ≤ s.now := hmoved ▸ Instant.not_later_since_succ_le _ _
  rw [htick] at hle hnext
  rw [hleaves, Instant.seconds_since_eq hle hnext]

/-- what comes to a record that has been charged some seconds -/
theorem ChargesAtMost.of_leaves {tick : Call} {k : LsaKey} {r₀ : Record} {elapsed n : Nat}
    (hleaves : tick.leaves k = if r₀.lsa.hdr.age.toNat + elapsed < maxAge then some (r₀.aged elapsed) else none)
    (hle : elapsed ≤ n) : ChargesAtMost tick k r₀ n := by
  constructor
  case age_le =>
    intro r hr
    rw [Option.mem_def, hleaves] at hr
    split_ifs at hr
    obtain rfl := Option.some.inj hr
    have hage : (r₀.aged elapsed).lsa.hdr.age.toNat = min (r₀.lsa.hdr.age.toNat + elapsed) maxAge := Header.age_aged _ _
    omega
  case maxAge_le =>
    intro hgone
    rw [hleaves] at hgone
    split_ifs at hgone with hlt
    omega

/-! ## Main result -/

/-- **What ticks charge.** In a run in which only ticks age the table, a tick charges a record that is still there for the
seconds since the last tick before its installation. This makes the record older by at most the seconds that were pending
at its installation and those that have begun since, and it goes only if that makes `maxAge`. -/
theorem ticks_charge {areaId : Address4} {start : Instant} (hstart : start.sinceStart.seconds < Instant.range)
    {turns : List (Turn Op)} {out : Outcome (Timed Database) Notice (List Answer)}
    (hrun : run ⟨start, empty areaId start⟩ turns = .ok out) (hticks : AgedByTicks (calls areaId start turns))
    {before after : List Call} {tick : Call} (hsplit : calls areaId start turns = before ++ tick :: after)
    (hop : tick.op = .ageTick) {k : LsaKey} {installation : Call} {r₀ : Record}
    (hlast : LastInstallation before k installation r₀)
    (hstored : (tick.before.state.table.find? k).isSome = true) :
    (tick.leaves k =
      if r₀.lsa.hdr.age.toNat + (tick.before.now.since installation.tick).seconds < maxAge then
        some (r₀.aged (tick.before.now.since installation.tick).seconds) else none) ∧
      ChargesAtMost tick k r₀
        (installation.pending + (tick.before.now.since installation.before.now).secondsUp) := by
  obtain ⟨s, op⟩ := tick
  obtain rfl : op = .ageTick := hop
  have hs : Ticking start before s := (ticking_of_run hstart hrun hticks).2 before after _ hsplit
  have hleaves := hs.leaves_tick_of_installation hlast hstored
  exact ⟨hleaves, .of_leaves hleaves (Instant.seconds_since_le _ _ _)⟩

/-! ### A late arrival -/

/-- a Router-LSA of another router, five seconds before its end -/
def lateRecord : Record :=
  ⟨⟨⟨3595, .external, LsaKind.router.type, ⟨2⟩, ⟨2⟩, some 1, none, none⟩, .router ⟨⟨0⟩, []⟩,
    Instant.start.later (.ofSeconds 5)⟩, .received⟩

/-- it comes in when no tick has counted five seconds, and then there is a tick at once -/
def lateArrival : List (Turn Op) :=
  [.wait (.ofSeconds 5), .perform (.receive lateRecord.lsa.hdr lateRecord.lsa.body), .perform .ageTick]

def lateReception : Call :=
  ⟨⟨Instant.start.later (.ofSeconds 5), empty .unspecified .start⟩, .receive lateRecord.lsa.hdr lateRecord.lsa.body⟩

def lateTick : Call :=
  ⟨{ lateReception.before with
      state := (perform lateReception.op lateReception.before.now lateReception.before.state).state }, .ageTick⟩

theorem calls_lateArrival : calls .unspecified .start lateArrival = [lateReception] ++ lateTick :: [] := rfl

theorem agedByTicks_lateArrival : AgedByTicks (calls .unspecified .start lateArrival) := by
  rw [calls_lateArrival]
  intro call hcall elapsed
  rcases List.mem_cons.mp hcall with rfl | hcall
  · simp [lateReception]
  · obtain rfl := List.mem_singleton.mp hcall
    simp [lateTick]

theorem lateReception_installs : LastInstallation [lateReception] lateRecord.lsa.hdr.key lateReception lateRecord := by
  have hinstalls : lateReception.Installs lateRecord.lsa.hdr.key lateRecord :=
    ⟨by simp [lateReception], rfl, by simp [lateReception, empty, SortedMap.find?_empty]⟩
  exact ⟨[], [], rfl, hinstalls, by simp⟩

/-- The tick may charge it five seconds, and this makes `maxAge`. -/
theorem ticks_charge_late_arrival : ∃ out, run ⟨.start, empty .unspecified .start⟩ lateArrival = .ok out ∧
    lateReception.pending = 5 ∧ lateTick.before.now = lateReception.before.now ∧
      (lateTick.before.state.table.find? lateRecord.lsa.hdr.key).isSome = true ∧
        ChargesAtMost lateTick lateRecord.lsa.hdr.key lateRecord 5 := by
  refine ⟨_, rfl, rfl, rfl, rfl, ?_⟩
  exact (ticks_charge (by decide) rfl agedByTicks_lateArrival calls_lateArrival rfl lateReception_installs rfl).2

/-- Ticks charge a record ahead of time: no second has begun since this one was installed, and it goes though five
seconds are missing to `maxAge`. -/
theorem late_arrival_overcharged : ∃ out, run ⟨.start, empty .unspecified .start⟩ lateArrival = .ok out ∧
    AgedByTicks (calls .unspecified .start lateArrival) ∧
      calls .unspecified .start lateArrival = [lateReception] ++ lateTick :: [] ∧ lateTick.op = .ageTick ∧
        LastInstallation [lateReception] lateRecord.lsa.hdr.key lateReception lateRecord ∧
          (lateTick.before.state.table.find? lateRecord.lsa.hdr.key).isSome = true ∧
            ¬ ChargesAtMost lateTick lateRecord.lsa.hdr.key lateRecord
              (lateTick.before.now.since lateReception.before.now).secondsUp := by
  refine ⟨_, rfl, agedByTicks_lateArrival, calls_lateArrival, rfl, lateReception_installs, rfl, ?_⟩
  intro hcharged
  have hgone : lateTick.leaves lateRecord.lsa.hdr.key = none := rfl
  have hage := hcharged.maxAge_le hgone
  revert hage
  decide

end Ospf.Database

end RoutingReplay
