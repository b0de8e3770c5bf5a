/-
Timely refreshes keep the LSAs of the local router alive.

A run refreshes in time if no stretch of it without a refresh ages the table by more than `refreshAge` seconds. The
records of the local router then never expire (`own_records_outlive_aging`): each of them stays until it is flushed,
cleared, originated anew or surpassed by what a neighbour sends.

What carries the induction is `Young`: a record of the local router is younger than `refreshAge` plus the seconds since
the last refresh. A refresh leaves none that has reached `refreshAge`, and an origination starts at age zero. Since
`maxAge` is twice `refreshAge`, a record that was one second too young for a refresh lives through one more stretch,
with one second to spare.
-/
import Mathlib.Data.List.DropRight
import RoutingReplay.Proofs.Ospf.Lifecycle
import RoutingReplay.Proofs.Trace

namespace RoutingReplay.Ospf.Database

/-- the seconds that a call adds to the ages -/
def Call.seconds (call : Call) : Nat := (call.op.aging? call.before.now call.before.state.lastAgeTick).getD 0

/-- the seconds that calls add to the ages, all together -/
def agedSeconds (calls : List Call) : Nat := (calls.map Call.seconds).sum

/-- no stretch without a refresh adds more than `refreshAge` seconds to the ages -/
def RefreshedInTime (calls : List Call) : Prop :=
  ∀ stretch, stretch <:+: calls → (∀ call ∈ stretch, call.op ≠ .refresh) → agedSeconds stretch ≤ refreshAge

/-- it is enough to look at the stretches that start somewhere and end somewhere later -/
theorem refreshedInTime_iff {calls : List Call} : RefreshedInTime calls ↔
    ∀ later ∈ calls.tails, ∀ stretch ∈ later.inits,
      (∀ call ∈ stretch, call.op ≠ .refresh) → agedSeconds stretch ≤ refreshAge := by
  simp only [List.mem_tails, List.mem_inits]
  constructor
  · intro h later hlater stretch hstretch
    exact h stretch (hstretch.isInfix.trans hlater.isInfix)
  · intro h stretch hstretch
    obtain ⟨later, hprefix, hsuffix⟩ := List.infix_iff_prefix_suffix.mp hstretch
    exact h later hsuffix stretch hprefix

instance (calls : List Call) : Decidable (RefreshedInTime calls) := decidable_of_iff _ refreshedInTime_iff.symm

/-- the calls since the last refresh -/
def sinceRefresh (calls : List Call) : List Call := calls.rtakeWhile fun call => call.op ≠ .refresh

theorem agedSeconds_sinceRefresh_append (calls : List Call) (call : Call) :
    agedSeconds (sinceRefresh (calls ++ [call])) =
      if call.op = .refresh then 0 else agedSeconds (sinceRefresh calls) + call.seconds := by
  rw [sinceRefresh, List.rtakeWhile_concat]
  by_cases h : call.op = .refresh
  · simp [h, agedSeconds]
  · simp [h, agedSeconds, sinceRefresh]

/-- the calls since the last refresh, together with the next call, are a stretch without a refresh -/
theorem RefreshedInTime.seconds_le {before after : List Call} {call : Call}
    (h : RefreshedInTime (before ++ call :: after)) (hcall : call.op ≠ .refresh) :
    agedSeconds (sinceRefresh before) + call.seconds ≤ refreshAge := by
  have hstretch : sinceRefresh before ++ [call] <:+: before ++ call :: after := by
    obtain ⟨first, hfirst⟩ := List.rtakeWhile_suffix (fun call : Call => decide (call.op ≠ .refresh)) before
    refine ⟨first, after, ?_⟩
    rw [← List.append_assoc, sinceRefresh, hfirst, List.append_assoc]
    rfl
  have hnone : ∀ c ∈ sinceRefresh before ++ [call], c.op ≠ .refresh := by
    intro c hc
    rcases List.mem_append.mp hc with hc | hc
    · simpa using List.mem_rtakeWhile_imp hc
    · rw [List.mem_singleton.mp hc]
      exact hcall
  have hle := h _ hstretch hnone
  simpa [agedSeconds] using hle

/-! ## The ages of own records -/

/-- the records of the local router are younger than `refreshAge` plus these seconds -/
def Young (db : Database) (seconds : Nat) : Prop :=
  ∀ k, ∀ r ∈ db.table.find? k, r.origin = .selfOriginated → r.lsa.hdr.age.toNat < refreshAge + seconds

theorem young_empty (areaId : Address4) (now : Instant) (seconds : Nat) : (empty areaId now).Young seconds := by
  intro k r hr
  cases hr

/-- What an operation leaves is young, counting from the last refresh. -/
theorem young_effect (op : Op) (now lastAgeTick : Instant) {k : LsaKey} {r? : Option Record} {seconds : Nat}
    (h : ∀ r ∈ r?, r.origin = .selfOriginated → r.lsa.hdr.age.toNat < refreshAge + seconds) :
    ∀ r ∈ op.effect now lastAgeTick k r?, r.origin = .selfOriginated → r.lsa.hdr.age.toNat < refreshAge +
      if op = .refresh then 0 else seconds + (op.aging? now lastAgeTick).getD 0 := by
  have hnew : ∀ n, (0 : UInt16).toNat < refreshAge + n := by
    intro n
    simp [refreshAge]
  intro r hr hown
  cases Op.source_of_mem_effect hr with
  | kept hold hkey hdue =>
    have hyoung := h r hold hown
    split
    · -- what is the local router's own and was not due had not reached `refreshAge`
      rename_i hrefresh
      simpa [Record.isDue, hown] using hdue hrefresh
    · omega
  | @aged elapsed old hop hold hlt =>
    have hyoung := h old hold hown
    have hrefresh : op ≠ .refresh := by
      rintro rfl
      cases hop
    have hage : (old.lsa.hdr.aged elapsed).age.toNat = min (old.lsa.hdr.age.toNat + elapsed) maxAge :=
      Header.age_aged _ _
    rw [if_neg hrefresh, hop]
    change (old.lsa.hdr.aged elapsed).age.toNat < _
    simp only [Option.getD_some]
    omega
  | offered => cases hown
  | built => exact hnew _
  | renewed => exact hnew _

theorem young_perform {s : Timed Database} {past : List Call} (hsound : s.state.Sound)
    (h : s.state.Young (agedSeconds (sinceRefresh past))) (op : Op) :
    (perform op s.now s.state).state.Young (agedSeconds (sinceRefresh (past ++ [⟨s, op⟩]))) := by
  intro k r hr hown
  rw [Option.mem_def, find?_perform hsound] at hr
  rw [agedSeconds_sinceRefresh_append]
  exact young_effect op s.now s.state.lastAgeTick (h k) r hr hown

/-- In every state of a run, own records are young, counting from the last refresh. -/
theorem young_of_calls {areaId : Address4} {start : Instant} {turns : List (Turn Op)} {before after : List Call}
    {call : Call} (h : calls areaId start turns = before ++ call :: after) :
    call.before.state.Sound ∧ call.before.state.Young (agedSeconds (sinceRefresh before)) := by
  refine Timed.history_of_trace (P := fun past s => s.state.Sound ∧ s.state.Young (agedSeconds (sinceRefresh past)))
    ?_ ?_ [] ⟨sound_empty areaId start, young_empty areaId start _⟩ h
  · intro past s d now hs _
    exact hs
  · intro past s op hs
    exact ⟨sound_perform hs.1 op s.now, young_perform hs.1 hs.2 op⟩

/-! ## What becomes of own records -/

/-- how a record of the local router may come to leave the table: what stands under its key after that -/
inductive Departure (op : Op) (now : Instant) (k : LsaKey) (r : Record) : Option Record → Prop
  | flushed (hop : op = .flush k) : Departure op now k r none
  | cleared (hop : op = .clear) : Departure op now k r none
  /-- a neighbour sends a more recent instance -/
  | surpassed {hdr : Header} {body : Body} (hop : op = .receive hdr body) (hkey : hdr.key = k)
      (hnewer : hdr.isNewer r.lsa.hdr = true) : Departure op now k r (some ⟨⟨hdr.aged 0, body, now⟩, .received⟩)
  /-- the local router originates its next instance -/
  | originatedAnew {r' : Record} (hown : r'.origin = .selfOriginated) (hkey : r'.lsa.hdr.key = k)
      (hop : op.Writes now (some r) r') : Departure op now k r (some r')

/-- what an operation puts in the place of a record makes it leave by being surpassed or originated anew -/
theorem Departure.of_writes {op : Op} {now : Instant} {k : LsaKey} {r r' : Record} (hwrites : op.Writes now (some r) r')
    (hkey : r'.lsa.hdr.key = k)
    (hnewer : ∀ hdr body, op = .receive hdr body → r'.lsa.hdr.isNewer r.lsa.hdr = true) :
    Departure op now k r (some r') := by
  have hbuilt : ∀ b : Build, b.Fits now r' → Departure op now k r (some r') := by
    rintro b ⟨seqNo, rfl⟩
    exact .originatedAnew rfl hkey hwrites
  cases op with
  | receive hdr body =>
    obtain rfl : r' = ⟨⟨hdr.aged 0, body, now⟩, .received⟩ := hwrites
    exact .surpassed rfl hkey (hnewer hdr body rfl)
  | installRouterLsa routerId flags links => exact hbuilt _ hwrites
  | installExternalLsa routerId route => exact hbuilt _ hwrites
  | installNssaLsa routerId route => exact hbuilt _ hwrites
  | refresh =>
    obtain ⟨r₀, -, hfits⟩ := hwrites
    exact hbuilt _ hfits
  | flush key => cases hwrites
  | age elapsed => cases hwrites
  | ageTick => cases hwrites
  | clear => cases hwrites

/-- Apart from ageing, an operation leaves a record as it is or makes it depart. -/
theorem departure_of_effect {op : Op} {now lastAgeTick : Instant} {k : LsaKey} {r : Record} (hsound : r.Sound k)
    (hop : op.aging? now lastAgeTick = none) :
    op.effect now lastAgeTick k (some r) = some r ∨
      Departure op now k r (op.effect now lastAgeTick k (some r)) := by
  have hstored : ∀ r' ∈ some r, Record.Sound k r' := by
    rintro r' ⟨⟩
    exact hsound
  have hkey : ∀ r' ∈ op.effect now lastAgeTick k (some r), r'.lsa.hdr.key = k :=
    fun r' hr' => (op.sound_effect now lastAgeTick hstored r' hr').key
  obtain ⟨m, hm⟩ := exists_move_effect op now lastAgeTick hstored
  cases m with
  | kept => exact Or.inl hm
  | aged =>
    obtain ⟨elapsed, haging, -⟩ := hm
    rw [hop] at haging
    cases haging
  | added =>
    obtain ⟨hnone, -⟩ := hm
    cases hnone
  | superseded =>
    obtain ⟨_, ⟨⟩, r', hnew, hwrites, hnewer⟩ := hm
    right
    rw [hnew]
    exact .of_writes hwrites (hkey r' hnew) fun _ _ _ => hnewer
  | restarted =>
    obtain ⟨_, ⟨⟩, r', hnew, hwrites, -, horigin, -⟩ := hm
    right
    rw [hnew]
    refine .of_writes hwrites (hkey r' hnew) ?_
    rintro hdr body rfl
    cases hwrites
    cases horigin
  | removed =>
    obtain ⟨hnone, _, ⟨⟩, hclear | ⟨elapsed, haging, -⟩ | ⟨hflush, -⟩⟩ := hm
    · exact Or.inr (hnone ▸ .cleared hclear)
    · rw [hop] at haging
      cases haging
    · exact Or.inr (hnone ▸ .flushed hflush)

/-- **Timely refreshes keep own records alive.** In a run that refreshes in time, an operation that ages the table leaves
every record of the local router in it, older but below `maxAge`. Any other operation leaves it as it is, unless it
flushes or clears it, a neighbour has sent a more recent instance, or the local router originates the next one. -/
theorem own_records_outlive_aging {areaId : Address4} {start : Instant} {turns : List (Turn Op)}
    (htimely : RefreshedInTime (calls areaId start turns)) {call : Call} (hcall : call ∈ calls areaId start turns)
    {k : LsaKey} {r : Record} (hstored : call.before.state.table.find? k = some r)
    (hown : r.origin = .selfOriginated) :
    (∀ elapsed ∈ call.op.aging? call.before.now call.before.state.lastAgeTick,
      call.leaves k = some (r.aged elapsed) ∧ (r.aged elapsed).lsa.hdr.age.toNat = r.lsa.hdr.age.toNat + elapsed ∧
        r.lsa.hdr.age.toNat + elapsed < maxAge) ∧
      (call.op.aging? call.before.now call.before.state.lastAgeTick = none →
        call.leaves k = some r ∨ Departure call.op call.before.now k r (call.leaves k)) := by
  obtain ⟨before, after, hsplit⟩ := List.append_of_mem hcall
  obtain ⟨hsound, hyoung⟩ := young_of_calls hsplit
  have hleaves : call.leaves k = call.op.effect call.before.now call.before.state.lastAgeTick k (some r) := by
    rw [Call.leaves, find?_perform hsound, hstored]
  rw [hleaves]
  refine ⟨?_, departure_of_effect (hsound k r hstored)⟩
  intro elapsed haging
  have hop : call.op ≠ .refresh := by
    intro hrefresh
    rw [hrefresh] at haging
    cases haging
  have hseconds : call.seconds = elapsed := by
    rw [Call.seconds, haging]
    rfl
  have hpace : agedSeconds (sinceRefresh before) + elapsed ≤ refreshAge := by
    rw [hsplit] at htimely
    exact hseconds ▸ htimely.seconds_le hop
  have hage : r.lsa.hdr.age.toNat < refreshAge + agedSeconds (sinceRefresh before) := hyoung k r hstored hown
  have hlt : r.lsa.hdr.age.toNat + elapsed < maxAge := by
    have htwice : maxAge = refreshAge + refreshAge := rfl
    omega
  refine ⟨?_, ?_, hlt⟩
  · rw [Op.effect_of_aging haging, afterAging_some, if_pos hlt]
  · change (r.lsa.hdr.aged elapsed).age.toNat = _
    rw [Header.age_aged]
    omega

/-- the local router originates its Router-LSA; the first refresh comes a second before it is due, the next one as late
as is allowed -/
def barelyRefreshed : List (Turn Op) :=
  [.perform (.installRouterLsa ⟨1⟩ ⟨0⟩ []), .perform (.age 1799), .perform .refresh, .wait (.ofSeconds 1800),
    .perform .ageTick, .perform .refresh]

/-- The LSA lives on with a second to spare. -/
theorem own_records_outlive_aging_barely :
    RefreshedInTime (calls .unspecified .start barelyRefreshed) ∧
      ∃ call ∈ calls .unspecified .start barelyRefreshed, ∃ r, call.op = .ageTick ∧
        call.before.state.table.find? ⟨⟨1⟩, ⟨1⟩, ⟨1⟩⟩ = some r ∧ r.origin = .selfOriginated ∧ r.lsa.hdr.age = 1799 ∧
          call.leaves ⟨⟨1⟩, ⟨1⟩, ⟨1⟩⟩ = some (r.aged 1800) ∧ r.lsa.hdr.age.toNat + 1800 < maxAge := by
  have htimely : RefreshedInTime (calls .unspecified .start barelyRefreshed) := by decide +kernel
  have hfound : ∃ call ∈ calls .unspecified .start barelyRefreshed, call.op = .ageTick ∧
      call.op.aging? call.before.now call.before.state.lastAgeTick = some 1800 ∧
        (call.before.state.table.find? ⟨⟨1⟩, ⟨1⟩, ⟨1⟩⟩).any
          (fun r => r.origin = .selfOriginated ∧ r.lsa.hdr.age = 1799) = true := by decide +kernel
  obtain ⟨call, hcall, hop, haging, hany⟩ := hfound
  obtain ⟨r, hstored, hr⟩ := (Option.any_eq_true _ _).mp hany
  obtain ⟨hown, hage⟩ := of_decide_eq_true hr
  obtain ⟨hleaves, -, hlt⟩ := (own_records_outlive_aging htimely hcall hstored hown).1 1800 haging
  exact ⟨htimely, call, hcall, r, hop, hstored, hown, hage, hleaves, hlt⟩

end RoutingReplay.Ospf.Database
