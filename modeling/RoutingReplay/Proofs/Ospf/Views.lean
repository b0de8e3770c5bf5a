/-
The views of a database.

A view lists the LSAs of some known types. Each of them is a filter over the whole table, and nothing in the filters says
that together they miss no LSA. They do not because every record that a run can store has a header of the type of its
body (`Database.Sound`), and bodies are of known types only. And as keys are compared by type first, the table is sorted
by view, so the views in their order make up the table in its order (`views_partition`).

- `lsasOfKind_eq`: a view lists the LSAs whose bodies are of its kinds.
- `LsaKind.view_le_of_code_le`: the views stand in the order of the types.
-/
import Mathlib.Tactic
import RoutingReplay.Proofs.Ospf.Reachable

namespace RoutingReplay.Ospf

/-! ## The order of LSAs and of views -/

/-- one LSA comes before another: by type, then by advertising router, then by link state ID, all as numbers -/
def Lsa.Precedes (a b : Lsa) : Prop :=
  a.hdr.lsaType.code < b.hdr.lsaType.code ∨ a.hdr.lsaType = b.hdr.lsaType ∧
    (a.hdr.advRouter.bits < b.hdr.advRouter.bits ∨ a.hdr.advRouter = b.hdr.advRouter ∧
      a.hdr.lsaId.bits < b.hdr.lsaId.bits)

/-- keys are compared part by part -/
theorem LsaKey.lt_iff {k k' : LsaKey} : k < k' ↔ k.lsaType.code < k'.lsaType.code ∨ k.lsaType = k'.lsaType ∧
    (k.advRouter.bits < k'.advRouter.bits ∨ k.advRouter = k'.advRouter ∧ k.lsaId.bits < k'.lsaId.bits) := by
  have htype : k.lsaType.code.toNat = k'.lsaType.code.toNat ↔ k.lsaType = k'.lsaType := by
    rw [UInt8.toNat_inj]
    exact ⟨fun h => congrArg LsaType.mk h, fun h => congrArg LsaType.code h⟩
  rw [← htype]
  rfl

theorem Lsa.Precedes.ne {a b : Lsa} (h : a.Precedes b) : a ≠ b := by
  rintro rfl
  have hkey : a.hdr.key < a.hdr.key := LsaKey.lt_iff.mpr h
  exact KeyOrder.irrefl _ hkey

/-- the place of the view that lists the LSAs of a kind -/
def LsaKind.view : LsaKind → Nat
  | .router => 0
  | .network => 1
  | .summaryNetwork | .summaryRouter => 2
  | .asExternal => 3
  | .nssaExternal => 4

theorem LsaKind.view_lt (k : LsaKind) : k.view < 5 := by cases k <;> decide

/-- The views stand in the order of the types. -/
theorem LsaKind.view_le_of_code_le {k k' : LsaKind} (h : k.type.code ≤ k'.type.code) : k.view ≤ k'.view := by
  revert h
  cases k <;> cases k' <;> decide

/-- In a list that is sorted by a number, those with a smaller number stand in front of those with the number itself. -/
theorem filter_lt_append_filter_eq {α : Type} {rank : α → Nat} {l : List α}
    (h : l.Pairwise fun a b => rank a ≤ rank b) (n : Nat) :
    (l.filter fun a => decide (rank a < n)) ++ (l.filter fun a => decide (rank a = n)) =
      l.filter fun a => decide (rank a < n + 1) := by
  induction l with
  | nil => rfl
  | cons a rest ih =>
    obtain ⟨hfirst, hrest⟩ := List.pairwise_cons.mp h
    have ih := ih hrest
    by_cases hlt : rank a < n
    · have hle : rank a < n + 1 := by omega
      have hne : ¬ rank a = n := by omega
      simp only [List.filter_cons, decide_eq_true_eq, hlt, hle, hne, if_true, if_false, List.cons_append, ih]
    · -- nothing with a smaller number comes later
      have hnone : (rest.filter fun b => decide (rank b < n)) = [] := by
        refine List.filter_eq_nil_iff.mpr fun b hb => ?_
        have := hfirst b hb
        simp only [decide_eq_true_eq]
        omega
      rw [hnone, List.nil_append] at ih
      by_cases heq : rank a = n
      · simp [heq, hnone, ih]
      · have hgt : ¬ rank a < n + 1 := by omega
        simp only [List.filter_cons, decide_eq_true_eq, hlt, heq, hgt, if_false, hnone, List.nil_append, ih]

namespace Database

variable {db : Database}

theorem mem_lsas {lsa : Lsa} : lsa ∈ db.lsas ↔ ∃ k, ∃ r ∈ db.table.find? k, r.lsa = lsa := by
  simp only [lsas, List.mem_map, SortedMap.mem_values_iff, Option.mem_def]
  constructor
  · rintro ⟨r, ⟨k, hr⟩, hlsa⟩
    exact ⟨k, r, hr, hlsa⟩
  · rintro ⟨k, r, hr, hlsa⟩
    exact ⟨r, ⟨k, hr⟩, hlsa⟩

theorem lsas_eq_map_entries (db : Database) : db.lsas = db.table.entries.map fun e => e.2.lsa := List.map_map

theorem sound_of_mem_entries (h : db.Sound) {e : LsaKey × Record} (he : e ∈ db.table.entries) : e.2.Sound e.1 :=
  h e.1 e.2 (SortedMap.find?_eq_some_iff.mpr he)

/-- the LSAs stand in the order of their keys -/
theorem pairwise_lsas (h : db.Sound) : db.lsas.Pairwise Lsa.Precedes := by
  rw [lsas_eq_map_entries, List.pairwise_map]
  refine db.table.ascending.imp_of_mem fun {e e'} he he' hlt => ?_
  rw [← (sound_of_mem_entries h he).key, ← (sound_of_mem_entries h he').key] at hlt
  exact LsaKey.lt_iff.mp hlt

/-! ## One view and all of them -/

/-- **A view lists the LSAs whose bodies are of its kinds**, in the order of the table. -/
theorem lsasOfKind_eq (h : db.Sound) (p : LsaKind → Bool) :
    db.lsasOfKind p = db.lsas.filter fun lsa => p lsa.body.kind := by
  rw [lsasOfKind, lsas_eq_map_entries, List.filter_map]
  refine congrArg _ (List.filter_congr fun e he => ?_)
  have hsound := sound_of_mem_entries h he
  have hkind : e.1.lsaType.kind? = some e.2.lsa.body.kind := by
    rw [← LsaType.kind?_type, ← hsound.key]
    exact congrArg LsaType.kind? hsound.type
  rw [hkind]
  rfl

/-- the LSAs of one view -/
def lsasInView (db : Database) (n : Nat) : List Lsa := db.lsas.filter fun lsa => decide (lsa.body.kind.view = n)

theorem lsasOfKind_eq_lsasInView (h : db.Sound) {p : LsaKind → Bool} {n : Nat}
    (hp : ∀ k : LsaKind, p k = decide (k.view = n)) : db.lsasOfKind p = db.lsasInView n := by
  rw [lsasOfKind_eq h]
  exact List.filter_congr fun lsa _ => hp lsa.body.kind

/-- the LSAs are sorted by view -/
theorem pairwise_view (h : db.Sound) : db.lsas.Pairwise fun a b => a.body.kind.view ≤ b.body.kind.view := by
  have htype : ∀ lsa ∈ db.lsas, lsa.hdr.lsaType = lsa.body.kind.type := by
    intro lsa hlsa
    obtain ⟨k, r, hr, rfl⟩ := mem_lsas.mp hlsa
    exact (h k r hr).type
  refine (pairwise_lsas h).imp_of_mem fun {a b} ha hb hprecedes => LsaKind.view_le_of_code_le ?_
  rw [← htype a ha, ← htype b hb]
  rcases hprecedes with hlt | ⟨heq, -⟩
  · exact UInt8.le_of_lt hlt
  · exact heq ▸ UInt8.le_refl _

/-- the views in their order make up the table -/
theorem append_views (h : db.Sound) :
    db.lsasInView 0 ++ db.lsasInView 1 ++ db.lsasInView 2 ++ db.lsasInView 3 ++ db.lsasInView 4 = db.lsas := by
  have hfirst : db.lsasInView 0 = db.lsas.filter fun lsa => decide (lsa.body.kind.view < 0 + 1) :=
    List.filter_congr fun lsa _ => by simp
  have hall : (db.lsas.filter fun lsa => decide (lsa.body.kind.view < 4 + 1)) = db.lsas :=
    List.filter_eq_self.mpr fun lsa _ => decide_eq_true lsa.body.kind.view_lt
  have hnext := filter_lt_append_filter_eq (pairwise_view h)
  rw [hfirst]
  simp only [lsasInView, hnext]
  exact hall

/-! ## Look-ups -/

/-- a look-up finds the LSA of the table with these three values in its header -/
theorem find?_eq_some_iff (h : db.Sound) {lsaType : LsaType} {lsaId advRouter : Address4} {lsa : Lsa} :
    db.find? lsaType lsaId advRouter = some lsa ↔
      lsa ∈ db.lsas ∧ lsa.hdr.lsaType = lsaType ∧ lsa.hdr.lsaId = lsaId ∧ lsa.hdr.advRouter = advRouter := by
  rw [find?, Option.map_eq_some_iff, mem_lsas]
  constructor
  · rintro ⟨r, hr, rfl⟩
    have hkey := (h _ r hr).key
    exact ⟨⟨_, r, hr, rfl⟩, congrArg LsaKey.lsaType hkey, congrArg LsaKey.lsaId hkey, congrArg LsaKey.advRouter hkey⟩
  · rintro ⟨⟨k, r, hr, rfl⟩, rfl, rfl, rfl⟩
    obtain rfl : r.lsa.hdr.key = k := (h k r hr).key
    exact ⟨r, hr, rfl⟩

/-! ## Main result -/

/-- what the views and look-ups of a database say about its LSAs -/
structure Viewed (db : Database) : Prop where
  ascending : db.lsas.Pairwise Lsa.Precedes
  nodup : db.lsas.Nodup
  headers_eq : db.headers = db.lsas.map Lsa.hdr
  size_eq : db.size = db.lsas.length
  partition : db.routerLsas ++ db.networkLsas ++ db.summaryLsas ++ db.externalLsas ++ db.nssaLsas = db.lsas
  found_iff : ∀ lsaType lsaId advRouter lsa, db.find? lsaType lsaId advRouter = some lsa ↔
    lsa ∈ db.lsas ∧ lsa.hdr.lsaType = lsaType ∧ lsa.hdr.lsaId = lsaId ∧ lsa.hdr.advRouter = advRouter
  absent_iff : ∀ lsaType lsaId advRouter, db.find? lsaType lsaId advRouter = none ↔
    ∀ lsa ∈ db.lsas, ¬ (lsa.hdr.lsaType = lsaType ∧ lsa.hdr.lsaId = lsaId ∧ lsa.hdr.advRouter = advRouter)

/-- **The views partition the database.** In every state that runs lead to, the LSAs are listed in the strict order of
type, advertising router and link state ID. The lists of Router-LSAs, Network-LSAs, summaries, AS-external LSAs and
NSSA-external LSAs, one after another, are that list; a look-up finds the LSA of the list that has the three values in
its header, if there is one. -/
theorem views_partition {s : Timed Database} (h : Reachable s) : Viewed s.state := by
  have hsound := sound_of_reachable h
  have hascending := pairwise_lsas hsound
  constructor
  case ascending => exact hascending
  case nodup => exact hascending.imp Lsa.Precedes.ne
  case headers_eq => rfl
  case size_eq => simp [size, SortedMap.size, lsas_eq_map_entries]
  case partition =>
    have hview : ∀ (p : LsaKind → Bool) (n : Nat), (∀ k : LsaKind, p k = decide (k.view = n)) →
        s.state.lsasOfKind p = s.state.lsasInView n := fun p n => lsasOfKind_eq_lsasInView hsound
    rw [routerLsas, networkLsas, summaryLsas, externalLsas, nssaLsas, hview _ 0 (by rintro ⟨⟩ <;> rfl),
      hview _ 1 (by rintro ⟨⟩ <;> rfl), hview _ 2 (by rintro ⟨⟩ <;> rfl), hview _ 3 (by rintro ⟨⟩ <;> rfl),
      hview _ 4 (by rintro ⟨⟩ <;> rfl)]
    exact append_views hsound
  case found_iff =>
    intro lsaType lsaId advRouter lsa
    exact find?_eq_some_iff hsound
  case absent_iff =>
    intro lsaType lsaId advRouter
    rw [Option.eq_none_iff_forall_ne_some]
    constructor
    · intro hnone lsa hlsa hvalues
      exact hnone lsa ((find?_eq_some_iff hsound).mpr ⟨hlsa, hvalues⟩)
    · intro hnone lsa hfound
      obtain ⟨hlsa, hvalues⟩ := (find?_eq_some_iff hsound).mp hfound
      exact hnone lsa hlsa hvalues

/-- a neighbour sends LSAs of both kinds of summaries, of one type for two link state IDs, and with a type that does not
fit; the local router adds its own -/
def unsortedArrivals : List (Turn Op) :=
  let summary : SummaryBody := ⟨.unspecified, 7⟩
  let header (lsaType : LsaType) (lsaId : Address4) : Header := ⟨0, .external, lsaType, lsaId, ⟨9⟩, some 1, none, none⟩
  [.perform (.receive (header LsaKind.summaryRouter.type ⟨5⟩) (.summaryRouter summary)),
    .perform (.receive (header LsaKind.summaryNetwork.type ⟨6⟩) (.summaryNetwork summary)),
    .perform (.receive (header ⟨6⟩ ⟨6⟩) (.summaryNetwork summary)),
    .perform (.receive (header LsaKind.summaryNetwork.type ⟨4⟩) (.summaryNetwork summary)),
    .perform (.installNssaLsa ⟨1⟩ ⟨⟨.unspecified, ⟨0, Nat.zero_lt_succ 32⟩⟩, 1, .type2, none, 0⟩),
    .perform (.installRouterLsa ⟨1⟩ ⟨0⟩ [])]

/-- The summaries stand between the two LSAs of the local router, those for networks first. -/
theorem views_partition_unsortedArrivals :
    ∃ s, Reachable s ∧ (s.state.headers.map fun hdr => (hdr.lsaType.code, hdr.lsaId.bits)) =
        [(1, 1), (3, 4), (3, 6), (4, 5), (7, 0)] ∧ s.state.summaryLsas.length = 3 ∧
      s.state.routerLsas ++ s.state.networkLsas ++ s.state.summaryLsas ++ s.state.externalLsas ++ s.state.nssaLsas =
        s.state.lsas ∧ Viewed s.state := by
  obtain ⟨s, hreach, hheaders, hsummaries⟩ : ∃ s, Reachable s ∧
      (s.state.headers.map fun hdr => (hdr.lsaType.code, hdr.lsaId.bits)) =
        [(1, 1), (3, 4), (3, 6), (4, 5), (7, 0)] ∧ s.state.summaryLsas.length = 3 :=
    ⟨_, ⟨.unspecified, .start, unsortedArrivals, _, rfl, rfl⟩, rfl, rfl⟩
  have hviewed := views_partition hreach
  exact ⟨s, hreach, hheaders, hsummaries, hviewed.partition, hviewed⟩

end Database

end RoutingReplay.Ospf
