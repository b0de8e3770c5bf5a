/-
Recency as an order on numbers.

`Header.rank` gives every header a natural number: zero without a sequence number, else the place of its sequence number
and checksum among all pairs of the two. Recency is the order of these ranks (`recency_eq_compare`), so it is total,
transitive and the same for any two headers that agree on the sequence number and the checksum; after this file nobody
needs to look into `Header.recency` again.

`Header.precedence` says the same without an encoding, as a pair that may be missing. Ranks are in the order of
precedences (`precedence_lt_iff`), and the laws of recency (`recency_totalPreorder`) are laws of the order of numbers.
-/
import Mathlib.Tactic
import Mathlib.Data.Prod.Lex
import Mathlib.Order.WithBot
import RoutingReplay.Ospf.Header

namespace RoutingReplay.Ospf.Header

/-- the place of a header among all headers, by recency -/
def rank (h : Header) : Nat :=
  match h.seqNo with
  | none => 0
  | some s => (signedSeqNo s + 2 ^ 31).toNat * 2 ^ 16 + (h.checksum.getD 0).toNat + 1

theorem signedSeqNo_bounds (s : UInt32) : -2 ^ 31 ≤ signedSeqNo s ∧ signedSeqNo s < 2 ^ 31 :=
  ⟨Int32.le_toInt _, Int32.toInt_lt _⟩

/-- **Recency is the order of the ranks.** -/
theorem recency_eq_compare (a b : Header) : recency a b = compare a.rank b.rank := by
  cases ha : a.seqNo with
  | none =>
    cases hb : b.seqNo with
    | none => simp [recency, rank, ha, hb]
    | some t =>
      simp only [recency, rank, ha, hb]
      exact (Nat.compare_eq_lt.mpr (Nat.succ_pos _)).symm
  | some s =>
    cases hb : b.seqNo with
    | none =>
      simp only [recency, rank, ha, hb]
      exact (Nat.compare_eq_gt.mpr (Nat.succ_pos _)).symm
    | some t =>
      have hs := signedSeqNo_bounds s
      have ht := signedSeqNo_bounds t
      have hca : (a.checksum.getD 0).toNat < 2 ^ 16 := UInt16.toNat_lt _
      have hcb : (b.checksum.getD 0).toNat < 2 ^ 16 := UInt16.toNat_lt _
      simp only [recency, rank, ha, hb]
      rcases lt_trichotomy (signedSeqNo s) (signedSeqNo t) with h | h | h
      · rw [compare_lt_iff_lt.mpr h, Ordering.lt_then, eq_comm, Nat.compare_eq_lt]
        omega
      · rw [h, compare_eq_iff_eq.mpr rfl, Ordering.eq_then]
        rcases Nat.lt_trichotomy (a.checksum.getD 0).toNat (b.checksum.getD 0).toNat with hc | hc | hc
        · rw [Nat.compare_eq_lt.mpr hc, eq_comm, Nat.compare_eq_lt]
          omega
        · rw [hc, Nat.compare_eq_eq.mpr rfl, eq_comm, Nat.compare_eq_eq]
        · rw [Nat.compare_eq_gt.mpr hc, eq_comm, Nat.compare_eq_gt]
          omega
      · rw [compare_gt_iff_gt.mpr h, Ordering.gt_then, eq_comm, Nat.compare_eq_gt]
        omega

theorem recency_eq_gt_iff {a b : Header} : recency a b = .gt ↔ b.rank < a.rank := by
  rw [recency_eq_compare, Nat.compare_eq_gt]

theorem isNewer_iff {a b : Header} : a.isNewer b = true ↔ b.rank < a.rank := by
  rw [isNewer, beq_iff_eq, recency_eq_gt_iff]

theorem recency_eq_iff {a b : Header} : recency a b = .eq ↔ a.rank = b.rank := by
  rw [recency_eq_compare, Nat.compare_eq_eq]

theorem recency_ne_lt_iff {a b : Header} : recency a b ≠ .lt ↔ b.rank ≤ a.rank := by
  rw [recency_eq_compare, ne_eq, Nat.compare_eq_lt, Nat.not_lt]

/-- Nothing but the sequence number and the checksum counts. -/
theorem rank_congr {a b : Header} (hseqNo : a.seqNo = b.seqNo) (hchecksum : a.checksum = b.checksum) :
    a.rank = b.rank := by
  rw [rank, rank, hseqNo, hchecksum]

/-- Recency does not depend on the age. -/
@[simp] theorem rank_aged (h : Header) (elapsed : Nat) : (h.aged elapsed).rank = h.rank := rfl

@[simp] theorem key_aged (h : Header) (elapsed : Nat) : (h.aged elapsed).key = h.key := rfl

/-! ## Ages -/

/-- a number in 16 bits, or the largest one -/
theorem toNat_ofNatClamp (n : Nat) : (UInt16.ofNatClamp n).toNat = min n 65535 := by
  rcases Nat.lt_or_ge n UInt16.size with h | h
  · rw [UInt16.toNat_ofNatClamp_of_lt h]
    exact (Nat.min_eq_left (Nat.le_of_lt_succ h)).symm
  · rw [UInt16.toNat_ofNatClamp_of_le h]
    exact (Nat.min_eq_right (Nat.le_trans (Nat.sub_le _ 1) h)).symm

/-- Ages in 16 bits count like natural numbers up to `maxAge`, however much time passes. -/
theorem age_aged (h : Header) (elapsed : Nat) : (h.aged elapsed).age.toNat = min (h.age.toNat + elapsed) maxAge := by
  have hmax : (UInt16.ofNat maxAge).toNat = maxAge := rfl
  rw [aged, UInt16.toNat_min, toNat_ofNatClamp, toNat_ofNatClamp, hmax]
  simp only [maxAge]
  omega

theorem age_aged_le (h : Header) (elapsed : Nat) : (h.aged elapsed).age.toNat ≤ maxAge := by
  rw [age_aged]; exact Nat.min_le_right _ _

theorem isMaxAge_aged {h : Header} {elapsed : Nat} :
    (h.aged elapsed).isMaxAge = true ↔ maxAge ≤ h.age.toNat + elapsed := by
  rw [isMaxAge, decide_eq_true_iff, age_aged]
  omega

/-- No time passes, and nothing changes. -/
theorem aged_zero {h : Header} (hage : h.age.toNat ≤ maxAge) : h.aged 0 = h := by
  have hage' : (h.aged 0).age = h.age := by
    rw [← UInt16.toNat_inj, age_aged]; omega
  cases h
  simp only [aged, Header.mk.injEq, and_true] at hage' ⊢
  exact hage'

/-! ## Sequence numbers -/

theorem signedSeqNo_eq_bmod (s : UInt32) : signedSeqNo s = (s.toNat : Int).bmod (2 ^ 32) := by
  rw [signedSeqNo, Int32.toInt, BitVec.toInt_eq_toNat_bmod]
  rfl

theorem signedSeqNo_eq (s : UInt32) :
    signedSeqNo s = if s.toNat < 2 ^ 31 then (s.toNat : Int) else (s.toNat : Int) - 2 ^ 32 := by
  have hlt := UInt32.toNat_lt s
  rw [signedSeqNo_eq_bmod, Int.bmod_def]
  split <;> split <;> omega

/-- The number after any but the last is greater. -/
theorem signedSeqNo_succ {s : UInt32} (h : s + 1 ≠ reservedSeqNo) : signedSeqNo (s + 1) = signedSeqNo s + 1 := by
  have hlt := UInt32.toNat_lt s
  have hne : (s + 1).toNat ≠ 2 ^ 31 := fun e => h (UInt32.toNat_inj.mp (by rw [e]; rfl))
  rw [signedSeqNo_eq, signedSeqNo_eq]
  simp only [UInt32.toNat_add, UInt32.toNat_one] at hne ⊢
  split <;> split <;> omega

theorem succ_eq_reserved_iff {s : UInt32} : s + 1 = reservedSeqNo ↔ s = 0x7fffffff := by
  constructor
  · intro h
    have e : s = reservedSeqNo - 1 := by rw [← h]; simp
    exact e
  · rintro rfl; rfl

/-! ## A total preorder -/

/-- What counts of a header: nothing if it has no sequence number, else that number, read with a sign in 32 bits, and
after it the checksum, where a missing one is zero. -/
def precedence (h : Header) : WithBot (ℤ ×ₗ ℕ) :=
  match h.seqNo with
  | none => ⊥
  | some s => .some (toLex ((s.toNat : ℤ).bmod (2 ^ 32), (h.checksum.getD 0).toNat))

theorem precedence_lt_iff {a b : Header} : a.precedence < b.precedence ↔ a.rank < b.rank := by
  cases ha : a.seqNo with
  | none => cases hb : b.seqNo <;> simp [precedence, rank, ha, hb]
  | some s =>
    cases hb : b.seqNo with
    | none => simp [precedence, rank, ha, hb]
    | some t =>
      -- the checksum fits below one step of the sequence number
      have hs := signedSeqNo_bounds s
      have ht := signedSeqNo_bounds t
      have hca : (a.checksum.getD 0).toNat < 2 ^ 16 := UInt16.toNat_lt _
      have hcb : (b.checksum.getD 0).toNat < 2 ^ 16 := UInt16.toNat_lt _
      simp only [precedence, rank, ha, hb, ← signedSeqNo_eq_bmod]
      rw [WithBot.coe_lt_coe, Prod.Lex.toLex_lt_toLex]
      omega

theorem precedence_eq_iff {a b : Header} : a.precedence = b.precedence ↔ a.rank = b.rank := by
  rw [eq_iff_le_not_lt, ← not_lt, precedence_lt_iff, precedence_lt_iff]
  omega

theorem recency_eq_compare_precedence (a b : Header) : recency a b = compare a.precedence b.precedence := by
  rw [recency_eq_compare]
  rcases Nat.lt_trichotomy a.rank b.rank with h | h | h
  · rw [Nat.compare_eq_lt.mpr h, compare_lt_iff_lt.mpr (precedence_lt_iff.mpr h)]
  · rw [Nat.compare_eq_eq.mpr h, compare_eq_iff_eq.mpr (precedence_eq_iff.mpr h)]
  · rw [Nat.compare_eq_gt.mpr h, compare_gt_iff_gt.mpr (precedence_lt_iff.mpr h)]

theorem recency_swap (a b : Header) : recency a b = (recency b a).swap := by
  rw [recency_eq_compare, recency_eq_compare b a, Nat.compare_swap]

theorem recency_congr {a a' b b' : Header} (hseqNo : a.seqNo = a'.seqNo) (hchecksum : a.checksum = a'.checksum)
    (hseqNo' : b.seqNo = b'.seqNo) (hchecksum' : b.checksum = b'.checksum) : recency a b = recency a' b' := by
  rw [recency_eq_compare, recency_eq_compare, rank_congr hseqNo hchecksum, rank_congr hseqNo' hchecksum']

theorem isStrictWeakOrder_isNewer : IsStrictWeakOrder Header fun a b => a.isNewer b = true := by
  simp only [isNewer_iff]
  exact {
    irrefl := fun a => lt_irrefl a.rank
    trans := fun a b c hab hbc => hbc.trans hab
    incomp_trans := fun a b c hab hbc => by omega }

/-- `order` is a total preorder of headers with the strict part `newer`, and both look at precedences only -/
structure OrdersByPrecedence (order : Header → Header → Ordering) (newer : Header → Header → Bool) : Prop where
  reversed : ∀ a b, order a b = (order b a).swap
  trans : ∀ a b c, order a b ≠ .lt → order b c ≠ .lt → order a c ≠ .lt
  /-- one strict step is enough -/
  trans_strict : ∀ a b c, order a b ≠ .lt → order b c ≠ .lt → order a b = .gt ∨ order b c = .gt → order a c = .gt
  /-- headers that tie compare alike with every third one -/
  tie : ∀ a b, order a b = .eq → ∀ c, order a c = order b c ∧ order c a = order c b
  lexicographic : ∀ a b, order a b = compare a.precedence b.precedence
  newer_iff : ∀ a b, newer a b = true ↔ order a b = .gt
  strictWeakOrder : IsStrictWeakOrder Header fun a b => newer a b = true
  /-- ages, options, lengths, types and addresses do not count -/
  unaffected : ∀ a a' b b', a.seqNo = a'.seqNo → a.checksum = a'.checksum → b.seqNo = b'.seqNo →
    b.checksum = b'.checksum → order a b = order a' b' ∧ newer a b = newer a' b'

/-- **Recency is a total preorder.** Comparing two headers the other way round reverses the answer; headers can be
compared through a third one, and headers that tie cannot be told apart by it. The order is lexicographic: a header
without a sequence number comes below all others, then signed sequence numbers count, then checksums. Hence being newer
is a strict weak order, and the rest of a header does not matter to it. -/
theorem recency_totalPreorder : OrdersByPrecedence recency isNewer := by
  constructor
  case reversed => exact recency_swap
  case trans =>
    intro a b c hab hbc
    rw [recency_ne_lt_iff] at hab hbc ⊢
    exact hbc.trans hab
  case trans_strict =>
    intro a b c hab hbc hstrict
    rw [recency_ne_lt_iff] at hab hbc
    simp only [recency_eq_gt_iff] at hstrict ⊢
    omega
  case tie =>
    intro a b htie c
    rw [recency_eq_iff] at htie
    simp only [recency_eq_compare, htie, and_self]
  case lexicographic => exact recency_eq_compare_precedence
  case newer_iff =>
    intro a b
    rw [isNewer_iff, recency_eq_gt_iff]
  case strictWeakOrder => exact isStrictWeakOrder_isNewer
  case unaffected =>
    intro a a' b b' hseqNo hchecksum hseqNo' hchecksum'
    have horder : recency a b = recency a' b' := recency_congr hseqNo hchecksum hseqNo' hchecksum'
    exact ⟨horder, by rw [isNewer, isNewer, horder]⟩

/-- Without a number even the largest checksum is of no use; numbers with the top bit set are negative. -/
example :
    let header (seqNo : Option UInt32) (checksum : Option UInt16) : Header :=
      ⟨0, .external, LsaKind.router.type, ⟨1⟩, ⟨1⟩, seqNo, checksum, none⟩
    [header none (some 0xffff), header (some reservedSeqNo) none, header (some initialSeqNo) none, header (some 1) none,
      header (some 1) (some 1), header (some 2) (some 0)].Pairwise fun a b => b.isNewer a = true := by
  decide

end RoutingReplay.Ospf.Header
