/-
Addresses and networks read back.

- `Address4.read?_write`: four octets in decimal give the 32 bits back.
- `Address6.read?_write`: all three forms of an IPv6 address give the groups back. In the compressed form the double
  colon is the first one of the text, because no group is empty, and what the groups on either side lack to eight is
  what the run of zeros had (`isZeroRun_longestZeroRun`).
- `Network.read?_write`: networks of both families, host bits included. The text of an IPv6 network is never taken for
  an IPv4 network: it has a colon in it.
-/
import RoutingReplay.Address.Network
import RoutingReplay.Proofs.Text.Pieces

namespace RoutingReplay

open Text

/-! ## IPv4 addresses -/

namespace Address4

theorem lt_of_mem_octets {a : Address4} {n : Nat} (h : n ∈ a.octets) : n < 256 := by
  have hbits : a.bits.toNat < 4294967296 := a.bits.toNat_lt
  simp only [octets, List.mem_cons, List.not_mem_nil, or_false] at h
  omega

theorem ofOctets_octets (a : Address4) :
    ofOctets (a.bits.toNat / 16777216) (a.bits.toNat / 65536 % 256) (a.bits.toNat / 256 % 256) (a.bits.toNat % 256)
      = a := by
  have hvalue (n : Nat) : ((n / 16777216 * 256 + n / 65536 % 256) * 256 + n / 256 % 256) * 256 + n % 256 = n := by
    omega
  rw [ofOctets, hvalue, UInt32.ofNat_toNat]

theorem split_write (a : Address4) : split '.' a.write = a.octets.map writeDecimal := by
  refine split_join (List.cons_ne_nil _ _) fun piece hpiece => ?_
  obtain ⟨n, -, rfl⟩ := List.mem_map.mp hpiece
  exact notMem_writeDecimal (by decide) n

theorem read?_write (a : Address4) : read? a.write = some a := by
  have hread : (a.octets.map writeDecimal).map readOctet? = a.octets.map some := by
    rw [List.map_map]
    exact List.map_congr_left fun n hn => readOctet?_writeDecimal (lt_of_mem_octets hn)
  rw [read?, split_write, hread]
  exact congrArg some (ofOctets_octets a)

theorem notMem_write {c : Char} (hc : c ≠ '.') (hdigit : c.isDigit = false) (a : Address4) : c ∉ a.write := by
  intro hmem
  rcases mem_join hmem with hdot | ⟨piece, hpiece, hpc⟩
  · exact hc (List.mem_singleton.mp hdot)
  · obtain ⟨n, -, rfl⟩ := List.mem_map.mp hpiece
    exact notMem_writeDecimal hdigit n hpc

/-- A text without dots is no address. -/
theorem read?_of_noDot {cs : List Char} (h : '.' ∉ cs) : read? cs = none := by
  rw [read?, split_of_notMem h, List.map_singleton]
  cases readOctet? cs <;> rfl

/-- A text with a character that is neither a dot nor a digit is no address. -/
theorem read?_of_mem {cs : List Char} {c : Char} (hc : c ∈ cs) (hdot : c ≠ '.') (hdigit : digitValue? 10 c = none) :
    read? cs = none := by
  obtain ⟨piece, hpiece, hpc⟩ : ∃ piece ∈ split '.' cs, c ∈ piece := by
    rw [← join_split '.' cs] at hc
    exact (mem_join hc).resolve_left fun h => hdot (List.mem_singleton.mp h)
  have hnone : readOctet? piece = none := by
    cases hread : readDigits 10 0 piece with
    | none =>
      have hnat : readNat? 10 piece = none := by
        unfold readNat?
        split
        · rfl
        · exact hread
      simp only [readOctet?, hnat]
    | some n =>
      have := isSome_digitValue?_of_mem hread hpc
      rw [hdigit] at this
      cases this
  have hmem : none ∈ (split '.' cs).map readOctet? := List.mem_map.mpr ⟨piece, hpiece, hnone⟩
  unfold read?
  split
  · rename_i heq
    rw [heq] at hmem
    simp at hmem
  · rfl

end Address4

/-! ## IPv6 addresses -/

namespace Address6

/-- the text of one group -/
abbrev writeGroup (g : UInt16) : List Char := writeHex g.toNat

theorem readGroup?_writeGroup (g : UInt16) : readGroup? (writeGroup g) = some g := by
  rw [readGroup?, if_pos (length_writeHex_le g.toNat_lt), readNat?_writeHex, Option.map_some, UInt16.ofNat_toNat]

theorem notMem_writeGroups {c : Char} (hc : c ≠ ':') (hdigit : digitValue? 16 c = none) (gs : List UInt16) :
    c ∉ writeGroups gs := by
  intro hmem
  rcases mem_join hmem with hcolon | ⟨piece, hpiece, hpc⟩
  · exact hc (List.mem_singleton.mp hcolon)
  · obtain ⟨g, -, rfl⟩ := List.mem_map.mp hpiece
    exact notMem_writeHex hdigit g.toNat hpc

theorem writeGroups_cons_cons (g g' : UInt16) (gs : List UInt16) :
    writeGroups (g :: g' :: gs) = writeGroup g ++ ':' :: writeGroups (g' :: gs) := by
  simp [writeGroups, join]

theorem exists_writeGroups_cons (g : UInt16) (gs : List UInt16) :
    ∃ rest, writeGroups (g :: gs) = writeGroup g ++ rest := by
  cases gs with
  | nil => exact ⟨[], (List.append_nil _).symm⟩
  | cons g' gs => exact ⟨_, writeGroups_cons_cons g g' gs⟩

theorem writeGroups_ne_nil {gs : List UInt16} (h : gs ≠ []) : writeGroups gs ≠ [] := by
  obtain ⟨g, others, rfl⟩ := List.exists_cons_of_ne_nil h
  obtain ⟨rest, htext⟩ := exists_writeGroups_cons g others
  rw [htext]
  exact List.append_ne_nil_of_left_ne_nil (writeHex_ne_nil g.toNat) _

theorem head?_writeGroups_append (g : UInt16) (gs : List UInt16) (rest : List Char) :
    (writeGroups (g :: gs) ++ rest).head? ≠ some ':' := by
  obtain ⟨tail, htext⟩ := exists_writeGroups_cons g gs
  rw [htext, List.append_assoc, List.head?_append_of_ne_nil _ (writeHex_ne_nil g.toNat)]
  exact fun hhead => notMem_writeHex (by decide) g.toNat (List.mem_of_mem_head? hhead)

theorem split_writeGroups {gs : List UInt16} (h : gs ≠ []) : split ':' (writeGroups gs) = gs.map writeGroup := by
  refine split_join (fun hnil => h (List.map_eq_nil_iff.mp hnil)) fun piece hpiece => ?_
  obtain ⟨g, -, rfl⟩ := List.mem_map.mp hpiece
  exact notMem_writeHex (by decide) g.toNat

theorem readPieces?_map_writeGroup (gs : List UInt16) : readPieces? (gs.map writeGroup) = some gs := by
  induction gs with
  | nil => rfl
  | cons g rest ih =>
    cases rest with
    | nil =>
      have hdotted : Address4.read? (writeGroup g) = none := Address4.read?_of_noDot (notMem_writeHex (by decide) _)
      simp only [List.map_cons, List.map_nil, readPieces?, hdotted, readGroup?_writeGroup, Option.map_some]
    | cons g' gs =>
      rw [List.map_cons] at ih ⊢
      rw [List.map_cons, readPieces?]
      · simp only [readGroup?_writeGroup, ih]
      · exact List.cons_ne_nil _ _

theorem readGroups?_writeGroups (gs : List UInt16) : readGroups? (writeGroups gs) = some gs := by
  by_cases h : gs = []
  · subst h
    rfl
  · rw [readGroups?, if_neg (writeGroups_ne_nil h), split_writeGroups h, readPieces?_map_writeGroup]

/-! ### The double colon -/

theorem cutDoubleColon?_append_of_noColon {cs : List Char} (h : ':' ∉ cs) (rest : List Char) :
    cutDoubleColon? (cs ++ rest) = (cutDoubleColon? rest).map fun cut => (cs ++ cut.1, cut.2) := by
  induction cs with
  | nil => simp
  | cons c cs ih =>
    obtain ⟨hc, hcs⟩ := not_or.mp (mt List.mem_cons.mpr h)
    rw [List.cons_append, cutDoubleColon?, ih hcs, Option.map_map]
    · rfl
    · intro rest' hcolon
      exact absurd hcolon.symm hc

/-- A single colon is passed over. -/
theorem cutDoubleColon?_cons {cs : List Char} (h : cs.head? ≠ some ':') :
    cutDoubleColon? (':' :: cs) = (cutDoubleColon? cs).map fun cut => (':' :: cut.1, cut.2) := by
  rw [cutDoubleColon?]
  intro rest _ hcs
  rw [hcs] at h
  exact h rfl

/-- Between groups there is no double colon. -/
theorem cutDoubleColon?_writeGroups_append (gs : List UInt16) (rest : List Char) :
    cutDoubleColon? (writeGroups gs ++ rest) =
      (cutDoubleColon? rest).map fun cut => (writeGroups gs ++ cut.1, cut.2) := by
  induction gs with
  | nil => simp [writeGroups, join]
  | cons g gs ih =>
    have hg : ':' ∉ writeGroup g := notMem_writeHex (by decide) g.toNat
    cases gs with
    | nil => exact cutDoubleColon?_append_of_noColon hg rest
    | cons g' gs =>
      rw [writeGroups_cons_cons, List.append_assoc, List.cons_append, cutDoubleColon?_append_of_noColon hg,
        cutDoubleColon?_cons (head?_writeGroups_append g' gs rest), ih]
      cases cutDoubleColon? rest <;> simp

/-! ### The run of zeros -/

/-- a run, by its start and its length, is a run of zeros in a list of groups -/
def IsZeroRun (groups : List UInt16) (run : Nat × Nat) : Prop :=
  groups.take run.1 ++ List.replicate run.2 0 ++ groups.drop (run.1 + run.2) = groups

theorem replicate_zeroRun (groups : List UInt16) :
    List.replicate (zeroRun groups) 0 ++ groups.drop (zeroRun groups) = groups := by
  induction groups with
  | nil => rfl
  | cons g rest ih =>
    by_cases hg : g = 0
    · have hrun : zeroRun (g :: rest) = zeroRun rest + 1 := by simp [zeroRun, hg]
      rw [hrun, List.replicate_succ, List.drop_succ_cons, List.cons_append, ih, hg]
    · have hrun : zeroRun (g :: rest) = 0 := by simp [zeroRun, hg]
      rw [hrun]
      rfl

theorem isZeroRun_longestZeroRun (groups : List UInt16) : IsZeroRun groups (longestZeroRun groups) := by
  refine List.foldlRecOn _ _ ?_ ?_
  · simp [IsZeroRun]
  · intro best hbest i _
    dsimp only
    split
    · rw [IsZeroRun, ← List.drop_drop, List.append_assoc, replicate_zeroRun, List.take_append_drop]
    · exact hbest

/-! ### The three forms -/

theorem ofGroups?_groups (a : Address6) : ofGroups? a.groups = some a := dif_pos a.length_groups

/-- The two groups of a dotted address come back from its bits. -/
theorem bits_dotted (high low : UInt16) :
    [UInt16.ofNat ((dotted high low).bits.toNat / 65536), UInt16.ofNat ((dotted high low).bits.toNat % 65536)] =
      [high, low] := by
  have hhigh : high.toNat < 65536 := high.toNat_lt
  have hlow : low.toNat < 65536 := low.toNat_lt
  have hbits : (dotted high low).bits.toNat = high.toNat * 65536 + low.toNat :=
    UInt32.toNat_ofNat_of_lt' (by rw [UInt32.size]; omega)
  have hdiv : (high.toNat * 65536 + low.toNat) / 65536 = high.toNat := by omega
  have hmod : (high.toNat * 65536 + low.toNat) % 65536 = low.toNat := by omega
  rw [hbits, hdiv, hmod, UInt16.ofNat_toNat, UInt16.ofNat_toNat]

theorem readPieces?_dotted (high low : UInt16) : readPieces? [(dotted high low).write] = some [high, low] := by
  rw [readPieces?, Address4.read?_write]
  exact congrArg some (bits_dotted high low)

theorem read?_mapped (high low : UInt16) :
    read? ("::ffff:".toList ++ (dotted high low).write) = ofGroups? [0, 0, 0, 0, 0, 0xffff, high, low] := by
  have hmark : "ffff:".toList = "ffff".toList ++ [':'] := by decide
  have hsplit : split ':' ("ffff:".toList ++ (dotted high low).write) = ["ffff".toList, (dotted high low).write] := by
    rw [hmark, List.append_assoc, List.singleton_append, split_append_sep (by decide),
      split_of_notMem (Address4.notMem_write (by decide) (by decide) _)]
  have hback : readGroups? ("ffff:".toList ++ (dotted high low).write) = some [0xffff, high, low] := by
    have hgroup : readGroup? "ffff".toList = some 0xffff := by decide
    rw [readGroups?, if_neg (by simp), hsplit, readPieces?, hgroup, readPieces?_dotted]
    exact List.cons_ne_nil _ _
  have hcolons : "::ffff:".toList = ':' :: ':' :: "ffff:".toList := by decide
  have hcut : cutDoubleColon? ("::ffff:".toList ++ (dotted high low).write) =
      some ([], "ffff:".toList ++ (dotted high low).write) := by
    rw [hcolons, List.cons_append, List.cons_append, cutDoubleColon?]
  have hfront : (split ':' []).any (fun piece => (Address4.read? piece).isSome) = false := by decide
  simp only [read?, hcut, hfront, hback]
  rfl

theorem read?_whole (gs : List UInt16) : read? (writeGroups gs) = ofGroups? gs := by
  have hcut := cutDoubleColon?_writeGroups_append gs []
  rw [List.append_nil] at hcut
  rw [read?, hcut]
  simp only [cutDoubleColon?, Option.map_none, readGroups?_writeGroups, Option.bind_some]

theorem read?_compressed {head tail : List UInt16} (h : head.length + tail.length < 8) :
    read? (writeGroups head ++ [':', ':'] ++ writeGroups tail) =
      ofGroups? (head ++ List.replicate (8 - head.length - tail.length) 0 ++ tail) := by
  have hcut := cutDoubleColon?_writeGroups_append head (':' :: ':' :: writeGroups tail)
  have hfront : (split ':' (writeGroups head)).any (fun piece => (Address4.read? piece).isSome) = false := by
    rw [List.any_eq_false]
    intro piece hpiece
    have hdot : '.' ∉ piece := by
      intro hmem
      refine notMem_writeGroups (by decide) (by decide) head (c := '.') ?_
      rw [← join_split ':' (writeGroups head)]
      exact mem_join_of_mem hpiece hmem
    simp [Address4.read?_of_noDot hdot]
  simp only [cutDoubleColon?, Option.map_some, List.append_nil] at hcut
  rw [List.append_assoc, read?]
  simp only [List.cons_append, List.nil_append, hcut, hfront, Bool.false_eq_true, if_false, readGroups?_writeGroups,
    if_pos h]

/-- A run of two zeros or more may be left out: it is what the others lack to eight. -/
theorem read?_of_isZeroRun {a : Address6} {run : Nat × Nat} (hrun : IsZeroRun a.groups run) (hlong : 2 ≤ run.2) :
    read? (writeGroups (a.groups.take run.1) ++ [':', ':'] ++ writeGroups (a.groups.drop (run.1 + run.2))) =
      some a := by
  have hlength : (a.groups.take run.1).length + run.2 + (a.groups.drop (run.1 + run.2)).length = 8 := by
    have hlengths := congrArg List.length hrun
    rw [List.length_append, List.length_append, List.length_replicate, a.length_groups] at hlengths
    exact hlengths
  have hlack : 8 - (a.groups.take run.1).length - (a.groups.drop (run.1 + run.2)).length = run.2 := by omega
  rw [read?_compressed (by omega), hlack, hrun, ofGroups?_groups]

/-- Every IPv6 address reads back, in whichever form it is written. -/
theorem read?_write (a : Address6) : read? a.write = some a := by
  unfold write
  split
  · rename_i high low hgroups
    rw [read?_mapped, ← hgroups, ofGroups?_groups]
  · dsimp only
    split
    · rw [read?_whole, ofGroups?_groups]
    · rename_i hlong
      exact read?_of_isZeroRun (isZeroRun_longestZeroRun a.groups) (Nat.le_of_not_lt hlong)

example : write ⟨[0x2001, 0xdb8, 0, 0, 1, 0, 0, 0], rfl⟩ = "2001:db8:0:0:1::".toList := by decide

/-- The text of an IPv6 address has a colon in it. -/
theorem colon_mem_write (a : Address6) : ':' ∈ a.write := by
  unfold write
  split
  · exact List.mem_append_left _ (by decide)
  · dsimp only
    split
    · obtain ⟨g, g', rest, hgroups⟩ : ∃ g g' rest, a.groups = g :: g' :: rest := by
        have hlength := a.length_groups
        match a.groups, hlength with
        | g :: g' :: rest, _ => exact ⟨g, g', rest, rfl⟩
      rw [hgroups, writeGroups_cons_cons]
      exact List.mem_append_right _ List.mem_cons_self
    · simp

theorem slash_notMem_write (a : Address6) : '/' ∉ a.write := by
  have hgroups := notMem_writeGroups (c := '/') (by decide) (by decide)
  unfold write
  split
  · rw [List.mem_append, not_or]
    exact ⟨by decide, Address4.notMem_write (by decide) (by decide) _⟩
  · dsimp only
    split
    · exact hgroups _
    · simp only [List.mem_append, not_or]
      exact ⟨⟨hgroups _, by decide⟩, hgroups _⟩

end Address6

/-! ## Networks -/

theorem cutSlash?_of_noSlash {address length : List Char} (haddress : '/' ∉ address) (hlength : '/' ∉ length) :
    cutSlash? (address ++ '/' :: length) = some (address, some length) := by
  simp only [cutSlash?, split_append_sep haddress, split_of_notMem hlength]

theorem readLength?_writeDecimal {bits : Nat} (hbits : bits < 256) (length : Fin (bits + 1)) :
    readLength? bits (writeDecimal length) = some length := by
  have hlength : length.val < bits + 1 := length.isLt
  simp only [readLength?, readBelow?_writeDecimal (show length.val < 256 by omega), dif_pos hlength]

/-- A written length is a number and no mask. -/
theorem Address4.read?_writeDecimal (n : Nat) : Address4.read? (writeDecimal n) = none :=
  Address4.read?_of_noDot (notMem_writeDecimal (by decide) n)

theorem Network4.read?_write (n : Network4) : Network4.read? n.write = some n := by
  have hcut : cutSlash? n.write = some (n.address.write, some (writeDecimal n.length)) :=
    cutSlash?_of_noSlash (Address4.notMem_write (by decide) (by decide) _) (notMem_writeDecimal (by decide) _)
  simp only [Network4.read?, hcut, Option.bind_eq_bind, Option.bind_some, Address4.read?_write,
    Address4.read?_writeDecimal, readLength?_writeDecimal (by decide : 32 < 256), Option.map_some]

theorem Network6.cutSlash?_write (n : Network6) :
    cutSlash? n.write = some (n.address.write, some (writeDecimal n.length)) :=
  cutSlash?_of_noSlash (Address6.slash_notMem_write _) (notMem_writeDecimal (by decide) _)

theorem Network6.read?_write (n : Network6) : Network6.read? n.write = some n := by
  simp only [Network6.read?, n.cutSlash?_write, Option.bind_eq_bind, Option.bind_some, Address6.read?_write,
    readLength?_writeDecimal (by decide : 128 < 256), Option.map_some]

/-- The text of an IPv6 network is not taken for an IPv4 network. -/
theorem Network4.read?_write6 (n : Network6) : Network4.read? n.write = none := by
  have haddress : Address4.read? n.address.write = none :=
    Address4.read?_of_mem n.address.colon_mem_write (by decide) (by decide)
  simp only [Network4.read?, n.cutSlash?_write, Option.bind_eq_bind, Option.bind_some, haddress, Option.bind_none]

/-- Networks of both families read back, host bits included. -/
theorem Network.read?_write (n : Network) : Network.read? n.write = some n := by
  cases n with
  | v4 n => simp only [Network.read?, Network.write, Network4.read?_write]
  | v6 n => simp only [Network.read?, Network.write, Network4.read?_write6, Network6.read?_write, Option.map_some]

end RoutingReplay
