/-
Pieces and flag sets read back.

`split_join` is the other half of `join_split`: the text of some pieces falls apart into these pieces, if none of them
holds the separator. Lines come back likewise (`lines_flatMap`). The text of a flag set has blanks around its bars, so
there the pieces come back trimmed (`trim_split_join`).

A table of flags is well named if every name is read as the flag that it is written for (`FlagSet.WellNamed`). Over such
a table every set of flags reads back, whatever bits of it have no name (`FlagSet.read?_write`).
-/
import Mathlib.Data.List.TakeWhile
import RoutingReplay.Text.FlagSet
import RoutingReplay.Proofs.Text.Numeral

namespace RoutingReplay.Text

/-! ## Splitting -/

theorem split_of_notMem {sep : Char} {cs : List Char} (h : sep ∉ cs) : split sep cs = [cs] := by
  induction cs with
  | nil => rfl
  | cons c rest ih =>
    obtain ⟨hc, hrest⟩ := not_or.mp (mt List.mem_cons.mpr h)
    simp only [split, ih hrest, if_neg (Ne.symm hc)]

theorem split_append_sep {sep : Char} {cs : List Char} (h : sep ∉ cs) (rest : List Char) :
    split sep (cs ++ sep :: rest) = cs :: split sep rest := by
  induction cs with
  | nil =>
    rw [List.nil_append, split]
    cases hs : split sep rest with
    | nil => exact absurd hs (split_ne_nil sep rest)
    | cons piece pieces => exact if_pos rfl
  | cons c cs ih =>
    obtain ⟨hc, hcs⟩ := not_or.mp (mt List.mem_cons.mpr h)
    simp only [List.cons_append, split, ih hcs, if_neg (Ne.symm hc)]

/-- Pieces without the separator come back from their text. -/
theorem split_join {sep : Char} {pieces : List (List Char)} (hne : pieces ≠ []) (h : ∀ piece ∈ pieces, sep ∉ piece) :
    split sep (join [sep] pieces) = pieces := by
  induction pieces with
  | nil => exact absurd rfl hne
  | cons piece rest ih =>
    cases rest with
    | nil => exact split_of_notMem (h piece List.mem_cons_self)
    | cons next others =>
      have hrest := ih (List.cons_ne_nil next others) fun p hp => h p (List.mem_cons_of_mem _ hp)
      rw [join, List.append_assoc, List.singleton_append, split_append_sep (h piece List.mem_cons_self), hrest]
      exact List.cons_ne_nil next others

/-- What stands in a joined text is the separator or stands in a piece. -/
theorem mem_join {sep : List Char} {pieces : List (List Char)} {c : Char} (h : c ∈ join sep pieces) :
    c ∈ sep ∨ ∃ piece ∈ pieces, c ∈ piece := by
  induction pieces with
  | nil => cases h
  | cons piece rest ih =>
    cases rest with
    | nil => exact Or.inr ⟨piece, List.mem_cons_self, h⟩
    | cons next others =>
      rw [join, List.mem_append, List.mem_append] at h
      · rcases h with (h | h) | h
        · exact Or.inr ⟨piece, List.mem_cons_self, h⟩
        · exact Or.inl h
        · rcases ih h with hsep | ⟨p, hp, hc⟩
          · exact Or.inl hsep
          · exact Or.inr ⟨p, List.mem_cons_of_mem _ hp, hc⟩
      · exact List.cons_ne_nil next others

theorem mem_join_of_mem {sep : List Char} {pieces : List (List Char)} {piece : List Char} (h : piece ∈ pieces)
    {c : Char} (hc : c ∈ piece) : c ∈ join sep pieces := by
  induction pieces with
  | nil => cases h
  | cons first rest ih =>
    cases rest with
    | nil =>
      rw [List.mem_singleton.mp h] at hc
      exact hc
    | cons next others =>
      rw [join, List.mem_append, List.mem_append]
      · rcases List.mem_cons.mp h with rfl | h
        · exact Or.inl (Or.inl hc)
        · exact Or.inr (ih h)
      · exact List.cons_ne_nil next others

/-! ## Lines -/

theorem split_flatMap {sep : Char} {texts : List (List Char)} (h : ∀ text ∈ texts, sep ∉ text) :
    split sep (texts.flatMap fun text => text ++ [sep]) = texts ++ [[]] := by
  induction texts with
  | nil => rfl
  | cons text rest ih =>
    have hrest := ih fun t ht => h t (List.mem_cons_of_mem _ ht)
    rw [List.flatMap_cons, List.append_assoc, List.singleton_append, split_append_sep (h text List.mem_cons_self),
      hrest, List.cons_append]

/-- Texts without line ends, each with a line feed behind it, are the lines of what they make up. -/
theorem lines_flatMap {texts : List (List Char)} (hfeed : ∀ text ∈ texts, '\n' ∉ text)
    (hreturn : ∀ text ∈ texts, '\r' ∉ text) : lines (texts.flatMap fun text => text ++ ['\n']) = texts := by
  have hkept : texts.map (fun line => if line.getLast? = some '\r' then line.dropLast else line) = texts := by
    refine (List.map_congr_left fun text htext => ?_).trans (List.map_id texts)
    exact if_neg fun hlast => hreturn text htext (List.mem_of_getLast? hlast)
  simp only [lines, split_flatMap hfeed, List.dropLast_concat, List.getLast?_concat, hkept]

/-! ## Trimming -/

/-- the visible characters of ASCII are no blanks -/
theorem isBlank_of_graphic {c : Char} (h : 0x21 ≤ c.toNat) (h' : c.toNat ≤ 0x7e) : isBlank c = false := by
  have hout : ∀ r ∈ blankRanges, r.2 < 0x21 ∨ 0x7e < r.1 := by decide
  rw [isBlank, List.any_eq_false]
  intro r hr
  have := hout r hr
  simp only [Bool.and_eq_true, decide_eq_true_eq]
  omega

theorem dropWhile_isBlank_of_notBlank {cs : List Char} (h : ∀ c ∈ cs, isBlank c = false) :
    cs.dropWhile isBlank = cs := by
  cases cs with
  | nil => rfl
  | cons c rest => rw [List.dropWhile_cons, h c List.mem_cons_self]; rfl

/-- Blanks on either side are trimmed off a text without blanks. -/
theorem trim_padded {before cs after : List Char} (hbefore : before.all isBlank = true)
    (hafter : after.all isBlank = true) (hcs : ∀ c ∈ cs, isBlank c = false) (hne : cs ≠ []) :
    trim (before ++ cs ++ after) = cs := by
  rw [List.all_eq_true] at hbefore hafter
  obtain ⟨c, rest, rfl⟩ := List.exists_cons_of_ne_nil hne
  have hc : isBlank c = false := hcs c List.mem_cons_self
  have hfront : (before ++ c :: rest ++ after).dropWhile isBlank = c :: rest ++ after := by
    rw [List.append_assoc, List.dropWhile_append_of_pos hbefore, List.cons_append, List.dropWhile_cons, hc]
    rfl
  have hback : (c :: rest ++ after).reverse.dropWhile isBlank = (c :: rest).reverse := by
    rw [List.reverse_append, List.dropWhile_append_of_pos fun d hd => hafter d (List.mem_reverse.mp hd)]
    exact dropWhile_isBlank_of_notBlank fun d hd => hcs d (List.mem_reverse.mp hd)
  rw [trim, hfront, hback, List.reverse_reverse]

/-- A text that is trimmed to nothing is blank. -/
theorem isBlank_of_trim_eq_nil {cs : List Char} (h : trim cs = []) {c : Char} (hc : c ∈ cs) : isBlank c = true := by
  rw [trim, List.reverse_eq_nil_iff, List.dropWhile_eq_nil_iff] at h
  by_contra hnot
  have hkept : c ∈ cs.dropWhile isBlank := by
    rcases List.mem_append.mp (List.takeWhile_append_dropWhile (p := isBlank) (l := cs) ▸ hc) with htaken | hdropped
    · exact absurd (List.mem_takeWhile_imp htaken) hnot
    · exact hdropped
  exact hnot (h c (List.mem_reverse.mpr hkept))

/-! ## Flag sets -/

/-- an item as it stands in a written flag set: something, with no blank and no bar in it -/
structure IsItem (cs : List Char) : Prop where
  ne_nil : cs ≠ []
  notBlank : ∀ c ∈ cs, isBlank c = false
  noBar : '|' ∉ cs

instance (cs : List Char) : Decidable (IsItem cs) :=
  decidable_of_iff (cs ≠ [] ∧ (cs.all fun c => !isBlank c) = true ∧ '|' ∉ cs) <| by
    simp only [List.all_eq_true, Bool.not_eq_true']
    exact ⟨fun ⟨hne, hblank, hbar⟩ => ⟨hne, hblank, hbar⟩, fun ⟨hne, hblank, hbar⟩ => ⟨hne, hblank, hbar⟩⟩

/-- The items come back trimmed from between the bars. -/
theorem trim_split_join {before : List Char} {items : List (List Char)} (hbefore : before.all isBlank = true)
    (hne : items ≠ []) (h : ∀ item ∈ items, IsItem item) :
    (split '|' (before ++ join " | ".toList items)).map trim = items := by
  induction items generalizing before with
  | nil => exact absurd rfl hne
  | cons item rest ih =>
    have hitem : IsItem item := h item List.mem_cons_self
    have hbar : '|' ∉ before := fun hmem => absurd (List.all_eq_true.mp hbefore _ hmem) (by decide)
    cases rest with
    | nil =>
      have hnone : '|' ∉ before ++ item := by
        rw [List.mem_append]
        exact fun hmem => hmem.elim hbar hitem.noBar
      have htrim : trim (before ++ item ++ []) = item := trim_padded hbefore rfl hitem.notBlank hitem.ne_nil
      rw [List.append_nil] at htrim
      rw [join, split_of_notMem hnone, List.map_singleton, htrim]
    | cons next others =>
      -- The blank in front of a bar goes with the item before it, the one behind with the item after it.
      have hnone : '|' ∉ before ++ item ++ [' '] := by
        simp only [List.mem_append, not_or]
        exact ⟨⟨hbar, hitem.noBar⟩, by decide⟩
      have htext : before ++ join " | ".toList (item :: next :: others) =
          (before ++ item ++ [' ']) ++ '|' :: ([' '] ++ join " | ".toList (next :: others)) := by
        rw [join]
        · simp
        · exact List.cons_ne_nil next others
      have hrest : (split '|' ([' '] ++ join " | ".toList (next :: others))).map trim = next :: others :=
        ih (by decide) (List.cons_ne_nil next others) fun i hi => h i (List.mem_cons_of_mem _ hi)
      rw [htext, split_append_sep hnone, List.map_cons, hrest,
        trim_padded hbefore (by decide) hitem.notBlank hitem.ne_nil]

namespace FlagSet

/-- the union of flags -/
def union (flags : List UInt8) : UInt8 := flags.foldr (· ||| ·) 0

theorem foldl_clear (flags : List UInt8) (bits : UInt8) :
    flags.foldl (fun b n => b &&& ~~~n) bits = bits &&& ~~~union flags := by
  induction flags generalizing bits with
  | nil => simp [union]
  | cons n rest ih =>
    have hclear : ~~~(n ||| union rest) = ~~~n &&& ~~~union rest := by
      rw [← UInt8.toBitVec_inj]
      exact BitVec.not_or
    rw [List.foldl_cons, ih, UInt8.and_assoc, ← hclear]
    rfl

theorem and_union_of_forall {flags : List UInt8} {bits : UInt8} (h : ∀ n ∈ flags, bits &&& n = n) :
    bits &&& union flags = union flags := by
  induction flags with
  | nil => simp [union]
  | cons n rest ih =>
    have hdistrib : bits &&& (n ||| union rest) = bits &&& n ||| bits &&& union rest := by
      rw [← UInt8.toBitVec_inj]
      exact BitVec.and_or_distrib_left
    calc bits &&& union (n :: rest) = bits &&& n ||| bits &&& union rest := hdistrib
      _ = n ||| union rest := by
        rw [h n List.mem_cons_self, ih fun m hm => h m (List.mem_cons_of_mem _ hm)]

/-- Flags of a set and the bits besides make up the set. -/
theorem union_or_clear {flags : List UInt8} {bits : UInt8} (h : ∀ n ∈ flags, bits &&& n = n) :
    union flags ||| flags.foldl (fun b n => b &&& ~~~n) bits = bits := by
  have hwithin := and_union_of_forall h
  rw [foldl_clear, ← UInt8.toBitVec_inj]
  rw [← UInt8.toBitVec_inj] at hwithin
  refine BitVec.eq_of_getLsbD_eq fun i hi => ?_
  have hbit := congrArg (BitVec.getLsbD · i) hwithin
  simp only [UInt8.toBitVec_and, UInt8.toBitVec_or, UInt8.toBitVec_not, BitVec.getLsbD_and, BitVec.getLsbD_or,
    BitVec.getLsbD_not, hi, decide_true, Bool.true_and] at hbit ⊢
  revert hbit
  cases bits.toBitVec.getLsbD i <;> cases (union flags).toBitVec.getLsbD i <;> simp

/-- what a table of names needs so that the names are read as the flags that they are written for -/
structure WellNamed (names : FlagNames) : Prop where
  isItem : ∀ n ∈ names, IsItem n.1
  readItem? : ∀ n ∈ names, readItem? names n.1 = some n.2

instance (names : FlagNames) : Decidable (WellNamed names) :=
  decidable_of_iff ((∀ n ∈ names, IsItem n.1) ∧ ∀ n ∈ names, FlagSet.readItem? names n.1 = some n.2)
    ⟨fun ⟨hitem, hread⟩ => ⟨hitem, hread⟩, fun ⟨hitem, hread⟩ => ⟨hitem, hread⟩⟩

theorem isItem_hex (n : Nat) : IsItem ('0' :: 'x' :: writeHex n) := by
  have hgraphic : ∀ c ∈ '0' :: 'x' :: writeHex n, 0x21 ≤ c.toNat ∧ c.toNat < 0x7b := by
    intro c hc
    rcases List.mem_cons.mp hc with rfl | hc
    · decide
    · rcases List.mem_cons.mp hc with rfl | hc
      · decide
      · have := toNat_of_isSome_digitValue? (isSome_digitValue?_of_mem_writeHex hc)
        omega
  refine ⟨List.cons_ne_nil _ _, fun c hc => ?_, fun hbar => ?_⟩
  · exact isBlank_of_graphic (hgraphic c hc).1 (by have := (hgraphic c hc).2; omega)
  · exact absurd (hgraphic _ hbar).2 (by decide)

/-- the items of a set with the bits that each of them stands for -/
def marks (names : FlagNames) (bits : UInt8) : FlagNames :=
  let named := names.filter (fun n => bits &&& n.2 = n.2)
  let rest := (named.map Prod.snd).foldl (fun b n => b &&& ~~~n) bits
  named ++ if rest = 0 then [] else [('0' :: 'x' :: writeHex rest.toNat, rest)]

theorem items_eq (names : FlagNames) (bits : UInt8) : items names bits = (marks names bits).map Prod.fst := by
  simp only [items, marks, List.foldl_map, List.map_append]
  split <;> rfl

theorem union_marks (names : FlagNames) (bits : UInt8) : union ((marks names bits).map Prod.snd) = bits := by
  have hnamed : ∀ n ∈ (names.filter fun n => bits &&& n.2 = n.2).map Prod.snd, bits &&& n = n := by
    intro n hn
    obtain ⟨p, hp, rfl⟩ := List.mem_map.mp hn
    exact of_decide_eq_true (List.mem_filter.mp hp).2
  have hall := union_or_clear hnamed
  have happend (flags flags' : List UInt8) : union (flags ++ flags') = union flags ||| union flags' := by
    induction flags with
    | nil => simp [union]
    | cons n rest ih =>
      rw [List.cons_append]
      exact (congrArg (n ||| ·) ih).trans (UInt8.or_assoc _ _ _).symm
  simp only [marks, List.map_append, happend]
  split
  · rename_i hnone
    rw [hnone] at hall
    exact hall
  · simpa [union] using hall

/-- An item of a written set is an item, and it is read as the bits that it stands for. -/
theorem WellNamed.mark {names : FlagNames} (h : WellNamed names) {bits : UInt8} {p : List Char × UInt8}
    (hp : p ∈ marks names bits) : IsItem p.1 ∧ FlagSet.readItem? names p.1 = some p.2 := by
  rcases List.mem_append.mp hp with hnamed | hrest
  · have hmem := (List.mem_filter.mp hnamed).1
    exact ⟨h.isItem p hmem, h.readItem? p hmem⟩
  · split at hrest
    · cases hrest
    · obtain rfl := List.mem_singleton.mp hrest
      exact ⟨isItem_hex _, by simp [FlagSet.readItem?, readBelow?_writeHex (UInt8.toNat_lt _)]⟩

theorem readItems?_of_forall {names marks : FlagNames} {pieces : List (List Char)}
    (hpieces : pieces.map trim = marks.map Prod.fst) (h : ∀ p ∈ marks, readItem? names p.1 = some p.2) :
    readItems? names pieces = some (union (marks.map Prod.snd)) := by
  induction marks generalizing pieces with
  | nil =>
    rw [List.map_eq_nil_iff.mp hpieces]
    rfl
  | cons p rest ih =>
    obtain ⟨piece, others, rfl, hpiece, hothers⟩ := List.map_eq_cons_iff.mp hpieces
    have hrest := ih hothers fun q hq => h q (List.mem_cons_of_mem _ hq)
    simp only [readItems?, hpiece, h p List.mem_cons_self, hrest]
    rfl

/-- Every set of flags reads back, the bits without a name included. -/
theorem read?_write {names : FlagNames} (h : WellNamed names) (bits : UInt8) :
    read? names (write names bits) = some bits := by
  have hunion := union_marks names bits
  have hmark := fun p (hp : p ∈ marks names bits) => h.mark hp
  rw [write, items_eq]
  cases hmarks : marks names bits with
  | nil =>
    rw [hmarks] at hunion
    rw [← hunion]
    rfl
  | cons p rest =>
    have hitems : ∀ item ∈ (p :: rest).map Prod.fst, IsItem item := by
      intro item hitem
      obtain ⟨q, hq, rfl⟩ := List.mem_map.mp hitem
      exact (hmark q (hmarks ▸ hq)).1
    have hpieces : (split '|' (join " | ".toList ((p :: rest).map Prod.fst))).map trim = (p :: rest).map Prod.fst :=
      @trim_split_join [] _ rfl (List.cons_ne_nil _ _) hitems
    have hnotBlank : trim (join " | ".toList ((p :: rest).map Prod.fst)) ≠ [] := by
      intro hblank
      have hp := hitems p.1 List.mem_cons_self
      obtain ⟨c, hc⟩ := List.exists_mem_of_ne_nil p.1 hp.ne_nil
      have := isBlank_of_trim_eq_nil hblank (mem_join_of_mem List.mem_cons_self hc)
      rw [hp.notBlank c hc] at this
      cases this
    rw [read?, if_neg hnotBlank, readItems?_of_forall hpieces fun q hq => (hmark q (hmarks ▸ hq)).2, ← hmarks, hunion]

end FlagSet

end RoutingReplay.Text
