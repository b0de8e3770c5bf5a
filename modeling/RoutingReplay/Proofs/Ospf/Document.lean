/-
Link state data comes back from the values it is written as.

Each type has its writer and its reader faithful to each other, from flag sets and addresses up to headers, bodies and
routes. A set of addresses is written in ascending order and is read as the same set, a map having one representation.
-/
import RoutingReplay.Ospf.Document
import RoutingReplay.Proofs.Address.RoundTrip
import RoutingReplay.Proofs.Value.Faithful

namespace RoutingReplay

open Value

theorem Address4.faithful : Faithful Address4.toValue Address4.ofValue? := faithful_notation Address4.read?_write

theorem Network4.faithful : Faithful Network4.toValue Network4.ofValue? := faithful_notation Network4.read?_write

theorem Network.faithful : Faithful Network.toValue Network.ofValue? := faithful_notation Network.read?_write

theorem Address4.faithful_option : Faithful (Value.option Address4.toValue) (asOption? Address4.ofValue?) :=
  Address4.faithful.option fun _ => nofun

namespace Ospf

/-! ## Flag sets -/

/-- Sets of flags over a well named table are faithful, whatever type they are kept in. -/
theorem faithful_flags {α : Type} {names : Text.FlagNames} (hnames : Text.FlagSet.WellNamed names) {bits : α → UInt8}
    {ofBits : UInt8 → α} (hbits : ∀ a, ofBits (bits a) = a) :
    Faithful (fun a => .chars (Text.FlagSet.write names (bits a)))
      (asNotation? fun cs => (Text.FlagSet.read? names cs).map ofBits) := by
  refine faithful_notation fun a => ?_
  rw [Text.FlagSet.read?_write hnames, Option.map_some, hbits]

theorem Options.wellNamed : Text.FlagSet.WellNamed Options.names := by decide

theorem Options.faithful : Faithful Options.toValue Options.ofValue? :=
  faithful_flags Options.wellNamed fun _ => rfl

example : (Options.mk 0x43).write = "E | 0x41".toList := by decide

theorem RouterFlags.wellNamed : Text.FlagSet.WellNamed RouterFlags.names := by decide

theorem RouterFlags.faithful : Faithful RouterFlags.toValue RouterFlags.ofValue? :=
  faithful_flags RouterFlags.wellNamed fun _ => rfl

theorem ExternalFlags.wellNamed : Text.FlagSet.WellNamed ExternalFlags.names := by decide

theorem ExternalFlags.faithful : Faithful ExternalFlags.toValue ExternalFlags.ofValue? :=
  faithful_flags ExternalFlags.wellNamed fun _ => rfl

/-! ## Choices -/

theorem LinkType.name_inj {t t' : LinkType} (h : t.name = t'.name) : t = t' := by
  cases t <;> cases t' <;> first | rfl | simp [LinkType.name] at h

theorem LinkType.faithful : Faithful LinkType.toValue LinkType.ofValue? :=
  faithful_oneOf (fun t => by cases t <;> decide) (fun _ _ => LinkType.name_inj) .json

theorem MetricType.name_inj {t t' : MetricType} (h : t.name = t'.name) : t = t' := by
  cases t <;> cases t' <;> first | rfl | simp [MetricType.name] at h

theorem MetricType.faithful : Faithful MetricType.toValue MetricType.ofValue? :=
  faithful_oneOf (fun t => by cases t <;> decide) (fun _ _ => MetricType.name_inj) .json

/-! ## Headers -/

theorem LsaType.faithful : Faithful LsaType.toValue LsaType.ofValue? where
  exact t := faithful_uint8.exact t.code
  readsBack t := by
    rw [LsaType.ofValue?, LsaType.toValue, show asUInt8? (.nat t.code.toNat) = some t.code from
      faithful_uint8.readsBack t.code, Option.map_some]

theorem faithful_optionalUInt16 : Faithful (Value.option fun n : UInt16 => .nat n.toNat) (asOption? asUInt16?) :=
  faithful_uint16.option fun _ => nofun

theorem faithful_optionalUInt32 : Faithful (Value.option fun n : UInt32 => .nat n.toNat) (asOption? asUInt32?) :=
  faithful_uint32.option fun _ => nofun

/-- Headers come back, with or without the numbers that may be missing. -/
theorem Header.faithful : Faithful Header.toValue Header.ofValue? where
  exact h := .record <| by
    simp only [List.forall_mem_cons]
    exact ⟨faithful_uint16.exact _, Options.faithful.exact _, LsaType.faithful.exact _, Address4.faithful.exact _,
      Address4.faithful.exact _, faithful_optionalUInt32.exact _, faithful_optionalUInt16.exact _,
      faithful_optionalUInt16.exact _, nofun⟩
  readsBack h := by
    rw [Header.ofValue?, Header.toValue, slots?_record rfl (by simp [Header.shape])]
    simp only [List.map_cons, List.map_nil, some_bind, faithful_uint16.defaulted,
      Options.faithful.defaulted, LsaType.faithful.required, Address4.faithful.required,
      faithful_optionalUInt32.defaulted, faithful_optionalUInt16.defaulted]
    rfl

/-! ## Bodies -/

theorem RouterLink.faithful : Faithful RouterLink.toValue RouterLink.ofValue? where
  exact l := .record <| by
    simp only [List.forall_mem_cons]
    exact ⟨LinkType.faithful.exact _, Address4.faithful.exact _, Address4.faithful.exact _, faithful_uint16.exact _,
      nofun⟩
  readsBack l := by
    rw [RouterLink.ofValue?, RouterLink.toValue, slots?_record rfl (by simp)]
    simp only [List.map_cons, List.map_nil, some_bind, LinkType.faithful.required,
      Address4.faithful.required, faithful_uint16.required]
    rfl

theorem RouterBody.faithful : Faithful RouterBody.toValue RouterBody.ofValue? where
  exact b := .record <| by
    simp only [List.forall_mem_cons]
    exact ⟨RouterFlags.faithful.exact _, RouterLink.faithful.list.exact _, nofun⟩
  readsBack b := by
    rw [RouterBody.ofValue?, RouterBody.toValue, slots?_record rfl (by simp)]
    simp only [List.map_cons, List.map_nil, some_bind, RouterFlags.faithful.defaulted,
      RouterLink.faithful.list.defaulted]
    rfl

theorem AddressSet.find?_ofList (addresses : List Address4) (a : Address4) :
    (AddressSet.ofList addresses).find? a = if a ∈ addresses then some () else none := by
  have hfold (set : AddressSet) :
      (addresses.foldl (fun set a => set.insert a ()) set).find? a =
        if a ∈ addresses then some () else set.find? a := by
    induction addresses generalizing set with
    | nil => simp
    | cons first rest ih =>
      rw [List.foldl_cons, ih, SortedMap.find?_insert]
      by_cases hrest : a ∈ rest
      · simp [hrest]
      · by_cases hfirst : a = first <;> simp [hrest, hfirst]
  exact hfold SortedMap.empty

/-- A set is the set of its members. -/
theorem AddressSet.ofList_toList (set : AddressSet) : AddressSet.ofList set.toList = set := by
  apply SortedMap.ext_find?
  intro a
  have hmem : a ∈ set.toList ↔ (set.find? a).isSome := SortedMap.mem_keys_iff
  rw [AddressSet.find?_ofList]
  cases hfind : set.find? a with
  | none => simp [hmem, hfind]
  | some u => simp [hmem, hfind]

theorem NetworkBody.faithful : Faithful NetworkBody.toValue NetworkBody.ofValue? where
  exact b := .record <| by
    simp only [List.forall_mem_cons]
    exact ⟨Address4.faithful.exact _, Address4.faithful.list.exact _, nofun⟩
  readsBack b := by
    rw [NetworkBody.ofValue?, NetworkBody.toValue, slots?_record rfl (by simp)]
    simp only [List.map_cons, List.map_nil, some_bind, Address4.faithful.required,
      Address4.faithful.list.required, AddressSet.ofList_toList]
    rfl

theorem SummaryBody.faithful : Faithful SummaryBody.toValue SummaryBody.ofValue? where
  exact b := .record <| by
    simp only [List.forall_mem_cons]
    exact ⟨Address4.faithful.exact _, faithful_uint32.exact _, nofun⟩
  readsBack b := by
    rw [SummaryBody.ofValue?, SummaryBody.toValue, slots?_record rfl (by simp)]
    simp only [List.map_cons, List.map_nil, some_bind, Address4.faithful.required,
      faithful_uint32.required]
    rfl

theorem ExternalBody.faithful : Faithful ExternalBody.toValue ExternalBody.ofValue? where
  exact b := .record <| by
    simp only [List.forall_mem_cons]
    exact ⟨Address4.faithful.exact _, ExternalFlags.faithful.exact _, faithful_uint32.exact _,
      Address4.faithful_option.exact _, faithful_uint32.exact _, nofun⟩
  readsBack b := by
    rw [ExternalBody.ofValue?, ExternalBody.toValue, slots?_record rfl (by simp)]
    simp only [List.map_cons, List.map_nil, some_bind, Address4.faithful.required,
      ExternalFlags.faithful.defaulted, faithful_uint32.required, Address4.faithful_option.defaulted,
      faithful_uint32.defaulted]
    rfl

/-- Bodies of all kinds come back, each under the name of its kind. -/
theorem Body.faithful : Faithful Body.toValue Body.ofValue? where
  exact b := .record <| by
    simp only [List.forall_mem_cons]
    refine ⟨?_, nofun⟩
    cases b with
    | router b => exact RouterBody.faithful.exact b
    | network b => exact NetworkBody.faithful.exact b
    | summaryNetwork b | summaryRouter b => exact SummaryBody.faithful.exact b
    | asExternal b | nssaExternal b => exact ExternalBody.faithful.exact b
  readsBack b := by
    cases b <;>
      simp only [Body.toValue, Body.ofValue?, variant, Body.kind, LsaKind.name, variant?, Option.bind_eq_bind,
        Option.bind_some, RouterBody.faithful.readsBack, NetworkBody.faithful.readsBack,
        SummaryBody.faithful.readsBack, ExternalBody.faithful.readsBack, Option.map_some]

/-! ## Routes -/

theorem ExternalRoute.faithful : Faithful ExternalRoute.toValue ExternalRoute.ofValue? where
  exact r := .record <| by
    simp only [List.forall_mem_cons]
    exact ⟨Network4.faithful.exact _, faithful_uint32.exact _, MetricType.faithful.exact _,
      Address4.faithful_option.exact _, faithful_uint32.exact _, nofun⟩
  readsBack r := by
    rw [ExternalRoute.ofValue?, ExternalRoute.toValue, slots?_record rfl (by simp)]
    simp only [List.map_cons, List.map_nil, some_bind, Network4.faithful.required,
      faithful_uint32.required, MetricType.faithful.defaulted, Address4.faithful_option.defaulted,
      faithful_uint32.defaulted]
    rfl

end Ospf

end RoutingReplay
