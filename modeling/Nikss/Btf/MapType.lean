import Nikss.Btf.Member
import Nikss.Btf.Size

/-! # Map type lookup

`get_map_type_id_by_name` scans nodes `1..n` for the first one named `.maps` (whatever
its kind), lets `find_data_section_type_id` look, if that node is a datasec, for the
first entry whose node is named after the map, and canonicalizes the entry's `type`
field. `open_bpf_map` then reads the members `key` and `value` of the struct found.

The scans are characterized by `List.find?` (`findMapsSection_eq`, `secinfoScan_eq`):
each returns the first match. Section `Totality` collects the totality of every lookup
of the engine; it needs, beyond `WellFormed`, that the `type` field of the node each
datasec entry names lies in `0..n` (`EntriesWellFormed`), which the kernel's BTF checker
guarantees for the variables a datasec lists.
-/

namespace Nikss.Btf

variable (b : Btf)

/-- Node `typeId` has a nonzero name offset that resolves to `.maps`. -/
def NamedMaps (typeId : Nat) : Prop :=
  ∃ type, b.typeById typeId = some type ∧ type.nameOff ≠ 0 ∧ b.nameByOffset type.nameOff = some ".maps"

instance (typeId : Nat) : Decidable (b.NamedMaps typeId) :=
  match found : b.typeById typeId with
  | none => isFalse fun ⟨_, present, _⟩ => by simp [found] at present
  | some type =>
    decidable_of_iff (type.nameOff ≠ 0 ∧ b.nameByOffset type.nameOff = some ".maps")
      ⟨fun named => ⟨type, found, named⟩, fun ⟨_, present, named⟩ => by
        rw [found, Option.some.injEq] at present
        exact present ▸ named⟩

/-- The first loop of `get_map_type_id_by_name`: the first id of `typeIds` named `.maps`,
0 when there is none. -/
def findMapsSection : List Nat → Option Nat
  | [] => some 0
  | typeId :: typeIds => do
    let type ← b.typeById typeId
    if type.nameOff = 0 then findMapsSection typeIds else
    match b.nameByOffset type.nameOff with
    | none => findMapsSection typeIds
    | some typeName => if typeName = ".maps" then pure typeId else findMapsSection typeIds

/-- The name of the node a datasec entry refers to. -/
def entryName (info : BtfVarSecinfo) : Option String :=
  (b.typeById info.type).bind fun entryType => b.nameByOffset entryType.nameOff

/-- The loop of `find_data_section_type_id` over the entries of a datasec. -/
def secinfoScan (name : String) : List BtfVarSecinfo → Option Nat
  | [] => some 0
  | info :: infos => do
    let entryType ← b.typeById info.type
    match b.nameByOffset entryType.nameOff with
    | some entryName => if entryName = name then pure entryType.sizeType else secinfoScan name infos
    | none => secinfoScan name infos

/-- `find_data_section_type_id`: the `type` field of the first entry of datasec
`secTypeId` named `name`, 0 when there is none or the node is no datasec. -/
def findDataSectionTypeId (secTypeId : Nat) (name : String) : Option Nat :=
  match b.typeById secTypeId with
  | none => some 0
  | some type => if type.kind ≠ .datasec then some 0 else b.secinfoScan name type.secinfos

/-- `get_map_type_id_by_name`. -/
def getMapTypeIdByName (name : String) : Option Nat := do
  let typeId ← b.findMapsSection (List.range' 1 b.nrTypes)
  if typeId = 0 then pure 0 else do
    let typeId ← b.findDataSectionTypeId typeId name
    b.followTypes typeId

/-- Following the specification: the `type` field of the node of the first entry named `name` in
the first node named `.maps`, when that node is a datasec. -/
def mapsEntryType (name : String) : Option Nat := do
  let secTypeId ← (List.range' 1 b.nrTypes).find? fun typeId => b.NamedMaps typeId
  let secType ← b.typeById secTypeId
  if secType.kind ≠ .datasec then none else
  let info ← secType.secinfos.find? fun info => b.entryName info = some name
  let entryType ← b.typeById info.type
  pure entryType.sizeType

/-- The node each datasec entry names has its `type` field in `0..n`. -/
def EntriesWellFormed : Prop :=
  ∀ type ∈ b.types, type.kind = .datasec → ∀ info ∈ type.secinfos,
    ∀ entryType ∈ b.typeById info.type, entryType.sizeType ≤ b.nrTypes

instance : Decidable b.EntriesWellFormed :=
  inferInstanceAs (Decidable (∀ type ∈ b.types, type.kind = .datasec → ∀ info ∈ type.secinfos,
    ∀ entryType ∈ b.typeById info.type, entryType.sizeType ≤ b.nrTypes))

variable {b}

/-- The `.maps` scan returns the first id named `.maps`, or 0. -/
theorem findMapsSection_eq :
    ∀ {typeIds : List Nat}, (∀ typeId ∈ typeIds, typeId ≤ b.nrTypes) →
      b.findMapsSection typeIds = some ((typeIds.find? fun typeId => b.NamedMaps typeId).getD 0)
  | [], _ => rfl
  | typeId :: typeIds, bounded => by
    obtain ⟨type, found⟩ := exists_typeById (bounded typeId (List.mem_cons_self _ _))
    have rest := findMapsSection_eq fun other mem => bounded other (List.mem_cons_of_mem _ mem)
    have named : b.NamedMaps typeId ↔ type.nameOff ≠ 0 ∧ b.nameByOffset type.nameOff = some ".maps" :=
      ⟨fun ⟨_, present, named⟩ => by rw [found, Option.some.injEq] at present; exact present ▸ named,
        fun named => ⟨type, found, named⟩⟩
    simp only [findMapsSection, found, Option.bind_eq_bind, Option.some_bind, List.find?_cons, named]
    by_cases zero : type.nameOff = 0
    · simp [zero, rest]
    · cases name : b.nameByOffset type.nameOff with
      | none => simp [zero, name, rest]
      | some typeName => by_cases maps : typeName = ".maps" <;> simp [zero, name, maps, rest]

/-- The entry scan returns the `type` field of the first entry named `name`, or 0. -/
theorem secinfoScan_eq (name : String) :
    ∀ {infos : List BtfVarSecinfo}, (∀ info ∈ infos, info.type ≤ b.nrTypes) →
      b.secinfoScan name infos =
        some (((infos.find? fun info => b.entryName info = some name).bind
          fun info => (b.typeById info.type).map BtfType.sizeType).getD 0)
  | [], _ => rfl
  | info :: infos, bounded => by
    obtain ⟨entryType, found⟩ := exists_typeById (bounded info (List.mem_cons_self _ _))
    have rest := secinfoScan_eq name fun other mem => bounded other (List.mem_cons_of_mem _ mem)
    have head : b.entryName info = b.nameByOffset entryType.nameOff := by simp [entryName, found]
    simp only [secinfoScan, found, Option.bind_eq_bind, Option.some_bind, List.find?_cons, head]
    cases name' : b.nameByOffset entryType.nameOff with
    | none => simp [name', rest]
    | some entryName => by_cases hit : entryName = name <;> simp [hit, rest, found]

/-- With `EntriesWellFormed`, the entry's type is an id `0..n`. -/
theorem mapsEntryType_le (entries : b.EntriesWellFormed) {name : String} {entryTypeId : Nat}
    (found : b.mapsEntryType name = some entryTypeId) : entryTypeId ≤ b.nrTypes := by
  simp only [mapsEntryType, Option.bind_eq_bind, Option.bind_eq_some] at found
  obtain ⟨secTypeId, first, secType, secFound, rest⟩ := found
  have range := List.mem_range'_1.mp (List.mem_of_find?_eq_some first)
  by_cases datasec : secType.kind = .datasec
  · simp only [datasec, ne_eq, not_true_eq_false, if_false, Option.bind_eq_some] at rest
    obtain ⟨info, entry, entryType, entryFound, sized⟩ := rest
    cases sized
    exact entries secType (typeById_mem secFound (by omega)) datasec info
      (List.mem_of_find?_eq_some entry) entryType entryFound
  · simp [datasec] at rest

section Totality

variable (wf : b.WellFormed)
include wf

/-- `find_data_section_type_id` returns, and with `EntriesWellFormed` its answer is an id
`0..n`. -/
theorem findDataSectionTypeId_spec (entries : b.EntriesWellFormed) (secTypeId : Nat)
    (name : String) : ∃ typeId, b.findDataSectionTypeId secTypeId name = some typeId ∧
      typeId ≤ b.nrTypes := by
  unfold findDataSectionTypeId
  cases found : b.typeById secTypeId with
  | none => exact ⟨0, rfl, Nat.zero_le _⟩
  | some type =>
    by_cases datasec : type.kind = .datasec
    swap
    · exact ⟨0, by simp [datasec], Nat.zero_le _⟩
    have nonzero : secTypeId ≠ 0 := by
      rintro rfl
      simp only [typeById_zero, Option.some.injEq] at found
      subst found
      cases datasec
    have mem := typeById_mem found nonzero
    have bounded : ∀ info ∈ type.secinfos, info.type ≤ b.nrTypes := fun info info_mem =>
      wf type mem _ (by simp only [BtfType.refs, datasec]; exact List.mem_map_of_mem _ info_mem)
    refine ⟨_, by simp only [datasec, ne_eq, not_true_eq_false, if_false]; exact secinfoScan_eq name bounded, ?_⟩
    cases first : type.secinfos.find? fun info => b.entryName info = some name with
    | none => exact Nat.zero_le _
    | some info =>
      obtain ⟨entryType, entryFound⟩ :=
        exists_typeById (bounded info (List.mem_of_find?_eq_some first))
      simpa [entryFound] using
        entries type mem datasec info (List.mem_of_find?_eq_some first) entryType entryFound

/-- On a well-formed acyclic graph whose datasec entries name nodes with `type` fields in
`0..n`, every lookup of the reflection engine returns on every id `0..n`: none
dereferences NULL and none loops for ever. The `.maps` scan runs over ids `1..n` in order
and stops at the first node named `.maps` (of any kind), answering 0 when there is none. -/
theorem reflection_total (entries : b.EntriesWellFormed) (acyclic : b.Acyclic) :
    (∀ typeId ≤ b.nrTypes, (b.followTypes typeId).isSome ∧ (b.btfGetTypeById typeId).isSome ∧
      (b.btfGetTypeSizeById typeId).isSome ∧
      ∀ memberName index, (b.btfGetMemberMdByName typeId memberName).isSome ∧
        (b.btfGetMemberMdByIndex typeId index).isSome) ∧
    (∀ secTypeId name, (b.findDataSectionTypeId secTypeId name).isSome) ∧
    (∀ name, (b.getMapTypeIdByName name).isSome) ∧
    b.findMapsSection (List.range' 1 b.nrTypes) =
      some (((List.range' 1 b.nrTypes).find? fun typeId => b.NamedMaps typeId).getD 0) := by
  have scan := @findMapsSection_eq b (List.range' 1 b.nrTypes) fun typeId mem => by
    simp only [List.mem_range'_1] at mem; omega
  obtain ⟨rank, decreasing, bounded⟩ := exists_link_rank wf acyclic
  refine ⟨fun typeId bound => ⟨?_, ?_, ?_, fun memberName index =>
    ⟨btfGetMemberMdByName_isSome wf acyclic typeId memberName,
      btfGetMemberMdByIndex_isSome wf acyclic typeId index⟩⟩, fun secTypeId name => ?_,
    fun name => ?_, scan⟩
  · obtain ⟨_, follow, -⟩ := followTypes_spec wf acyclic bound
    simp [follow]
  · obtain ⟨result, follow, -⟩ := followTypes_spec wf acyclic bound
    by_cases zero : result = 0 <;> simp [btfGetTypeById, follow, zero]
  · exact typeSizeLoop_isSome wf acyclic decreasing _ _ bound (Nat.lt_succ_of_le (bounded typeId))
  · obtain ⟨_, found, -⟩ := findDataSectionTypeId_spec wf entries secTypeId name
    simp [found]
  · simp only [getMapTypeIdByName, scan, Option.bind_eq_bind, Option.some_bind]
    split
    · rfl
    · obtain ⟨typeId, found, bound⟩ := findDataSectionTypeId_spec wf entries _ name
      obtain ⟨_, follow, -⟩ := followTypes_spec wf acyclic bound
      rw [found, Option.some_bind, follow]
      rfl

/-- `get_map_type_id_by_name` canonicalizes the type of the map's entry in the `.maps`
section, and `void` when there is none. -/
theorem getMapTypeIdByName_eq (name : String) :
    b.getMapTypeIdByName name = b.followTypes ((b.mapsEntryType name).getD 0) := by
  have scan := @findMapsSection_eq b (List.range' 1 b.nrTypes) fun typeId mem => by
    simp only [List.mem_range'_1] at mem; omega
  simp only [getMapTypeIdByName, mapsEntryType, scan, Option.bind_eq_bind, Option.some_bind]
  cases first : (List.range' 1 b.nrTypes).find? fun typeId => b.NamedMaps typeId with
  | none => rfl
  | some secTypeId =>
    have range := List.mem_range'_1.mp (List.mem_of_find?_eq_some first)
    obtain ⟨secType, found⟩ := exists_typeById (b := b) (by omega : secTypeId ≤ b.nrTypes)
    have nonzero : secTypeId ≠ 0 := by omega
    simp only [Option.getD_some, nonzero, if_false, findDataSectionTypeId, found, Option.some_bind]
    by_cases datasec : secType.kind = .datasec
    · have bounded : ∀ info ∈ secType.secinfos, info.type ≤ b.nrTypes := fun info mem =>
        wf secType (typeById_mem found nonzero) _
          (by simp only [BtfType.refs, datasec]; exact List.mem_map_of_mem _ mem)
      simp only [datasec, ne_eq, not_true_eq_false, if_false, secinfoScan_eq name bounded,
        Option.some_bind]
      cases entry : secType.secinfos.find? fun info => b.entryName info = some name with
      | none => rfl
      | some info =>
        obtain ⟨entryType, entryFound⟩ :=
          exists_typeById (bounded info (List.mem_of_find?_eq_some entry))
        simp [entryFound]
    · simp [datasec]

end Totality

/-- `WellFormed` alone leaves the `type` field of a datasec's variable unchecked, which is
why `EntriesWellFormed` is needed: here the variable `m` of `.maps` has type 5 in a graph of two nodes, and the
lookup of `m` canonicalizes 5, dereferencing NULL. -/
theorem getMapTypeIdByName_crashes_on_var_past_end :
    let b : Btf := ⟨[⟨1, .datasec, false, 0, [], [⟨2, 0, 4⟩], ⟨0, 0, 0⟩⟩,
      ⟨7, .var, false, 5, [], [], ⟨0, 0, 0⟩⟩], "\x00.maps\x00m\x00".toList⟩
    b.WellFormed ∧ b.Acyclic ∧ b.getMapTypeIdByName "m" = none :=
  ⟨by decide, acyclic_of_flat (by decide), rfl⟩

/-- `reflection_total` on a graph with a `.maps` section listing map `m`, whose struct has a
member `key` of an int type. -/
theorem reflection_total_on_maps_section :
    let b : Btf := ⟨[⟨1, .datasec, false, 0, [], [⟨2, 0, 4⟩], ⟨0, 0, 0⟩⟩,
      ⟨7, .var, false, 3, [], [], ⟨0, 0, 0⟩⟩,
      ⟨0, .struct, false, 4, [⟨9, 4, 0⟩], [], ⟨0, 0, 0⟩⟩,
      ⟨0, .int, false, 4, [], [], ⟨0, 0, 0⟩⟩], "\x00.maps\x00m\x00key\x00".toList⟩
    b.WellFormed ∧ b.EntriesWellFormed ∧ b.Acyclic ∧ ∀ name, (b.getMapTypeIdByName name).isSome :=
  ⟨by decide, by decide, acyclic_of_flat (by decide),
    (reflection_total (by decide) (by decide) (acyclic_of_flat (by decide))).2.2.1⟩


end Nikss.Btf
