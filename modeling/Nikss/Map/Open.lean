import Nikss.Btf.MapType
import Nikss.Kernel.Calls

/-! # Opening a map

`open_bpf_map` opens the map pinned under a pipeline, reads its kernel info through
`update_map_info`, and, given a loaded BTF, resolves the canonical key and value types:
from the kernel's BTF ids when they are set, otherwise from the members `key` and
`value` of the map's struct in the `.maps` section.
-/

namespace Nikss

open Btf

/-- `nikss_bpf_map_descriptor_t`. -/
structure MapDescriptor where
  fd : Int
  type : Nat
  keySize : Nat
  valueSize : Nat
  maxEntries : Nat
  mapKeyTypeId : Nat
  mapValueTypeId : Nat
  keyTypeId : Nat
  valueTypeId : Nat
  deriving DecidableEq, Repr

/-- A descriptor holding only a handle. -/
def MapDescriptor.ofFd (fd : Int) : MapDescriptor := ⟨fd, 0, 0, 0, 0, 0, 0, 0, 0⟩

/-- `update_map_info`: copy the kernel's `bpf_map_info` into the descriptor. A handle on
an object that is not a map leaves the fields as they were. -/
def updateMapInfo (md : MapDescriptor) : Sys (Int × MapDescriptor) := do
  if md.fd < 0 then pure (EBADF, md) else
  let (result, info) ← bpfObjGetInfoByFd md.fd
  if result ≠ 0 then pure (← getErrno, md) else
  match info with
  | some (_, .map info) =>
    pure (NO_ERROR,
      { md with
        type := info.type
        keySize := info.keySize
        valueSize := info.valueSize
        maxEntries := info.maxEntries
        mapKeyTypeId := info.btfKeyTypeId
        mapValueTypeId := info.btfValueTypeId })
  | _ => pure (NO_ERROR, md)

/-- The BTF part of `open_bpf_map`: the canonical key and value types. -/
def resolveMapTypes (btf : Btf) (name : String) (md : MapDescriptor) : Option MapDescriptor := do
  let btfTypeId ← btf.getMapTypeIdByName name
  let keyTypeId ← if md.mapKeyTypeId = 0 then btf.getMemberTypeIdByName btfTypeId "key"
    else btf.followTypes md.mapKeyTypeId
  let valueTypeId ← if md.mapValueTypeId = 0 then btf.getMemberTypeIdByName btfTypeId "value"
    else btf.followTypes md.mapValueTypeId
  pure { md with keyTypeId := keyTypeId, valueTypeId := valueTypeId }

/-- `open_bpf_map`; `btf` is `none` for a NULL or unloaded `nikss_btf_t`. -/
def openBpfMap (ctx : NikssContext) (name : String) (btf : Option Btf) :
    Sys (Int × MapDescriptor) := do
  let fd ← bpfObjGet (buildEbpfMapFilename ctx name)
  if fd < 0 then pure (← getErrno, .ofFd fd) else
  let (errnoVal, md) ← updateMapInfo (.ofFd fd)
  if errnoVal ≠ NO_ERROR then pure (errnoVal, md) else
  let md := { md with keyTypeId := 0, valueTypeId := 0 }
  match btf with
  | none => pure (NO_ERROR, md)
  | some btf => do
    let md ← resolveMapTypes btf name md
    pure (NO_ERROR, md)

/-- The type `open_bpf_map` is documented to give member `memberName` of map `name` when
the kernel has no BTF id for it: that member of the canonical type of the
map's entry in the `.maps` section, 0 when there is no section, entry or member. -/
def Btf.mapMemberType (b : Btf) (name memberName : String) : Option Nat :=
  match b.mapsEntryType name with
  | none => some 0
  | some entryTypeId => (b.followTypes entryTypeId).bind fun struct => b.firstMemberType struct memberName

section Resolution

variable {b : Btf} (wf : b.WellFormed) (entries : b.EntriesWellFormed) (acyclic : b.Acyclic)
include wf

/-- The documented member type is what the two lookups of `open_bpf_map` compute. -/
theorem mapMemberType_eq (name memberName : String) :
    b.mapMemberType name memberName =
      (b.getMapTypeIdByName name).bind fun btfTypeId => b.getMemberTypeIdByName btfTypeId memberName := by
  simp only [getMapTypeIdByName_eq wf, getMemberTypeIdByName_eq, Btf.mapMemberType]
  cases b.mapsEntryType name <;> rfl

include acyclic

/-- Each of the key and the value resolves to the documented type, and that type is
canonical. -/
theorem resolved_member_type {name : String} {btfTypeId : Nat}
    (found : b.getMapTypeIdByName name = some btfTypeId) (memberName : String) {typeId : Nat}
    (bound : typeId ≤ b.nrTypes) :
    ∃ result,
      (if typeId = 0 then b.getMemberTypeIdByName btfTypeId memberName else b.followTypes typeId) =
        some result ∧
      (if typeId = 0 then b.mapMemberType name memberName else b.followTypes typeId) = some result ∧
      b.followTypes result = some result := by
  by_cases zero : typeId = 0
  · obtain ⟨result, first, fixed⟩ := firstMemberType_idempotent wf acyclic btfTypeId memberName
    have member := (getMemberTypeIdByName_eq btfTypeId memberName).trans first
    exact ⟨result, by simp [zero, member], by simp [zero, mapMemberType_eq wf, found, member], fixed⟩
  · obtain ⟨result, follow, fixed⟩ := followTypes_idempotent wf acyclic bound
    exact ⟨result, by simp [zero, follow], by simp [zero, follow], fixed⟩

include entries

/-- `open_bpf_map` with a loaded BTF, once the pinned handle opens and its info is read,
succeeds. A key or value id the kernel gives (an id `0..n`) is canonicalized; without
one, the member `key` or `value` of the canonical type of the map's entry in the `.maps`
section is taken (the first node named `.maps`, when it is a datasec), 0 when there is no
section, entry or member. Every id resolved is canonical. -/
theorem openBpfMap_resolves_types {ctx : NikssContext} {name : String} {w w₁ w₂ : World}
    {fd : Int} {md : MapDescriptor}
    (opened : bpfObjGet (buildEbpfMapFilename ctx name) w = some (fd, w₁)) (valid : 0 ≤ fd)
    (read : updateMapInfo (.ofFd fd) w₁ = some ((NO_ERROR, md), w₂))
    (keyBound : md.mapKeyTypeId ≤ b.nrTypes) (valueBound : md.mapValueTypeId ≤ b.nrTypes) :
    ∃ key value,
      openBpfMap ctx name (some b) w =
        some ((NO_ERROR, { md with keyTypeId := key, valueTypeId := value }), w₂) ∧
      (if md.mapKeyTypeId = 0 then b.mapMemberType name "key"
        else b.followTypes md.mapKeyTypeId) = some key ∧
      (if md.mapValueTypeId = 0 then b.mapMemberType name "value"
        else b.followTypes md.mapValueTypeId) = some value ∧
      b.followTypes key = some key ∧ b.followTypes value = some value := by
  obtain ⟨btfTypeId, found, -⟩ : ∃ btfTypeId, b.getMapTypeIdByName name = some btfTypeId ∧
      b.followTypes btfTypeId = some btfTypeId := by
    rw [getMapTypeIdByName_eq wf]
    cases entry : b.mapsEntryType name with
    | none => exact ⟨0, rfl, rfl⟩
    | some entryTypeId => exact followTypes_idempotent wf acyclic (mapsEntryType_le entries entry)
  obtain ⟨key, keyResolved, keyDocumented, keyFixed⟩ :=
    resolved_member_type wf acyclic found "key" keyBound
  obtain ⟨value, valueResolved, valueDocumented, valueFixed⟩ :=
    resolved_member_type wf acyclic found "value" valueBound
  refine ⟨key, value, ?_, keyDocumented, valueDocumented, keyFixed, valueFixed⟩
  have resolve : resolveMapTypes b name { md with keyTypeId := 0, valueTypeId := 0 } =
      some { md with keyTypeId := key, valueTypeId := value } := by
    simp only [resolveMapTypes, found, Option.bind_eq_bind, Option.some_bind]
    split_ifs at keyResolved valueResolved ⊢ <;> simp [keyResolved, valueResolved]
  simp [openBpfMap, opened, read, not_lt.mpr valid, resolve]

end Resolution

set_option maxRecDepth 4000 in
set_option smartUnfolding false in
/-- `openBpfMap_resolves_types` on a map `m` whose entry in `.maps` is a struct with an
int `key` and an int `value`, the kernel giving no BTF ids. -/
theorem openBpfMap_resolves_types_on_entry :
    let b : Btf := ⟨[⟨1, .datasec, false, 0, [], [⟨2, 0, 4⟩], ⟨0, 0, 0⟩⟩,
      ⟨7, .var, false, 3, [], [], ⟨0, 0, 0⟩⟩,
      ⟨0, .struct, false, 8, [⟨9, 4, 0⟩, ⟨13, 4, 32⟩], [], ⟨0, 0, 0⟩⟩,
      ⟨0, .int, false, 4, [], [], ⟨0, 0, 0⟩⟩], "\x00.maps\x00m\x00key\x00value\x00".toList⟩
    let w : World :=
      { World.boot (fun _ => none) [] (fun _ => .bare false) [] with
        pins := fun path => if path = .map 0 "m" then some 1 else none
        objects := fun id => if id = 1 then some (.map ⟨1, 4, 4, 16, 0, 0⟩) else none
        nextId := 2 }
    b.WellFormed ∧ b.EntriesWellFormed ∧ b.Acyclic ∧
      ∃ key value, (openBpfMap ⟨0⟩ "m" (some b) w).map (fun result =>
          (result.1.1, result.1.2.keyTypeId, result.1.2.valueTypeId)) = some (NO_ERROR, key, value) ∧
        b.followTypes key = some key ∧ b.followTypes value = some value := by
  intro b w
  have wf : b.WellFormed := by decide
  have entries : b.EntriesWellFormed := by decide
  have acyclic : b.Acyclic := acyclic_of_flat (by decide)
  obtain ⟨key, value, run, -, -, keyFixed, valueFixed⟩ :=
    @openBpfMap_resolves_types b wf entries acyclic ⟨0⟩ "m" w _ _ _ _ rfl (by decide) rfl
      (by decide) (by decide)
  exact ⟨wf, entries, acyclic, key, value, by rw [run]; rfl, keyFixed, valueFixed⟩

set_option maxRecDepth 4000 in
set_option smartUnfolding false in
/-- `open_bpf_map` with a well-formed acyclic type graph goes wrong three ways. A key id
the kernel gives past the last node makes `follow_types` dereference NULL; so does a
`.maps` entry whose variable's type lies past the last node. And a first node named
`.maps` that is no datasec hides the datasec named `.maps` after it (node 2, whose entry
`m` is the struct 4 with member `key` of type 5): the key resolves to 0. -/
theorem openBpfMap_misses_documented_types :
    let w : World :=
      { World.boot (fun _ => none) [] (fun _ => .bare false) [] with
        pins := fun path => if path = .map 0 "m" then some 1 else none
        objects := fun id => if id = 1 then some (.map ⟨1, 4, 4, 16, 0, 0⟩) else none
        nextId := 2 }
    let keyPastEnd : World :=
      { w with objects := fun id => if id = 1 then some (.map ⟨1, 4, 4, 16, 5, 0⟩) else none }
    let flat : Btf := ⟨[⟨0, .int, false, 4, [], [], ⟨0, 0, 0⟩⟩], []⟩
    let varPastEnd : Btf := ⟨[⟨1, .datasec, false, 0, [], [⟨2, 0, 4⟩], ⟨0, 0, 0⟩⟩,
      ⟨7, .var, false, 5, [], [], ⟨0, 0, 0⟩⟩], "\x00.maps\x00m\x00".toList⟩
    let hidden : Btf := ⟨[⟨1, .struct, false, 0, [], [], ⟨0, 0, 0⟩⟩,
      ⟨1, .datasec, false, 0, [], [⟨3, 0, 4⟩], ⟨0, 0, 0⟩⟩,
      ⟨7, .var, false, 4, [], [], ⟨0, 0, 0⟩⟩,
      ⟨0, .struct, false, 4, [⟨9, 5, 0⟩], [], ⟨0, 0, 0⟩⟩,
      ⟨0, .int, false, 4, [], [], ⟨0, 0, 0⟩⟩], "\x00.maps\x00m\x00key\x00".toList⟩
    (flat.WellFormed ∧ flat.Acyclic) ∧ (varPastEnd.WellFormed ∧ varPastEnd.Acyclic) ∧
      (hidden.WellFormed ∧ hidden.Acyclic) ∧
      (openBpfMap ⟨0⟩ "m" none keyPastEnd).map (fun result => result.1.1) = some NO_ERROR ∧
      openBpfMap ⟨0⟩ "m" (some flat) keyPastEnd = none ∧
      (openBpfMap ⟨0⟩ "m" none w).map (fun result => result.1.1) = some NO_ERROR ∧
      openBpfMap ⟨0⟩ "m" (some varPastEnd) w = none ∧
      hidden.getMemberTypeIdByName 4 "key" = some 5 ∧
      (openBpfMap ⟨0⟩ "m" (some hidden) w).map (fun result => result.1.2.keyTypeId) = some 0 :=
  ⟨⟨by decide, acyclic_of_flat (by decide)⟩, ⟨by decide, acyclic_of_flat (by decide)⟩,
    ⟨by decide, acyclic_of_flat (by decide)⟩, rfl, rfl, rfl, rfl, rfl, rfl⟩

end Nikss
