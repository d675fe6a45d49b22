import Mathlib.Logic.Relation
import Mathlib.Data.Finset.Card

/-! # The BTF type graph

Kernel-exported BTF as the reflection engine reads it through libbpf: a list of type
nodes numbered from 1 (id 0 is the `void` sentinel), the raw string section, and the
accessors `btf__type_by_id`, `btf__name_by_offset` and `btf__get_nr_types`.

The assumptions every result about the engine shares are stated here once.
`WellFormed` says that every id a typedef, pointer, array, struct/union member or datasec
entry refers to names a node or `void`; `Acyclic` says that no cycle runs through
typedef/pointer and array-element links. `exists_link_rank` turns the two into a measure
that every link decreases, and every termination argument of the engine goes through it.
-/

namespace Nikss

/-- The kinds of `struct btf_type` (`BTF_KIND_*`). -/
inductive BtfKind
  | unkn | int | ptr | array | struct | union | enum | fwd | typedef | volatile | const
  | restrict | func | funcProto | var | datasec | float | declTag | typeTag | enum64
  deriving DecidableEq, Repr

/-- `struct btf_member`. -/
structure BtfMember where
  nameOff : Nat
  type : Nat
  offset : Nat
  deriving DecidableEq, Repr

/-- `struct btf_var_secinfo`, one entry of a datasec. -/
structure BtfVarSecinfo where
  type : Nat
  offset : Nat
  size : Nat
  deriving DecidableEq, Repr

/-- `struct btf_array`. -/
structure BtfArray where
  type : Nat
  indexType : Nat
  nelems : Nat
  deriving DecidableEq, Repr

/-- A `struct btf_type` with the records that follow it. `sizeType` is the C union of
`size` and `type`; `members`, `secinfos` and `array` are the trailing records of
struct/union, datasec and array nodes. -/
structure BtfType where
  nameOff : Nat
  kind : BtfKind
  kindFlag : Bool
  sizeType : Nat
  members : List BtfMember
  secinfos : List BtfVarSecinfo
  array : BtfArray
  deriving DecidableEq, Repr

/-- The zeroed `btf_void` that `btf__type_by_id` returns for id 0. -/
def btfVoid : BtfType := ⟨0, .unkn, false, 0, [], [], ⟨0, 0, 0⟩⟩

/-- `btf_vlen`: the number of trailing records. -/
def BtfType.vlen (type : BtfType) : Nat :=
  match type.kind with
  | .datasec => type.secinfos.length
  | _ => type.members.length

/-- `btf_member_bit_offset`: with the kind flag set, the low 24 bits of the offset field. -/
def BtfType.memberBitOffset (type : BtfType) (member : BtfMember) : Nat :=
  if type.kindFlag then member.offset % 2 ^ 24 else member.offset

/-- `btf_is_typedef(type) || btf_is_ptr(type)`: the links `follow_types` walks. -/
def BtfType.IsAlias (type : BtfType) : Prop := type.kind = .typedef ∨ type.kind = .ptr

instance (type : BtfType) : Decidable type.IsAlias :=
  inferInstanceAs (Decidable (type.kind = .typedef ∨ type.kind = .ptr))

/-- A struct or a union, the kinds both lookups accept. -/
def BtfType.IsAggregate (type : BtfType) : Prop := type.kind = .struct ∨ type.kind = .union

instance (type : BtfType) : Decidable type.IsAggregate :=
  inferInstanceAs (Decidable (type.kind = .struct ∨ type.kind = .union))

/-- The ids a node refers to, as the well-formedness assumption counts them. -/
def BtfType.refs (type : BtfType) : List Nat :=
  match type.kind with
  | .typedef | .ptr => [type.sizeType]
  | .array => [type.array.type]
  | .struct | .union => type.members.map BtfMember.type
  | .datasec => type.secinfos.map BtfVarSecinfo.type
  | _ => []

/-- A parsed BTF object: type nodes `1..n` in order, and the string section. -/
structure Btf where
  types : List BtfType
  strings : List Char

namespace Btf

variable (b : Btf)

/-- `btf__get_nr_types`. -/
def nrTypes : Nat := b.types.length

/-- `btf__type_by_id`: `btf_void` for id 0, NULL (`none`) past the last node. -/
def typeById (typeId : Nat) : Option BtfType :=
  if typeId = 0 then some btfVoid else b.types[typeId - 1]?

/-- `btf__name_by_offset`: the NUL-terminated string at `offset` in the string section,
NULL (`none`) past its end. -/
def nameByOffset (offset : Nat) : Option String :=
  if offset < b.strings.length then
    some ⟨(b.strings.drop offset).takeWhile (· ≠ '\x00')⟩
  else none

/-! ## Well-formedness -/

/-- Every id referenced by a typedef, pointer, array element, struct/union member or
datasec entry names a node or `void`. -/
def WellFormed : Prop := ∀ type ∈ b.types, ∀ ref ∈ type.refs, ref ≤ b.nrTypes

instance : Decidable b.WellFormed :=
  inferInstanceAs (Decidable (∀ type ∈ b.types, ∀ ref ∈ type.refs, ref ≤ b.nrTypes))

/-- One typedef/pointer link or array-element link of the graph. -/
inductive Link : Nat → Nat → Prop
  | follow {typeId : Nat} {type : BtfType} :
      b.typeById typeId = some type → type.IsAlias → Link typeId type.sizeType
  | elem {typeId : Nat} {type : BtfType} :
      b.typeById typeId = some type → type.kind = .array → Link typeId type.array.type

/-- No cycle runs through typedef/pointer links and array-element links. -/
def Acyclic : Prop := ∀ typeId, ¬ Relation.TransGen b.Link typeId typeId

/-- Every link of node `typeId` goes to a smaller id: a checkable ground for `Acyclic`. -/
def LinksDescend : Prop :=
  ∀ typeId < b.nrTypes + 1, ∀ type ∈ b.typeById typeId,
    (type.IsAlias → type.sizeType < typeId) ∧ (type.kind = .array → type.array.type < typeId)

instance : Decidable b.LinksDescend :=
  inferInstanceAs (Decidable (∀ typeId < b.nrTypes + 1, ∀ type ∈ b.typeById typeId,
    (type.IsAlias → type.sizeType < typeId) ∧ (type.kind = .array → type.array.type < typeId)))

/-! ## Basic facts -/

variable {b}

@[simp] theorem typeById_zero : b.typeById 0 = some btfVoid := rfl

theorem btfVoid_not_alias : ¬ btfVoid.IsAlias := by decide

theorem typeById_mem {typeId : Nat} {type : BtfType} (found : b.typeById typeId = some type)
    (nonzero : typeId ≠ 0) : type ∈ b.types := by
  simp only [typeById, nonzero, if_false] at found
  exact List.getElem?_mem found

theorem typeById_eq_none_iff {typeId : Nat} : b.typeById typeId = none ↔ b.nrTypes < typeId := by
  unfold typeById nrTypes
  split <;> simp [List.getElem?_eq_none_iff] <;> omega

theorem exists_typeById {typeId : Nat} (bound : typeId ≤ b.nrTypes) :
    ∃ type, b.typeById typeId = some type :=
  Option.ne_none_iff_exists'.mp (mt typeById_eq_none_iff.mp (by omega))

/-- A link starts at a real node: `void` links nowhere. -/
theorem Link.source_ne_zero {source target : Nat} (link : b.Link source target) :
    source ≠ 0 := by
  rintro rfl
  cases link with
  | follow found aliased =>
    simp only [typeById_zero, Option.some.injEq] at found
    exact btfVoid_not_alias (found ▸ aliased)
  | elem found array =>
    simp only [typeById_zero, Option.some.injEq] at found
    subst found
    cases array

theorem Link.source_le {source target : Nat} (link : b.Link source target) :
    source ≤ b.nrTypes := by
  cases link with
  | follow found => exact Nat.le_of_not_lt fun h => by simp [typeById_eq_none_iff.mpr h] at found
  | elem found => exact Nat.le_of_not_lt fun h => by simp [typeById_eq_none_iff.mpr h] at found

/-- On a well-formed graph a link ends at a node or at `void`. -/
theorem Link.target_le (wf : b.WellFormed) {source target : Nat} (link : b.Link source target) :
    target ≤ b.nrTypes := by
  have nonzero := link.source_ne_zero
  cases link with
  | follow found aliased =>
    refine wf _ (typeById_mem found nonzero) _ ?_
    rcases aliased with kind | kind <;> simp [BtfType.refs, kind]
  | elem found array => exact wf _ (typeById_mem found nonzero) _ (by simp [BtfType.refs, array])

/-- Acyclicity as a measure: the number of nodes reachable from a node strictly drops along
every link, and never exceeds the number of nodes. -/
theorem exists_link_rank (wf : b.WellFormed) (acyclic : b.Acyclic) :
    ∃ rank : Nat → Nat, (∀ source target, b.Link source target → rank target < rank source) ∧
      ∀ typeId, rank typeId ≤ b.nrTypes := by
  classical
  let reach := fun typeId => (Finset.range (b.nrTypes + 1)).filter (Relation.TransGen b.Link typeId)
  refine ⟨fun typeId => (reach typeId).card, fun source target link => ?_, fun typeId => ?_⟩
  · apply Finset.card_lt_card
    refine (Finset.ssubset_iff_of_subset fun node reached => ?_).mpr ⟨target, ?_, ?_⟩
    · simp only [reach, Finset.mem_filter] at reached ⊢
      exact ⟨reached.1, .head link reached.2⟩
    · simpa [reach] using ⟨Nat.lt_succ_of_le (link.target_le wf), .single link⟩
    · simpa [reach] using fun _ => acyclic target
  · by_cases bound : typeId ≤ b.nrTypes
    · have strict : reach typeId ⊂ Finset.range (b.nrTypes + 1) :=
        (Finset.ssubset_iff_of_subset (Finset.filter_subset _ _)).mpr
          ⟨typeId, by simpa using Nat.lt_succ_of_le bound, by simpa [reach] using fun _ => acyclic typeId⟩
      exact Nat.le_of_lt_succ (by simpa using Finset.card_lt_card strict)
    · have empty : reach typeId = ∅ := Finset.filter_false_of_mem fun node _ reached => by
        obtain ⟨next, link, _⟩ := Relation.TransGen.head'_iff.mp reached
        exact bound link.source_le
      simp [empty]

theorem Link.lt_of_descend (descend : b.LinksDescend) {source target : Nat}
    (link : b.Link source target) : target < source := by
  have bound := Nat.lt_succ_of_le link.source_le
  cases link with
  | follow found aliased => exact (descend _ bound _ found).1 aliased
  | elem found array => exact (descend _ bound _ found).2 array

theorem acyclic_of_linksDescend (descend : b.LinksDescend) : b.Acyclic := by
  have down : ∀ {source target}, Relation.TransGen b.Link source target → target < source := by
    intro source target path
    induction path with
    | single link => exact link.lt_of_descend descend
    | tail _ link below => exact (link.lt_of_descend descend).trans below
  exact fun typeId cycle => lt_irrefl _ (down cycle)

/-- A graph without typedef, pointer or array nodes has no links, hence no cycle. -/
theorem acyclic_of_flat (flat : ∀ type ∈ b.types, ¬ type.IsAlias ∧ type.kind ≠ .array) :
    b.Acyclic := by
  intro typeId cycle
  obtain ⟨next, link, -⟩ := Relation.TransGen.head'_iff.mp cycle
  have nonzero := link.source_ne_zero
  cases link with
  | follow found aliased => exact (flat _ (typeById_mem found nonzero)).1 aliased
  | elem found array => exact (flat _ (typeById_mem found nonzero)).2 array

end Btf
end Nikss
