import Mathlib.Data.Nat.ModEq
import Mathlib.Algebra.BigOperators.Group.List
import Mathlib.Algebra.Order.Ring.Nat
import Nikss.Btf.Follow

/-! # Type sizes

`btf_get_type_size_by_id` canonicalizes its argument and returns the declared size of an
int, struct or union, the size of the element times the element count of an array
(recursively), and 0 for every other node. The recursion has no bound in C; the model
bounds its depth by the number of nodes plus one. `typeSizeLoop_isSome` shows the bound
is never reached on a well-formed acyclic graph: each recursive call crosses an
array-element link, which the measure of `exists_link_rank` strictly decreases.

The size in closed form follows from one lemma per branch of the recursion: along the
`ArrayChain` of an id, the size is the declared size at its end times the element counts,
modulo 2^64 (`typeSizeLoop_of_chain`).
-/

namespace Nikss.Btf

variable (b : Btf)

/-- `btf_get_type_size_by_id` with its recursion depth bounded by `fuel`. -/
def typeSizeLoop : Nat → Nat → Option Nat
  | 0, _ => none
  | fuel + 1, typeId => do
    match ← b.btfGetTypeById typeId with
    | none => pure 0
    | some type =>
      match type.kind with
      | .int | .struct | .union => pure type.sizeType
      | .array => do
        let typeSize ← typeSizeLoop fuel type.array.type
        pure (typeSize * type.array.nelems % 2 ^ 64)
      | _ => pure 0

/-- `btf_get_type_size_by_id`. -/
def btfGetTypeSizeById (typeId : Nat) : Option Nat := b.typeSizeLoop (b.nrTypes + 1) typeId

/-- The nest of arrays under `typeId`: the canonical node is followed while it is an array,
recording each element count, until a canonical node `base` that is not an array. -/
inductive ArrayChain : Nat → List Nat → Nat → Prop
  | base {typeId canonicalId : Nat} : b.followTypes typeId = some canonicalId →
      (∀ type, b.typeById canonicalId = some type → type.kind ≠ .array) →
      ArrayChain typeId [] canonicalId
  | array {typeId canonicalId : Nat} {type : BtfType} {counts : List Nat} {base : Nat} :
      b.followTypes typeId = some canonicalId → b.typeById canonicalId = some type →
      type.kind = .array → ArrayChain type.array.type counts base →
      ArrayChain typeId (type.array.nelems :: counts) base

/-- The size the end of a chain contributes: the declared size of an int, struct or union,
0 for `void` and every other kind. -/
def declaredSize (typeId : Nat) : Nat :=
  if typeId = 0 then 0 else
  match b.typeById typeId with
  | some type => if type.kind = .int ∨ type.kind = .struct ∨ type.kind = .union then type.sizeType else 0
  | none => 0

variable {b}

/-- The recursion reads its argument only through `btf_get_type_by_id`. -/
theorem typeSizeLoop_congr {fuel source target : Nat}
    (same : b.btfGetTypeById source = b.btfGetTypeById target) :
    b.typeSizeLoop fuel source = b.typeSizeLoop fuel target := by
  cases fuel <;> simp only [typeSizeLoop, same]

theorem typeSizeLoop_of_void {fuel typeId : Nat} (void : b.btfGetTypeById typeId = some none) :
    b.typeSizeLoop (fuel + 1) typeId = some 0 := by
  simp [typeSizeLoop, void]

theorem typeSizeLoop_of_array {fuel typeId : Nat} {type : BtfType}
    (found : b.btfGetTypeById typeId = some (some type)) (kind : type.kind = .array) :
    b.typeSizeLoop (fuel + 1) typeId =
      (b.typeSizeLoop fuel type.array.type).map (· * type.array.nelems % 2 ^ 64) := by
  simp [typeSizeLoop, found, kind, Option.map_eq_bind, Function.comp_def]

theorem typeSizeLoop_of_not_array {fuel typeId : Nat} {type : BtfType}
    (found : b.btfGetTypeById typeId = some (some type)) (kind : type.kind ≠ .array) :
    b.typeSizeLoop (fuel + 1) typeId = some
      (if type.kind = .int ∨ type.kind = .struct ∨ type.kind = .union then type.sizeType else 0) := by
  simp only [typeSizeLoop, found]
  cases h : type.kind <;> simp_all

/-- More fuel never changes a size the recursion already reached. -/
theorem typeSizeLoop_succ_of_eq_some :
    ∀ {fuel typeId size : Nat}, b.typeSizeLoop fuel typeId = some size →
      b.typeSizeLoop (fuel + 1) typeId = some size
  | 0, _, _, done => by simp [typeSizeLoop] at done
  | fuel + 1, typeId, size, done => by
    obtain ⟨found, resolved⟩ : ∃ found, b.btfGetTypeById typeId = some found := by
      cases resolved : b.btfGetTypeById typeId <;> simp_all [typeSizeLoop]
    rcases found with _ | type
    · rwa [typeSizeLoop_of_void resolved] at done ⊢
    by_cases kind : type.kind = .array
    · rw [typeSizeLoop_of_array resolved kind] at done ⊢
      obtain ⟨elemSize, elem, rfl⟩ := Option.map_eq_some'.mp done
      rw [typeSizeLoop_succ_of_eq_some elem, Option.map_some']
    · rwa [typeSizeLoop_of_not_array resolved kind] at done ⊢

/-- At a canonical node that is not an array the recursion returns its declared size. -/
theorem typeSizeLoop_of_base {fuel typeId canonicalId : Nat}
    (follow : b.followTypes typeId = some canonicalId)
    (notArray : ∀ type, b.typeById canonicalId = some type → type.kind ≠ .array) :
    b.typeSizeLoop (fuel + 1) typeId = some (b.declaredSize canonicalId) := by
  have resolved := btfGetTypeById_of_followTypes follow
  by_cases zero : canonicalId = 0
  · simp only [zero, if_true] at resolved
    simp [typeSizeLoop_of_void resolved, declaredSize, zero]
  cases found : b.typeById canonicalId with
  | none =>
    simp only [zero, found, if_false] at resolved
    simp [typeSizeLoop_of_void resolved, declaredSize, zero, found]
  | some type =>
    simp only [zero, found, if_false] at resolved
    simp [typeSizeLoop_of_not_array resolved (notArray type found), declaredSize, zero, found]

/-- At a canonical array node the recursion multiplies the element's size by the count. -/
theorem typeSizeLoop_of_canonical_array {fuel typeId canonicalId : Nat} {type : BtfType}
    (follow : b.followTypes typeId = some canonicalId) (found : b.typeById canonicalId = some type)
    (kind : type.kind = .array) :
    b.typeSizeLoop (fuel + 1) typeId =
      (b.typeSizeLoop fuel type.array.type).map (· * type.array.nelems % 2 ^ 64) := by
  have nonzero : canonicalId ≠ 0 := by
    rintro rfl
    simp only [typeById_zero, Option.some.injEq] at found
    simp [← found, btfVoid] at kind
  have resolved := btfGetTypeById_of_followTypes follow
  rw [if_neg nonzero, found] at resolved
  exact typeSizeLoop_of_array resolved kind

/-- What the recursion returns is the size at the end of the chain times the element counts
along it, modulo 2^64. -/
theorem typeSizeLoop_of_chain {typeId base : Nat} {counts : List Nat}
    (chain : b.ArrayChain typeId counts base) :
    ∀ {fuel size}, b.typeSizeLoop fuel typeId = some size →
      size ≡ b.declaredSize base * counts.prod [MOD 2 ^ 64] := by
  induction chain with
  | base follow notArray =>
    rintro (_ | fuel) size run
    · simp [typeSizeLoop] at run
    · rw [typeSizeLoop_of_base follow notArray, Option.some.injEq] at run
      rw [← run, List.prod_nil, Nat.mul_one]
  | @array typeId canonicalId type counts base follow found kind _ below =>
    rintro (_ | fuel) size run
    · simp [typeSizeLoop] at run
    rw [typeSizeLoop_of_canonical_array follow found kind] at run
    obtain ⟨elemSize, elem, rfl⟩ := Option.map_eq_some'.mp run
    calc elemSize * type.array.nelems % 2 ^ 64
        ≡ elemSize * type.array.nelems [MOD 2 ^ 64] := Nat.mod_modEq _ _
      _ ≡ b.declaredSize base * counts.prod * type.array.nelems [MOD 2 ^ 64] :=
        (below elem).mul_right _
      _ = b.declaredSize base * (type.array.nelems :: counts).prod := by
        rw [List.prod_cons, Nat.mul_assoc, Nat.mul_comm counts.prod]

/-- The element of the canonical array an id resolves to is a node of the graph and ranks
below the id. -/
theorem elem_below (wf : b.WellFormed) {rank : Nat → Nat}
    (decreasing : ∀ source target, b.Link source target → rank target < rank source)
    {typeId canonicalId : Nat} {type : BtfType}
    (chain : Relation.ReflTransGen b.AliasStep typeId canonicalId)
    (found : b.typeById canonicalId = some type) (kind : type.kind = .array) :
    type.array.type ≤ b.nrTypes ∧ rank type.array.type < rank typeId :=
  have link : b.Link canonicalId type.array.type := .elem found kind
  ⟨link.target_le wf, Nat.lt_of_lt_of_le (decreasing _ _ link) (rank_le_of_chain decreasing chain)⟩

section Rank

variable (wf : b.WellFormed) (acyclic : b.Acyclic) {rank : Nat → Nat}
  (decreasing : ∀ source target, b.Link source target → rank target < rank source)
include wf acyclic decreasing

/-- With fuel above the measure, the size recursion returns. -/
theorem typeSizeLoop_isSome :
    ∀ fuel typeId, typeId ≤ b.nrTypes → rank typeId < fuel → (b.typeSizeLoop fuel typeId).isSome
  | 0, _, _, below => absurd below (Nat.not_lt_zero _)
  | fuel + 1, typeId, bound, below => by
    obtain ⟨canonicalId, follow, chain, type, found, -⟩ := followTypes_spec wf acyclic bound
    by_cases kind : type.kind = .array
    · obtain ⟨inGraph, lower⟩ := elem_below wf decreasing chain found kind
      obtain ⟨size, sized⟩ :=
        Option.isSome_iff_exists.mp (typeSizeLoop_isSome fuel _ inGraph (by omega))
      simp [typeSizeLoop_of_canonical_array follow found kind, sized]
    · rw [typeSizeLoop_of_base follow fun other found' => Option.some.inj (found.symm.trans found') ▸ kind]
      rfl

/-- Every id of the graph starts a chain. -/
theorem exists_arrayChain :
    ∀ fuel typeId, typeId ≤ b.nrTypes → rank typeId < fuel → ∃ counts base, b.ArrayChain typeId counts base
  | 0, _, _, below => absurd below (Nat.not_lt_zero _)
  | fuel + 1, typeId, bound, below => by
    obtain ⟨canonicalId, follow, chain, type, found, -⟩ := followTypes_spec wf acyclic bound
    by_cases kind : type.kind = .array
    · obtain ⟨inGraph, lower⟩ := elem_below wf decreasing chain found kind
      obtain ⟨counts, base, rest⟩ := exists_arrayChain fuel _ inGraph (by omega)
      exact ⟨_, base, .array follow found kind rest⟩
    · exact ⟨[], canonicalId,
        .base follow fun other found' => Option.some.inj (found.symm.trans found') ▸ kind⟩

end Rank

/-- A chain starts at an id of the graph: `follow_types` answers nothing past the last node. -/
theorem ArrayChain.bound {typeId base : Nat} {counts : List Nat} (chain : b.ArrayChain typeId counts base) :
    typeId ≤ b.nrTypes := by
  have follow : ∃ canonicalId, b.followTypes typeId = some canonicalId := by
    cases chain with
    | base follow => exact ⟨_, follow⟩
    | array follow => exact ⟨_, follow⟩
  obtain ⟨canonicalId, follow⟩ := follow
  by_contra past
  have missing := typeById_eq_none_iff.mpr (Nat.lt_of_not_le past)
  have nonzero : typeId ≠ 0 := by omega
  simp [followTypes, nonzero, followLoop, missing] at follow

/-- `btf_get_type_size_by_id` on a well-formed acyclic graph: every id of the graph starts a
chain through canonical array nodes, and the size of an id is the size at the end of its
chain times the element counts along it, modulo 2^64. The size is unchanged by following
aliases first, and that of an array is its element's size times its element count. -/
theorem btfGetTypeSizeById_nested_arrays (wf : b.WellFormed) (acyclic : b.Acyclic) :
    (∀ typeId ≤ b.nrTypes, ∃ counts base, b.ArrayChain typeId counts base) ∧
    ∀ typeId counts base, b.ArrayChain typeId counts base →
      ∃ size, b.btfGetTypeSizeById typeId = some size ∧
        size ≡ b.declaredSize base * counts.prod [MOD 2 ^ 64] ∧
        (∀ canonicalId, b.followTypes typeId = some canonicalId →
          b.btfGetTypeSizeById canonicalId = some size) ∧
        ∀ type, b.typeById typeId = some type → type.kind = .array →
          ∃ elemSize, b.btfGetTypeSizeById type.array.type = some elemSize ∧
            size = elemSize * type.array.nelems % 2 ^ 64 := by
  obtain ⟨rank, decreasing, bounded⟩ := exists_link_rank wf acyclic
  refine ⟨fun typeId bound =>
    exists_arrayChain wf acyclic decreasing _ _ bound (Nat.lt_succ_of_le (bounded typeId)), ?_⟩
  intro typeId counts base chain
  obtain ⟨size, run⟩ := Option.isSome_iff_exists.mp
    (typeSizeLoop_isSome wf acyclic decreasing _ _ chain.bound (Nat.lt_succ_of_le (bounded typeId)))
  refine ⟨size, run, typeSizeLoop_of_chain chain run, fun canonicalId follow => ?_,
    fun type found kind => ?_⟩
  · -- the canonical node resolves to itself, hence to the same node as `typeId`
    obtain ⟨result, follow', -, -, idem, -⟩ := followTypes_canonicalizer wf acyclic chain.bound
    rw [follow, Option.some.injEq] at follow'
    subst follow'
    rw [btfGetTypeSizeById, typeSizeLoop_congr (by rw [btfGetTypeById_of_followTypes follow,
      btfGetTypeById_of_followTypes idem])]
    exact run
  · have follow := followTypes_of_canonical ⟨type, found, by simp [BtfType.IsAlias, kind]⟩
    rw [typeSizeLoop_of_canonical_array follow found kind] at run
    obtain ⟨elemSize, elem, rfl⟩ := Option.map_eq_some'.mp run
    exact ⟨elemSize, typeSizeLoop_succ_of_eq_some elem, rfl⟩

/-- `btfGetTypeSizeById_nested_arrays` on an array of two typedefs of an array of three ints. -/
theorem btfGetTypeSizeById_nested_arrays_on_typedef_nest :
    let b : Btf := ⟨[⟨0, .int, false, 4, [], [], ⟨0, 0, 0⟩⟩, ⟨0, .array, false, 0, [], [], ⟨1, 1, 3⟩⟩,
      ⟨0, .typedef, false, 2, [], [], ⟨0, 0, 0⟩⟩, ⟨0, .array, false, 0, [], [], ⟨3, 1, 2⟩⟩], []⟩
    b.WellFormed ∧ b.Acyclic ∧
    (∀ typeId ≤ b.nrTypes, ∃ counts base, b.ArrayChain typeId counts base) ∧
    ∀ typeId counts base, b.ArrayChain typeId counts base →
      ∃ size, b.btfGetTypeSizeById typeId = some size ∧
        size ≡ b.declaredSize base * counts.prod [MOD 2 ^ 64] ∧
        (∀ canonicalId, b.followTypes typeId = some canonicalId →
          b.btfGetTypeSizeById canonicalId = some size) ∧
        ∀ type, b.typeById typeId = some type → type.kind = .array →
          ∃ elemSize, b.btfGetTypeSizeById type.array.type = some elemSize ∧
            size = elemSize * type.array.nelems % 2 ^ 64 :=
  ⟨by decide, acyclic_of_linksDescend (by decide),
    btfGetTypeSizeById_nested_arrays (by decide) (acyclic_of_linksDescend (by decide))⟩

end Nikss.Btf
