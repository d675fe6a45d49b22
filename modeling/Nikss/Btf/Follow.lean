import Nikss.Btf.Types

/-! # Alias resolution

`follow_types` walks typedef and pointer links until it reaches a node of another kind
or `void`; `btf_get_type_by_id` returns the node found. The C loop has no bound: the
model bounds it by the number of nodes plus one and answers `none` past the bound or
on a NULL dereference, which is where the C code would spin or crash.

The key lemma is `followLoop_spec`: on a well-formed graph with a measure that links
decrease (`exists_link_rank`), the loop returns, within the bound, the end of the
alias chain, a canonical node. Idempotence and the other canonicalizer laws follow.
-/

namespace Nikss.Btf

variable (b : Btf)

/-- The `while` loop of `follow_types`, entered with `type = btf__type_by_id(typeId)`. -/
def followLoop : Nat → Nat → Option Nat
  | 0, _ => none
  | fuel + 1, typeId => do
    let type ← b.typeById typeId
    if type.IsAlias then followLoop fuel type.sizeType else pure typeId

/-- `follow_types`. -/
def followTypes (typeId : Nat) : Option Nat :=
  if typeId = 0 then some 0 else b.followLoop (b.nrTypes + 1) typeId

/-- `btf_get_type_by_id`: the node at the end of the alias chain, NULL (`none`) for
`void`; the outer `none` is a crash inside `follow_types`. -/
def btfGetTypeById (typeId : Nat) : Option (Option BtfType) := do
  let typeId ← b.followTypes typeId
  if typeId = 0 then pure none else pure (b.typeById typeId)

theorem btfGetTypeById_of_followTypes {b : Btf} {typeId canonicalId : Nat}
    (follow : b.followTypes typeId = some canonicalId) :
    b.btfGetTypeById typeId = some (if canonicalId = 0 then none else b.typeById canonicalId) := by
  simp only [btfGetTypeById, follow, Option.bind_eq_bind, Option.some_bind]
  split_ifs <;> rfl

/-- One typedef/pointer link. -/
inductive AliasStep : Nat → Nat → Prop
  | step {typeId : Nat} {type : BtfType} :
      b.typeById typeId = some type → type.IsAlias → AliasStep typeId type.sizeType

/-- A node `follow_types` stops at: `void` or a node that is neither typedef nor pointer. -/
def Canonical (typeId : Nat) : Prop := ∃ type, b.typeById typeId = some type ∧ ¬ type.IsAlias

variable {b}

theorem AliasStep.link {source target : Nat} (step : b.AliasStep source target) :
    b.Link source target := by
  cases step with
  | step found aliased => exact .follow found aliased

theorem canonical_zero : b.Canonical 0 := ⟨btfVoid, rfl, btfVoid_not_alias⟩

theorem followLoop_succ {fuel typeId : Nat} {type : BtfType} (found : b.typeById typeId = some type) :
    b.followLoop (fuel + 1) typeId =
      if type.IsAlias then b.followLoop fuel type.sizeType else some typeId := by
  simp [followLoop, found]

theorem followLoop_of_canonical {fuel typeId : Nat} (canonical : b.Canonical typeId) :
    b.followLoop (fuel + 1) typeId = some typeId := by
  obtain ⟨type, found, notAlias⟩ := canonical
  simp [followLoop_succ found, notAlias]

/-- More fuel never changes a result the loop already reached. -/
theorem followLoop_succ_of_eq_some :
    ∀ {fuel typeId result : Nat}, b.followLoop fuel typeId = some result →
      b.followLoop (fuel + 1) typeId = some result
  | 0, _, _, done => by simp [followLoop] at done
  | fuel + 1, typeId, result, done => by
    cases found : b.typeById typeId with
    | none => simp [followLoop, found] at done
    | some type =>
      rw [followLoop_succ found] at done ⊢
      split at done
      · rw [if_pos ‹_›]; exact followLoop_succ_of_eq_some done
      · rw [if_neg ‹_›]; exact done

theorem followTypes_of_canonical {typeId : Nat} (canonical : b.Canonical typeId) :
    b.followTypes typeId = some typeId := by
  unfold followTypes
  split
  · simp_all
  · exact followLoop_of_canonical canonical

section Rank

variable {rank : Nat → Nat}
  (decreasing : ∀ source target, b.Link source target → rank target < rank source)
include decreasing

/-- The measure never grows along an alias chain. -/
theorem rank_le_of_chain {source target : Nat}
    (chain : Relation.ReflTransGen b.AliasStep source target) : rank target ≤ rank source := by
  induction chain with
  | refl => exact le_refl _
  | tail _ step below => exact le_trans (Nat.le_of_lt (decreasing _ _ step.link)) below

variable (wf : b.WellFormed)
include wf

/-- Within fuel above the measure, the loop returns the canonical end of the alias chain. -/
theorem followLoop_spec :
    ∀ fuel typeId : Nat, typeId ≤ b.nrTypes → rank typeId < fuel →
      ∃ result, b.followLoop fuel typeId = some result ∧
        Relation.ReflTransGen b.AliasStep typeId result ∧ b.Canonical result
  | 0, _, _, below => absurd below (Nat.not_lt_zero _)
  | fuel + 1, typeId, bound, below => by
    obtain ⟨type, found⟩ := exists_typeById bound
    rw [followLoop_succ found]
    by_cases aliased : type.IsAlias
    · have link : b.Link typeId type.sizeType := .follow found aliased
      obtain ⟨result, loop, chain, canonical⟩ :=
        followLoop_spec fuel _ (link.target_le wf) (by have := decreasing _ _ link; omega)
      exact ⟨result, by simpa [aliased] using loop, .head (.step found aliased) chain, canonical⟩
    · exact ⟨typeId, by simp [aliased], .refl, type, found, aliased⟩

end Rank

section Canonicalizer

variable (wf : b.WellFormed) (acyclic : b.Acyclic)
include wf acyclic

/-- `follow_types` returns the canonical end of the alias chain of every id `0..n`. -/
theorem followTypes_spec {typeId : Nat} (bound : typeId ≤ b.nrTypes) :
    ∃ result, b.followTypes typeId = some result ∧
      Relation.ReflTransGen b.AliasStep typeId result ∧ b.Canonical result := by
  unfold followTypes
  split
  · subst typeId; exact ⟨0, rfl, .refl, canonical_zero⟩
  · obtain ⟨rank, decreasing, bounded⟩ := exists_link_rank wf acyclic
    exact followLoop_spec decreasing wf _ _ bound (Nat.lt_succ_of_le (bounded typeId))

/-- `follow_types` returns a fixed point of itself on every id `0..n`. -/
theorem followTypes_idempotent {typeId : Nat} (bound : typeId ≤ b.nrTypes) :
    ∃ result, b.followTypes typeId = some result ∧ b.followTypes result = some result := by
  obtain ⟨result, follow, -, canonical⟩ := followTypes_spec wf acyclic bound
  exact ⟨result, follow, followTypes_of_canonical canonical⟩

/-- Following one alias link first does not change the result. -/
theorem followTypes_step {source target : Nat} (step : b.AliasStep source target) :
    b.followTypes target = b.followTypes source := by
  obtain ⟨rank, decreasing, bounded⟩ := exists_link_rank wf acyclic
  have link := step.link
  obtain ⟨result, loop, -⟩ := followLoop_spec decreasing wf b.nrTypes target
    (link.target_le wf) (by have := decreasing _ _ link; have := bounded source; omega)
  have entered : b.followTypes source = b.followLoop b.nrTypes target := by
    cases step with
    | step found aliased => simp [followTypes, link.source_ne_zero, followLoop_succ found, aliased]
  rw [entered, loop]
  unfold followTypes
  split
  · subst target
    obtain ⟨fuel, nodes⟩ : ∃ fuel, b.nrTypes = fuel + 1 :=
      ⟨b.nrTypes - 1, by have := link.source_ne_zero; have := link.source_le; omega⟩
    rwa [nodes, followLoop_of_canonical canonical_zero] at loop
  · exact followLoop_succ_of_eq_some loop

/-- `follow_types` is a canonicalizer: on every id `0..n` it returns the end of the alias
chain, a node that is `void` or neither typedef nor pointer; it is idempotent, unchanged
by following one alias first, and `btf_get_type_by_id` returns NULL exactly for `void`
and the node found otherwise. -/
theorem followTypes_canonicalizer {typeId : Nat} (bound : typeId ≤ b.nrTypes) :
    ∃ result, b.followTypes typeId = some result ∧
      Relation.ReflTransGen b.AliasStep typeId result ∧
      (result = 0 ∨ ∃ type, b.typeById result = some type ∧ ¬ type.IsAlias) ∧
      b.followTypes result = some result ∧
      (∀ target, b.AliasStep typeId target → b.followTypes target = some result) ∧
      b.btfGetTypeById typeId = some (if result = 0 then none else b.typeById result) := by
  obtain ⟨result, follow, chain, canonical⟩ := followTypes_spec wf acyclic bound
  refine ⟨result, follow, chain, .inr canonical, followTypes_of_canonical canonical,
    fun target step => (followTypes_step wf acyclic step).trans follow, ?_⟩
  by_cases zero : result = 0 <;> simp [btfGetTypeById, follow, zero]

end Canonicalizer

/-- `followTypes_canonicalizer` on a pointer to a typedef of an int. -/
theorem followTypes_canonicalizer_on_pointer_chain :
    let b : Btf := ⟨[⟨0, .int, false, 4, [], [], ⟨0, 0, 0⟩⟩,
      ⟨0, .typedef, false, 1, [], [], ⟨0, 0, 0⟩⟩, ⟨0, .ptr, false, 2, [], [], ⟨0, 0, 0⟩⟩], []⟩
    b.WellFormed ∧ b.Acyclic ∧ 3 ≤ b.nrTypes ∧
      ∃ result, b.followTypes 3 = some result ∧ Relation.ReflTransGen b.AliasStep 3 result :=
  ⟨by decide, acyclic_of_linksDescend (by decide), by decide,
    (followTypes_canonicalizer (by decide) (acyclic_of_linksDescend (by decide)) (by decide)).imp
      fun _ facts => ⟨facts.1, facts.2.1⟩⟩

end Nikss.Btf
