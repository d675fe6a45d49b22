import Nikss.Common
import Nikss.Btf.Follow

/-! # Member lookup

`btf_get_member_md_by_name` scans the members of a struct or union for the first one
whose name resolves to the requested string; `btf_get_member_md_by_index` reads one
member by a bounds-checked index. Neither follows aliases of the aggregate itself.

`memberScan_eq` characterizes the scan: it reaches the first matching member and builds
exactly the descriptor the indexed lookup builds for that index (`memberMd`). The
agreement of the two lookups follows from it and from the totality of `follow_types`.
-/

namespace Nikss.Btf

/-- `btf_struct_member_md_t`. -/
structure MemberMd where
  member : BtfMember
  index : Nat
  effectiveTypeId : Nat
  bitOffset : Nat
  deriving DecidableEq, Repr

variable (b : Btf)

/-- The descriptor both lookups fill in for member `member` at `index` of `type`. -/
def memberMd (type : BtfType) (index : Nat) (member : BtfMember) :
    Option (Except Nat MemberMd) := do
  let effectiveTypeId ← b.followTypes member.type
  pure (.ok ⟨member, index, effectiveTypeId, type.memberBitOffset member⟩)

/-- The `for` loop of `btf_get_member_md_by_name` from member `index` on. -/
def memberScan (type : BtfType) (memberName : String) : Nat → List BtfMember →
    Option (Except Nat MemberMd)
  | _, [] => some (.error EPERM)
  | index, member :: members =>
    match b.nameByOffset member.nameOff with
    | none => memberScan type memberName (index + 1) members
    | some name =>
      if name = memberName then b.memberMd type index member
      else memberScan type memberName (index + 1) members

/-- `btf_get_member_md_by_name`; the outer `none` is a crash in `follow_types`. -/
def btfGetMemberMdByName (typeId : Nat) (memberName : String) : Option (Except Nat MemberMd) :=
  if typeId = 0 then some (.error EPERM) else
  match b.typeById typeId with
  | none => some (.error EPERM)
  | some type =>
    if ¬ type.IsAggregate then some (.error EPERM)
    else b.memberScan type memberName 0 type.members

/-- `btf_get_member_md_by_index`; `index` is the `uint16_t` argument, and the missing
member past `btf_vlen(type)` is the `index >= type_entries` test. -/
def btfGetMemberMdByIndex (typeId index : Nat) : Option (Except Nat MemberMd) :=
  if typeId = 0 then some (.error EPERM) else
  match b.typeById typeId with
  | none => some (.error EPERM)
  | some type =>
    if ¬ type.IsAggregate then some (.error EPERM)
    else match type.members[index]? with
      | none => some (.error EPERM)
      | some member => b.memberMd type index member

/-- `get_member_type_id_by_name`: the member's canonical type, or 0. -/
def getMemberTypeIdByName (typeId : Nat) (memberName : String) : Option Nat := do
  match ← b.btfGetMemberMdByName typeId memberName with
  | .ok md => pure md.effectiveTypeId
  | .error _ => pure 0

/-- Following the specification: the canonical type of the first member of `typeId` whose name
resolves to `memberName` when `typeId` is a struct or union, 0 when there is none. -/
def firstMemberType (typeId : Nat) (memberName : String) : Option Nat :=
  match b.typeById typeId with
  | some type =>
    if typeId ≠ 0 ∧ type.IsAggregate then
      match type.members.find? fun member => b.nameByOffset member.nameOff = some memberName with
      | some member => b.followTypes member.type
      | none => some 0
    else some 0
  | none => some 0

/-- Member `index` is the first one whose name resolves to `memberName`. -/
def FirstMatch (members : List BtfMember) (memberName : String) (index : Nat) : Prop :=
  ∃ member, members[index]? = some member ∧ b.nameByOffset member.nameOff = some memberName ∧
    ∀ earlier < index, ∀ other, members[earlier]? = some other →
      b.nameByOffset other.nameOff ≠ some memberName

variable {b}

theorem vlen_of_aggregate {type : BtfType} (aggregate : type.IsAggregate) :
    type.vlen = type.members.length := by
  rcases aggregate with kind | kind <;> simp [BtfType.vlen, kind]

/-- The scan returns the descriptor of the first matching member, or `EPERM`. -/
theorem memberScan_eq (type : BtfType) (memberName : String) :
    ∀ (members : List BtfMember) (start : Nat),
      (∀ index, ¬ b.FirstMatch members memberName index) ∧
          b.memberScan type memberName start members = some (.error EPERM) ∨
        ∃ index member, b.FirstMatch members memberName index ∧ members[index]? = some member ∧
          b.memberScan type memberName start members = b.memberMd type (start + index) member
  | [], _ => .inl ⟨fun _ ⟨_, found, _⟩ => by simp at found, rfl⟩
  | member :: members, start => by
    by_cases named : b.nameByOffset member.nameOff = some memberName
    · exact .inr ⟨0, member, ⟨member, by simp, named, fun _ below => absurd below (by omega)⟩,
        by simp, by simp [memberScan, named]⟩
    have skipped : b.memberScan type memberName start (member :: members) =
        b.memberScan type memberName (start + 1) members := by
      cases name : b.nameByOffset member.nameOff <;> simp_all [memberScan]
    rw [skipped]
    rcases memberScan_eq type memberName members (start + 1) with
      ⟨none, scan⟩ | ⟨index, found, ⟨_, at_index', named', earlier⟩, at_index, scan⟩
    · refine .inl ⟨fun index ⟨found, at_index, named', earlier⟩ => ?_, scan⟩
      cases index with
      | zero => simp_all
      | succ index =>
        exact none index ⟨found, by simpa using at_index, named', fun j below other at_j =>
          earlier (j + 1) (by omega) other (by simpa using at_j)⟩
    · refine .inr ⟨index + 1, found, ⟨_, by simpa using at_index', named',
        fun j below other at_j => ?_⟩, by simpa using at_index, by rw [scan]; congr 1; omega⟩
      cases j with
      | zero => simp_all
      | succ j => exact earlier j (by omega) other (by simpa using at_j)

theorem ne_zero_of_aggregate {typeId : Nat} {type : BtfType}
    (found : b.typeById typeId = some type) (aggregate : type.IsAggregate) : typeId ≠ 0 := by
  rintro rfl
  simp only [typeById_zero, Option.some.injEq] at found
  subst found
  rcases aggregate with kind | kind <;> cases kind

theorem btfGetMemberMdByName_of_aggregate {typeId : Nat} {type : BtfType} (memberName : String)
    (found : b.typeById typeId = some type) (aggregate : type.IsAggregate) :
    b.btfGetMemberMdByName typeId memberName = b.memberScan type memberName 0 type.members := by
  simp [btfGetMemberMdByName, ne_zero_of_aggregate found aggregate, found, aggregate]

theorem btfGetMemberMdByIndex_of_aggregate {typeId : Nat} {type : BtfType} (index : Nat)
    (found : b.typeById typeId = some type) (aggregate : type.IsAggregate) :
    b.btfGetMemberMdByIndex typeId index =
      match type.members[index]? with
      | none => some (.error EPERM)
      | some member => b.memberMd type index member := by
  simp [btfGetMemberMdByIndex, ne_zero_of_aggregate found aggregate, found, aggregate]

/-- Both lookups refuse `void`, ids past the last node and nodes that are not aggregates. -/
theorem lookups_of_not_aggregate {typeId : Nat}
    (refused : typeId = 0 ∨ b.nrTypes < typeId ∨
      ∃ type, b.typeById typeId = some type ∧ ¬ type.IsAggregate) (memberName : String) :
    b.btfGetMemberMdByName typeId memberName = some (.error EPERM) ∧
      ∀ index, b.btfGetMemberMdByIndex typeId index = some (.error EPERM) := by
  rcases refused with zero | past | ⟨type, found, notAggregate⟩
  · simp [btfGetMemberMdByName, btfGetMemberMdByIndex, zero]
  · have missing := typeById_eq_none_iff.mpr past
    have nonzero : typeId ≠ 0 := by omega
    simp [btfGetMemberMdByName, btfGetMemberMdByIndex, missing, nonzero]
  · by_cases zero : typeId = 0
    · simp [btfGetMemberMdByName, btfGetMemberMdByIndex, zero]
    · simp [btfGetMemberMdByName, btfGetMemberMdByIndex, zero, found, notAggregate]

/-- A member named `memberName` makes some index the first match. -/
theorem exists_firstMatch {memberName : String} :
    ∀ {members : List BtfMember} {member : BtfMember}, member ∈ members →
      b.nameByOffset member.nameOff = some memberName → ∃ index, b.FirstMatch members memberName index
  | head :: members, member, mem, named => by
    by_cases headNamed : b.nameByOffset head.nameOff = some memberName
    · exact ⟨0, head, by simp, headNamed, fun _ below => absurd below (Nat.not_lt_zero _)⟩
    have tail : member ∈ members := by
      rcases List.mem_cons.mp mem with rfl | tail
      · exact absurd named headNamed
      · exact tail
    obtain ⟨index, found, at_index, named', earlier⟩ := exists_firstMatch tail named
    refine ⟨index + 1, found, by simpa using at_index, named', fun j below other at_j => ?_⟩
    cases j with
    | zero => simp_all
    | succ j => exact earlier j (by omega) other (by simpa using at_j)

/-- A node that is not an accepted aggregate is refused for one of three reasons. -/
theorem refused_of_not_accepted {typeId : Nat}
    (accepted : ¬ ∃ type, b.typeById typeId = some type ∧ type.IsAggregate) :
    typeId = 0 ∨ b.nrTypes < typeId ∨ ∃ type, b.typeById typeId = some type ∧ ¬ type.IsAggregate := by
  cases found : b.typeById typeId with
  | none => exact .inr (.inl (typeById_eq_none_iff.mp found))
  | some type => exact .inr (.inr ⟨type, rfl, fun aggregate => accepted ⟨type, found, aggregate⟩⟩)

/-- The canonical type the scan reports is that of the first matching member. -/
theorem memberScan_effectiveTypeId (type : BtfType) (memberName : String) :
    ∀ (members : List BtfMember) (start : Nat),
      (b.memberScan type memberName start members).bind (fun result =>
        match result with
        | .ok md => some md.effectiveTypeId
        | .error _ => some 0) =
      match members.find? fun member => b.nameByOffset member.nameOff = some memberName with
      | some member => b.followTypes member.type
      | none => some 0
  | [], _ => rfl
  | member :: members, start => by
    have rest := memberScan_effectiveTypeId type memberName members (start + 1)
    cases name : b.nameByOffset member.nameOff with
    | none => simpa [memberScan, name] using rest
    | some name' =>
      by_cases hit : name' = memberName
      · subst hit
        cases follow : b.followTypes member.type <;> simp [memberScan, name, memberMd, follow]
      · simpa [memberScan, name, hit] using rest

/-- `get_member_type_id_by_name` returns the canonical type of the first member with the
name, and 0 on every refusal. -/
theorem getMemberTypeIdByName_eq (typeId : Nat) (memberName : String) :
    b.getMemberTypeIdByName typeId memberName = b.firstMemberType typeId memberName := by
  by_cases accepted : ∃ type, b.typeById typeId = some type ∧ type.IsAggregate
  · obtain ⟨type, found, aggregate⟩ := accepted
    have scan := @memberScan_effectiveTypeId b type memberName type.members 0
    simp only [getMemberTypeIdByName, btfGetMemberMdByName_of_aggregate memberName found aggregate,
      Option.bind_eq_bind, Option.pure_def]
    rw [scan]
    simp [firstMemberType, found, aggregate, ne_zero_of_aggregate found aggregate]
  · have refused := refused_of_not_accepted accepted
    rw [getMemberTypeIdByName, (lookups_of_not_aggregate refused memberName).1]
    rcases refused with rfl | past | ⟨type, found, notAggregate⟩
    · rfl
    · simp [firstMemberType, typeById_eq_none_iff.mpr past]
    · simp [firstMemberType, found, notAggregate]

section Agreement

variable (wf : b.WellFormed) (acyclic : b.Acyclic)
include wf acyclic

/-- The member type the specification describes is canonical. -/
theorem firstMemberType_idempotent (typeId : Nat) (memberName : String) :
    ∃ result, b.firstMemberType typeId memberName = some result ∧
      b.followTypes result = some result := by
  cases found : b.typeById typeId with
  | none => exact ⟨0, by simp [firstMemberType, found], rfl⟩
  | some type =>
    simp only [firstMemberType, found]
    by_cases accepted : typeId ≠ 0 ∧ type.IsAggregate
    · rw [if_pos accepted]
      cases first : type.members.find? fun member => b.nameByOffset member.nameOff = some memberName with
      | none => exact ⟨0, rfl, rfl⟩
      | some member =>
        refine followTypes_idempotent wf acyclic (wf type (typeById_mem found accepted.1) _ ?_)
        rcases accepted.2 with kind | kind <;> simp only [BtfType.refs, kind] <;>
          exact List.mem_map_of_mem _ (List.mem_of_find?_eq_some first)
    · rw [if_neg accepted]
      exact ⟨0, rfl, rfl⟩

/-- On an aggregate node, indexed lookup of an existing member builds its descriptor. -/
theorem btfGetMemberMdByIndex_ok {typeId : Nat} {type : BtfType}
    (found : b.typeById typeId = some type) (aggregate : type.IsAggregate) {index : Nat}
    {member : BtfMember} (at_index : type.members[index]? = some member) :
    ∃ effective, b.followTypes member.type = some effective ∧
      b.btfGetMemberMdByIndex typeId index =
        some (.ok ⟨member, index, effective, type.memberBitOffset member⟩) := by
  have bound : member.type ≤ b.nrTypes :=
    wf type (typeById_mem found (ne_zero_of_aggregate found aggregate)) _ (by
      rcases aggregate with kind | kind <;> simp only [BtfType.refs, kind] <;>
        exact List.mem_map_of_mem _ (List.getElem?_mem at_index))
  obtain ⟨effective, follow, -⟩ := followTypes_spec wf acyclic bound
  refine ⟨effective, follow, ?_⟩
  simp [btfGetMemberMdByIndex_of_aggregate index found aggregate, at_index, memberMd, follow]

/-- On an aggregate node, lookup by name fails with `EPERM` when no member's name
resolves to the string, and otherwise returns the indexed descriptor of the first one. -/
theorem btfGetMemberMdByName_cases {typeId : Nat} {type : BtfType} (memberName : String)
    (found : b.typeById typeId = some type) (aggregate : type.IsAggregate) :
    (∀ index, ¬ b.FirstMatch type.members memberName index) ∧
        b.btfGetMemberMdByName typeId memberName = some (.error EPERM) ∨
      ∃ index md, b.FirstMatch type.members memberName index ∧ md.index = index ∧
        b.btfGetMemberMdByName typeId memberName = some (.ok md) ∧
        b.btfGetMemberMdByIndex typeId index = some (.ok md) := by
  rw [btfGetMemberMdByName_of_aggregate memberName found aggregate]
  rcases memberScan_eq type memberName type.members 0 with
    ⟨none, scan⟩ | ⟨index, member, first, at_index, scan⟩
  · exact .inl ⟨none, scan⟩
  · obtain ⟨effective, -, indexed⟩ := btfGetMemberMdByIndex_ok wf acyclic found aggregate at_index
    have direct : b.memberMd type index member =
        some (.ok ⟨member, index, effective, type.memberBitOffset member⟩) := by
      simpa [btfGetMemberMdByIndex_of_aggregate index found aggregate, at_index] using indexed
    exact .inr ⟨index, _, first, rfl, by rw [scan, Nat.zero_add, direct], indexed⟩

/-- Lookup by name never crashes. -/
theorem btfGetMemberMdByName_isSome (typeId : Nat) (memberName : String) :
    (b.btfGetMemberMdByName typeId memberName).isSome := by
  by_cases accepted : ∃ type, b.typeById typeId = some type ∧ type.IsAggregate
  · obtain ⟨type, found, aggregate⟩ := accepted
    rcases btfGetMemberMdByName_cases wf acyclic memberName found aggregate with
      ⟨_, failed⟩ | ⟨_, _, _, _, ok, _⟩
    · simp [failed]
    · simp [ok]
  · rw [(lookups_of_not_aggregate (refused_of_not_accepted accepted) memberName).1]
    rfl

/-- Lookup by index never crashes. -/
theorem btfGetMemberMdByIndex_isSome (typeId index : Nat) :
    (b.btfGetMemberMdByIndex typeId index).isSome := by
  by_cases accepted : ∃ type, b.typeById typeId = some type ∧ type.IsAggregate
  · obtain ⟨type, found, aggregate⟩ := accepted
    cases at_index : type.members[index]? with
    | none => simp [btfGetMemberMdByIndex_of_aggregate index found aggregate, at_index]
    | some member =>
      obtain ⟨_, _, indexed⟩ := btfGetMemberMdByIndex_ok wf acyclic found aggregate at_index
      simp [indexed]
  · rw [(lookups_of_not_aggregate (refused_of_not_accepted accepted) "").2 index]
    rfl

/-- Lookup by name and by index agree: by name succeeds exactly on an aggregate with a
member whose name resolves to the string, and then returns the indexed descriptor of the
first such member; by index succeeds on every index below `btf_vlen` with the member's
canonical type; both refuse `void`, ids past the last node and non-aggregates, and by
index refuses every index from `btf_vlen` on. Lookup by name never crashes. -/
theorem member_lookups_agree (typeId : Nat) (memberName : String) :
    (b.btfGetMemberMdByName typeId memberName).isSome ∧
    ((∃ md, b.btfGetMemberMdByName typeId memberName = some (.ok md)) ↔
      ∃ type, b.typeById typeId = some type ∧ type.IsAggregate ∧
        ∃ member ∈ type.members, b.nameByOffset member.nameOff = some memberName) ∧
    (∀ md, b.btfGetMemberMdByName typeId memberName = some (.ok md) →
      ∃ type, b.typeById typeId = some type ∧ b.FirstMatch type.members memberName md.index ∧
        b.btfGetMemberMdByIndex typeId md.index = some (.ok md)) ∧
    (∀ type, b.typeById typeId = some type → type.IsAggregate → ∀ index < type.vlen,
      ∃ member effective, type.members[index]? = some member ∧
        b.followTypes member.type = some effective ∧
        b.btfGetMemberMdByIndex typeId index =
          some (.ok ⟨member, index, effective, type.memberBitOffset member⟩)) ∧
    ((typeId = 0 ∨ b.nrTypes < typeId ∨
        ∃ type, b.typeById typeId = some type ∧ ¬ type.IsAggregate) →
      b.btfGetMemberMdByName typeId memberName = some (.error EPERM) ∧
        ∀ index, b.btfGetMemberMdByIndex typeId index = some (.error EPERM)) ∧
    (∀ type, b.typeById typeId = some type → ∀ index, type.vlen ≤ index →
      b.btfGetMemberMdByIndex typeId index = some (.error EPERM)) := by
  by_cases accepted : ∃ type, b.typeById typeId = some type ∧ type.IsAggregate
  · obtain ⟨type, found, aggregate⟩ := accepted
    have same : ∀ {type'}, b.typeById typeId = some type' → type' = type :=
      fun found' => Option.some.inj (found'.symm.trans found)
    refine ⟨btfGetMemberMdByName_isSome wf acyclic typeId memberName, ?_, ?_,
      fun type' found' _ index below => ?_, fun refused => ?_, fun type' found' index past => ?_⟩
    · refine ⟨fun ⟨md, ok⟩ => ?_, fun ⟨type', found', _, member, mem, named⟩ => ?_⟩
      · rcases btfGetMemberMdByName_cases wf acyclic memberName found aggregate with
          ⟨_, failed⟩ | ⟨_, _, first, _, _, _⟩
        · simp [failed] at ok
        · obtain ⟨member, at_index, named, -⟩ := first
          exact ⟨type, found, aggregate, member, List.getElem?_mem at_index, named⟩
      · obtain rfl := same found'
        rcases btfGetMemberMdByName_cases wf acyclic memberName found aggregate with
          ⟨none, _⟩ | ⟨_, md, _, _, ok, _⟩
        · obtain ⟨index, first⟩ := exists_firstMatch mem named
          exact absurd first (none index)
        · exact ⟨md, ok⟩
    · intro md ok
      rcases btfGetMemberMdByName_cases wf acyclic memberName found aggregate with
        ⟨-, failed⟩ | ⟨index, md', first, rfl, ok', indexed⟩
      · simp [failed] at ok
      · obtain rfl : md' = md := by simpa [ok'] using ok
        exact ⟨type, found, first, indexed⟩
    · obtain rfl := same found'
      rw [vlen_of_aggregate aggregate] at below
      obtain ⟨effective, follow, indexed⟩ :=
        btfGetMemberMdByIndex_ok wf acyclic found aggregate (List.getElem?_eq_getElem below)
      exact ⟨_, effective, List.getElem?_eq_getElem below, follow, indexed⟩
    · rcases refused with zero | past | ⟨type', found', notAggregate⟩
      · exact absurd zero (ne_zero_of_aggregate found aggregate)
      · simp [typeById_eq_none_iff.mpr past] at found
      · exact absurd (same found' ▸ aggregate) notAggregate
    · obtain rfl := same found'
      rw [vlen_of_aggregate aggregate] at past
      rw [btfGetMemberMdByIndex_of_aggregate index found aggregate,
        List.getElem?_eq_none_iff.mpr past]
  · obtain ⟨byName, byIndex⟩ :=
      lookups_of_not_aggregate (refused_of_not_accepted accepted) memberName
    refine ⟨by simp [byName], ⟨by simp [byName], fun ⟨type, found, aggregate, _⟩ =>
      absurd ⟨type, found, aggregate⟩ accepted⟩, by simp [byName],
      fun type found aggregate => absurd ⟨type, found, aggregate⟩ accepted,
      fun _ => ⟨byName, byIndex⟩, fun _ _ index _ => byIndex index⟩

end Agreement

/-- `member_lookups_agree` on a struct whose member `key` is a typedef of an int: lookup
by name succeeds. -/
theorem member_lookups_agree_on_key :
    let b : Btf := ⟨[⟨0, .int, false, 4, [], [], ⟨0, 0, 0⟩⟩,
      ⟨0, .typedef, false, 1, [], [], ⟨0, 0, 0⟩⟩,
      ⟨0, .struct, false, 4, [⟨1, 2, 0⟩], [], ⟨0, 0, 0⟩⟩], "\x00key\x00".toList⟩
    b.WellFormed ∧ b.Acyclic ∧ ∃ md, b.btfGetMemberMdByName 3 "key" = some (.ok md) :=
  ⟨by decide, acyclic_of_linksDescend (by decide),
    (member_lookups_agree (by decide) (acyclic_of_linksDescend (by decide)) 3 "key").2.1.mpr
      ⟨_, rfl, by decide, _, List.mem_singleton_self _, by decide⟩⟩

/-- Neither lookup follows aliases of the aggregate: on a typedef of a struct with a member
`key`, both refuse with `EPERM` what they accept on the struct that `follow_types` returns. -/
theorem member_lookups_refuse_typedef_of_struct :
    let b : Btf := ⟨[⟨0, .struct, false, 4, [⟨0, 0, 0⟩], [], ⟨0, 0, 0⟩⟩,
      ⟨0, .typedef, false, 1, [], [], ⟨0, 0, 0⟩⟩], "key\x00".toList⟩
    b.WellFormed ∧ b.Acyclic ∧ b.followTypes 2 = some 1 ∧
      b.btfGetMemberMdByName 2 "key" = some (.error EPERM) ∧
      b.btfGetMemberMdByName 1 "key" = some (.ok ⟨⟨0, 0, 0⟩, 0, 0, 0⟩) ∧
      b.btfGetMemberMdByIndex 2 0 = some (.error EPERM) ∧
      b.btfGetMemberMdByIndex 1 0 = some (.ok ⟨⟨0, 0, 0⟩, 0, 0, 0⟩) := by
  intro b
  -- the typedef is no aggregate, so both lookups stop at their kind check
  have refused : b.btfGetMemberMdByName 2 "key" = some (.error EPERM) ∧
      ∀ index, b.btfGetMemberMdByIndex 2 index = some (.error EPERM) :=
    lookups_of_not_aggregate (.inr (.inr ⟨_, (rfl : b.typeById 2 = some ⟨0, .typedef, false, 1, [], [], ⟨0, 0, 0⟩⟩),
      by decide⟩)) "key"
  exact ⟨by decide, acyclic_of_linksDescend (by decide), by decide, refused.1, rfl, refused.2 0, rfl⟩

end Nikss.Btf
