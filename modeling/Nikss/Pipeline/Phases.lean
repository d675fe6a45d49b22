import Nikss.Pipeline.Load

/-! # The map loop, phase by phase

What the `bpf_object__for_each_map` loop of `nikss_pipeline_load` does to the BPF
filesystem and to the map contents when no call fails for an outside reason: one turn
per map (`mapTurn`) that removes libbpf's pin, pins the map under its name and, for a
partition map `<o>_tuple_<k>`, installs it into the index table `<o>_tuples_map` at key
`k`. `Nikss.Pipeline.Order` proves that the loop of the code makes these turns.

The loop wires each partition right after pinning it, so a partition enumerated before
its index table finds the table missing. Where no partition comes before its table, the
loop is the spec's two phases, every map pinned and then every partition wired
(`mapLoop_phased`). Each phase has a closed form (`pinPhase_eq`, `wirePhase_eq`) that
does not depend on the order of the maps, and so the loop does the same in every such
order (`mapLoop_perm`).
-/

namespace Nikss

/-- The BPF filesystem. -/
abbrev Pins := Path → Option ℕ+

/-- The contents of every map. -/
abbrev Contents := ℕ+ → Nat → Option MapValue

/-- Whether the loop pins a map under its own name: its name has no dot. -/
def LoadedMap.persisted (map : LoadedMap) : Bool := (strstr map.name.toList ".".toList).isNone

/-- The index table `join_tuple_to_map_if_tuple` derives from a map's name. -/
def tupleTable (tupleName : String) : Option String :=
  (strstr tupleName.toList "_tuple_".toList).map (tuplesMapName tupleName)

/-- The index table a map the loop pins is wired into. -/
def LoadedMap.indexTable (map : LoadedMap) : Option String :=
  if map.persisted then tupleTable map.name else none

/-- The slot a partition map is installed at: its index table and its key. -/
def LoadedMap.tupleSlot (map : LoadedMap) : Option (String × Nat) := do
  let table ← map.indexTable
  let (_, key) ← extractTupleIdFromTuple map.name
  pure (table, key)

/-- `a` is not a partition map of the index table `b`: enumerated before `b`, it would be
wired before `b` is pinned. -/
def WiredBefore (a b : LoadedMap) : Prop := b.persisted → a.indexTable ≠ some b.name

instance : DecidableRel WiredBefore := fun _ _ => inferInstanceAs (Decidable (_ → _))

/-- What the map loop changes: the BPF filesystem and the map contents. -/
structure Persisted where
  pins : Pins
  elems : Contents

/-- Store `value` at `key` of map `mapId`. -/
def storeElem (elems : Contents) (mapId : ℕ+) (key : Nat) (value : MapValue) : Contents :=
  Function.update elems mapId (Function.update (elems mapId) key (some value))

/-- Stores at two different slots commute. -/
theorem storeElem_comm {elems : Contents} {mapId mapId' : ℕ+} {key key' : Nat}
    (differ : (mapId, key) ≠ (mapId', key')) (value value' : MapValue) :
    storeElem (storeElem elems mapId key value) mapId' key' value' =
      storeElem (storeElem elems mapId' key' value') mapId key value := by
  by_cases same : mapId = mapId'
  · subst same
    have keys : key ≠ key' := fun sameKey => differ (by rw [sameKey])
    simp only [storeElem, Function.update_same, Function.update_idem]
    rw [Function.update_comm keys]
  · simp only [storeElem, Function.update_noteq (Ne.symm same), Function.update_noteq same]
    exact Function.update_comm same _ _ _

section Turn

variable (ctx : NikssContext) (objects : ℕ+ → Option KObject)

/-- Whether a map's turn can pin it: `bpf_map__unpin` finds libbpf's pin and
`bpf_map__pin` finds the path free. -/
def PinOk (pins : Pins) (map : LoadedMap) : Prop :=
  (map.pinned → (pins (.root map.name)).isSome) ∧
    (map.persisted → pins (buildEbpfMapFilename ctx map.name) = none)

instance (pins : Pins) (map : LoadedMap) : Decidable (PinOk ctx pins map) :=
  inferInstanceAs (Decidable (_ ∧ _))

/-- The pins once libbpf's pin of a map is removed. -/
def unpinRoot (pins : Pins) (map : LoadedMap) : Pins :=
  if map.pinned then Function.update pins (.root map.name) none else pins

/-- The pins once a map is pinned under its name. -/
def pinOwn (pins : Pins) (map : LoadedMap) : Pins :=
  if map.persisted then Function.update pins (buildEbpfMapFilename ctx map.name) (some map.id)
  else pins

/-- The pins after a map's turn: libbpf's pin removed, the map pinned under its name. -/
def pinUpdate (pins : Pins) (map : LoadedMap) : Pins := pinOwn ctx (unpinRoot pins map) map

/-- What wiring a map installs, read from the pins: `some none` for a map that is not a
partition; the index table, the key and the partition for one; `none` when wiring
fails: the index table or the partition not pinned or gone, or no digit after the last
`_`. -/
def wireTarget (pins : Pins) (tupleName : String) : Option (Option (ℕ+ × Nat × ℕ+)) :=
  match strstr tupleName.toList "_tuple_".toList with
  | none => some none
  | some length => do
    let tableId ← pins (buildEbpfMapFilename ctx (tuplesMapName tupleName length))
    let _ ← objects tableId
    let (status, key) ← extractTupleIdFromTuple tupleName
    if status ≠ NO_ERROR then none else
    let partition ← pins (buildEbpfMapFilename ctx tupleName)
    let _ ← objects partition
    pure (some (tableId, key, partition))

/-- Whether `bpf_map_update_elem` accepts `key` for map `mapId`: the object is a map, and
an array map has a slot there. -/
def acceptsKey (mapId : ℕ+) (key : Nat) : Bool :=
  match objects mapId with
  | some (.map info) => !decide (info.IsArray ∧ info.maxEntries ≤ key)
  | _ => false

/-- The map contents once a partition is installed; a failed `bpf_map_update_elem`
(`E2BIG`, `EBADF`) is only printed. -/
def installTuple (elems : Contents) : Option (ℕ+ × Nat × ℕ+) → Contents
  | none => elems
  | some (tableId, key, partition) =>
    if acceptsKey objects tableId key then storeElem elems tableId key (.obj partition) else elems

/-- Whether wiring a map succeeds. -/
def WireOk (pins : Pins) (map : LoadedMap) : Prop :=
  map.persisted → (wireTarget ctx objects pins map.name).isSome

instance (pins : Pins) (map : LoadedMap) : Decidable (WireOk ctx objects pins map) :=
  inferInstanceAs (Decidable (_ → _))

/-- The map contents after wiring a map. -/
def wireUpdate (pins : Pins) (elems : Contents) (map : LoadedMap) : Contents :=
  if map.persisted then installTuple objects elems (wireTarget ctx objects pins map.name).join
  else elems

/-- Wire one map, with the pins given. -/
def wireTurn (pins : Pins) (elems : Contents) (map : LoadedMap) : Option Contents :=
  if WireOk ctx objects pins map then some (wireUpdate ctx objects pins elems map) else none

/-- One turn of the map loop: remove libbpf's pin, pin the map under its name, wire it
into its index table; `none` where the loop stops. -/
def mapTurn (s : Persisted) (map : LoadedMap) : Option Persisted :=
  if PinOk ctx s.pins map then
    (wireTurn ctx objects (pinUpdate ctx s.pins map) s.elems map).map (⟨pinUpdate ctx s.pins map, ·⟩)
  else none

/-- Phase 3 of the spec: pin every map. -/
def pinPhase (pins : Pins) (maps : List LoadedMap) : Option Pins :=
  maps.foldlM (fun pins map => if PinOk ctx pins map then some (pinUpdate ctx pins map) else none) pins

/-- Phase 4 of the spec: wire every partition map, with every map pinned. -/
def wirePhase (pins : Pins) (elems : Contents) (maps : List LoadedMap) : Option Contents :=
  maps.foldlM (wireTurn ctx objects pins) elems

/-! ## One turn -/

variable {ctx objects}

theorem pinUpdate_apply (pins : Pins) (map : LoadedMap) (path : Path) :
    pinUpdate ctx pins map path =
      if map.persisted ∧ path = buildEbpfMapFilename ctx map.name then some map.id
      else if map.pinned ∧ path = .root map.name then none else pins path := by
  unfold pinUpdate pinOwn unpinRoot
  by_cases own : path = buildEbpfMapFilename ctx map.name <;>
    cases map.persisted <;> cases map.pinned <;> simp [Function.update_apply, own, buildEbpfMapFilename]

/-- A map's turn writes the path of its own name only. -/
theorem pinUpdate_map {pins : Pins} {map : LoadedMap} {name : String}
    (other : ¬ (map.persisted ∧ map.name = name)) :
    pinUpdate ctx pins map (buildEbpfMapFilename ctx name) = pins (buildEbpfMapFilename ctx name) := by
  simp only [pinUpdate_apply, buildEbpfMapFilename, Path.map.injEq, true_and, reduceCtorEq,
    and_false, if_false]
  exact if_neg fun ⟨persisted, same⟩ => other ⟨persisted, same.symm⟩

theorem pinUpdate_root {pins : Pins} {map : LoadedMap} {name : String} (other : map.name ≠ name) :
    pinUpdate ctx pins map (.root name) = pins (.root name) := by
  simp [pinUpdate_apply, buildEbpfMapFilename, Ne.symm other]

/-- The turns of two maps of different names commute. -/
theorem pinUpdate_comm {pins : Pins} {a b : LoadedMap} (differ : a.name ≠ b.name) :
    pinUpdate ctx (pinUpdate ctx pins a) b = pinUpdate ctx (pinUpdate ctx pins b) a := by
  funext path
  simp only [pinUpdate_apply]
  split_ifs <;> simp_all [buildEbpfMapFilename]

/-- Whether a map can be pinned does not depend on the turn of a map of another name. -/
theorem pinOk_pinUpdate {pins : Pins} {map other : LoadedMap} (differ : map.name ≠ other.name) :
    PinOk ctx (pinUpdate ctx pins map) other ↔ PinOk ctx pins other := by
  simp only [PinOk, pinUpdate_root differ, pinUpdate_map fun same => differ same.2]

/-- Wiring a map reads the pins at its index table and at its own name only. -/
theorem wireTarget_congr {pins pins' : Pins} {tupleName : String}
    (agree : ∀ name, (tupleTable tupleName = some name ∨ name = tupleName) →
      pins (buildEbpfMapFilename ctx name) = pins' (buildEbpfMapFilename ctx name)) :
    wireTarget ctx objects pins tupleName = wireTarget ctx objects pins' tupleName := by
  unfold wireTarget
  cases found : strstr tupleName.toList "_tuple_".toList with
  | none => rfl
  | some length =>
    simp only [agree (tuplesMapName tupleName length) (.inl (by rw [tupleTable, found]; rfl)),
      agree tupleName (.inr rfl)]

theorem wireTurn_congr {pins pins' : Pins} {elems : Contents} {map : LoadedMap}
    (agree : ∀ name, (map.indexTable = some name ∨ name = map.name) →
      pins (buildEbpfMapFilename ctx name) = pins' (buildEbpfMapFilename ctx name)) :
    wireTurn ctx objects pins elems map = wireTurn ctx objects pins' elems map := by
  by_cases persisted : map.persisted
  · have same : wireTarget ctx objects pins map.name = wireTarget ctx objects pins' map.name :=
      wireTarget_congr fun name read => agree name (by simpa [LoadedMap.indexTable, persisted] using read)
    simp [wireTurn, WireOk, wireUpdate, same]
  · simp [wireTurn, WireOk, wireUpdate, persisted]

/-- Installs at two different slots commute. -/
theorem installTuple_comm {elems : Contents} {tableId tableId' : ℕ+} {key key' : Nat}
    (differ : (tableId, key) ≠ (tableId', key')) (partition partition' : ℕ+) :
    installTuple objects (installTuple objects elems (some (tableId, key, partition)))
        (some (tableId', key', partition')) =
      installTuple objects (installTuple objects elems (some (tableId', key', partition')))
        (some (tableId, key, partition)) := by
  simp only [installTuple]
  split_ifs <;> simp [storeElem_comm differ]

/-- A partition that wiring installs is installed at its slot, in the object its index
table is pinned at. -/
theorem tupleSlot_of_wireTarget {pins : Pins} {map : LoadedMap} {tableId : ℕ+} {key : Nat}
    {partition : ℕ+} (persisted : map.persisted)
    (wired : (wireTarget ctx objects pins map.name).join = some (tableId, key, partition)) :
    ∃ table, map.tupleSlot = some (table, key) ∧ pins (buildEbpfMapFilename ctx table) = some tableId := by
  unfold wireTarget at wired
  cases found : strstr map.name.toList "_tuple_".toList with
  | none => rw [found] at wired; simp at wired
  | some length =>
    rw [found] at wired
    simp only [Option.join_eq_some, Option.bind_eq_bind, Option.bind_eq_some] at wired
    obtain ⟨table, tablePinned, _, _, ⟨status, parsed⟩, extracted, rest⟩ := wired
    split_ifs at rest
    simp only [Option.bind_eq_some, Option.pure_def, Option.some.injEq, Prod.mk.injEq] at rest
    obtain ⟨_, _, _, _, rfl, rfl, -⟩ := rest
    have tableOf : tupleTable map.name = some (tuplesMapName map.name length) := by
      rw [tupleTable, found]; rfl
    exact ⟨_, by simp [LoadedMap.tupleSlot, LoadedMap.indexTable, persisted, tableOf, extracted],
      tablePinned⟩

/-! ## The two phases -/

/-- The pin phase succeeds when every map can be pinned against the pins it starts
from, and then makes the pins of every map. -/
theorem pinPhase_eq {pins : Pins} {maps : List LoadedMap} (names : (maps.map (·.name)).Nodup) :
    pinPhase ctx pins maps =
      if ∀ map ∈ maps, PinOk ctx pins map then some (maps.foldl (pinUpdate ctx) pins) else none := by
  induction maps generalizing pins with
  | nil => simp [pinPhase]
  | cons map maps ih =>
    rw [List.map_cons, List.nodup_cons] at names
    have stable : ∀ other ∈ maps, PinOk ctx (pinUpdate ctx pins map) other ↔ PinOk ctx pins other :=
      fun other mem => pinOk_pinUpdate fun same => names.1 (List.mem_map.mpr ⟨other, mem, same.symm⟩)
    have rest : pinPhase ctx (pinUpdate ctx pins map) maps = _ := ih names.2
    unfold pinPhase at rest ⊢
    by_cases ok : PinOk ctx pins map
    · rw [List.foldlM_cons, if_pos ok, Option.bind_eq_bind, Option.some_bind, rest]
      simp only [List.forall_mem_cons, ok, true_and, List.foldl_cons]
      exact if_congr (forall₂_congr stable) rfl rfl
    · simp [ok]

/-- The wire phase succeeds when every map can be wired, and then installs every
partition. -/
theorem wirePhase_eq (pins : Pins) (elems : Contents) (maps : List LoadedMap) :
    wirePhase ctx objects pins elems maps =
      if ∀ map ∈ maps, WireOk ctx objects pins map then
        some (maps.foldl (wireUpdate ctx objects pins) elems)
      else none := by
  induction maps generalizing elems with
  | nil => simp [wirePhase]
  | cons map maps ih =>
    unfold wirePhase at ih ⊢
    by_cases ok : WireOk ctx objects pins map
    · simp [wireTurn, ok, ih]
    · simp [wireTurn, ok]

/-- The pins of a name no map is persisted under stay as they were. -/
theorem foldl_pinUpdate_map {pins : Pins} {maps : List LoadedMap} {name : String}
    (untouched : ∀ map ∈ maps, ¬ (map.persisted ∧ map.name = name)) :
    maps.foldl (pinUpdate ctx) pins (buildEbpfMapFilename ctx name) =
      pins (buildEbpfMapFilename ctx name) := by
  induction maps generalizing pins with
  | nil => rfl
  | cons map maps ih =>
    rw [List.foldl_cons, ih fun other mem => untouched other (.tail _ mem),
      pinUpdate_map (untouched map (.head _))]

/-- A pipeline path pinned once the maps are pinned was pinned before, or is the path of
a map persisted under that name. -/
theorem foldl_pinUpdate_map_some {pins : Pins} {maps : List LoadedMap} {name : String} {id : ℕ+}
    (pinned : maps.foldl (pinUpdate ctx) pins (buildEbpfMapFilename ctx name) = some id) :
    pins (buildEbpfMapFilename ctx name) = some id ∨
      ∃ map ∈ maps, map.persisted ∧ map.name = name ∧ map.id = id := by
  induction maps generalizing pins with
  | nil => exact .inl pinned
  | cons map maps ih =>
    rcases ih pinned with earlier | ⟨other, mem, found⟩
    · by_cases own : map.persisted ∧ map.name = name
      · rw [← own.2, pinUpdate_apply, if_pos ⟨own.1, rfl⟩] at earlier
        exact .inr ⟨map, .head _, own.1, own.2, Option.some.inj earlier⟩
      · exact .inl (by rwa [pinUpdate_map own] at earlier)
    · exact .inr ⟨other, .tail _ mem, found⟩

/-- Where no partition comes before its index table, the loop is the two phases: every
map pinned, then every partition wired. -/
theorem mapLoop_phased {s : Persisted} {maps : List LoadedMap} (names : (maps.map (·.name)).Nodup)
    (order : maps.Pairwise WiredBefore) :
    maps.foldlM (mapTurn ctx objects) s =
      (pinPhase ctx s.pins maps).bind fun pins =>
        (wirePhase ctx objects pins s.elems maps).map (⟨pins, ·⟩) := by
  induction maps generalizing s with
  | nil => simp [pinPhase, wirePhase]
  | cons map maps ih =>
    rw [List.map_cons, List.nodup_cons] at names
    rw [List.pairwise_cons] at order
    by_cases ok : PinOk ctx s.pins map
    · -- the partition's reads are the same once the later maps are pinned
      have later : ∀ pins ∈ pinPhase ctx (pinUpdate ctx s.pins map) maps,
          wireTurn ctx objects pins s.elems map =
            wireTurn ctx objects (pinUpdate ctx s.pins map) s.elems map := by
        intro pins phase
        rw [Option.mem_def, pinPhase_eq names.2] at phase
        split_ifs at phase
        cases phase
        refine wireTurn_congr fun name read => foldl_pinUpdate_map fun other mem ⟨persisted, same⟩ => ?_
        rcases read with table | own
        · exact order.1 other mem persisted (same ▸ table)
        · exact names.1 (List.mem_map.mpr ⟨other, mem, same.trans own⟩)
      have first : pinPhase ctx s.pins (map :: maps) = pinPhase ctx (pinUpdate ctx s.pins map) maps := by
        simp [pinPhase, ok]
      rw [first, List.foldlM_cons, Option.bind_eq_bind, mapTurn, if_pos ok, Option.bind_map]
      have rhs : ((pinPhase ctx (pinUpdate ctx s.pins map) maps).bind fun pins =>
            (wirePhase ctx objects pins s.elems (map :: maps)).map (Persisted.mk pins)) =
          (pinPhase ctx (pinUpdate ctx s.pins map) maps).bind fun pins =>
            ((wireTurn ctx objects (pinUpdate ctx s.pins map) s.elems map).bind fun elems =>
              wirePhase ctx objects pins elems maps).map (Persisted.mk pins) :=
        Option.bind_congr fun pins phase => by
          rw [wirePhase, List.foldlM_cons, Option.bind_eq_bind, later pins phase]; rfl
      rw [rhs]
      cases wireTurn ctx objects (pinUpdate ctx s.pins map) s.elems map with
      | none => simp
      | some elems => exact ih names.2 order.2
    · simp [pinPhase, mapTurn, ok]

/-- With every map of a different name, the pin phase does not depend on their order. -/
theorem pinPhase_perm {pins : Pins} {maps maps' : List LoadedMap} (perm : maps.Perm maps')
    (names : (maps.map (·.name)).Nodup) :
    pinPhase ctx pins maps = pinPhase ctx pins maps' := by
  rw [pinPhase_eq names, pinPhase_eq ((perm.map _).nodup_iff.mp names)]
  refine if_congr (forall_congr' fun _ => imp_congr_left perm.mem_iff) ?_ rfl
  refine congrArg some (perm.foldl_eq' (fun a memA b memB _ => ?_) pins)
  by_cases same : a = b
  · rw [same]
  · exact pinUpdate_comm fun sameName => same (List.inj_on_of_nodup_map names memA memB sameName)

/-- With no two partitions at one slot, and the index tables pinned at different
objects, the wire phase does not depend on the order of the maps. -/
theorem wirePhase_perm {pins : Pins} {elems : Contents} {maps maps' : List LoadedMap}
    (perm : maps.Perm maps')
    (slots : ∀ a ∈ maps, ∀ b ∈ maps, ∀ slot, a.tupleSlot = some slot → b.tupleSlot = some slot → a = b)
    (tables : ∀ table table' id, pins (buildEbpfMapFilename ctx table) = some id →
      pins (buildEbpfMapFilename ctx table') = some id → table = table') :
    wirePhase ctx objects pins elems maps = wirePhase ctx objects pins elems maps' := by
  rw [wirePhase_eq, wirePhase_eq]
  refine if_congr (forall_congr' fun _ => imp_congr_left perm.mem_iff) ?_ rfl
  refine congrArg some (perm.foldl_eq' (fun a memA b memB z => ?_) elems)
  by_cases same : a = b
  · rw [same]
  unfold wireUpdate
  by_cases persistedA : a.persisted; swap
  · simp [persistedA]
  by_cases persistedB : b.persisted; swap
  · simp [persistedB]
  simp only [persistedA, persistedB, if_true]
  cases wiredA : (wireTarget ctx objects pins a.name).join with
  | none => rfl
  | some targetA =>
    cases wiredB : (wireTarget ctx objects pins b.name).join with
    | none => rfl
    | some targetB =>
      obtain ⟨tableId, key, partition⟩ := targetA
      obtain ⟨tableId', key', partition'⟩ := targetB
      refine installTuple_comm (fun sameSlot => same ?_) _ _
      obtain ⟨table, slotA, pinnedA⟩ := tupleSlot_of_wireTarget persistedA wiredA
      obtain ⟨table', slotB, pinnedB⟩ := tupleSlot_of_wireTarget persistedB wiredB
      simp only [Prod.mk.injEq] at sameSlot
      rw [sameSlot.1] at pinnedA
      rw [← sameSlot.2, ← tables _ _ _ pinnedA pinnedB] at slotB
      exact slots a memA b memB _ slotA slotB

/-- The map loop does the same, success or failure and what it persists, in every order
of the maps where no partition comes before its index table: given maps of different
names and objects, no two partitions at one slot, and nothing pinned in the pipeline's
directory before. -/
theorem mapLoop_perm {s : Persisted} {maps maps' : List LoadedMap} (perm : maps.Perm maps')
    (names : (maps.map (·.name)).Nodup) (ids : (maps.map (·.id)).Nodup)
    (slots : ∀ a ∈ maps, ∀ b ∈ maps, ∀ slot, a.tupleSlot = some slot → b.tupleSlot = some slot → a = b)
    (free : ∀ name, s.pins (buildEbpfMapFilename ctx name) = none)
    (order : maps.Pairwise WiredBefore) (order' : maps'.Pairwise WiredBefore) :
    maps.foldlM (mapTurn ctx objects) s = maps'.foldlM (mapTurn ctx objects) s := by
  rw [mapLoop_phased names order, mapLoop_phased ((perm.map _).nodup_iff.mp names) order',
    pinPhase_perm perm names]
  refine Option.bind_congr fun pins phase => ?_
  rw [← pinPhase_perm perm names, Option.mem_def, pinPhase_eq names] at phase
  split_ifs at phase
  cases phase
  -- each pipeline path is pinned at the object of the one map of its name
  have tables : ∀ table table' id, maps.foldl (pinUpdate ctx) s.pins (buildEbpfMapFilename ctx table) = some id →
      maps.foldl (pinUpdate ctx) s.pins (buildEbpfMapFilename ctx table') = some id → table = table' := by
    intro table table' id pinned pinned'
    rcases foldl_pinUpdate_map_some pinned with before | ⟨map, mem, -, named, identified⟩
    · simp [free] at before
    rcases foldl_pinUpdate_map_some pinned' with before | ⟨map', mem', -, named', identified'⟩
    · simp [free] at before
    rw [← named, ← named', List.inj_on_of_nodup_map ids mem mem' (identified.trans identified'.symm)]
  rw [wirePhase_perm perm slots tables]

end Turn

end Nikss
