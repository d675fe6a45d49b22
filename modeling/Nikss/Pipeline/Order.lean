import Nikss.Kernel.Quiet
import Nikss.Pipeline.Phases

/-! # The load in every order of the maps

The code of `nikss_pipeline_load`, when no call fails for an outside reason, makes the
turns of `Nikss.Pipeline.Phases`: `pinMaps_refines` says that the map loop of the code
persists what the pure loop does and stops with a nonzero code where it stops. The
program pins before the loop and the map initializers after it do not depend on the
order of the maps, so the whole load inherits `mapLoop_perm`.

The world right after `bpf_prog_load` is described by `Loaded`: nothing outside fails,
the handles from `nextFd` on are free, every program and map of the object is open on
its handle, and nothing is pinned in the pipeline's directory yet.
-/

namespace Nikss

/-! ## Wiring a partition -/

/-- `bpf_map_update_elem` of an open partition into an open index table, when nothing
outside fails, installs it as `installTuple` says. -/
theorem bpfMapUpdateElem_installs {w : World} (quiet : w.outcomes = []) {fd innerFd : Int}
    {tableId inner : ℕ+} (table : w.lookupFd fd = some tableId)
    (innerOpen : w.lookupFd innerFd = some inner) (key : Nat) :
    ∃ ret w', bpfMapUpdateElem fd key (.fd innerFd) w = some (ret, w') ∧ w'.pins = w.pins ∧
      w.Grows w' ∧ w'.elems = installTuple w.objects w.elems (some (tableId, key, inner)) := by
  simp only [bpfMapUpdateElem, Sys.bind_apply, nextOutcome_quiet quiet, Option.some_bind,
    Sys.get_apply, table]
  cases found : w.objects tableId with
  | none =>
    exact ⟨_, _, rfl, rfl, World.grows_of_fds rfl rfl rfl rfl, by simp [installTuple, acceptsKey, found]⟩
  | some object =>
    cases object with
    | prog loadTime =>
      exact ⟨_, _, rfl, rfl, World.grows_of_fds rfl rfl rfl rfl, by simp [installTuple, acceptsKey, found]⟩
    | map info =>
      by_cases full : info.IsArray ∧ info.maxEntries ≤ key
      · refine ⟨-(E2BIG : Int), { w with errno := E2BIG }, ?_, rfl, World.grows_of_fds rfl rfl rfl rfl,
          by simp [installTuple, acceptsKey, found, full]⟩
        simp only [Option.some_bind, Option.map_some', found, if_pos full]
        rfl
      · refine ⟨0, { w with elems := storeElem w.elems tableId key (.obj inner) }, ?_, rfl,
          World.grows_of_fds rfl rfl rfl rfl, by simp [installTuple, acceptsKey, found, full]⟩
        simp only [Option.some_bind, Option.map_some', found, if_neg full, World.resolveValue, innerOpen]
        rfl

/-- `join_tuple_to_map_if_tuple`, when nothing outside fails, answers `NO_ERROR` and
installs what `wireTarget` reads from the pins, or answers an error where `wireTarget`
fails; it leaves the pins as they were. -/
theorem joinTupleToMapIfTuple_wires {w : World} (quiet : w.outcomes = []) (fresh : w.FreshFds)
    (ctx : NikssContext) (name : String) :
    ∃ ret w', joinTupleToMapIfTuple ctx name w = some (ret, w') ∧ w'.pins = w.pins ∧ w.Grows w' ∧
      match wireTarget ctx w.objects w.pins name with
      | some target => ret = NO_ERROR ∧ w'.elems = installTuple w.objects w.elems target
      | none => ret ≠ NO_ERROR := by
  unfold joinTupleToMapIfTuple wireTarget
  cases found : strstr name.toList "_tuple_".toList with
  | none => exact ⟨NO_ERROR, w, rfl, rfl, .refl w, rfl, rfl⟩
  | some length =>
    obtain ⟨md, w₁, opened, pins₁, elems₁, grows₁, handle₁⟩ :=
      openBpfMap_quiet quiet ctx (tuplesMapName name length)
    simp only [Sys.bind_apply, opened, Option.some_bind, Option.bind_eq_bind]
    -- the index table
    by_cases tableOk : w.openStatus (buildEbpfMapFilename ctx (tuplesMapName name length)) = NO_ERROR
    swap
    · refine ⟨_, w₁, by rw [if_pos tableOk]; rfl, pins₁, grows₁, ?_⟩
      rw [World.bind_open_of_failed tableOk]
      exact tableOk
    obtain ⟨tableId, tablePinned, tableObject⟩ := World.openStatus_eq_noError.mp tableOk
    obtain ⟨object, objectFound⟩ := Option.isSome_iff_exists.mp tableObject
    obtain ⟨⟨status, key⟩, extracted⟩ := Option.isSome_iff_exists.mp (extractTupleIdFromTuple_isSome found)
    simp only [if_neg (not_not.mpr tableOk), tablePinned, objectFound, extracted, Option.some_bind,
      Sys.bind_apply, Sys.pure_apply, Sys.liftM_apply, Option.map_some']
    -- the key
    by_cases statusOk : status = NO_ERROR
    swap
    · exact ⟨_, w₁, by rw [if_pos statusOk]; rfl, pins₁, grows₁, by simp [statusOk]; simp [ENODATA, NO_ERROR]⟩
    -- the partition
    have quiet₁ : w₁.outcomes = [] := grows₁.outcomes.trans quiet
    obtain ⟨md₂, w₂, opened₂, pins₂, elems₂, grows₂, handle₂⟩ := openBpfMap_quiet quiet₁ ctx name
    have sameStatus : w₁.openStatus (buildEbpfMapFilename ctx name) =
        w.openStatus (buildEbpfMapFilename ctx name) := by
      simp only [World.openStatus, pins₁, grows₁.objects]
    simp only [if_neg (not_not.mpr statusOk), Sys.bind_apply, Sys.pure_apply, Option.some_bind, opened₂,
      sameStatus]
    by_cases partOk : w.openStatus (buildEbpfMapFilename ctx name) = NO_ERROR
    swap
    · refine ⟨_, w₂, by rw [if_pos partOk]; rfl, pins₂.trans pins₁, grows₁.trans grows₂, ?_⟩
      rw [World.bind_open_of_failed partOk]
      exact partOk
    obtain ⟨partition, partPinned, partObject⟩ := World.openStatus_eq_noError.mp partOk
    obtain ⟨inner, innerFound⟩ := Option.isSome_iff_exists.mp partObject
    -- the install
    have tableHandle : w₂.lookupFd md.fd = some tableId :=
      grows₂.lookup (grows₁.fresh fresh) ((handle₁ tableOk).trans tablePinned)
    have partHandle : w₂.lookupFd md₂.fd = some partition :=
      (handle₂ (sameStatus.trans partOk)).trans (pins₁ ▸ partPinned)
    obtain ⟨ret₃, w₃, updated, pins₃, grows₃, elems₃⟩ :=
      bpfMapUpdateElem_installs (grows₂.outcomes.trans quiet₁) tableHandle partHandle key
    refine ⟨NO_ERROR, w₃, by simp [partOk, updated], pins₃.trans (pins₂.trans pins₁),
      grows₁.trans (grows₂.trans grows₃), ?_⟩
    simp [partPinned, innerFound, elems₃, elems₂, elems₁, grows₂.objects, grows₁.objects]

/-- What the map loop relies on of the world: nothing outside fails, the handles from
`nextFd` on are free, and every map of the object is open on its handle. -/
structure LoopInv (maps : List LoadedMap) (w : World) : Prop where
  quiet : w.outcomes = []
  fresh : w.FreshFds
  opened : ∀ map ∈ maps, w.lookupFd map.fd = some map.id

theorem LoopInv.grow {maps : List LoadedMap} {w w' : World} (inv : LoopInv maps w)
    (grows : w.Grows w') : LoopInv maps w' :=
  ⟨grows.outcomes.trans inv.quiet, grows.fresh inv.fresh,
    fun map mem => grows.lookup inv.fresh (inv.opened map mem)⟩

/-- A run of the code that answered `result` in `w` does what the pure loop does: the
same pins and map contents where that runs through, a nonzero code where it stops. -/
def Simulates (abstract : Option Persisted) (result : Except Int Int) (w : World) : Prop :=
  match abstract with
  | some s => result = .ok 0 ∧ w.pins = s.pins ∧ w.elems = s.elems
  | none => ∃ ret, result = .error ret ∧ ret ≠ 0

/-- What a map's turn does once libbpf's pin is removed: `pinMapByName`'s part. -/
def ownTurn (ctx : NikssContext) (objects : ℕ+ → Option KObject) (s : Persisted)
    (map : LoadedMap) : Option Persisted :=
  if map.persisted → s.pins (buildEbpfMapFilename ctx map.name) = none then
    (wireTurn ctx objects (pinOwn ctx s.pins map) s.elems map).map (⟨pinOwn ctx s.pins map, ·⟩)
  else none

/-- A turn removes libbpf's pin, then makes `ownTurn`. -/
theorem mapTurn_eq_ownTurn (ctx : NikssContext) (objects : ℕ+ → Option KObject) (s : Persisted)
    (map : LoadedMap) :
    mapTurn ctx objects s map =
      if map.pinned → (s.pins (.root map.name)).isSome then
        ownTurn ctx objects ⟨unpinRoot s.pins map, s.elems⟩ map
      else none := by
  have own : unpinRoot s.pins map (buildEbpfMapFilename ctx map.name) =
      s.pins (buildEbpfMapFilename ctx map.name) := by
    unfold unpinRoot; split_ifs <;> simp [buildEbpfMapFilename]
  unfold mapTurn ownTurn PinOk pinUpdate
  simp only [own]
  by_cases root : map.pinned → (s.pins (.root map.name)).isSome
  · by_cases free : map.persisted → s.pins (buildEbpfMapFilename ctx map.name) = none
    · rw [if_pos ⟨root, free⟩, if_pos root, if_pos free]
    · rw [if_neg fun ok => free ok.2, if_pos root, if_neg free]
  · rw [if_neg fun ok => root ok.1, if_neg root]

theorem pinMapByName_refines (ctx : NikssContext) {maps : List LoadedMap} {w : World}
    {map : LoadedMap} (inv : LoopInv maps w) (mem : map ∈ maps) :
    ∃ result w', pinMapByName ctx 0 map w = some (result, w') ∧ w.Grows w' ∧
      Simulates (ownTurn ctx w.objects ⟨w.pins, w.elems⟩ map) result w' := by
  by_cases persisted : map.persisted
  swap
  · have dotted : (strstr map.name.toList ".".toList).isSome := by
      unfold LoadedMap.persisted at persisted
      revert persisted
      cases strstr map.name.toList ".".toList <;> simp
    exact ⟨.ok 0, w, by simp only [pinMapByName, dotted, if_true]; rfl, .refl w,
      by simp [Simulates, ownTurn, pinOwn, wireTurn, WireOk, wireUpdate, persisted]⟩
  have dotFree : (strstr map.name.toList ".".toList).isSome = false := by
    unfold LoadedMap.persisted at persisted
    revert persisted
    cases strstr map.name.toList ".".toList <;> simp
  have pin := bpfObjPin_quiet inv.quiet (inv.opened map mem) (buildEbpfMapFilename ctx map.name)
  cases free : w.pins (buildEbpfMapFilename ctx map.name) with
  | some _ =>
    refine ⟨.error (-(EEXIST : Int)), { w with errno := EEXIST }, ?_, World.grows_of_fds rfl rfl rfl rfl,
      by simp [Simulates, ownTurn, persisted, free, EEXIST]⟩
    simp only [pinMapByName, dotFree, Bool.false_eq_true, if_false, Sys.bind_apply, Sys.pure_apply,
      bpfMapSetPinPath_quiet inv.quiet, Option.some_bind, pin, free, ne_eq, not_true_eq_false]
    simp [EEXIST]
  | none =>
    let w₁ := { w with pins := pinOwn ctx w.pins map }
    have pinned : w₁.pins = Function.update w.pins (buildEbpfMapFilename ctx map.name) (some map.id) := by
      simp [w₁, pinOwn, persisted]
    obtain ⟨ret, w₂, joined, pins₂, grows₂, wired⟩ :=
      joinTupleToMapIfTuple_wires (w := w₁) inv.quiet inv.fresh ctx map.name
    have run : pinMapByName ctx 0 map w =
        some (if ret ≠ 0 then .error ret else .ok ret, w₂) := by
      simp only [pinMapByName, dotFree, Bool.false_eq_true, if_false, Sys.bind_apply, Sys.pure_apply,
        bpfMapSetPinPath_quiet inv.quiet, Option.some_bind, pin, free, ne_eq, not_true_eq_false, ← pinned,
        joined]
      split_ifs <;> rfl
    refine ⟨_, w₂, run, (World.grows_of_fds rfl rfl rfl rfl : w.Grows w₁).trans grows₂, ?_⟩
    simp only [ownTurn, free, persisted, imp_true_iff, if_true, wireTurn, WireOk, wireUpdate]
    cases target : wireTarget ctx w.objects (pinOwn ctx w.pins map) map.name with
    | none =>
      rw [target] at wired
      simp only [target, Option.isSome_none, imp_false, not_true, if_false]
      exact ⟨ret, if_pos wired, wired⟩
    | some target =>
      rw [target] at wired
      simp only [NO_ERROR] at wired
      simp [Simulates, target, wired, pins₂]

theorem pinMap_refines (ctx : NikssContext) {maps : List LoadedMap} {w : World}
    {map : LoadedMap} (inv : LoopInv maps w) (mem : map ∈ maps) :
    ∃ result w', pinMap ctx 0 map w = some (result, w') ∧ w.Grows w' ∧
      Simulates (mapTurn ctx w.objects ⟨w.pins, w.elems⟩ map) result w' := by
  rw [mapTurn_eq_ownTurn]
  by_cases pinned : map.pinned
  swap
  · obtain ⟨result, w', run, grows, sim⟩ := pinMapByName_refines ctx inv mem
    exact ⟨result, w', by simp [pinMap, pinned, run], grows, by simpa [pinned, unpinRoot] using sim⟩
  cases root : w.pins (.root map.name) with
  | none =>
    refine ⟨.error (-(ENOENT : Int)), { w with errno := ENOENT }, ?_, World.grows_of_fds rfl rfl rfl rfl,
      by simp [Simulates, pinned, root, ENOENT]⟩
    simp [pinMap, pinned, bpfMapUnpin_quiet inv.quiet, root, ENOENT]
  | some _ =>
    let w₁ := { w with pins := unpinRoot w.pins map }
    have unpinned : w₁.pins = Function.update w.pins (.root map.name) none := by simp [w₁, unpinRoot, pinned]
    obtain ⟨result, w', run, grows, sim⟩ :=
      pinMapByName_refines ctx (w := w₁) (inv.grow (World.grows_of_fds rfl rfl rfl rfl)) mem
    refine ⟨result, w', ?_, (World.grows_of_fds rfl rfl rfl rfl : w.Grows w₁).trans grows,
      by simpa [pinned, root] using sim⟩
    simp only [pinMap, pinned, if_true, Sys.bind_apply, bpfMapUnpin_quiet inv.quiet, root, Option.some_bind,
      ne_eq, not_true_eq_false, if_false, Sys.pure_apply, ← unpinned, run]

/-- The map loop of the code, when nothing outside fails, simulates the pure loop. -/
theorem pinMaps_refines (ctx : NikssContext) {objs : List LoadedMap} :
    ∀ {maps : List LoadedMap} {w : World}, (∀ map ∈ maps, map ∈ objs) → LoopInv objs w →
      ∃ result w', pinMaps ctx 0 maps w = some (result, w') ∧ w.Grows w' ∧
        Simulates (maps.foldlM (mapTurn ctx w.objects) ⟨w.pins, w.elems⟩) result w'
  | [], w, _, _ => ⟨.ok 0, w, rfl, .refl w, rfl, rfl, rfl⟩
  | map :: maps, w, sub, inv => by
    obtain ⟨result, w₁, run, grows, sim⟩ := pinMap_refines ctx inv (sub map (.head _))
    rw [List.foldlM_cons]
    cases turn : mapTurn ctx w.objects ⟨w.pins, w.elems⟩ map with
    | none =>
      rw [turn] at sim
      obtain ⟨ret, rfl, nonzero⟩ := sim
      exact ⟨.error ret, w₁, by simp [pinMaps, run], grows, ret, rfl, nonzero⟩
    | some s =>
      rw [turn] at sim
      obtain ⟨rfl, pins₁, elems₁⟩ := sim
      obtain ⟨result', w₂, run', grows', sim'⟩ :=
        pinMaps_refines ctx (fun other mem => sub other (.tail _ mem)) (inv.grow grows)
      refine ⟨result', w₂, by simp [pinMaps, run, run'], grows.trans grows', ?_⟩
      rw [grows.objects, pins₁, elems₁] at sim'
      exact sim'

/-! ## Before and after the map loop -/

/-- The program pins, when nothing outside fails and every program is open, all succeed
or stop on a negative code; they touch neither the pipeline's map paths nor the map
contents. -/
theorem pinPrograms_quiet (ctx : NikssContext) :
    ∀ {progs : List LoadedProg} {w : World}, w.outcomes = [] →
      (∀ prog ∈ progs, (w.lookupFd prog.fd).isSome) →
      ∃ result w', pinPrograms ctx 0 progs w = some (result, w') ∧ w.Grows w' ∧
        (∀ name, w'.pins (buildEbpfMapFilename ctx name) = w.pins (buildEbpfMapFilename ctx name)) ∧
        w'.elems = w.elems ∧ (result = .ok 0 ∨ ∃ ret, result = .error ret ∧ ret < 0)
  | [], w, _, _ => ⟨.ok 0, w, rfl, .refl w, fun _ => rfl, rfl, .inl rfl⟩
  | prog :: progs, w, quiet, opened => by
    obtain ⟨id, found⟩ := Option.isSome_iff_exists.mp (opened prog (.head _))
    have pin := bpfObjPin_quiet quiet found (buildEbpfProgFilename ctx (programPinName prog.sectionName))
    cases taken : w.pins (buildEbpfProgFilename ctx (programPinName prog.sectionName)) with
    | some _ =>
      refine ⟨.error (-(EEXIST : Int)), { w with errno := EEXIST }, ?_, World.grows_of_fds rfl rfl rfl rfl,
        fun _ => rfl, rfl, .inr ⟨_, rfl, by simp [EEXIST]⟩⟩
      simp only [pinPrograms, Sys.bind_apply, pin, taken, Option.some_bind]
      simp [EEXIST]
    | none =>
      let path := buildEbpfProgFilename ctx (programPinName prog.sectionName)
      let w₁ := { w with pins := Function.update w.pins path (some id) }
      obtain ⟨result, w', run, grows, untouched, elems, outcome⟩ :=
        pinPrograms_quiet ctx (w := w₁) quiet fun other mem => opened other (.tail _ mem)
      refine ⟨result, w', ?_, (World.grows_of_fds rfl rfl rfl rfl : w.Grows w₁).trans grows,
        fun name => (untouched name).trans ?_, elems, outcome⟩
      · simp only [pinPrograms, Sys.bind_apply, pin, taken, Option.some_bind, lt_irrefl, if_false,
          Sys.pure_apply]
        exact run
      · show Function.update w.pins path (some id) (buildEbpfMapFilename ctx name) = _
        exact Function.update_noteq (by simp [path, buildEbpfMapFilename, buildEbpfProgFilename]) _ _

/-- With every program open, the map initializers succeed when nothing outside fails;
their test runs change nothing the model keeps. -/
theorem initializeMaps_quiet (defs : BpfDefs) {w : World} (quiet : w.outcomes = []) :
    ∀ {progs : List LoadedProg}, (∀ prog ∈ progs, (w.lookupFd prog.fd).isSome) →
      initializeMaps defs 0 progs w = some (.ok 0, w)
  | [], _ => rfl
  | prog :: progs, opened => by
    have rest := initializeMaps_quiet defs quiet fun other mem => opened other (.tail _ mem)
    by_cases init : prog.sectionName = defs.tcInitProg ∨ prog.sectionName = defs.xdpInitProg
    · simp [initializeMaps, init, doInitializeMaps, bpfProgTestRun_quiet quiet (opened prog (.head _)), rest]
    · simp [initializeMaps, init, rest]

/-- Closing handles changes neither pins nor map contents. -/
theorem forIn_close {α : Type} (l : List α) (fd : α → Int) (w : World) :
    ∃ w', (forIn l PUnit.unit fun a _ => do close (fd a); pure (ForInStep.yield PUnit.unit) : Sys PUnit) w
      = some (PUnit.unit, w') ∧ w'.pins = w.pins ∧ w'.elems = w.elems := by
  induction l generalizing w with
  | nil => exact ⟨w, rfl, rfl, rfl⟩
  | cons a l ih =>
    obtain ⟨w', run, pins, elems⟩ :=
      ih (if 0 ≤ fd a then { w with fds := Function.update w.fds (fd a).toNat none } else w)
    refine ⟨w', ?_, ?_, ?_⟩
    · rw [List.forIn_cons]
      simp only [Sys.bind_apply, close, Sys.modify_apply, Option.some_bind, Sys.pure_apply]
      exact run
    · split_ifs at pins <;> exact pins
    · split_ifs at elems <;> exact elems

theorem bpfObjectClose_keeps (obj : LoadedObject) (w : World) :
    ∃ w', bpfObjectClose obj w = some (PUnit.unit, w') ∧ w'.pins = w.pins ∧ w'.elems = w.elems := by
  obtain ⟨w₁, progs, pins₁, elems₁⟩ := forIn_close obj.progs LoadedProg.fd w
  obtain ⟨w₂, maps, pins₂, elems₂⟩ := forIn_close obj.maps LoadedMap.fd w₁
  exact ⟨w₂, by simp only [bpfObjectClose, Sys.bind_apply, progs, maps, Option.some_bind, Sys.pure_apply],
    pins₂.trans pins₁, elems₂.trans elems₁⟩

/-- A load whose program pins fail answers their negated code, whatever the maps. -/
theorem loadObject_of_programs_error (defs : BpfDefs) (ctx : NikssContext) (obj : LoadedObject)
    {w w₁ : World} {ret : Int} (programs : pinPrograms ctx 0 obj.progs w = some (.error ret, w₁)) :
    ∃ w', loadObject defs ctx 0 obj w = some (-ret, w') := by
  obtain ⟨w₂, closed, -, -⟩ := bpfObjectClose_keeps obj w₁
  exact ⟨w₂, by simp [loadObject, loadPhases, programs, closed]⟩

/-- After the program pins, the load answers 0 and keeps what the pure map loop persists
where that runs through, and a nonzero code where it stops. -/
theorem loadObject_after_programs (defs : BpfDefs) (ctx : NikssContext) (obj : LoadedObject)
    {w w₁ : World} (programs : pinPrograms ctx 0 obj.progs w = some (.ok 0, w₁))
    (inv : LoopInv obj.maps w₁) (opened : ∀ prog ∈ obj.progs, (w₁.lookupFd prog.fd).isSome) :
    ∃ ret w', loadObject defs ctx 0 obj w = some (ret, w') ∧
      match obj.maps.foldlM (mapTurn ctx w₁.objects) ⟨w₁.pins, w₁.elems⟩ with
      | some s => ret = 0 ∧ w'.pins = s.pins ∧ w'.elems = s.elems
      | none => ret ≠ 0 := by
  obtain ⟨result, w₂, loop, grows, sim⟩ := pinMaps_refines ctx (fun _ mem => mem) inv
  cases abstract : obj.maps.foldlM (mapTurn ctx w₁.objects) ⟨w₁.pins, w₁.elems⟩ with
  | none =>
    rw [abstract] at sim
    obtain ⟨ret, rfl, nonzero⟩ := sim
    obtain ⟨w₃, closed, -, -⟩ := bpfObjectClose_keeps obj w₂
    exact ⟨-ret, w₃, by simp [loadObject, loadPhases, programs, loop, closed], neg_ne_zero.mpr nonzero⟩
  | some s =>
    rw [abstract] at sim
    obtain ⟨rfl, pins, elems⟩ := sim
    have stillOpen : ∀ prog ∈ obj.progs, (w₂.lookupFd prog.fd).isSome := fun prog mem => by
      obtain ⟨id, found⟩ := Option.isSome_iff_exists.mp (opened prog mem)
      simp [grows.lookup inv.fresh found]
    obtain ⟨w₃, closed, pins₃, elems₃⟩ := bpfObjectClose_keeps obj w₂
    exact ⟨0, w₃, by simp [loadObject, loadPhases, programs, loop, closed,
      initializeMaps_quiet defs (grows.outcomes.trans inv.quiet) stillOpen],
      rfl, pins₃.trans pins, elems₃.trans elems⟩

/-! ## Every order of the maps -/

/-- The world right after `bpf_prog_load` loaded `obj`, as the load relies on it:
nothing outside fails, the handles from `nextFd` on are free, every program and map of
the object is open on its handle, and nothing is pinned in the pipeline's directory. -/
structure Loaded (ctx : NikssContext) (obj : LoadedObject) (w : World) : Prop where
  quiet : w.outcomes = []
  fresh : w.FreshFds
  progs : ∀ prog ∈ obj.progs, (w.lookupFd prog.fd).isSome
  maps : ∀ map ∈ obj.maps, w.lookupFd map.fd = some map.id
  free : ∀ name, w.pins (buildEbpfMapFilename ctx name) = none

/-- Maps with distinct slots in the list of slots have distinct slots. -/
theorem eq_of_tupleSlot_eq {maps : List LoadedMap} (names : (maps.map (·.name)).Nodup)
    (slots : (maps.filterMap LoadedMap.tupleSlot).Nodup) :
    ∀ a ∈ maps, ∀ b ∈ maps, ∀ slot, a.tupleSlot = some slot → b.tupleSlot = some slot → a = b := by
  induction maps with
  | nil => intro a mem; cases mem
  | cons map maps ih =>
    rw [List.map_cons, List.nodup_cons] at names
    have distinct : ∀ other ∈ maps, ∀ slot, map.tupleSlot = some slot → other.tupleSlot ≠ some slot :=
      fun other mem slot own same => by
        rw [List.filterMap_cons, own, List.nodup_cons] at slots
        exact slots.1 (List.mem_filterMap.mpr ⟨other, mem, same⟩)
    have rest : (maps.filterMap LoadedMap.tupleSlot).Nodup := by
      rw [List.filterMap_cons] at slots
      cases own : map.tupleSlot with
      | none => rwa [own] at slots
      | some _ => rw [own] at slots; exact (List.nodup_cons.mp slots).2
    intro a memA b memB slot slotA slotB
    rcases List.mem_cons.mp memA with rfl | inA <;> rcases List.mem_cons.mp memB with rfl | inB
    · rfl
    · exact absurd slotB (distinct b inB slot slotA)
    · exact absurd slotA (distinct a inA slot slotB)
    · exact ih names.2 rest a inA b inB slot slotA slotB

/-- The load, from the loaded object on, in two orders of its maps where no partition
comes before its index table: both runs answer, one answers 0 exactly when the other
does, and then both leave the same pins and the same map contents. It holds when
nothing outside fails, the maps have different names and objects, no two partition maps
share a slot, and nothing is pinned in the pipeline's directory before. -/
theorem loadObject_map_order_independent {defs : BpfDefs} {ctx : NikssContext} {obj : LoadedObject}
    {maps : List LoadedMap} {w : World} (perm : maps.Perm obj.maps) (loaded : Loaded ctx obj w)
    (names : (obj.maps.map (·.name)).Nodup) (ids : (obj.maps.map (·.id)).Nodup)
    (slots : (obj.maps.filterMap LoadedMap.tupleSlot).Nodup)
    (order : obj.maps.Pairwise WiredBefore) (order' : maps.Pairwise WiredBefore) :
    ∃ ret w₁ ret' w₂, loadObject defs ctx 0 obj w = some (ret, w₁) ∧
      loadObject defs ctx 0 { obj with maps } w = some (ret', w₂) ∧
      (ret = 0 ↔ ret' = 0) ∧ (ret = 0 → w₁.pins = w₂.pins ∧ w₁.elems = w₂.elems) := by
  obtain ⟨result, w₁, programs, grows, untouched, -, outcome⟩ :=
    pinPrograms_quiet ctx loaded.quiet loaded.progs
  rcases outcome with rfl | ⟨ret, rfl, negative⟩
  · have inv : LoopInv obj.maps w₁ := ⟨grows.outcomes.trans loaded.quiet, grows.fresh loaded.fresh,
      fun map mem => grows.lookup loaded.fresh (loaded.maps map mem)⟩
    have opened : ∀ prog ∈ obj.progs, (w₁.lookupFd prog.fd).isSome := fun prog mem => by
      obtain ⟨id, found⟩ := Option.isSome_iff_exists.mp (loaded.progs prog mem)
      simp [grows.lookup loaded.fresh found]
    obtain ⟨ret, w₂, run, sim⟩ := loadObject_after_programs defs ctx obj programs inv opened
    obtain ⟨ret', w₂', run', sim'⟩ := loadObject_after_programs defs ctx { obj with maps } programs
      ⟨inv.quiet, inv.fresh, fun map mem => inv.opened map (perm.subset mem)⟩ opened
    have same : obj.maps.foldlM (mapTurn ctx w₁.objects) ⟨w₁.pins, w₁.elems⟩ =
        maps.foldlM (mapTurn ctx w₁.objects) ⟨w₁.pins, w₁.elems⟩ :=
      mapLoop_perm perm.symm names ids (eq_of_tupleSlot_eq names slots)
        (fun name => (untouched name).trans (loaded.free name)) order order'
    simp only at sim'
    rw [← same] at sim'
    refine ⟨ret, w₂, ret', w₂', run, run', ?_⟩
    cases abstract : obj.maps.foldlM (mapTurn ctx w₁.objects) ⟨w₁.pins, w₁.elems⟩ with
    | none =>
      rw [abstract] at sim sim'
      exact ⟨⟨fun zero => absurd zero sim, fun zero => absurd zero sim'⟩, fun zero => absurd zero sim⟩
    | some s =>
      rw [abstract] at sim sim'
      exact ⟨⟨fun _ => sim'.1, fun _ => sim.1⟩, fun _ => ⟨sim.2.1.trans sim'.2.1.symm, sim.2.2.trans sim'.2.2.symm⟩⟩
  · obtain ⟨w₂, run⟩ := loadObject_of_programs_error defs ctx obj programs
    obtain ⟨w₂', run'⟩ := loadObject_of_programs_error defs ctx { obj with maps } programs
    exact ⟨_, _, _, _, run, run', Iff.rfl, fun zero => absurd zero (by omega)⟩

set_option maxRecDepth 4000 in
/-- An index table, its partition and a map libbpf pinned at load, enumerated with the
pinned map first. -/
theorem loadObject_map_order_independent_on_partition :
    let defs : BpfDefs := ⟨"tc-ingress", "tc-egress", "xdp-ingress", "xdp-egress",
      "xdp-egress-optimized", "xdp-helper", "tc-init", "xdp-init", "devmap", "jump-table", by decide⟩
    let table : LoadedMap := ⟨"t_tuples_map", false, 0, 1⟩
    let partition : LoadedMap := ⟨"t_tuple_0", false, 1, 2⟩
    let flags : LoadedMap := ⟨"flags", true, 2, 3⟩
    let obj : LoadedObject := ⟨[⟨"xdp-ingress", 3, 4⟩], [table, partition, flags]⟩
    let maps := [flags, table, partition]
    let w : World :=
      { World.boot (fun _ => none) [] (fun _ => .bare false) [] with
        pins := fun path => if path = .root "flags" then some 3 else none
        objects := fun id => if id ≤ 3 then some (.map ⟨1, 4, 4, 16, 0, 0⟩) else some (.prog 0)
        fds := fun n => if n < 4 then some ⟨n + 1, n.succ_pos⟩ else none
        nextFd := 4
        nextId := 5 }
    maps.Perm obj.maps ∧ Loaded ⟨0⟩ obj w ∧ (obj.maps.map (·.name)).Nodup ∧
      (obj.maps.map (·.id)).Nodup ∧ (obj.maps.filterMap LoadedMap.tupleSlot).Nodup ∧
      obj.maps.Pairwise WiredBefore ∧ maps.Pairwise WiredBefore ∧
      ∃ ret w₁ ret' w₂, loadObject defs ⟨0⟩ 0 obj w = some (ret, w₁) ∧
        loadObject defs ⟨0⟩ 0 { obj with maps } w = some (ret', w₂) ∧
        (ret = 0 ↔ ret' = 0) ∧ (ret = 0 → w₁.pins = w₂.pins ∧ w₁.elems = w₂.elems) := by
  intro defs table partition flags obj maps w
  have perm : maps.Perm obj.maps := by decide
  have loaded : Loaded ⟨0⟩ obj w :=
    ⟨rfl, fun _ bound => if_neg (Nat.not_lt.mpr bound), by simp only [obj]; decide, by decide,
      fun _ => by simp [w, buildEbpfMapFilename]⟩
  have names : (obj.maps.map (·.name)).Nodup := by decide
  have ids : (obj.maps.map (·.id)).Nodup := by decide
  have slots : (obj.maps.filterMap LoadedMap.tupleSlot).Nodup := by decide
  have order : obj.maps.Pairwise WiredBefore := by decide
  have order' : maps.Pairwise WiredBefore := by decide
  exact ⟨perm, loaded, names, ids, slots, order, order',
    loadObject_map_order_independent perm loaded names ids slots order order'⟩

set_option maxRecDepth 4000 in
set_option smartUnfolding false in
/-- The load depends on the order of the maps, for an object with one program. A
partition enumerated before its index table finds the table unpinned, and the load
answers `-ENOENT` where the other order answers 0. Two partitions at one slot
(`a_tuple_1` and `a_tuple_01`, both at key 1) leave the one enumerated last in the index
table. -/
theorem nikssPipelineLoad_depends_on_map_order :
    let defs : BpfDefs := ⟨"tc-ingress", "tc-egress", "xdp-ingress", "xdp-egress",
      "xdp-egress-optimized", "xdp-helper", "tc-init", "xdp-init", "devmap", "jump-table", by decide⟩
    let table : MapDef := ⟨"t_tuples_map", ⟨12, 4, 4, 4, 0, 0⟩, false⟩
    let partition : MapDef := ⟨"t_tuple_0", ⟨1, 4, 4, 16, 0, 0⟩, false⟩
    let shared : MapDef := ⟨"a_tuples_map", ⟨12, 4, 4, 4, 0, 0⟩, false⟩
    let first : MapDef := ⟨"a_tuple_1", ⟨1, 4, 4, 16, 0, 0⟩, false⟩
    let second : MapDef := ⟨"a_tuple_01", ⟨1, 4, 4, 16, 0, 0⟩, false⟩
    let load := fun maps : List MapDef => nikssPipelineLoad defs ⟨0⟩ "p.o"
      (World.boot (fun file => if file = "p.o" then some ⟨[⟨"xdp-ingress"⟩], maps⟩ else none) []
        (fun _ => .bare false) [])
    let slot := fun r : Int × World =>
      (r.1, r.2.elems 1 1, r.2.pins (.map 0 "a_tuple_1"), r.2.pins (.map 0 "a_tuple_01"));
    (load [table, partition]).map Prod.fst = some 0 ∧
      (load [partition, table]).map Prod.fst = some (-(ENOENT : Int)) ∧
      (load [shared, first, second]).map slot = some (0, some (.obj 3), some 2, some 3) ∧
      (load [shared, second, first]).map slot = some (0, some (.obj 3), some 3, some 2) :=
  ⟨rfl, rfl, rfl, rfl⟩

end Nikss
