import Nikss.Pipeline.Order

/-! # What a successful load leaves pinned

A load that answers 0 has pinned every program under its pin name and every map whose
name has no dot under its own name, each at the object its handle refers to.

No pin is ever overwritten. `bpf_obj_pin` refuses a path that is taken, so a program
pinned once keeps its path for the rest of the program pins; a map's turn needs its own
path free (`PinOk`) and writes nothing else but libbpf's pin root, so every path pinned
before it, a program's or a map's, keeps its object (`mapTurn_keeps`). The map part is
proved on the pure loop and carried to the code by the refinement of `Order`.
-/

namespace Nikss

/-! ## The program pins -/

/-- A pin that does not fail, when nothing outside fails, was of an open handle at a free
path, and wrote that path only. -/
theorem bpfObjPin_pinned {w w' : World} (quiet : w.outcomes = []) {fd ret : Int} {path : Path}
    (run : bpfObjPin fd path w = some (ret, w')) (pinned : ¬ ret < 0) :
    ∃ id, w.lookupFd fd = some id ∧ w.pins path = none ∧
      w' = { w with pins := Function.update w.pins path (some id) } := by
  cases found : w.lookupFd fd with
  | none =>
    simp only [bpfObjPin, Sys.bind_apply, nextOutcome_quiet quiet, Option.some_bind, Sys.get_apply,
      found] at run
    cases taken : w.pins path <;> simp [taken, fail, EEXIST, EBADF] at run <;> omega
  | some id =>
    rw [bpfObjPin_quiet quiet found] at run
    cases taken : w.pins path with
    | some _ => simp [taken, EEXIST] at run; omega
    | none =>
      simp only [taken, Option.some.injEq, Prod.mk.injEq] at run
      exact ⟨id, rfl, rfl, run.2.symm⟩

/-- The program pins, when nothing outside fails and none fails, keep every path pinned
before and pin every program under its pin name at the object of its handle. -/
theorem pinPrograms_pins (ctx : NikssContext) :
    ∀ {progs : List LoadedProg} {w w' : World} {ret ret' : Int},
      pinPrograms ctx ret progs w = some (.ok ret', w') → w.outcomes = [] →
      (∀ path id, w.pins path = some id → w'.pins path = some id) ∧
      ∀ prog ∈ progs, ∃ id, w.lookupFd prog.fd = some id ∧
        w'.pins (buildEbpfProgFilename ctx (programPinName prog.sectionName)) = some id
  | [], w, w', _, _, run, _ => by
    cases run
    exact ⟨fun _ _ pinned => pinned, fun _ mem => nomatch mem⟩
  | prog :: progs, w, w', _, _, run, quiet => by
    obtain ⟨⟨ret, w₁⟩, pin, run⟩ := Option.bind_eq_some.mp run
    by_cases failed : ret < 0
    · simp [failed] at run
    simp only [failed, if_false, pure_bind] at run
    obtain ⟨id, found, free, rfl⟩ := bpfObjPin_pinned quiet pin failed
    obtain ⟨keeps, pinned⟩ := pinPrograms_pins ctx run quiet
    -- the pin wrote a free path, so every path pinned before keeps its object
    have kept : ∀ path id', w.pins path = some id' → w'.pins path = some id' := fun path id' before =>
      keeps path id' (by dsimp only; rwa [Function.update_noteq fun same => by simp [same, free] at before])
    refine ⟨kept, fun other mem => ?_⟩
    rcases List.mem_cons.mp mem with rfl | later
    · exact ⟨id, found, keeps _ _ (Function.update_same _ _ _)⟩
    · exact pinned other later

/-! ## The map loop -/

section Loop

variable {ctx : NikssContext} {objects : ℕ+ → Option KObject}

/-- A map's turn keeps every path pinned before but libbpf's pin root, and pins a map
whose name has no dot under its name at its object. -/
theorem mapTurn_keeps {s s₁ : Persisted} {map : LoadedMap}
    (turn : mapTurn ctx objects s map = some s₁) :
    (∀ path id, (∀ name, path ≠ .root name) → s.pins path = some id → s₁.pins path = some id) ∧
      (map.persisted → s₁.pins (buildEbpfMapFilename ctx map.name) = some map.id) := by
  unfold mapTurn at turn
  split_ifs at turn with ok
  obtain ⟨elems, -, rfl⟩ := Option.map_eq_some'.mp turn
  refine ⟨fun path id notRoot before => ?_, fun persisted => by simp [pinUpdate_apply, persisted]⟩
  simp only [pinUpdate_apply]
  split_ifs with own root
  · simp [own.2, ok.2 own.1] at before
  · exact absurd root.2 (notRoot _)
  · exact before

/-- A map loop that runs through keeps every path pinned before but libbpf's pin roots,
and pins every map whose name has no dot under its name at its object. -/
theorem mapLoop_keeps :
    ∀ {maps : List LoadedMap} {s s' : Persisted}, maps.foldlM (mapTurn ctx objects) s = some s' →
      (∀ path id, (∀ name, path ≠ .root name) → s.pins path = some id → s'.pins path = some id) ∧
      ∀ map ∈ maps, map.persisted → s'.pins (buildEbpfMapFilename ctx map.name) = some map.id
  | [], s, s', run => by
    cases run
    exact ⟨fun _ _ _ before => before, fun _ mem => nomatch mem⟩
  | map :: maps, s, s', run => by
    rw [List.foldlM_cons] at run
    obtain ⟨s₁, turn, run⟩ := Option.bind_eq_some.mp run
    obtain ⟨keeps₁, own⟩ := mapTurn_keeps turn
    obtain ⟨keeps, pinned⟩ := mapLoop_keeps run
    refine ⟨fun path id notRoot before => keeps path id notRoot (keeps₁ path id notRoot before),
      fun other mem persisted => ?_⟩
    rcases List.mem_cons.mp mem with rfl | later
    · exact keeps _ _ (fun _ => by simp [buildEbpfMapFilename]) (own persisted)
    · exact pinned other later persisted

end Loop

/-! ## The load -/

/-- A load that answers 0, from the loaded object on and with nothing failing outside,
has pinned every program under its pin name at the object of its handle, and every map
whose name has no dot under its own name at its object. -/
theorem loadObject_pins_everything {defs : BpfDefs} {ctx : NikssContext} {obj : LoadedObject}
    {w w' : World} (quiet : w.outcomes = []) (fresh : w.FreshFds)
    (progs : ∀ prog ∈ obj.progs, (w.lookupFd prog.fd).isSome)
    (maps : ∀ map ∈ obj.maps, w.lookupFd map.fd = some map.id)
    (run : loadObject defs ctx 0 obj w = some (0, w')) :
    (∀ prog ∈ obj.progs, ∃ id, w.lookupFd prog.fd = some id ∧
      w'.pins (buildEbpfProgFilename ctx (programPinName prog.sectionName)) = some id) ∧
    ∀ map ∈ obj.maps, map.persisted → w'.pins (buildEbpfMapFilename ctx map.name) = some map.id := by
  obtain ⟨result, w₁, programs, grows, -, -, outcome⟩ := pinPrograms_quiet ctx quiet progs
  rcases outcome with rfl | ⟨ret, rfl, negative⟩
  swap
  · obtain ⟨w₂, failed⟩ := loadObject_of_programs_error defs ctx obj programs
    rw [run, Option.some.injEq, Prod.mk.injEq] at failed
    omega
  have inv : LoopInv obj.maps w₁ := ⟨grows.outcomes.trans quiet, grows.fresh fresh,
    fun map mem => grows.lookup fresh (maps map mem)⟩
  have opened : ∀ prog ∈ obj.progs, (w₁.lookupFd prog.fd).isSome := fun prog mem => by
    obtain ⟨id, found⟩ := Option.isSome_iff_exists.mp (progs prog mem)
    simp [grows.lookup fresh found]
  obtain ⟨ret, w₂, loaded, sim⟩ := loadObject_after_programs defs ctx obj programs inv opened
  rw [run, Option.some.injEq, Prod.mk.injEq] at loaded
  obtain ⟨rfl, rfl⟩ := loaded
  cases loop : obj.maps.foldlM (mapTurn ctx w₁.objects) ⟨w₁.pins, w₁.elems⟩ with
  | none => rw [loop] at sim; exact absurd rfl sim
  | some s =>
    rw [loop] at sim
    obtain ⟨-, pins, -⟩ := sim
    obtain ⟨keeps, pinned⟩ := mapLoop_keeps loop
    obtain ⟨-, programPins⟩ := pinPrograms_pins ctx programs quiet
    refine ⟨fun prog mem => ?_, fun map mem persisted => pins ▸ pinned map mem persisted⟩
    obtain ⟨id, found, pin⟩ := programPins prog mem
    exact ⟨id, found, pins ▸ keeps _ _ (fun _ => by simp [buildEbpfProgFilename]) pin⟩

unseal pinNameLoop in
set_option maxRecDepth 4000 in
set_option smartUnfolding false in
/-- An object with a program, an index table, its partition and a map libbpf pinned at
load. -/
theorem loadObject_pins_everything_on_partition :
    let defs : BpfDefs := ⟨"tc-ingress", "tc-egress", "xdp-ingress", "xdp-egress",
      "xdp-egress-optimized", "xdp-helper", "tc-init", "xdp-init", "devmap", "jump-table", by decide⟩
    let obj : LoadedObject := ⟨[⟨"classifier/tc-ingress", 3, 4⟩],
      [⟨"t_tuples_map", false, 0, 1⟩, ⟨"t_tuple_0", false, 1, 2⟩, ⟨"flags", true, 2, 3⟩]⟩
    let w : World :=
      { World.boot (fun _ => none) [] (fun _ => .bare false) [] with
        pins := fun path => if path = .root "flags" then some 3 else none
        objects := fun id => if id ≤ 3 then some (.map ⟨1, 4, 4, 16, 0, 0⟩)
          else if id = 4 then some (.prog 0) else none
        fds := fun n => if n < 4 then some ⟨n + 1, n.succ_pos⟩ else none
        nextFd := 4
        nextId := 5 }
    w.outcomes = [] ∧ w.FreshFds ∧ (∀ prog ∈ obj.progs, (w.lookupFd prog.fd).isSome) ∧
      (∀ map ∈ obj.maps, w.lookupFd map.fd = some map.id) ∧
      ∃ w', loadObject defs ⟨0⟩ 0 obj w = some (0, w') ∧
        (∀ prog ∈ obj.progs, ∃ id, w.lookupFd prog.fd = some id ∧
          w'.pins (buildEbpfProgFilename ⟨0⟩ (programPinName prog.sectionName)) = some id) ∧
        ∀ map ∈ obj.maps, map.persisted → w'.pins (buildEbpfMapFilename ⟨0⟩ map.name) = some map.id := by
  intro defs obj w
  have fresh : w.FreshFds := fun _ bound => if_neg (Nat.not_lt.mpr bound)
  have progs : ∀ prog ∈ obj.progs, (w.lookupFd prog.fd).isSome := by decide
  have maps : ∀ map ∈ obj.maps, w.lookupFd map.fd = some map.id := by decide
  obtain ⟨w', run⟩ : ∃ w', loadObject defs ⟨0⟩ 0 obj w = some (0, w') := ⟨_, rfl⟩
  exact ⟨rfl, fresh, progs, maps, w', run, loadObject_pins_everything rfl fresh progs maps run⟩

end Nikss
