import Nikss.CString
import Nikss.Map.Open

/-! # Loading a pipeline

`nikss_pipeline_load` loads a compiled object, pins every program under a name derived
from its section, pins every map whose name has no dot (first removing a pin libbpf made
at load time), wires every ternary partition map `<o>_tuple_<k>` into its index table
`<o>_tuples_map` at key `k` right after pinning it, and runs the map initializers.
Every failure jumps to the common exit, which closes the object and returns `-ret`.

Each loop threads the C variable `ret`; a loop answers `.error ret` when it jumps to
`err_close_obj` and `.ok ret` when it runs to its end.
-/

namespace Nikss

/-- The loop of `program_pin_name` with the cursor `p` at offset `cursor`: `strchr` finds
the next `/`, which becomes `_`. Each turn leaves one `/` fewer past the cursor. -/
def pinNameLoop (name : List Char) (cursor : Nat) : List Char :=
  match _found : strchr (name.drop cursor) '/' with
  | none => name
  | some offset => pinNameLoop (name.set (cursor + offset) '_') (cursor + offset)
termination_by (name.drop cursor).count '/'
decreasing_by
  simp_wf
  rw [← List.drop_drop, ← List.set_drop]
  exact count_drop_set_lt_of_strchr (by decide) _found

theorem pinNameLoop_of_none {name : List Char} {cursor : Nat}
    (found : strchr (name.drop cursor) '/' = none) : pinNameLoop name cursor = name := by
  rw [pinNameLoop]
  split <;> simp_all

theorem pinNameLoop_of_some {name : List Char} {cursor offset : Nat}
    (found : strchr (name.drop cursor) '/' = some offset) :
    pinNameLoop name cursor = pinNameLoop (name.set (cursor + offset) '_') (cursor + offset) := by
  rw [pinNameLoop]
  split <;> simp_all

/-- The loop keeps the text before the cursor and replaces every `/` after it. -/
theorem pinNameLoop_eq (name : List Char) (cursor : Nat) :
    pinNameLoop name cursor =
      name.take cursor ++ (name.drop cursor).map fun c => if c = '/' then '_' else c := by
  induction name, cursor using pinNameLoop.induct with
  | case1 name cursor none =>
    have kept : ∀ c ∈ name.drop cursor, (if c = '/' then '_' else c) = c := fun c mem =>
      if_neg fun (slash : c = '/') => strchr_eq_none.mp none (slash ▸ mem)
    rw [pinNameLoop_of_none none, List.map_congr_left kept, List.map_id', List.take_append_drop]
  | case2 name cursor offset found ih =>
    obtain ⟨before, after, rest, missing, rfl⟩ := strchr_eq_some found
    have kept : ∀ c ∈ before, (if c = '/' then '_' else c) = c := fun c mem =>
      if_neg fun (slash : c = '/') => missing (slash ▸ mem)
    -- the turn writes `_` at the cursor's new place and leaves the text before it alone
    rw [pinNameLoop_of_some found, ih, List.set_take, List.set_eq_of_length_le (List.length_take_le _ _),
      List.take_add, List.drop_set, if_neg (Nat.lt_irrefl _), Nat.sub_self, ← List.drop_drop, rest]
    simp [List.map_congr_left kept]

/-- `program_pin_name`. -/
def programPinName (sectionName : String) : String := ⟨pinNameLoop sectionName.toList 0⟩

/-- `program_pin_name` replaces every `/` of the section name by `_` and keeps every other
character, so the pin name is as long as the section name; each turn of its loop leaves one
`/` fewer past the cursor, the measure its termination rests on. -/
theorem programPinName_replaces_separators (sectionName : String) :
    (programPinName sectionName).length = sectionName.length ∧
    (programPinName sectionName).toList =
      sectionName.toList.map (fun c => if c = '/' then '_' else c) ∧
    ∀ (name : List Char) (cursor offset : Nat), strchr (name.drop cursor) '/' = some offset →
      ((name.set (cursor + offset) '_').drop (cursor + offset)).count '/' <
        (name.drop cursor).count '/' := by
  have replaced : (programPinName sectionName).toList =
      sectionName.toList.map (fun c => if c = '/' then '_' else c) := by
    simp [programPinName, pinNameLoop_eq]
  refine ⟨?_, replaced, fun name cursor offset found => ?_⟩
  · show (programPinName sectionName).toList.length = sectionName.toList.length
    rw [replaced, List.length_map]
  · rw [← List.drop_drop, ← List.set_drop]
    exact count_drop_set_lt_of_strchr (by decide) found

/-- `extract_tuple_id_from_tuple` with a non-NULL `tuple_id`: the status and the id
parsed after the last `_`, cast to `uint32_t`. A name without `_` makes `strrchr` return
NULL, and the code reads from address 1: a crash. -/
def extractTupleIdFromTuple (tupleName : String) : Option (Int × Nat) := do
  let offset ← strrchr tupleName.toList '_'
  let (value, consumed) := strtol (tupleName.toList.drop (offset + 1))
  let tupleId := (value % 2 ^ 32).toNat
  if consumed = 0 then pure (ENODATA, tupleId) else pure (NO_ERROR, tupleId)

/-- A name holding `_tuple_` holds a `_`, so the parse does not crash on it. -/
theorem extractTupleIdFromTuple_isSome {tupleName : String} {length : Nat}
    (found : strstr tupleName.toList "_tuple_".toList = some length) :
    (extractTupleIdFromTuple tupleName).isSome := by
  obtain ⟨offset, underscore⟩ := Option.isSome_iff_exists.mp
    (strrchr_isSome (mem_of_strstr (by decide : '_' ∈ "_tuple_".toList) found))
  simp only [extractTupleIdFromTuple, underscore, Option.bind_eq_bind, Option.some_bind]
  split_ifs <;> rfl

/-- The index table of a partition map: the name up to `_tuple_` with `_tuples_map`
appended, as `snprintf` writes it into a buffer of 268 bytes. -/
def tuplesMapName (tupleName : String) (length : Nat) : String :=
  ⟨snprintf 268 (tupleName.toList.take length ++ "_tuples_map".toList)⟩

/-- `join_tuple_to_map_if_tuple`. The result of `bpf_map_update_elem` is only printed. -/
def joinTupleToMapIfTuple (ctx : NikssContext) (tupleName : String) : Sys Int := do
  match strstr tupleName.toList "_tuple_".toList with
  | none => pure NO_ERROR
  | some length =>
    let (ret, tupleMap) ← openBpfMap ctx (tuplesMapName tupleName length) none
    if ret ≠ NO_ERROR then return ret
    let (ret, tupleId) ← extractTupleIdFromTuple tupleName
    if ret ≠ NO_ERROR then return ENODATA
    let (ret, tuple) ← openBpfMap ctx tupleName none
    if ret ≠ NO_ERROR then return ret
    let _ ← bpfMapUpdateElem tupleMap.fd tupleId (.fd tuple.fd)
    pure NO_ERROR

set_option maxRecDepth 4000 in
set_option smartUnfolding false in
/-- An owner name that ends in `_tuple`: `strstr` finds the first `_tuple_`, inside the
owner, so the partition `a_tuple_tuple_3` of the index table `a_tuple_tuples_map` is
installed at key 3 of `a_tuples_map`, and its own index table is left as it was. -/
theorem joinTupleToMapIfTuple_splits_owner_at_first_infix :
    let w : World := { World.boot (fun _ => none) [] (fun _ => .bare false) [] with
      pins := fun path => if path = .map 0 "a_tuples_map" then some 1
        else if path = .map 0 "a_tuple_tuples_map" then some 2
        else if path = .map 0 "a_tuple_tuple_3" then some 3 else none
      objects := fun id => if id ≤ 2 then some (.map ⟨12, 4, 4, 4, 0, 0⟩)
        else if id = 3 then some (.map ⟨1, 4, 4, 16, 0, 0⟩) else none
      nextId := 4 }
    (joinTupleToMapIfTuple ⟨0⟩ "a_tuple_tuple_3" w).map (fun r => (r.1, r.2.elems 1 3, r.2.elems 2 3)) =
      some (0, some (.obj 3), none) :=
  rfl

/-- The first `bpf_object__for_each_program` loop: pin every program. -/
def pinPrograms (ctx : NikssContext) (ret : Int) : List LoadedProg → Sys (Except Int Int)
  | [] => pure (.ok ret)
  | prog :: progs => do
    let ret ← bpfObjPin prog.fd (buildEbpfProgFilename ctx (programPinName prog.sectionName))
    if ret < 0 then return .error ret
    pinPrograms ctx ret progs

/-- The body of `bpf_object__for_each_map` from the dot test on: pin the map under its
own name and wire it if it is a partition map. A name with a dot is skipped. -/
def pinMapByName (ctx : NikssContext) (ret : Int) (map : LoadedMap) : Sys (Except Int Int) := do
  if (strstr map.name.toList ".".toList).isSome then return .ok ret
  let ret ← bpfMapSetPinPath
  if ret ≠ 0 then return .error ret
  let ret ← bpfObjPin map.fd (buildEbpfMapFilename ctx map.name)
  if ret ≠ 0 then return .error ret
  let ret ← joinTupleToMapIfTuple ctx map.name
  if ret ≠ 0 then return .error ret
  pure (.ok ret)

/-- One turn of `bpf_object__for_each_map`: remove the pin libbpf made at load time. -/
def pinMap (ctx : NikssContext) (ret : Int) (map : LoadedMap) : Sys (Except Int Int) := do
  if map.pinned then
    let ret ← bpfMapUnpin map
    if ret ≠ 0 then return .error ret
    pinMapByName ctx ret map
  else pinMapByName ctx ret map

/-- The `bpf_object__for_each_map` loop. -/
def pinMaps (ctx : NikssContext) (ret : Int) : List LoadedMap → Sys (Except Int Int)
  | [] => pure (.ok ret)
  | map :: maps => do
    match ← pinMap ctx ret map with
    | .error ret => pure (.error ret)
    | .ok ret => pinMaps ctx ret maps

/-- `do_initialize_maps`: one test run of the program. -/
def doInitializeMaps (progFd : Int) : Sys Int := bpfProgTestRun progFd

/-- The second `bpf_object__for_each_program` loop: run every init program; a failure
stores `-errno` in `ret`. -/
def initializeMaps (defs : BpfDefs) (ret : Int) : List LoadedProg → Sys (Except Int Int)
  | [] => pure (.ok ret)
  | prog :: progs => do
    if prog.sectionName = defs.tcInitProg ∨ prog.sectionName = defs.xdpInitProg then
      let ret ← doInitializeMaps prog.fd
      if ret ≠ 0 then return .error (-(← getErrno))
      initializeMaps defs ret progs
    else initializeMaps defs ret progs

/-- The three phases after a successful load: the value of `ret` at `err_close_obj`. -/
def loadPhases (defs : BpfDefs) (ctx : NikssContext) (ret : Int) (obj : LoadedObject) :
    Sys Int := do
  match ← pinPrograms ctx ret obj.progs with
  | .error ret => pure ret
  | .ok ret =>
    match ← pinMaps ctx ret obj.maps with
    | .error ret => pure ret
    | .ok ret =>
      match ← initializeMaps defs ret obj.progs with
      | .error ret | .ok ret => pure ret

/-- `nikss_pipeline_load` once `bpf_prog_load` has loaded the object: the phases,
`bpf_object__close`, and `return -ret`. -/
def loadObject (defs : BpfDefs) (ctx : NikssContext) (ret : Int) (obj : LoadedObject) : Sys Int := do
  let ret ← loadPhases defs ctx ret obj
  bpfObjectClose obj
  pure (-ret)

/-- `nikss_pipeline_load`. -/
def nikssPipelineLoad (defs : BpfDefs) (ctx : NikssContext) (file : String) : Sys Int := do
  let (ret, obj) ← bpfProgLoad file
  match obj with
  | none => getErrno
  | some obj => if ret < 0 then getErrno else loadObject defs ctx ret obj

set_option maxRecDepth 4000 in
set_option smartUnfolding false in
/-- Wiring a partition map leaves both handles of `join_tuple_to_map_if_tuple` open: the
load of an object with one program, an index table `t_tuples_map` and its partition
`t_tuple_0` succeeds with handle 3 still open on the index table and handle 4 on the
partition. -/
theorem nikssPipelineLoad_leaks_tuple_handles :
    let defs : BpfDefs := ⟨"tc-ingress", "tc-egress", "xdp-ingress", "xdp-egress",
      "xdp-egress-optimized", "xdp-helper", "tc-init", "xdp-init", "devmap", "jump-table", by decide⟩
    let obj : ObjectFile := ⟨[⟨"xdp-ingress"⟩], [⟨"t_tuples_map", ⟨12, 4, 4, 4, 0, 0⟩, false⟩,
      ⟨"t_tuple_0", ⟨1, 4, 4, 16, 0, 0⟩, false⟩]⟩
    let w := World.boot (fun file => if file = "p.o" then some obj else none) [] (fun _ => .bare false) [];
    w.fds 3 = none ∧ w.fds 4 = none ∧
      (nikssPipelineLoad defs ⟨0⟩ "p.o" w).map (fun r => (r.1, r.2.fds 3, r.2.fds 4)) =
        some (0, some 1, some 2) :=
  ⟨rfl, rfl, rfl⟩

set_option maxRecDepth 4000 in
set_option smartUnfolding false in
/-- A partition whose id lies past the end of its array index table is not installed
(`E2BIG`), and the load still answers 0. -/
theorem nikssPipelineLoad_ignores_failed_install :
    let defs : BpfDefs := ⟨"tc-ingress", "tc-egress", "xdp-ingress", "xdp-egress",
      "xdp-egress-optimized", "xdp-helper", "tc-init", "xdp-init", "devmap", "jump-table", by decide⟩
    let obj : ObjectFile := ⟨[⟨"xdp-ingress"⟩], [⟨"t_tuples_map", ⟨12, 4, 4, 1, 0, 0⟩, false⟩,
      ⟨"t_tuple_5", ⟨1, 4, 4, 16, 0, 0⟩, false⟩]⟩
    let w := World.boot (fun file => if file = "p.o" then some obj else none) [] (fun _ => .bare false) [];
    (nikssPipelineLoad defs ⟨0⟩ "p.o" w).map (fun r => (r.1, r.2.pins (.map 0 "t_tuple_5"),
      r.2.elems 1 5)) = some (0, some 2, none) :=
  rfl

set_option maxRecDepth 4000 in
set_option smartUnfolding false in
/-- A partition map without its index table: `join_tuple_to_map_if_tuple` returns the
positive `ENOENT` of `open_bpf_map`, and the load negates it. -/
theorem nikssPipelineLoad_negates_wiring_errno :
    let defs : BpfDefs := ⟨"tc-ingress", "tc-egress", "xdp-ingress", "xdp-egress",
      "xdp-egress-optimized", "xdp-helper", "tc-init", "xdp-init", "devmap", "jump-table", by decide⟩
    let obj : ObjectFile := ⟨[⟨"xdp-ingress"⟩], [⟨"t_tuple_0", ⟨1, 4, 4, 16, 0, 0⟩, false⟩]⟩
    let w := World.boot (fun file => if file = "p.o" then some obj else none) [] (fun _ => .bare false) [];
    (nikssPipelineLoad defs ⟨0⟩ "p.o" w).map Prod.fst = some (-(ENOENT : Int)) :=
  rfl

end Nikss
