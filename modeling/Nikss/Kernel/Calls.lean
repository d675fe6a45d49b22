import Nikss.Kernel.State

/-! # Kernel and libbpf calls

Each call the library makes, as a computation on the world. Every call first takes the
next outcome of the sequence (`nextOutcome`); a failing outcome makes it fail with that
errno and no other effect. Otherwise the call does what the kernel does: it fails on its
own when the state says so (a path not pinned, a hook already there, a driver without
native XDP), and succeeds with its effect otherwise.

libbpf calls return `-errno`, `bpf_obj_get` returns `-1`-style negatives, and all of
them set `errno`, which the library reads after a failure.
-/

namespace Nikss

/-- The next entry of the outcome sequence; `none` once it is used up. -/
def nextOutcome : Sys (Option ℕ+) := fun w =>
  match w.outcomes with
  | [] => some (none, w)
  | outcome :: outcomes => some (outcome, { w with outcomes := outcomes })

/-- The next outcome is the head of the sequence, `none` once it is used up. -/
theorem nextOutcome_apply (w : World) :
    nextOutcome w = some (w.outcomes.head?.join, { w with outcomes := w.outcomes.tail }) := by
  cases w with
  | mk pins objects elems fds nextFd nextId links ifaces files bootClock uptime wallClock errno
      stderr outcomes => cases outcomes <;> rfl

/-- A crash of the process (a NULL dereference, a division by zero). -/
def crash {α : Type} : Sys α := fun _ => none

def getErrno : Sys Int := do pure (← get).errno

/-- A failed call: set `errno` and return `-errno`. -/
def fail (e : Nat) : Sys Int := do
  modify fun w => { w with errno := e }
  pure (-(e : Int))

/-- The object an open handle refers to. -/
def World.lookupFd (w : World) (fd : Int) : Option ℕ+ := if 0 ≤ fd then w.fds fd.toNat else none

/-- `close`. -/
def close (fd : Int) : Sys Unit :=
  modify fun w => if 0 ≤ fd then { w with fds := Function.update w.fds fd.toNat none } else w

/-- Modelled from the spec: `close_object_fd` (common.c, not among the sources) releases a
handle once: it closes a valid handle and resets the variable to `-1`. -/
def closeObjectFd (fd : Int) : Sys Int := do
  if fd < 0 then pure fd else do
    close fd
    pure (-1)

/-- The world once a handle on object `id` is open, numbered `nextFd`. -/
def World.withHandle (w : World) (id : ℕ+) : World :=
  { w with fds := Function.update w.fds w.nextFd (some id), nextFd := w.nextFd + 1 }

@[simp] theorem World.withHandle_pins (w : World) (id : ℕ+) : (w.withHandle id).pins = w.pins := rfl
@[simp] theorem World.withHandle_objects (w : World) (id : ℕ+) :
    (w.withHandle id).objects = w.objects := rfl
@[simp] theorem World.withHandle_elems (w : World) (id : ℕ+) : (w.withHandle id).elems = w.elems := rfl
@[simp] theorem World.withHandle_outcomes (w : World) (id : ℕ+) :
    (w.withHandle id).outcomes = w.outcomes := rfl
@[simp] theorem World.withHandle_nextFd (w : World) (id : ℕ+) :
    (w.withHandle id).nextFd = w.nextFd + 1 := rfl
@[simp] theorem World.withHandle_links (w : World) (id : ℕ+) : (w.withHandle id).links = w.links := rfl
@[simp] theorem World.withHandle_ifaces (w : World) (id : ℕ+) : (w.withHandle id).ifaces = w.ifaces := rfl

/-- Open a handle on object `id`. -/
def openHandle (id : ℕ+) : Sys Int := fun w => some (w.nextFd, w.withHandle id)

/-- `bpf_obj_get`: open a handle on the object pinned at `path`. -/
def bpfObjGet (path : Path) : Sys Int := do
  match ← nextOutcome with
  | some e => fail e
  | none =>
    match (← get).pins path with
    | none => fail ENOENT
    | some id => openHandle id

/-- `bpf_obj_get_info_by_fd`: the object id and the object behind a handle. -/
def bpfObjGetInfoByFd (fd : Int) : Sys (Int × Option (ℕ+ × KObject)) := do
  match ← nextOutcome with
  | some e => pure (← fail e, none)
  | none =>
    let w ← get
    match w.lookupFd fd with
    | none => pure (← fail EBADF, none)
    | some id =>
      match w.objects id with
      | none => pure (← fail EBADF, none)
      | some object => pure (0, some (id, object))

/-- The kernel's reading of a value written by user space: handles become objects. -/
def World.resolveValue (w : World) : UserValue → Option MapValue
  | .fd fd => (w.lookupFd fd).map .obj
  | .devmap ifindex progFd =>
    if progFd < 0 then some (.devmap ifindex none)
    else (w.lookupFd progFd).map fun prog => .devmap ifindex (some prog)

/-- `bpf_map_update_elem` with flags 0. -/
def bpfMapUpdateElem (fd : Int) (key : Nat) (value : UserValue) : Sys Int := do
  match ← nextOutcome with
  | some e => fail e
  | none =>
    let w ← get
    let target := (w.lookupFd fd).bind fun id => (w.objects id).map fun object => (id, object)
    match target with
    | some (mapId, .map info) =>
      if info.IsArray ∧ info.maxEntries ≤ key then fail E2BIG else
      match w.resolveValue value with
      | none => fail EBADF
      | some stored =>
        let slots := Function.update (w.elems mapId) key (some stored)
        set { w with elems := Function.update w.elems mapId slots }
        pure 0
    | _ => fail EBADF

/-- `bpf_obj_pin` as `bpf_program__pin` and `bpf_map__pin` use it. -/
def bpfObjPin (fd : Int) (path : Path) : Sys Int := do
  match ← nextOutcome with
  | some e => fail e
  | none =>
    let w ← get
    match w.pins path, w.lookupFd fd with
    | some _, _ => fail EEXIST
    | none, none => fail EBADF
    | none, some id => do
      set { w with pins := Function.update w.pins path (some id) }
      pure 0

/-- `bpf_map__unpin(map, NULL)`: remove the pin libbpf made at load time. -/
def bpfMapUnpin (map : LoadedMap) : Sys Int := do
  match ← nextOutcome with
  | some e => fail e
  | none =>
    let w ← get
    match w.pins (.root map.name) with
    | none => fail ENOENT
    | some _ => do
      set { w with pins := Function.update w.pins (.root map.name) none }
      pure 0

/-- `bpf_map__set_pin_path`: bookkeeping inside libbpf. -/
def bpfMapSetPinPath : Sys Int := do
  match ← nextOutcome with
  | some e => fail e
  | none => pure 0

/-- `bpf_prog_test_run`; the run's own effect on maps is the program's, outside the model. -/
def bpfProgTestRun (progFd : Int) : Sys Int := do
  match ← nextOutcome with
  | some e => fail e
  | none => if ((← get).lookupFd progFd).isNone then fail EBADF else pure 0

/-- `access(path, F_OK)`. -/
def access (path : Path) : Sys Int := do
  match ← nextOutcome with
  | some e => fail e
  | none =>
    match (← get).pins path with
    | none => fail ENOENT
    | some _ => pure 0

/-- `if_nametoindex`: 0 when there is no such interface. -/
def ifNametoindex (name : String) : Sys Nat := do
  pure (((← get).links.find? fun link => link.2 = name).map Prod.fst |>.getD 0)

/-- `if_nameindex`: the interface table, `NULL` on failure. -/
def ifNameindex : Sys (Option (List (Nat × String))) := do
  match ← nextOutcome with
  | some e => do let _ ← fail e; pure none
  | none => pure (some (← get).links)

/-- Create a kernel object and a handle on it. -/
def createObject (object : KObject) : Sys (Int × ℕ+) := do
  let w ← get
  set { w with objects := Function.update w.objects w.nextId (some object), nextId := w.nextId + 1 }
  pure (← openHandle w.nextId, w.nextId)

/-- libbpf's `map_is_reuse_compat`: a map pinned at libbpf's pin root can stand for a map
of the object when its type, key and value sizes and entries agree (`map_flags` are not
modelled). -/
def MapInfo.ReuseCompat (pinned info : MapInfo) : Prop :=
  pinned.type = info.type ∧ pinned.keySize = info.keySize ∧ pinned.valueSize = info.valueSize ∧
    pinned.maxEntries = info.maxEntries

instance (pinned info : MapInfo) : Decidable (pinned.ReuseCompat info) :=
  inferInstanceAs (Decidable (_ ∧ _ ∧ _ ∧ _))

/-- Whether `bpf_object__reuse_map` accepts a map of the object: one that asks to be pinned
finds nothing at `/sys/fs/bpf/<name>`, or a compatible map there. -/
def World.reusable (w : World) (map : MapDef) : Bool :=
  match map.pinned, w.pins (.root map.name) with
  | true, some id =>
    match w.objects id with
    | some (.map pinned) => decide (pinned.ReuseCompat map.info)
    | _ => false
  | _, _ => true

/-- Load one map of an object (`bpf_object__create_maps`). A map that asks to be pinned
reuses the map pinned at libbpf's pin root under its name (`bpf_object__reuse_map`), on a
new handle; otherwise the map is created, and pinned there if it asks to be. -/
def loadMap (map : MapDef) : Sys LoadedMap := do
  match map.pinned, (← get).pins (.root map.name) with
  | true, some id => pure ⟨map.name, true, ← openHandle id, id⟩
  | _, _ =>
    let (fd, id) ← createObject (.map map.info)
    if map.pinned then
      modify fun w => { w with pins := Function.update w.pins (.root map.name) (some id) }
    pure ⟨map.name, map.pinned, fd, id⟩

/-- Load one program of an object. -/
def loadProg (prog : ProgDef) : Sys LoadedProg := do
  let (fd, id) ← createObject (.prog (← get).bootClock)
  pure ⟨prog.sectionName, fd, id⟩

/-- The world once `createObject` has created `object` and opened the next handle on it. -/
def World.created (w : World) (object : KObject) : World :=
  World.withHandle { w with objects := Function.update w.objects w.nextId (some object), nextId := w.nextId + 1 }
    w.nextId

theorem createObject_eq (object : KObject) (w : World) :
    createObject object w = some (((w.nextFd : Int), w.nextId), w.created object) := rfl

theorem loadProg_eq (prog : ProgDef) (w : World) :
    loadProg prog w = some (⟨prog.sectionName, w.nextFd, w.nextId⟩, w.created (.prog w.bootClock)) := rfl

/-- What `loadMap` does: reuse the map pinned at libbpf's root under the map's name, when
the map asks to be pinned and one is there, or create the map, pinned at the root when it
asks to be. -/
theorem loadMap_cases (map : MapDef) (w : World) :
    (map.pinned = true ∧ ∃ id, w.pins (.root map.name) = some id ∧
      loadMap map w = some (⟨map.name, true, w.nextFd, id⟩, w.withHandle id)) ∨
    ((map.pinned = true → w.pins (.root map.name) = none) ∧
      loadMap map w = some (⟨map.name, map.pinned, w.nextFd, w.nextId⟩, if map.pinned then
        { w.created (.map map.info) with pins := Function.update w.pins (.root map.name) (some w.nextId) }
        else w.created (.map map.info))) := by
  cases pinned : map.pinned <;> cases root : w.pins (.root map.name) <;>
    simp [loadMap, pinned, root, createObject_eq, openHandle]
  rfl

/-- `bpf_prog_load` of libbpf 0.x (`bpf_prog_load_xattr`): open the object file, refuse
one that holds no program (`ENOENT`), then load it (`bpf_object__load`), maps first and
programs after. A map pinned at libbpf's pin root that cannot stand for the object's map
fails the load with `EINVAL`; libbpf then closes what it made and removes the pins it
made, so the model checks every map before it makes anything. -/
def bpfProgLoad (file : String) : Sys (Int × Option LoadedObject) := do
  match ← nextOutcome with
  | some e => pure (← fail e, none)
  | none =>
    let w ← get
    match w.files file with
    | none => pure (← fail ENOENT, none)
    | some object =>
      if object.progs = [] then pure (← fail ENOENT, none)
      else if !object.maps.all w.reusable then pure (← fail EINVAL, none)
      else do
        let maps ← object.maps.mapM loadMap
        let progs ← object.progs.mapM loadProg
        pure (0, some ⟨progs, maps⟩)

/-- What `bpf_prog_load` can do: fail, setting `errno` and loading nothing, or answer 0
having loaded the object file's maps one after the other and then its programs, from the
world after the outcome it takes. -/
theorem bpfProgLoad_spec {file : String} {w w' : World} {ret : Int} {obj : Option LoadedObject}
    (run : bpfProgLoad file w = some ((ret, obj), w')) :
    (∃ e : Nat, 0 < e ∧ obj = none ∧ ret = -(e : Int) ∧
      w' = { w with outcomes := w.outcomes.tail, errno := e }) ∨
    ret = 0 ∧ ∃ object loaded w₁, w.files file = some object ∧ obj = some loaded ∧
      object.maps.mapM loadMap { w with outcomes := w.outcomes.tail } = some (loaded.maps, w₁) ∧
      object.progs.mapM loadProg w₁ = some (loaded.progs, w') := by
  have failed {e : Nat} (pos : 0 < e)
      (run : (do pure (← fail e, (none : Option LoadedObject)) : Sys _)
        { w with outcomes := w.outcomes.tail } = some ((ret, obj), w')) :
      ∃ e : Nat, 0 < e ∧ obj = none ∧ ret = -(e : Int) ∧
        w' = { w with outcomes := w.outcomes.tail, errno := e } := by
    cases run
    exact ⟨e, pos, rfl, rfl, rfl⟩
  obtain ⟨⟨outcome, w₁⟩, next, run⟩ := Option.bind_eq_some.mp run
  rw [nextOutcome_apply] at next
  cases next
  rcases outcome : w.outcomes.head?.join with _ | e <;> simp only [outcome] at run
  · simp only [Sys.bind_apply, Sys.get_apply, Option.some_bind] at run
    cases found : w.files file with
    | none =>
      rw [found] at run
      exact .inl (failed (by decide) run)
    | some object =>
      rw [found] at run
      dsimp only at run
      split_ifs at run
      · exact .inl (failed (by decide) run)
      · exact .inl (failed (by decide) run)
      · obtain ⟨⟨maps, w₂⟩, loadedMaps, run⟩ := Option.bind_eq_some.mp run
        obtain ⟨⟨progs, w₃⟩, loadedProgs, run⟩ := Option.bind_eq_some.mp run
        cases run
        exact .inr ⟨rfl, object, ⟨progs, maps⟩, w₂, rfl, rfl, loadedMaps, loadedProgs⟩
  · exact .inl (failed e.pos run)

/-- `bpf_object__close`: release every handle the object holds. -/
def bpfObjectClose (object : LoadedObject) : Sys Unit := do
  for prog in object.progs do close prog.fd
  for map in object.maps do close map.fd

/-! ## Network hooks -/

/-- The modes of `bpf_set_link_xdp_fd`: `XDP_FLAGS_DRV_MODE`, `XDP_FLAGS_SKB_MODE`, 0. -/
inductive XdpFlags
  | drvMode
  | skbMode
  | none
  deriving DecidableEq, Repr

def World.iface (w : World) (ifindex : Int) : Iface := w.ifaces ifindex.toNat

def World.setIface (w : World) (ifindex : Int) (iface : Iface) : World :=
  { w with ifaces := Function.update w.ifaces ifindex.toNat iface }

@[simp] theorem World.iface_withHandle (w : World) (id : ℕ+) (ifindex : Int) :
    (w.withHandle id).iface ifindex = w.iface ifindex := rfl

@[simp] theorem World.iface_withErrno (w : World) (e : Nat) (ifindex : Int) :
    ({ w with errno := e } : World).iface ifindex = w.iface ifindex := rfl

@[simp] theorem World.iface_setIface (w : World) (ifindex : Int) (iface : Iface) :
    (w.setIface ifindex iface).iface ifindex = iface := by
  simp [World.iface, World.setIface]

@[simp] theorem World.setIface_links (w : World) (ifindex : Int) (iface : Iface) :
    (w.setIface ifindex iface).links = w.links := rfl

@[simp] theorem World.setIface_outcomes (w : World) (ifindex : Int) (iface : Iface) :
    (w.setIface ifindex iface).outcomes = w.outcomes := rfl

/-- `bpf_set_link_xdp_fd`: attach the program behind `fd` (or detach, for a negative
`fd`) in the mode `flags` asks for; with no mode the kernel picks driver mode when the
driver implements native XDP. Native and generic programs exclude each other. -/
def bpfSetLinkXdpFd (ifindex : Int) (fd : Int) (flags : XdpFlags) : Sys Int := do
  match ← nextOutcome with
  | some e => fail e
  | none =>
    let w ← get
    let iface := w.iface ifindex
    if flags = .none ∧ iface.xdpDrv.isSome ∧ iface.xdpSkb.isSome then fail EINVAL else
    let native := flags = .drvMode ∨ (flags = .none ∧ iface.ndoBpf)
    let current := if native then iface.xdpDrv else iface.xdpSkb
    let other := if native then iface.xdpSkb else iface.xdpDrv
    let program := w.lookupFd fd
    if 0 ≤ fd ∧ program = none then fail EBADF
    else if 0 ≤ fd ∧ other.isSome then fail EEXIST
    else if program ≠ current ∧ native ∧ ¬ iface.ndoBpf then fail EOPNOTSUPP
    else do
      set (w.setIface ifindex
        (if native then { iface with xdpDrv := program } else { iface with xdpSkb := program }))
      pure 0

/-- `bpf_get_link_xdp_id` with flags 0: the program attached in the only mode in use, 0
when none is or both are. -/
def bpfGetLinkXdpId (ifindex : Int) : Sys (Int × Nat) := do
  match ← nextOutcome with
  | some e => pure (← fail e, 0)
  | none =>
    let iface := (← get).iface ifindex
    match iface.xdpDrv, iface.xdpSkb with
    | some prog, none => pure (0, prog)
    | none, some prog => pure (0, prog)
    | _, _ => pure (0, 0)

/-- What `bpf_get_link_xdp_id` answers on an interface, as `(ret, prog_id)`, when the call
meets `outcome`: the error, or the program attached in the only mode in use. -/
def linkXdpAnswer (outcome : Option ℕ+) (iface : Iface) : Int × Nat :=
  match outcome with
  | some e => (-(e : Int), 0)
  | none =>
    match iface.xdpDrv, iface.xdpSkb with
    | some prog, none => (0, prog)
    | none, some prog => (0, prog)
    | _, _ => (0, 0)

/-- The query uses one outcome, changes no interface, and answers `linkXdpAnswer`. -/
theorem bpfGetLinkXdpId_answer (ifindex : Int) (w : World) :
    ∃ w₁, bpfGetLinkXdpId ifindex w =
        some (linkXdpAnswer w.outcomes.head?.join (w.iface ifindex), w₁) ∧
      w₁.outcomes = w.outcomes.tail ∧ w₁.iface = w.iface := by
  rcases outcomes : w.outcomes with _ | ⟨_ | e, rest⟩
  · refine ⟨w, ?_, outcomes, rfl⟩
    simp only [bpfGetLinkXdpId, Sys.bind_apply, nextOutcome, outcomes, Option.some_bind, Sys.get_apply,
      List.head?_nil, Option.join, linkXdpAnswer, World.iface, Option.none_bind]
    split <;> simp_all [Sys.pure_apply]
  · refine ⟨{ w with outcomes := rest }, ?_, rfl, rfl⟩
    simp only [bpfGetLinkXdpId, Sys.bind_apply, nextOutcome, outcomes, Option.some_bind, Sys.get_apply,
      List.head?_cons, Option.join, linkXdpAnswer, World.iface, id]
    split <;> simp_all [Sys.pure_apply]
  · refine ⟨{ w with outcomes := rest, errno := e }, ?_, rfl, rfl⟩
    simp [bpfGetLinkXdpId, nextOutcome, outcomes, linkXdpAnswer, fail]

/-- The attach points of a TC hook. -/
inductive TcAttachPoint
  | ingress
  | egress
  deriving DecidableEq, Repr

/-- `bpf_tc_hook_create` for ingress and egress: create the `clsact` qdisc; `EEXIST`
when the interface has it. -/
def bpfTcHookCreate (ifindex : Int) : Sys Int := do
  match ← nextOutcome with
  | some e => fail e
  | none =>
    let w ← get
    let iface := w.iface ifindex
    if iface.clsact then fail EEXIST else do
      set (w.setIface ifindex { iface with clsact := true })
      pure 0

/-- `bpf_tc_hook_destroy` for ingress and egress: remove the `clsact` qdisc and its
filters; `ENOENT` when there is none. -/
def bpfTcHookDestroy (ifindex : Int) : Sys Int := do
  match ← nextOutcome with
  | some e => fail e
  | none =>
    let w ← get
    let iface := w.iface ifindex
    if ¬ iface.clsact then fail ENOENT else do
      set (w.setIface ifindex { iface with clsact := false, tcIngress := [], tcEgress := [] })
      pure 0

/-- `bpf_tc_attach` with handle and priority 0: the kernel adds a new filter. -/
def bpfTcAttach (ifindex : Int) (point : TcAttachPoint) (fd : Int) : Sys Int := do
  match ← nextOutcome with
  | some e => fail e
  | none =>
    let w ← get
    let iface := w.iface ifindex
    if ¬ iface.clsact then fail EINVAL else
    match w.lookupFd fd with
    | none => fail EBADF
    | some prog => do
      set (w.setIface ifindex (match point with
        | .ingress => { iface with tcIngress := iface.tcIngress ++ [prog] }
        | .egress => { iface with tcEgress := iface.tcEgress ++ [prog] }))
      pure 0

end Nikss
