import Nikss.CString
import Nikss.Kernel.Quiet

/-! # Attaching and detaching ports

`nikss_pipeline_add_port` picks the pipeline's flavour by whether the XDP helper is
pinned. An XDP pipeline attaches its XDP ingress program (driver mode, then generic mode
when the driver answers `EOPNOTSUPP`), points the interface's devmap slot at it and at
the XDP egress program, installs the optimized egress program in the jump table when
there is one, and attaches the TC programs. A TC pipeline attaches the XDP helper the
same way, then the TC programs. `nikss_pipeline_del_port` detaches the XDP program with
no mode given and destroys the TC hook.

Messages on `stderr` are left out, but for the devmap capacity warning.
-/

namespace Nikss

/-- `open_prog_by_name`. -/
def openProgByName (ctx : NikssContext) (prog : String) : Sys Int :=
  bpfObjGet (buildEbpfProgFilename ctx prog)

/-- `tc_create_hook`: create the hook for ingress and egress. -/
def tcCreateHook (ifindex : Int) : Sys Int := do
  if (← bpfTcHookCreate ifindex) ≠ 0 then getErrno else pure NO_ERROR

/-- `tc_attach_prog`: attach the pinned program `prog` at `hookPoint`; a missing egress
program is skipped. -/
def tcAttachProg (ctx : NikssContext) (prog : String) (ifindex : Int)
    (hookPoint : TcAttachPoint) : Sys Int := do
  let fd ← openProgByName ctx prog
  if fd < 0 then
    let ret ← getErrno
    if ret = ENOENT ∧ hookPoint = .egress then return NO_ERROR
    return ret
  let ret ← if (← bpfTcAttach ifindex hookPoint fd) ≠ 0 then getErrno else pure NO_ERROR
  close fd
  pure ret

/-- `tc_create_hook_and_attach_progs`. -/
def tcCreateHookAndAttachProgs (defs : BpfDefs) (ctx : NikssContext) (ifindex : Int) :
    Sys Int := do
  let ret ← tcCreateHook ifindex
  if ret ≠ NO_ERROR then return ret
  let ret ← tcAttachProg ctx defs.tcIngressProg ifindex .ingress
  if ret ≠ NO_ERROR then return ret
  let ret ← tcAttachProg ctx defs.tcEgressProg ifindex .egress
  if ret ≠ NO_ERROR then return ret
  pure NO_ERROR

/-- `xdp_attach_prog_to_port`: the status and the handle left in `*fd`. -/
def xdpAttachProgToPort (ctx : NikssContext) (ifindex : Int) (prog : String) :
    Sys (Int × Int) := do
  let fd ← openProgByName ctx prog
  if fd < 0 then return (← getErrno, fd)
  let ret ← bpfSetLinkXdpFd ifindex fd .drvMode
  if ret ≠ -(EOPNOTSUPP : Int) then
    if ret < 0 then return (-ret, ← closeObjectFd fd)
    return (NO_ERROR, fd)
  let ret ← bpfSetLinkXdpFd ifindex fd .skbMode
  if ret < 0 then return (-ret, ← closeObjectFd fd)
  pure (NO_ERROR, fd)

/-- The warning `update_prog_devmap` prints when the interface index exceeds the devmap. -/
def devmapWarning (ifindex : Int) (intf : String) (maxEntries : Nat) : String :=
  "Warning: the index(=" ++ toString ifindex ++ ") of the interface " ++ intf ++
    " is higher than the DEVMAP size (=" ++ toString maxEntries ++ ")\nApplying modulo ... \n"

/-- `update_prog_devmap`: the slot `ifindex % (int) max_entries` (C's remainder) gets the
interface and the egress program, `-1` when there is none. -/
def updateProgDevmap (devmap : MapDescriptor) (ifindex : Int) (intf : String)
    (egressProgFd : Int) : Sys Int := do
  let progFd := if egressProgFd ≥ 0 then egressProgFd else -1
  if ifindex > uint32ToInt devmap.maxEntries then
    modify fun w => { w with stderr := w.stderr ++ [devmapWarning ifindex intf devmap.maxEntries] }
  let capacity := uint32ToInt devmap.maxEntries
  if capacity = 0 then crash
  let index := ifindex.tmod capacity
  let ret ← bpfMapUpdateElem devmap.fd (index % 2 ^ 32).toNat (.devmap ifindex progFd)
  if ret ≠ 0 then getErrno else pure NO_ERROR

/-- The key `update_prog_devmap` writes, the remainder `ifindex % (int) max_entries` as a
`uint32_t`, is the remainder of the index by the capacity when the index is not negative and
the capacity is below 2^32. -/
theorem devmapKey_eq {ifindex : Int} {maxEntries : Nat} (nonneg : 0 ≤ ifindex)
    (positive : 0 < maxEntries) (small : maxEntries < 2 ^ 32) :
    ((ifindex.tmod maxEntries) % 2 ^ 32).toNat = ifindex.toNat % maxEntries := by
  obtain ⟨n, rfl⟩ := Int.eq_ofNat_of_zero_le nonneg
  have below := Nat.mod_lt n positive
  rw [← Int.ofNat_tmod, Int.toNat_natCast]
  omega

/-- The value `update_prog_devmap` writes resolves to the interface and its egress program
when the egress handle is open or absent. -/
theorem resolveValue_devmap {w : World} {ifindex egressProgFd : Int}
    (egress : egressProgFd < 0 ∨ (w.lookupFd egressProgFd).isSome) :
    w.resolveValue (.devmap ifindex (if egressProgFd ≥ 0 then egressProgFd else -1)) =
      some (.devmap ifindex (if egressProgFd < 0 then none else w.lookupFd egressProgFd)) := by
  by_cases absent : egressProgFd < 0
  · simp [World.resolveValue, absent, not_le.mpr absent]
  · obtain ⟨prog, found⟩ := Option.isSome_iff_exists.mp (egress.resolve_left absent)
    simp [World.resolveValue, absent, not_lt.mp absent, found]

/-- On a devmap whose capacity fits an `int`, when nothing outside fails and the egress
handle is open or absent, `update_prog_devmap` succeeds: slot `ifindex % max_entries` gets
the interface and its egress program, and the warning is printed exactly when the index
exceeds the capacity, so that an index equal to it silently shares slot 0. -/
theorem updateProgDevmap_fills_slot {w : World} (quiet : w.outcomes = []) {devmap : MapDescriptor}
    {mapId : ℕ+} {info : MapInfo} (mapOpen : w.lookupFd devmap.fd = some mapId)
    (isMap : w.objects mapId = some (.map info)) (sized : info.maxEntries = devmap.maxEntries)
    (positive : 0 < devmap.maxEntries) (belowIntMax : devmap.maxEntries < 2 ^ 31)
    {ifindex : Int} (nonneg : 0 ≤ ifindex) (intf : String) {egressProgFd : Int}
    (egress : egressProgFd < 0 ∨ (w.lookupFd egressProgFd).isSome) :
    updateProgDevmap devmap ifindex intf egressProgFd w = some (NO_ERROR, { w with
      stderr := if (devmap.maxEntries : Int) < ifindex
        then w.stderr ++ [devmapWarning ifindex intf devmap.maxEntries] else w.stderr
      elems := Function.update w.elems mapId (Function.update (w.elems mapId)
        (ifindex.toNat % devmap.maxEntries)
        (some (.devmap ifindex (if egressProgFd < 0 then none else w.lookupFd egressProgFd)))) }) := by
  have fits : ¬ (info.IsArray ∧ info.maxEntries ≤ ifindex.toNat % devmap.maxEntries) :=
    fun ⟨_, full⟩ => absurd (Nat.mod_lt ifindex.toNat positive) (by omega)
  have nonzero : (devmap.maxEntries : Int) ≠ 0 := by omega
  by_cases warn : (devmap.maxEntries : Int) < ifindex <;>
    simp only [updateProgDevmap, uint32ToInt_of_lt belowIntMax, gt_iff_lt, warn, if_true, if_false,
      if_neg nonzero, Sys.bind_apply, Sys.modify_apply, Sys.pure_apply, Option.some_bind,
      devmapKey_eq nonneg positive (by omega)]
  · -- the warning only touches stderr
    let warned := { w with stderr := w.stderr ++ [devmapWarning ifindex intf devmap.maxEntries] }
    rw [bpfMapUpdateElem_quiet (w := warned) quiet mapOpen isMap, if_neg fits,
      resolveValue_devmap (w := warned) egress]
    rfl
  · rw [bpfMapUpdateElem_quiet quiet mapOpen isMap, if_neg fits, resolveValue_devmap egress]
    rfl

/-- `updateProgDevmap_fills_slot` on interface 6 of a devmap of 4 entries, with no egress
program: slot 2 gets the interface, and the warning is printed. -/
theorem updateProgDevmap_fills_slot_on_index_six :
    let info : MapInfo := ⟨14, 4, 8, 4, 0, 0⟩
    let w : World := { World.boot (fun _ => none) [] (fun _ => .bare false) [] with
      objects := fun id => if id = 1 then some (.map info) else none
      fds := fun fd => if fd = 0 then some 1 else none
      nextFd := 1 }
    let devmap : MapDescriptor := ⟨0, 14, 4, 8, 4, 0, 0, 0, 0⟩
    w.outcomes = [] ∧ w.lookupFd devmap.fd = some 1 ∧ w.objects 1 = some (.map info) ∧
      (updateProgDevmap devmap 6 "eth0" (-1) w).map (fun r => (r.1, r.2.elems 1 2, r.2.stderr)) =
        some (NO_ERROR, some (.devmap 6 none), [devmapWarning 6 "eth0" 4]) := by
  intro info w devmap
  have mapOpen : w.lookupFd devmap.fd = some 1 := rfl
  have isMap : w.objects 1 = some (.map info) := rfl
  refine ⟨rfl, mapOpen, isMap, ?_⟩
  rw [updateProgDevmap_fills_slot rfl mapOpen isMap rfl (by decide) (by decide) (by decide) "eth0"
    (.inl (by decide))]
  decide

/-- The devmap step of `xdp_port_add`: point the interface's slot at the XDP egress
program, which may be missing. -/
def xdpPortAddDevmap (defs : BpfDefs) (ctx : NikssContext) (intf : String) (ifindex : Int) :
    Sys Int := do
  let egProgFd ← openProgByName ctx defs.xdpEgressProg
  let (ret, devmap) ← openBpfMap ctx defs.xdpDevmap none
  if ret ≠ NO_ERROR then
    let _ ← closeObjectFd egProgFd
    return ret
  let ret ← updateProgDevmap devmap ifindex intf egProgFd
  let _ ← closeObjectFd egProgFd
  let _ ← closeObjectFd devmap.fd
  pure ret

/-- The jump-table step of `xdp_port_add`: install the optimized egress program in slot 0
when it is pinned. `some ret` is a return of `xdp_port_add` with `ret`. -/
def xdpPortAddJumpTable (defs : BpfDefs) (ctx : NikssContext) : Sys (Option Int) := do
  let egProgFd ← openProgByName ctx defs.xdpEgressProgOptimized
  if egProgFd < 0 then return none
  let (ret, jmpmap) ← openBpfMap ctx defs.xdpJumpTbl none
  if ret ≠ NO_ERROR then
    let _ ← closeObjectFd egProgFd
    return some ENOENT
  let ret ← bpfMapUpdateElem jmpmap.fd 0 (.fd egProgFd)
  let errnoVal ← getErrno
  let _ ← closeObjectFd egProgFd
  let _ ← closeObjectFd jmpmap.fd
  if ret ≠ 0 then return some errnoVal
  pure none

/-- `xdp_port_add`. -/
def xdpPortAdd (defs : BpfDefs) (ctx : NikssContext) (intf : String) (ifindex : Int) :
    Sys Int := do
  let (ret, igProgFd) ← xdpAttachProgToPort ctx ifindex defs.xdpIngressProg
  if ret ≠ NO_ERROR then return ret
  let _ ← closeObjectFd igProgFd
  let ret ← xdpPortAddDevmap defs ctx intf ifindex
  if ret ≠ NO_ERROR then return ret
  if let some ret ← xdpPortAddJumpTable defs ctx then return ret
  let ret ← tcCreateHookAndAttachProgs defs ctx ifindex
  if ret ≠ NO_ERROR then return ret
  pure NO_ERROR

/-- `tc_port_add`. -/
def tcPortAdd (defs : BpfDefs) (ctx : NikssContext) (ifindex : Int) : Sys Int := do
  let (ret, xdpHelperFd) ← xdpAttachProgToPort ctx ifindex defs.xdpHelperProg
  if ret ≠ NO_ERROR then return ret
  let _ ← closeObjectFd xdpHelperFd
  let ret ← tcCreateHookAndAttachProgs defs ctx ifindex
  if ret ≠ NO_ERROR then return ret
  pure NO_ERROR

/-- `nikss_pipeline_add_port`: the status and the port id written, `none` when none is. -/
def nikssPipelineAddPort (defs : BpfDefs) (ctx : NikssContext) (interface : String) :
    Sys (Int × Option Int) := do
  let isXDP := (← access (buildEbpfProgFilename ctx defs.xdpHelperProg)) ≠ 0
  let ifindex := uint32ToInt (← ifNametoindex interface)
  if ifindex = 0 then return (ENODEV, none)
  let ret ← if isXDP then xdpPortAdd defs ctx interface ifindex else tcPortAdd defs ctx ifindex
  pure (ret, some ifindex)

/-- `nikss_pipeline_del_port`. -/
def nikssPipelineDelPort (interface : String) : Sys Int := do
  let ifindex := uint32ToInt (← ifNametoindex interface)
  if ifindex = 0 then return ENODEV
  let ret ← bpfSetLinkXdpFd ifindex (-1) .none
  if ret ≠ 0 then return -ret
  if (← bpfTcHookDestroy ifindex) ≠ 0 then
    let ret ← getErrno
    if ret ≠ ENOENT then return ret
  pure NO_ERROR

set_option maxRecDepth 4000 in
set_option smartUnfolding false in
/-- The devmap slot at the capacity and past `INT_MAX`. The bug is the first case: an
interface of index 4 on a devmap of 4 entries gets slot 0 with no warning, since the test
is `ifindex > max_entries`. The second shows only what the `(int)` cast computes, since a
kernel cannot allocate a devmap of 2^32 - 1 entries: the cast turns the capacity into -1,
and an interface of index 5 gets slot 0, not 5, and the warning. -/
theorem nikssPipelineAddPort_devmap_slot_at_boundaries :
    let defs : BpfDefs := ⟨"tc-ingress", "tc-egress", "xdp-ingress", "xdp-egress",
      "xdp-egress-optimized", "xdp-helper", "tc-init", "xdp-init", "devmap", "jump-table", by decide⟩
    let w : Nat → Nat → World := fun capacity ifindex =>
      { World.boot (fun _ => none) [(ifindex, "eth0")] (fun _ => .bare true) [] with
        pins := fun path => if path = .prog 0 "xdp-ingress" then some 1
          else if path = .prog 0 "tc-ingress" then some 2
          else if path = .map 0 "devmap" then some 3 else none
        objects := fun id => if id ≤ 2 then some (.prog 0)
          else if id = 3 then some (.map ⟨14, 4, 8, capacity, 0, 0⟩) else none
        nextId := 4 }
    (nikssPipelineAddPort defs ⟨0⟩ "eth0" (w 4 4)).map (fun r => (r.1, r.2.elems 3 0, r.2.elems 3 4,
        r.2.stderr)) = some ((0, some 4), some (.devmap 4 none), none, []) ∧
      (nikssPipelineAddPort defs ⟨0⟩ "eth0" (w 4294967295 5)).map (fun r => (r.1, r.2.elems 3 0,
        r.2.elems 3 5, r.2.stderr)) =
        some ((0, some 5), some (.devmap 5 none), none, [devmapWarning 5 "eth0" 4294967295]) :=
  ⟨rfl, rfl⟩

end Nikss
