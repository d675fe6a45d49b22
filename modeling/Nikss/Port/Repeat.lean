import Mathlib.Tactic.LiftLets
import Nikss.Kernel.Xdp
import Nikss.Port.Attach

/-! # Adding a port twice

`nikss_pipeline_add_port` is not idempotent. Its XDP step tries driver mode first and
falls back to generic mode only when the driver answers `EOPNOTSUPP`. On an interface
whose driver lacks native XDP the first call therefore attaches in generic mode, and the
kernel then refuses the driver-mode attach of any later call with `EEXIST`, which the
library returns. (On a native interface the XDP step of a second call succeeds, and
`tc_create_hook` returns the `EEXIST` of the existing hook.)

The proof follows the two runs:

* after the attach, nothing `xdp_port_add` and `tc_port_add` do changes the XDP state
  (`xdpPortAdd_attached`, `tcPortAdd_attached`), by the rules of `KeepsXdp`;
* a successful attach on such an interface leaves a program in generic mode
  (`xdpAttachProgToPort_generic`);
* the second run reaches the attach of a pinned program, which is refused
  (`xdpAttachProgToPort_exists`).

Nor does `tc_create_hook` take over a `clsact` qdisc that is there: the first `add_port`
of a TC pipeline on such an interface attaches its XDP helper and then fails with
`EEXIST`, leaving the helper attached (`nikssPipelineAddPort_refused_by_existing_hook`).
-/

namespace Nikss

/-! ## The steps after the attach keep the XDP state -/

theorem tcCreateHook_keepsXdp (ifindex : Int) : KeepsXdp (tcCreateHook ifindex) :=
  (bpfTcHookCreate_keepsXdp ifindex).bind fun _ => .ite getErrno_keepsXdp (.pure _)

theorem tcAttachProg_keepsXdp (ctx : NikssContext) (prog : String) (ifindex : Int)
    (point : TcAttachPoint) : KeepsXdp (tcAttachProg ctx prog ifindex point) := by
  refine (bpfObjGet_keepsXdp _).bind fun fd => ?_
  simp only [pure_bind]
  refine .ite (getErrno_keepsXdp.bind fun _ => .ite (.pure _) (.pure _)) ?_
  refine (bpfTcAttach_keepsXdp _ _ _).bind fun _ => .ite ?_ ((close_keepsXdp fd).bind fun _ => .pure _)
  exact getErrno_keepsXdp.bind fun _ => (close_keepsXdp fd).bind fun _ => .pure _

theorem tcCreateHookAndAttachProgs_keepsXdp (defs : BpfDefs) (ctx : NikssContext) (ifindex : Int) :
    KeepsXdp (tcCreateHookAndAttachProgs defs ctx ifindex) := by
  refine (tcCreateHook_keepsXdp ifindex).bind fun _ => ?_
  simp only [pure_bind]
  exact .ite (.pure _) <| (tcAttachProg_keepsXdp _ _ _ _).bind fun _ => .ite (.pure _) <|
    (tcAttachProg_keepsXdp _ _ _ _).bind fun _ => .ite (.pure _) (.pure _)

theorem updateProgDevmap_keepsXdp (devmap : MapDescriptor) (ifindex : Int) (intf : String)
    (egressProgFd : Int) : KeepsXdp (updateProgDevmap devmap ifindex intf egressProgFd) := by
  unfold updateProgDevmap
  lift_lets
  intro progFd capacity index store check
  have stored : ∀ y, KeepsXdp (store y) := fun _ =>
    (bpfMapUpdateElem_keepsXdp _ _ _).bind fun _ => .ite getErrno_keepsXdp (.pure _)
  have checked : ∀ y, KeepsXdp (check y) := fun _ =>
    .ite (crash_keepsXdp.bind stored) ((KeepsXdp.pure _).bind stored)
  refine .ite (KeepsXdp.bind ?_ checked) ((KeepsXdp.pure _).bind checked)
  rintro w r w' ⟨⟩
  exact .of_ifaces rfl rfl rfl rfl

theorem xdpPortAddDevmap_keepsXdp (defs : BpfDefs) (ctx : NikssContext) (intf : String)
    (ifindex : Int) : KeepsXdp (xdpPortAddDevmap defs ctx intf ifindex) := by
  refine (bpfObjGet_keepsXdp _).bind fun _ => (openBpfMap_keepsXdp _ _ _).bind fun ⟨_, _⟩ => ?_
  dsimp only
  exact .ite ((closeObjectFd_keepsXdp _).bind fun _ => .pure _) <|
    (KeepsXdp.pure _).bind fun _ => (updateProgDevmap_keepsXdp _ _ _ _).bind fun _ =>
      (closeObjectFd_keepsXdp _).bind fun _ => (closeObjectFd_keepsXdp _).bind fun _ => .pure _

theorem xdpPortAddJumpTable_keepsXdp (defs : BpfDefs) (ctx : NikssContext) :
    KeepsXdp (xdpPortAddJumpTable defs ctx) := by
  refine (bpfObjGet_keepsXdp _).bind fun _ => ?_
  simp only [pure_bind]
  refine .ite (.pure _) <| (openBpfMap_keepsXdp _ _ _).bind fun ⟨_, _⟩ => ?_
  dsimp only
  exact .ite ((closeObjectFd_keepsXdp _).bind fun _ => .pure _) <|
    (bpfMapUpdateElem_keepsXdp _ _ _).bind fun _ => getErrno_keepsXdp.bind fun _ =>
      (closeObjectFd_keepsXdp _).bind fun _ => (closeObjectFd_keepsXdp _).bind fun _ =>
        .ite (.pure _) (.pure _)

/-! ## One run of `add_port` -/

section Runs

variable {defs : BpfDefs} {ctx : NikssContext} {ifindex ret : Int} {w w' : World}

theorem bind_pure_fst {α β γ : Type} {m : Sys α} {a b : β} {c : γ} {f : α → γ}
    (run : (m >>= fun x => pure (a, f x)) w = some ((b, c), w')) : a = b := by
  simp only [Sys.bind_apply, Sys.pure_apply, Option.bind_eq_some, Option.some.injEq,
    Prod.mk.injEq] at run
  obtain ⟨_, _, ⟨rfl, -⟩, -⟩ := run
  rfl

/-- On an interface whose driver lacks native XDP and which has no driver-mode program,
an attach that succeeds was of a pinned program, which is now attached in generic mode. -/
theorem xdpAttachProgToPort_generic {prog : String} {fd' : Int}
    (run : xdpAttachProgToPort ctx ifindex prog w = some ((NO_ERROR, fd'), w'))
    (generic : (w.iface ifindex).ndoBpf = false) (noDrv : (w.iface ifindex).xdpDrv = none) :
    (w.pins (buildEbpfProgFilename ctx prog)).isSome ∧ w'.pins = w.pins ∧ w'.links = w.links ∧
      ((w'.iface ifindex).xdpSkb).isSome := by
  obtain ⟨⟨fd, w₁⟩, opened, run⟩ := Option.bind_eq_some.mp run
  have same₁ := bpfObjGet_keepsXdp _ w _ _ opened
  rcases bpfObjGet_cases opened with ⟨negative, failed⟩ | ⟨valid, pinned⟩
  · simp only [negative, if_true, getErrno, Sys.bind_apply, Sys.get_apply, Option.some_bind,
      Sys.pure_apply, Option.some.injEq, Prod.mk.injEq] at run
    exact (failed (by simpa [NO_ERROR] using run.1.1)).elim
  simp only [not_lt.mpr valid, if_false, pure_bind, Sys.bind_apply, Option.bind_eq_some] at run
  obtain ⟨⟨ret, w₂⟩, drv, run⟩ := run
  obtain ⟨refused, same₂⟩ := bpfSetLinkXdpFd_drvMode_refused drv valid
    ((same₁.ndoBpf _).trans generic) ((same₁.xdpDrv _).trans noDrv)
  by_cases fallback : ret = -(EOPNOTSUPP : Int)
  · simp only [fallback, ne_eq, not_true_eq_false, if_false, pure_bind, Sys.bind_apply,
      Option.bind_eq_some] at run
    obtain ⟨⟨ret', w₃⟩, skb, run⟩ := run
    by_cases failed : ret' < 0
    · simp only [failed, if_true] at run
      exact absurd (bind_pure_fst run) (by simp [NO_ERROR]; omega)
    simp only [failed, if_false, pure_bind, Sys.pure_apply, Option.some.injEq, Prod.mk.injEq] at run
    obtain ⟨-, rfl⟩ := run
    obtain ⟨pins, links, attached⟩ := bpfSetLinkXdpFd_skbMode_attached skb valid failed
    exact ⟨pinned, pins.trans (same₂.pins.trans same₁.pins),
      links.trans (same₂.links.trans same₁.links), attached⟩
  · simp only [fallback, ne_eq, not_false_eq_true, if_true, refused] at run
    exact absurd (bind_pure_fst run) (by simp [NO_ERROR]; omega)

/-- With nothing failing from outside, attaching a pinned program to an interface that has
one in generic mode is refused with `EEXIST`; the handle opened is closed again. -/
theorem xdpAttachProgToPort_exists {prog : String} {id : ℕ+}
    (quiet : w.outcomes = []) (pinned : w.pins (buildEbpfProgFilename ctx prog) = some id)
    (generic : ((w.iface ifindex).xdpSkb).isSome) :
    ∃ w' : World, xdpAttachProgToPort ctx ifindex prog w = some (((EEXIST : Int), -1), w') ∧
      w'.ifaces = w.ifaces ∧ w'.pins = w.pins ∧ w'.elems = w.elems ∧ w'.links = w.links := by
  have valid : (0 : Int) ≤ w.nextFd := Int.natCast_nonneg _
  refine ⟨{ w.withHandle id with
    errno := EEXIST, fds := Function.update (w.withHandle id).fds w.nextFd none }, ?_, rfl, rfl, rfl, rfl⟩
  rw [xdpAttachProgToPort, Sys.bind_apply, openProgByName, bpfObjGet_quiet quiet, pinned]
  simp [not_lt.mpr valid, bpfSetLinkXdpFd_drvMode_exists (w := w.withHandle id) quiet valid
    (by simp) generic, closeObjectFd, close, EEXIST, EOPNOTSUPP]

/-- A successful `xdp_port_add` attached the XDP ingress program, and nothing after the
attach changed the XDP state. -/
theorem xdpPortAdd_attached {intf : String}
    (run : xdpPortAdd defs ctx intf ifindex w = some (NO_ERROR, w')) :
    ∃ fd w₁, xdpAttachProgToPort ctx ifindex defs.xdpIngressProg w = some ((NO_ERROR, fd), w₁) ∧
      w₁.SameXdp w' := by
  obtain ⟨⟨⟨ret, fd⟩, w₁⟩, attached, run⟩ := Option.bind_eq_some.mp run
  dsimp only at run
  by_cases ok : ret = NO_ERROR
  · subst ok
    refine ⟨fd, w₁, attached, (?_ : KeepsXdp _) w₁ _ _ run⟩
    simp only [ne_eq, not_true_eq_false, if_false, pure_bind]
    refine (closeObjectFd_keepsXdp fd).bind fun _ => (xdpPortAddDevmap_keepsXdp _ _ _ _).bind
      fun _ => .ite (.pure _) <| (xdpPortAddJumpTable_keepsXdp _ _).bind fun _ => ?_
    split
    · exact .pure _
    · exact (tcCreateHookAndAttachProgs_keepsXdp _ _ _).bind fun _ => .ite (.pure _) (.pure _)
  · simp [ok] at run

/-- A successful `tc_port_add` attached the XDP helper, and nothing after the attach changed
the XDP state. -/
theorem tcPortAdd_attached (run : tcPortAdd defs ctx ifindex w = some (NO_ERROR, w')) :
    ∃ fd w₁, xdpAttachProgToPort ctx ifindex defs.xdpHelperProg w = some ((NO_ERROR, fd), w₁) ∧
      w₁.SameXdp w' := by
  obtain ⟨⟨⟨ret, fd⟩, w₁⟩, attached, run⟩ := Option.bind_eq_some.mp run
  dsimp only at run
  by_cases ok : ret = NO_ERROR
  · subst ok
    refine ⟨fd, w₁, attached, (?_ : KeepsXdp _) w₁ _ _ run⟩
    simp only [ne_eq, not_true_eq_false, if_false, pure_bind]
    exact (closeObjectFd_keepsXdp fd).bind fun _ =>
      (tcCreateHookAndAttachProgs_keepsXdp _ _ _).bind fun _ => .ite (.pure _) (.pure _)
  · simp [ok] at run

/-- A refused attach is what `xdp_port_add` answers. -/
theorem xdpPortAdd_of_refused {intf : String} {fd : Int}
    (refused : xdpAttachProgToPort ctx ifindex defs.xdpIngressProg w = some ((ret, fd), w'))
    (failed : ret ≠ NO_ERROR) : xdpPortAdd defs ctx intf ifindex w = some (ret, w') := by
  simp [xdpPortAdd, refused, failed]

/-- A refused attach is what `tc_port_add` answers. -/
theorem tcPortAdd_of_refused {fd : Int}
    (refused : xdpAttachProgToPort ctx ifindex defs.xdpHelperProg w = some ((ret, fd), w'))
    (failed : ret ≠ NO_ERROR) : tcPortAdd defs ctx ifindex w = some (ret, w') := by
  simp [tcPortAdd, refused, failed]

/-- A successful `add_port` found the interface under `ifindex`, took the flavour the
helper's pin gave, and attached that flavour's program: the XDP ingress program when
`access` did not find the helper, the helper otherwise. Nothing after the attach changed
the XDP state. -/
theorem nikssPipelineAddPort_attached {interface : String} {ifindex : Int}
    (run : nikssPipelineAddPort defs ctx interface w = some ((NO_ERROR, some ifindex), w')) :
    ∃ helper w₁ prog fd w₂,
      access (buildEbpfProgFilename ctx defs.xdpHelperProg) w = some (helper, w₁) ∧
      uint32ToInt (((w₁.links.find? fun link => link.2 = interface).map Prod.fst).getD 0) = ifindex ∧
      ifindex ≠ 0 ∧ (helper ≠ 0 → prog = defs.xdpIngressProg) ∧
      xdpAttachProgToPort ctx ifindex prog w₁ = some ((NO_ERROR, fd), w₂) ∧ w₂.SameXdp w' := by
  obtain ⟨⟨helper, w₁⟩, accessed, run⟩ := Option.bind_eq_some.mp run
  simp only [ifNametoindex, Sys.bind_apply, Sys.get_apply, Sys.pure_apply, Option.some_bind] at run
  split_ifs at run with named xdp
  · simp at run
  all_goals
    obtain ⟨⟨ret, w₂⟩, added, result⟩ := Option.bind_eq_some.mp run
    simp only [Sys.pure_apply, Option.some.injEq, Prod.mk.injEq] at result
    obtain ⟨⟨rfl, rfl⟩, rfl⟩ := result
  · obtain ⟨fd, w₃, attached, same⟩ := xdpPortAdd_attached added
    exact ⟨helper, w₁, _, fd, w₃, accessed, rfl, named, fun _ => rfl, attached, same⟩
  · obtain ⟨fd, w₃, attached, same⟩ := tcPortAdd_attached added
    exact ⟨helper, w₁, _, fd, w₃, accessed, rfl, named, fun h => (xdp h).elim, attached, same⟩

/-- The interface once `xdp_attach_prog_to_port` attached program `id` to it: in driver
mode on a driver with native XDP, in generic mode otherwise. -/
def Iface.attached (iface : Iface) (id : ℕ+) : Iface :=
  if iface.ndoBpf then { iface with xdpDrv := some id } else { iface with xdpSkb := some id }

/-- With nothing failing from outside, attaching a pinned program to an interface without
XDP program succeeds, in driver mode on a driver with native XDP and otherwise in generic
mode, once the driver-mode attach is refused with `EOPNOTSUPP`. -/
theorem xdpAttachProgToPort_attaches {prog : String} {id : ℕ+} (quiet : w.outcomes = [])
    (pinned : w.pins (buildEbpfProgFilename ctx prog) = some id)
    (noDrv : (w.iface ifindex).xdpDrv = none) (noSkb : (w.iface ifindex).xdpSkb = none) :
    ∃ w₁ : World, xdpAttachProgToPort ctx ifindex prog w = some ((NO_ERROR, (w.nextFd : Int)), w₁) ∧
      w₁.outcomes = [] ∧ w₁.pins = w.pins ∧ w₁.iface ifindex = (w.iface ifindex).attached id := by
  have valid : (0 : Int) ≤ w.nextFd := Int.natCast_nonneg _
  have opened : (w.withHandle id).lookupFd w.nextFd = some id := by simp [World.lookupFd, World.withHandle]
  cases native : (w.iface ifindex).ndoBpf
  · let refused : World := { w.withHandle id with errno := EOPNOTSUPP }
    have skb := bpfSetLinkXdpFd_skbMode_generic (w := refused) quiet valid opened noDrv
    simp only [refused] at skb
    simp [EOPNOTSUPP] at skb
    refine ⟨refused.setIface ifindex { refused.iface ifindex with xdpSkb := some id }, ?_, quiet, rfl, ?_⟩
    · rw [xdpAttachProgToPort, Sys.bind_apply, openProgByName, bpfObjGet_quiet quiet, pinned]
      simp [not_lt.mpr valid, bpfSetLinkXdpFd_drvMode_generic (w := w.withHandle id) quiet valid opened native
        noDrv noSkb, skb, EOPNOTSUPP, NO_ERROR]
      rfl
    · rw [World.iface_setIface, Iface.attached, if_neg (by simp [native])]
      rfl
  · refine ⟨(w.withHandle id).setIface ifindex { w.iface ifindex with xdpDrv := some id }, ?_, quiet, rfl,
      by simp only [World.iface_setIface, Iface.attached, native, if_true]⟩
    rw [xdpAttachProgToPort, Sys.bind_apply, openProgByName, bpfObjGet_quiet quiet, pinned]
    simp [not_lt.mpr valid, bpfSetLinkXdpFd_drvMode_native (w := w.withHandle id) quiet valid opened native
      noSkb, EOPNOTSUPP, NO_ERROR]

/-- With nothing failing from outside, `tc_create_hook_and_attach_progs` on an interface
that has a `clsact` qdisc stops at the hook, with the `EEXIST` of `bpf_tc_hook_create`. -/
theorem tcCreateHookAndAttachProgs_exists (quiet : w.outcomes = [])
    (hooked : (w.iface ifindex).clsact = true) :
    tcCreateHookAndAttachProgs defs ctx ifindex w = some ((EEXIST : Int), { w with errno := EEXIST }) := by
  simp [tcCreateHookAndAttachProgs, tcCreateHook, bpfTcHookCreate, nextOutcome_quiet quiet, hooked, fail,
    getErrno, EEXIST, NO_ERROR]

end Runs

/-! ## Two runs -/

/-- On an interface whose driver lacks native XDP and which has no driver-mode program, a
port added once cannot be added again: with nothing failing from outside, the second
`add_port` answers `EEXIST` and leaves the hooks, the pins and the maps as the first left
them. -/
theorem nikssPipelineAddPort_repeat_refused {defs : BpfDefs} {ctx : NikssContext}
    {interface : String} {w w' : World} {ifindex : Int}
    (first : nikssPipelineAddPort defs ctx interface w = some ((NO_ERROR, some ifindex), w'))
    (generic : (w.iface ifindex).ndoBpf = false) (noDrv : (w.iface ifindex).xdpDrv = none) :
    ∃ w'', nikssPipelineAddPort defs ctx interface { w' with outcomes := [] } =
        some (((EEXIST : Int), some ifindex), w'') ∧
      w''.ifaces = w'.ifaces ∧ w''.pins = w'.pins ∧ w''.elems = w'.elems := by
  obtain ⟨helper, w₁, prog, fd, w₂, accessed, index, named, flavour, attached, same₂⟩ :=
    nikssPipelineAddPort_attached first
  have same₁ := access_keepsXdp _ w _ _ accessed
  obtain ⟨pinned, pins, links, skb⟩ := xdpAttachProgToPort_generic attached
    ((same₁.ndoBpf _).trans generic) ((same₁.xdpDrv _).trans noDrv)
  have pins' : w'.pins = w₁.pins := same₂.pins.trans pins
  have skb' : (w'.iface ifindex).xdpSkb.isSome := by rw [World.iface, same₂.xdpSkb]; exact skb
  have index' : uint32ToInt (((w'.links.find? fun link => link.2 = interface).map Prod.fst).getD 0) =
      ifindex := by rw [same₂.links, links, index]
  -- the second run picks its flavour again, and attaches a program that is pinned
  cases helperPin : w'.pins (buildEbpfProgFilename ctx defs.xdpHelperProg) with
  | none =>
    have xdp : helper ≠ 0 := by
      rintro rfl
      have := access_pinned accessed
      simp [← same₁.pins, ← pins', helperPin] at this
    obtain ⟨id, ingress⟩ := Option.isSome_iff_exists.mp (flavour xdp ▸ pinned)
    obtain ⟨w'', refused, ifaces, pins'', elems, -⟩ :=
      xdpAttachProgToPort_exists (w := { w' with outcomes := [], errno := ENOENT }) rfl
        (by simpa [pins'] using ingress) skb'
    refine ⟨w'', ?_, ifaces, pins'', elems⟩
    simp [nikssPipelineAddPort, access_quiet, helperPin, ifNametoindex, index', named,
      show -(ENOENT : Int) ≠ 0 by decide, xdpPortAdd_of_refused refused (by decide)]
  | some id =>
    obtain ⟨w'', refused, ifaces, pins'', elems, -⟩ :=
      xdpAttachProgToPort_exists (w := { w' with outcomes := [] }) rfl helperPin skb'
    refine ⟨w'', ?_, ifaces, pins'', elems⟩
    simp [nikssPipelineAddPort, access_quiet, helperPin, ifNametoindex, index', named,
      tcPortAdd_of_refused refused (by decide)]

set_option maxRecDepth 4000 in
set_option smartUnfolding false in
/-- A TC pipeline added to a port whose driver lacks native XDP. -/
theorem nikssPipelineAddPort_repeat_refused_on_tc_pipeline :
    let defs : BpfDefs := ⟨"tc-ingress", "tc-egress", "xdp-ingress", "xdp-egress",
      "xdp-egress-optimized", "xdp-helper", "tc-init", "xdp-init", "devmap", "jump-table", by decide⟩
    let w : World :=
      { World.boot (fun _ => none) [(1, "eth0")] (fun _ => .bare false) [] with
        pins := fun path => if path = .prog 0 "xdp-helper" then some 1
          else if path = .prog 0 "tc-ingress" then some 2 else none
        objects := fun id => if id ≤ 2 then some (.prog 0) else none
        nextId := 3 }
    ∃ w', nikssPipelineAddPort defs ⟨0⟩ "eth0" w = some ((NO_ERROR, some 1), w') ∧
      (w.iface 1).ndoBpf = false ∧ (w.iface 1).xdpDrv = none ∧
      ∃ w'', nikssPipelineAddPort defs ⟨0⟩ "eth0" { w' with outcomes := [] } =
          some (((EEXIST : Int), some 1), w'') ∧
        w''.ifaces = w'.ifaces ∧ w''.pins = w'.pins ∧ w''.elems = w'.elems := by
  intro defs w
  obtain ⟨w', first⟩ : ∃ w', nikssPipelineAddPort defs ⟨0⟩ "eth0" w = some ((NO_ERROR, some 1), w') :=
    ⟨_, rfl⟩
  exact ⟨w', first, rfl, rfl, nikssPipelineAddPort_repeat_refused first rfl rfl⟩

set_option maxRecDepth 4000 in
set_option smartUnfolding false in
/-- Adding a TC pipeline to the same port twice: the first call answers 0 and the second
`EEXIST`, on a port whose driver lacks native XDP (the driver-mode attach is refused) as
on one whose driver has it (the TC hook exists). -/
theorem nikssPipelineAddPort_not_idempotent :
    let defs : BpfDefs := ⟨"tc-ingress", "tc-egress", "xdp-ingress", "xdp-egress",
      "xdp-egress-optimized", "xdp-helper", "tc-init", "xdp-init", "devmap", "jump-table", by decide⟩
    let port := fun ndoBpf : Bool =>
      { World.boot (fun _ => none) [(1, "eth0")] (fun _ => .bare ndoBpf) [] with
        pins := fun path => if path = .prog 0 "xdp-helper" then some 1
          else if path = .prog 0 "tc-ingress" then some 2 else none
        objects := fun id => if id ≤ 2 then some (.prog 0) else none
        nextId := 3 }
    let twice := fun w => (nikssPipelineAddPort defs ⟨0⟩ "eth0" w).bind fun first =>
      (nikssPipelineAddPort defs ⟨0⟩ "eth0" { first.2 with outcomes := [] }).map fun second =>
        (first.1, second.1)
    twice (port false) = some ((0, some 1), ((EEXIST : Int), some 1)) ∧
      twice (port true) = some ((0, some 1), ((EEXIST : Int), some 1)) :=
  ⟨rfl, rfl⟩

/-! ## A hook that exists -/

/-- `tc_create_hook` does not take over a hook that exists. On an interface that already
has a `clsact` qdisc and no XDP program, `add_port` of a TC pipeline, with nothing failing
from outside, attaches the XDP helper and then answers the `EEXIST` of
`bpf_tc_hook_create`: the port is refused, and the helper stays attached, in driver mode on
a driver with native XDP and in generic mode otherwise. -/
theorem nikssPipelineAddPort_refused_by_existing_hook {defs : BpfDefs} {ctx : NikssContext}
    {interface : String} {w : World} {ifindex : Int} {id : ℕ+} (quiet : w.outcomes = [])
    (helper : w.pins (buildEbpfProgFilename ctx defs.xdpHelperProg) = some id)
    (index : uint32ToInt (((w.links.find? fun link => link.2 = interface).map Prod.fst).getD 0) = ifindex)
    (named : ifindex ≠ 0) (noDrv : (w.iface ifindex).xdpDrv = none) (noSkb : (w.iface ifindex).xdpSkb = none)
    (hooked : (w.iface ifindex).clsact = true) :
    ∃ w', nikssPipelineAddPort defs ctx interface w = some (((EEXIST : Int), some ifindex), w') ∧
      w'.pins = w.pins ∧ w'.iface ifindex = (w.iface ifindex).attached id := by
  obtain ⟨w₁, attached, quiet₁, pins, iface⟩ := xdpAttachProgToPort_attaches quiet helper noDrv noSkb
  let closed : World := { w₁ with fds := Function.update w₁.fds w.nextFd none }
  have still : (closed.iface ifindex).clsact = true := by
    simp only [closed, World.iface] at iface ⊢
    rw [iface, Iface.attached]
    split <;> exact hooked
  have valid : ¬ (w.nextFd : Int) < 0 := not_lt.mpr (Int.natCast_nonneg _)
  refine ⟨{ closed with errno := EEXIST }, ?_, pins, iface⟩
  simp [nikssPipelineAddPort, access_quiet quiet, helper, ifNametoindex, index, named, tcPortAdd, attached,
    closeObjectFd, close, valid, tcCreateHookAndAttachProgs_exists (w := closed) quiet₁ still, closed, NO_ERROR,
    EEXIST]

set_option maxRecDepth 4000 in
set_option smartUnfolding false in
/-- A TC pipeline added to a port whose driver lacks native XDP and which has a `clsact`
qdisc: `add_port` answers `EEXIST`, with the helper attached in generic mode. -/
theorem nikssPipelineAddPort_refused_by_existing_hook_on_tc_pipeline :
    let defs : BpfDefs := ⟨"tc-ingress", "tc-egress", "xdp-ingress", "xdp-egress",
      "xdp-egress-optimized", "xdp-helper", "tc-init", "xdp-init", "devmap", "jump-table", by decide⟩
    let w : World :=
      { World.boot (fun _ => none) [(1, "eth0")] (fun _ => { Iface.bare false with clsact := true }) [] with
        pins := fun path => if path = .prog 0 "xdp-helper" then some 1 else none
        objects := fun id => if id = 1 then some (.prog 0) else none
        nextId := 2 }
    w.outcomes = [] ∧ w.pins (buildEbpfProgFilename ⟨0⟩ defs.xdpHelperProg) = some 1 ∧
      uint32ToInt (((w.links.find? fun link => link.2 = "eth0").map Prod.fst).getD 0) = 1 ∧ (1 : Int) ≠ 0 ∧
      (w.iface 1).xdpDrv = none ∧ (w.iface 1).xdpSkb = none ∧ (w.iface 1).clsact = true ∧
      ∃ w', nikssPipelineAddPort defs ⟨0⟩ "eth0" w = some (((EEXIST : Int), some 1), w') ∧
        w'.pins = w.pins ∧ w'.iface 1 = (w.iface 1).attached 1 := by
  intro defs w
  have quiet : w.outcomes = [] := rfl
  have helper : w.pins (buildEbpfProgFilename ⟨0⟩ defs.xdpHelperProg) = some 1 := rfl
  have index : uint32ToInt (((w.links.find? fun link => link.2 = "eth0").map Prod.fst).getD 0) = 1 := rfl
  have named : (1 : Int) ≠ 0 := by decide
  have noDrv : (w.iface 1).xdpDrv = none := rfl
  have noSkb : (w.iface 1).xdpSkb = none := rfl
  have hooked : (w.iface 1).clsact = true := rfl
  exact ⟨quiet, helper, index, named, noDrv, noSkb, hooked,
    nikssPipelineAddPort_refused_by_existing_hook quiet helper index named noDrv noSkb hooked⟩

end Nikss
