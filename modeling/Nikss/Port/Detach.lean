import Nikss.Port.Repeat

/-! # Removing a port

`nikss_pipeline_del_port` detaches the XDP program with no mode given, so the kernel
removes the program of the mode the driver picks by default (`Iface.DefaultMode`: driver
mode on a driver with native XDP, generic mode otherwise), and then destroys the TC
hook, tolerating its absence.

`add_port`, when nothing fails from outside, leaves its program in that mode: the driver
accepts the driver-mode attach when it has native XDP and answers `EOPNOTSUPP` otherwise,
and only then does the code attach in generic mode. So a port added that way is removed
cleanly, by the two halves `xdpAttachProgToPort_defaultMode` and
`nikssPipelineDelPort_clears` and the frame of `add_port`. An outside `EOPNOTSUPP` at the
driver-mode attach breaks the first half: it leaves a generic-mode program on a native
driver, which the removal does not reach.
-/

namespace Nikss

variable {w w' : World}

/-- With nothing failing from outside, a successful attach keeps the interface's program
in its driver's default mode. -/
theorem xdpAttachProgToPort_defaultMode {ctx : NikssContext} {ifindex fd : Int} {prog : String}
    (quiet : w.outcomes = []) (default : (w.iface ifindex).DefaultMode)
    (run : xdpAttachProgToPort ctx ifindex prog w = some ((NO_ERROR, fd), w')) :
    (w'.iface ifindex).DefaultMode ∧ w'.links = w.links ∧ w'.outcomes = [] := by
  rw [xdpAttachProgToPort, Sys.bind_apply, openProgByName, bpfObjGet_quiet quiet] at run
  cases pinned : w.pins (buildEbpfProgFilename ctx prog) with
  | none => simp [pinned, getErrno, ENOENT, NO_ERROR] at run
  | some id =>
    rw [pinned] at run
    have valid : (0 : Int) ≤ w.nextFd := Int.natCast_nonneg _
    have opened : (w.withHandle id).lookupFd w.nextFd = some id := by simp
    cases native : (w.iface ifindex).ndoBpf
    · have noDrv : (w.iface ifindex).xdpDrv = none := by simpa [Iface.DefaultMode, native] using default
      cases skb : (w.iface ifindex).xdpSkb with
      | some _ =>
        simp [not_lt.mpr valid, bpfSetLinkXdpFd_drvMode_exists (w := w.withHandle id) quiet valid
          (by simp) (show ((w.withHandle id).iface ifindex).xdpSkb.isSome by simp [skb]), closeObjectFd,
          close, EEXIST, EOPNOTSUPP, NO_ERROR] at run
      | none =>
        have drv := bpfSetLinkXdpFd_drvMode_generic (w := w.withHandle id) quiet valid opened native
          noDrv skb
        have generic := bpfSetLinkXdpFd_skbMode_generic (w := { w.withHandle id with errno := EOPNOTSUPP })
          quiet valid opened noDrv
        simp only [Option.some_bind, not_lt.mpr valid, if_false, Sys.bind_apply, Sys.pure_apply, drv,
          ne_eq, not_true_eq_false, generic, lt_irrefl] at run
        obtain ⟨-, rfl⟩ := run
        simp only [World.iface] at native noDrv
        simp [Iface.DefaultMode, World.iface, World.setIface, native, noDrv, quiet]
    · have noSkb : (w.iface ifindex).xdpSkb = none := by simpa [Iface.DefaultMode, native] using default
      simp [not_lt.mpr valid, bpfSetLinkXdpFd_drvMode_native (w := w.withHandle id) quiet valid opened
        native noSkb, EOPNOTSUPP] at run
      obtain ⟨-, rfl⟩ := run
      simp [Iface.DefaultMode, native, noSkb, quiet]

/-- With nothing failing from outside, removing a port whose program is in its driver's
default mode answers `NO_ERROR` and leaves it with neither XDP program nor TC hook. -/
theorem nikssPipelineDelPort_clears {interface : String} {ifindex : Int} (quiet : w.outcomes = [])
    (index : uint32ToInt (((w.links.find? fun link => link.2 = interface).map Prod.fst).getD 0) = ifindex)
    (named : ifindex ≠ 0) (default : (w.iface ifindex).DefaultMode) :
    ∃ w', nikssPipelineDelPort interface w = some (NO_ERROR, w') ∧
      (w'.iface ifindex).xdpDrv = none ∧ (w'.iface ifindex).xdpSkb = none ∧
      (w'.iface ifindex).clsact = false := by
  have destroy := bpfTcHookDestroy_quiet
    (w := w.setIface ifindex { w.iface ifindex with xdpDrv := none, xdpSkb := none }) quiet ifindex
  simp only [nikssPipelineDelPort, ifNametoindex, Sys.bind_apply, Sys.get_apply, Sys.pure_apply,
    Option.some_bind, index, named, if_false, bpfSetLinkXdpFd_detach quiet default, ne_eq,
    not_true_eq_false, pure_bind, destroy, World.iface_setIface]
  by_cases hook : (w.iface ifindex).clsact
  · simp [hook]
  · simp only [World.iface] at hook
    simp [hook, getErrno, ENOENT, World.iface, World.setIface]

/-- With nothing failing from outside, `del_port` removes a port that `add_port` added to
an interface whose program, if any, was in its driver's default mode (as on an interface
with none): it answers `NO_ERROR`, and the interface is left with neither XDP program nor
TC hook. -/
theorem nikssPipelineDelPort_clears_added_port {defs : BpfDefs} {ctx : NikssContext}
    {interface : String} {ifindex : Int} (quiet : w.outcomes = [])
    (default : (w.iface ifindex).DefaultMode)
    (added : nikssPipelineAddPort defs ctx interface w = some ((NO_ERROR, some ifindex), w')) :
    ∃ w'', nikssPipelineDelPort interface w' = some (NO_ERROR, w'') ∧
      (w''.iface ifindex).xdpDrv = none ∧ (w''.iface ifindex).xdpSkb = none ∧
      (w''.iface ifindex).clsact = false := by
  obtain ⟨helper, w₁, prog, fd, w₂, accessed, index, named, -, attached, same₂⟩ :=
    nikssPipelineAddPort_attached added
  have same₁ := access_keepsXdp _ w _ _ accessed
  obtain ⟨default₂, links₂, quiet₂⟩ :=
    xdpAttachProgToPort_defaultMode (same₁.quiet quiet) (same₁.defaultMode default) attached
  exact nikssPipelineDelPort_clears (same₂.quiet quiet₂) (by rw [same₂.links, links₂]; exact index)
    named (same₂.defaultMode default₂)

set_option maxRecDepth 4000 in
set_option smartUnfolding false in
/-- A TC pipeline added to a port whose driver lacks native XDP, and removed again. -/
theorem nikssPipelineDelPort_clears_added_port_on_tc_pipeline :
    let defs : BpfDefs := ⟨"tc-ingress", "tc-egress", "xdp-ingress", "xdp-egress",
      "xdp-egress-optimized", "xdp-helper", "tc-init", "xdp-init", "devmap", "jump-table", by decide⟩
    let w : World :=
      { World.boot (fun _ => none) [(1, "eth0")] (fun _ => .bare false) [] with
        pins := fun path => if path = .prog 0 "xdp-helper" then some 1
          else if path = .prog 0 "tc-ingress" then some 2 else none
        objects := fun id => if id ≤ 2 then some (.prog 0) else none
        nextId := 3 }
    w.outcomes = [] ∧ (w.iface 1).DefaultMode ∧
      ∃ w', nikssPipelineAddPort defs ⟨0⟩ "eth0" w = some ((NO_ERROR, some 1), w') ∧
        ∃ w'', nikssPipelineDelPort "eth0" w' = some (NO_ERROR, w'') ∧
          (w''.iface 1).xdpDrv = none ∧ (w''.iface 1).xdpSkb = none ∧ (w''.iface 1).clsact = false := by
  intro defs w
  obtain ⟨w', added⟩ : ∃ w', nikssPipelineAddPort defs ⟨0⟩ "eth0" w = some ((NO_ERROR, some 1), w') :=
    ⟨_, rfl⟩
  exact ⟨rfl, by decide, w', added, nikssPipelineDelPort_clears_added_port rfl (by decide) added⟩

end Nikss
