import Nikss.Port.Handles

/-! # A port added is listed

`nikss_pipeline_add_port` attaches one XDP program to the interface, the XDP ingress
program when `access` does not find the helper and the helper otherwise, and
`nikss_port_list_init` dates the program it opens by the same rule read the other way: the
helper when `bpf_obj_get` opens it, the XDP ingress program otherwise. When nothing fails
from outside, the two reads agree (`pipelineXdpProg`).

The kernel refuses an attach while the other mode holds a program, so after any
successful attach exactly one mode is in use and `bpf_get_link_xdp_id` reports the program
attached (`bpfSetLinkXdpFd_reports`). Nothing `add_port` does after the attach changes the
XDP state (`xdpPortAdd_attached`, `tcPortAdd_attached`), and the listing yields every entry
of the table whose query answers the program it dated (`nextPorts_from_cursor`). Put
together: `nikssPipelineAddPort_listed`.
-/

namespace Nikss

variable {w w' : World}

/-- A successful attach in a given mode leaves the program behind the handle in that mode
and the other mode empty, so that the interface reports it; pins and names are kept. -/
theorem bpfSetLinkXdpFd_reports {ifindex fd : Int} {flags : XdpFlags} {ret : Int}
    (run : bpfSetLinkXdpFd ifindex fd flags w = some (ret, w')) (mode : flags ≠ .none) (valid : 0 ≤ fd)
    (attached : ¬ ret < 0) :
    ∃ id : ℕ+, w.lookupFd fd = some id ∧ linkXdpAnswer none (w'.iface ifindex) = (0, (id : Nat)) ∧
      w'.pins = w.pins ∧ w'.links = w.links ∧ w'.outcomes <:+ w.outcomes := by
  obtain ⟨⟨outcome, w₁⟩, popped, run⟩ := Option.bind_eq_some.mp run
  have same := nextOutcome_keepsXdp w _ _ popped
  have fds : w₁.fds = w.fds := by rw [nextOutcome_apply] at popped; cases popped; rfl
  rcases outcome with _ | e
  · simp only [Sys.bind_apply, Sys.get_apply, Option.some_bind, mode, false_and, if_false] at run
    cases program : w.lookupFd fd with
    | none =>
      have program₁ : w₁.lookupFd fd = none := by simpa only [World.lookupFd, fds] using program
      simp only [program₁, valid, and_self, if_true] at run
      exact absurd (fail_refused run (by decide)).1 attached
    | some id =>
      have program₁ : w₁.lookupFd fd = some id := by simpa only [World.lookupFd, fds] using program
      simp only [program₁, valid, true_and, reduceCtorEq, if_false] at run
      -- the attach sets the program in its mode; the other mode is empty or the kernel refuses
      have success (iface : Iface) (linked : linkXdpAnswer none iface = (0, (id : Nat)))
          (done : (set (w₁.setIface ifindex iface) >>= fun _ => pure 0 : Sys Int) w₁ = some (ret, w')) :
          ∃ id' : ℕ+, some id = some id' ∧ linkXdpAnswer none (w'.iface ifindex) = (0, (id' : Nat)) ∧
            w'.pins = w.pins ∧ w'.links = w.links ∧ w'.outcomes <:+ w.outcomes := by
        cases done
        exact ⟨id, rfl, by simpa using linked, same.pins, same.links, same.consumed⟩
      by_cases native : flags = .drvMode
      all_goals
        simp only [native, true_or, false_or, if_true, if_false, reduceCtorEq, or_false] at run
        split_ifs at run with taken
        · exact absurd (fail_refused run (by decide)).1 attached
        · exact absurd (fail_refused run (by decide)).1 attached
        refine success _ ?_ run
        simp only [Bool.not_eq_true, Option.not_isSome, Option.isNone_iff_eq_none] at taken
        simp [linkXdpAnswer, taken]
  · exact absurd (fail_refused run e.pos).1 attached

/-- Any attach or detach keeps the pins and the interface names, and uses up outcomes. -/
theorem bpfSetLinkXdpFd_frame {ifindex fd : Int} {flags : XdpFlags} {ret : Int}
    (run : bpfSetLinkXdpFd ifindex fd flags w = some (ret, w')) :
    w'.pins = w.pins ∧ w'.links = w.links ∧ w'.outcomes <:+ w.outcomes := by
  obtain ⟨⟨outcome, w₁⟩, popped, run⟩ := Option.bind_eq_some.mp run
  have same := nextOutcome_keepsXdp w _ _ popped
  suffices kept : w'.pins = w₁.pins ∧ w'.links = w₁.links ∧ w'.outcomes = w₁.outcomes from
    ⟨kept.1.trans same.pins, kept.2.1.trans same.links, kept.2.2 ▸ same.consumed⟩
  rcases outcome with _ | e
  · simp only [Sys.bind_apply, Sys.get_apply, Option.some_bind] at run
    split_ifs at run <;>
    · cases run
      exact ⟨rfl, rfl, rfl⟩
  · cases run
    exact ⟨rfl, rfl, rfl⟩

/-- A handle `bpf_obj_get` opened is on the object pinned at the path. -/
theorem bpfObjGet_lookup {path : Path} {fd : Int} (run : bpfObjGet path w = some (fd, w')) (valid : 0 ≤ fd) :
    ∃ id, w.pins path = some id ∧ w'.lookupFd fd = some id := by
  obtain ⟨⟨outcome, w₁⟩, popped, run⟩ := Option.bind_eq_some.mp run
  have same := nextOutcome_keepsXdp w _ _ popped
  rcases outcome with _ | e
  · simp only [Sys.bind_apply, Sys.get_apply, Option.some_bind] at run
    cases pinned : w₁.pins path with
    | none =>
      rw [pinned] at run
      cases run
      exact absurd valid (by decide)
    | some id =>
      rw [pinned] at run
      cases run
      exact ⟨id, same.pins ▸ pinned, by simp⟩
  · cases run
    exact absurd valid (by simp)

/-- A successful `xdp_attach_prog_to_port` attached the program pinned at the path, which
the interface then reports. -/
theorem xdpAttachProgToPort_reports {ctx : NikssContext} {ifindex fd : Int} {prog : String}
    (run : xdpAttachProgToPort ctx ifindex prog w = some ((NO_ERROR, fd), w')) :
    ∃ id : ℕ+, w.pins (buildEbpfProgFilename ctx prog) = some id ∧
      linkXdpAnswer none (w'.iface ifindex) = (0, (id : Nat)) ∧
      w'.pins = w.pins ∧ w'.links = w.links ∧ w'.outcomes <:+ w.outcomes := by
  obtain ⟨⟨fd₀, w₁⟩, opened, run⟩ := Option.bind_eq_some.mp run
  have same₁ := bpfObjGet_keepsXdp _ w _ _ opened
  by_cases negative : fd₀ < 0
  · simp only [negative, if_true, getErrno, Sys.bind_apply, Sys.get_apply, Option.some_bind,
      Sys.pure_apply, Option.some.injEq, Prod.mk.injEq] at run
    rcases bpfObjGet_cases opened with ⟨-, failed⟩ | ⟨valid, -⟩
    · have answered := run.1.1
      simp only [NO_ERROR] at answered
      exact (failed (by omega)).elim
    · exact absurd valid (not_le.mpr negative)
  have valid := not_lt.mp negative
  obtain ⟨id, pinned, handle⟩ := bpfObjGet_lookup opened valid
  -- the attach that succeeded, from a world with the handle still open on the program
  have reported {w₂ w₃ : World} {flags : XdpFlags} {ret : Int} (mode : flags ≠ .none)
      (handle₂ : w₂.lookupFd fd₀ = some id) (kept : w₂.pins = w.pins ∧ w₂.links = w.links ∧ w₂.outcomes <:+ w.outcomes)
      (attach : bpfSetLinkXdpFd ifindex fd₀ flags w₂ = some (ret, w₃)) (attached : ¬ ret < 0) :
      ∃ id : ℕ+, w.pins (buildEbpfProgFilename ctx prog) = some id ∧
        linkXdpAnswer none (w₃.iface ifindex) = (0, (id : Nat)) ∧
        w₃.pins = w.pins ∧ w₃.links = w.links ∧ w₃.outcomes <:+ w.outcomes := by
    obtain ⟨id', handle', linked, pins, links, consumed⟩ := bpfSetLinkXdpFd_reports attach mode valid attached
    cases handle'.symm.trans handle₂
    exact ⟨id, pinned, linked, pins.trans kept.1, links.trans kept.2.1, consumed.trans kept.2.2⟩
  simp only [negative, if_false, pure_bind, Sys.bind_apply, Option.bind_eq_some] at run
  obtain ⟨⟨ret, w₂⟩, drv, run⟩ := run
  have kept₁ : w₁.pins = w.pins ∧ w₁.links = w.links ∧ w₁.outcomes <:+ w.outcomes :=
    ⟨same₁.pins, same₁.links, same₁.consumed⟩
  by_cases fallback : ret = -(EOPNOTSUPP : Int)
  · simp only [fallback, ne_eq, not_true_eq_false, if_false, pure_bind, Sys.bind_apply,
      Option.bind_eq_some] at run
    obtain ⟨⟨ret', w₃⟩, skb, run⟩ := run
    by_cases failed : ret' < 0
    · simp only [failed, if_true] at run
      exact absurd (bind_pure_fst run) (by simp [NO_ERROR]; omega)
    simp only [failed, if_false, Sys.pure_apply, Option.some.injEq, Prod.mk.injEq] at run
    obtain ⟨-, rfl⟩ := run
    obtain ⟨pins₂, links₂, consumed₂⟩ := bpfSetLinkXdpFd_frame drv
    have handle₂ : w₂.lookupFd fd₀ = some id := by
      simpa only [World.lookupFd, (bpfSetLinkXdpFd_steady _ _ _ w₁ _ _ drv).fds] using handle
    exact reported (by decide) handle₂ ⟨pins₂.trans kept₁.1, links₂.trans kept₁.2.1,
      consumed₂.trans kept₁.2.2⟩ skb failed
  · simp only [fallback, ne_eq, not_false_eq_true, if_true] at run
    by_cases failed : ret < 0
    · simp only [failed, if_true] at run
      exact absurd (bind_pure_fst run) (by simp [NO_ERROR]; omega)
    simp only [failed, if_false, Sys.pure_apply, Option.some.injEq, Prod.mk.injEq] at run
    obtain ⟨-, rfl⟩ := run
    exact reported (by decide) handle kept₁ drv failed

/-- The program `add_port` attaches and the listing dates, as both pick it when nothing fails
from outside: the helper when it is pinned, the XDP ingress program otherwise. -/
def pipelineXdpProg (defs : BpfDefs) (ctx : NikssContext) (w : World) : String :=
  if (w.pins (buildEbpfProgFilename ctx defs.xdpHelperProg)).isSome then defs.xdpHelperProg
  else defs.xdpIngressProg

/-- The interface `if_nametoindex` finds: an entry of the table named so, under a nonzero
index. -/
theorem ifNametoindex_found {links : List (Nat × String)} {interface : String}
    (named : uint32ToInt (((links.find? fun link => link.2 = interface).map Prod.fst).getD 0) ≠ 0) :
    ∃ k, (k, interface) ∈ links ∧
      uint32ToInt (((links.find? fun link => link.2 = interface).map Prod.fst).getD 0) = uint32ToInt k := by
  cases found : links.find? fun link => link.2 = interface with
  | none => simp [found, uint32ToInt] at named
  | some link =>
    obtain ⟨k, name⟩ := link
    have same : name = interface := by simpa using List.find?_some found
    subst same
    exact ⟨k, List.mem_of_find?_eq_some found, rfl⟩

/-- With nothing failing from outside, a successful `add_port` found the interface in the
table and attached the program `pipelineXdpProg` picks, which the interface reports; pins,
names and the empty outcome sequence are kept. -/
theorem nikssPipelineAddPort_quiet_reports {defs : BpfDefs} {ctx : NikssContext} {interface : String}
    {ifindex : Int} (quiet : w.outcomes = [])
    (run : nikssPipelineAddPort defs ctx interface w = some ((NO_ERROR, some ifindex), w')) :
    ∃ k, (k, interface) ∈ w.links ∧ uint32ToInt k = ifindex ∧ ∃ id : ℕ+,
      w.pins (buildEbpfProgFilename ctx (pipelineXdpProg defs ctx w)) = some id ∧
      linkXdpAnswer none (w'.iface ifindex) = (0, (id : Nat)) ∧
      w'.pins = w.pins ∧ w'.links = w.links ∧ w'.outcomes = [] := by
  obtain ⟨⟨helper, w₁⟩, accessed, run⟩ := Option.bind_eq_some.mp run
  rw [access_quiet quiet] at accessed
  have kept₁ : w₁.pins = w.pins ∧ w₁.links = w.links ∧ w₁.outcomes = [] ∧
      pipelineXdpProg defs ctx w = if helper ≠ 0 then defs.xdpIngressProg else defs.xdpHelperProg := by
    unfold pipelineXdpProg
    cases pinned : w.pins (buildEbpfProgFilename ctx defs.xdpHelperProg) <;>
      rw [pinned] at accessed <;> cases accessed <;> simp [quiet, ENOENT]
  obtain ⟨pins₁, links₁, quiet₁, flavour⟩ := kept₁
  -- what both flavours end with: the attach of the flavour's program, and the XDP state kept
  have finish {prog : String} (picked : pipelineXdpProg defs ctx w = prog) {i fd : Int} {w₂ w₃ : World}
      (attached : xdpAttachProgToPort ctx i prog w₁ = some ((NO_ERROR, fd), w₃)) (same : w₃.SameXdp w₂) :
      ∃ id : ℕ+, w.pins (buildEbpfProgFilename ctx (pipelineXdpProg defs ctx w)) = some id ∧
        linkXdpAnswer none (w₂.iface i) = (0, (id : Nat)) ∧
        w₂.pins = w.pins ∧ w₂.links = w.links ∧ w₂.outcomes = [] := by
    obtain ⟨id, pinned, linked, pins₃, links₃, consumed₃⟩ := xdpAttachProgToPort_reports attached
    refine ⟨id, picked ▸ pins₁ ▸ pinned, ?_, same.pins.trans (pins₃.trans pins₁),
      same.links.trans (links₃.trans links₁), same.quiet (List.suffix_nil.mp (quiet₁ ▸ consumed₃))⟩
    simpa only [World.iface, same.xdpDrv, same.xdpSkb, linkXdpAnswer] using linked
  simp only [ifNametoindex, Sys.bind_apply, Sys.get_apply, Sys.pure_apply, Option.some_bind] at run
  split_ifs at run with named xdp
  · simp at run
  all_goals
    obtain ⟨⟨ret, w₂⟩, added, result⟩ := Option.bind_eq_some.mp run
    simp only [Sys.pure_apply, Option.some.injEq, Prod.mk.injEq] at result
    obtain ⟨⟨rfl, rfl⟩, rfl⟩ := result
    obtain ⟨k, listed, index⟩ := ifNametoindex_found named
    rw [links₁] at listed
    refine ⟨k, listed, index.symm, ?_⟩
  · obtain ⟨fd, w₃, attached, same⟩ := xdpPortAdd_attached added
    exact finish (by rw [flavour, if_pos xdp]) attached same
  · obtain ⟨fd, w₃, attached, same⟩ := tcPortAdd_attached added
    exact finish (by rw [flavour, if_neg xdp]) attached same

/-- With nothing failing from outside, `nikss_port_list_init` records the id of the program
`pipelineXdpProg` picks, when that program is pinned and its object is there. -/
theorem nikssPortListInit_quiet (defs : BpfDefs) (ctx : NikssContext) (quiet : w.outcomes = []) {id : ℕ+}
    (pinned : w.pins (buildEbpfProgFilename ctx (pipelineXdpProg defs ctx w)) = some id)
    (present : (w.objects id).isSome) :
    ∃ w', nikssPortListInit defs ctx w = some ((NO_ERROR, ⟨some w.links, none, id⟩), w') ∧
      w'.iface = w.iface ∧ w'.outcomes = [] := by
  obtain ⟨object, found⟩ := Option.isSome_iff_exists.mp present
  have valid : (0 : Int) ≤ w.nextFd := Int.natCast_nonneg _
  unfold pipelineXdpProg at pinned
  cases helper : w.pins (buildEbpfProgFilename ctx defs.xdpHelperProg) with
  | none =>
    simp only [helper, Option.isSome_none, Bool.false_eq_true, if_false] at pinned
    let opened := ({ w with errno := ENOENT } : World).withHandle id
    refine ⟨{ opened with fds := Function.update opened.fds w.nextFd none }, ?_, rfl, quiet⟩
    have failed : 0 < ENOENT := by decide
    simp [nikssPortListInit, ifNameindex, nextOutcome_quiet quiet, openPipelineProgram, openProgByName,
      bpfObjGet_quiet quiet, helper, failed, bpfObjGet_quiet (w := { w with errno := ENOENT }) quiet, pinned,
      not_lt.mpr valid, bpfObjGetInfoByFd_quiet (w := ({ w with errno := ENOENT } : World).withHandle id) quiet,
      found, close, infoId, opened]
  | some helperId =>
    simp only [helper, Option.isSome_some, if_true, Option.some.injEq] at pinned
    subst pinned
    refine ⟨{ w.withHandle helperId with fds := Function.update (w.withHandle helperId).fds w.nextFd none },
      ?_, rfl, quiet⟩
    simp [nikssPortListInit, ifNameindex, nextOutcome_quiet quiet, openPipelineProgram, openProgByName,
      bpfObjGet_quiet quiet, helper, not_lt.mpr valid,
      bpfObjGetInfoByFd_quiet (w := w.withHandle helperId) quiet, found, close, infoId]

/-- An entry of the table whose query, meeting no failure, answers the program is among the
ports the listing yields. -/
theorem mem_portsRunning {xdpProgId : Nat} {iface : Int → Iface} :
    ∀ {table : List (Nat × String)} {entry : Nat × String}, entry ∈ table →
      AnswersProgram xdpProgId (linkXdpAnswer none (iface (uint32ToInt entry.1))) →
      entry ∈ portsRunning xdpProgId iface [] table
  | (ifindex, name) :: table, entry, mem, answers => by
    unfold portsRunning
    split_ifs with answered
    · rcases List.mem_cons.mp mem with rfl | later
      · exact List.mem_cons_self _ _
      · exact List.mem_cons_of_mem _ (mem_portsRunning later answers)
    · rcases List.mem_cons.mp mem with rfl | later
      · exact absurd answers answered
      · exact mem_portsRunning later answers

/-- A port added is listed. With nothing failing from outside, after `add_port` succeeds on
an interface, the pipeline's listing finds it: `nikss_port_list_init` succeeds, and the
calls of `nikss_port_list_get_next_port` that follow return the interface, under its index
in the table, before they return NULL. The flavour `add_port` reads with `access` and the
one the listing reads with `bpf_obj_get` agree because nothing fails; the interface table
has no index 0 (which ends the walk), and the pinned objects are there. -/
theorem nikssPipelineAddPort_listed (defs : BpfDefs) (ctx : NikssContext) (interface : String)
    {w w' : World} {ifindex : Int} (quiet : w.outcomes = [])
    (present : ∀ path id, w.pins path = some id → (w.objects id).isSome)
    (indexed : ∀ entry ∈ w.links, 1 ≤ entry.1)
    (added : nikssPipelineAddPort defs ctx interface w = some ((NO_ERROR, some ifindex), w')) :
    ∃ k list w₁, uint32ToInt k = ifindex ∧ nikssPortListInit defs ctx w' = some ((NO_ERROR, list), w₁) ∧
      ∃ (ports : List (Nat × String)) (w₂ : World), nextPorts (ports.length + 1) list w₁ = some ((ports.map some ++ [none], list), w₂) ∧
        (k, interface) ∈ ports := by
  obtain ⟨k, listed, index, id, pinned, linked, pins, links, quiet'⟩ :=
    nikssPipelineAddPort_quiet_reports quiet added
  have objects : w'.objects = w.objects :=
    (nikssPipelineAddPort_handles defs ctx interface (World.HandlesSince.any w) _ _ added).objects
  have picked : pipelineXdpProg defs ctx w' = pipelineXdpProg defs ctx w := by
    simp only [pipelineXdpProg, pins]
  obtain ⟨w₁, init, iface, quiet₁⟩ := nikssPortListInit_quiet defs ctx quiet'
    (by rw [picked, pins]; exact pinned) (by rw [objects]; exact present _ _ pinned)
  obtain ⟨w₂, calls⟩ := @nextPorts_from_cursor w'.links id (by rw [links]; exact indexed) _ none w₁ rfl
  refine ⟨k, _, w₁, index, init, _, w₂, calls, ?_⟩
  rw [quiet₁, iface, links]
  refine mem_portsRunning listed ?_
  rw [index, linked]
  exact ⟨rfl, id.ne_zero, rfl⟩

set_option maxRecDepth 4000 in
set_option smartUnfolding false in
/-- `nikssPipelineAddPort_listed` on an XDP pipeline: the listing finds no helper, dates the
XDP ingress program `add_port` attached, and yields the interface. -/
theorem nikssPipelineAddPort_listed_on_xdp_pipeline :
    let defs : BpfDefs := ⟨"tc-ingress", "tc-egress", "xdp-ingress", "xdp-egress",
      "xdp-egress-optimized", "xdp-helper", "tc-init", "xdp-init", "devmap", "jump-table",
      by decide⟩
    let w : World :=
      { World.boot (fun _ => none) [(1, "eth0")] (fun _ => .bare true) [] with
        pins := fun path =>
          if path = .prog 0 "xdp-ingress" then some 1 else if path = .map 0 "devmap" then some 2
          else if path = .prog 0 "tc-ingress" then some 3 else none
        objects := fun id =>
          if id = 2 then some (.map ⟨14, 4, 8, 4, 0, 0⟩) else if id ≤ 3 then some (.prog 0) else none
        nextId := 4 }
    w.outcomes = [] ∧ (∀ path id, w.pins path = some id → (w.objects id).isSome) ∧
      (∀ entry ∈ w.links, 1 ≤ entry.1) ∧
      ∃ w', nikssPipelineAddPort defs ⟨0⟩ "eth0" w = some ((NO_ERROR, some 1), w') ∧
        ∃ k list w₁, uint32ToInt k = 1 ∧ nikssPortListInit defs ⟨0⟩ w' = some ((NO_ERROR, list), w₁) ∧
          ∃ (ports : List (Nat × String)) (w₂ : World),
            nextPorts (ports.length + 1) list w₁ = some ((ports.map some ++ [none], list), w₂) ∧
            (k, "eth0") ∈ ports := by
  intro defs w
  have present : ∀ path id, w.pins path = some id → (w.objects id).isSome := by
    intro path id pinned
    simp only [w] at pinned
    split_ifs at pinned <;> cases pinned <;> rfl
  have indexed : ∀ entry ∈ w.links, 1 ≤ entry.1 := by decide
  obtain ⟨w', added⟩ : ∃ w', nikssPipelineAddPort defs ⟨0⟩ "eth0" w = some ((NO_ERROR, some 1), w') :=
    ⟨_, rfl⟩
  exact ⟨rfl, present, indexed, w', added, nikssPipelineAddPort_listed defs ⟨0⟩ "eth0" rfl present indexed added⟩

end Nikss
