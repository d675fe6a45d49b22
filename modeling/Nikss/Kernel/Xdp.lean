import Nikss.Kernel.Quiet

/-! # What calls do to the XDP state

`World.SameXdp w w'` says that `w'` has the pins, the interface names and every
interface's XDP state (native support, driver-mode and generic-mode program) of `w`,
and that it only used up outcomes of `w`'s sequence.
`KeepsXdp m` says that every run of `m`, whatever the outcome sequence, keeps it. It is
built up by the rules of this file (`pure`, `bind`, reading the state, `if`), so that a
proof for an operation of the library follows the operation's own code and never
unfolds a call.

Every call but `bpf_set_link_xdp_fd` keeps the XDP state; what that one does is given
for the two modes `xdp_attach_prog_to_port` uses:

* `bpfSetLinkXdpFd_drvMode_refused` — a driver-mode attach fails on an interface whose
  driver lacks native XDP and which has no driver-mode program;
* `bpfSetLinkXdpFd_skbMode_attached` — a generic-mode attach that does not fail leaves a
  program in generic mode;
* `bpfSetLinkXdpFd_drvMode_exists` — a driver-mode attach is refused with `EEXIST` while
  a generic-mode program is there.
-/

namespace Nikss

/-- `w'` has the pins, the interface names and the XDP state of every interface of `w`,
and what is left of its outcome sequence is a suffix of `w`'s. -/
structure World.SameXdp (w w' : World) : Prop where
  pins : w'.pins = w.pins
  links : w'.links = w.links
  ndoBpf : ∀ i, (w'.ifaces i).ndoBpf = (w.ifaces i).ndoBpf
  xdpDrv : ∀ i, (w'.ifaces i).xdpDrv = (w.ifaces i).xdpDrv
  xdpSkb : ∀ i, (w'.ifaces i).xdpSkb = (w.ifaces i).xdpSkb
  consumed : w'.outcomes <:+ w.outcomes

namespace World.SameXdp

variable {w w₁ w₂ : World}

theorem of_ifaces (pins : w₁.pins = w.pins) (links : w₁.links = w.links)
    (ifaces : w₁.ifaces = w.ifaces) (outcomes : w₁.outcomes = w.outcomes) : w.SameXdp w₁ :=
  ⟨pins, links, fun _ => by rw [ifaces], fun _ => by rw [ifaces], fun _ => by rw [ifaces],
    outcomes ▸ List.suffix_refl _⟩

theorem refl (w : World) : w.SameXdp w := of_ifaces rfl rfl rfl rfl

theorem trans (first : w.SameXdp w₁) (second : w₁.SameXdp w₂) : w.SameXdp w₂ :=
  ⟨second.pins.trans first.pins, second.links.trans first.links,
    fun i => (second.ndoBpf i).trans (first.ndoBpf i),
    fun i => (second.xdpDrv i).trans (first.xdpDrv i),
    fun i => (second.xdpSkb i).trans (first.xdpSkb i), second.consumed.trans first.consumed⟩

/-- Nothing outside fails after a run that started where nothing does. -/
theorem quiet (same : w.SameXdp w₁) (quiet : w.outcomes = []) : w₁.outcomes = [] :=
  List.suffix_nil.mp (quiet ▸ same.consumed)

end World.SameXdp

/-- The interface's XDP program, if it has one, is in the mode its driver picks when no
mode is given: driver mode on a driver with native XDP, generic mode otherwise. -/
def Iface.DefaultMode (iface : Iface) : Prop :=
  if iface.ndoBpf then iface.xdpSkb = none else iface.xdpDrv = none

instance (iface : Iface) : Decidable iface.DefaultMode :=
  inferInstanceAs (Decidable (if iface.ndoBpf then _ else _))

theorem World.SameXdp.defaultMode {w w' : World} (same : w.SameXdp w') {ifindex : Int}
    (default : (w.iface ifindex).DefaultMode) : (w'.iface ifindex).DefaultMode := by
  simpa only [Iface.DefaultMode, World.iface, same.ndoBpf, same.xdpDrv, same.xdpSkb] using default

/-- Changing an interface's TC state keeps the XDP state. -/
theorem World.sameXdp_setIface {w : World} {ifindex : Int} {iface : Iface}
    (ndoBpf : iface.ndoBpf = (w.iface ifindex).ndoBpf)
    (xdpDrv : iface.xdpDrv = (w.iface ifindex).xdpDrv)
    (xdpSkb : iface.xdpSkb = (w.iface ifindex).xdpSkb) : w.SameXdp (w.setIface ifindex iface) := by
  refine ⟨rfl, rfl, fun i => ?_, fun i => ?_, fun i => ?_, List.suffix_refl _⟩ <;>
  · by_cases same : i = ifindex.toNat
    · subst same
      simpa [World.setIface] using ‹_›
    · simp [World.setIface, Function.update_noteq same]

/-! ## Computations that keep the XDP state -/

section Frame

variable {α β : Type}

/-- A run of `m` from `w` keeps the XDP state. -/
def KeepsXdpFrom (w : World) (m : Sys α) : Prop := ∀ r w', m w = some (r, w') → w.SameXdp w'

/-- Every run of `m` keeps the XDP state. -/
def KeepsXdp (m : Sys α) : Prop := ∀ w, KeepsXdpFrom w m

namespace KeepsXdp

theorem pure (a : α) : KeepsXdp (pure a : Sys α) := by
  rintro w r w' ⟨⟩
  exact .refl w

theorem bind {m : Sys α} {f : α → Sys β} (first : KeepsXdp m) (rest : ∀ a, KeepsXdp (f a)) :
    KeepsXdp (m >>= f) := by
  intro w r w' run
  obtain ⟨⟨a, w₁⟩, ran, continued⟩ := Option.bind_eq_some.mp run
  exact (first w a w₁ ran).trans (rest a w₁ r w' continued)

/-- After reading the state, the rest need keep the XDP state only from the state read. -/
theorem get_bind {f : World → Sys β} (rest : ∀ w, KeepsXdpFrom w (f w)) :
    KeepsXdp (MonadState.get >>= f) :=
  fun w r w' run => rest w r w' run

theorem liftM (x : Option α) : KeepsXdp (liftM x : Sys α) := by
  intro w r w' run
  obtain ⟨_, -, ⟨⟩⟩ := Option.map_eq_some'.mp ((Sys.liftM_apply w x).symm.trans run)
  exact .refl w

theorem ite {c : Prop} [Decidable c] {a b : Sys α} (yes : KeepsXdp a) (no : KeepsXdp b) :
    KeepsXdp (if c then a else b) := by
  split
  · exact yes
  · exact no

end KeepsXdp

end Frame

/-! ## Calls that keep the XDP state -/

theorem nextOutcome_keepsXdp : KeepsXdp nextOutcome := by
  intro w r w' run
  unfold nextOutcome at run
  split at run <;> cases run
  · exact .refl w
  · exact ⟨rfl, rfl, fun _ => rfl, fun _ => rfl, fun _ => rfl, by simp [*]⟩

theorem fail_keepsXdp (e : Nat) : KeepsXdp (fail e) := by
  rintro w r w' ⟨⟩
  exact .of_ifaces rfl rfl rfl rfl

theorem crash_keepsXdp {α : Type} : KeepsXdp (crash : Sys α) := by
  rintro w r w' ⟨⟩

theorem getErrno_keepsXdp : KeepsXdp getErrno := KeepsXdp.get_bind fun w => KeepsXdp.pure _ w

theorem close_keepsXdp (fd : Int) : KeepsXdp (close fd) := by
  rintro w r w' ⟨⟩
  split <;> exact .of_ifaces rfl rfl rfl rfl

theorem closeObjectFd_keepsXdp (fd : Int) : KeepsXdp (closeObjectFd fd) :=
  .ite (.pure _) ((close_keepsXdp fd).bind fun _ => .pure _)

theorem bpfObjGet_keepsXdp (path : Path) : KeepsXdp (bpfObjGet path) := by
  refine nextOutcome_keepsXdp.bind fun outcome => ?_
  rcases outcome with _ | e
  · refine KeepsXdp.get_bind fun w => ?_
    split
    · exact fail_keepsXdp _ w
    · rintro r w' ⟨⟩
      exact .of_ifaces rfl rfl rfl rfl
  · exact fail_keepsXdp e

theorem bpfObjGetInfoByFd_keepsXdp (fd : Int) : KeepsXdp (bpfObjGetInfoByFd fd) := by
  refine nextOutcome_keepsXdp.bind fun outcome => ?_
  rcases outcome with _ | e
  · refine KeepsXdp.get_bind fun w => ?_
    split
    · exact (fail_keepsXdp _).bind (fun _ => .pure _) w
    · split
      · exact (fail_keepsXdp _).bind (fun _ => .pure _) w
      · exact KeepsXdp.pure _ w
  · exact (fail_keepsXdp e).bind fun _ => .pure _

theorem bpfMapUpdateElem_keepsXdp (fd : Int) (key : Nat) (value : UserValue) :
    KeepsXdp (bpfMapUpdateElem fd key value) := by
  refine nextOutcome_keepsXdp.bind fun outcome => ?_
  rcases outcome with _ | e
  · refine KeepsXdp.get_bind fun w => ?_
    dsimp only
    split
    · split
      · exact fail_keepsXdp _ w
      · split
        · exact fail_keepsXdp _ w
        · rintro r w' ⟨⟩
          exact .of_ifaces rfl rfl rfl rfl
    · exact fail_keepsXdp _ w
  · exact fail_keepsXdp e

theorem access_keepsXdp (path : Path) : KeepsXdp (access path) := by
  refine nextOutcome_keepsXdp.bind fun outcome => ?_
  rcases outcome with _ | e
  · refine KeepsXdp.get_bind fun w => ?_
    split
    · exact fail_keepsXdp _ w
    · exact KeepsXdp.pure _ w
  · exact fail_keepsXdp e

theorem ifNametoindex_keepsXdp (name : String) : KeepsXdp (ifNametoindex name) :=
  KeepsXdp.get_bind fun w => KeepsXdp.pure _ w

theorem bpfTcHookCreate_keepsXdp (ifindex : Int) : KeepsXdp (bpfTcHookCreate ifindex) := by
  refine nextOutcome_keepsXdp.bind fun outcome => ?_
  rcases outcome with _ | e
  · refine KeepsXdp.get_bind fun w => ?_
    dsimp only
    split
    · exact fail_keepsXdp _ w
    · rintro r w' ⟨⟩
      exact World.sameXdp_setIface rfl rfl rfl
  · exact fail_keepsXdp e

theorem bpfTcAttach_keepsXdp (ifindex : Int) (point : TcAttachPoint) (fd : Int) :
    KeepsXdp (bpfTcAttach ifindex point fd) := by
  refine nextOutcome_keepsXdp.bind fun outcome => ?_
  rcases outcome with _ | e
  · refine KeepsXdp.get_bind fun w => ?_
    dsimp only
    split
    · exact fail_keepsXdp _ w
    · split
      · exact fail_keepsXdp _ w
      · rintro r w' ⟨⟩
        cases point <;> exact World.sameXdp_setIface rfl rfl rfl
  · exact fail_keepsXdp e

theorem updateMapInfo_keepsXdp (md : MapDescriptor) : KeepsXdp (updateMapInfo md) := by
  refine .ite (.pure _) <| (bpfObjGetInfoByFd_keepsXdp _).bind fun ⟨_, _⟩ => ?_
  dsimp only
  split
  · exact getErrno_keepsXdp.bind fun _ => .pure _
  · split <;> exact .pure _

theorem openBpfMap_keepsXdp (ctx : NikssContext) (name : String) (btf : Option Btf) :
    KeepsXdp (openBpfMap ctx name btf) := by
  refine (bpfObjGet_keepsXdp _).bind fun _ => .ite (getErrno_keepsXdp.bind fun _ => .pure _) <|
    (updateMapInfo_keepsXdp _).bind fun ⟨_, _⟩ => ?_
  dsimp only
  refine .ite (.pure _) ?_
  split
  · exact .pure _
  · exact (KeepsXdp.liftM _).bind fun _ => .pure _

/-! ## What the calls answer -/

section Answers

variable {ifindex fd ret : Int} {w w' : World}

/-- A failed call returns `-errno`, negative for a positive errno, and keeps the XDP state. -/
theorem fail_refused {e : Nat} (run : fail e w = some (ret, w')) (pos : 0 < e) :
    ret < 0 ∧ w.SameXdp w' := by
  cases run
  exact ⟨by omega, .of_ifaces rfl rfl rfl rfl⟩

/-- `bpf_obj_get` either fails, with `errno` set, or opens a handle on a pinned object. -/
theorem bpfObjGet_cases {path : Path} (run : bpfObjGet path w = some (fd, w')) :
    fd < 0 ∧ w'.errno ≠ 0 ∨ 0 ≤ fd ∧ (w.pins path).isSome := by
  obtain ⟨⟨outcome, w₁⟩, popped, run⟩ := Option.bind_eq_some.mp run
  have same := nextOutcome_keepsXdp w _ _ popped
  rcases outcome with _ | e
  · simp only [Sys.bind_apply, Sys.get_apply, Option.some_bind] at run
    cases pinned : w₁.pins path with
    | none =>
      rw [pinned] at run
      cases run
      exact .inl ⟨by decide, by simp [ENOENT]⟩
    | some id =>
      rw [pinned] at run
      cases run
      exact .inr ⟨Int.natCast_nonneg _, by simp [← same.pins, pinned]⟩
  · cases run
    exact .inl ⟨by simp, by simp⟩

/-- `access` answers 0 only for a pinned path. -/
theorem access_pinned {path : Path} (run : access path w = some (0, w')) : (w.pins path).isSome := by
  obtain ⟨⟨outcome, w₁⟩, popped, run⟩ := Option.bind_eq_some.mp run
  have same := nextOutcome_keepsXdp w _ _ popped
  rcases outcome with _ | e
  · simp only [Sys.bind_apply, Sys.get_apply, Option.some_bind] at run
    cases pinned : w₁.pins path with
    | none =>
      rw [pinned] at run
      exact absurd (fail_refused run (by decide)).1 (lt_irrefl 0)
    | some id => simp [← same.pins, pinned]
  · exact absurd (fail_refused run e.pos).1 (lt_irrefl 0)

/-- The kernel refuses a driver-mode attach on an interface whose driver lacks native XDP
and which has no driver-mode program. -/
theorem bpfSetLinkXdpFd_drvMode_refused
    (run : bpfSetLinkXdpFd ifindex fd .drvMode w = some (ret, w')) (valid : 0 ≤ fd)
    (generic : (w.iface ifindex).ndoBpf = false) (noDrv : (w.iface ifindex).xdpDrv = none) :
    ret < 0 ∧ w.SameXdp w' := by
  obtain ⟨⟨outcome, w₁⟩, popped, run⟩ := Option.bind_eq_some.mp run
  have same := nextOutcome_keepsXdp w _ _ popped
  suffices refused : ret < 0 ∧ w₁.SameXdp w' from ⟨refused.1, same.trans refused.2⟩
  rcases outcome with _ | e
  · have generic₁ : (w₁.iface ifindex).ndoBpf = false := (same.ndoBpf _).trans generic
    have noDrv₁ : (w₁.iface ifindex).xdpDrv = none := (same.xdpDrv _).trans noDrv
    simp only [Sys.bind_apply, Sys.get_apply, Option.some_bind, generic₁, noDrv₁, valid, true_and,
      reduceCtorEq, false_and, true_or, if_true, if_false, Option.isSome_none, Bool.false_eq_true,
      not_false_eq_true, and_true] at run
    split_ifs at run <;> exact fail_refused run (by decide)
  · exact fail_refused run e.pos

/-- A generic-mode attach that does not fail leaves a program in generic mode. -/
theorem bpfSetLinkXdpFd_skbMode_attached
    (run : bpfSetLinkXdpFd ifindex fd .skbMode w = some (ret, w')) (valid : 0 ≤ fd)
    (attached : ¬ ret < 0) :
    w'.pins = w.pins ∧ w'.links = w.links ∧ ((w'.iface ifindex).xdpSkb).isSome := by
  obtain ⟨⟨outcome, w₁⟩, popped, run⟩ := Option.bind_eq_some.mp run
  have same := nextOutcome_keepsXdp w _ _ popped
  rcases outcome with _ | e
  · simp only [Sys.bind_apply, Sys.get_apply, Option.some_bind, valid, true_and,
      reduceCtorEq, false_and, false_or, and_false, if_true, if_false, not_false_eq_true] at run
    split_ifs at run with opened
    all_goals try exact absurd (fail_refused run (by decide)).1 attached
    cases run
    refine ⟨same.pins, same.links, ?_⟩
    simpa [World.iface, World.setIface, Option.isSome_iff_ne_none] using opened
  · exact absurd (fail_refused run e.pos).1 attached

/-- With nothing failing from outside, a driver-mode attach is refused with `EEXIST` while
a program is attached in generic mode. -/
theorem bpfSetLinkXdpFd_drvMode_exists (quiet : w.outcomes = []) (valid : 0 ≤ fd)
    (opened : (w.lookupFd fd).isSome) (generic : ((w.iface ifindex).xdpSkb).isSome) :
    bpfSetLinkXdpFd ifindex fd .drvMode w = some (-(EEXIST : Int), { w with errno := EEXIST }) := by
  simp [bpfSetLinkXdpFd, nextOutcome_quiet quiet, valid, generic,
    Option.ne_none_iff_isSome.mpr opened, fail]

/-! With nothing failing from outside, on a handle `fd` open on program `id`: -/

/-- a driver-mode attach on a driver with native XDP and no generic-mode program succeeds, -/
theorem bpfSetLinkXdpFd_drvMode_native {id : ℕ+} (quiet : w.outcomes = []) (valid : 0 ≤ fd)
    (opened : w.lookupFd fd = some id) (native : (w.iface ifindex).ndoBpf = true)
    (noSkb : (w.iface ifindex).xdpSkb = none) :
    bpfSetLinkXdpFd ifindex fd .drvMode w =
      some (0, w.setIface ifindex { w.iface ifindex with xdpDrv := some id }) := by
  simp [bpfSetLinkXdpFd, nextOutcome_quiet quiet, valid, opened, native, noSkb]

/-- one on a driver without it answers `EOPNOTSUPP`, -/
theorem bpfSetLinkXdpFd_drvMode_generic {id : ℕ+} (quiet : w.outcomes = []) (valid : 0 ≤ fd)
    (opened : w.lookupFd fd = some id) (generic : (w.iface ifindex).ndoBpf = false)
    (noDrv : (w.iface ifindex).xdpDrv = none) (noSkb : (w.iface ifindex).xdpSkb = none) :
    bpfSetLinkXdpFd ifindex fd .drvMode w =
      some (-(EOPNOTSUPP : Int), { w with errno := EOPNOTSUPP }) := by
  simp [bpfSetLinkXdpFd, nextOutcome_quiet quiet, valid, opened, generic, noDrv, noSkb, fail]

/-- and a generic-mode attach without a driver-mode program succeeds. -/
theorem bpfSetLinkXdpFd_skbMode_generic {id : ℕ+} (quiet : w.outcomes = []) (valid : 0 ≤ fd)
    (opened : w.lookupFd fd = some id) (noDrv : (w.iface ifindex).xdpDrv = none) :
    bpfSetLinkXdpFd ifindex fd .skbMode w =
      some (0, w.setIface ifindex { w.iface ifindex with xdpSkb := some id }) := by
  simp [bpfSetLinkXdpFd, nextOutcome_quiet quiet, valid, opened, noDrv]

/-- With nothing failing from outside, detaching with no mode given removes a program in
the driver's default mode, and leaves the interface without XDP program. -/
theorem bpfSetLinkXdpFd_detach (quiet : w.outcomes = []) (default : (w.iface ifindex).DefaultMode) :
    bpfSetLinkXdpFd ifindex (-1) .none w =
      some (0, w.setIface ifindex { w.iface ifindex with xdpDrv := none, xdpSkb := none }) := by
  cases native : (w.iface ifindex).ndoBpf <;> simp [Iface.DefaultMode, native] at default <;>
    simp [bpfSetLinkXdpFd, nextOutcome_quiet quiet, World.lookupFd, native, default]

end Answers

end Nikss
