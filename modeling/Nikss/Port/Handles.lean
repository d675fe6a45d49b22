import Nikss.Pipeline.Ownership

/-! # The handles the port operations open

Every handle the library opens stays open until it is closed, and a process that adds
ports for a long time runs out of handles if an operation forgets one. The port
operations open programs and maps by path and close them again: `xdp_attach_prog_to_port`
on a refused attach, `xdp_port_add` after filling the devmap and the jump table,
`tc_attach_prog` after the attach, and the listing and the load timestamp after reading
the program's info.

`Spec m Q w` says that every run of `m` from `w` ends where `Q` holds of its answer.
One lemma per call gives what it does to the handle table (`World.HandlesSince`: the pins
and the handles open before the operation are as they were, and every handle opened since
is one of a set that each open adds to and each close takes from), and the operations'
lemmas follow their code.

* `nikssPipelineAddPort_releases_handles`: `add_port` leaves the handle table as it found
  it, except when it fails after `open_bpf_map` opened the devmap or the jump table but
  could not read its info: that handle is never closed.
* `runOps_queries_release_handles`: any run of port listings and load timestamps leaves
  the handle table as it found it, on every path.
-/

namespace Nikss

/-! ## Specifications -/

section Spec

variable {α β : Type}

/-- Every run of `m` from `w` ends where `Q` holds of its answer. -/
def Spec (m : Sys α) (Q : α → World → Prop) (w : World) : Prop :=
  ∀ r w', m w = some (r, w') → Q r w'

namespace Spec

variable {Q Q' : α → World → Prop} {w : World}

theorem pure {a : α} (post : Q a w) : Spec (pure a : Sys α) Q w := by
  rintro r w' ⟨⟩
  exact post

theorem bind {m : Sys α} {f : α → Sys β} {R : β → World → Prop} {Q : α → World → Prop}
    (first : Spec m Q w) (rest : ∀ a w₁, Q a w₁ → Spec (f a) R w₁) : Spec (m >>= f) R w := by
  intro r w' run
  obtain ⟨⟨a, w₁⟩, ran, continued⟩ := Option.bind_eq_some.mp run
  exact rest a w₁ (first a w₁ ran) r w' continued

theorem get_bind {f : World → Sys α} (rest : Spec (f w) Q w) : Spec (MonadState.get >>= f) Q w :=
  rest

theorem ite {c : Prop} [Decidable c] {a b : Sys α} (yes : c → Spec a Q w) (no : ¬c → Spec b Q w) :
    Spec (if c then a else b) Q w := by
  split
  · exact yes ‹_›
  · exact no ‹_›

theorem mono {m : Sys α} (spec : Spec m Q w) (weaker : ∀ r w', Q r w' → Q' r w') : Spec m Q' w :=
  fun r w' run => weaker r w' (spec r w' run)

end Spec

end Spec

/-! ## Computations that keep the handle table -/

/-- `w'` has the pins, the objects, the object files and the handle table of `w`. -/
structure World.SameHandles (w w' : World) : Prop where
  pins : w'.pins = w.pins
  objects : w'.objects = w.objects
  files : w'.files = w.files
  fds : w'.fds = w.fds
  nextFd : w'.nextFd = w.nextFd

theorem World.SameHandles.refl (w : World) : w.SameHandles w := ⟨rfl, rfl, rfl, rfl, rfl⟩

theorem World.SameHandles.trans {w w₁ w₂ : World} (first : w.SameHandles w₁) (second : w₁.SameHandles w₂) :
    w.SameHandles w₂ :=
  ⟨second.pins.trans first.pins, second.objects.trans first.objects, second.files.trans first.files,
    second.fds.trans first.fds, second.nextFd.trans first.nextFd⟩

section Steady

variable {α β : Type}

/-- Every run of `m` keeps the pins, the objects and the handle table. -/
def Steady (m : Sys α) : Prop :=
  ∀ w, Spec m (fun _ w' => w.SameHandles w') w

namespace Steady

theorem pure (a : α) : Steady (pure a : Sys α) := fun w => .pure (.refl w)

theorem bind {m : Sys α} {f : α → Sys β} (first : Steady m) (rest : ∀ a, Steady (f a)) :
    Steady (m >>= f) := fun w =>
  (first w).bind fun a _ same => (rest a _).mono fun _ _ => same.trans

theorem get_bind {f : World → Sys β} (rest : ∀ w, Spec (f w) (fun _ w' => w.SameHandles w') w) :
    Steady (MonadState.get >>= f) :=
  fun w => rest w

theorem ite {c : Prop} [Decidable c] {a b : Sys α} (yes : Steady a) (no : Steady b) :
    Steady (if c then a else b) := by
  split
  · exact yes
  · exact no

theorem liftM (x : Option α) : Steady (liftM x : Sys α) := by
  intro w r w' run
  obtain ⟨_, -, ⟨⟩⟩ := Option.map_eq_some'.mp ((Sys.liftM_apply w x).symm.trans run)
  exact .refl w

/-- Setting the world to one with the same pins, objects and handles. -/
theorem set {w₁ : World} {f : PUnit → Sys β} (w : World) (same : w.SameHandles w₁) (rest : Steady (f ⟨⟩)) :
    Spec (set w₁ >>= f) (fun _ w' => w.SameHandles w') w :=
  (rest w₁).mono fun _ _ => same.trans

end Steady

theorem nextOutcome_steady : Steady nextOutcome := fun w r w' run => by
  rw [nextOutcome_apply] at run
  cases run
  exact ⟨rfl, rfl, rfl, rfl, rfl⟩

theorem fail_steady (e : Nat) : Steady (fail e) := by
  rintro w r w' ⟨⟩
  exact ⟨rfl, rfl, rfl, rfl, rfl⟩

theorem getErrno_steady : Steady getErrno := Steady.get_bind fun w => Steady.pure _ w

theorem crash_steady : Steady (crash : Sys α) := fun _ _ _ run => nomatch run

/-- A call that takes an outcome, fails on a failing one, and otherwise goes on from the
state it reads. -/
theorem Steady.outcome {onFailure : ℕ+ → Sys α} {body : World → Sys α}
    (failed : ∀ e, Steady (onFailure e))
    (proceeds : ∀ w, Spec (body w) (fun _ w' => w.SameHandles w') w) :
    Steady (do match ← nextOutcome with
      | some e => onFailure e
      | none => MonadState.get >>= body) :=
  nextOutcome_steady.bind fun
    | some e => failed e
    | none => Steady.get_bind proceeds

theorem bpfObjGetInfoByFd_steady (fd : Int) : Steady (bpfObjGetInfoByFd fd) := by
  refine .outcome (fun e => (fail_steady e).bind fun _ => .pure _) fun w => ?_
  dsimp only
  split
  · exact ((fail_steady _).bind fun _ => .pure _) w
  · split
    · exact ((fail_steady _).bind fun _ => .pure _) w
    · exact Steady.pure _ w

theorem bpfMapUpdateElem_steady (fd : Int) (key : Nat) (value : UserValue) :
    Steady (bpfMapUpdateElem fd key value) := by
  refine .outcome (fun e => fail_steady e) fun w => ?_
  dsimp only
  split
  · split_ifs
    · exact fail_steady _ w
    · split
      · exact fail_steady _ w
      · exact Steady.set w ⟨rfl, rfl, rfl, rfl, rfl⟩ (.pure _)
  · exact fail_steady _ w

theorem bpfSetLinkXdpFd_steady (ifindex fd : Int) (flags : XdpFlags) :
    Steady (bpfSetLinkXdpFd ifindex fd flags) := by
  refine .outcome (fun e => fail_steady e) fun w => ?_
  dsimp only
  split_ifs
  all_goals first
    | exact fail_steady _ w
    | exact Steady.set w ⟨rfl, rfl, rfl, rfl, rfl⟩ (.pure _)

theorem bpfTcHookCreate_steady (ifindex : Int) : Steady (bpfTcHookCreate ifindex) := by
  refine .outcome (fun e => fail_steady e) fun w => ?_
  dsimp only
  split_ifs
  all_goals first
    | exact fail_steady _ w
    | exact Steady.set w ⟨rfl, rfl, rfl, rfl, rfl⟩ (.pure _)

theorem bpfTcHookDestroy_steady (ifindex : Int) : Steady (bpfTcHookDestroy ifindex) := by
  refine .outcome (fun e => fail_steady e) fun w => ?_
  dsimp only
  split_ifs
  all_goals first
    | exact fail_steady _ w
    | exact Steady.set w ⟨rfl, rfl, rfl, rfl, rfl⟩ (.pure _)

theorem bpfTcAttach_steady (ifindex : Int) (point : TcAttachPoint) (fd : Int) :
    Steady (bpfTcAttach ifindex point fd) := by
  refine .outcome (fun e => fail_steady e) fun w => ?_
  dsimp only
  split_ifs
  · split
    all_goals first
      | exact fail_steady _ w
      | exact Steady.set w ⟨rfl, rfl, rfl, rfl, rfl⟩ (.pure _)
  · exact fail_steady _ w

theorem bpfGetLinkXdpId_steady (ifindex : Int) : Steady (bpfGetLinkXdpId ifindex) := by
  refine .outcome (fun e => (fail_steady e).bind fun _ => .pure _) fun w => ?_
  dsimp only
  split <;> exact Steady.pure _ w

theorem access_steady (path : Path) : Steady (access path) := by
  refine .outcome (fun e => fail_steady e) fun w => ?_
  split
  · exact fail_steady _ w
  · exact Steady.pure _ w

theorem ifNametoindex_steady (name : String) : Steady (ifNametoindex name) :=
  Steady.get_bind fun w => Steady.pure _ w

theorem ifNameindex_steady : Steady ifNameindex :=
  .outcome (fun e => (fail_steady e).bind fun _ => .pure _) fun w => Steady.pure _ w

theorem tcCreateHook_steady (ifindex : Int) : Steady (tcCreateHook ifindex) :=
  (bpfTcHookCreate_steady _).bind fun _ => .ite getErrno_steady (.pure _)

theorem updateMapInfo_steady (md : MapDescriptor) : Steady (updateMapInfo md) := by
  refine .ite (.pure _) ((bpfObjGetInfoByFd_steady _).bind fun ⟨_, info⟩ =>
    .ite (getErrno_steady.bind fun _ => .pure _) ?_)
  split <;> exact .pure _

theorem updateProgDevmap_steady (devmap : MapDescriptor) (ifindex : Int) (intf : String)
    (egressProgFd : Int) : Steady (updateProgDevmap devmap ifindex intf egressProgFd) := by
  unfold updateProgDevmap
  lift_lets
  intro progFd capacity index store check
  have stored : ∀ y, Steady (store y) := fun _ =>
    (bpfMapUpdateElem_steady _ _ _).bind fun _ => .ite getErrno_steady (.pure _)
  have checked : ∀ y, Steady (check y) := fun _ =>
    .ite (crash_steady.bind stored) ((Steady.pure _).bind stored)
  refine .ite (Steady.bind ?_ checked) ((Steady.pure _).bind checked)
  rintro w r w' ⟨⟩
  exact ⟨rfl, rfl, rfl, rfl, rfl⟩

theorem nextPortLoop_steady (xdpProgId : Nat) :
    ∀ (index : Nat) (ifaces : List (Nat × String)), Steady (nextPortLoop xdpProgId index ifaces)
  | _, [] => .pure _
  | index, (_, _) :: ifaces => by
    simp only [nextPortLoop, pure_bind]
    exact .ite (.pure _) ((bpfGetLinkXdpId_steady _).bind fun ⟨_, _⟩ =>
      .ite ((nextPortLoop_steady xdpProgId (index + 1) ifaces).bind fun _ => .pure _)
        (.ite (.pure _) (nextPortLoop_steady xdpProgId (index + 1) ifaces)))

theorem nextPorts_steady : ∀ (calls : Nat) (list : NikssPortList), Steady (nextPorts calls list)
  | 0, _ => .pure _
  | calls + 1, list => by
    refine Steady.bind ?_ fun ⟨_, list⟩ => (nextPorts_steady calls list).bind fun ⟨_, _⟩ => .pure _
    unfold nikssPortListGetNextPort
    split
    · exact .pure _
    · exact (nextPortLoop_steady _ _ _).bind fun
        | none => .pure _
        | some _ => .pure _

theorem readUptime_steady : Steady readUptime :=
  .outcome (fun e => (fail_steady e).bind fun _ => .pure _) fun w => Steady.pure _ w

theorem gettimeofday_steady : Steady gettimeofday :=
  .outcome (fun e => (fail_steady e).bind fun _ => .pure _) fun w => Steady.pure _ w

end Steady

/-! ## The handle table since an operation started -/

/-- The handle table of `w` against `w₀`, where an operation started: the numbering has not
gone back, every handle below `w₀.nextFd` is as it was, and every handle opened since is
one of `opened`. -/
structure World.FdsSince (w w₀ : World) (opened : Nat → ℕ+ → Prop) : Prop where
  nextFd : w₀.nextFd ≤ w.nextFd
  old : ∀ n < w₀.nextFd, w.fds n = w₀.fds n
  new : ∀ n id, w₀.nextFd ≤ n → w.fds n = some id → opened n id

namespace World.FdsSince

variable {w₀ w w' : World} {opened opened' : Nat → ℕ+ → Prop}

theorem start (fresh : w₀.FreshFds) : w₀.FdsSince w₀ fun _ _ => False :=
  ⟨le_rfl, fun _ _ => rfl, fun n _ above opened => by rw [fresh n above] at opened; cases opened⟩

theorem mono (since : w.FdsSince w₀ opened) (sub : ∀ n id, opened n id → opened' n id) :
    w.FdsSince w₀ opened' :=
  ⟨since.nextFd, since.old, fun n id above found => sub n id (since.new n id above found)⟩

theorem of_fds (since : w.FdsSince w₀ opened) (fds : w'.fds = w.fds) (nextFd : w'.nextFd = w.nextFd) :
    w'.FdsSince w₀ opened :=
  ⟨nextFd ▸ since.nextFd, fun n below => fds ▸ since.old n below,
    fun n id above found => since.new n id above (fds ▸ found)⟩

/-- Opening a handle adds it to the handles opened. -/
theorem withHandle (since : w.FdsSince w₀ opened) (id : ℕ+) :
    (w.withHandle id).FdsSince w₀ fun n id' => opened n id' ∨ n = w.nextFd ∧ id' = id := by
  refine ⟨since.nextFd.trans (Nat.le_succ _), fun n below => ?_, fun n id' above found => ?_⟩
  · simp only [World.withHandle, Function.update_noteq (below.trans_le since.nextFd).ne]
    exact since.old n below
  · simp only [World.withHandle, Function.update_apply] at found
    split_ifs at found with same
    · cases found
      exact .inr ⟨same, rfl⟩
    · exact .inl (since.new n id' above found)

/-- Closing a handle the operation opened takes it from the handles opened. -/
theorem close (since : w.FdsSince w₀ opened) {fd : Int} (above : 0 ≤ fd → w₀.nextFd ≤ fd.toNat) :
    (if 0 ≤ fd then { w with fds := Function.update w.fds fd.toNat none } else w).FdsSince w₀
      fun n id => opened n id ∧ (n : Int) ≠ fd := by
  split_ifs with valid
  · refine ⟨since.nextFd, fun n below => ?_, fun n id above' found => ?_⟩
    · simp only [Function.update_noteq (below.trans_le (above valid)).ne]
      exact since.old n below
    · simp only [Function.update_apply] at found
      split_ifs at found with same
      exact ⟨since.new n id above' found, fun equal => same (by omega)⟩
  · exact since.mono fun n id opened => ⟨opened, by omega⟩

/-- Where nothing opened since is left, the handle table is as it was. -/
theorem fds_eq (since : w.FdsSince w₀ fun _ _ => False) (fresh : w₀.FreshFds) : w.fds = w₀.fds := by
  funext n
  by_cases below : n < w₀.nextFd
  · exact since.old n below
  · rw [fresh n (not_lt.mp below)]
    cases found : w.fds n with
    | none => rfl
    | some id => exact (since.new n id (not_lt.mp below) found).elim

end World.FdsSince

/-- The handle table of `w` against `w₀` as `FdsSince` says, and no pin and no object
changed: the port operations pin and create nothing. -/
structure World.HandlesSince (w w₀ : World) (opened : Nat → ℕ+ → Prop) extends World.FdsSince w w₀ opened :
    Prop where
  pins : w.pins = w₀.pins
  objects : w.objects = w₀.objects
  files : w.files = w₀.files

namespace World.HandlesSince

variable {w₀ w w' : World} {opened opened' : Nat → ℕ+ → Prop}

theorem start (fresh : w₀.FreshFds) : w₀.HandlesSince w₀ fun _ _ => False :=
  ⟨.start fresh, rfl, rfl, rfl⟩

/-- Any world against itself, with every handle allowed. -/
theorem any (w₀ : World) : w₀.HandlesSince w₀ fun _ _ => True :=
  ⟨⟨le_rfl, fun _ _ => rfl, fun _ _ _ _ => trivial⟩, rfl, rfl, rfl⟩

theorem mono (since : w.HandlesSince w₀ opened) (sub : ∀ n id, opened n id → opened' n id) :
    w.HandlesSince w₀ opened' :=
  ⟨since.toFdsSince.mono sub, since.pins, since.objects, since.files⟩

theorem of_steady (since : w.HandlesSince w₀ opened) (same : w.SameHandles w') : w'.HandlesSince w₀ opened :=
  ⟨since.toFdsSince.of_fds same.fds same.nextFd, same.pins.trans since.pins, same.objects.trans since.objects,
    same.files.trans since.files⟩

/-- Opening a handle adds it to the handles opened. -/
theorem withHandle (since : w.HandlesSince w₀ opened) (id : ℕ+) :
    (w.withHandle id).HandlesSince w₀ fun n id' => opened n id' ∨ n = w.nextFd ∧ id' = id :=
  ⟨since.toFdsSince.withHandle id, since.pins, since.objects, since.files⟩

/-- Closing a handle the operation opened takes it from the handles opened. -/
theorem close (since : w.HandlesSince w₀ opened) {fd : Int} (above : 0 ≤ fd → w₀.nextFd ≤ fd.toNat) :
    (if 0 ≤ fd then { w with fds := Function.update w.fds fd.toNat none } else w).HandlesSince w₀
      fun n id => opened n id ∧ (n : Int) ≠ fd := by
  refine ⟨since.toFdsSince.close above, ?_, ?_, ?_⟩ <;> split_ifs
  exacts [since.pins, since.pins, since.objects, since.objects, since.files, since.files]

/-- A failed open adds no handle. -/
theorem unopened {fd : Int} {named : Nat → ℕ+ → Prop}
    (since : w.HandlesSince w₀ fun n id => opened n id ∨ (n : Int) = fd ∧ named n id)
    (negative : fd < 0) : w.HandlesSince w₀ opened :=
  since.mono fun n _ => Or.rec id fun ⟨same, _⟩ => absurd same (by omega)

/-- Once the handle `fd` is closed again, the handles opened are those before it. -/
theorem closed {fd : Int} {named : Nat → ℕ+ → Prop}
    (since : w.HandlesSince w₀ fun n id => (opened n id ∨ (n : Int) = fd ∧ named n id) ∧ (n : Int) ≠ fd) :
    w.HandlesSince w₀ opened :=
  since.mono fun _ _ ⟨held, other⟩ => held.resolve_right fun ⟨same, _⟩ => other same

/-- Where nothing opened since is left, the handle table is as it was. -/
theorem fds_eq (since : w.HandlesSince w₀ fun _ _ => False) (fresh : w₀.FreshFds) : w.fds = w₀.fds :=
  since.toFdsSince.fds_eq fresh

end World.HandlesSince

/-! ## The calls that open and close -/

section Calls

variable {w₀ w : World} {opened : Nat → ℕ+ → Prop}

theorem Steady.handles {α : Type} {m : Sys α} (steady : Steady m) (since : w.HandlesSince w₀ opened) :
    Spec m (fun _ w' => w'.HandlesSince w₀ opened) w :=
  (steady w).mono fun _ _ => since.of_steady

/-- `bpf_obj_get` opens at most one handle, on the object pinned at the path, numbered from
the operation's first one on. -/
theorem bpfObjGet_handles (path : Path) (since : w.HandlesSince w₀ opened) :
    Spec (bpfObjGet path) (fun fd w' =>
      w'.HandlesSince w₀ (fun n id => opened n id ∨ (n : Int) = fd ∧ w₀.pins path = some id) ∧
      (0 ≤ fd → w₀.nextFd ≤ fd.toNat)) w := by
  have failed (e : Nat) (positive : 0 < e) (w₁ : World) (same : w.SameHandles w₁) : Spec (fail e) (fun fd w' =>
        w'.HandlesSince w₀ (fun n id => opened n id ∨ (n : Int) = fd ∧ w₀.pins path = some id) ∧
        (0 ≤ fd → w₀.nextFd ≤ fd.toNat)) w₁ := by
    rintro r w' ⟨⟩
    exact ⟨(since.mono fun _ _ => .inl).of_steady ⟨same.pins, same.objects, same.files, same.fds, same.nextFd⟩,
      fun _ => by omega⟩
  refine (nextOutcome_steady w).bind fun outcome w₁ same => ?_
  rcases outcome with _ | e
  · refine Spec.get_bind ?_
    cases pinned : w₁.pins path with
    | none => exact failed _ (by decide) w₁ same
    | some id =>
      rintro r w' ⟨⟩
      have since₁ := since.of_steady same
      refine ⟨(since₁.withHandle id).mono fun n id' => ?_, fun _ => by simpa using since₁.nextFd⟩
      rintro (old | ⟨rfl, rfl⟩)
      · exact .inl old
      · exact .inr ⟨rfl, since₁.pins ▸ pinned⟩
  · exact failed e e.pos w₁ same

theorem close_handles {fd : Int} (since : w.HandlesSince w₀ opened)
    (above : 0 ≤ fd → w₀.nextFd ≤ fd.toNat) :
    Spec (close fd) (fun _ w' => w'.HandlesSince w₀ fun n id => opened n id ∧ (n : Int) ≠ fd) w := by
  rintro r w' ⟨⟩
  exact since.close above

/-- Closing the handle an operation opened last, then answering: the handles opened are
those before it. -/
theorem close_bind_pure_handles {α : Type} {fd : Int} {named : Nat → ℕ+ → Prop} (a : α)
    (since : w.HandlesSince w₀ fun n id => opened n id ∨ (n : Int) = fd ∧ named n id)
    (above : 0 ≤ fd → w₀.nextFd ≤ fd.toNat) :
    Spec (do close fd; pure a) (fun _ w' => w'.HandlesSince w₀ opened) w :=
  (close_handles since above).bind fun _ _ since' => .pure since'.closed

/-- `close_object_fd` closes a handle the operation opened and answers a negative one. -/
theorem closeObjectFd_handles {fd : Int} (since : w.HandlesSince w₀ opened)
    (above : 0 ≤ fd → w₀.nextFd ≤ fd.toNat) :
    Spec (closeObjectFd fd) (fun r w' =>
      w'.HandlesSince w₀ (fun n id => opened n id ∧ (n : Int) ≠ fd) ∧ r < 0) w := by
  unfold closeObjectFd
  split_ifs with negative
  · exact .pure ⟨since.mono fun n id opened => ⟨opened, by omega⟩, negative⟩
  · exact (close_handles since above).bind fun _ _ since' => .pure ⟨since', by decide⟩

/-- `open_bpf_map` answers the handle its `bpf_obj_get` opened, and changes no pin or handle
after it. -/
theorem openBpfMap_after_get {ctx : NikssContext} {name : String} {btf : Option Btf} {w' : World}
    {r : Int × MapDescriptor} (run : openBpfMap ctx name btf w = some (r, w')) :
    ∃ w₁, bpfObjGet (buildEbpfMapFilename ctx name) w = some (r.2.fd, w₁) ∧ w₁.SameHandles w' := by
  obtain ⟨⟨fd, w₁⟩, opened, run⟩ := Option.bind_eq_some.mp run
  dsimp only at run
  split_ifs at run
  · cases run
    exact ⟨_, opened, .refl _⟩
  · obtain ⟨⟨⟨e, md⟩, w₂⟩, read, run⟩ := Option.bind_eq_some.mp run
    have kept := updateMapInfo_steady _ w₁ _ _ read
    have same : md.fd = fd := updateMapInfo_fd read
    refine ⟨w₁, ?_⟩
    dsimp only at run
    split_ifs at run
    · cases run
      exact ⟨same ▸ opened, kept⟩
    · cases btf with
      | none =>
        cases run
        exact ⟨same ▸ opened, kept⟩
      | some btf =>
        obtain ⟨⟨md', w₃⟩, resolved, done⟩ := Option.bind_eq_some.mp run
        obtain ⟨_, found, ⟨⟩⟩ := Option.map_eq_some'.mp ((Sys.liftM_apply w₂ _).symm.trans resolved)
        cases done
        exact ⟨(resolveMapTypes_fd found).trans same ▸ opened, kept⟩

/-- `open_bpf_map` opens at most the handle it answers, on the map pinned under the
pipeline. -/
theorem openBpfMap_handles (ctx : NikssContext) (name : String) (btf : Option Btf)
    (since : w.HandlesSince w₀ opened) :
    Spec (openBpfMap ctx name btf) (fun r w' =>
      w'.HandlesSince w₀ (fun n id => opened n id ∨
        (n : Int) = r.2.fd ∧ w₀.pins (buildEbpfMapFilename ctx name) = some id) ∧
      (0 ≤ r.2.fd → w₀.nextFd ≤ r.2.fd.toNat)) w := by
  intro r w' run
  obtain ⟨w₁, opened₁, same⟩ := openBpfMap_after_get run
  obtain ⟨since₁, above⟩ := bpfObjGet_handles _ since _ _ opened₁
  exact ⟨since₁.of_steady same, above⟩

end Calls

/-! ## The port operations -/

section Ports

variable (defs : BpfDefs) (ctx : NikssContext) {w₀ w : World} {opened : Nat → ℕ+ → Prop}

/-- `xdp_attach_prog_to_port` leaves open only the handle it answers, and only when it
answers `NO_ERROR`. -/
theorem xdpAttachProgToPort_handles (ifindex : Int) (prog : String) (since : w.HandlesSince w₀ opened) :
    Spec (xdpAttachProgToPort ctx ifindex prog) (fun r w' =>
      w'.HandlesSince w₀ (fun n id => opened n id ∨ r.1 = NO_ERROR ∧ (n : Int) = r.2 ∧
        w₀.pins (buildEbpfProgFilename ctx prog) = some id) ∧
      (0 ≤ r.2 → w₀.nextFd ≤ r.2.toNat)) w := by
  simp only [xdpAttachProgToPort, openProgByName, pure_bind]
  refine (bpfObjGet_handles _ since).bind fun fd w₁ ⟨since₁, above₁⟩ => ?_
  -- both attach attempts end alike: a refusal closes the handle, a success answers it
  have settle (ret : Int) {w₂ : World} (since₂ : w₂.HandlesSince w₀ fun n id => opened n id ∨
      (n : Int) = fd ∧ w₀.pins (buildEbpfProgFilename ctx prog) = some id) :
      Spec (if ret < 0 then (do pure (-ret, ← closeObjectFd fd)) else pure (NO_ERROR, fd))
        (fun r w' => w'.HandlesSince w₀ (fun n id => opened n id ∨ r.1 = NO_ERROR ∧ (n : Int) = r.2 ∧
          w₀.pins (buildEbpfProgFilename ctx prog) = some id) ∧
        (0 ≤ r.2 → w₀.nextFd ≤ r.2.toNat)) w₂ :=
    .ite (fun _ => (closeObjectFd_handles since₂ above₁).bind fun _ _ ⟨since₃, negative⟩ =>
        .pure ⟨(since₃.closed).mono fun _ _ => .inl, fun valid => absurd valid (by omega)⟩)
      fun _ => .pure ⟨since₂.mono fun _ _ => Or.imp_right fun named => ⟨rfl, named⟩, above₁⟩
  refine .ite (fun negative => ?_) fun _ => ?_
  · exact (getErrno_steady.handles (since₁.unopened negative)).bind fun _ _ since₂ =>
      .pure ⟨since₂.mono fun _ _ => .inl, fun valid => absurd valid (not_le.mpr negative)⟩
  refine ((bpfSetLinkXdpFd_steady _ _ _).handles since₁).bind fun _ _ since₂ =>
    .ite (fun _ => settle _ since₂) fun _ => ?_
  exact ((bpfSetLinkXdpFd_steady _ _ _).handles since₂).bind fun _ _ since₃ => settle _ since₃

/-- `tc_attach_prog` closes the program's handle after the attach. -/
theorem tcAttachProg_handles (prog : String) (ifindex : Int) (hookPoint : TcAttachPoint)
    (since : w.HandlesSince w₀ opened) :
    Spec (tcAttachProg ctx prog ifindex hookPoint) (fun _ w' => w'.HandlesSince w₀ opened) w := by
  simp only [tcAttachProg, openProgByName, pure_bind]
  refine (bpfObjGet_handles _ since).bind fun fd w₁ ⟨since₁, above₁⟩ => .ite (fun negative => ?_) fun _ => ?_
  · exact (getErrno_steady.handles (since₁.unopened negative)).bind fun _ _ since₂ =>
      .ite (fun _ => .pure since₂) fun _ => .pure since₂
  exact ((bpfTcAttach_steady _ _ _).handles since₁).bind fun _ _ since₂ =>
    .ite (fun _ => (getErrno_steady.handles since₂).bind fun _ _ since₃ =>
      close_bind_pure_handles _ since₃ above₁) fun _ => close_bind_pure_handles _ since₂ above₁

/-- `tc_create_hook_and_attach_progs` leaves no handle open. -/
theorem tcCreateHookAndAttachProgs_handles (ifindex : Int) (since : w.HandlesSince w₀ opened) :
    Spec (tcCreateHookAndAttachProgs defs ctx ifindex) (fun _ w' => w'.HandlesSince w₀ opened) w := by
  simp only [tcCreateHookAndAttachProgs, pure_bind]
  refine ((tcCreateHook_steady _).handles since).bind fun _ _ since₁ => .ite (fun _ => .pure since₁) fun _ => ?_
  refine (tcAttachProg_handles ctx defs.tcIngressProg ifindex .ingress since₁).bind fun _ _ since₂ =>
    .ite (fun _ => .pure since₂) fun _ => ?_
  exact (tcAttachProg_handles ctx defs.tcEgressProg ifindex .egress since₂).bind fun _ _ since₃ =>
    .ite (fun _ => .pure since₃) fun _ => .pure since₃

/-- The devmap step closes the egress program's handle on every path, and the devmap's
unless `open_bpf_map` failed after opening it. -/
theorem xdpPortAddDevmap_handles (intf : String) (ifindex : Int) (since : w.HandlesSince w₀ opened) :
    Spec (xdpPortAddDevmap defs ctx intf ifindex) (fun r w' => w'.HandlesSince w₀ fun n id =>
      opened n id ∨ r ≠ NO_ERROR ∧ w₀.pins (buildEbpfMapFilename ctx defs.xdpDevmap) = some id) w := by
  simp only [xdpPortAddDevmap, openProgByName, pure_bind]
  refine (bpfObjGet_handles _ since).bind fun eg w₁ ⟨since₁, above₁⟩ => ?_
  refine (openBpfMap_handles ctx defs.xdpDevmap none since₁).bind fun ⟨ret, devmap⟩ w₂ ⟨since₂, above₂⟩ => ?_
  refine .ite (fun failed => ?_) fun _ => ?_
  · -- the devmap's handle, when there is one, stays open
    refine (closeObjectFd_handles since₂ above₁).bind fun _ _ ⟨since₃, _⟩ => .pure (since₃.mono ?_)
    rintro n id ⟨(held | ⟨same, _⟩) | ⟨_, devmapPinned⟩, other⟩
    exacts [.inl held, absurd same other, .inr ⟨failed, devmapPinned⟩]
  · refine ((updateProgDevmap_steady _ _ _ _).handles since₂).bind fun _ _ since₃ =>
      (closeObjectFd_handles since₃ above₁).bind fun _ _ ⟨since₄, _⟩ =>
        (closeObjectFd_handles since₄ above₂).bind fun _ _ ⟨since₅, _⟩ => .pure (since₅.mono ?_)
    rintro n id ⟨⟨(held | ⟨same, _⟩) | ⟨same', _⟩, other⟩, other'⟩
    exacts [.inl held, absurd same other, absurd same' other']

/-- The jump-table step closes the optimized egress program's handle on every path, and
the jump table's unless `open_bpf_map` failed after opening it, where it answers `ENOENT`. -/
theorem xdpPortAddJumpTable_handles (since : w.HandlesSince w₀ opened) :
    Spec (xdpPortAddJumpTable defs ctx) (fun r w' => w'.HandlesSince w₀ fun n id =>
      opened n id ∨ r = some (ENOENT : Int) ∧ w₀.pins (buildEbpfMapFilename ctx defs.xdpJumpTbl) = some id) w := by
  simp only [xdpPortAddJumpTable, openProgByName, pure_bind]
  refine (bpfObjGet_handles _ since).bind fun eg w₁ ⟨since₁, above₁⟩ => ?_
  refine .ite (fun negative => .pure ((since₁.unopened negative).mono fun _ _ => .inl)) fun _ => ?_
  refine (openBpfMap_handles ctx defs.xdpJumpTbl none since₁).bind fun ⟨ret, jmpmap⟩ w₂ ⟨since₂, above₂⟩ => ?_
  refine .ite (fun _ => ?_) fun _ => ?_
  · refine (closeObjectFd_handles since₂ above₁).bind fun _ _ ⟨since₃, _⟩ => .pure (since₃.mono ?_)
    rintro n id ⟨(held | ⟨same, _⟩) | ⟨_, jmpPinned⟩, other⟩
    exacts [.inl held, absurd same other, .inr ⟨rfl, jmpPinned⟩]
  · refine ((bpfMapUpdateElem_steady _ _ _).handles since₂).bind fun _ _ since₃ =>
      (getErrno_steady.handles since₃).bind fun _ _ since₄ =>
        (closeObjectFd_handles since₄ above₁).bind fun _ _ ⟨since₅, _⟩ =>
          (closeObjectFd_handles since₅ above₂).bind fun _ _ ⟨since₆, _⟩ =>
            .ite (fun _ => .pure (since₆.mono ?_)) fun _ => .pure (since₆.mono ?_)
    all_goals
      rintro n id ⟨⟨(held | ⟨same, _⟩) | ⟨same', _⟩, other⟩, other'⟩
      exacts [.inl held, absurd same other, absurd same' other']

/-- Attaching a program with `xdp_attach_prog_to_port` and closing the handle it answers,
as `xdp_port_add` and `tc_port_add` begin: a refused attach returns with no handle left
open, and the rest starts with none either. -/
theorem xdpAttachProgToPort_then_close (ifindex : Int) (prog : String) {rest : Sys Int}
    {Q : Int → World → Prop} (since : w.HandlesSince w₀ opened)
    (refused : ∀ ret w₁, ret ≠ NO_ERROR → w₁.HandlesSince w₀ opened → Q ret w₁)
    (continued : ∀ w₁, w₁.HandlesSince w₀ opened → Spec rest Q w₁) :
    Spec (xdpAttachProgToPort ctx ifindex prog >>= fun r =>
      if r.1 ≠ NO_ERROR then pure r.1 else closeObjectFd r.2 >>= fun _ => rest) Q w :=
  (xdpAttachProgToPort_handles ctx ifindex prog since).bind fun ⟨ret, _⟩ _ ⟨since₁, above₁⟩ =>
    .ite (fun failed => .pure (refused ret _ failed (since₁.mono fun _ _ held =>
        held.resolve_right fun ⟨attached, _⟩ => failed attached)))
      fun _ => (closeObjectFd_handles since₁ above₁).bind fun _ w₂ ⟨since₂, _⟩ =>
        continued w₂ (since₂.mono fun _ _ ⟨held, other⟩ => held.resolve_right fun ⟨_, same, _⟩ => other same)

/-- `xdp_port_add` leaves open at most a handle on the devmap or the jump table, and then
fails. -/
theorem xdpPortAdd_handles (intf : String) (ifindex : Int) (since : w.HandlesSince w₀ opened) :
    Spec (xdpPortAdd defs ctx intf ifindex) (fun r w' => w'.HandlesSince w₀ fun n id =>
      opened n id ∨ r ≠ NO_ERROR ∧ (w₀.pins (buildEbpfMapFilename ctx defs.xdpDevmap) = some id ∨
        w₀.pins (buildEbpfMapFilename ctx defs.xdpJumpTbl) = some id)) w := by
  simp only [xdpPortAdd, pure_bind]
  refine xdpAttachProgToPort_then_close ctx ifindex _ since (fun _ _ _ since₁ => since₁.mono fun _ _ => .inl)
    fun _ since₁ => ?_
  refine (xdpPortAddDevmap_handles defs ctx intf ifindex since₁).bind fun _ _ since₂ =>
    .ite (fun failed => .pure (since₂.mono fun _ _ => Or.imp_right fun ⟨_, devmap⟩ => ⟨failed, .inl devmap⟩))
      fun filled => ?_
  have since₂ := since₂.mono fun _ _ held => held.resolve_right fun ⟨failed, _⟩ => filled failed
  refine (xdpPortAddJumpTable_handles defs ctx since₂).bind fun jump _ since₃ => ?_
  rcases jump with _ | ret
  · have since₃ := since₃.mono fun _ _ held => held.resolve_right fun ⟨installed, _⟩ => nomatch installed
    exact (tcCreateHookAndAttachProgs_handles defs ctx ifindex since₃).bind fun _ _ since₄ =>
      .ite (fun _ => .pure (since₄.mono fun _ _ => .inl)) fun _ => .pure (since₄.mono fun _ _ => .inl)
  · refine .pure (since₃.mono fun _ _ => Or.imp_right fun ⟨missing, jump⟩ => ⟨?_, .inr jump⟩)
    cases missing
    decide

/-- `tc_port_add` leaves no handle open. -/
theorem tcPortAdd_handles (ifindex : Int) (since : w.HandlesSince w₀ opened) :
    Spec (tcPortAdd defs ctx ifindex) (fun _ w' => w'.HandlesSince w₀ opened) w := by
  simp only [tcPortAdd, pure_bind]
  exact xdpAttachProgToPort_then_close ctx ifindex _ since (fun _ _ _ since₁ => since₁) fun _ since₁ =>
    (tcCreateHookAndAttachProgs_handles defs ctx ifindex since₁).bind fun _ _ since₂ =>
      .ite (fun _ => .pure since₂) fun _ => .pure since₂

/-- `nikss_pipeline_add_port` leaves open at most a handle on the devmap or the jump table,
and then fails. -/
theorem nikssPipelineAddPort_handles (interface : String) (since : w.HandlesSince w₀ opened) :
    Spec (nikssPipelineAddPort defs ctx interface) (fun r w' => w'.HandlesSince w₀ fun n id =>
      opened n id ∨ r.1 ≠ NO_ERROR ∧ (w₀.pins (buildEbpfMapFilename ctx defs.xdpDevmap) = some id ∨
        w₀.pins (buildEbpfMapFilename ctx defs.xdpJumpTbl) = some id)) w := by
  simp only [nikssPipelineAddPort, pure_bind]
  refine ((access_steady _).handles since).bind fun _ _ since₁ =>
    ((ifNametoindex_steady _).handles since₁).bind fun _ _ since₂ =>
      .ite (fun _ => .pure (since₂.mono fun _ _ => .inl)) fun _ => ?_
  exact .ite (fun _ => (xdpPortAdd_handles defs ctx interface _ since₂).bind fun _ _ since₃ => .pure since₃)
    fun _ => (tcPortAdd_handles defs ctx _ since₂).bind fun _ _ since₃ => .pure (since₃.mono fun _ _ => .inl)

/-- The pipeline's XDP program the listing and the load timestamp open: the helper, or the
XDP ingress program when the helper does not open. -/
theorem openPipelineProgram_handles (since : w.HandlesSince w₀ opened) :
    Spec (openPipelineProgram defs ctx) (fun fd w' => w'.HandlesSince w₀ (fun n id => opened n id ∨
      (n : Int) = fd ∧ (w₀.pins (buildEbpfProgFilename ctx defs.xdpHelperProg) = some id ∨
        w₀.pins (buildEbpfProgFilename ctx defs.xdpIngressProg) = some id)) ∧
      (0 ≤ fd → w₀.nextFd ≤ fd.toNat)) w := by
  unfold openPipelineProgram openProgByName
  refine (bpfObjGet_handles _ since).bind fun fd _ ⟨since₁, above₁⟩ => .ite (fun negative => ?_)
    fun _ => .pure ⟨since₁.mono fun _ _ => Or.imp_right (And.imp_right .inl), above₁⟩
  exact (bpfObjGet_handles _ (since₁.unopened negative)).mono fun _ _ ⟨since₂, above₂⟩ =>
    ⟨since₂.mono fun _ _ => Or.imp_right (And.imp_right .inr), above₂⟩

/-- `nikss_port_list_init` closes the program it reads the id of on every path. -/
theorem nikssPortListInit_handles (since : w.HandlesSince w₀ opened) :
    Spec (nikssPortListInit defs ctx) (fun _ w' => w'.HandlesSince w₀ opened) w := by
  simp only [nikssPortListInit, pure_bind]
  refine (ifNameindex_steady.handles since).bind fun _ _ since₁ =>
    .ite (fun _ => (getErrno_steady.handles since₁).bind fun _ _ since₂ => .pure since₂) fun _ => ?_
  refine (openPipelineProgram_handles defs ctx since₁).bind fun _ _ ⟨since₂, above₂⟩ =>
    .ite (fun negative => (getErrno_steady.handles (since₂.unopened negative)).bind fun _ _ since₃ =>
      .pure since₃) fun _ => ?_
  exact ((bpfObjGetInfoByFd_steady _).handles since₂).bind fun _ _ since₃ =>
    .ite (fun _ => (getErrno_steady.handles since₃).bind fun _ _ since₄ =>
      close_bind_pure_handles _ since₄ above₂) fun _ => close_bind_pure_handles _ since₃ above₂

/-- `nikss_pipeline_get_load_timestamp` closes the program it dates on every path. -/
theorem nikssPipelineGetLoadTimestamp_handles (since : w.HandlesSince w₀ opened) :
    Spec (nikssPipelineGetLoadTimestamp defs ctx) (fun _ w' => w'.HandlesSince w₀ opened) w := by
  simp only [nikssPipelineGetLoadTimestamp, pure_bind]
  refine (openPipelineProgram_handles defs ctx since).bind fun _ _ ⟨since₁, above₁⟩ =>
    .ite (fun negative => .pure (since₁.unopened negative)) fun _ => ?_
  refine ((bpfObjGetInfoByFd_steady _).handles since₁).bind fun _ _ since₂ =>
    .ite (fun _ => close_bind_pure_handles _ since₂ above₁) fun _ => ?_
  refine (readUptime_steady.handles since₂).bind fun uptime _ since₃ => ?_
  rcases uptime with _ | _
  · exact close_bind_pure_handles _ since₃ above₁
  refine (gettimeofday_steady.handles since₃).bind fun now _ since₄ => ?_
  rcases now with _ | _ <;> exact close_bind_pure_handles _ since₄ above₁

end Ports

/-! ## Adding a port -/

/-- `nikss_pipeline_add_port` pins nothing and unpins nothing, and leaves the handle table as
it found it unless it fails: then the one handle it may leave open is a new one, on the
devmap or the jump table, which `open_bpf_map` opened and could not read the info of. -/
theorem nikssPipelineAddPort_releases_handles (defs : BpfDefs) (ctx : NikssContext) (interface : String)
    {w w' : World} {ret : Int} {port : Option Int} (fresh : w.FreshFds)
    (run : nikssPipelineAddPort defs ctx interface w = some ((ret, port), w')) :
    w'.pins = w.pins ∧ ∀ n, w'.fds n ≠ w.fds n → ret ≠ NO_ERROR ∧ w.nextFd ≤ n ∧ ∃ id, w'.fds n = some id ∧
      (w.pins (buildEbpfMapFilename ctx defs.xdpDevmap) = some id ∨
        w.pins (buildEbpfMapFilename ctx defs.xdpJumpTbl) = some id) := by
  have since := nikssPipelineAddPort_handles defs ctx interface (World.HandlesSince.start fresh) _ _ run
  refine ⟨since.pins, fun n changed => ?_⟩
  have above : w.nextFd ≤ n := not_lt.mp fun below => changed (since.old n below)
  rw [fresh n above] at changed
  obtain ⟨id, found⟩ := Option.ne_none_iff_exists'.mp changed
  obtain ⟨failed, pinned⟩ := (since.new n id above found).resolve_left not_false
  exact ⟨failed, above, id, found, pinned⟩

set_option maxRecDepth 4000 in
set_option smartUnfolding false in
/-- An XDP pipeline whose devmap's info cannot be read (`EIO`): `add_port` fails, and the
handle on the devmap stays open. -/
theorem nikssPipelineAddPort_leaves_devmap_open :
    let defs : BpfDefs := ⟨"tc-ingress", "tc-egress", "xdp-ingress", "xdp-egress",
      "xdp-egress-optimized", "xdp-helper", "tc-init", "xdp-init", "devmap", "jump-table",
      by decide⟩
    let w : World :=
      { World.boot (fun _ => none) [(1, "eth0")] (fun _ => .bare true)
          [none, none, none, none, none, some 5] with
        pins := fun path =>
          if path = .prog 0 "xdp-ingress" then some 1 else if path = .map 0 "devmap" then some 2 else none
        objects := fun id =>
          if id = 1 then some (.prog 0) else if id = 2 then some (.map ⟨14, 4, 8, 4, 0, 0⟩) else none
        nextId := 3 }
    w.FreshFds ∧ ∃ w', nikssPipelineAddPort defs ⟨0⟩ "eth0" w = some ((5, some 1), w') ∧
      w'.fds 1 = some 2 ∧ (w'.pins = w.pins ∧ ∀ n, w'.fds n ≠ w.fds n → (5 : Int) ≠ NO_ERROR ∧
        w.nextFd ≤ n ∧ ∃ id, w'.fds n = some id ∧ (w.pins (buildEbpfMapFilename ⟨0⟩ defs.xdpDevmap) = some id ∨
          w.pins (buildEbpfMapFilename ⟨0⟩ defs.xdpJumpTbl) = some id)) := by
  intro defs w
  have fresh : w.FreshFds := fun _ _ => rfl
  exact ⟨fresh, _, rfl, rfl, nikssPipelineAddPort_releases_handles defs ⟨0⟩ "eth0" fresh rfl⟩

/-! ## Runs of queries -/

/-- The operations that only read: listing the ports and reading the load timestamp. -/
def Op.isQuery : Op → Bool
  | .listPorts .. | .getLoadTimestamp _ => true
  | _ => false

/-- A query leaves no handle open. -/
theorem Op.run_query_handles (defs : BpfDefs) {op : Op} (query : op.isQuery) {w₀ w : World}
    {opened : Nat → ℕ+ → Prop} (since : w.HandlesSince w₀ opened) :
    Spec (op.run defs) (fun _ w' => w'.HandlesSince w₀ opened) w := by
  cases op with
  | listPorts ctx calls =>
    exact (nikssPortListInit_handles defs ctx since).bind fun ⟨_, list⟩ _ since₁ =>
      .ite (fun _ => ((nextPorts_steady calls list).handles since₁).bind fun _ _ since₂ => .pure since₂)
        fun _ => .pure since₁
  | getLoadTimestamp ctx =>
    exact (nikssPipelineGetLoadTimestamp_handles defs ctx since).bind fun _ _ since₁ => .pure since₁
  | _ => cases query

/-- A process that only queries, listing ports and reading load timestamps for as long as
it runs, leaks no handle and changes no pin: whatever the kernel answers, after any run of
queries from a handle table with nothing open from its next number on, the pins and the
handle table are as they were. -/
theorem runOps_queries_release_handles (defs : BpfDefs) :
    ∀ (ops : List Op) {w w' : World}, (∀ op ∈ ops, op.isQuery) → w.FreshFds →
      runOps defs ops w = some ((), w') → w'.pins = w.pins ∧ w'.fds = w.fds
  | [], _, _, _, _, run => by
    cases run
    exact ⟨rfl, rfl⟩
  | op :: ops, w, _, queries, fresh, run => by
    obtain ⟨⟨_, w₁⟩, ran, rest⟩ := Option.bind_eq_some.mp run
    have since := Op.run_query_handles defs (queries op (.head ops)) (World.HandlesSince.start fresh) _ _ ran
    have fds₁ := since.fds_eq fresh
    have fresh₁ : w₁.FreshFds := fun n above => (congrFun fds₁ n).trans (fresh n (since.nextFd.trans above))
    obtain ⟨pins, fds⟩ :=
      runOps_queries_release_handles defs ops (fun op mem => queries op (.tail _ mem)) fresh₁ rest
    exact ⟨pins.trans since.pins, fds.trans fds₁⟩

set_option maxRecDepth 4000 in
set_option smartUnfolding false in
/-- `runOps_queries_release_handles` over two listings and a load timestamp of a TC
pipeline: each opens the helper once, and the handle table ends as it began. -/
theorem runOps_queries_release_handles_on_a_monitor :
    let defs : BpfDefs := ⟨"tc-ingress", "tc-egress", "xdp-ingress", "xdp-egress",
      "xdp-egress-optimized", "xdp-helper", "tc-init", "xdp-init", "devmap", "jump-table",
      by decide⟩
    let w : World :=
      { World.boot (fun _ => none) [(1, "eth0")] (fun _ => .bare true) [] with
        pins := fun path => if path = .prog 0 "xdp-helper" then some 1 else none
        objects := fun id => if id = 1 then some (.prog 0) else none
        nextId := 2 }
    let ops : List Op := [.listPorts ⟨0⟩ 2, .getLoadTimestamp ⟨0⟩, .listPorts ⟨0⟩ 1]
    ∃ w', runOps defs ops w = some ((), w') ∧ w'.nextFd = 3 ∧ w'.pins = w.pins ∧ w'.fds = w.fds := by
  intro defs w ops
  have fresh : w.FreshFds := fun _ _ => rfl
  exact ⟨_, rfl, rfl, runOps_queries_release_handles defs ops (by decide) fresh rfl⟩

end Nikss
