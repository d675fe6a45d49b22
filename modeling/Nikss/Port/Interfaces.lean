import Nikss.Port.Listed

/-! # Each port operation changes one interface

A control plane adds and deletes ports of many interfaces on one kernel, and loads,
lists and unloads pipelines between them. It needs each port operation to change the
hooks of the interface it names only: the XDP programs of `bpf_set_link_xdp_fd` and the
`clsact` qdisc and filters of `bpf_tc_hook_create`, `bpf_tc_attach` and
`bpf_tc_hook_destroy` are the only changes of an interface the library makes, and every
one of them is made on the index `if_nametoindex` answered for the operation's interface.

`World.SameIfacesBut touched w w'` says that `w'` has the interface names of `w` and the
hooks of every interface outside `touched`; `KeepsIfaces touched m` says that every run of
`m` keeps it. It is built up by the rules of this file from one lemma per call, as
`Nikss.KeepsPins` is:

* the load, the unload, the listing of ports, the load timestamp and `open_bpf_map` change
  no interface;
* `add_port` and `del_port` change only the interface their name has in the interface
  table (`nikssPipelineAddPort_sameIfaces`, `nikssPipelineDelPort_sameIfaces`).

Over any interleaving of operations, an interface that no `add_port` or `del_port` of the
run names keeps its hooks (`runOps_keeps_other_interfaces`).
-/

namespace Nikss

/-! ## Interfaces kept -/

/-- `w'` has the interface names of `w`, and every interface outside `touched` has the
hooks it had in `w`. -/
structure World.SameIfacesBut (touched : Nat → Prop) (w w' : World) : Prop where
  links : w'.links = w.links
  ifaces : ∀ n, ¬ touched n → w'.ifaces n = w.ifaces n

namespace World.SameIfacesBut

variable {touched touched' : Nat → Prop} {w w₁ w₂ : World}

theorem of_ifaces (links : w₁.links = w.links) (ifaces : w₁.ifaces = w.ifaces) : w.SameIfacesBut touched w₁ :=
  ⟨links, fun _ _ => congrFun ifaces _⟩

theorem refl (w : World) : w.SameIfacesBut touched w := of_ifaces rfl rfl

theorem trans (first : w.SameIfacesBut touched w₁) (second : w₁.SameIfacesBut touched w₂) :
    w.SameIfacesBut touched w₂ :=
  ⟨second.links.trans first.links, fun n other => (second.ifaces n other).trans (first.ifaces n other)⟩

theorem mono (same : w.SameIfacesBut touched w₁) (sub : ∀ n, touched n → touched' n) :
    w.SameIfacesBut touched' w₁ :=
  ⟨same.links, fun n other => same.ifaces n fun held => other (sub n held)⟩

/-- Changing one interface keeps every other. -/
theorem setIface (w : World) (ifindex : Int) (iface : Iface) :
    w.SameIfacesBut (· = ifindex.toNat) (w.setIface ifindex iface) :=
  ⟨rfl, fun _ other => Function.update_noteq other _ _⟩

end World.SameIfacesBut

section Frame

variable {α β : Type} {touched : Nat → Prop}

/-- Every run of `m`, whatever the outcome sequence, keeps the interface names and the
hooks of every interface outside `touched`. -/
def KeepsIfaces (touched : Nat → Prop) (m : Sys α) : Prop :=
  ∀ w, Spec m (fun _ w' => w.SameIfacesBut touched w') w

namespace KeepsIfaces

theorem pure (a : α) : KeepsIfaces touched (pure a : Sys α) := fun w => .pure (.refl w)

theorem bind {m : Sys α} {f : α → Sys β} (first : KeepsIfaces touched m)
    (rest : ∀ a, KeepsIfaces touched (f a)) : KeepsIfaces touched (m >>= f) := fun w =>
  (first w).bind fun a _ same => (rest a _).mono fun _ _ => same.trans

theorem get_bind {f : World → Sys β} (rest : ∀ w, Spec (f w) (fun _ w' => w.SameIfacesBut touched w') w) :
    KeepsIfaces touched (MonadState.get >>= f) :=
  rest

theorem ite {c : Prop} [Decidable c] {a b : Sys α} (yes : KeepsIfaces touched a) (no : KeepsIfaces touched b) :
    KeepsIfaces touched (if c then a else b) := by
  split
  · exact yes
  · exact no

theorem liftM (x : Option α) : KeepsIfaces touched (liftM x : Sys α) := by
  intro w r w' run
  obtain ⟨_, -, ⟨⟩⟩ := Option.map_eq_some'.mp ((Sys.liftM_apply w x).symm.trans run)
  exact .refl w

/-- Setting the world to one with the interfaces of the world read. -/
theorem set {w w₁ : World} {f : PUnit → Sys β} (same : w.SameIfacesBut touched w₁)
    (rest : KeepsIfaces touched (f ⟨⟩)) : Spec (set w₁ >>= f) (fun _ w' => w.SameIfacesBut touched w') w :=
  (rest w₁).mono fun _ _ => same.trans

end KeepsIfaces

end Frame

/-! ## The calls -/

section Calls

variable {touched : Nat → Prop}

theorem nextOutcome_keepsIfaces : KeepsIfaces touched nextOutcome := fun w r w' run => by
  rw [nextOutcome_apply] at run
  cases run
  exact .of_ifaces rfl rfl

theorem fail_keepsIfaces (e : Nat) : KeepsIfaces touched (fail e) := by
  rintro w r w' ⟨⟩
  exact .of_ifaces rfl rfl

theorem getErrno_keepsIfaces : KeepsIfaces touched getErrno := KeepsIfaces.get_bind fun w => KeepsIfaces.pure _ w

/-- A call that takes an outcome, fails on a failing one, and otherwise goes on from the
state it reads. -/
theorem KeepsIfaces.outcome {α : Type} {onFailure : ℕ+ → Sys α} {body : World → Sys α}
    (failed : ∀ e, KeepsIfaces touched (onFailure e))
    (proceeds : ∀ w, Spec (body w) (fun _ w' => w.SameIfacesBut touched w') w) :
    KeepsIfaces touched (do match ← nextOutcome with
      | some e => onFailure e
      | none => MonadState.get >>= body) :=
  nextOutcome_keepsIfaces.bind fun
    | some e => failed e
    | none => KeepsIfaces.get_bind proceeds

theorem close_keepsIfaces (fd : Int) : KeepsIfaces touched (close fd) := by
  rintro w r w' ⟨⟩
  exact .of_ifaces (by split <;> rfl) (by split <;> rfl)

theorem closeObjectFd_keepsIfaces (fd : Int) : KeepsIfaces touched (closeObjectFd fd) :=
  .ite (.pure _) ((close_keepsIfaces fd).bind fun _ => .pure _)

theorem bpfObjGet_keepsIfaces (path : Path) : KeepsIfaces touched (bpfObjGet path) := by
  refine .outcome (fun e => fail_keepsIfaces e) fun w => ?_
  split
  · exact fail_keepsIfaces _ w
  · rintro r w' ⟨⟩
    exact .of_ifaces rfl rfl

theorem openProgByName_keepsIfaces (ctx : NikssContext) (prog : String) :
    KeepsIfaces touched (openProgByName ctx prog) :=
  bpfObjGet_keepsIfaces _

theorem bpfObjGetInfoByFd_keepsIfaces (fd : Int) : KeepsIfaces touched (bpfObjGetInfoByFd fd) := by
  refine .outcome (fun e => (fail_keepsIfaces e).bind fun _ => .pure _) fun w => ?_
  split
  · exact ((fail_keepsIfaces _).bind fun _ => .pure _) w
  · split
    · exact ((fail_keepsIfaces _).bind fun _ => .pure _) w
    · exact KeepsIfaces.pure _ w

theorem bpfMapUpdateElem_keepsIfaces (fd : Int) (key : Nat) (value : UserValue) :
    KeepsIfaces touched (bpfMapUpdateElem fd key value) := by
  refine .outcome (fun e => fail_keepsIfaces e) fun w => ?_
  dsimp only
  split
  · split_ifs
    · exact fail_keepsIfaces _ w
    · split
      · exact fail_keepsIfaces _ w
      · exact KeepsIfaces.set (.of_ifaces rfl rfl) (.pure _)
  · exact fail_keepsIfaces _ w

theorem bpfObjPin_keepsIfaces (fd : Int) (path : Path) : KeepsIfaces touched (bpfObjPin fd path) := by
  refine .outcome (fun e => fail_keepsIfaces e) fun w => ?_
  split
  · exact fail_keepsIfaces _ w
  · exact fail_keepsIfaces _ w
  · exact KeepsIfaces.set (.of_ifaces rfl rfl) (.pure _)

theorem bpfMapUnpin_keepsIfaces (map : LoadedMap) : KeepsIfaces touched (bpfMapUnpin map) := by
  refine .outcome (fun e => fail_keepsIfaces e) fun w => ?_
  split
  · exact fail_keepsIfaces _ w
  · exact KeepsIfaces.set (.of_ifaces rfl rfl) (.pure _)

theorem bpfMapSetPinPath_keepsIfaces : KeepsIfaces touched bpfMapSetPinPath :=
  nextOutcome_keepsIfaces.bind fun
    | some e => fail_keepsIfaces e
    | none => .pure _

theorem bpfProgTestRun_keepsIfaces (progFd : Int) : KeepsIfaces touched (bpfProgTestRun progFd) :=
  .outcome (fun e => fail_keepsIfaces e) fun w => (KeepsIfaces.ite (fail_keepsIfaces _) (.pure _)) w

theorem access_keepsIfaces (path : Path) : KeepsIfaces touched (access path) := by
  refine .outcome (fun e => fail_keepsIfaces e) fun w => ?_
  split
  · exact fail_keepsIfaces _ w
  · exact KeepsIfaces.pure _ w

theorem ifNameindex_keepsIfaces : KeepsIfaces touched ifNameindex :=
  .outcome (fun e => (fail_keepsIfaces e).bind fun _ => .pure _) fun w => KeepsIfaces.pure _ w

theorem bpfGetLinkXdpId_keepsIfaces (ifindex : Int) : KeepsIfaces touched (bpfGetLinkXdpId ifindex) := by
  refine .outcome (fun e => (fail_keepsIfaces e).bind fun _ => .pure _) fun w => ?_
  dsimp only
  split <;> exact KeepsIfaces.pure _ w

theorem mapM_keepsIfaces {α β : Type} {f : α → Sys β} (each : ∀ a, KeepsIfaces touched (f a)) :
    ∀ l : List α, KeepsIfaces touched (l.mapM f)
  | [] => .pure _
  | a :: l => by
    rw [List.mapM_cons]
    exact (each a).bind fun _ => (mapM_keepsIfaces each l).bind fun _ => .pure _

theorem createObject_keepsIfaces (object : KObject) : KeepsIfaces touched (createObject object) := by
  refine KeepsIfaces.get_bind fun w => ?_
  rintro r w' ⟨⟩
  exact .of_ifaces rfl rfl

theorem loadMap_keepsIfaces (map : MapDef) : KeepsIfaces touched (loadMap map) := fun w _ _ run => by
  rcases loadMap_cases map w with ⟨-, _, -, eq⟩ | ⟨-, eq⟩ <;> rw [eq] at run <;> cases run
  · exact .of_ifaces rfl rfl
  · split <;> exact .of_ifaces rfl rfl

theorem bpfProgLoad_keepsIfaces (file : String) : KeepsIfaces touched (bpfProgLoad file) := by
  refine .outcome (fun e => (fail_keepsIfaces e).bind fun _ => .pure _) fun w => ?_
  split
  · exact ((fail_keepsIfaces _).bind fun _ => .pure _) w
  · have loadProg (prog : ProgDef) : KeepsIfaces touched (loadProg prog) :=
      KeepsIfaces.get_bind fun w => ((createObject_keepsIfaces _).bind fun _ => .pure _) w
    have failed (e : Nat) : KeepsIfaces touched (do pure (← fail e, (none : Option LoadedObject))) :=
      (fail_keepsIfaces e).bind fun _ => .pure _
    exact (KeepsIfaces.ite (failed _) (.ite (failed _) ((mapM_keepsIfaces loadMap_keepsIfaces _).bind fun _ =>
      (mapM_keepsIfaces loadProg _).bind fun _ => .pure _))) w

theorem forIn_close_keepsIfaces {α : Type} (fd : α → Int) : ∀ l : List α,
    KeepsIfaces touched (forIn l PUnit.unit fun a _ => do close (fd a); pure (ForInStep.yield PUnit.unit) : Sys PUnit)
  | [] => .pure _
  | a :: l => by
    simp only [List.forIn_cons, bind_assoc, pure_bind]
    exact (close_keepsIfaces _).bind fun _ => forIn_close_keepsIfaces fd l

theorem bpfObjectClose_keepsIfaces (obj : LoadedObject) : KeepsIfaces touched (bpfObjectClose obj) :=
  (forIn_close_keepsIfaces LoadedProg.fd obj.progs).bind fun _ =>
    (forIn_close_keepsIfaces LoadedMap.fd obj.maps).bind fun _ => .pure _

theorem readUptime_keepsIfaces : KeepsIfaces touched readUptime :=
  .outcome (fun e => (fail_keepsIfaces e).bind fun _ => .pure _) fun w => KeepsIfaces.pure _ w

theorem gettimeofday_keepsIfaces : KeepsIfaces touched gettimeofday :=
  .outcome (fun e => (fail_keepsIfaces e).bind fun _ => .pure _) fun w => KeepsIfaces.pure _ w

/-! The four calls that change an interface change the one of their index. -/

theorem bpfSetLinkXdpFd_keepsIfaces (ifindex fd : Int) (flags : XdpFlags) :
    KeepsIfaces (· = ifindex.toNat) (bpfSetLinkXdpFd ifindex fd flags) := by
  refine .outcome (fun e => fail_keepsIfaces e) fun w => ?_
  dsimp only
  split_ifs
  all_goals first
    | exact fail_keepsIfaces _ w
    | exact KeepsIfaces.set (.setIface w ifindex _) (.pure _)

theorem bpfTcHookCreate_keepsIfaces (ifindex : Int) :
    KeepsIfaces (· = ifindex.toNat) (bpfTcHookCreate ifindex) := by
  refine .outcome (fun e => fail_keepsIfaces e) fun w => ?_
  dsimp only
  split_ifs
  · exact fail_keepsIfaces _ w
  · exact KeepsIfaces.set (.setIface w ifindex _) (.pure _)

theorem bpfTcHookDestroy_keepsIfaces (ifindex : Int) :
    KeepsIfaces (· = ifindex.toNat) (bpfTcHookDestroy ifindex) := by
  refine .outcome (fun e => fail_keepsIfaces e) fun w => ?_
  dsimp only
  split_ifs
  · exact KeepsIfaces.set (.setIface w ifindex _) (.pure _)
  · exact fail_keepsIfaces _ w

theorem bpfTcAttach_keepsIfaces (ifindex : Int) (point : TcAttachPoint) (fd : Int) :
    KeepsIfaces (· = ifindex.toNat) (bpfTcAttach ifindex point fd) := by
  refine .outcome (fun e => fail_keepsIfaces e) fun w => ?_
  dsimp only
  split_ifs
  · split
    · exact fail_keepsIfaces _ w
    · exact KeepsIfaces.set (.setIface w ifindex _) (.pure _)
  · exact fail_keepsIfaces _ w

theorem crash_keepsIfaces {α : Type} : KeepsIfaces touched (crash : Sys α) := fun _ _ _ run => nomatch run

end Calls

/-! ## The operations but the port operations change no interface -/

section Operations

variable (defs : BpfDefs) (ctx : NikssContext) {touched : Nat → Prop}

theorem updateMapInfo_keepsIfaces (md : MapDescriptor) : KeepsIfaces touched (updateMapInfo md) := by
  refine .ite (.pure _) ((bpfObjGetInfoByFd_keepsIfaces _).bind fun ⟨_, info⟩ =>
    .ite (getErrno_keepsIfaces.bind fun _ => .pure _) ?_)
  split <;> exact .pure _

theorem openBpfMap_keepsIfaces (name : String) (btf : Option Btf) :
    KeepsIfaces touched (openBpfMap ctx name btf) := by
  refine (bpfObjGet_keepsIfaces _).bind fun _ => .ite (getErrno_keepsIfaces.bind fun _ => .pure _) ?_
  refine (updateMapInfo_keepsIfaces _).bind fun ⟨_, _⟩ => .ite (.pure _) ?_
  cases btf with
  | none => exact .pure _
  | some btf => exact (KeepsIfaces.liftM _).bind fun _ => .pure _

theorem joinTupleToMapIfTuple_keepsIfaces (tupleName : String) :
    KeepsIfaces touched (joinTupleToMapIfTuple ctx tupleName) := by
  unfold joinTupleToMapIfTuple
  split
  · exact .pure _
  · simp only [pure_bind]
    exact (openBpfMap_keepsIfaces ctx _ _).bind fun ⟨_, _⟩ => .ite (.pure _) <|
      (KeepsIfaces.liftM _).bind fun ⟨_, _⟩ => .ite (.pure _) <|
        (openBpfMap_keepsIfaces ctx _ _).bind fun ⟨_, _⟩ => .ite (.pure _) <|
          (bpfMapUpdateElem_keepsIfaces _ _ _).bind fun _ => .pure _

theorem pinPrograms_keepsIfaces : ∀ (ret : Int) (progs : List LoadedProg),
    KeepsIfaces touched (pinPrograms ctx ret progs)
  | _, [] => .pure _
  | _, _ :: progs => (bpfObjPin_keepsIfaces _ _).bind fun ret => .ite (.pure _) (pinPrograms_keepsIfaces ret progs)

theorem pinMapByName_keepsIfaces (ret : Int) (map : LoadedMap) : KeepsIfaces touched (pinMapByName ctx ret map) := by
  simp only [pinMapByName, pure_bind]
  exact .ite (.pure _) <| bpfMapSetPinPath_keepsIfaces.bind fun _ => .ite (.pure _) <|
    (bpfObjPin_keepsIfaces _ _).bind fun _ => .ite (.pure _) <|
      (joinTupleToMapIfTuple_keepsIfaces ctx _).bind fun _ => .ite (.pure _) (.pure _)

theorem pinMaps_keepsIfaces : ∀ (ret : Int) (maps : List LoadedMap), KeepsIfaces touched (pinMaps ctx ret maps)
  | _, [] => .pure _
  | ret, map :: maps =>
    (KeepsIfaces.ite ((bpfMapUnpin_keepsIfaces map).bind fun _ =>
      .ite (.pure _) (pinMapByName_keepsIfaces ctx _ map)) (pinMapByName_keepsIfaces ctx ret map)).bind fun
      | .error _ => .pure _
      | .ok ret => pinMaps_keepsIfaces ret maps

theorem initializeMaps_keepsIfaces : ∀ (ret : Int) (progs : List LoadedProg),
    KeepsIfaces touched (initializeMaps defs ret progs)
  | _, [] => .pure _
  | ret, _ :: progs =>
    .ite ((bpfProgTestRun_keepsIfaces _).bind fun _ =>
      .ite (getErrno_keepsIfaces.bind fun _ => .pure _) (initializeMaps_keepsIfaces _ progs))
      (initializeMaps_keepsIfaces ret progs)

theorem nikssPipelineLoad_keepsIfaces (file : String) : KeepsIfaces touched (nikssPipelineLoad defs ctx file) := by
  refine (bpfProgLoad_keepsIfaces file).bind fun ⟨_, obj⟩ => ?_
  rcases obj with _ | obj
  · exact getErrno_keepsIfaces
  refine .ite getErrno_keepsIfaces <|
    KeepsIfaces.bind ?_ fun _ => (bpfObjectClose_keepsIfaces obj).bind fun _ => .pure _
  exact (pinPrograms_keepsIfaces ctx _ _).bind fun
    | .error _ => .pure _
    | .ok _ => (pinMaps_keepsIfaces ctx _ _).bind fun
      | .error _ => .pure _
      | .ok _ => (initializeMaps_keepsIfaces defs _ _).bind fun
        | .error _ | .ok _ => .pure _

theorem nikssPipelineUnload_keepsIfaces (walk : Except Nat (List FtwEntry)) :
    KeepsIfaces touched (nikssPipelineUnload ctx walk) := by
  intro w r w' run
  rcases walk with e | entries
  · rw [nikssPipelineUnload_of_error] at run
    cases run
    exact .of_ifaces rfl rfl
  · obtain ⟨_, unloaded⟩ := nikssPipelineUnload_apply ctx entries w
    rw [unloaded] at run
    cases run
    exact .of_ifaces rfl rfl

theorem openPipelineProgram_keepsIfaces : KeepsIfaces touched (openPipelineProgram defs ctx) :=
  (openProgByName_keepsIfaces _ _).bind fun _ => .ite (openProgByName_keepsIfaces _ _) (.pure _)

theorem nikssPortListInit_keepsIfaces : KeepsIfaces touched (nikssPortListInit defs ctx) := by
  simp only [nikssPortListInit, pure_bind]
  exact ifNameindex_keepsIfaces.bind fun _ => .ite (getErrno_keepsIfaces.bind fun _ => .pure _) <|
    (openPipelineProgram_keepsIfaces defs ctx).bind fun _ => .ite (getErrno_keepsIfaces.bind fun _ => .pure _) <|
      (bpfObjGetInfoByFd_keepsIfaces _).bind fun ⟨_, _⟩ =>
        .ite (getErrno_keepsIfaces.bind fun _ => (close_keepsIfaces _).bind fun _ => .pure _)
          ((close_keepsIfaces _).bind fun _ => .pure _)

theorem nextPortLoop_keepsIfaces (xdpProgId : Nat) :
    ∀ (index : Nat) (ifaces : List (Nat × String)), KeepsIfaces touched (nextPortLoop xdpProgId index ifaces)
  | _, [] => .pure _
  | index, (_, _) :: ifaces => by
    simp only [nextPortLoop, pure_bind]
    exact .ite (.pure _) ((bpfGetLinkXdpId_keepsIfaces _).bind fun ⟨_, _⟩ =>
      .ite ((nextPortLoop_keepsIfaces xdpProgId (index + 1) ifaces).bind fun _ => .pure _)
        (.ite (.pure _) (nextPortLoop_keepsIfaces xdpProgId (index + 1) ifaces)))

theorem nextPorts_keepsIfaces : ∀ (calls : Nat) (list : NikssPortList), KeepsIfaces touched (nextPorts calls list)
  | 0, _ => .pure _
  | calls + 1, list => by
    refine KeepsIfaces.bind ?_ fun ⟨_, list⟩ => (nextPorts_keepsIfaces calls list).bind fun ⟨_, _⟩ => .pure _
    unfold nikssPortListGetNextPort
    split
    · exact .pure _
    · exact (nextPortLoop_keepsIfaces _ _ _).bind fun
        | none => .pure _
        | some _ => .pure _

theorem nikssPipelineGetLoadTimestamp_keepsIfaces : KeepsIfaces touched (nikssPipelineGetLoadTimestamp defs ctx) := by
  simp only [nikssPipelineGetLoadTimestamp, pure_bind]
  have closed (a : Nat) (fd : Int) : KeepsIfaces touched (do close fd; pure a) :=
    (close_keepsIfaces _).bind fun _ => .pure _
  exact (openPipelineProgram_keepsIfaces defs ctx).bind fun _ => .ite (.pure _) <|
    (bpfObjGetInfoByFd_keepsIfaces _).bind fun ⟨_, _⟩ => .ite (closed _ _) <| readUptime_keepsIfaces.bind fun
      | none => closed _ _
      | some _ => gettimeofday_keepsIfaces.bind fun
        | none => closed _ _
        | some _ => closed _ _

end Operations

/-! ## The port operations change the interface they name -/

section Ports

variable (defs : BpfDefs) (ctx : NikssContext) (ifindex : Int)

theorem tcCreateHook_keepsIfaces : KeepsIfaces (· = ifindex.toNat) (tcCreateHook ifindex) :=
  (bpfTcHookCreate_keepsIfaces _).bind fun _ => .ite getErrno_keepsIfaces (.pure _)

theorem tcAttachProg_keepsIfaces (prog : String) (hookPoint : TcAttachPoint) :
    KeepsIfaces (· = ifindex.toNat) (tcAttachProg ctx prog ifindex hookPoint) := by
  simp only [tcAttachProg, pure_bind]
  exact (openProgByName_keepsIfaces _ _).bind fun _ =>
    .ite (getErrno_keepsIfaces.bind fun _ => .ite (.pure _) (.pure _)) <|
      (bpfTcAttach_keepsIfaces _ _ _).bind fun _ =>
        .ite (getErrno_keepsIfaces.bind fun _ => (close_keepsIfaces _).bind fun _ => .pure _)
          ((close_keepsIfaces _).bind fun _ => .pure _)

theorem tcCreateHookAndAttachProgs_keepsIfaces :
    KeepsIfaces (· = ifindex.toNat) (tcCreateHookAndAttachProgs defs ctx ifindex) := by
  simp only [tcCreateHookAndAttachProgs, pure_bind]
  exact (tcCreateHook_keepsIfaces _).bind fun _ => .ite (.pure _) <|
    (tcAttachProg_keepsIfaces ctx _ _ _).bind fun _ => .ite (.pure _) <|
      (tcAttachProg_keepsIfaces ctx _ _ _).bind fun _ => .ite (.pure _) (.pure _)

theorem xdpAttachProgToPort_keepsIfaces (prog : String) :
    KeepsIfaces (· = ifindex.toNat) (xdpAttachProgToPort ctx ifindex prog) := by
  simp only [xdpAttachProgToPort, pure_bind]
  refine (openProgByName_keepsIfaces _ _).bind fun fd => .ite (getErrno_keepsIfaces.bind fun _ => .pure _) ?_
  have settle (ret : Int) : KeepsIfaces (· = ifindex.toNat)
      (if ret < 0 then (do pure (-ret, ← closeObjectFd fd)) else pure (NO_ERROR, fd)) :=
    .ite ((closeObjectFd_keepsIfaces _).bind fun _ => .pure _) (.pure _)
  exact (bpfSetLinkXdpFd_keepsIfaces _ _ _).bind fun _ =>
    .ite (settle _) ((bpfSetLinkXdpFd_keepsIfaces _ _ _).bind fun _ => settle _)

theorem updateProgDevmap_keepsIfaces {touched : Nat → Prop} (devmap : MapDescriptor) (intf : String)
    (egressProgFd : Int) : KeepsIfaces touched (updateProgDevmap devmap ifindex intf egressProgFd) := by
  unfold updateProgDevmap
  lift_lets
  intro progFd capacity index store check
  have stored : ∀ y, KeepsIfaces touched (store y) := fun _ =>
    (bpfMapUpdateElem_keepsIfaces _ _ _).bind fun _ => .ite getErrno_keepsIfaces (.pure _)
  have checked : ∀ y, KeepsIfaces touched (check y) := fun _ =>
    .ite (crash_keepsIfaces.bind stored) ((KeepsIfaces.pure _).bind stored)
  refine .ite (KeepsIfaces.bind ?_ checked) ((KeepsIfaces.pure _).bind checked)
  rintro w r w' ⟨⟩
  exact .of_ifaces rfl rfl

theorem xdpPortAdd_keepsIfaces (intf : String) : KeepsIfaces (· = ifindex.toNat) (xdpPortAdd defs ctx intf ifindex) := by
  simp only [xdpPortAdd, xdpPortAddDevmap, xdpPortAddJumpTable, pure_bind]
  refine (xdpAttachProgToPort_keepsIfaces ctx ifindex _).bind fun ⟨_, _⟩ => .ite (.pure _) ?_
  refine (closeObjectFd_keepsIfaces _).bind fun _ => KeepsIfaces.bind ?_ fun _ => .ite (.pure _) ?_
  · exact (openProgByName_keepsIfaces _ _).bind fun _ => (openBpfMap_keepsIfaces ctx _ _).bind fun ⟨_, _⟩ =>
      .ite ((closeObjectFd_keepsIfaces _).bind fun _ => .pure _) <|
        (updateProgDevmap_keepsIfaces _ _ _ _).bind fun _ => (closeObjectFd_keepsIfaces _).bind fun _ =>
          (closeObjectFd_keepsIfaces _).bind fun _ => .pure _
  refine KeepsIfaces.bind ?_ fun
    | some _ => .pure _
    | none => (tcCreateHookAndAttachProgs_keepsIfaces defs ctx ifindex).bind fun _ => .ite (.pure _) (.pure _)
  exact (openProgByName_keepsIfaces _ _).bind fun _ => .ite (.pure _) <|
    (openBpfMap_keepsIfaces ctx _ _).bind fun ⟨_, _⟩ => .ite ((closeObjectFd_keepsIfaces _).bind fun _ => .pure _) <|
      (bpfMapUpdateElem_keepsIfaces _ _ _).bind fun _ => getErrno_keepsIfaces.bind fun _ =>
        (closeObjectFd_keepsIfaces _).bind fun _ => (closeObjectFd_keepsIfaces _).bind fun _ =>
          .ite (.pure _) (.pure _)

theorem tcPortAdd_keepsIfaces : KeepsIfaces (· = ifindex.toNat) (tcPortAdd defs ctx ifindex) := by
  simp only [tcPortAdd, pure_bind]
  exact (xdpAttachProgToPort_keepsIfaces ctx ifindex _).bind fun _ => .ite (.pure _) <|
    (closeObjectFd_keepsIfaces _).bind fun _ => (tcCreateHookAndAttachProgs_keepsIfaces defs ctx ifindex).bind fun _ =>
      .ite (.pure _) (.pure _)

end Ports

/-! ## `add_port` and `del_port` -/

section Named

variable (defs : BpfDefs) (ctx : NikssContext)

theorem ifNametoindex_apply (name : String) (w : World) :
    ifNametoindex name w = some (((w.links.find? fun link => link.2 = name).map Prod.fst).getD 0, w) := rfl

/-- A port operation named `interface`: the interface `if_nametoindex` finds is kept by
what follows when it is not found, and what follows changes at most that interface when it
is found. -/
theorem ifNametoindex_then {α : Type} (interface : String) (w : World) {rest : Nat → Sys α}
    (found : ∀ k, uint32ToInt k ≠ 0 → KeepsIfaces (· = (uint32ToInt k).toNat) (rest k))
    (missing : ∀ k, uint32ToInt k = 0 → KeepsIfaces (fun _ => False) (rest k)) :
    Spec (ifNametoindex interface >>= rest) (fun _ w' => w.SameIfacesBut
      (fun n => ∃ k, (k, interface) ∈ w.links ∧ n = (uint32ToInt k).toNat) w') w := by
  rw [Spec, Sys.bind_apply, ifNametoindex_apply, Option.some_bind]
  by_cases named : uint32ToInt (((w.links.find? fun link => link.2 = interface).map Prod.fst).getD 0) = 0
  · exact (missing _ named w).mono fun _ _ same => same.mono fun _ => False.elim
  · obtain ⟨k, linked, index⟩ := ifNametoindex_found named
    exact (found _ named w).mono fun _ _ same => same.mono fun n touched => ⟨k, linked, index ▸ touched⟩

/-- `add_port` changes only the interface its name has in the table. -/
theorem nikssPipelineAddPort_sameIfaces (interface : String) (w : World) :
    Spec (nikssPipelineAddPort defs ctx interface) (fun _ w' => w.SameIfacesBut
      (fun n => ∃ k, (k, interface) ∈ w.links ∧ n = (uint32ToInt k).toNat) w') w := by
  simp only [nikssPipelineAddPort, pure_bind]
  refine (@access_keepsIfaces (fun _ => False) _ w).bind fun _ w₁ same₁ => ?_
  refine (ifNametoindex_then interface w₁ (fun k _ => .ite (.pure _) ?_) fun k zero => ?_).mono
    fun _ _ same => (same₁.mono fun _ => False.elim).trans
      (same.mono fun _ ⟨k, linked, touched⟩ => ⟨k, same₁.links ▸ linked, touched⟩)
  · exact .ite ((xdpPortAdd_keepsIfaces defs ctx _ _).bind fun _ => .pure _)
      ((tcPortAdd_keepsIfaces defs ctx _).bind fun _ => .pure _)
  · simp only [zero, if_true]
    exact .pure _

/-- `del_port` changes only the interface its name has in the table. -/
theorem nikssPipelineDelPort_sameIfaces (interface : String) (w : World) :
    Spec (nikssPipelineDelPort interface) (fun _ w' => w.SameIfacesBut
      (fun n => ∃ k, (k, interface) ∈ w.links ∧ n = (uint32ToInt k).toNat) w') w := by
  simp only [nikssPipelineDelPort, pure_bind]
  refine ifNametoindex_then interface w (fun k _ => .ite (.pure _) ?_) fun k zero => ?_
  · exact (bpfSetLinkXdpFd_keepsIfaces _ _ _).bind fun _ => .ite (.pure _) <|
      (bpfTcHookDestroy_keepsIfaces _).bind fun _ =>
        .ite (getErrno_keepsIfaces.bind fun _ => .ite (.pure _) (.pure _)) (.pure _)
  · simp only [zero, if_true]
    exact .pure _

end Named

/-! ## Any interleaving of operations -/

/-- The interface an operation names: the one of `add_port` or `del_port`. -/
def Op.port : Op → Option String
  | .addPort _ interface | .delPort _ interface => some interface
  | _ => none

/-- The interfaces an operation may change: those of the table named as its port is. -/
def Op.Touches (links : List (Nat × String)) (op : Op) (n : Nat) : Prop :=
  ∃ interface k, op.port = some interface ∧ (k, interface) ∈ links ∧ n = (uint32ToInt k).toNat

theorem Op.run_sameIfaces (defs : BpfDefs) (op : Op) (w : World) :
    Spec (op.run defs) (fun _ w' => w.SameIfacesBut (op.Touches w.links) w') w := by
  cases op with
  | load ctx file => exact ((nikssPipelineLoad_keepsIfaces defs ctx file).bind fun _ => .pure _) w
  | unload ctx walk => exact ((nikssPipelineUnload_keepsIfaces ctx walk).bind fun _ => .pure _) w
  | addPort ctx interface =>
    exact (nikssPipelineAddPort_sameIfaces defs ctx interface w).bind fun _ _ same =>
      .pure (same.mono fun _ ⟨k, linked, index⟩ => ⟨interface, k, rfl, linked, index⟩)
  | delPort _ interface =>
    exact (nikssPipelineDelPort_sameIfaces interface w).bind fun _ _ same =>
      .pure (same.mono fun _ ⟨k, linked, index⟩ => ⟨interface, k, rfl, linked, index⟩)
  | listPorts ctx calls =>
    exact ((nikssPortListInit_keepsIfaces defs ctx).bind fun ⟨_, _⟩ =>
      .ite ((nextPorts_keepsIfaces _ _).bind fun _ => .pure _) (.pure _)) w
  | getLoadTimestamp ctx => exact ((nikssPipelineGetLoadTimestamp_keepsIfaces defs ctx).bind fun _ => .pure _) w
  | openMap ctx name btf => exact ((openBpfMap_keepsIfaces ctx name btf).bind fun _ => .pure _) w

theorem runOps_sameIfaces (defs : BpfDefs) : ∀ (ops : List Op) (w : World),
    Spec (runOps defs ops) (fun _ w' => w.SameIfacesBut (fun n => ∃ op ∈ ops, op.Touches w.links n) w') w
  | [], w => .pure (.refl w)
  | op :: ops, w => (Op.run_sameIfaces defs op w).bind fun _ w₁ first =>
    (runOps_sameIfaces defs ops w₁).mono fun _ _ second =>
      (first.mono fun _ touched => ⟨op, .head _, touched⟩).trans
        (second.mono fun _ ⟨op', mem, touched⟩ => ⟨op', .tail _ mem, first.links ▸ touched⟩)

/-- Ports are isolated over any interleaving of operations: whatever the kernel's state,
the outcome sequence and the order of the calls, a run leaves the interface names as they
were, and the XDP programs, the TC hook and the TC filters of an interface as they were when
no `add_port` or `del_port` of the run names it, interface indices being positive `int`s as
the kernel gives them. The load, the unload, the listing, the load timestamp and
`open_bpf_map` change no interface, and a port operation changes only the interface
`if_nametoindex` finds for its name. -/
theorem runOps_keeps_other_interfaces (defs : BpfDefs) (ops : List Op) {w w' : World} (n : Nat)
    (indices : ∀ link ∈ w.links, link.1 < 2 ^ 31)
    (unnamed : ∀ op ∈ ops, ∀ link ∈ w.links, op.port = some link.2 → link.1 ≠ n)
    (run : runOps defs ops w = some ((), w')) : w'.links = w.links ∧ w'.ifaces n = w.ifaces n := by
  have same := runOps_sameIfaces defs ops w _ _ run
  refine ⟨same.links, same.ifaces n fun ⟨op, mem, interface, k, port, linked, index⟩ => ?_⟩
  refine unnamed op mem _ linked port ?_
  rw [index, uint32ToInt_of_lt (indices _ linked)]
  rfl

/-- `runOps_keeps_other_interfaces` on two interfaces with generic XDP programs and TC
hooks: deleting the port `eth0`, listing the ports and adding `eth0` again, which fails as
no pipeline is loaded, clears `eth0` and leaves the interface names and `eth1` as they
were. -/
theorem runOps_keeps_other_interfaces_beside_a_deleted_port :
    let defs : BpfDefs := ⟨"tc-ingress", "tc-egress", "xdp-ingress", "xdp-egress",
      "xdp-egress-optimized", "xdp-helper", "tc-init", "xdp-init", "devmap", "jump-table", by decide⟩
    let hooked : Iface := ⟨false, none, some 7, true, [8], [9]⟩
    let w := World.boot (fun _ => none) [(1, "eth0"), (2, "eth1")] (fun _ => hooked) []
    let ops : List Op := [.delPort ⟨0⟩ "eth0", .listPorts ⟨0⟩ 2, .addPort ⟨0⟩ "eth0"]
    ∃ w', runOps defs ops w = some ((), w') ∧ w'.ifaces 1 = Iface.bare false ∧
      ((∀ link ∈ w.links, link.1 < 2 ^ 31) ∧ (∀ op ∈ ops, ∀ link ∈ w.links, op.port = some link.2 → link.1 ≠ 2) ∧
        w'.links = w.links ∧ w'.ifaces 2 = w.ifaces 2) := by
  intro defs hooked w ops
  have indices : ∀ link ∈ w.links, link.1 < 2 ^ 31 := by decide
  have unnamed : ∀ op ∈ ops, ∀ link ∈ w.links, op.port = some link.2 → link.1 ≠ 2 := by decide
  exact ⟨_, rfl, rfl, indices, unnamed, runOps_keeps_other_interfaces defs ops 2 indices unnamed rfl⟩

end Nikss
