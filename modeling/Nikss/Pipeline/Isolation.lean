import Nikss.Pipeline.Order
import Nikss.Pipeline.Unload
import Nikss.Port.Repeat
import Nikss.Port.List

/-! # Pipelines are isolated

Each pipeline has its own namespace of the BPF filesystem: its programs
(`build_ebpf_prog_filename`) and maps (`build_ebpf_map_filename`) under its id. Many
pipelines share one kernel, so a maintainer needs every operation of the library to stay
inside its own pipeline's namespace.

`KeepsPins kept m` says that every run of `m`, whatever the outcome sequence, leaves the
pin of every path of `kept` as it was. It is built up by the rules of this file (`pure`,
`bind`, reading the state, `if`) from one lemma per call, so that the proof for an
operation follows the operation's own code:

* the port operations, the listing of ports, the load timestamp and `open_bpf_map` change
  no pin at all;
* the load pins under its own pipeline and at libbpf's pin root only
  (`nikssPipelineLoad_keepsPins`), the unload removes under its own pipeline only
  (`nikssPipelineUnload_keepsPins`).

Over any interleaving of operations (`runOps`), a pipeline's namespace changes only by
a load or an unload addressed to it (`runOps_keeps_namespace`).
-/

namespace Nikss

/-! ## Computations that keep pins -/

section Frame

variable {α β : Type} {kept : Path → Prop}

/-- A run of `m` from `w` leaves the pin of every path of `kept` as it was. -/
def KeepsPinsFrom (kept : Path → Prop) (w : World) (m : Sys α) : Prop :=
  ∀ r w', m w = some (r, w') → ∀ path, kept path → w'.pins path = w.pins path

/-- Every run of `m`, whatever the outcome sequence, leaves the pin of every path of
`kept` as it was. -/
def KeepsPins (kept : Path → Prop) (m : Sys α) : Prop := ∀ w, KeepsPinsFrom kept w m

namespace KeepsPins

theorem pure (a : α) : KeepsPins kept (pure a : Sys α) := by
  rintro w r w' ⟨⟩ path -
  rfl

theorem bind {m : Sys α} {f : α → Sys β} (first : KeepsPins kept m)
    (rest : ∀ a, KeepsPins kept (f a)) : KeepsPins kept (m >>= f) := by
  intro w r w' run path keep
  obtain ⟨⟨a, w₁⟩, ran, continued⟩ := Option.bind_eq_some.mp run
  exact (rest a w₁ r w' continued path keep).trans (first w a w₁ ran path keep)

/-- After reading the state, the rest need keep the pins only from the state read. -/
theorem get_bind {f : World → Sys β} (rest : ∀ w, KeepsPinsFrom kept w (f w)) :
    KeepsPins kept (MonadState.get >>= f) :=
  fun w r w' run => rest w r w' run

theorem ite {c : Prop} [Decidable c] {a b : Sys α} (yes : KeepsPins kept a)
    (no : KeepsPins kept b) : KeepsPins kept (if c then a else b) := by
  split
  · exact yes
  · exact no

/-- A computation that keeps the XDP state keeps every pin. -/
theorem of_keepsXdp {m : Sys α} (keeps : KeepsXdp m) : KeepsPins kept m :=
  fun w r w' run path _ => congrFun (keeps w r w' run).pins path

theorem mono {kept' : Path → Prop} {m : Sys α} (keeps : KeepsPins kept m)
    (sub : ∀ path, kept' path → kept path) : KeepsPins kept' m :=
  fun w r w' run path keep => keeps w r w' run path (sub path keep)

end KeepsPins

end Frame

/-! ## The calls -/

section Calls

variable {kept : Path → Prop}

theorem nextOutcome_keepsPins : KeepsPins kept nextOutcome := .of_keepsXdp nextOutcome_keepsXdp

theorem fail_keepsPins (e : Nat) : KeepsPins kept (fail e) := .of_keepsXdp (fail_keepsXdp e)

theorem getErrno_keepsPins : KeepsPins kept getErrno := .of_keepsXdp getErrno_keepsXdp

/-- A call that takes an outcome, fails on a failing one, and otherwise reads the state
and keeps the pins. -/
theorem outcome_keepsPins {α : Type} {onFailure : ℕ+ → Sys α} {body : World → Sys α}
    (failed : ∀ e, KeepsPins kept (onFailure e)) (proceeds : ∀ w, KeepsPinsFrom kept w (body w)) :
    KeepsPins kept (do match ← nextOutcome with
      | some e => onFailure e
      | none => MonadState.get >>= body) :=
  nextOutcome_keepsPins.bind fun
    | some e => failed e
    | none => KeepsPins.get_bind proceeds

theorem bpfSetLinkXdpFd_keepsPins (ifindex fd : Int) (flags : XdpFlags) :
    KeepsPins kept (bpfSetLinkXdpFd ifindex fd flags) := by
  refine outcome_keepsPins (fun e => fail_keepsPins e) fun w => ?_
  dsimp only
  split_ifs
  all_goals first
    | exact fail_keepsPins _ w
    | rintro r w' ⟨⟩ path -; rfl

theorem bpfTcHookDestroy_keepsPins (ifindex : Int) : KeepsPins kept (bpfTcHookDestroy ifindex) := by
  refine outcome_keepsPins (fun e => fail_keepsPins e) fun w => ?_
  dsimp only
  split_ifs
  all_goals first
    | exact fail_keepsPins _ w
    | rintro r w' ⟨⟩ path -; rfl

theorem bpfGetLinkXdpId_keepsPins (ifindex : Int) : KeepsPins kept (bpfGetLinkXdpId ifindex) := by
  refine outcome_keepsPins (fun e => (fail_keepsPins e).bind fun _ => .pure _) fun w => ?_
  dsimp only
  split <;> exact KeepsPins.pure _ w

theorem bpfMapSetPinPath_keepsPins : KeepsPins kept bpfMapSetPinPath :=
  nextOutcome_keepsPins.bind fun
    | some e => fail_keepsPins e
    | none => .pure _

theorem bpfProgTestRun_keepsPins (fd : Int) : KeepsPins kept (bpfProgTestRun fd) :=
  outcome_keepsPins (fun e => fail_keepsPins e) fun w => KeepsPins.ite (fail_keepsPins _) (.pure _) w

theorem ifNameindex_keepsPins : KeepsPins kept ifNameindex :=
  outcome_keepsPins (fun e => (fail_keepsPins e).bind fun _ => .pure _) fun w => KeepsPins.pure _ w

theorem bpfObjPin_keepsPins (fd : Int) (path : Path) :
    KeepsPins (· ≠ path) (bpfObjPin fd path) := by
  refine outcome_keepsPins (fun e => fail_keepsPins e) fun w => ?_
  split
  · exact fail_keepsPins _ w
  · exact fail_keepsPins _ w
  · rintro r w' ⟨⟩ other differ
    exact Function.update_noteq differ _ _

theorem bpfMapUnpin_keepsPins (map : LoadedMap) :
    KeepsPins (· ≠ .root map.name) (bpfMapUnpin map) := by
  refine outcome_keepsPins (fun e => fail_keepsPins e) fun w => ?_
  split
  · exact fail_keepsPins _ w
  · rintro r w' ⟨⟩ other differ
    exact Function.update_noteq differ _ _

theorem mapM_keepsPins {α β : Type} {f : α → Sys β} (each : ∀ a, KeepsPins kept (f a)) :
    ∀ l : List α, KeepsPins kept (l.mapM f)
  | [] => .pure _
  | a :: l => by
    rw [List.mapM_cons]
    exact (each a).bind fun _ => (mapM_keepsPins each l).bind fun _ => .pure _

theorem createObject_keepsPins (object : KObject) : KeepsPins kept (createObject object) := by
  refine KeepsPins.get_bind fun w => ?_
  rintro r w' ⟨⟩ path -
  rfl

theorem loadProg_keepsPins (prog : ProgDef) : KeepsPins kept (loadProg prog) :=
  KeepsPins.get_bind fun w => ((createObject_keepsPins _).bind fun _ => .pure _) w

theorem openHandle_keepsPins (id : ℕ+) : KeepsPins kept (openHandle id) := by
  rintro w r w' ⟨⟩ path -
  rfl

/-- Loading a map pins at libbpf's pin root only. -/
theorem loadMap_keepsPins (map : MapDef) :
    KeepsPins (fun path => path.pipeline ≠ none) (loadMap map) := by
  refine KeepsPins.get_bind fun w => ?_
  split
  · exact ((openHandle_keepsPins _).bind fun _ => .pure _) w
  refine ((createObject_keepsPins _).bind fun ⟨fd, id⟩ => ?_) w
  refine .ite ?_ ((KeepsPins.pure _).bind fun _ => .pure _)
  refine KeepsPins.bind ?_ fun _ => .pure _
  rintro w r w' ⟨⟩ path own
  refine Function.update_noteq (fun root => own ?_) _ _
  rw [root]
  rfl

/-- `bpf_prog_load` pins at libbpf's pin root only. -/
theorem bpfProgLoad_keepsPins (file : String) :
    KeepsPins (fun path => path.pipeline ≠ none) (bpfProgLoad file) := by
  have refused : ∀ e, KeepsPins (fun path => path.pipeline ≠ none)
      (do let ret ← fail e; pure (ret, (none : Option LoadedObject))) :=
    fun e => (fail_keepsPins e).bind fun _ => .pure _
  refine nextOutcome_keepsPins.bind fun
    | some e => refused e
    | none => KeepsPins.get_bind fun w => ?_
  split
  · exact refused _ w
  · refine KeepsPins.ite (refused _) (.ite (refused _) ?_) w
    exact (mapM_keepsPins loadMap_keepsPins _).bind fun _ =>
      (mapM_keepsPins loadProg_keepsPins _).bind fun _ => .pure _

theorem bpfObjectClose_keepsPins (obj : LoadedObject) : KeepsPins kept (bpfObjectClose obj) := by
  intro w r w' run path _
  obtain ⟨w'', closed, pins, -⟩ := bpfObjectClose_keeps obj w
  rw [closed] at run
  cases run
  exact congrFun pins path

end Calls

/-! ## The load -/

/-- A path of a pipeline other than `pipeline`; libbpf's pin root is no pipeline's. -/
def Path.OfOtherPipeline (pipeline : Nat) (path : Path) : Prop :=
  ∃ other, path.pipeline = some other ∧ other ≠ pipeline

theorem Path.OfOtherPipeline.ne {pipeline : Nat} {path own : Path}
    (other : path.OfOtherPipeline pipeline) (owned : own.pipeline = some pipeline) : path ≠ own := by
  rintro rfl
  obtain ⟨q, named, differ⟩ := other
  exact differ (Option.some.inj (named.symm.trans owned))

theorem Path.OfOtherPipeline.not_root {pipeline : Nat} {path : Path}
    (other : path.OfOtherPipeline pipeline) : path.pipeline ≠ none := by
  obtain ⟨q, named, -⟩ := other
  rw [named]
  exact Option.some_ne_none q

section Load

variable (ctx : NikssContext)

theorem joinTupleToMapIfTuple_keepsPins {kept : Path → Prop} (tupleName : String) :
    KeepsPins kept (joinTupleToMapIfTuple ctx tupleName) := by
  unfold joinTupleToMapIfTuple
  split
  · exact .pure _
  · simp only [pure_bind]
    refine (KeepsPins.of_keepsXdp (openBpfMap_keepsXdp _ _ _)).bind fun ⟨_, tupleMap⟩ => ?_
    refine .ite (.pure _) ((KeepsPins.of_keepsXdp (KeepsXdp.liftM _)).bind fun ⟨_, _⟩ => ?_)
    refine .ite (.pure _) ((KeepsPins.of_keepsXdp (openBpfMap_keepsXdp _ _ _)).bind fun ⟨_, _⟩ => ?_)
    exact .ite (.pure _) ((KeepsPins.of_keepsXdp (bpfMapUpdateElem_keepsXdp _ _ _)).bind fun _ => .pure _)

theorem pinPrograms_keepsPins (ret : Int) :
    ∀ progs, KeepsPins (Path.OfOtherPipeline ctx.pipelineId) (pinPrograms ctx ret progs)
  | [] => .pure _
  | _ :: progs =>
    ((bpfObjPin_keepsPins _ _).mono fun _ other => other.ne rfl).bind fun _ =>
      .ite (.pure _) (pinPrograms_keepsPins _ progs)

theorem pinMapByName_keepsPins (ret : Int) (map : LoadedMap) :
    KeepsPins (Path.OfOtherPipeline ctx.pipelineId) (pinMapByName ctx ret map) := by
  simp only [pinMapByName, pure_bind]
  refine .ite (.pure _) (bpfMapSetPinPath_keepsPins.bind fun _ => .ite (.pure _) ?_)
  refine ((bpfObjPin_keepsPins _ _).mono fun _ other => other.ne rfl).bind fun _ =>
    .ite (.pure _) ((joinTupleToMapIfTuple_keepsPins ctx _).bind fun _ => .ite (.pure _) (.pure _))

theorem pinMap_keepsPins (ret : Int) (map : LoadedMap) :
    KeepsPins (Path.OfOtherPipeline ctx.pipelineId) (pinMap ctx ret map) :=
  .ite (((bpfMapUnpin_keepsPins map).mono fun _ other root => other.not_root (by rw [root]; rfl)).bind
    fun _ => .ite (.pure _) (pinMapByName_keepsPins ctx _ map)) (pinMapByName_keepsPins ctx _ map)

theorem pinMaps_keepsPins (ret : Int) :
    ∀ maps, KeepsPins (Path.OfOtherPipeline ctx.pipelineId) (pinMaps ctx ret maps)
  | [] => .pure _
  | map :: maps => (pinMap_keepsPins ctx ret map).bind fun
    | .error _ => .pure _
    | .ok ret => pinMaps_keepsPins ret maps

theorem initializeMaps_keepsPins {kept : Path → Prop} (defs : BpfDefs) (ret : Int) :
    ∀ progs, KeepsPins kept (initializeMaps defs ret progs)
  | [] => .pure _
  | _ :: progs =>
    .ite ((bpfProgTestRun_keepsPins _).bind fun _ =>
      .ite (getErrno_keepsPins.bind fun _ => .pure _) (initializeMaps_keepsPins defs _ progs))
      (initializeMaps_keepsPins defs ret progs)

/-- A load, whatever the outcome sequence, leaves the namespace of every other pipeline as
it was: it pins under its own pipeline and at libbpf's pin root only. -/
theorem nikssPipelineLoad_keepsPins (defs : BpfDefs) (file : String) :
    KeepsPins (Path.OfOtherPipeline ctx.pipelineId) (nikssPipelineLoad defs ctx file) := by
  refine ((bpfProgLoad_keepsPins file).mono fun _ other => other.not_root).bind fun ⟨ret, obj⟩ => ?_
  rcases obj with _ | obj
  · exact getErrno_keepsPins
  · refine .ite getErrno_keepsPins ?_
    refine KeepsPins.bind ?_ fun _ => (bpfObjectClose_keepsPins obj).bind fun _ => .pure _
    refine (pinPrograms_keepsPins ctx ret obj.progs).bind fun
      | .error _ => .pure _
      | .ok ret => (pinMaps_keepsPins ctx ret obj.maps).bind fun
        | .error _ => .pure _
        | .ok ret => (initializeMaps_keepsPins defs ret obj.progs).bind fun
          | .error _ | .ok _ => .pure _

end Load

/-- An unload, whatever the walk and the outcome sequence, leaves every path outside its
pipeline's namespace as it was. -/
theorem nikssPipelineUnload_keepsPins (ctx : NikssContext) (walk : Except Nat (List FtwEntry)) :
    KeepsPins (fun path => path.pipeline ≠ some ctx.pipelineId) (nikssPipelineUnload ctx walk) := by
  intro w r w' run path other
  rcases walk with e | entries
  · rw [nikssPipelineUnload_of_error] at run
    cases run
    rfl
  · obtain ⟨errno, unloaded⟩ := nikssPipelineUnload_apply ctx entries w
    rw [unloaded] at run
    cases run
    refine if_neg fun removed => ?_
    obtain ⟨entry, -, named⟩ := visited_of_mem_removedFiles removed
    exact other (FtwEntry.pipeline_path named)

/-! ## Ports and queries change no pin -/

section Ports

variable {kept : Path → Prop} (defs : BpfDefs) (ctx : NikssContext)

theorem xdpAttachProgToPort_keepsPins (ifindex : Int) (prog : String) :
    KeepsPins kept (xdpAttachProgToPort ctx ifindex prog) := by
  simp only [xdpAttachProgToPort, pure_bind]
  refine (KeepsPins.of_keepsXdp (bpfObjGet_keepsXdp _)).bind fun fd => ?_
  have closing : KeepsPins kept (closeObjectFd fd) := .of_keepsXdp (closeObjectFd_keepsXdp fd)
  refine .ite (getErrno_keepsPins.bind fun _ => .pure _) ?_
  refine (bpfSetLinkXdpFd_keepsPins _ _ _).bind fun _ => ?_
  refine .ite (.ite (closing.bind fun _ => .pure _) (.pure _)) ?_
  exact (bpfSetLinkXdpFd_keepsPins _ _ _).bind fun _ =>
    .ite (closing.bind fun _ => .pure _) (.pure _)

theorem nikssPipelineAddPort_keepsPins (interface : String) :
    KeepsPins kept (nikssPipelineAddPort defs ctx interface) := by
  simp only [nikssPipelineAddPort, pure_bind]
  refine (KeepsPins.of_keepsXdp (access_keepsXdp _)).bind fun _ =>
    (KeepsPins.of_keepsXdp (ifNametoindex_keepsXdp _)).bind fun _ => .ite (.pure _) ?_
  split <;> refine KeepsPins.bind ?_ fun _ => .pure _
  · simp only [xdpPortAdd, pure_bind]
    refine (xdpAttachProgToPort_keepsPins ctx _ _).bind fun ⟨_, _⟩ => .ite (.pure _) ?_
    refine (KeepsPins.of_keepsXdp (closeObjectFd_keepsXdp _)).bind fun _ =>
      (KeepsPins.of_keepsXdp (xdpPortAddDevmap_keepsXdp _ _ _ _)).bind fun _ => .ite (.pure _) ?_
    refine (KeepsPins.of_keepsXdp (xdpPortAddJumpTable_keepsXdp _ _)).bind fun
      | some _ => .pure _
      | none => ?_
    exact (KeepsPins.of_keepsXdp (tcCreateHookAndAttachProgs_keepsXdp _ _ _)).bind fun _ =>
      .ite (.pure _) (.pure _)
  · simp only [tcPortAdd, pure_bind]
    exact (xdpAttachProgToPort_keepsPins ctx _ _).bind fun ⟨_, _⟩ => .ite (.pure _) <|
      (KeepsPins.of_keepsXdp (closeObjectFd_keepsXdp _)).bind fun _ =>
        (KeepsPins.of_keepsXdp (tcCreateHookAndAttachProgs_keepsXdp _ _ _)).bind fun _ =>
          .ite (.pure _) (.pure _)

theorem nikssPipelineDelPort_keepsPins (interface : String) :
    KeepsPins kept (nikssPipelineDelPort interface) := by
  simp only [nikssPipelineDelPort, pure_bind]
  refine (KeepsPins.of_keepsXdp (ifNametoindex_keepsXdp _)).bind fun _ => .ite (.pure _) ?_
  refine (bpfSetLinkXdpFd_keepsPins _ _ _).bind fun _ => .ite (.pure _) ?_
  exact (bpfTcHookDestroy_keepsPins _).bind fun _ =>
    .ite (getErrno_keepsPins.bind fun _ => .ite (.pure _) (.pure _)) (.pure _)

theorem openPipelineProgram_keepsPins : KeepsPins kept (openPipelineProgram defs ctx) :=
  (KeepsPins.of_keepsXdp (bpfObjGet_keepsXdp _)).bind fun _ =>
    .ite (.of_keepsXdp (bpfObjGet_keepsXdp _)) (.pure _)

theorem nikssPortListInit_keepsPins : KeepsPins kept (nikssPortListInit defs ctx) := by
  simp only [nikssPortListInit, pure_bind]
  refine ifNameindex_keepsPins.bind fun _ => .ite (getErrno_keepsPins.bind fun _ => .pure _) ?_
  refine (openPipelineProgram_keepsPins defs ctx).bind fun _ =>
    .ite (getErrno_keepsPins.bind fun _ => .pure _) ?_
  have closing (fd : Int) : KeepsPins kept (close fd) := .of_keepsXdp (close_keepsXdp fd)
  exact (KeepsPins.of_keepsXdp (bpfObjGetInfoByFd_keepsXdp _)).bind fun ⟨_, _⟩ =>
    .ite (getErrno_keepsPins.bind fun _ => (closing _).bind fun _ => .pure _)
      ((closing _).bind fun _ => .pure _)

theorem nextPortLoop_keepsPins (xdpProgId : Nat) :
    ∀ (index : Nat) (ifaces : List (Nat × String)), KeepsPins kept (nextPortLoop xdpProgId index ifaces)
  | _, [] => .pure _
  | index, (_, _) :: ifaces => by
    simp only [nextPortLoop, pure_bind]
    exact .ite (.pure _) ((bpfGetLinkXdpId_keepsPins _).bind fun ⟨_, _⟩ =>
      .ite ((nextPortLoop_keepsPins xdpProgId (index + 1) ifaces).bind fun _ => .pure _)
        (.ite (.pure _) (nextPortLoop_keepsPins xdpProgId (index + 1) ifaces)))

theorem nikssPortListGetNextPort_keepsPins (list : NikssPortList) :
    KeepsPins kept (nikssPortListGetNextPort list) := by
  unfold nikssPortListGetNextPort
  split
  · exact .pure _
  · exact (nextPortLoop_keepsPins _ _ _).bind fun
      | none => .pure _
      | some _ => .pure _

theorem nextPorts_keepsPins : ∀ (calls : Nat) (list : NikssPortList), KeepsPins kept (nextPorts calls list)
  | 0, _ => .pure _
  | calls + 1, list => (nikssPortListGetNextPort_keepsPins list).bind fun ⟨_, list⟩ =>
    (nextPorts_keepsPins calls list).bind fun ⟨_, _⟩ => .pure _

theorem nikssPipelineGetLoadTimestamp_keepsPins :
    KeepsPins kept (nikssPipelineGetLoadTimestamp defs ctx) := by
  simp only [nikssPipelineGetLoadTimestamp, pure_bind]
  have clock (read : World → Float) : KeepsPins kept (do
      match ← nextOutcome with
      | some e => do let _ ← fail e; pure none
      | none => pure (some (read (← get)))) :=
    outcome_keepsPins (fun e => (fail_keepsPins e).bind fun _ => .pure _) fun w => KeepsPins.pure _ w
  refine (openPipelineProgram_keepsPins defs ctx).bind fun fd => .ite (.pure _) ?_
  refine (KeepsPins.of_keepsXdp (bpfObjGetInfoByFd_keepsXdp _)).bind fun ⟨_, _⟩ => ?_
  have done (n : Nat) : KeepsPins kept (do close fd; pure n : Sys Nat) :=
    (KeepsPins.of_keepsXdp (close_keepsXdp fd)).bind fun _ => .pure _
  exact .ite (done 0) ((clock World.uptime).bind fun
    | none => done 0
    | some _ => (clock World.wallClock).bind fun
      | none => done 0
      | some _ => done _)

end Ports

/-! ## Any interleaving of operations -/

/-- A call of the library's pipeline API, addressed to a pipeline, as a control plane
issues them, in any order and for any pipelines. -/
inductive Op
  | load (ctx : NikssContext) (file : String)
  | unload (ctx : NikssContext) (walk : Except Nat (List FtwEntry))
  | addPort (ctx : NikssContext) (interface : String)
  | delPort (ctx : NikssContext) (interface : String)
  | listPorts (ctx : NikssContext) (calls : Nat)
  | getLoadTimestamp (ctx : NikssContext)
  | openMap (ctx : NikssContext) (name : String) (btf : Option Btf)

/-- The pipeline whose namespace an operation writes: a load's or an unload's. -/
def Op.writes : Op → Option Nat
  | .load ctx _ | .unload ctx _ => some ctx.pipelineId
  | _ => none

/-- One operation; its answer goes back to the caller. Listing ports is
`nikss_port_list_init` and, when it succeeds, `calls` calls of
`nikss_port_list_get_next_port`. -/
def Op.run (defs : BpfDefs) : Op → Sys Unit
  | .load ctx file => do let _ ← nikssPipelineLoad defs ctx file
  | .unload ctx walk => do let _ ← nikssPipelineUnload ctx walk
  | .addPort ctx interface => do let _ ← nikssPipelineAddPort defs ctx interface
  | .delPort _ interface => do let _ ← nikssPipelineDelPort interface
  | .listPorts ctx calls => do
    let (ret, list) ← nikssPortListInit defs ctx
    if ret = NO_ERROR then
      let _ ← nextPorts calls list
  | .getLoadTimestamp ctx => do let _ ← nikssPipelineGetLoadTimestamp defs ctx
  | .openMap ctx name btf => do let _ ← openBpfMap ctx name btf

/-- A run of operations, one after the other, on one kernel. -/
def runOps (defs : BpfDefs) : List Op → Sys Unit
  | [] => pure ()
  | op :: ops => do
    op.run defs
    runOps defs ops

/-- An operation that does not write pipeline `q`'s namespace leaves it as it was. -/
theorem Op.run_keepsPins (defs : BpfDefs) {q : Nat} :
    ∀ op : Op, op.writes ≠ some q → KeepsPins (fun path => path.pipeline = some q) (op.run defs)
  | .load ctx file, other => (nikssPipelineLoad_keepsPins ctx defs file).bind (fun _ => .pure _)
      |>.mono fun _ own => ⟨q, own, fun same => other (congrArg some same.symm)⟩
  | .unload ctx walk, other => (nikssPipelineUnload_keepsPins ctx walk).bind (fun _ => .pure _)
      |>.mono fun _ own => own ▸ fun same => other (congrArg some (Option.some.inj same).symm)
  | .addPort ctx interface, _ => (nikssPipelineAddPort_keepsPins defs ctx interface).bind fun _ => .pure _
  | .delPort _ interface, _ => (nikssPipelineDelPort_keepsPins interface).bind fun _ => .pure _
  | .listPorts ctx _, _ => (nikssPortListInit_keepsPins defs ctx).bind fun ⟨_, _⟩ =>
      .ite ((nextPorts_keepsPins _ _).bind fun _ => .pure _) (.pure _)
  | .getLoadTimestamp ctx, _ => (nikssPipelineGetLoadTimestamp_keepsPins defs ctx).bind fun _ => .pure _
  | .openMap ctx name btf, _ => (KeepsPins.of_keepsXdp (openBpfMap_keepsXdp ctx name btf)).bind
      fun _ => .pure _

/-- Pipelines are isolated over any interleaving of operations: whatever the kernel's
state, the outcome sequence and the order of the calls, a run of operations none of which
is a load or an unload of pipeline `q` leaves every program and map pinned under `q` as it
was, and pins nothing new there. -/
theorem runOps_keeps_namespace (defs : BpfDefs) (q : Nat) :
    ∀ ops : List Op, (∀ op ∈ ops, op.writes ≠ some q) →
      KeepsPins (fun path => path.pipeline = some q) (runOps defs ops)
  | [], _ => .pure _
  | op :: ops, others =>
    (Op.run_keepsPins defs op (others op (List.mem_cons_self op ops))).bind fun _ =>
      runOps_keeps_namespace defs q ops fun op' mem => others op' (List.mem_cons_of_mem op mem)

/-- `runOps_keeps_namespace` for pipeline 2, while pipeline 1 is loaded, gets and lists
ports, and is unloaded, and pipeline 2 gets a port. -/
theorem runOps_keeps_namespace_on_second_pipeline :
    let defs : BpfDefs := ⟨"tc-ingress", "tc-egress", "xdp-ingress", "xdp-egress",
      "xdp-egress-optimized", "xdp-helper", "tc-init", "xdp-init", "devmap", "jump-table", by decide⟩
    let ops : List Op := [.load ⟨1⟩ "pipeline.o", .addPort ⟨1⟩ "eth0", .addPort ⟨2⟩ "eth1",
      .listPorts ⟨1⟩ 3, .unload ⟨1⟩ (.ok [.map "t", .directory, .prog "ingress", .directory])]
    (∀ op ∈ ops, op.writes ≠ some 2) ∧ KeepsPins (fun path => path.pipeline = some 2) (runOps defs ops) :=
  ⟨by decide, runOps_keeps_namespace _ 2 _ (by decide)⟩

end Nikss
