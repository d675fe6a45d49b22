import Nikss.Pipeline.Leaks
import Nikss.Port.Listed

/-! # No operation crashes

Every operation of the library runs to completion or failure: whatever the kernel
answers, it returns to its caller. In the model a crash is the answer `none` of a
computation, and the code has two places where one can happen. `extract_tuple_id_from_tuple`
reads past a NULL `strrchr` on a name without `_`, which `join_tuple_to_map_if_tuple`
never passes it (`extractTupleIdFromTuple_isSome`). `update_prog_devmap` divides by the
devmap's capacity, which `update_map_info` leaves 0 for a handle on an object that is no
map: `add_port` returns as long as the object pinned under the devmap's name is a map with
between 1 and 2^32 - 1 entries (`openBpfMap_capacity`).

`Returns m` says that `m` returns from every world; the calls return, and the operations
follow by the rules of `Returns` from their code. Over a run the pins stay typed and every
map keeps a capacity of a kernel's map (`World.Sized`), since every map a load creates is one
its object file defines (`World.OnlyMapsSince`), so no run of operations crashes
(`runOps_returns`). Opening a map with a type graph is left out: the graph's lookups return
only on a well-formed graph (`Nikss.Btf`).
-/

namespace Nikss

/-! ## Computations that return -/

section Returns

variable {α β : Type}

/-- The run of `m` from `w` returns: the process does not crash in it. -/
def ReturnsFrom (w : World) (m : Sys α) : Prop := (m w).isSome

/-- A return of `m` from `w` and what its runs guarantee, `Q`, give a return of `m` and
then `f` when `f` returns from every world `Q` allows. -/
theorem ReturnsFrom.bind {m : Sys α} {f : α → Sys β} {w : World} {Q : α → World → Prop}
    (first : ReturnsFrom w m) (spec : Spec m Q w) (rest : ∀ a w₁, Q a w₁ → ReturnsFrom w₁ (f a)) :
    ReturnsFrom w (m >>= f) := by
  obtain ⟨⟨a, w₁⟩, ran⟩ := Option.isSome_iff_exists.mp first
  simp only [ReturnsFrom, Sys.bind_apply, ran, Option.some_bind]
  exact rest a w₁ (spec a w₁ ran)

theorem ReturnsFrom.ite {c : Prop} [Decidable c] {w : World} {a b : Sys α} (yes : c → ReturnsFrom w a)
    (no : ¬c → ReturnsFrom w b) : ReturnsFrom w (if c then a else b) := by
  split
  · exact yes ‹_›
  · exact no ‹_›

/-- Every run of `m` returns. -/
def Returns (m : Sys α) : Prop := ∀ w, ReturnsFrom w m

namespace Returns

theorem pure (a : α) : Returns (pure a : Sys α) := fun _ => rfl

theorem bind {m : Sys α} {f : α → Sys β} (first : Returns m) (rest : ∀ a, Returns (f a)) :
    Returns (m >>= f) :=
  fun w => (first w).bind (fun _ _ _ => trivial) fun a w₁ _ => rest a w₁

theorem ite {c : Prop} [Decidable c] {a b : Sys α} (yes : Returns a) (no : Returns b) :
    Returns (if c then a else b) := by
  split
  · exact yes
  · exact no

theorem get_bind {f : World → Sys β} (rest : ∀ w, ReturnsFrom w (f w)) : Returns (MonadState.get >>= f) :=
  rest

theorem modify_bind {g : World → World} {f : PUnit → Sys β} (rest : Returns (f ⟨⟩)) :
    Returns (modify g >>= f) :=
  fun w => rest (g w)

theorem set_bind {w₁ : World} {f : PUnit → Sys β} (rest : Returns (f ⟨⟩)) : Returns (set w₁ >>= f) :=
  fun _ => rest w₁

theorem liftM {x : Option α} (some : x.isSome) : Returns (liftM x : Sys α) := fun w => by
  rw [ReturnsFrom, Sys.liftM_apply, Option.isSome_map']
  exact some

/-- A call that takes an outcome, fails on a failing one, and otherwise goes on from the
state it reads. -/
theorem outcome {onFailure : ℕ+ → Sys α} {body : World → Sys α} (failed : ∀ e, Returns (onFailure e))
    (proceeds : ∀ w, ReturnsFrom w (body w)) :
    Returns (do match ← nextOutcome with
      | some e => onFailure e
      | none => MonadState.get >>= body) :=
  fun w => by
    rw [ReturnsFrom, Sys.bind_apply, nextOutcome_apply, Option.some_bind]
    rcases w.outcomes.head?.join with _ | e
    · exact proceeds _
    · exact failed e _

end Returns

theorem ReturnsFrom.bind_returns {w : World} {m : Sys α} {f : α → Sys β} (first : ReturnsFrom w m)
    (rest : ∀ a, Returns (f a)) : ReturnsFrom w (m >>= f) :=
  first.bind (Q := fun _ _ => True) (fun _ _ _ => trivial) fun a w₁ _ => rest a w₁

end Returns

/-! ## The calls -/

section Calls

theorem fail_returns (e : Nat) : Returns (fail e) := fun _ => rfl

theorem getErrno_returns : Returns getErrno := fun _ => rfl

theorem close_returns (fd : Int) : Returns (close fd) := fun _ => rfl

theorem closeObjectFd_returns (fd : Int) : Returns (closeObjectFd fd) :=
  .ite (.pure _) ((close_returns fd).bind fun _ => .pure _)

theorem bpfObjGet_returns (path : Path) : Returns (bpfObjGet path) :=
  .outcome (fun e => fail_returns e) fun w => by
    split
    · exact fail_returns _ w
    · rfl

theorem bpfObjGetInfoByFd_returns (fd : Int) : Returns (bpfObjGetInfoByFd fd) :=
  .outcome (fun e => (fail_returns e).bind fun _ => .pure _) fun w => by
    split
    · exact ((fail_returns _).bind fun _ => .pure _) w
    · split
      · exact ((fail_returns _).bind fun _ => .pure _) w
      · rfl

theorem bpfMapUpdateElem_returns (fd : Int) (key : Nat) (value : UserValue) :
    Returns (bpfMapUpdateElem fd key value) :=
  .outcome (fun e => fail_returns e) fun w => by
    dsimp only
    split
    · split_ifs
      · exact fail_returns _ w
      · split
        · exact fail_returns _ w
        · rfl
    · exact fail_returns _ w

theorem bpfObjPin_returns (fd : Int) (path : Path) : Returns (bpfObjPin fd path) :=
  .outcome (fun e => fail_returns e) fun w => by
    split
    · exact fail_returns _ w
    · exact fail_returns _ w
    · rfl

theorem bpfMapUnpin_returns (map : LoadedMap) : Returns (bpfMapUnpin map) :=
  .outcome (fun e => fail_returns e) fun w => by
    split
    · exact fail_returns _ w
    · rfl

theorem bpfMapSetPinPath_returns : Returns bpfMapSetPinPath := fun w => by
  rw [ReturnsFrom, bpfMapSetPinPath, Sys.bind_apply, nextOutcome_apply, Option.some_bind]
  rcases w.outcomes.head?.join with _ | e
  · rfl
  · exact fail_returns _ _

theorem bpfProgTestRun_returns (progFd : Int) : Returns (bpfProgTestRun progFd) :=
  .outcome (fun e => fail_returns e) fun w => (Returns.ite (fail_returns _) (.pure _)) w

theorem access_returns (path : Path) : Returns (access path) :=
  .outcome (fun e => fail_returns e) fun w => by
    split
    · exact fail_returns _ w
    · rfl

theorem ifNametoindex_returns (name : String) : Returns (ifNametoindex name) := fun _ => rfl

theorem ifNameindex_returns : Returns ifNameindex :=
  .outcome (fun e => (fail_returns e).bind fun _ => .pure _) fun _ => rfl

theorem mapM_returns {α β : Type} {f : α → Sys β} (each : ∀ a, Returns (f a)) :
    ∀ l : List α, Returns (l.mapM f)
  | [] => .pure _
  | a :: l => by
    rw [List.mapM_cons]
    exact (each a).bind fun _ => (mapM_returns each l).bind fun _ => .pure _

theorem loadMap_returns (map : MapDef) : Returns (loadMap map) := fun w => by
  rcases loadMap_cases map w with ⟨-, _, -, eq⟩ | ⟨-, eq⟩ <;> rw [ReturnsFrom, eq] <;> rfl

theorem bpfProgLoad_returns (file : String) : Returns (bpfProgLoad file) :=
  .outcome (fun e => (fail_returns e).bind fun _ => .pure _) fun w => by
    split
    · exact ((fail_returns _).bind fun _ => .pure _) w
    · refine (Returns.ite ((fail_returns _).bind fun _ => .pure _) (.ite ((fail_returns _).bind fun _ => .pure _)
        ((mapM_returns loadMap_returns _).bind fun _ =>
          (mapM_returns (fun prog w => by rw [ReturnsFrom, loadProg_eq]; rfl) _).bind fun _ => .pure _))) w

theorem forIn_close_returns {α : Type} (fd : α → Int) : ∀ l : List α,
    Returns (forIn l PUnit.unit fun a _ => do close (fd a); pure (ForInStep.yield PUnit.unit) : Sys PUnit)
  | [] => .pure _
  | a :: l => by
    simp only [List.forIn_cons, bind_assoc, pure_bind]
    exact (close_returns _).bind fun _ => forIn_close_returns fd l

theorem bpfObjectClose_returns (obj : LoadedObject) : Returns (bpfObjectClose obj) :=
  (forIn_close_returns LoadedProg.fd obj.progs).bind fun _ =>
    (forIn_close_returns LoadedMap.fd obj.maps).bind fun _ => .pure _

theorem bpfSetLinkXdpFd_returns (ifindex fd : Int) (flags : XdpFlags) :
    Returns (bpfSetLinkXdpFd ifindex fd flags) :=
  .outcome (fun e => fail_returns e) fun w => by
    dsimp only
    split_ifs
    all_goals first
      | exact fail_returns _ w
      | rfl

theorem bpfGetLinkXdpId_returns (ifindex : Int) : Returns (bpfGetLinkXdpId ifindex) :=
  .outcome (fun e => (fail_returns e).bind fun _ => .pure _) fun w => by
    dsimp only
    split <;> rfl

theorem bpfTcHookCreate_returns (ifindex : Int) : Returns (bpfTcHookCreate ifindex) :=
  .outcome (fun e => fail_returns e) fun w => by
    dsimp only
    split_ifs
    · exact fail_returns _ w
    · rfl

theorem bpfTcHookDestroy_returns (ifindex : Int) : Returns (bpfTcHookDestroy ifindex) :=
  .outcome (fun e => fail_returns e) fun w => by
    dsimp only
    split_ifs
    · rfl
    · exact fail_returns _ w

theorem bpfTcAttach_returns (ifindex : Int) (point : TcAttachPoint) (fd : Int) :
    Returns (bpfTcAttach ifindex point fd) :=
  .outcome (fun e => fail_returns e) fun w => by
    dsimp only
    split_ifs
    · split
      · exact fail_returns _ w
      · rfl
    · exact fail_returns _ w

theorem openProgByName_returns (ctx : NikssContext) (prog : String) : Returns (openProgByName ctx prog) :=
  bpfObjGet_returns _

theorem updateMapInfo_returns (md : MapDescriptor) : Returns (updateMapInfo md) := by
  refine .ite (.pure _) ((bpfObjGetInfoByFd_returns _).bind fun ⟨_, info⟩ =>
    .ite (getErrno_returns.bind fun _ => .pure _) ?_)
  split <;> exact .pure _

/-- `open_bpf_map` without a type graph returns. -/
theorem openBpfMap_returns (ctx : NikssContext) (name : String) : Returns (openBpfMap ctx name none) :=
  (bpfObjGet_returns _).bind fun _ => .ite (getErrno_returns.bind fun _ => .pure _)
    ((updateMapInfo_returns _).bind fun ⟨_, _⟩ => .ite (.pure _) (.pure _))

end Calls

/-! ## The operations but `add_port` -/

section Operations

variable (defs : BpfDefs) (ctx : NikssContext)

theorem tcCreateHook_returns (ifindex : Int) : Returns (tcCreateHook ifindex) :=
  (bpfTcHookCreate_returns _).bind fun _ => .ite getErrno_returns (.pure _)

theorem tcAttachProg_returns (prog : String) (ifindex : Int) (hookPoint : TcAttachPoint) :
    Returns (tcAttachProg ctx prog ifindex hookPoint) := by
  simp only [tcAttachProg, pure_bind]
  exact (openProgByName_returns _ _).bind fun _ =>
    .ite (getErrno_returns.bind fun _ => .ite (.pure _) (.pure _)) <|
      (bpfTcAttach_returns _ _ _).bind fun _ =>
        .ite (getErrno_returns.bind fun _ => (close_returns _).bind fun _ => .pure _)
          ((close_returns _).bind fun _ => .pure _)

theorem tcCreateHookAndAttachProgs_returns (ifindex : Int) :
    Returns (tcCreateHookAndAttachProgs defs ctx ifindex) := by
  simp only [tcCreateHookAndAttachProgs, pure_bind]
  exact (tcCreateHook_returns _).bind fun _ => .ite (.pure _) <|
    (tcAttachProg_returns ctx _ _ _).bind fun _ => .ite (.pure _) <|
      (tcAttachProg_returns ctx _ _ _).bind fun _ => .ite (.pure _) (.pure _)

theorem xdpAttachProgToPort_returns (ifindex : Int) (prog : String) :
    Returns (xdpAttachProgToPort ctx ifindex prog) := by
  simp only [xdpAttachProgToPort, pure_bind]
  refine (openProgByName_returns _ _).bind fun fd => .ite (getErrno_returns.bind fun _ => .pure _) ?_
  have settle (ret : Int) : Returns (if ret < 0 then (do pure (-ret, ← closeObjectFd fd)) else
      pure (NO_ERROR, fd)) :=
    .ite ((closeObjectFd_returns _).bind fun _ => .pure _) (.pure _)
  exact (bpfSetLinkXdpFd_returns _ _ _).bind fun _ =>
    .ite (settle _) ((bpfSetLinkXdpFd_returns _ _ _).bind fun _ => settle _)

theorem xdpPortAddJumpTable_returns : Returns (xdpPortAddJumpTable defs ctx) := by
  simp only [xdpPortAddJumpTable, pure_bind]
  exact (openProgByName_returns _ _).bind fun _ => .ite (.pure _) <|
    (openBpfMap_returns _ _).bind fun ⟨_, _⟩ => .ite ((closeObjectFd_returns _).bind fun _ => .pure _) <|
      (bpfMapUpdateElem_returns _ _ _).bind fun _ => getErrno_returns.bind fun _ =>
        (closeObjectFd_returns _).bind fun _ => (closeObjectFd_returns _).bind fun _ => .ite (.pure _) (.pure _)

theorem tcPortAdd_returns (ifindex : Int) : Returns (tcPortAdd defs ctx ifindex) := by
  simp only [tcPortAdd, pure_bind]
  exact (xdpAttachProgToPort_returns ctx _ _).bind fun _ => .ite (.pure _) <|
    (closeObjectFd_returns _).bind fun _ => (tcCreateHookAndAttachProgs_returns defs ctx _).bind fun _ =>
      .ite (.pure _) (.pure _)

theorem nikssPipelineDelPort_returns (interface : String) : Returns (nikssPipelineDelPort interface) := by
  simp only [nikssPipelineDelPort, pure_bind]
  exact (ifNametoindex_returns _).bind fun _ => .ite (.pure _) <|
    (bpfSetLinkXdpFd_returns _ _ _).bind fun _ => .ite (.pure _) <|
      (bpfTcHookDestroy_returns _).bind fun _ => .ite (getErrno_returns.bind fun _ => .ite (.pure _) (.pure _)) (.pure _)

theorem openPipelineProgram_returns : Returns (openPipelineProgram defs ctx) :=
  (openProgByName_returns _ _).bind fun _ => .ite (openProgByName_returns _ _) (.pure _)

theorem nikssPortListInit_returns : Returns (nikssPortListInit defs ctx) := by
  simp only [nikssPortListInit, pure_bind]
  exact ifNameindex_returns.bind fun _ => .ite (getErrno_returns.bind fun _ => .pure _) <|
    (openPipelineProgram_returns defs ctx).bind fun _ => .ite (getErrno_returns.bind fun _ => .pure _) <|
      (bpfObjGetInfoByFd_returns _).bind fun ⟨_, _⟩ =>
        .ite (getErrno_returns.bind fun _ => (close_returns _).bind fun _ => .pure _)
          ((close_returns _).bind fun _ => .pure _)

theorem nextPortLoop_returns (xdpProgId : Nat) :
    ∀ (index : Nat) (ifaces : List (Nat × String)), Returns (nextPortLoop xdpProgId index ifaces)
  | _, [] => .pure _
  | index, (_, _) :: ifaces => by
    simp only [nextPortLoop, pure_bind]
    exact .ite (.pure _) ((bpfGetLinkXdpId_returns _).bind fun ⟨_, _⟩ =>
      .ite ((nextPortLoop_returns xdpProgId (index + 1) ifaces).bind fun _ => .pure _)
        (.ite (.pure _) (nextPortLoop_returns xdpProgId (index + 1) ifaces)))

theorem nextPorts_returns : ∀ (calls : Nat) (list : NikssPortList), Returns (nextPorts calls list)
  | 0, _ => .pure _
  | calls + 1, list => by
    refine Returns.bind ?_ fun ⟨_, list⟩ => (nextPorts_returns calls list).bind fun ⟨_, _⟩ => .pure _
    unfold nikssPortListGetNextPort
    split
    · exact .pure _
    · exact (nextPortLoop_returns _ _ _).bind fun
        | none => .pure _
        | some _ => .pure _

theorem readUptime_returns : Returns readUptime :=
  .outcome (fun e => (fail_returns e).bind fun _ => .pure _) fun _ => rfl

theorem gettimeofday_returns : Returns gettimeofday :=
  .outcome (fun e => (fail_returns e).bind fun _ => .pure _) fun _ => rfl

theorem nikssPipelineGetLoadTimestamp_returns : Returns (nikssPipelineGetLoadTimestamp defs ctx) := by
  simp only [nikssPipelineGetLoadTimestamp, pure_bind]
  have closed (a : Nat) (fd : Int) : Returns (do close fd; pure a) := (close_returns _).bind fun _ => .pure _
  exact (openPipelineProgram_returns defs ctx).bind fun _ => .ite (.pure _) <|
    (bpfObjGetInfoByFd_returns _).bind fun ⟨_, _⟩ => .ite (closed _ _) <| readUptime_returns.bind fun
      | none => closed _ _
      | some _ => gettimeofday_returns.bind fun
        | none => closed _ _
        | some _ => closed _ _

/-- The wiring of a partition reads its id from a name holding `_tuple_`, which holds a `_`. -/
theorem joinTupleToMapIfTuple_returns (tupleName : String) : Returns (joinTupleToMapIfTuple ctx tupleName) := by
  unfold joinTupleToMapIfTuple
  split
  · exact .pure _
  · rename_i found
    simp only [pure_bind]
    exact (openBpfMap_returns _ _).bind fun ⟨_, _⟩ => .ite (.pure _) <|
      (Returns.liftM (extractTupleIdFromTuple_isSome found)).bind fun ⟨_, _⟩ => .ite (.pure _) <|
        (openBpfMap_returns _ _).bind fun ⟨_, _⟩ => .ite (.pure _) <|
          (bpfMapUpdateElem_returns _ _ _).bind fun _ => .pure _

theorem pinPrograms_returns : ∀ (ret : Int) (progs : List LoadedProg), Returns (pinPrograms ctx ret progs)
  | _, [] => .pure _
  | _, _ :: progs => (bpfObjPin_returns _ _).bind fun ret => .ite (.pure _) (pinPrograms_returns ret progs)

theorem pinMapByName_returns (ret : Int) (map : LoadedMap) : Returns (pinMapByName ctx ret map) := by
  simp only [pinMapByName, pure_bind]
  exact .ite (.pure _) <| bpfMapSetPinPath_returns.bind fun _ => .ite (.pure _) <|
    (bpfObjPin_returns _ _).bind fun _ => .ite (.pure _) <|
      (joinTupleToMapIfTuple_returns ctx _).bind fun _ => .ite (.pure _) (.pure _)

theorem pinMaps_returns : ∀ (ret : Int) (maps : List LoadedMap), Returns (pinMaps ctx ret maps)
  | _, [] => .pure _
  | ret, map :: maps =>
    (Returns.ite ((bpfMapUnpin_returns map).bind fun _ =>
      .ite (.pure _) (pinMapByName_returns ctx _ map)) (pinMapByName_returns ctx ret map)).bind fun
      | .error _ => .pure _
      | .ok ret => pinMaps_returns ret maps

theorem initializeMaps_returns : ∀ (ret : Int) (progs : List LoadedProg), Returns (initializeMaps defs ret progs)
  | _, [] => .pure _
  | ret, _ :: progs =>
    .ite ((bpfProgTestRun_returns _).bind fun _ =>
      .ite (getErrno_returns.bind fun _ => .pure _) (initializeMaps_returns _ progs))
      (initializeMaps_returns ret progs)

theorem nikssPipelineLoad_returns (file : String) : Returns (nikssPipelineLoad defs ctx file) := by
  refine (bpfProgLoad_returns file).bind fun ⟨_, obj⟩ => ?_
  rcases obj with _ | obj
  · exact getErrno_returns
  refine .ite getErrno_returns <| Returns.bind ?_ fun _ => (bpfObjectClose_returns obj).bind fun _ => .pure _
  exact (pinPrograms_returns ctx _ _).bind fun
    | .error _ => .pure _
    | .ok _ => (pinMaps_returns ctx _ _).bind fun
      | .error _ => .pure _
      | .ok _ => (initializeMaps_returns defs _ _).bind fun
        | .error _ | .ok _ => .pure _

theorem nikssPipelineUnload_returns (walk : Except Nat (List FtwEntry)) :
    Returns (nikssPipelineUnload ctx walk) := fun w => by
  rcases walk with e | entries
  · rw [ReturnsFrom, nikssPipelineUnload_of_error]
    rfl
  · obtain ⟨_, unloaded⟩ := nikssPipelineUnload_apply ctx entries w
    rw [ReturnsFrom, unloaded]
    rfl

end Operations

/-! ## Maps of a kernel's capacity -/

/-- A map a kernel creates: between 1 and 2^32 - 1 entries, as `max_entries` is a nonzero
`__u32`. -/
def MapInfo.Sized (info : MapInfo) : Prop := 0 < info.maxEntries ∧ info.maxEntries < 2 ^ 32

instance (info : MapInfo) : Decidable info.Sized := inferInstanceAs (Decidable (_ ∧ _))

/-- The capacity `update_prog_devmap` divides by, `(int) max_entries`, is not 0. -/
theorem MapInfo.Sized.capacity {info : MapInfo} (sized : info.Sized) : uint32ToInt info.maxEntries ≠ 0 := by
  obtain ⟨positive, small⟩ := sized
  unfold uint32ToInt
  split_ifs <;> omega

/-- The worlds every operation returns from: the pins are typed, so that the devmap's entry
names a map, and every map, made or one a load can make, has a kernel's capacity. -/
structure World.Sized (w : World) : Prop where
  typed : w.Typed
  maps : ∀ id info, w.objects id = some (.map info) → info.Sized
  files : ∀ file obj, w.files file = some obj → ∀ map ∈ obj.maps, map.info.Sized

namespace World.Sized

variable {w₀ w w' : World}

theorem boot {files : String → Option ObjectFile} (links : List (Nat × String)) (ifaces : Nat → Iface)
    (outcomes : List (Option ℕ+)) (sized : ∀ file obj, files file = some obj → ∀ map ∈ obj.maps, map.info.Sized) :
    (World.boot files links ifaces outcomes).Sized :=
  ⟨World.boot_typed _ _ _ _, fun _ _ made => (nomatch made), sized⟩

/-- A world reached without a pin, an object or a file added or removed. -/
theorem of_handles {opened : Nat → ℕ+ → Prop} (sized : w₀.Sized) (since : w.HandlesSince w₀ opened) : w.Sized :=
  ⟨sized.typed.of_same since.pins since.objects, fun id info made => sized.maps id info (since.objects ▸ made),
    fun file obj found => sized.files file obj (since.files ▸ found)⟩

/-- What an operation leaves keeps the world sized: a map it creates is one of a file. -/
theorem of_onlyMaps (sized : w.Sized) (left : w'.OnlyMapsSince w) : w'.Sized := by
  refine ⟨left.typed, fun id info made => ?_, fun file obj found => sized.files file obj (left.files ▸ found)⟩
  rcases left.created id _ made with old | ⟨file, obj, found, map, mem, defined⟩
  · exact sized.maps id info old
  · exact defined ▸ sized.files file obj found map mem

end World.Sized

section Capacity

variable {w : World}

/-- What `bpf_obj_get_info_by_fd` answers: a failure with `errno` set, or the object behind
the handle. -/
theorem bpfObjGetInfoByFd_cases (fd : Int) :
    Spec (bpfObjGetInfoByFd fd) (fun r w' => r.1 ≠ 0 ∧ w'.errno ≠ 0 ∨
      r.1 = 0 ∧ ∃ id object, w.lookupFd fd = some id ∧ w.objects id = some object ∧ r.2 = some (id, object)) w := by
  have failed (e : Nat) (positive : 0 < e) (w₁ : World) :
      Spec (do let r ← fail e; pure (r, (none : Option (ℕ+ × KObject)))) (fun r w' => r.1 ≠ 0 ∧ w'.errno ≠ 0 ∨
        r.1 = 0 ∧ ∃ id object, w.lookupFd fd = some id ∧ w.objects id = some object ∧ r.2 = some (id, object)) w₁ := by
    rintro r w' ⟨⟩
    exact .inl ⟨by simp only; omega, by simp only; omega⟩
  refine (nextOutcome_steady w).bind fun outcome w₁ same => ?_
  rcases outcome with _ | e
  · refine Spec.get_bind ?_
    dsimp only
    split
    · exact failed EBADF (by decide) w₁
    next id found =>
      split
      · exact failed EBADF (by decide) w₁
      next object made =>
        rintro r w' ⟨⟩
        refine .inr ⟨rfl, id, object, ?_, same.objects ▸ made, rfl⟩
        simpa only [World.lookupFd, same.fds] using found
  · exact failed e e.pos w₁

/-- `update_map_info` on a handle on a map copies the map's capacity. -/
theorem updateMapInfo_capacity {md : MapDescriptor} {id : ℕ+} {info : MapInfo}
    (found : w.lookupFd md.fd = some id) (map : w.objects id = some (.map info)) :
    Spec (updateMapInfo md) (fun r _ => r.1 = NO_ERROR → r.2.maxEntries = info.maxEntries) w := by
  refine .ite (fun negative => absurd found (by simp [World.lookupFd, not_le.mpr negative])) fun _ => ?_
  refine (bpfObjGetInfoByFd_cases md.fd).bind fun ⟨result, object⟩ w₁ answered => ?_
  refine .ite (fun refused => ?_) fun read => ?_
  · rcases answered with ⟨-, errno⟩ | ⟨zero, -⟩
    · rintro r w' ⟨⟩ ok
      exact (errno (by simpa only [NO_ERROR, Nat.cast_eq_zero] using ok)).elim
    · exact absurd zero refused
  · rcases answered with ⟨nonzero, -⟩ | ⟨-, id', object, found', made, rfl⟩
    · exact absurd nonzero read
    · obtain rfl : id' = id := Option.some.inj (found'.symm.trans found)
      obtain rfl : object = .map info := Option.some.inj (made.symm.trans map)
      exact .pure fun _ => rfl

/-- `open_bpf_map` without a type graph, in a sized world, answers `NO_ERROR` only with a
capacity `update_prog_devmap` can divide by. -/
theorem openBpfMap_capacity (ctx : NikssContext) (name : String) (sized : w.Sized) :
    Spec (openBpfMap ctx name none) (fun r _ => r.1 = NO_ERROR → uint32ToInt r.2.maxEntries ≠ 0) w := by
  intro r w' run
  obtain ⟨⟨fd, w₁⟩, got, run⟩ := Option.bind_eq_some.mp run
  dsimp only at run
  split_ifs at run with negative
  · cases run
    rcases bpfObjGet_cases got with ⟨-, errno⟩ | ⟨valid, -⟩
    · intro ok
      exact (errno (by simpa only [NO_ERROR, Nat.cast_eq_zero] using ok)).elim
    · exact absurd valid (not_le.mpr negative)
  · obtain ⟨id, pinned, found⟩ := bpfObjGet_lookup got (not_lt.mp negative)
    obtain ⟨info, map⟩ := sized.typed.isMap pinned rfl
    have kept := ((bpfObjGet_handles _ (.any w)) fd w₁ got).1
    obtain ⟨⟨⟨e, md⟩, w₂⟩, read, run⟩ := Option.bind_eq_some.mp run
    have copied := updateMapInfo_capacity found (kept.objects ▸ map) _ _ read
    dsimp only at run
    split_ifs at run with failed
    · cases run
      exact fun ok => absurd ok failed
    · cases run
      intro _
      show uint32ToInt md.maxEntries ≠ 0
      rw [copied (not_not.mp failed)]
      exact (sized.maps id info map).capacity

end Capacity

/-! ## Adding a port -/

section AddPort

variable (defs : BpfDefs) (ctx : NikssContext) {w : World}

/-- `update_prog_devmap` returns once the capacity it divides by is not 0. -/
theorem updateProgDevmap_returns {devmap : MapDescriptor} (ifindex : Int) (intf : String) (egressProgFd : Int)
    (capacity : uint32ToInt devmap.maxEntries ≠ 0) :
    Returns (updateProgDevmap devmap ifindex intf egressProgFd) := by
  unfold updateProgDevmap
  lift_lets
  intro progFd capacity' index store check
  have stored : ∀ y, Returns (store y) := fun _ =>
    (bpfMapUpdateElem_returns _ _ _).bind fun _ => .ite getErrno_returns (.pure _)
  have checked : ∀ y, Returns (check y) := fun _ w =>
    ReturnsFrom.ite (fun zero => absurd zero capacity) fun _ => ((Returns.pure _).bind stored) w
  exact .ite (.modify_bind (checked ⟨⟩)) ((Returns.pure _).bind checked)

/-- The devmap step returns in a sized world: the devmap it opens is a map with a capacity. -/
theorem xdpPortAddDevmap_returns (intf : String) (ifindex : Int) (sized : w.Sized) :
    ReturnsFrom w (xdpPortAddDevmap defs ctx intf ifindex) := by
  simp only [xdpPortAddDevmap, pure_bind]
  refine (openProgByName_returns ctx _ w).bind (bpfObjGet_handles _ (.any w)) fun _ w₁ ⟨since₁, _⟩ => ?_
  refine (openBpfMap_returns ctx _ w₁).bind (openBpfMap_capacity ctx _ (sized.of_handles since₁))
    fun ⟨_, _⟩ w₂ capacity => ?_
  refine .ite (fun _ => ((closeObjectFd_returns _).bind fun _ => .pure _) w₂) fun opened => ?_
  exact ((updateProgDevmap_returns _ _ _ (capacity (not_not.mp opened))).bind fun _ =>
    (closeObjectFd_returns _).bind fun _ => (closeObjectFd_returns _).bind fun _ => .pure _) w₂

theorem xdpPortAdd_returns (intf : String) (ifindex : Int) (sized : w.Sized) :
    ReturnsFrom w (xdpPortAdd defs ctx intf ifindex) := by
  simp only [xdpPortAdd, pure_bind]
  refine (xdpAttachProgToPort_returns ctx ifindex _ w).bind (xdpAttachProgToPort_handles ctx ifindex _ (.any w))
    fun _ w₁ ⟨since₁, above₁⟩ => .ite (fun _ => rfl) fun _ => ?_
  refine (closeObjectFd_returns _ w₁).bind (closeObjectFd_handles since₁ above₁) fun _ w₂ ⟨since₂, _⟩ => ?_
  refine (xdpPortAddDevmap_returns defs ctx intf ifindex (sized.of_handles since₂)).bind_returns fun _ =>
    .ite (.pure _) ((xdpPortAddJumpTable_returns defs ctx).bind fun
      | some _ => .pure _
      | none => (tcCreateHookAndAttachProgs_returns defs ctx ifindex).bind fun _ => .ite (.pure _) (.pure _))

/-- `add_port` returns in a sized world. -/
theorem nikssPipelineAddPort_returns (interface : String) (sized : w.Sized) :
    ReturnsFrom w (nikssPipelineAddPort defs ctx interface) := by
  simp only [nikssPipelineAddPort, pure_bind]
  refine (access_returns _ w).bind ((access_steady _).handles (.any w)) fun _ w₁ since₁ => ?_
  refine (ifNametoindex_returns _ w₁).bind ((ifNametoindex_steady _).handles since₁) fun _ w₂ since₂ => ?_
  refine .ite (fun _ => rfl) fun _ => .ite (fun _ => ?_) fun _ => ((tcPortAdd_returns defs ctx _).bind fun _ => .pure _) w₂
  exact (xdpPortAdd_returns defs ctx _ _ (sized.of_handles since₂)).bind_returns fun _ => .pure _

end AddPort

/-! ## Runs of operations -/

/-- The type graph an operation opens a map with. -/
def Op.btf : Op → Option Btf
  | .openMap _ _ btf => btf
  | _ => none

/-- Every operation without a type graph returns in a sized world. -/
theorem Op.run_returns (defs : BpfDefs) (op : Op) {w : World} (sized : w.Sized) (plain : op.btf = none) :
    ReturnsFrom w (op.run defs) := by
  cases op with
  | load ctx file => exact ((nikssPipelineLoad_returns defs ctx file).bind fun _ => .pure _) w
  | unload ctx walk => exact ((nikssPipelineUnload_returns ctx walk).bind fun _ => .pure _) w
  | addPort ctx interface => exact (nikssPipelineAddPort_returns defs ctx interface sized).bind_returns fun _ => .pure _
  | delPort _ interface => exact ((nikssPipelineDelPort_returns interface).bind fun _ => .pure _) w
  | listPorts ctx calls =>
    exact ((nikssPortListInit_returns defs ctx).bind fun ⟨_, _⟩ =>
      .ite ((nextPorts_returns _ _).bind fun _ => .pure _) (.pure _)) w
  | getLoadTimestamp ctx => exact ((nikssPipelineGetLoadTimestamp_returns defs ctx).bind fun _ => .pure _) w
  | openMap ctx name btf =>
    obtain rfl : btf = none := plain
    exact ((openBpfMap_returns ctx name).bind fun _ => .pure _) w

/-- No run crashes. From a state where every pin and open handle names a created object, the
handles from `nextFd` on are free, the pins are typed and every map, made or one an object
file defines, has between 1 and 2^32 - 1 entries, every run of operations none of which opens
a map with a type graph returns, in any order, on any pipelines and whatever the kernel
answers: the division of `update_prog_devmap` never meets a capacity of 0, and the parse of
a partition's id never meets a name without `_`. -/
theorem runOps_returns (defs : BpfDefs) :
    ∀ (ops : List Op) {w : World}, (∀ op ∈ ops, op.btf = none) → w.Allocated → w.Sized →
      ∃ w', runOps defs ops w = some ((), w')
  | [], w, _, _, _ => ⟨w, rfl⟩
  | op :: ops, w, plain, allocated, sized => by
    obtain ⟨⟨_, w₁⟩, ran⟩ := Option.isSome_iff_exists.mp (Op.run_returns defs op sized (plain op (.head _)))
    obtain ⟨allocated₁, -⟩ :=
      Op.run_confined defs op w allocated (fun path id named pinned => .inr (.inl ⟨path, named, pinned⟩)) _ w₁ ran
    have sized₁ := sized.of_onlyMaps (Op.run_onlyMaps defs op allocated sized.typed _ _ ran)
    obtain ⟨w', rest⟩ := runOps_returns defs ops (fun op' mem => plain op' (.tail _ mem)) allocated₁ sized₁
    exact ⟨w', by simp only [runOps, Sys.bind_apply, ran, Option.some_bind, rest]⟩

/-- `runOps_returns` from a booted kernel over the load of a pipeline with an XDP ingress
program and a devmap of 16 entries, a port added and deleted, a listing, the load
timestamp, the devmap opened and the pipeline unloaded. -/
theorem runOps_returns_over_a_pipeline :
    let defs : BpfDefs := ⟨"tc-ingress", "tc-egress", "xdp-ingress", "xdp-egress",
      "xdp-egress-optimized", "xdp-helper", "tc-init", "xdp-init", "devmap", "jump-table", by decide⟩
    let obj : ObjectFile := ⟨[⟨"xdp-ingress"⟩], [⟨"devmap", ⟨14, 4, 8, 16, 0, 0⟩, false⟩]⟩
    let w := World.boot (fun file => if file = "p.o" then some obj else none) [(1, "eth0")]
      (fun _ => .bare true) []
    let ops : List Op := [.load ⟨0⟩ "p.o", .addPort ⟨0⟩ "eth0", .listPorts ⟨0⟩ 2, .getLoadTimestamp ⟨0⟩,
      .openMap ⟨0⟩ "devmap" none, .delPort ⟨0⟩ "eth0", .unload ⟨0⟩ (.ok [])]
    (∀ op ∈ ops, op.btf = none) ∧ w.Allocated ∧ w.Sized ∧ ∃ w', runOps defs ops w = some ((), w') := by
  intro defs obj w ops
  have plain : ∀ op ∈ ops, op.btf = none := by simp [ops, Op.btf]
  have sized : w.Sized := .boot _ _ _ fun file _ found => by
    split at found <;> cases found
    decide
  exact ⟨plain, World.boot_allocated _ _ _ _, sized,
    runOps_returns defs ops plain (World.boot_allocated _ _ _ _) sized⟩

end Nikss
