import Nikss.Pipeline.Codes
import Nikss.Pipeline.Leaks

/-! # Pins are made once

`bpf_obj_pin` refuses a path that is taken (`EEXIST`), and `nikss_pipeline_load` pins
the programs and maps of its object under its pipeline's directory without removing
anything there first. So a pin, once made under a pipeline, stays on its object until an
unload of that pipeline removes it. A second load of a pipeline adds pins but replaces no
program or map that the running pipeline uses.

`World.PinsKept kept w w'` says that every path of `kept` that `w` pins, `w'` pins to the
same object, and `GrowsPins kept m` that every run of `m` ends so. The calls that pin
(`bpf_obj_pin`) keep every pin; every other call keeps the pins as they are
(`KeepsPins`, from the isolation of pipelines), so only the pinning loops of the load need
their own lemmas.

* `runOps_keeps_pinned`: over any interleaving of operations, a pin under pipeline `q`
  stays unless the run unloads `q`.
* `nikssPipelineLoad_refuses_taken_program`: a load whose object has a program whose
  entry is taken in the pipeline's directory never answers `NO_ERROR`.
-/

namespace Nikss

/-! ## Kept pins -/

/-- Every path of `kept` that `w` pins, `w'` pins to the same object. -/
def World.PinsKept (kept : Path → Prop) (w w' : World) : Prop :=
  ∀ path, kept path → ∀ id, w.pins path = some id → w'.pins path = some id

theorem World.PinsKept.refl (kept : Path → Prop) (w : World) : w.PinsKept kept w :=
  fun _ _ _ => id

theorem World.PinsKept.trans {kept : Path → Prop} {w w₁ w₂ : World} (first : w.PinsKept kept w₁)
    (second : w₁.PinsKept kept w₂) : w.PinsKept kept w₂ :=
  fun path keep id pinned => second path keep id (first path keep id pinned)

section Grows

variable {α β : Type} {kept : Path → Prop}

/-- Every run of `m`, whatever the outcome sequence, keeps every pin of `kept`. -/
def GrowsPins (kept : Path → Prop) (m : Sys α) : Prop :=
  ∀ w, Spec m (fun _ w' => w.PinsKept kept w') w

namespace GrowsPins

theorem pure (a : α) : GrowsPins kept (pure a : Sys α) := fun w => .pure (.refl kept w)

theorem bind {m : Sys α} {f : α → Sys β} (first : GrowsPins kept m)
    (rest : ∀ a, GrowsPins kept (f a)) : GrowsPins kept (m >>= f) := fun w =>
  (first w).bind fun a _ kept₁ => (rest a _).mono fun _ _ => kept₁.trans

theorem ite {c : Prop} [Decidable c] {a b : Sys α} (yes : GrowsPins kept a) (no : GrowsPins kept b) :
    GrowsPins kept (if c then a else b) := by
  split
  · exact yes
  · exact no

/-- A computation that leaves the pins of `kept` as they are keeps every one of them. -/
theorem of_keepsPins {m : Sys α} (keeps : KeepsPins kept m) : GrowsPins kept m :=
  fun w _ w' run path keep _ pinned => (keeps w _ w' run path keep).trans pinned

theorem mono {kept' : Path → Prop} {m : Sys α} (grows : GrowsPins kept m)
    (sub : ∀ path, kept' path → kept path) : GrowsPins kept' m :=
  fun w => (grows w).mono fun _ _ kept₁ path keep => kept₁ path (sub path keep)

end GrowsPins

end Grows

/-! ## Pinning -/

section Pin

variable {kept : Path → Prop}

/-- `bpf_obj_pin` refuses a taken path, and changes no pin then. -/
theorem bpfObjPin_taken {fd : Int} {path : Path} {w : World} (taken : w.pins path ≠ none) :
    Spec (bpfObjPin fd path) (fun r w' => r < 0 ∧ w'.pins = w.pins) w := by
  obtain ⟨id, pinned⟩ := Option.ne_none_iff_exists'.mp taken
  intro r w' run
  rw [bpfObjPin, Sys.bind_apply, nextOutcome_apply, Option.some_bind] at run
  rcases head : w.outcomes.head?.join with _ | e <;> simp only [head] at run
  · simp only [Sys.bind_apply, Sys.get_apply, Option.some_bind, pinned] at run
    obtain ⟨negative, same⟩ := fail_refused run (by decide)
    exact ⟨negative, same.pins⟩
  · obtain ⟨negative, same⟩ := fail_refused run e.pos
    exact ⟨negative, same.pins⟩

/-- `bpf_obj_pin` pins a free path only, so it keeps every pin. -/
theorem bpfObjPin_growsPins (fd : Int) (path : Path) : GrowsPins kept (bpfObjPin fd path) := by
  intro w r w' run other _ id pinned
  by_cases same : other = path
  · subst same
    rw [((bpfObjPin_taken (pinned ▸ Option.some_ne_none id)) r w' run).2]
    exact pinned
  · exact (bpfObjPin_keepsPins fd path w r w' run other same).trans pinned

variable (ctx : NikssContext)

theorem pinPrograms_growsPins (ret : Int) :
    ∀ progs, GrowsPins kept (pinPrograms ctx ret progs)
  | [] => .pure _
  | _ :: progs => (bpfObjPin_growsPins _ _).bind fun _ => .ite (.pure _) (pinPrograms_growsPins _ progs)

theorem pinMapByName_growsPins (ret : Int) (map : LoadedMap) :
    GrowsPins kept (pinMapByName ctx ret map) := by
  simp only [pinMapByName, pure_bind]
  refine .ite (.pure _) ((GrowsPins.of_keepsPins bpfMapSetPinPath_keepsPins).bind fun _ => .ite (.pure _) ?_)
  exact (bpfObjPin_growsPins _ _).bind fun _ => .ite (.pure _) <|
    (GrowsPins.of_keepsPins (joinTupleToMapIfTuple_keepsPins ctx _)).bind fun _ => .ite (.pure _) (.pure _)

/-- Removing libbpf's own pin of a map touches its pin root only. -/
theorem pinMap_growsPins (ret : Int) (map : LoadedMap) :
    GrowsPins (fun path => path.pipeline ≠ none) (pinMap ctx ret map) :=
  .ite ((GrowsPins.of_keepsPins ((bpfMapUnpin_keepsPins map).mono fun _ own root => own (by rw [root]; rfl))).bind
    fun _ => .ite (.pure _) (pinMapByName_growsPins ctx _ map)) (pinMapByName_growsPins ctx _ map)

theorem pinMaps_growsPins (ret : Int) :
    ∀ maps, GrowsPins (fun path => path.pipeline ≠ none) (pinMaps ctx ret maps)
  | [] => .pure _
  | map :: maps => (pinMap_growsPins ctx ret map).bind fun
    | .error _ => .pure _
    | .ok ret => pinMaps_growsPins ret maps

/-- A load, whatever the outcome sequence, keeps every pin of every pipeline, its own
included: it adds pins and replaces none. -/
theorem nikssPipelineLoad_growsPins (defs : BpfDefs) (file : String) :
    GrowsPins (fun path => path.pipeline ≠ none) (nikssPipelineLoad defs ctx file) := by
  refine (GrowsPins.of_keepsPins (bpfProgLoad_keepsPins file)).bind fun ⟨ret, obj⟩ => ?_
  rcases obj with _ | obj
  · exact .of_keepsPins getErrno_keepsPins
  refine .ite (.of_keepsPins getErrno_keepsPins) ?_
  refine GrowsPins.bind ?_ fun _ => (GrowsPins.of_keepsPins (bpfObjectClose_keepsPins obj)).bind fun _ => .pure _
  refine (pinPrograms_growsPins ctx ret obj.progs).bind fun
    | .error _ => .pure _
    | .ok ret => (pinMaps_growsPins ctx ret obj.maps).bind fun
      | .error _ => .pure _
      | .ok ret => (GrowsPins.of_keepsPins (initializeMaps_keepsPins defs ret obj.progs)).bind fun
        | .error _ | .ok _ => .pure _

end Pin

/-! ## Any interleaving of operations -/

/-- The pipeline an operation unloads. -/
def Op.unloads : Op → Option Nat
  | .unload ctx _ => some ctx.pipelineId
  | _ => none

/-- An operation that does not unload pipeline `q` keeps every pin under `q`. -/
theorem Op.run_growsPins (defs : BpfDefs) {q : Nat} :
    ∀ op : Op, op.unloads ≠ some q → GrowsPins (fun path => path.pipeline = some q) (op.run defs)
  | .load ctx file, _ => ((nikssPipelineLoad_growsPins ctx defs file).bind fun _ => .pure _).mono
      fun _ own => own ▸ Option.some_ne_none q
  | .unload ctx walk, other => .of_keepsPins (Op.run_keepsPins defs (.unload ctx walk) other)
  | .addPort ctx interface, _ => .of_keepsPins (Op.run_keepsPins defs (.addPort ctx interface) nofun)
  | .delPort ctx interface, _ => .of_keepsPins (Op.run_keepsPins defs (.delPort ctx interface) nofun)
  | .listPorts ctx calls, _ => .of_keepsPins (Op.run_keepsPins defs (.listPorts ctx calls) nofun)
  | .getLoadTimestamp ctx, _ => .of_keepsPins (Op.run_keepsPins defs (.getLoadTimestamp ctx) nofun)
  | .openMap ctx name btf, _ => .of_keepsPins (Op.run_keepsPins defs (.openMap ctx name btf) nofun)

/-- Pins are made once. Whatever the kernel's state, the outcome sequence and the order of
the calls, a run of operations none of which unloads pipeline `q` keeps every program and
map pinned under `q` on the object it was pinned to: a load of `q`, like any other call,
adds pins there and replaces none. -/
theorem runOps_keeps_pinned (defs : BpfDefs) (q : Nat) :
    ∀ ops : List Op, (∀ op ∈ ops, op.unloads ≠ some q) →
      GrowsPins (fun path => path.pipeline = some q) (runOps defs ops)
  | [], _ => .pure _
  | op :: ops, kept =>
    (Op.run_growsPins defs op (kept op (List.mem_cons_self op ops))).bind fun _ =>
      runOps_keeps_pinned defs q ops fun op' mem => kept op' (List.mem_cons_of_mem op mem)

/-- `runOps_keeps_pinned` for pipeline 1, loaded twice, with ports added and listed in
between, and pipeline 2 unloaded. -/
theorem runOps_keeps_pinned_over_a_reload :
    let defs : BpfDefs := ⟨"tc-ingress", "tc-egress", "xdp-ingress", "xdp-egress",
      "xdp-egress-optimized", "xdp-helper", "tc-init", "xdp-init", "devmap", "jump-table", by decide⟩
    let ops : List Op := [.load ⟨1⟩ "pipeline.o", .addPort ⟨1⟩ "eth0", .listPorts ⟨1⟩ 2,
      .unload ⟨2⟩ (.ok [.prog "ingress", .directory]), .load ⟨1⟩ "pipeline.o"]
    (∀ op ∈ ops, op.unloads ≠ some 1) ∧ GrowsPins (fun path => path.pipeline = some 1) (runOps defs ops) :=
  ⟨by decide, runOps_keeps_pinned _ 1 _ (by decide)⟩

/-! ## A second load -/

/-- `bpf_prog_load` takes the object file when nothing outside fails, the file holds a
program, and libbpf can reuse every map its root holds under a name of the object's. -/
theorem bpfProgLoad_accepts {file : String} {object : ObjectFile} {w w' : World} {ret : Int}
    {obj : Option LoadedObject} (quiet : w.outcomes = []) (found : w.files file = some object)
    (programs : object.progs ≠ []) (reusable : ∀ map ∈ object.maps, w.reusable map = true)
    (run : bpfProgLoad file w = some ((ret, obj), w')) : obj.isSome := by
  simp only [bpfProgLoad, Sys.bind_apply, nextOutcome_quiet quiet, Option.some_bind, Sys.get_apply, found,
    programs, List.all_eq_true.mpr reusable, Bool.not_true, if_false] at run
  obtain ⟨⟨maps, w₁⟩, -, run⟩ := Option.bind_eq_some.mp run
  obtain ⟨⟨progs, w₂⟩, -, run⟩ := Option.bind_eq_some.mp run
  cases run
  rfl

/-- The handles `bpf_prog_load` opens on the programs stay open while it loads the rest. -/
theorem loadProgs_open :
    ∀ (progs : List ProgDef) {w w' : World} {loaded : List LoadedProg},
      progs.mapM loadProg w = some (loaded, w') →
        w.nextFd ≤ w'.nextFd ∧ (∀ n < w.nextFd, w'.fds n = w.fds n) ∧
          ∀ prog ∈ loaded, (w'.lookupFd prog.fd).isSome
  | [], _, _, _, run => by
    cases run
    exact ⟨le_rfl, fun _ _ => rfl, fun _ none => absurd none (List.not_mem_nil _)⟩
  | prog :: progs, w, w', loaded, run => by
    rw [List.mapM_cons, Sys.bind_apply, loadProg_eq, Option.some_bind] at run
    obtain ⟨⟨rest, w₂⟩, others, run⟩ := Option.bind_eq_some.mp run
    cases run
    obtain ⟨grows, kept, opened⟩ := loadProgs_open progs others
    have created : ∀ n < w.nextFd, (w.created (.prog w.bootClock)).fds n = w.fds n := fun n below =>
      Function.update_noteq below.ne _ _
    refine ⟨(Nat.le_succ _).trans grows, fun n below =>
      (kept n (Nat.lt_succ_of_lt below)).trans (created n below), ?_⟩
    rintro _ (_ | ⟨_, mem⟩)
    · simp [World.lookupFd, kept w.nextFd (Nat.lt_succ_self _), World.created, World.withHandle]
    · exact opened _ mem

/-- `bpf_obj_pin` of an open handle, when nothing outside fails, answers 0 or `-EEXIST`, and
keeps the outcome sequence and the handles. -/
theorem bpfObjPin_quiet_answer {fd : Int} {path : Path} {w : World} (quiet : w.outcomes = [])
    (opened : (w.lookupFd fd).isSome) :
    Spec (bpfObjPin fd path) (fun r w' => (r = 0 ∨ r = -(EEXIST : Int)) ∧ w'.outcomes = [] ∧ w'.fds = w.fds) w := by
  obtain ⟨id, found⟩ := Option.isSome_iff_exists.mp opened
  intro r w' run
  rw [bpfObjPin_quiet quiet found] at run
  cases taken : w.pins path <;> simp only [taken, Option.some.injEq, Prod.mk.injEq] at run <;>
    obtain ⟨rfl, rfl⟩ := run <;> simp [quiet]

/-- The program loop stops with a negative code once it reaches a program whose entry is
taken, and the pins it makes before that keep the entry taken. When nothing outside fails
and every program is open, the code is `-EEXIST`. -/
theorem pinPrograms_refused (ctx : NikssContext) :
    ∀ (ret : Int) (progs : List LoadedProg) (w : World),
      (∃ prog ∈ progs, w.pins (buildEbpfProgFilename ctx (programPinName prog.sectionName)) ≠ none) →
      Spec (pinPrograms ctx ret progs) (fun r _ => ∃ code, r = .error code ∧ code < 0 ∧
        (w.outcomes = [] → (∀ prog ∈ progs, (w.lookupFd prog.fd).isSome) → code = -(EEXIST : Int))) w
  | _, [], _, ⟨_, mem, _⟩ => absurd mem (List.not_mem_nil _)
  | _, prog :: progs, w, ⟨taken, mem, pinned⟩ => by
    refine Spec.bind (Q := fun r w₁ => (taken = prog → r < 0) ∧ w.PinsKept (fun _ => True) w₁ ∧
        (w.outcomes = [] → (w.lookupFd prog.fd).isSome →
          (r = 0 ∨ r = -(EEXIST : Int)) ∧ w₁.outcomes = [] ∧ w₁.fds = w.fds))
      (fun r w₁ run => ⟨fun same => (bpfObjPin_taken (same ▸ pinned) r w₁ run).1,
        bpfObjPin_growsPins _ _ w r w₁ run, fun quiet opened => bpfObjPin_quiet_answer quiet opened r w₁ run⟩)
      fun r w₁ ⟨stops, kept, answer⟩ => ?_
    refine .ite (fun negative => .pure ⟨r, rfl, negative, fun quiet opened => ?_⟩) fun nonnegative => ?_
    · rcases (answer quiet (opened prog (.head _))).1 with rfl | eexist
      · exact absurd negative (lt_irrefl 0)
      · exact eexist
    rcases List.mem_cons.mp mem with rfl | later
    · exact absurd (stops rfl) nonnegative
    obtain ⟨id, pin⟩ := Option.ne_none_iff_exists'.mp pinned
    have still : w₁.pins (buildEbpfProgFilename ctx (programPinName taken.sectionName)) ≠ none := by
      rw [kept _ trivial id pin]
      exact Option.some_ne_none id
    refine (pinPrograms_refused ctx r progs w₁ ⟨taken, later, still⟩).mono
      fun _ _ ⟨code, same, negative, eexist⟩ => ⟨code, same, negative, fun quiet opened => ?_⟩
    obtain ⟨-, quiet₁, fds⟩ := answer quiet (opened prog (.head _))
    exact eexist quiet₁ fun other mem' => by
      simpa only [World.lookupFd, fds] using opened other (.tail _ mem')

/-- Once `bpf_prog_load` has loaded an object one of whose programs has its entry taken,
the rest of the load answers a positive code, the `errno` it leaves: the negated code that
stopped the program pins. When nothing outside fails and every program is open, it is
`EEXIST`. -/
theorem loadObject_refused (defs : BpfDefs) (ctx : NikssContext) {obj : LoadedObject} {w : World}
    (taken : ∃ prog ∈ obj.progs, w.pins (buildEbpfProgFilename ctx (programPinName prog.sectionName)) ≠ none) :
    Spec (loadObject defs ctx 0 obj) (fun r w' => 0 < r ∧ r = w'.errno ∧
      (w.outcomes = [] → (∀ prog ∈ obj.progs, (w.lookupFd prog.fd).isSome) → r = EEXIST)) w := by
  intro r w' run
  obtain ⟨⟨code, w₁⟩, phases, run⟩ := Option.bind_eq_some.mp run
  obtain ⟨⟨_, w₂⟩, closed, run⟩ := Option.bind_eq_some.mp run
  cases run
  obtain ⟨⟨result, w₃⟩, programs, rest⟩ := Option.bind_eq_some.mp phases
  obtain ⟨stopped, rfl, -, eexist⟩ := pinPrograms_refused ctx 0 obj.progs w taken result w₃ programs
  rcases pinPrograms_answer ctx _ w _ w₃ programs with ⟨⟨⟩, -⟩ | ⟨errno, pos⟩
  obtain rfl := Except.error.inj errno
  cases rest
  rw [neg_neg, bpfObjectClose_errno obj closed]
  exact ⟨Int.ofNat_pos.mpr pos, rfl, fun quiet opened => by have := eexist quiet opened; omega⟩

/-- A pipeline is not loaded over a program of its own. If the entry in the pipeline's
directory of some program of the object file is taken, `nikss_pipeline_load` answers a
positive code, the `errno` it leaves, whatever the outcome sequence: that of
`bpf_prog_load`, or the negated code that stopped the program pins at the latest at the
taken entry. When nothing outside fails and libbpf can reuse the maps its root holds, the
answer is `EEXIST`. -/
theorem nikssPipelineLoad_refuses_taken_program (defs : BpfDefs) (ctx : NikssContext) {file : String}
    {object : ObjectFile} {prog : ProgDef} {w : World} (found : w.files file = some object)
    (mem : prog ∈ object.progs)
    (taken : w.pins (buildEbpfProgFilename ctx (programPinName prog.sectionName)) ≠ none) :
    Spec (nikssPipelineLoad defs ctx file) (fun r w' => 0 < r ∧ r = w'.errno ∧
      (w.outcomes = [] → (∀ map ∈ object.maps, w.reusable map = true) → r = EEXIST)) w := by
  intro r w' run
  obtain ⟨⟨⟨ret, obj⟩, w₁⟩, loaded, run⟩ := Option.bind_eq_some.mp run
  rcases bpfProgLoad_spec loaded with ⟨e, pos, rfl, rfl, rfl⟩ |
    ⟨rfl, object', obj, w₂, found', rfl, loadedMaps, loadedProgs⟩
  · cases run
    exact ⟨Int.ofNat_pos.mpr pos, rfl, fun quiet reusable =>
      absurd (bpfProgLoad_accepts quiet found (List.ne_nil_of_mem mem) reusable loaded) (by simp)⟩
  obtain rfl := Option.some.inj (found'.symm.trans found)
  obtain ⟨-, -, outcomes₂⟩ := loadMaps_names _ loadedMaps
  obtain ⟨sections, -, outcomes₁⟩ := loadProgs_sections _ loadedProgs
  obtain ⟨other, mem', named⟩ := List.mem_map.mp (sections ▸ List.mem_map_of_mem ProgDef.sectionName mem)
  have still : w₁.pins (buildEbpfProgFilename ctx (programPinName other.sectionName)) ≠ none := by
    rw [named, bpfProgLoad_keepsPins file w _ w₁ loaded
      (buildEbpfProgFilename ctx (programPinName prog.sectionName)) (Option.some_ne_none _)]
    exact taken
  simp only [lt_irrefl, if_false] at run
  obtain ⟨pos, errno, eexist⟩ := loadObject_refused defs ctx ⟨other, mem', still⟩ r w' run
  exact ⟨pos, errno, fun quiet _ => eexist (outcomes₁.trans (outcomes₂.trans (by simp [quiet])))
    (loadProgs_open _ loadedProgs).2.2⟩

/-- A pipeline whose program of section `xdp/ingress` is pinned: loading the same object
into it again answers `EEXIST`, the `errno` it leaves. -/
theorem nikssPipelineLoad_refuses_taken_program_on_a_loaded_pipeline :
    let defs : BpfDefs := ⟨"tc-ingress", "tc-egress", "xdp-ingress", "xdp-egress",
      "xdp-egress-optimized", "xdp-helper", "tc-init", "xdp-init", "devmap", "jump-table", by decide⟩
    let object : ObjectFile := ⟨[⟨"xdp/ingress"⟩], []⟩
    let w : World :=
      { World.boot (fun file => if file = "p.o" then some object else none) [] (fun _ => .bare false) [] with
        pins := fun path => if path.pipeline = some 0 then some 1 else none
        objects := fun id => if id = 1 then some (.prog 0) else none
        nextId := 2 }
    w.files "p.o" = some object ∧ ⟨"xdp/ingress"⟩ ∈ object.progs ∧
      w.pins (buildEbpfProgFilename ⟨0⟩ (programPinName "xdp/ingress")) ≠ none ∧
      Spec (nikssPipelineLoad defs ⟨0⟩ "p.o") (fun r w' => 0 < r ∧ r = w'.errno ∧
        (w.outcomes = [] → (∀ map ∈ object.maps, w.reusable map = true) → r = EEXIST)) w := by
  intro defs object w
  have found : w.files "p.o" = some object := rfl
  have mem : (⟨"xdp/ingress"⟩ : ProgDef) ∈ object.progs := List.mem_singleton_self _
  have taken : w.pins (buildEbpfProgFilename ⟨0⟩ (programPinName "xdp/ingress")) ≠ none := by
    simp [w, buildEbpfProgFilename, Path.pipeline]
  exact ⟨found, mem, taken, nikssPipelineLoad_refuses_taken_program defs ⟨0⟩ found mem taken⟩

end Nikss
