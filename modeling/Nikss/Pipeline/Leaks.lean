import Nikss.Port.Handles

/-! # The handles a run leaves open

A process drives the library for as long as it runs, and every handle an operation leaves
open stays open until the process exits. The library opens programs to pin and attach them
and maps to write into them; `bpf_object__close` releases what `bpf_prog_load` opened, and
the port operations close what they open on every path but two (`Port.Handles`). The load
leaves open the maps `join_tuple_to_map_if_tuple` opens, and `open_bpf_map` hands its
handle to the caller.

Over any run of operations the handles open at its start stay open on the same objects,
no object changes, and every handle the run leaves open is on a map, never on a program
(`runOps_leaves_only_map_handles`). This needs the pins to be typed (`World.Typed`): a
program under a program's entry, a map under a map's entry and at libbpf's root, so that a
handle `open_bpf_map` opens by a map's name is on a map.

The load is the hard part. Its programs and maps are created one after another
(`World.LoadedSince`, kept by each call of the `mapM`s of `bpf_prog_load`); the three
phases pin and open but create nothing (`World.InPhases`, kept by every call they make);
and `bpf_object__close` then closes every handle the load opened, which leaves those of
the phases, all on maps.
-/

namespace Nikss

/-! ## Kinds of objects and pins -/

/-- A program, as opposed to a map. -/
def KObject.isProg : KObject → Bool
  | .prog _ => true
  | .map _ => false

/-- A pipeline's program entry, as opposed to a map's entry or libbpf's pin root. -/
def Path.isProg : Path → Bool
  | .prog _ _ => true
  | _ => false

/-- Every pin names an object of its entry's kind: a program under a program's entry, a map
under a map's entry and at libbpf's root. -/
def World.Typed (w : World) : Prop :=
  ∀ path id, w.pins path = some id → ∃ object, w.objects id = some object ∧ object.isProg = path.isProg

/-- The object `id` is a map. -/
def World.IsMap (w : World) (id : ℕ+) : Prop :=
  ∃ info, w.objects id = some (.map info)

/-- The handle `fd` is open on an object, a program when `prog` holds and a map otherwise. -/
def World.HandleKind (w : World) (fd : Int) (prog : Bool) : Prop :=
  ∃ id object, w.lookupFd fd = some id ∧ w.objects id = some object ∧ object.isProg = prog

/-- An object a load from the object files `files` can create: a program, or a map one of
the files defines. -/
def KObject.FromFiles (files : String → Option ObjectFile) : KObject → Prop
  | .prog _ => True
  | .map info => ∃ file obj, files file = some obj ∧ ∃ map ∈ obj.maps, map.info = info

namespace World

variable {w w' : World}

theorem boot_typed (files : String → Option ObjectFile) (links : List (Nat × String))
    (ifaces : Nat → Iface) (outcomes : List (Option ℕ+)) : (World.boot files links ifaces outcomes).Typed :=
  fun _ _ pinned => nomatch pinned

/-- An object pinned anywhere but at a program's entry is a map. -/
theorem Typed.isMap (typed : w.Typed) {path : Path} {id : ℕ+} (pinned : w.pins path = some id)
    (notProg : path.isProg = false) : w.IsMap id := by
  obtain ⟨object, found, kind⟩ := typed path id pinned
  cases object with
  | prog _ => simp [KObject.isProg, notProg] at kind
  | map info => exact ⟨info, found⟩

theorem Typed.of_same (typed : w.Typed) (pins : w'.pins = w.pins) (objects : w'.objects = w.objects) :
    w'.Typed :=
  fun path id pinned => objects ▸ typed path id (pins ▸ pinned)

/-- Removing pins keeps them typed. -/
theorem Typed.of_removed (typed : w.Typed) (removed : ∀ path id, w'.pins path = some id → w.pins path = some id)
    (objects : w'.objects = w.objects) : w'.Typed :=
  fun path id pinned => objects ▸ typed path id (removed path id pinned)

/-- Pinning an object of the entry's kind. -/
theorem Typed.pin (typed : w.Typed) {path : Path} {id : ℕ+} {object : KObject}
    (found : w.objects id = some object) (kind : object.isProg = path.isProg) :
    ({ w with pins := Function.update w.pins path (some id) } : World).Typed := by
  intro path' id' pinned
  simp only [Function.update_apply] at pinned
  split_ifs at pinned with same
  · cases pinned
    subst same
    exact ⟨object, found, kind⟩
  · exact typed path' id' pinned

theorem Typed.unpin (typed : w.Typed) (path : Path) :
    ({ w with pins := Function.update w.pins path none } : World).Typed := by
  refine typed.of_removed (fun path' id pinned => ?_) rfl
  simp only [Function.update_apply] at pinned
  split_ifs at pinned
  exact pinned

theorem SameHandles.typed (same : w.SameHandles w') (typed : w.Typed) : w'.Typed :=
  typed.of_same same.pins same.objects

theorem SameHandles.handleKind (same : w.SameHandles w') {fd : Int} {prog : Bool}
    (kind : w.HandleKind fd prog) : w'.HandleKind fd prog := by
  simpa only [HandleKind, lookupFd, same.fds, same.objects] using kind

end World

/-- A world with the handle table of `w₀`, where nothing is open from `nextFd` on, has opened
nothing since. -/
theorem World.FdsSince.of_same {w₀ w : World} {opened : Nat → ℕ+ → Prop} (fresh : w₀.FreshFds)
    (fds : w.fds = w₀.fds) (nextFd : w.nextFd = w₀.nextFd) : w.FdsSince w₀ opened :=
  ((start fresh).of_fds fds nextFd).mono fun _ _ => False.elim

/-- Handles since `w₀` through `w₁`: a handle opened since `w₀` and open in `w₂` was
opened before `w₁` or after it. -/
theorem World.FdsSince.trans {w₀ w₁ w₂ : World} {opened opened' : Nat → ℕ+ → Prop}
    (first : w₁.FdsSince w₀ opened) (second : w₂.FdsSince w₁ opened') :
    w₂.FdsSince w₀ fun n id => opened n id ∨ opened' n id := by
  refine ⟨first.nextFd.trans second.nextFd, fun n below => ?_, fun n id above found => ?_⟩
  · rw [second.old n (below.trans_le first.nextFd)]
    exact first.old n below
  · by_cases before : n < w₁.nextFd
    · exact .inl (first.new n id above (second.old n before ▸ found))
    · exact .inr (second.new n id (not_lt.mp before) found)

/-! ## Invariants a computation keeps -/

section Keeps

variable {α β : Type} {I : World → Prop}

/-- Every run of `m` from a world where `I` holds ends in one where it holds. -/
def Keeps (I : World → Prop) (m : Sys α) : Prop :=
  ∀ w, I w → Spec m (fun _ w' => I w') w

namespace Keeps

theorem pure (a : α) : Keeps I (pure a : Sys α) := fun _ held => .pure held

theorem bind {m : Sys α} {f : α → Sys β} (first : Keeps I m) (rest : ∀ a, Keeps I (f a)) :
    Keeps I (m >>= f) :=
  fun w held => (first w held).bind fun a w₁ held₁ => rest a w₁ held₁

theorem ite {c : Prop} [Decidable c] {a b : Sys α} (yes : Keeps I a) (no : Keeps I b) :
    Keeps I (if c then a else b) := by
  split
  · exact yes
  · exact no

/-- A computation that keeps the handle table keeps an invariant of the handle table. -/
theorem of_steady {m : Sys α} (steady : Steady m) (stable : ∀ w w', I w → w.SameHandles w' → I w') :
    Keeps I m :=
  fun w held => (steady w).mono fun _ w' same => stable w w' held same

/-- A call that takes an outcome, fails on a failing one, and otherwise goes on from the
state it reads. -/
theorem outcome {onFailure : ℕ+ → Sys α} {body : World → Sys α}
    (stable : ∀ w w', I w → w.SameHandles w' → I w') (failed : ∀ e, Keeps I (onFailure e))
    (proceeds : ∀ w, I w → Spec (body w) (fun _ w' => I w') w) :
    Keeps I (do match ← nextOutcome with
      | some e => onFailure e
      | none => MonadState.get >>= body) :=
  (Keeps.of_steady nextOutcome_steady stable).bind fun
    | some e => failed e
    | none => proceeds

end Keeps

end Keeps

/-! ## Opening by path -/

theorem World.SameHandles.withHandle {w w' : World} (same : w.SameHandles w') (id : ℕ+) :
    (w.withHandle id).SameHandles (w'.withHandle id) :=
  ⟨same.pins, same.objects, same.files, by simp only [World.withHandle, same.fds, same.nextFd],
    by simp [same.nextFd]⟩

/-- What `bpf_obj_get` can do: answer a negative number and open nothing, or open the next
handle on the object pinned at the path. -/
theorem bpfObjGet_effect {path : Path} {w w' : World} {fd : Int} (run : bpfObjGet path w = some (fd, w')) :
    fd < 0 ∧ w.SameHandles w' ∨
      ∃ id, w.pins path = some id ∧ fd = w.nextFd ∧ (w.withHandle id).SameHandles w' := by
  have failed (e : Nat) (positive : 0 < e) (w₁ : World) (same : w.SameHandles w₁)
      (run : fail e w₁ = some (fd, w')) : fd < 0 ∧ w.SameHandles w' := by
    cases run
    exact ⟨by omega, ⟨same.pins, same.objects, same.files, same.fds, same.nextFd⟩⟩
  obtain ⟨⟨outcome, w₁⟩, popped, run⟩ := Option.bind_eq_some.mp run
  have same := nextOutcome_steady w _ _ popped
  rcases outcome with _ | e
  · simp only [Sys.bind_apply, Sys.get_apply, Option.some_bind] at run
    cases pinned : w₁.pins path with
    | none =>
      rw [pinned] at run
      exact .inl (failed _ (by decide) w₁ same run)
    | some id =>
      rw [pinned] at run
      cases run
      exact .inr ⟨id, same.pins ▸ pinned, same.nextFd ▸ rfl, same.withHandle id⟩
  · exact .inl (failed e e.pos w₁ same run)

/-- `open_bpf_map` opens at most one handle, on the map's entry's object. -/
theorem openBpfMap_effect {ctx : NikssContext} {name : String} {btf : Option Btf} {w w' : World}
    {r : Int × MapDescriptor} (run : openBpfMap ctx name btf w = some (r, w')) :
    w.SameHandles w' ∨ ∃ id, w.pins (buildEbpfMapFilename ctx name) = some id ∧ (w.withHandle id).SameHandles w' := by
  obtain ⟨w₁, got, same⟩ := openBpfMap_after_get run
  rcases bpfObjGet_effect got with ⟨-, same₁⟩ | ⟨id, pinned, -, same₁⟩
  · exact .inl (same₁.trans same)
  · exact .inr ⟨id, pinned, same₁.trans same⟩

/-! ## Creating the programs and maps of an object -/

/-- What `bpf_prog_load` leaves against the world `w₀` before it, `loaded` being the
handles it opened so far with their kinds: every pin and handle names a created object and
the handles from `nextFd` on are free, the pins are typed, the objects of `w₀` are as they
were, the only handles opened since are those of `loaded`, and each of those is open on an
object of its kind. -/
structure World.LoadedSince (w w₀ : World) (loaded : List (Int × Bool)) : Prop where
  allocated : w.Allocated
  typed : w.Typed
  nextId : w₀.nextId ≤ w.nextId
  objects : ∀ id < w₀.nextId, w.objects id = w₀.objects id
  files : w.files = w₀.files
  created : ∀ id object, w.objects id = some object → w₀.objects id = some object ∨ object.FromFiles w₀.files
  fds : w.FdsSince w₀ fun n _ => ∃ prog, ((n : Int), prog) ∈ loaded
  handles : ∀ fd prog, (fd, prog) ∈ loaded → w₀.nextFd ≤ fd.toNat ∧ w.HandleKind fd prog

namespace World.LoadedSince

variable {w₀ w : World} {loaded : List (Int × Bool)}

/-- Nothing is loaded yet in a world with the handles and the objects of `w₀`. -/
theorem start (allocated : w₀.Allocated) (typed : w₀.Typed) (same : w₀.SameHandles w)
    (nextId : w.nextId = w₀.nextId) : w.LoadedSince w₀ [] :=
  ⟨allocated.of_same same.pins same.fds same.nextFd nextId, same.typed typed, nextId.ge,
    fun id _ => congrFun same.objects id, same.files, fun _ _ found => .inl (same.objects ▸ found),
    ((FdsSince.start allocated.fresh).of_fds same.fds same.nextFd).mono fun _ _ => False.elim,
    fun _ _ none => nomatch none⟩

/-- Creating an object of the object files and opening a handle on it adds the handle, of
the object's kind. -/
theorem create (since : w.LoadedSince w₀ loaded) (object : KObject) (fromFiles : object.FromFiles w₀.files) :
    (w.created object).LoadedSince w₀ (loaded ++ [((w.nextFd : Int), object.isProg)]) := by
  have allocated := since.allocated
  have older : ∀ id < w.nextId, (w.created object).objects id = w.objects id := fun id below =>
    Function.update_noteq below.ne _ _
  refine ⟨(@createObject_confined 0 1 (fun _ => True) True object w allocated
      (fun _ _ _ _ => .inr trivial) _ _ (createObject_eq object w)).1,
    fun path id pinned => older id (allocated.pinned path id pinned) ▸ since.typed path id pinned,
    since.nextId.trans (PNat.lt_add_right _ 1).le,
    fun id below => (older id (lt_of_lt_of_le below since.nextId)).trans (since.objects id below),
    since.files, fun id object' found => ?_,
    ((since.fds.withHandle w.nextId).of_fds rfl rfl : (w.created object).FdsSince w₀ _).mono fun n id => ?_,
    fun fd prog mem => ?_⟩
  · simp only [World.created, World.withHandle_objects, Function.update_apply] at found
    split_ifs at found
    · cases found
      exact .inr fromFiles
    · exact since.created id object' found
  · rintro (⟨prog, mem⟩ | ⟨rfl, -⟩)
    · exact ⟨prog, List.mem_append_left _ mem⟩
    · exact ⟨object.isProg, List.mem_append_right _ (List.mem_singleton_self _)⟩
  · rcases List.mem_append.mp mem with mem | mem
    · obtain ⟨above, id, object', found, kind, isProg⟩ := since.handles fd prog mem
      have below := (World.lookupFd_lt allocated.fresh found).2
      refine ⟨above, id, object', ?_, older id (allocated.lookup found) ▸ kind, isProg⟩
      simpa [World.lookupFd, World.created, World.withHandle, below.ne] using found
    · obtain ⟨rfl, rfl⟩ := List.mem_singleton.mp mem
      exact ⟨by simpa using since.fds.nextFd, w.nextId, object, by simp [World.created],
        by simp [World.created], rfl⟩

/-- libbpf taking over a map its root holds: a new handle, on a map. -/
theorem reuse (since : w.LoadedSince w₀ loaded) {name : String} {id : ℕ+} (root : w.pins (.root name) = some id) :
    (w.withHandle id).LoadedSince w₀ (loaded ++ [((w.nextFd : Int), false)]) := by
  have allocated := since.allocated
  refine ⟨(@openHandle_confined 0 1 (fun _ => True) True w id (allocated.pinned _ id root) allocated
      (fun _ _ _ _ => .inr trivial) _ _ rfl).1, since.typed.of_same rfl rfl, since.nextId, since.objects,
    since.files, since.created, (since.fds.withHandle id).mono fun n id' => ?_, fun fd prog mem => ?_⟩
  · rintro (⟨prog, mem⟩ | ⟨rfl, -⟩)
    · exact ⟨prog, List.mem_append_left _ mem⟩
    · exact ⟨false, List.mem_append_right _ (List.mem_singleton_self _)⟩
  · rcases List.mem_append.mp mem with mem | mem
    · obtain ⟨above, id', object, found, kind, isProg⟩ := since.handles fd prog mem
      have below := (World.lookupFd_lt allocated.fresh found).2
      refine ⟨above, id', object, ?_, kind, isProg⟩
      simpa [World.lookupFd, World.withHandle, below.ne] using found
    · obtain ⟨rfl, rfl⟩ := List.mem_singleton.mp mem
      obtain ⟨object, found, kind⟩ := since.typed _ id root
      exact ⟨by simpa using since.fds.nextFd, id, object, by simp, found, kind⟩

/-- libbpf pinning a new map at its root. -/
theorem pinRoot (since : w.LoadedSince w₀ loaded) (name : String) {id : ℕ+} {info : MapInfo}
    (created : id < w.nextId) (found : w.objects id = some (.map info)) :
    ({ w with pins := Function.update w.pins (.root name) (some id) } : World).LoadedSince w₀ loaded :=
  ⟨since.allocated.update_pins _ fun _ same => Option.some.inj same ▸ created,
    since.typed.pin found rfl, since.nextId, since.objects, since.files, since.created, since.fds.of_fds rfl rfl,
    since.handles⟩

end World.LoadedSince

/-- An invariant of the results so far that each call of a `mapM` extends holds of all its
results. -/
theorem mapM_accumulates {α β : Type} {f : α → Sys β} (P : World → List β → Prop) :
    ∀ (l : List α), (∀ a ∈ l, ∀ w done b w', P w done → f a w = some (b, w') → P w' (done ++ [b])) →
      ∀ (done : List β) {w w' : World} {bs : List β}, P w done → l.mapM f w = some (bs, w') →
        P w' (done ++ bs)
  | [], _, _, _, _, _, held, run => by
    cases run
    simpa using held
  | a :: l, step, done, w, _, _, held, run => by
    rw [List.mapM_cons] at run
    obtain ⟨⟨b, w₁⟩, first, run⟩ := Option.bind_eq_some.mp run
    obtain ⟨⟨bs, w₂⟩, rest, finished⟩ := Option.bind_eq_some.mp run
    cases finished
    simpa using mapM_accumulates P l (fun a' mem => step a' (.tail _ mem)) _
      (step a (.head _) w done b w₁ held first) rest

/-- The handles of a loaded object with their kinds: its maps', then its programs', in the
order `bpf_prog_load` opens them. -/
def LoadedObject.handles (obj : LoadedObject) : List (Int × Bool) :=
  obj.maps.map (fun map => (map.fd, false)) ++ obj.progs.map fun prog => (prog.fd, true)

/-- `bpf_prog_load` answers 0 with an object, and opens exactly the object's handles, each
on a new object of its kind. -/
theorem bpfProgLoad_loaded {file : String} {w w' : World} {ret : Int} {obj : LoadedObject}
    (allocated : w.Allocated) (typed : w.Typed) (run : bpfProgLoad file w = some ((ret, some obj), w')) :
    ret = 0 ∧ w'.LoadedSince w obj.handles := by
  rcases bpfProgLoad_spec run with ⟨_, _, ⟨⟩, -⟩ | ⟨rfl, object, loaded, w₁, files, same, loadedMaps, loadedProgs⟩
  obtain rfl := Option.some.inj same
  have start : World.LoadedSince { w with outcomes := w.outcomes.tail } w [] :=
    .start allocated typed ⟨rfl, rfl, rfl, rfl, rfl⟩ rfl
  have mapped : ∀ map ∈ object.maps, ∀ w₄ done m w₅,
      w₄.LoadedSince w (done.map fun map : LoadedMap => (map.fd, false)) → loadMap map w₄ = some (m, w₅) →
        w₅.LoadedSince w ((done ++ [m]).map fun map : LoadedMap => (map.fd, false)) := by
    intro map mem w₄ done m w₅ since ran
    rcases loadMap_cases map w₄ with ⟨-, id, root, eq⟩ | ⟨-, eq⟩ <;> rw [eq] at ran <;> cases ran
    · simpa using since.reuse root
    · have created := since.create (.map map.info) ⟨file, object, files, map, mem, rfl⟩
      split
      · simpa using created.pinRoot map.name (PNat.lt_add_right _ 1)
          (by simp [World.created] : (w₄.created (.map map.info)).objects w₄.nextId = some (.map map.info))
      · simpa using created
  have afterMaps := mapM_accumulates _ _ mapped [] start loadedMaps
  have afterProgs := mapM_accumulates (fun w' done => w'.LoadedSince w
    (obj.maps.map (fun map => (map.fd, false)) ++ done.map fun prog => (prog.fd, true)))
    _ (fun prog _ w₄ done _ _ since ran => by
      rw [loadProg_eq] at ran
      cases ran
      simpa using since.create (.prog w₄.bootClock) trivial) [] (by simpa using afterMaps) loadedProgs
  exact ⟨rfl, by simpa [LoadedObject.handles] using afterProgs⟩

/-! ## The phases: pins and handles on maps, no new object -/

/-- A world of the load's phases against the world `w₁` that `bpf_prog_load` left: the
pins are typed, the objects are those of `w₁`, and every handle opened since is on a map. -/
structure World.InPhases (w w₁ : World) : Prop where
  typed : w.Typed
  objects : w.objects = w₁.objects
  files : w.files = w₁.files
  fds : w.FdsSince w₁ fun _ id => w₁.IsMap id

namespace World.InPhases

variable {w₁ w w' : World}

theorem start (typed : w₁.Typed) (fresh : w₁.FreshFds) : w₁.InPhases w₁ :=
  ⟨typed, rfl, rfl, (FdsSince.start fresh).mono fun _ _ => False.elim⟩

theorem of_steady (phases : w.InPhases w₁) (same : w.SameHandles w') : w'.InPhases w₁ :=
  ⟨same.typed phases.typed, same.objects.trans phases.objects, same.files.trans phases.files,
    phases.fds.of_fds same.fds same.nextFd⟩

/-- Opening a handle on a map. -/
theorem withHandle (phases : w.InPhases w₁) {id : ℕ+} (map : w.IsMap id) : (w.withHandle id).InPhases w₁ := by
  refine ⟨phases.typed.of_same rfl rfl, phases.objects, phases.files, (phases.fds.withHandle id).mono fun _ _ => ?_⟩
  rintro (before | ⟨-, rfl⟩)
  · exact before
  · simpa only [World.IsMap, phases.objects] using map

/-- The handles `bpf_prog_load` opened stay open on the same objects. -/
theorem handleKind (phases : w.InPhases w₁) (fresh : w₁.FreshFds) {fd : Int} {prog : Bool}
    (kind : w₁.HandleKind fd prog) : w.HandleKind fd prog := by
  obtain ⟨id, object, found, objectFound, isProg⟩ := kind
  obtain ⟨valid, below⟩ := World.lookupFd_lt fresh found
  refine ⟨id, object, ?_, phases.objects ▸ objectFound, isProg⟩
  simpa only [World.lookupFd, valid, if_true, phases.fds.old _ below] using found

end World.InPhases

section Phases

variable {α : Type} {w₁ : World}

theorem Keeps.phases {m : Sys α} (steady : Steady m) : Keeps (·.InPhases w₁) m :=
  .of_steady steady fun _ _ phases same => phases.of_steady same

theorem bpfMapSetPinPath_steady : Steady bpfMapSetPinPath :=
  nextOutcome_steady.bind fun
    | some e => fail_steady e
    | none => .pure _

theorem bpfProgTestRun_steady (progFd : Int) : Steady (bpfProgTestRun progFd) :=
  .outcome (fun e => fail_steady e) fun w => (Steady.ite (fail_steady _) (.pure _)) w

theorem initializeMaps_steady (defs : BpfDefs) : ∀ (ret : Int) (progs : List LoadedProg),
    Steady (initializeMaps defs ret progs)
  | _, [] => .pure _
  | ret, _ :: progs =>
    .ite ((bpfProgTestRun_steady _).bind fun _ =>
      .ite (getErrno_steady.bind fun _ => .pure _) (initializeMaps_steady defs _ progs))
      (initializeMaps_steady defs ret progs)

/-- `open_bpf_map` opens its handle on the map pinned under the map's name. -/
theorem openBpfMap_inPhases (ctx : NikssContext) (name : String) (btf : Option Btf) :
    Keeps (·.InPhases w₁) (openBpfMap ctx name btf) := by
  intro w phases r w' run
  rcases openBpfMap_effect run with same | ⟨id, pinned, same⟩
  · exact phases.of_steady same
  · exact (phases.withHandle (phases.typed.isMap pinned rfl)).of_steady same

variable (fresh : w₁.FreshFds)
include fresh

/-- Pinning a handle of the load under an entry of its kind. -/
theorem bpfObjPin_inPhases {fd : Int} (path : Path) (kind : w₁.HandleKind fd path.isProg) :
    Keeps (·.InPhases w₁) (bpfObjPin fd path) := by
  refine Keeps.outcome (fun _ _ phases same => phases.of_steady same) (fun e => .phases (fail_steady e))
    fun w phases => ?_
  obtain ⟨id, object, found, objectFound, isProg⟩ := phases.handleKind fresh kind
  split
  · exact Keeps.phases (fail_steady _) w phases
  · exact Keeps.phases (fail_steady _) w phases
  · rename_i id' _ found'
    obtain rfl : id = id' := Option.some.inj (found.symm.trans found')
    rintro r w' ⟨⟩
    exact ⟨phases.typed.pin objectFound isProg, phases.objects, phases.files, phases.fds.of_fds rfl rfl⟩

omit fresh in
theorem bpfMapUnpin_inPhases (map : LoadedMap) : Keeps (·.InPhases w₁) (bpfMapUnpin map) := by
  refine Keeps.outcome (fun _ _ phases same => phases.of_steady same) (fun e => .phases (fail_steady e))
    fun w phases => ?_
  split
  · exact Keeps.phases (fail_steady _) w phases
  · rintro r w' ⟨⟩
    exact ⟨phases.typed.unpin _, phases.objects, phases.files, phases.fds.of_fds rfl rfl⟩

omit fresh in
/-- Wiring a partition opens the index table and the partition, both maps. -/
theorem joinTupleToMapIfTuple_inPhases (ctx : NikssContext) (tupleName : String) :
    Keeps (·.InPhases w₁) (joinTupleToMapIfTuple ctx tupleName) := by
  unfold joinTupleToMapIfTuple
  split
  · exact .pure _
  · simp only [pure_bind]
    exact (openBpfMap_inPhases _ _ _).bind fun ⟨_, _⟩ => .ite (.pure _) <|
      (Keeps.phases (Steady.liftM _)).bind fun ⟨_, _⟩ => .ite (.pure _) <|
        (openBpfMap_inPhases _ _ _).bind fun ⟨_, _⟩ => .ite (.pure _) <|
          (Keeps.phases (bpfMapUpdateElem_steady _ _ _)).bind fun _ => .pure _

theorem pinPrograms_inPhases (ctx : NikssContext) : ∀ (ret : Int) (progs : List LoadedProg),
    (∀ prog ∈ progs, w₁.HandleKind prog.fd true) → Keeps (·.InPhases w₁) (pinPrograms ctx ret progs)
  | _, [], _ => .pure _
  | _, prog :: progs, kinds => (bpfObjPin_inPhases fresh (buildEbpfProgFilename ctx _) (kinds prog (.head _))).bind fun ret =>
    .ite (.pure _) (pinPrograms_inPhases ctx ret progs fun prog' mem => kinds prog' (.tail _ mem))

theorem pinMapByName_inPhases (ctx : NikssContext) (ret : Int) {map : LoadedMap}
    (kind : w₁.HandleKind map.fd false) : Keeps (·.InPhases w₁) (pinMapByName ctx ret map) := by
  simp only [pinMapByName, pure_bind]
  exact .ite (.pure _) <| (Keeps.phases bpfMapSetPinPath_steady).bind fun _ => .ite (.pure _) <|
    (bpfObjPin_inPhases fresh (buildEbpfMapFilename ctx _) kind).bind fun _ => .ite (.pure _) <|
      (joinTupleToMapIfTuple_inPhases _ _).bind fun _ => .ite (.pure _) (.pure _)

theorem pinMaps_inPhases (ctx : NikssContext) : ∀ (ret : Int) (maps : List LoadedMap),
    (∀ map ∈ maps, w₁.HandleKind map.fd false) → Keeps (·.InPhases w₁) (pinMaps ctx ret maps)
  | _, [], _ => .pure _
  | ret, map :: maps, kinds =>
    have kind := kinds map (.head _)
    (Keeps.ite ((bpfMapUnpin_inPhases map).bind fun _ =>
      .ite (.pure _) (pinMapByName_inPhases fresh ctx _ kind)) (pinMapByName_inPhases fresh ctx ret kind)).bind fun
      | .error _ => .pure _
      | .ok ret => pinMaps_inPhases ctx ret maps fun map' mem => kinds map' (.tail _ mem)

/-- The phases pin the load's programs and maps, and open maps only. -/
theorem loadPhases_inPhases (defs : BpfDefs) (ctx : NikssContext) (ret : Int) {obj : LoadedObject}
    (progs : ∀ prog ∈ obj.progs, w₁.HandleKind prog.fd true) (maps : ∀ map ∈ obj.maps, w₁.HandleKind map.fd false) :
    Keeps (·.InPhases w₁) (loadPhases defs ctx ret obj) :=
  (pinPrograms_inPhases fresh ctx ret obj.progs progs).bind fun
    | .error _ => .pure _
    | .ok ret => (pinMaps_inPhases fresh ctx ret obj.maps maps).bind fun
      | .error _ => .pure _
      | .ok ret => (Keeps.phases (initializeMaps_steady defs ret obj.progs)).bind fun
        | .error _ | .ok _ => .pure _

end Phases

/-! ## Closing the object -/

section Close

variable {w₀ : World}

/-- `close` takes a handle the operation opened from the handles opened, and changes no pin
and no object. -/
theorem close_fds {w : World} {opened : Nat → ℕ+ → Prop} {fd : Int} (since : w.FdsSince w₀ opened)
    (above : 0 ≤ fd → w₀.nextFd ≤ fd.toNat) :
    Spec (close fd) (fun _ w' => w'.FdsSince w₀ (fun n id => opened n id ∧ (n : Int) ≠ fd) ∧
      w'.pins = w.pins ∧ w'.objects = w.objects ∧ w'.files = w.files) w := by
  rintro r w' ⟨⟩
  exact ⟨since.close above, by split_ifs <;> rfl, by split_ifs <;> rfl, by split_ifs <;> rfl⟩

/-- A loop closing one handle an element, each opened by the operation. -/
theorem forIn_close_fds {α : Type} (fd : α → Int) : ∀ (l : List α) {w : World} {opened : Nat → ℕ+ → Prop},
    w.FdsSince w₀ opened → (∀ a ∈ l, 0 ≤ fd a → w₀.nextFd ≤ (fd a).toNat) →
    Spec (forIn l PUnit.unit fun a _ => do close (fd a); pure (ForInStep.yield PUnit.unit) : Sys PUnit)
      (fun _ w' => w'.FdsSince w₀ (fun n id => opened n id ∧ ∀ a ∈ l, (n : Int) ≠ fd a) ∧
        w'.pins = w.pins ∧ w'.objects = w.objects ∧ w'.files = w.files) w
  | [], _, _, since, _ => .pure ⟨since.mono fun _ _ held => ⟨held, fun _ none => nomatch none⟩, rfl, rfl, rfl⟩
  | a :: l, _, _, since, above => by
    simp only [List.forIn_cons, bind_assoc, pure_bind]
    refine (close_fds since (above a (.head _))).bind fun _ _ ⟨since₁, pins₁, objects₁, files₁⟩ =>
      (forIn_close_fds fd l since₁ fun a' mem => above a' (.tail _ mem)).mono
        fun _ _ ⟨since₂, pins₂, objects₂, files₂⟩ => ⟨since₂.mono fun n id ⟨⟨held, first⟩, rest⟩ => ⟨held, ?_⟩,
          pins₂.trans pins₁, objects₂.trans objects₁, files₂.trans files₁⟩
    exact List.forall_mem_cons.mpr ⟨first, rest⟩

/-- `bpf_object__close` closes every handle of the object, and changes no pin and no
object. -/
theorem bpfObjectClose_fds {w : World} {opened : Nat → ℕ+ → Prop} (obj : LoadedObject)
    (since : w.FdsSince w₀ opened) (above : ∀ fd prog, (fd, prog) ∈ obj.handles → w₀.nextFd ≤ fd.toNat) :
    Spec (bpfObjectClose obj) (fun _ w' => w'.FdsSince w₀ (fun n id => opened n id ∧
      ∀ prog, ((n : Int), prog) ∉ obj.handles) ∧ w'.pins = w.pins ∧ w'.objects = w.objects ∧
      w'.files = w.files) w := by
  refine (forIn_close_fds LoadedProg.fd obj.progs since fun prog mem _ => above _ true ?_).bind
    fun _ _ ⟨since₁, pins₁, objects₁, files₁⟩ =>
      (forIn_close_fds LoadedMap.fd obj.maps since₁ fun map mem _ => above _ false ?_).bind
        fun _ _ ⟨since₂, pins₂, objects₂, files₂⟩ => .pure ⟨since₂.mono fun n id ⟨⟨held, progs⟩, maps⟩ =>
          ⟨held, fun prog mem => ?_⟩, pins₂.trans pins₁, objects₂.trans objects₁, files₂.trans files₁⟩
  · exact List.mem_append_right _ (List.mem_map_of_mem _ mem)
  · exact List.mem_append_left _ (List.mem_map_of_mem (fun map : LoadedMap => (map.fd, false)) mem)
  · simp only [LoadedObject.handles, List.mem_append, List.mem_map, Prod.mk.injEq] at mem
    rcases mem with ⟨map, mem, same, -⟩ | ⟨prog', mem, same, -⟩
    · exact maps map mem same.symm
    · exact progs prog' mem same.symm

end Close

/-! ## What an operation leaves -/

/-- What a run from `w` leaves in `w'`: the pins are typed, the objects of `w` are as they
were and every other object is one the object files of `w` define, which are as they were,
the handles open in `w` are as they were, and every handle opened since and still open is on
a map. -/
structure World.OnlyMapsSince (w' w : World) : Prop where
  typed : w'.Typed
  objects : ∀ id < w.nextId, w'.objects id = w.objects id
  files : w'.files = w.files
  created : ∀ id object, w'.objects id = some object → w.objects id = some object ∨ object.FromFiles w.files
  fds : w'.FdsSince w fun _ id => w'.IsMap id

namespace World.OnlyMapsSince

variable {w w₁ w₂ : World}

/-- An operation that pins and creates nothing and opens maps only. -/
theorem of_handles {opened : Nat → ℕ+ → Prop} (since : w₁.HandlesSince w opened) (typed : w.Typed)
    (maps : ∀ n id, opened n id → w.IsMap id) : w₁.OnlyMapsSince w :=
  ⟨typed.of_same since.pins since.objects, fun id _ => congrFun since.objects id, since.files,
    fun _ _ found => .inl (since.objects ▸ found),
    since.toFdsSince.mono fun n id held => by simpa only [World.IsMap, since.objects] using maps n id held⟩

/-- Two runs one after the other, the first ending allocated: its handles are on objects
it created, which the second keeps. -/
theorem trans (first : w₁.OnlyMapsSince w) (second : w₂.OnlyMapsSince w₁) (allocated : w₁.Allocated)
    (nextId : w.nextId ≤ w₁.nextId) : w₂.OnlyMapsSince w := by
  refine ⟨second.typed, fun id below => (second.objects id (lt_of_lt_of_le below nextId)).trans
    (first.objects id below), second.files.trans first.files, fun id object found => ?_,
    ⟨first.fds.nextFd.trans second.fds.nextFd, fun n below => ?_, fun n id above found => ?_⟩⟩
  · rcases second.created id object found with old | fromFiles
    · exact first.created id object old
    · exact .inr (first.files ▸ fromFiles)
  · exact (second.fds.old n (below.trans_le first.fds.nextFd)).trans (first.fds.old n below)
  · by_cases before : n < w₁.nextFd
    · have found₁ : w₁.fds n = some id := second.fds.old n before ▸ found
      obtain ⟨info, map⟩ := first.fds.new n id above found₁
      exact ⟨info, (second.objects id (allocated.opened n id found₁)).trans map⟩
    · exact second.fds.new n id (not_lt.mp before) found

end World.OnlyMapsSince

/-- A `bpf_prog_load` without an object opened nothing. -/
theorem bpfProgLoad_failed {file : String} {w w' : World} {ret : Int}
    (run : bpfProgLoad file w = some ((ret, none), w')) : w.SameHandles w' := by
  rcases bpfProgLoad_spec run with ⟨e, -, -, -, rfl⟩ | ⟨-, -, -, -, -, ⟨⟩, -⟩
  exact ⟨rfl, rfl, rfl, rfl, rfl⟩

/-- A load leaves open only the handles its phases opened, all on maps:
`bpf_object__close` closes every handle `bpf_prog_load` opened. -/
theorem nikssPipelineLoad_onlyMaps (defs : BpfDefs) (ctx : NikssContext) (file : String) {w : World}
    (allocated : w.Allocated) (typed : w.Typed) :
    Spec (nikssPipelineLoad defs ctx file) (fun _ w' => w'.OnlyMapsSince w) w := by
  intro r w' run
  obtain ⟨⟨⟨ret, obj⟩, w₁⟩, loaded, run⟩ := Option.bind_eq_some.mp run
  rcases obj with _ | obj
  · cases run
    exact .of_handles ((World.HandlesSince.start allocated.fresh).of_steady (bpfProgLoad_failed loaded)) typed
      fun _ _ => False.elim
  · obtain ⟨rfl, since⟩ := bpfProgLoad_loaded allocated typed loaded
    have fresh₁ := since.allocated.fresh
    simp only [lt_irrefl, if_false, loadObject] at run
    obtain ⟨⟨_, w₂⟩, phased, run⟩ := Option.bind_eq_some.mp run
    obtain ⟨⟨_, w₃⟩, closed, done⟩ := Option.bind_eq_some.mp run
    cases done
    have phases := loadPhases_inPhases fresh₁ defs ctx 0
      (fun prog mem => (since.handles _ true (List.mem_append_right _ (List.mem_map_of_mem _ mem))).2)
      (fun map mem => (since.handles _ false (List.mem_append_left _
        (List.mem_map_of_mem (fun map : LoadedMap => (map.fd, false)) mem))).2)
      w₁ (.start since.typed fresh₁) _ _ phased
    obtain ⟨closedFds, pins, objects, files⟩ := bpfObjectClose_fds obj (since.fds.trans phases.fds)
      (fun fd prog mem => (since.handles fd prog mem).1) _ _ closed
    refine ⟨phases.typed.of_same pins objects, fun id below => ?_, files.trans (phases.files.trans since.files),
      fun id object found => since.created id object (by rwa [objects, phases.objects] at found),
      closedFds.mono fun n id ⟨held, unloaded⟩ => ?_⟩
    · rw [objects, phases.objects]
      exact since.objects id below
    · rcases held with ⟨prog, loaded⟩ | map
      · exact absurd loaded (unloaded prog)
      · simpa only [World.IsMap, objects, phases.objects] using map

theorem nikssPipelineDelPort_steady (interface : String) : Steady (nikssPipelineDelPort interface) := by
  simp only [nikssPipelineDelPort, pure_bind]
  refine (ifNametoindex_steady _).bind fun _ => .ite (.pure _) ?_
  refine (bpfSetLinkXdpFd_steady _ _ _).bind fun _ => .ite (.pure _) ?_
  exact (bpfTcHookDestroy_steady _).bind fun _ =>
    .ite (getErrno_steady.bind fun _ => .ite (.pure _) (.pure _)) (.pure _)

/-- An unload only removes pins. -/
theorem nikssPipelineUnload_onlyMaps (ctx : NikssContext) (walk : Except Nat (List FtwEntry)) {w : World}
    (typed : w.Typed) (fresh : w.FreshFds) :
    Spec (nikssPipelineUnload ctx walk) (fun _ w' => w'.OnlyMapsSince w) w := by
  intro r w' run
  rcases walk with e | entries
  · rw [nikssPipelineUnload_of_error] at run
    cases run
    exact .of_handles ((World.HandlesSince.start fresh).of_steady ⟨rfl, rfl, rfl, rfl, rfl⟩) typed fun _ _ => False.elim
  · obtain ⟨errno, unloaded⟩ := nikssPipelineUnload_apply ctx entries w
    rw [unloaded] at run
    cases run
    refine ⟨typed.of_removed (fun path id pinned => ?_) rfl, fun _ _ => rfl, rfl, fun _ _ found => .inl found,
      .of_same fresh rfl rfl⟩
    simp only [unpinAll] at pinned
    split_ifs at pinned
    exact pinned

/-- Every operation leaves what `World.OnlyMapsSince` says: the port operations, the
queries and the unload pin and create nothing, and the handles they leave open are on
objects pinned under maps' names. -/
theorem Op.run_onlyMaps (defs : BpfDefs) (op : Op) {w : World} (allocated : w.Allocated) (typed : w.Typed) :
    Spec (op.run defs) (fun _ w' => w'.OnlyMapsSince w) w := by
  have start := World.HandlesSince.start allocated.fresh
  have opensNothing : ∀ (n : Nat) (id : ℕ+), False → w.IsMap id := fun _ _ => False.elim
  cases op with
  | load ctx file => exact (nikssPipelineLoad_onlyMaps defs ctx file allocated typed).bind fun _ _ left => .pure left
  | unload ctx walk =>
    exact (nikssPipelineUnload_onlyMaps ctx walk typed allocated.fresh).bind fun _ _ left => .pure left
  | addPort ctx interface =>
    refine (nikssPipelineAddPort_handles defs ctx interface start).bind fun _ _ since =>
      .pure (.of_handles since typed fun n id => Or.rec False.elim fun ⟨_, pinned⟩ => ?_)
    rcases pinned with devmap | jumpTable
    exacts [typed.isMap devmap rfl, typed.isMap jumpTable rfl]
  | delPort ctx interface =>
    exact ((nikssPipelineDelPort_steady interface).handles start).bind fun _ _ since =>
      .pure (.of_handles since typed opensNothing)
  | listPorts ctx calls =>
    exact (@Op.run_query_handles defs (.listPorts ctx calls) rfl _ _ _ start).mono fun _ _ since => .of_handles since typed opensNothing
  | getLoadTimestamp ctx =>
    exact (@Op.run_query_handles defs (.getLoadTimestamp ctx) rfl _ _ _ start).mono fun _ _ since => .of_handles since typed opensNothing
  | openMap ctx name btf =>
    intro r w' run
    obtain ⟨⟨_, w₁⟩, opened, done⟩ := Option.bind_eq_some.mp run
    cases done
    rcases openBpfMap_effect opened with same | ⟨id, pinned, same⟩
    · exact .of_handles (start.of_steady same) typed opensNothing
    · refine .of_handles ((start.withHandle id).of_steady same) typed fun n id' => ?_
      rintro (none | ⟨-, rfl⟩)
      exacts [none.elim, typed.isMap pinned rfl]

/-- Any run of operations leaves what `World.OnlyMapsSince` says against its start. -/
theorem runOps_onlyMaps (defs : BpfDefs) :
    ∀ (ops : List Op) {w w' : World}, w.Allocated → w.Typed → runOps defs ops w = some ((), w') →
      w'.OnlyMapsSince w
  | [], _, _, allocated, typed, run => by
    cases run
    exact .of_handles (.start allocated.fresh) typed fun _ _ => False.elim
  | op :: ops, w, _, allocated, typed, run => by
    obtain ⟨⟨_, w₁⟩, ran, rest⟩ := Option.bind_eq_some.mp run
    obtain ⟨allocated₁, confined⟩ :=
      Op.run_confined defs op w allocated (fun path id named pinned => .inr (.inl ⟨path, named, pinned⟩)) _ w₁ ran
    have first := Op.run_onlyMaps defs op allocated typed _ _ ran
    exact first.trans (runOps_onlyMaps defs ops allocated₁ first.typed rest) allocated₁ confined.nextId

/-- No run leaks a handle on a program. From a state where every pin and open handle names
a created object, the handles from `nextFd` on are free, and the pins are typed, every run
of operations, in any order, on any pipelines and whatever the kernel answers, keeps the
pins typed and every object as it was, leaves every handle open at its start open on the
same object, and leaves open only handles on maps: those `join_tuple_to_map_if_tuple`
opens during a load, those `add_port` forgets, and those `open_bpf_map` hands to the
caller. Every program handle the library opens, it closes. -/
theorem runOps_leaves_only_map_handles (defs : BpfDefs) :
    ∀ (ops : List Op) {w w' : World}, w.Allocated → w.Typed → runOps defs ops w = some ((), w') →
      w'.Typed ∧ (∀ id < w.nextId, w'.objects id = w.objects id) ∧ (∀ n < w.nextFd, w'.fds n = w.fds n) ∧
        ∀ n id, w.nextFd ≤ n → w'.fds n = some id → ∃ info, w'.objects id = some (.map info) :=
  fun ops _ _ allocated typed run =>
    have left := runOps_onlyMaps defs ops allocated typed run
    ⟨left.typed, left.objects, left.fds.old, left.fds.new⟩

set_option maxRecDepth 4000 in
set_option smartUnfolding false in
/-- `runOps_leaves_only_map_handles` from a booted kernel over the load of an object with one
program whose partition `t_tuple_0` is wired into its index table, which libbpf pins at its
root, and the opening of the partition: the load closes the handles 0, 1 and 2
`bpf_prog_load` opened on the two maps and the program, and leaves handles 3 and 4 of the
wiring open on the two maps, and the caller holds handle 5. -/
theorem runOps_leaves_only_map_handles_over_a_load :
    let defs : BpfDefs := ⟨"tc-ingress", "tc-egress", "xdp-ingress", "xdp-egress",
      "xdp-egress-optimized", "xdp-helper", "tc-init", "xdp-init", "devmap", "jump-table", by decide⟩
    let obj : ObjectFile := ⟨[⟨"xdp-ingress"⟩], [⟨"t_tuples_map", ⟨12, 4, 4, 4, 0, 0⟩, true⟩,
      ⟨"t_tuple_0", ⟨1, 4, 4, 16, 0, 0⟩, false⟩]⟩
    let w := World.boot (fun file => if file = "p.o" then some obj else none) [] (fun _ => .bare false) []
    let ops : List Op := [.load ⟨0⟩ "p.o", .openMap ⟨0⟩ "t_tuple_0" none]
    ∃ w', runOps defs ops w = some ((), w') ∧ w'.fds 0 = none ∧ w'.fds 1 = none ∧ w'.fds 2 = none ∧
      w'.fds 3 = some 1 ∧ w'.fds 4 = some 2 ∧ w'.fds 5 = some 2 ∧
      (w'.Typed ∧ (∀ id < w.nextId, w'.objects id = w.objects id) ∧ (∀ n < w.nextFd, w'.fds n = w.fds n) ∧
        ∀ n id, w.nextFd ≤ n → w'.fds n = some id → ∃ info, w'.objects id = some (.map info)) := by
  intro defs obj w ops
  exact ⟨_, rfl, rfl, rfl, rfl, rfl, rfl, rfl, runOps_leaves_only_map_handles defs ops (World.boot_allocated _ _ _ _)
    (World.boot_typed _ _ _ _) rfl⟩

end Nikss
