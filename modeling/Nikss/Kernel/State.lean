import Mathlib.Data.PNat.Basic
import Nikss.Common

/-! # The kernel as the library sees it

The state the control plane acts on: the BPF filesystem (pinned objects by path), the
kernel objects and map contents, the process's open handles, the network interfaces
with their XDP and TC hooks, the compiled object files on disk, the clocks, `errno`, and
the lines written to `stderr`.

Kernel and libbpf calls may fail for reasons outside the model (permissions, memory,
verifier, driver). Those outcomes are an explicit sequence: each call takes the next
entry, `some errno` failing it and `none` letting it proceed; once the sequence is used
up every call proceeds. Quantifying over the sequence covers every run of outcomes.

Kernel object ids are positive, as the kernel's are, so an attached program is never
confused with "no program" (id 0).
-/

namespace Nikss

/-- `nikss_context_t`: the pipeline it addresses. -/
structure NikssContext where
  pipelineId : Nat
  deriving DecidableEq, Repr

/-- An entry of the BPF filesystem. -/
inductive Path
  /-- a program of a pipeline -/
  | prog (pipeline : Nat) (name : String)
  /-- a map of a pipeline -/
  | map (pipeline : Nat) (name : String)
  /-- libbpf's default pin root, where it pins maps that ask for it at load -/
  | root (name : String)
  deriving DecidableEq, Repr

/-- Modelled from the spec: `build_ebpf_prog_filename` (common.c, not among the sources)
names a program's entry in the pipeline's directory. -/
def buildEbpfProgFilename (ctx : NikssContext) (name : String) : Path := .prog ctx.pipelineId name

/-- Modelled from the spec: `build_ebpf_map_filename` (common.c, not among the sources)
names a map's entry in the pipeline's directory. -/
def buildEbpfMapFilename (ctx : NikssContext) (name : String) : Path := .map ctx.pipelineId name

/-- The fields of `struct bpf_map_info` the library reads. -/
structure MapInfo where
  type : Nat
  keySize : Nat
  valueSize : Nat
  maxEntries : Nat
  btfKeyTypeId : Nat
  btfValueTypeId : Nat
  deriving DecidableEq, Repr

/-- Map types whose keys are indices below `max_entries`. -/
def MapInfo.IsArray (info : MapInfo) : Prop := info.type ∈ [2, 3, 12, 14]

instance (info : MapInfo) : Decidable info.IsArray := inferInstanceAs (Decidable (info.type ∈ _))

/-- A kernel object. -/
inductive KObject
  /-- a program and its load time (`bpf_prog_info.load_time`, ns since boot) -/
  | prog (loadTime : Nat)
  | map (info : MapInfo)
  deriving DecidableEq, Repr

/-- A map slot: an object (inner map, program) or a `struct bpf_devmap_val`. -/
inductive MapValue
  | obj (id : ℕ+)
  | devmap (ifindex : Int) (prog : Option ℕ+)
  deriving DecidableEq, Repr

/-- A value as user space writes it, holding handles the kernel resolves. -/
inductive UserValue
  | fd (fd : Int)
  | devmap (ifindex : Int) (progFd : Int)
  deriving DecidableEq, Repr

/-- The hooks of one network interface. `ndoBpf` is whether the driver implements
native (driver-mode) XDP; a driver that implements it may still refuse a program. -/
structure Iface where
  ndoBpf : Bool
  xdpDrv : Option ℕ+
  xdpSkb : Option ℕ+
  clsact : Bool
  tcIngress : List ℕ+
  tcEgress : List ℕ+
  deriving DecidableEq, Repr

/-- An interface without programs or hooks. -/
def Iface.bare (ndoBpf : Bool) : Iface := ⟨ndoBpf, none, none, false, [], []⟩

/-- A program of a compiled object, by section name. -/
structure ProgDef where
  sectionName : String
  deriving DecidableEq, Repr

/-- A map of a compiled object; `pinned` is whether libbpf pinned it at load time (at
its default pin root) because the object asks for it. -/
structure MapDef where
  name : String
  info : MapInfo
  pinned : Bool
  deriving DecidableEq, Repr

/-- A compiled object file, programs and maps in the order libbpf enumerates them. -/
structure ObjectFile where
  progs : List ProgDef
  maps : List MapDef
  deriving DecidableEq, Repr

/-- A program of a loaded `struct bpf_object`: its section, handle and kernel id. -/
structure LoadedProg where
  sectionName : String
  fd : Int
  id : ℕ+
  deriving DecidableEq, Repr

/-- A map of a loaded `struct bpf_object`. -/
structure LoadedMap where
  name : String
  pinned : Bool
  fd : Int
  id : ℕ+
  deriving DecidableEq, Repr

/-- A loaded `struct bpf_object`. -/
structure LoadedObject where
  progs : List LoadedProg
  maps : List LoadedMap
  deriving DecidableEq, Repr

/-- The kernel, the BPF filesystem and the calling process. -/
structure World where
  pins : Path → Option ℕ+
  objects : ℕ+ → Option KObject
  elems : ℕ+ → Nat → Option MapValue
  fds : Nat → Option ℕ+
  nextFd : Nat
  nextId : ℕ+
  links : List (Nat × String)
  ifaces : Nat → Iface
  files : String → Option ObjectFile
  bootClock : Nat
  uptime : Float
  wallClock : Float
  errno : Nat
  stderr : List String
  outcomes : List (Option ℕ+)

/-- A world where nothing is pinned, loaded or open yet. -/
def World.boot (files : String → Option ObjectFile) (links : List (Nat × String))
    (ifaces : Nat → Iface) (outcomes : List (Option ℕ+)) : World where
  pins _ := none
  objects _ := none
  elems _ _ := none
  fds _ := none
  nextFd := 0
  nextId := 1
  links := links
  ifaces := ifaces
  files := files
  bootClock := 0
  uptime := 0
  wallClock := 0
  errno := 0
  stderr := []
  outcomes := outcomes

/-- The library's C code: a computation on the world that may crash (`none`). -/
abbrev Sys := StateT World Option

/-! ## Running a computation on a world -/

namespace Sys

variable {α β : Type} (w : World)

@[simp] theorem bind_apply (x : Sys α) (f : α → Sys β) :
    (x >>= f) w = (x w).bind fun result => f result.1 result.2 := rfl

@[simp] theorem pure_apply (a : α) : (pure a : Sys α) w = some (a, w) := rfl

@[simp] theorem map_apply (f : α → β) (x : Sys α) :
    (f <$> x) w = (x w).map fun result => (f result.1, result.2) := by
  show (x w).bind _ = _
  cases x w <;> rfl

@[simp] theorem liftM_apply (x : Option α) : (liftM x : Sys α) w = x.map fun a => (a, w) := by
  cases x <;> rfl

@[simp] theorem get_apply : (get : Sys World) w = some (w, w) := rfl

@[simp] theorem set_apply (w' : World) : (set w' : Sys PUnit) w = some (⟨⟩, w') := rfl

@[simp] theorem modify_apply (f : World → World) : (modify f : Sys PUnit) w = some (⟨⟩, f w) := rfl

end Sys

end Nikss
